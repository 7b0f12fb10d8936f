import Vanguard.Services.Schemas

/-!
# `Vanguard.Proofs.Schemas`: what the schemas return

A result of a schema should satisfy the schema, and parse to itself. The strings are trimmed
after they have been checked, so a text can lose its length. `schema_normal_iff` says for each
schema when that does not happen (`Schema.LongEnough`): the trimmed texts of the fields in its
`bounds` reach their lower bounds. All other checks survive the `trim`.

`Schema.Normalises` is the law of one schema, with a lemma for each combinator of `Zod`.
`recordPayment_json` relates the schemas to the ones of `Vanguard.Services.Routes`.
-/

set_option autoImplicit false

namespace Vanguard

/-! ### The law -/

/-- Each text that the schema bounds from below is long enough without its surrounding white
space. -/
def Schema.LongEnough (s : Schema) (x : JsValue) : Prop :=
  ∀ b ∈ s.bounds, ∀ text, x.follow b.1 = .string text → b.2 ≤ jsLength (trim text)

/-- The value satisfies the schema and is its own result. -/
def Schema.Normal (s : Schema) (v : JsValue) : Prop :=
  s.satisfies v = true ∧ s.parse v = some v

/-- The results of the schema are normal exactly when the texts of the input are long enough. -/
def Schema.Normalises (s : Schema) : Prop :=
  ∀ x v, s.parse x = some v → (s.Normal v ↔ s.LongEnough x)

/-! ### Strings, numbers and dates -/

/-- A schema without bounded texts asks no text to be long enough. -/
theorem Schema.longEnough_of_nil {s : Schema} (h : s.bounds = []) (x : JsValue) :
    s.LongEnough x := by
  intro b hb
  rw [h] at hb
  cases hb

/-- A test returns its input. -/
theorem Zod.test_normalises (p : JsValue → Bool) : (Zod.test p).Normalises := by
  intro x v h
  have hp : p x = true ∧ x = v := by
    change (if p x = true then some x else none) = some v at h
    split at h
    · rename_i hp
      exact ⟨hp, Option.some.inj h⟩
    · cases h
  obtain ⟨hp, rfl⟩ := hp
  exact ⟨fun _ => Schema.longEnough_of_nil rfl x, fun _ => ⟨hp, h⟩⟩

/-- A valid date is its own date. -/
theorem Zod.coerceDate_normalises (runtime : SchemaRuntime) :
    (Zod.coerceDate runtime).Normalises := by
  intro x v h
  obtain ⟨time, -, rfl⟩ := Option.map_eq_some_iff.mp h
  exact ⟨fun _ => Schema.longEnough_of_nil rfl x, fun _ => ⟨rfl, rfl⟩⟩

/-- A check that has seen the text holds of the trimmed text, if that reaches the lower bound
of the check. -/
theorem Check.passes_trim {c : Check}
    (hformat : ∀ p, c = .format p → ∀ s, p s = true → Vanguard.trim s = s) {text : String}
    (h : Pipeline.passes Check.test c text = true ∨
      Pipeline.passes Check.test c (Vanguard.trim text) = true) :
    Pipeline.passes Check.test c (Vanguard.trim text) = true ↔
      ∀ n ∈ c.lower, n ≤ jsLength (Vanguard.trim text) := by
  have hle := jsLength_trim_le text
  cases c with
  | min n => simp [Pipeline.passes, test, lower]
  | max n =>
      simp only [Pipeline.passes, test, decide_eq_true_eq] at h
      simp only [Pipeline.passes, test, lower, decide_eq_true_eq]
      constructor
      · intro _ m hm
        cases hm
      · intro _
        omega
  | length n =>
      simp only [Pipeline.passes, test, decide_eq_true_eq] at h
      simp only [Pipeline.passes, test, lower, decide_eq_true_eq, Option.mem_def,
        Option.some.injEq, forall_eq']
      omega
  | format p =>
      simp only [Pipeline.passes, test] at h
      simp only [Pipeline.passes, test, lower]
      constructor
      · intro _ m hm
        cases hm
      · intro _
        -- The pattern matches no white space, so there was nothing to trim.
        rcases h with h | h
        · rw [hformat p rfl text h]
          exact h
        · exact h
  | trim => simp [Pipeline.passes, test, lower]

/-- A chain of checks whose patterns match no surrounding white space. -/
theorem Zod.string_normalises {checks : List Check}
    (hformat : ∀ p, .format p ∈ checks → ∀ s, p s = true → trim s = s) :
    (Zod.string checks).Normalises := by
  intro x v h
  cases x with
  | string text =>
      obtain ⟨out, hrun, rfl⟩ := Option.map_eq_some_iff.mp h
      have hnormal := Pipeline.run_normal_iff trim_trim hrun
      have hleft : (Zod.string checks).Normal (.string out) ↔
          (∀ c ∈ checks, Pipeline.passes Check.test c out = true) ∧
            Pipeline.run trim Check.test checks out = some out := by
        refine and_congr List.all_eq_true ?_
        show (Pipeline.run trim Check.test checks out).map JsValue.string = some (.string out) ↔ _
        rw [Option.map_eq_some_iff]
        simp
      have hright : (Zod.string checks).LongEnough (.string text) ↔
          ∀ c ∈ Pipeline.early Check.test checks, ∀ n ∈ c.lower, n ≤ jsLength (trim text) := by
        simp only [Schema.LongEnough, Zod.string, List.mem_map, List.mem_filterMap]
        constructor
        · intro hlong c hc n hn
          exact hlong ([], n) ⟨n, ⟨c, hc, hn⟩, rfl⟩ text rfl
        · rintro hlong b ⟨n, ⟨c, hc, hn⟩, rfl⟩ text' htext
          cases htext
          exact hlong c hc n hn
      rw [hleft, hnormal, hright]
      refine forall₂_congr fun c hc => ?_
      have hmem := Pipeline.early_subset hc
      refine Check.passes_trim (fun p hp => hformat p (hp ▸ hmem)) ?_
      exact Pipeline.passes_of_early trim_trim hrun hmem
  | _ => cases h

/-! ### Fields that may be missing -/

/-- The schema does not resolve to `undefined`. -/
def Schema.Defined (s : Schema) : Prop := ∀ x v, s.parse x = some v → v ≠ .undefined

/-- `z.string()` refuses `undefined`. -/
theorem Zod.string_defined (checks : List Check) : (Zod.string checks).Defined := by
  rintro x v h rfl
  cases x with
  | string text =>
      obtain ⟨out, -, hout⟩ := Option.map_eq_some_iff.mp h
      cases hout
  | _ => cases h

/-- A path below `undefined` leads to `undefined`. -/
theorem JsValue.follow_undefined (path : List String) :
    JsValue.undefined.follow path = .undefined := by
  induction path with
  | nil => rfl
  | cons name path ih => exact ih

/-- `undefined` has no text that is too short. -/
theorem Schema.longEnough_undefined (s : Schema) : s.LongEnough .undefined := by
  intro b _ text htext
  rw [JsValue.follow_undefined] at htext
  cases htext

/-- `optional` changes nothing for a value that is there. -/
theorem Zod.optional_parse (s : Schema) {x : JsValue} (hx : x ≠ .undefined) :
    (Zod.optional s).parse x = s.parse x ∧ (Zod.optional s).satisfies x = s.satisfies x := by
  cases x with
  | undefined => exact absurd rfl hx
  | _ => exact ⟨rfl, rfl⟩

/-- `default` changes nothing for a value that is there. -/
theorem Zod.default_parse (s : Schema) (d : JsValue) {x : JsValue} (hx : x ≠ .undefined) :
    (Zod.default s d).parse x = s.parse x := by
  cases x with
  | undefined => exact absurd rfl hx
  | _ => rfl

/-- `optional` keeps a schema normalising. -/
theorem Zod.optional_normalises {s : Schema} (h : s.Normalises) (hdefined : s.Defined) :
    (Zod.optional s).Normalises := by
  intro x v hv
  by_cases hx : x = .undefined
  · subst hx
    cases hv
    exact ⟨fun _ => Schema.longEnough_undefined _, fun _ => ⟨rfl, rfl⟩⟩
  · rw [(Zod.optional_parse s hx).1] at hv
    obtain ⟨hparse, hsatisfies⟩ := Zod.optional_parse s (hdefined x v hv)
    rw [Schema.Normal, hparse, hsatisfies]
    exact h x v hv

/-- `default` with a normal value keeps a schema normalising. -/
theorem Zod.default_normalises {s : Schema} {d : JsValue} (h : s.Normalises)
    (hdefined : s.Defined) (hd : s.Normal d) : (Zod.default s d).Normalises := by
  intro x v hv
  by_cases hx : x = .undefined
  · subst hx
    cases hv
    refine ⟨fun _ => Schema.longEnough_undefined _, fun _ => ⟨hd.1, ?_⟩⟩
    rw [Zod.default_parse s d (hdefined d d hd.2)]
    exact hd.2
  · rw [Zod.default_parse s d hx] at hv
    rw [Schema.Normal, Zod.default_parse s d (hdefined x v hv)]
    exact h x v hv

/-! ### Objects -/

/-- The empty object has no fields. -/
theorem JsValue.get_nil (name : String) : (JsValue.object []).get name = .undefined := rfl

/-- A field of a result. -/
theorem JsValue.get_entry_self {name : String} {out : List (String × JsValue)}
    (hout : (JsValue.object out).get name = .undefined) (v : JsValue) :
    (JsValue.object (JsValue.entry name v ++ out)).get name = v := by
  cases v with
  | undefined => exact hout
  | _ => simp [get, entry]

/-- The other fields. -/
theorem JsValue.get_entry_ne {name name' : String} (h : name ≠ name')
    (out : List (String × JsValue)) (v : JsValue) :
    (JsValue.object (JsValue.entry name v ++ out)).get name' = (JsValue.object out).get name' := by
  cases v with
  | undefined => rfl
  | _ => simp [get, entry, h]

section

variable {fields : List (String × Schema)} {x : JsValue} {out : List (String × JsValue)}

/-- The result has the results of the fields, and no other ones. -/
theorem Zod.parseFields_get (hnodup : (fields.map Prod.fst).Nodup)
    (h : Zod.parseFields fields x = some out) :
    (∀ f ∈ fields, f.2.parse (x.get f.1) = some ((JsValue.object out).get f.1)) ∧
      ∀ name, name ∉ fields.map Prod.fst → (JsValue.object out).get name = .undefined := by
  induction fields generalizing out with
  | nil =>
      cases h
      exact ⟨List.forall_mem_nil _, fun name _ => JsValue.get_nil name⟩
  | cons f rest ih =>
      obtain ⟨name, s⟩ := f
      rw [List.map_cons, List.nodup_cons] at hnodup
      simp only [Zod.parseFields, Option.bind_eq_bind, Option.bind_eq_some_iff,
        Option.some.injEq] at h
      obtain ⟨v, hv, out', hout', rfl⟩ := h
      obtain ⟨hfields, hother⟩ := ih hnodup.2 hout'
      constructor
      · rw [List.forall_mem_cons]
        constructor
        · rw [JsValue.get_entry_self (hother name hnodup.1)]
          exact hv
        · intro g hg
          have hne : name ≠ g.1 := by
            intro heq
            exact hnodup.1 (List.mem_map.mpr ⟨g, hg, heq.symm⟩)
          rw [JsValue.get_entry_ne hne]
          exact hfields g hg
      · intro name' hname'
        rw [List.map_cons, List.mem_cons, not_or] at hname'
        rw [JsValue.get_entry_ne (Ne.symm hname'.1)]
        exact hother name' hname'.2

/-- The results of the fields make up the result. -/
theorem Zod.parseFields_of {g : String → JsValue}
    (h : ∀ f ∈ fields, f.2.parse (x.get f.1) = some (g f.1)) :
    Zod.parseFields fields x = some (fields.flatMap fun f => JsValue.entry f.1 (g f.1)) := by
  induction fields with
  | nil => rfl
  | cons f rest ih =>
      obtain ⟨name, s⟩ := f
      rw [List.forall_mem_cons] at h
      rw [Zod.parseFields, h.1, ih h.2]
      rfl

/-- A result is its own result exactly when the results of its fields are. -/
theorem Zod.parseFields_self (hnodup : (fields.map Prod.fst).Nodup)
    (h : Zod.parseFields fields x = some out) :
    Zod.parseFields fields (.object out) = some out ↔
      ∀ f ∈ fields, f.2.parse ((JsValue.object out).get f.1) =
        some ((JsValue.object out).get f.1) := by
  constructor
  · intro hself
    exact (Zod.parseFields_get hnodup hself).1
  · intro hself
    have hout := Zod.parseFields_of (Zod.parseFields_get hnodup h).1
    rw [Zod.parseFields_of hself, ← hout]
    exact h

end

/-- An object normalises when its fields do. -/
theorem Zod.object_normalises {fields : List (String × Schema)}
    (hnodup : (fields.map Prod.fst).Nodup) (hfields : ∀ f ∈ fields, f.2.Normalises) :
    (Zod.object fields).Normalises := by
  intro x v h
  have hx : ∃ out, Zod.parseFields fields x = some out ∧ v = .object out := by
    change (if x.isObject = true then (Zod.parseFields fields x).map JsValue.object else none) =
      some v at h
    split at h
    · obtain ⟨out, hout, hv⟩ := Option.map_eq_some_iff.mp h
      exact ⟨out, hout, hv.symm⟩
    · cases h
  obtain ⟨out, hout, rfl⟩ := hx
  have hget := (Zod.parseFields_get hnodup hout).1
  calc (Zod.object fields).Normal (.object out)
      ↔ (∀ f ∈ fields, f.2.satisfies ((JsValue.object out).get f.1) = true) ∧
          Zod.parseFields fields (.object out) = some out := by
        refine and_congr List.all_eq_true ?_
        show (Zod.parseFields fields (.object out)).map JsValue.object = some (.object out) ↔ _
        rw [Option.map_eq_some_iff]
        simp
    _ ↔ ∀ f ∈ fields, f.2.Normal ((JsValue.object out).get f.1) := by
        rw [Zod.parseFields_self hnodup hout, ← forall₂_and]
        rfl
    _ ↔ ∀ f ∈ fields, f.2.LongEnough (x.get f.1) :=
        forall₂_congr fun f hf => hfields f hf _ _ (hget f hf)
    _ ↔ (Zod.object fields).LongEnough x := by
        simp only [Schema.LongEnough, Zod.object, List.mem_flatMap, List.mem_map]
        constructor
        · rintro hlong b ⟨f, hf, b', hb', rfl⟩ text htext
          exact hlong f hf b' hb' text htext
        · intro hlong f hf b hb text htext
          exact hlong (f.1 :: b.1, b.2) ⟨f, hf, b, hb, rfl⟩ text htext

/-! ### The schemas of the routes -/

section

variable {runtime : SchemaRuntime}

/-- A chain of checks without patterns. -/
theorem Zod.lengths_normalise {checks : List Check} (h : ∀ p, .format p ∉ checks) :
    (Zod.string checks).Normalises :=
  Zod.string_normalises fun p hp => absurd hp (h p)

/-- A pattern and a `trim`. -/
theorem Zod.pattern_normalises {pattern : String → Bool}
    (h : ∀ s, pattern s = true → trim s = s) :
    (Zod.string [.format pattern, .trim]).Normalises := by
  refine Zod.string_normalises fun p hp => ?_
  simp only [List.mem_cons, Check.format.injEq, reduceCtorEq, List.not_mem_nil, or_false] at hp
  subst hp
  exact h

/-- `CreateVanSchema` normalises. -/
theorem CreateVanSchema_normalises (h : runtime.Lawful) :
    (CreateVanSchema runtime).Normalises := by
  refine Zod.object_normalises (by simp) ?_
  simp only [List.forall_mem_cons]
  exact ⟨Zod.pattern_normalises h.uuid, Zod.test_normalises _, List.forall_mem_nil _⟩

/-- `RecordPaymentSchema` normalises. -/
theorem RecordPaymentSchema_normalises : (RecordPaymentSchema runtime).Normalises := by
  refine Zod.object_normalises (by simp) ?_
  simp only [List.forall_mem_cons]
  exact ⟨Zod.lengths_normalise (by simp), Zod.test_normalises _,
    Zod.lengths_normalise (by simp), Zod.coerceDate_normalises runtime, List.forall_mem_nil _⟩

/-- `SubmitInvoiceSchema` normalises. -/
theorem SubmitInvoiceSchema_normalises (h : runtime.Lawful) :
    (SubmitInvoiceSchema runtime).Normalises := by
  refine Zod.object_normalises (by simp) ?_
  simp only [List.forall_mem_cons]
  have hcurrency : (Zod.string [.length 3]).Normal (.string "INR") :=
    ⟨by decide +kernel, rfl⟩
  exact ⟨Zod.lengths_normalise (by simp), Zod.pattern_normalises h.uuid, Zod.test_normalises _,
    Zod.default_normalises (Zod.lengths_normalise (by simp)) (Zod.string_defined _) hcurrency,
    Zod.coerceDate_normalises runtime, List.forall_mem_nil _⟩

/-- `ApproveInvoiceSchema` normalises. -/
theorem ApproveInvoiceSchema_normalises : ApproveInvoiceSchema.Normalises := by
  refine Zod.object_normalises (by simp) ?_
  simp only [List.forall_mem_cons]
  exact ⟨Zod.lengths_normalise (by simp), List.forall_mem_nil _⟩

/-- `AssessRiskSchema` normalises. -/
theorem AssessRiskSchema_normalises (h : runtime.Lawful) :
    (AssessRiskSchema runtime).Normalises := by
  have huuid : (Zod.uuid runtime).Normalises := Zod.pattern_normalises h.uuid
  have hpositive : Zod.positiveInt.Normalises := Zod.test_normalises _
  have hnatural : Zod.naturalInt.Normalises := Zod.test_normalises _
  have hdate := Zod.coerceDate_normalises runtime
  have htext : (Zod.string [.min 1, .trim]).Normalises := Zod.lengths_normalise (by simp)
  refine Zod.object_normalises (by simp) ?_
  simp only [List.forall_mem_cons]
  refine ⟨huuid, Zod.object_normalises (by simp) ?_, Zod.object_normalises (by simp) ?_,
    List.forall_mem_nil _⟩
  · simp only [List.forall_mem_cons]
    exact ⟨huuid, hpositive, hpositive, hpositive, htext, htext, List.forall_mem_nil _⟩
  · simp only [List.forall_mem_cons]
    exact ⟨huuid, huuid, huuid, hpositive, hdate, hdate, hnatural, hnatural, hnatural,
      List.forall_mem_nil _⟩

/-- `RegisterSchema` normalises. -/
theorem RegisterSchema_normalises (h : runtime.Lawful) :
    (RegisterSchema runtime).Normalises := by
  refine Zod.object_normalises (by simp) ?_
  simp only [List.forall_mem_cons]
  exact ⟨Zod.lengths_normalise (by simp),
    Zod.optional_normalises (Zod.lengths_normalise (by simp)) (Zod.string_defined _),
    Zod.test_normalises _, Zod.pattern_normalises h.email, Zod.lengths_normalise (by simp),
    List.forall_mem_nil _⟩

/-- `LoginSchema` normalises. -/
theorem LoginSchema_normalises (h : runtime.Lawful) : (LoginSchema runtime).Normalises := by
  refine Zod.object_normalises (by simp) ?_
  simp only [List.forall_mem_cons]
  exact ⟨Zod.pattern_normalises h.email, Zod.lengths_normalise (by simp), List.forall_mem_nil _⟩

/-- What a schema of a route returns satisfies the schema and parses to itself exactly when each
text that it bounds from below is long enough without its surrounding white space. -/
theorem schema_normal_iff (h : runtime.Lawful) (s : RequestSchema) {x v : JsValue}
    (hv : (s.schema runtime).parse x = some v) :
    (s.schema runtime).Normal v ↔ (s.schema runtime).LongEnough x := by
  cases s with
  | createVan => exact CreateVanSchema_normalises h x v hv
  | recordPayment => exact RecordPaymentSchema_normalises x v hv
  | submitInvoice => exact SubmitInvoiceSchema_normalises h x v hv
  | approveInvoice => exact ApproveInvoiceSchema_normalises x v hv
  | assessRisk => exact AssessRiskSchema_normalises h x v hv
  | register => exact RegisterSchema_normalises h x v hv
  | login => exact LoginSchema_normalises h x v hv

end

/-! ### The typed bodies -/

/-- An integer as a number. -/
def JsValue.int (n : Int) : JsValue := .number (.finite n)

/-- The body of a payment, with the value of `paid_at`. -/
def RecordPaymentCommand.json (body : RecordPaymentCommand) (paidAt : JsValue) : JsValue :=
  .object
    [("account_number", .string body.accountNumber),
      ("amount_cents", .int body.amountCents),
      ("idempotency_key", .string body.idempotencyKey),
      ("paid_at", paidAt)]

/-- The body of a submission, with the value of `due_date`. -/
def SubmitInvoiceCommand.json (body : SubmitInvoiceCommand) (dueDate : JsValue) : JsValue :=
  .object
    [("invoice_number", .string body.invoiceNumber),
      ("buyer_id", .string body.buyerId.text),
      ("amount_cents", .int body.amountCents),
      ("currency", .string body.currency),
      ("due_date", dueDate)]

/-- The body of an approval. -/
def signatureJson (buyerSignature : String) : JsValue :=
  .object [("buyer_signature", .string buyerSignature)]

/-- `positiveInt` lets exactly the positive safe integers through, unchanged. -/
theorem positiveInt_parse (n : Int) :
    Zod.positiveInt.parse (.int n) = if positiveInt n then some (.int n) else none := by
  have hiff : [NumberCheck.int, .positive].all (fun c => c.holds (n : Rat)) = positiveInt n := by
    have hmax : maxSafeInteger = 9007199254740991 := rfl
    rw [Bool.eq_iff_iff]
    simp only [List.all_cons, List.all_nil, NumberCheck.holds, positiveInt, Bool.and_eq_true,
      Bool.and_true, decide_eq_true_eq]
    rw [Rat.den_intCast, Rat.num_intCast, Int.cast_pos]
    omega
  rw [← hiff]
  rfl

/-- `z.string().uuid().trim()` on an id. -/
theorem uuid_parse {runtime : SchemaRuntime} (h : runtime.Lawful) {id : Uuid}
    (hid : runtime.uuid id.text = true) :
    (Zod.uuid runtime).parse (.string id.text) = some (.string id.text) := by
  have hrun : Pipeline.run trim Check.test [.format runtime.uuid, .trim] id.text =
      some id.text := by
    simp [Pipeline.run, Pipeline.passes, Pipeline.apply, Check.test, hid, h.uuid _ hid]
  show (Pipeline.run _ _ _ _).map JsValue.string = _
  rw [hrun]
  rfl

/-- A text that is bounded from below and then trimmed. -/
theorem min_parse (n : Nat) (text : String) :
    (Zod.string [.min n, .trim]).parse (.string text) =
      if n ≤ jsLength text then some (.string (trim text)) else none := by
  show (Pipeline.run _ _ _ _).map JsValue.string = _
  by_cases hn : n ≤ jsLength text
  · simp [Pipeline.run, Pipeline.passes, Pipeline.apply, Check.test, hn]
  · simp [Pipeline.run, Pipeline.passes, Check.test, hn]

/-- A text that is bounded from both sides and then trimmed. -/
theorem minMax_parse (m n : Nat) (text : String) :
    (Zod.string [.min m, .max n, .trim]).parse (.string text) =
      if m ≤ jsLength text ∧ jsLength text ≤ n then some (.string (trim text)) else none := by
  show (Pipeline.run _ _ _ _).map JsValue.string = _
  by_cases hm : m ≤ jsLength text
  · by_cases hn : jsLength text ≤ n
    · simp [Pipeline.run, Pipeline.passes, Pipeline.apply, Check.test, hm, hn]
    · simp [Pipeline.run, Pipeline.passes, Pipeline.apply, Check.test, hm, hn]
  · simp [Pipeline.run, Pipeline.passes, Check.test, hm]

/-- A text of a fixed length. -/
theorem length_parse (n : Nat) (text : String) :
    (Zod.string [.length n]).parse (.string text) =
      if jsLength text = n then some (.string text) else none := by
  show (Pipeline.run _ _ _ _).map JsValue.string = _
  by_cases hn : jsLength text = n
  · simp [Pipeline.run, Pipeline.passes, Pipeline.apply, Check.test, hn]
  · simp [Pipeline.run, Pipeline.passes, Check.test, hn]

/-- `RecordPaymentSchema` on a body with the types of its fields. -/
theorem recordPayment_json {runtime : SchemaRuntime} (body : RecordPaymentCommand)
    {time : Timestamp} (htime : runtime.parseDate body.paidAt = some time) :
    (RecordPaymentSchema runtime).parse (body.json (.string body.paidAt)) =
      (recordPaymentSchema body).map fun b => b.json (.date time) := by
  have hdate : (Zod.coerceDate runtime).parse (.string body.paidAt) = some (.date time) := by
    show (runtime.parseDate body.paidAt).map JsValue.date = _
    rw [htime]
    rfl
  have haccount : (body.json (.string body.paidAt)).get "account_number" =
      .string body.accountNumber := rfl
  have hamount : (body.json (.string body.paidAt)).get "amount_cents" =
      .int body.amountCents := rfl
  have hkey : (body.json (.string body.paidAt)).get "idempotency_key" =
      .string body.idempotencyKey := rfl
  have hpaid : (body.json (.string body.paidAt)).get "paid_at" = .string body.paidAt := rfl
  show (Zod.parseFields _ _).map JsValue.object = _
  simp only [Zod.parseFields]
  rw [haccount, hamount, hkey, hpaid, min_parse, positiveInt_parse, min_parse, hdate,
    recordPaymentSchema]
  by_cases h1 : 1 ≤ jsLength body.accountNumber
  · by_cases h2 : positiveInt body.amountCents = true
    · by_cases h3 : 1 ≤ jsLength body.idempotencyKey
      · simp [h1, h2, h3, RecordPaymentCommand.json, JsValue.entry, JsValue.int]
      · simp [h1, h2, h3]
    · simp [h1, h2]
  · simp [h1]

/-- `SubmitInvoiceSchema` on a body with the types of its fields. -/
theorem submitInvoice_json {runtime : SchemaRuntime} (h : runtime.Lawful)
    (body : SubmitInvoiceCommand) (hbuyer : runtime.uuid body.buyerId.text = true)
    {dueDate : JsValue} (hdate : dateOf runtime dueDate = some body.dueDate) :
    (SubmitInvoiceSchema runtime).parse (body.json dueDate) =
      (submitInvoiceSchema body).map fun b => b.json (.date b.dueDate) := by
  have hnumber : (body.json dueDate).get "invoice_number" = .string body.invoiceNumber := rfl
  have hid : (body.json dueDate).get "buyer_id" = .string body.buyerId.text := rfl
  have hamount : (body.json dueDate).get "amount_cents" = .int body.amountCents := rfl
  have hcurrency : (body.json dueDate).get "currency" = .string body.currency := rfl
  have hdue : (body.json dueDate).get "due_date" = dueDate := rfl
  have hlength : (Zod.default (Zod.string [.length 3]) (.string "INR")).parse
      (.string body.currency) =
      if jsLength body.currency = 3 then some (.string body.currency) else none :=
    length_parse 3 body.currency
  have htime : (Zod.coerceDate runtime).parse dueDate = some (.date body.dueDate) := by
    show (dateOf runtime dueDate).map JsValue.date = _
    rw [hdate]
    rfl
  show (Zod.parseFields _ _).map JsValue.object = _
  simp only [Zod.parseFields]
  rw [hnumber, hid, hamount, hcurrency, hdue, minMax_parse, uuid_parse h hbuyer,
    positiveInt_parse, hlength, htime, submitInvoiceSchema]
  by_cases h1 : 1 ≤ jsLength body.invoiceNumber ∧ jsLength body.invoiceNumber ≤ 50
  · by_cases h2 : positiveInt body.amountCents = true
    · by_cases h3 : jsLength body.currency = 3
      · simp [h1, h2, h3, SubmitInvoiceCommand.json, JsValue.entry, JsValue.int]
      · simp [h1, h2, h3]
    · simp [h1, h2]
  · have hnot : ¬ (1 ≤ jsLength body.invoiceNumber ∧ jsLength body.invoiceNumber ≤ 50 ∧
        positiveInt body.amountCents = true ∧ jsLength body.currency = 3) :=
      fun hall => h1 ⟨hall.1, hall.2.1⟩
    rw [if_neg h1, if_neg hnot]
    rfl

/-- `ApproveInvoiceSchema` on a text. -/
theorem approveInvoice_json (buyerSignature : String) :
    ApproveInvoiceSchema.parse (signatureJson buyerSignature) =
      (approveInvoiceSchema buyerSignature).map signatureJson := by
  have hget : (signatureJson buyerSignature).get "buyer_signature" =
      .string buyerSignature := rfl
  show (Zod.parseFields _ _).map JsValue.object = _
  simp only [Zod.parseFields]
  rw [hget, min_parse, approveInvoiceSchema]
  by_cases h : 10 ≤ jsLength buyerSignature
  · simp [h, signatureJson, JsValue.entry]
  · simp [h]

/-! ### Sample bodies -/

/-- A runtime that knows one id and one date. -/
def sampleSchemaRuntime : SchemaRuntime where
  uuid s := s == "00000000-0000-4000-8000-000000000001"
  email s := s == "a@vse.in"
  parseDate s := if s = "2025-01-01T00:00:00Z" then some 1735689600000 else none
  text _ := ""

/-- The sample runtime behaves as the schemas rely on. -/
theorem sampleSchemaRuntime_lawful : sampleSchemaRuntime.Lawful where
  uuid s hs := by
    obtain rfl : s = "00000000-0000-4000-8000-000000000001" := beq_iff_eq.mp hs
    decide +kernel
  email s hs := by
    obtain rfl : s = "a@vse.in" := beq_iff_eq.mp hs
    decide +kernel

/-- The body of a payment with this key. -/
def samplePaymentJson (idempotencyKey : String) (paidAt : JsValue) : JsValue :=
  .object
    [("account_number", .string "VAN1"),
      ("amount_cents", .int 1000),
      ("idempotency_key", .string idempotencyKey),
      ("paid_at", paidAt)]

/-- The normal form of a payment with a key of two characters. -/
theorem normal_of_payment :
    (RecordPaymentSchema sampleSchemaRuntime).Normal
      (samplePaymentJson "k1" (.date 1735689600000)) := by
  have hparse : (RecordPaymentSchema sampleSchemaRuntime).parse
      (samplePaymentJson " k1 " (.string "2025-01-01T00:00:00Z")) =
      some (samplePaymentJson "k1" (.date 1735689600000)) := by
    rfl
  refine (schema_normal_iff sampleSchemaRuntime_lawful .recordPayment hparse).mpr ?_
  -- The two bounded texts.
  intro b hb text htext
  change b ∈ [(["account_number"], 1), (["idempotency_key"], 1)] at hb
  simp only [List.mem_cons, List.not_mem_nil, or_false] at hb
  rcases hb with rfl | rfl
  · change JsValue.string "VAN1" = .string text at htext
    cases htext
    decide +kernel
  · change JsValue.string " k1 " = .string text at htext
    cases htext
    decide +kernel

/-- The body of a registration with this `gstin`. -/
def sampleRegisterJson (gstin : String) : JsValue :=
  .object
    [("legal_name", .string "Supplier"),
      ("gstin", .string gstin),
      ("role", .string "supplier"),
      ("email", .string "a@vse.in"),
      ("password", .string "password1")]

/-- A key of three spaces is accepted and becomes empty, and a `gstin` of 14 characters and a
space is accepted and loses the space. Neither result satisfies its schema. -/
theorem empty_key_accepted :
    (RecordPaymentSchema sampleSchemaRuntime).parse
        (samplePaymentJson "   " (.string "2025-01-01T00:00:00Z")) =
      some (samplePaymentJson "" (.date 1735689600000)) ∧
    ¬ (RecordPaymentSchema sampleSchemaRuntime).Normal
      (samplePaymentJson "" (.date 1735689600000)) ∧
    (RegisterSchema sampleSchemaRuntime).parse (sampleRegisterJson "29ABCDE1234F1Z ") =
      some (sampleRegisterJson "29ABCDE1234F1Z") ∧
    ¬ (RegisterSchema sampleSchemaRuntime).Normal (sampleRegisterJson "29ABCDE1234F1Z") := by
  refine ⟨rfl, fun h => ?_, rfl, fun h => ?_⟩
  · exact absurd h.1 (by decide +kernel)
  · exact absurd h.1 (by decide +kernel)

end Vanguard
