import Vanguard.Services.App

/-!
# `Vanguard.Proofs.WebhookPaths`: the two path matchers of the webhook

The middleware of `buildApp` knows the path of the webhook as a text. The router takes the paths
that are this text up to case, perhaps with a slash at the end (`webhookDispatched_iff`). On
every other one of them the body of a JSON request is consumed before `captureRawBody` waits for
it (`webhookEntry_ne_next`). So `webhook_covered_iff`: of the paths that the router takes, only
the text itself is covered, and the uncovered ones are its other spellings.
-/

set_option autoImplicit false

namespace Vanguard

/-! ### The paths that the router takes -/

/-- Two texts are compared by their lower case. -/
theorem sameText_iff {pattern : String} {path : List Char} :
    sameText pattern path = true ↔ path.map Char.toLower = pattern.toList := beq_iff_eq

/-- Only a slash is a slash in lower case. -/
theorem eq_slash_of_toLower {c : Char} (h : c.toLower = '/') : c = '/' := by
  unfold Char.toLower at h
  split at h
  · rename_i hupper
    -- The lower-case letters come after the slash.
    have hlow : 65 ≤ c.val.toNat := UInt32.le_iff_toNat_le.mp hupper.1
    have hhigh : c.val.toNat ≤ 90 := UInt32.le_iff_toNat_le.mp hupper.2
    have hval : (c.val + 32).toNat = 47 := congrArg (fun d : Char => d.val.toNat) h
    rw [UInt32.toNat_add] at hval
    have h32 : (32 : UInt32).toNat = 32 := rfl
    omega
  · exact h

/-- The router takes the path with a slash at its end or without, in any case. -/
theorem routed_iff {path : List Char} :
    routed "/webhook/payment" path = true ↔
      path.map Char.toLower = "/webhook/payment".toList ∨
        path.map Char.toLower = "/webhook/payment/".toList := by
  rw [routed, Bool.or_eq_true, sameText_iff, sameText_iff]
  rfl

/-- The path behind the mount path `/vans`. -/
theorem mounted_eq_some {path rest : List Char} (h : mounted "/vans" path = some rest) :
    (path.map Char.toLower = "/vans".toList ∧ rest = ['/']) ∨
      path.map Char.toLower = "/vans".toList ++ rest.map Char.toLower := by
  have hlength : "/vans".length = 5 := by decide
  have hsplit : path.map Char.toLower =
      (path.take 5).map Char.toLower ++ (path.drop 5).map Char.toLower := by
    rw [← List.map_append, List.take_append_drop]
  rw [mounted, hlength] at h
  split at h
  · rename_i htake
    rw [sameText_iff.mp htake] at hsplit
    split at h
    · rename_i hdrop
      cases h
      rw [hdrop, List.map_nil, List.append_nil] at hsplit
      exact Or.inl ⟨hsplit, rfl⟩
    · rename_i rest' hdrop
      cases h
      rw [hdrop] at hsplit
      exact Or.inr hsplit
    · cases h
  · cases h

/-- A path that continues `/vans` with a slash. -/
theorem mounted_of {path rest : List Char}
    (h : path.map Char.toLower = "/vans".toList ++ '/' :: rest) :
    ∃ rest', mounted "/vans" path = some rest' ∧ rest'.map Char.toLower = '/' :: rest := by
  have hlength : "/vans".length = 5 := by decide
  have hlist : "/vans".toList.length = 5 := by decide
  have htake : (path.take 5).map Char.toLower = "/vans".toList := by
    rw [List.map_take, h, List.take_append_of_le_length (le_of_eq hlist.symm), ← hlist,
      List.take_length]
  have hdrop : (path.drop 5).map Char.toLower = '/' :: rest := by
    rw [List.map_drop, h, List.drop_append_of_le_length (le_of_eq hlist.symm), ← hlist,
      List.drop_length, List.nil_append]
  obtain ⟨c, rest', hc, hlower, -⟩ := List.map_eq_cons_iff.mp hdrop
  obtain rfl := eq_slash_of_toLower hlower
  refine ⟨'/' :: rest', ?_, hc ▸ hdrop⟩
  rw [mounted, hlength, if_pos (sameText_iff.mpr htake), hc]
  rfl

/-- The router takes the path of the webhook, in any case of its letters, and the path with a
slash at the end. -/
theorem webhookDispatched_iff (path : String) :
    webhookDispatched path = true ↔
      path.toList.map Char.toLower = "/vans/webhook/payment".toList ∨
        path.toList.map Char.toLower = "/vans/webhook/payment/".toList := by
  have hplain : "/vans".toList ++ "/webhook/payment".toList = "/vans/webhook/payment".toList := by
    decide
  have hslash : "/vans".toList ++ "/webhook/payment/".toList =
      "/vans/webhook/payment/".toList := by
    decide
  rw [webhookDispatched, Option.any_eq_true]
  constructor
  · intro ⟨rest, hmounted, hrouted⟩
    rw [routed_iff] at hrouted
    rcases mounted_eq_some hmounted with ⟨-, rfl⟩ | hpath
    · exact absurd hrouted (by decide)
    · rw [hpath]
      exact hrouted.imp (fun h => by rw [h, hplain]) fun h => by rw [h, hslash]
  · intro h
    rcases h with h | h
    · obtain ⟨rest, hmounted, hrest⟩ := mounted_of (h.trans hplain.symm)
      exact ⟨rest, hmounted, routed_iff.mpr (Or.inl hrest)⟩
    · obtain ⟨rest, hmounted, hrest⟩ := mounted_of (h.trans hslash.symm)
      exact ⟨rest, hmounted, routed_iff.mpr (Or.inr hrest)⟩

/-! ### The body -/

section

variable {json : JsonRuntime} {nodeEnv : NodeEnv} {req : AppRequest}

/-- The middleware leaves a request to the path of the webhook alone. -/
theorem webhookEntry_of_path (h : req.path = "/vans/webhook/payment") :
    webhookEntry json nodeEnv req = .next req.bytes := by
  have hparser : jsonParser json req = some ⟨none, req.chunks, false⟩ := by
    rw [jsonParser, if_pos h]
  rw [webhookEntry, hparser]
  cases nodeEnv <;> rfl

/-- Outside of tests the body of a JSON request to another path does not come to
`verifyWebhookSignature`. -/
theorem webhookEntry_ne_next (h : req.path ≠ "/vans/webhook/payment") (hjson : req.isJson = true)
    (henv : nodeEnv ≠ .test) (rawBody : Bytes) :
    webhookEntry json nodeEnv req ≠ .next rawBody := by
  rw [webhookEntry, jsonParser, if_neg h, expressJson, if_pos hjson]
  cases json.parse req.bytes with
  | none => exact fun hnext => by cases hnext
  | some v =>
      cases nodeEnv with
      | test => exact absurd rfl henv
      | development | production => exact fun hnext => by cases hnext

end

/-- The bypass covers a path: every request to it skips `express.json()`, and comes to
`verifyWebhookSignature` with exactly the bytes sent. -/
structure Covered (path : String) : Prop where
  skips : ∀ (json : JsonRuntime) (req : AppRequest), req.path = path →
    jsonParser json req = some ⟨none, req.chunks, false⟩
  delivers : ∀ (json : JsonRuntime) (nodeEnv : NodeEnv) (req : AppRequest), req.path = path →
    webhookEntry json nodeEnv req = .next req.bytes

/-- A JSON request to a path. -/
def sampleJsonRequest (path : String) : AppRequest where
  path := path
  isJson := true
  chunks := [[123], [125]]

/-- A path with another text is not covered: a JSON request to it does not come through. -/
theorem Covered.path_eq {path : String} (h : Covered path) : path = "/vans/webhook/payment" := by
  by_contra hne
  have hpath : (sampleJsonRequest path).path ≠ "/vans/webhook/payment" := hne
  exact webhookEntry_ne_next hpath rfl (by decide) _
    (h.delivers ⟨fun _ => none, fun _ => []⟩ .production (sampleJsonRequest path) rfl)

/-- The bypass covers one path, the text of the middleware. The router takes more: the paths
that it takes and the bypass does not cover are the other spellings of this text, and those with
a slash at the end. -/
theorem webhook_covered_iff (path : String) :
    (Covered path ↔ path = "/vans/webhook/payment") ∧
      (webhookDispatched path = true ∧ ¬ Covered path ↔
        path ≠ "/vans/webhook/payment" ∧
          (path.toList.map Char.toLower = "/vans/webhook/payment".toList ∨
            path.toList.map Char.toLower = "/vans/webhook/payment/".toList)) := by
  have hcovered : Covered path ↔ path = "/vans/webhook/payment" := by
    constructor
    · intro h
      exact h.path_eq
    · rintro rfl
      refine ⟨fun json req hreq => ?_, fun json nodeEnv req hreq => webhookEntry_of_path hreq⟩
      rw [jsonParser, if_pos hreq]
  refine ⟨hcovered, ?_⟩
  rw [webhookDispatched_iff, hcovered, and_comm]

/-- A JSON runtime that parses the two bytes of an empty object. -/
def sampleJson : JsonRuntime where
  parse bytes := if bytes = [123, 125] then some (.object []) else none
  stringify _ := [123, 125]

/-- The router takes the path, the bypass does not cover it, and a JSON request to it waits for
ever. -/
structure Uncovered (path : String) : Prop where
  dispatched : webhookDispatched path = true
  waits : webhookEntry sampleJson .production (sampleJsonRequest path) = .waits
  uncovered : ¬ Covered path

/-- The bank notifies with a slash at the end, or with capital letters. -/
theorem uncovered_paths :
    Uncovered "/vans/webhook/payment/" ∧ Uncovered "/VANS/webhook/payment" := by
  constructor
  · refine ⟨by decide +kernel, by decide +kernel, fun h => ?_⟩
    have := h.path_eq
    revert this
    decide
  · refine ⟨by decide +kernel, by decide +kernel, fun h => ?_⟩
    have := h.path_eq
    revert this
    decide

end Vanguard
