import Mathlib.Algebra.Order.BigOperators.Group.List
import Mathlib.Algebra.Order.Ring.Int
import Mathlib.Data.List.Nodup
import Mathlib.Data.Set.Defs

/-!
# `Vanguard.Library.Books`: account books with a ledger of keyed entries

The abstract model of advances and repayments. A state of the books has accounts and one
ledger. An account is opened with a debit entry, its advance, and then receives credit
entries. Each entry has a key that no other entry has. The account also keeps the balance
of its credits (`received`), as a column of its own.

* `Balanced` is the invariant that the balances agree with the ledger;
* `Balanced.step` keeps it over a step;
* `payments_perm` is the exactly-once argument: entries with distinct keys, each one of a
  list of payments, and each payment among them, are the payments in some order.
-/

set_option autoImplicit false

namespace Books

/-- The two sides of a ledger. -/
inductive Side where
  | debit
  | credit
  deriving DecidableEq

/-- An account: the keys that its advance may have, the amount of it, and the balance
received. -/
structure Account (Key : Type) where
  advance : Set Key
  expected : Int
  received : Int
  settled : Bool

/-- An entry of the ledger. -/
structure Entry (Acct Key : Type) where
  account : Acct
  key : Key
  side : Side
  amount : Int

/-- The books: the accounts and the ledger, oldest entry first. -/
structure State (Acct Key : Type) where
  account : Acct → Option (Account Key)
  entries : List (Entry Acct Key)

variable {Acct Key : Type}

/-- The sum of the amounts of a list of entries. -/
def total (entries : List (Entry Acct Key)) : Int := (entries.map Entry.amount).sum

/-- No entries, no money. -/
@[simp] theorem total_nil : total ([] : List (Entry Acct Key)) = 0 := rfl

/-- Two lists of entries add up separately. -/
@[simp] theorem total_append (es es' : List (Entry Acct Key)) :
    total (es ++ es') = total es + total es' := by
  simp [total]

/-- One entry counts its amount. -/
@[simp] theorem total_singleton (e : Entry Acct Key) : total [e] = e.amount := by
  simp [total]

/-- Entries of positive amounts have no negative total. -/
theorem total_nonneg {es : List (Entry Acct Key)} (hpos : ∀ e ∈ es, 0 < e.amount) :
    0 ≤ total es := by
  refine List.sum_nonneg fun x hx => ?_
  obtain ⟨e, he, rfl⟩ := List.mem_map.mp hx
  exact le_of_lt (hpos e he)

/-- Positive entries that add up to zero are none. -/
theorem eq_nil_of_total {es : List (Entry Acct Key)} (hpos : ∀ e ∈ es, 0 < e.amount)
    (h : total es = 0) : es = [] := by
  cases es with
  | nil => rfl
  | cons e es =>
      have hrest := total_nonneg fun x hx => hpos x (List.mem_cons_of_mem e hx)
      have hfirst := hpos e List.mem_cons_self
      have hsum : total (e :: es) = e.amount + total es := by simp [total]
      omega

section
variable [DecidableEq Acct]

namespace State

/-- The entries of an account on one side. -/
def side (b : State Acct Key) (a : Acct) (s : Side) : List (Entry Acct Key) :=
  b.entries.filter fun e => decide (e.account = a) && decide (e.side = s)

/-- No entry has the key. -/
def Fresh (b : State Acct Key) (k : Key) : Prop := ∀ e ∈ b.entries, e.key ≠ k

/-- The books with one more entry and a new version of its account. -/
def post (b : State Acct Key) (e : Entry Acct Key) (acc : Account Key) : State Acct Key :=
  { account := Function.update b.account e.account (some acc)
    entries := b.entries ++ [e] }

/-- A posting goes to the end of its own side of its own account. -/
theorem side_post (b : State Acct Key) (e : Entry Acct Key) (acc : Account Key) (a : Acct)
    (s : Side) : (b.post e acc).side a s =
      if e.account = a ∧ e.side = s then b.side a s ++ [e] else b.side a s := by
  unfold side post
  rw [List.filter_append, List.filter_singleton]
  split
  · rename_i h
    simp [h.1, h.2]
  · rename_i h
    have : (decide (e.account = a) && decide (e.side = s)) = false := by
      simpa using fun ha hs => h ⟨ha, hs⟩
    simp [this]

/-- The account of a posting is the one posted. -/
@[simp] theorem account_post_self (b : State Acct Key) (e : Entry Acct Key)
    (acc : Account Key) : (b.post e acc).account e.account = some acc :=
  Function.update_self _ _ _

/-- A posting leaves the other accounts alone. -/
theorem account_post_ne (b : State Acct Key) (e : Entry Acct Key) (acc : Account Key)
    {a : Acct} (h : a ≠ e.account) : (b.post e acc).account a = b.account a :=
  Function.update_of_ne h _ _

end State

/-- The steps of the books. -/
inductive Step (b : State Acct Key) : State Acct Key → Prop where
  | idle : Step b b
  | openAccount (a : Acct) (ks : Set Key) (k : Key) (amount : Int) (hk : k ∈ ks)
      (hnew : b.account a = none) (hpos : 0 < amount) (hkey : b.Fresh k) :
      Step b (b.post ⟨a, k, .debit, amount⟩ ⟨ks, amount, 0, false⟩)
  | credit (a : Acct) (k : Key) (amount : Int) (acc : Account Key) (settled : Bool)
      (hacc : b.account a = some acc) (hpos : 0 < amount) (hkey : b.Fresh k) :
      Step b (b.post ⟨a, k, .credit, amount⟩
        { acc with received := acc.received + amount, settled := settled })

/-- The balances agree with the ledger. -/
structure Balanced (b : State Acct Key) : Prop where
  received : ∀ a acc, b.account a = some acc → acc.received = total (b.side a .credit)
  advance : ∀ a acc, b.account a = some acc →
    ∃ k ∈ acc.advance, b.side a .debit = [⟨a, k, .debit, acc.expected⟩]
  known : ∀ e ∈ b.entries, ∃ acc, b.account e.account = some acc
  positive : ∀ e ∈ b.entries, 0 < e.amount
  keys : (b.entries.map Entry.key).Nodup

namespace Balanced

variable {b b' : State Acct Key}

/-- Books without accounts and entries are balanced. -/
theorem empty (ha : ∀ a, b.account a = none) (he : b.entries = []) : Balanced b where
  received a acc h := by rw [ha] at h; cases h
  advance a acc h := by rw [ha] at h; cases h
  known e h := by rw [he] at h; cases h
  positive e h := by rw [he] at h; cases h
  keys := by rw [he]; exact List.nodup_nil

/-- The keys on one side of a balanced account are different. -/
theorem side_keys (h : Balanced b) (a : Acct) (s : Side) :
    ((b.side a s).map Entry.key).Nodup :=
  h.keys.sublist (List.filter_sublist.map _)

/-- The amounts on one side of a balanced account are positive. -/
theorem side_positive (h : Balanced b) (a : Acct) (s : Side) :
    ∀ e ∈ b.side a s, 0 < e.amount :=
  fun e he => h.positive e (List.mem_of_mem_filter he)

/-- The amount of an advance is positive. -/
theorem expected_pos (h : Balanced b) {a : Acct} {acc : Account Key}
    (hacc : b.account a = some acc) : 0 < acc.expected := by
  obtain ⟨k, -, hside⟩ := h.advance a acc hacc
  refine h.side_positive a .debit ⟨a, k, .debit, acc.expected⟩ ?_
  rw [hside]
  exact List.mem_singleton_self _

/-- An account that does not exist has no entries. -/
theorem side_eq_nil (h : Balanced b) {a : Acct} (ha : b.account a = none) (s : Side) :
    b.side a s = [] := by
  refine List.filter_eq_nil_iff.mpr fun e he => ?_
  obtain ⟨acc, hacc⟩ := h.known e he
  have hne : e.account ≠ a := by
    rintro rfl
    rw [ha] at hacc
    cases hacc
  simp [hne]

/-- The parts of the invariant that only look at the ledger, after one more entry. -/
theorem post_ledger (h : Balanced b) (e : Entry Acct Key) (acc : Account Key)
    (hpos : 0 < e.amount) (hkey : b.Fresh e.key) :
    (∀ x ∈ (b.post e acc).entries, ∃ acc', (b.post e acc).account x.account = some acc') ∧
      (∀ x ∈ (b.post e acc).entries, 0 < x.amount) ∧
      ((b.post e acc).entries.map Entry.key).Nodup := by
  refine ⟨fun x hx => ?_, fun x hx => ?_, ?_⟩
  · by_cases hxe : x.account = e.account
    · exact ⟨acc, by rw [hxe]; exact b.account_post_self e acc⟩
    · rw [b.account_post_ne e acc hxe]
      rcases List.mem_append.mp hx with hx | hx
      · exact h.known x hx
      · exact absurd (congrArg Entry.account (List.mem_singleton.mp hx)) hxe
  · rcases List.mem_append.mp hx with hx | hx
    · exact h.positive x hx
    · exact List.mem_singleton.mp hx ▸ hpos
  · simp only [State.post, List.map_append, List.map_cons, List.map_nil]
    refine List.nodup_append.mpr ⟨h.keys, by simp, ?_⟩
    intro k hk k' hk'
    obtain ⟨x, hx, rfl⟩ := List.mem_map.mp hk
    rw [List.mem_singleton.mp hk']
    exact hkey x hx

/-- A step keeps the books balanced. -/
theorem step (h : Balanced b) (hs : Step b b') : Balanced b' := by
  cases hs with
  | idle => exact h
  | openAccount a ks k amount hk hnew hpos hkey =>
      -- No entry of the ledger is about an account that was not there.
      obtain ⟨hknown, hpositive, hkeys⟩ := h.post_ledger ⟨a, k, .debit, amount⟩
        ⟨ks, amount, 0, false⟩ hpos hkey
      refine ⟨fun x acc hx => ?_, fun x acc hx => ?_, hknown, hpositive, hkeys⟩
      · rw [State.side_post]
        by_cases hxa : x = a
        · subst hxa
          rw [State.account_post_self] at hx
          cases hx
          simp [h.side_eq_nil hnew]
        · rw [State.account_post_ne _ _ _ hxa] at hx
          simpa using h.received x acc hx
      · rw [State.side_post]
        by_cases hxa : x = a
        · subst hxa
          rw [State.account_post_self] at hx
          cases hx
          exact ⟨k, hk, by simp [h.side_eq_nil hnew]⟩
        · rw [State.account_post_ne _ _ _ hxa] at hx
          simpa [Ne.symm hxa] using h.advance x acc hx
  | credit a k amount acc settled hacc hpos hkey =>
      -- The balance and the ledger grow by the same amount.
      obtain ⟨hknown, hpositive, hkeys⟩ := h.post_ledger ⟨a, k, .credit, amount⟩
        { acc with received := acc.received + amount, settled := settled } hpos hkey
      refine ⟨fun x acc' hx => ?_, fun x acc' hx => ?_, hknown, hpositive, hkeys⟩
      · rw [State.side_post]
        by_cases hxa : x = a
        · subst hxa
          rw [State.account_post_self] at hx
          cases hx
          simp [h.received x acc hacc]
        · rw [State.account_post_ne _ _ _ hxa] at hx
          simpa [Ne.symm hxa] using h.received x acc' hx
      · rw [State.side_post]
        by_cases hxa : x = a
        · subst hxa
          rw [State.account_post_self] at hx
          cases hx
          simpa using h.advance x acc hacc
        · rw [State.account_post_ne _ _ _ hxa] at hx
          simpa using h.advance x acc' hx

end Balanced

end

/-! ### Exactly once -/

/-- An entry as a payment: its key and its amount. -/
def Entry.payment (e : Entry Acct Key) : Key × Int := (e.key, e.amount)

/-- Some of a list of positive payments add up to at most the whole list. -/
theorem sum_le_of_subset {P Q : List (Key × Int)} (hQ : Q.Nodup) (hsub : Q ⊆ P)
    (hpos : ∀ p ∈ P, 0 < p.2) : (Q.map Prod.snd).sum ≤ (P.map Prod.snd).sum := by
  -- `Q` is, up to the order, a sublist of `P`.
  obtain ⟨R, hperm, hR⟩ := List.subperm_of_subset hQ hsub
  rw [← (hperm.map Prod.snd).sum_eq]
  refine (hR.map Prod.snd).sum_le_sum fun x hx => ?_
  obtain ⟨p, hp, rfl⟩ := List.mem_map.mp hx
  exact le_of_lt (hpos p hp)

section
variable {P : List (Key × Int)} {es : List (Entry Acct Key)}

/-- The total of the entries is the sum of the payments they record. -/
theorem total_eq (es : List (Entry Acct Key)) :
    total es = ((es.map Entry.payment).map Prod.snd).sum := by
  simp [total, Entry.payment, Function.comp_def]

/-- Different keys record different payments. -/
theorem nodup_payment (hes : (es.map Entry.key).Nodup) : (es.map Entry.payment).Nodup := by
  refine List.Nodup.of_map Prod.fst ?_
  simpa [Entry.payment, Function.comp_def] using hes

/-- Entries with distinct keys that are payments of `P` add up to at most the total of
`P`. -/
theorem total_le (hpos : ∀ p ∈ P, 0 < p.2) (hes : (es.map Entry.key).Nodup)
    (hmem : ∀ e ∈ es, e.payment ∈ P) : total es ≤ (P.map Prod.snd).sum := by
  rw [total_eq]
  refine sum_le_of_subset (nodup_payment hes) (fun q hq => ?_) hpos
  obtain ⟨e, he, rfl⟩ := List.mem_map.mp hq
  exact hmem e he

/-- Entries with distinct keys that are payments of `P`, and one more payment of `P` whose
key none of them has, add up to at most the total of `P`. -/
theorem total_add_le (hpos : ∀ p ∈ P, 0 < p.2) (hes : (es.map Entry.key).Nodup)
    (hmem : ∀ e ∈ es, e.payment ∈ P) {p : Key × Int} (hp : p ∈ P)
    (hnew : ∀ e ∈ es, e.key ≠ p.1) : total es + p.2 ≤ (P.map Prod.snd).sum := by
  -- The payments of the entries with `p` in front are still distinct payments of `P`.
  have hnodup : (p :: es.map Entry.payment).Nodup := by
    refine List.nodup_cons.mpr ⟨fun h => ?_, nodup_payment hes⟩
    obtain ⟨e, he, rfl⟩ := List.mem_map.mp h
    exact hnew e he rfl
  have hsub : (p :: es.map Entry.payment) ⊆ P := by
    refine List.cons_subset.mpr ⟨hp, fun q hq => ?_⟩
    obtain ⟨e, he, rfl⟩ := List.mem_map.mp hq
    exact hmem e he
  have h := sum_le_of_subset hnodup hsub hpos
  rw [List.map_cons, List.sum_cons, ← total_eq] at h
  omega

/-- The exactly-once argument. Entries with distinct keys that are payments of `P`, with
an entry for the key of every payment, are the payments of `P` in some order. -/
theorem payments_perm (hP : (P.map Prod.fst).Nodup) (hes : (es.map Entry.key).Nodup)
    (hmem : ∀ e ∈ es, e.payment ∈ P) (hall : ∀ p ∈ P, ∃ e ∈ es, e.key = p.1) :
    (es.map Entry.payment).Perm P := by
  refine (List.perm_ext_iff_of_nodup (nodup_payment hes) (List.Nodup.of_map _ hP)).mpr fun p => ?_
  constructor
  · intro h
    obtain ⟨e, he, rfl⟩ := List.mem_map.mp h
    exact hmem e he
  · intro hp
    obtain ⟨e, he, hk⟩ := hall p hp
    -- The entry is some payment of `P`, and the key says which one.
    have heq : e.payment = p := List.inj_on_of_nodup_map hP (hmem e he) hp hk
    exact List.mem_map.mpr ⟨e, he, heq⟩

/-- Entries that are the payments up to order have the payments' sum. -/
theorem total_eq_of_perm (h : (es.map Entry.payment).Perm P) :
    total es = (P.map Prod.snd).sum := by
  rw [total_eq, (h.map Prod.snd).sum_eq]

end

end Books
