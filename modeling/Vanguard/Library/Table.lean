import Mathlib.Data.List.Nodup

/-!
# `Vanguard.Library.Table`: rows with a primary key

A `Table` is a list of rows whose keys are pairwise distinct, so that a table with two
rows of one primary key cannot be built. `Table.put` inserts a row, or replaces the row
of the same key in its place, and `Table.erase` deletes the row of a key. The lemmas read a
table through `Table.get?`, or through the first row that satisfies a test.
-/

set_option autoImplicit false

namespace ReadCommitted

/-- The rows of a table, in insertion order, with pairwise distinct keys. -/
structure Table (α κ : Type) (key : α → κ) where
  rows : List α
  nodup : (rows.map key).Nodup

namespace Table

variable {α κ : Type} {key : α → κ}

/-- The table with no rows. -/
def empty : Table α κ key := ⟨[], List.nodup_nil⟩

/-- A row is in a table when it is one of its rows. -/
instance : Membership α (Table α κ key) := ⟨fun t r => r ∈ t.rows⟩

/-- Membership, unfolded. -/
theorem mem_def {t : Table α κ key} {r : α} : r ∈ t ↔ r ∈ t.rows := Iff.rfl

/-- The empty table has no row. -/
@[simp] theorem not_mem_empty (r : α) : ¬ r ∈ (empty : Table α κ key) := by
  simp [mem_def, empty]

/-- Two rows of one key are the same row. -/
theorem eq_of_key_eq {t : Table α κ key} {r r' : α} (h : r ∈ t) (h' : r' ∈ t)
    (hk : key r = key r') : r = r' :=
  List.inj_on_of_nodup_map t.nodup h h' hk

variable [DecidableEq κ]

/-- The row with the key `k`. -/
def get? (t : Table α κ key) (k : κ) : Option α :=
  t.rows.find? fun r => key r == k

/-- A lookup finds exactly the row of that key. -/
theorem get?_eq_some {t : Table α κ key} {k : κ} {r : α} :
    t.get? k = some r ↔ r ∈ t ∧ key r = k := by
  constructor
  · intro h
    exact ⟨List.mem_of_find?_eq_some h, by simpa using List.find?_some h⟩
  · rintro ⟨hm, rfl⟩
    cases hf : t.get? (key r) with
    | none =>
        have := List.find?_eq_none.mp hf r hm
        simp at this
    | some r' =>
        have hk : key r' = key r := by simpa using List.find?_some hf
        rw [eq_of_key_eq (List.mem_of_find?_eq_some hf) hm hk]

/-- A row of the table is found under its own key. -/
theorem get?_of_mem {t : Table α κ key} {r : α} (h : r ∈ t) : t.get? (key r) = some r :=
  get?_eq_some.mpr ⟨h, rfl⟩

/-- What a lookup finds is a row of the table. -/
theorem mem_of_get? {t : Table α κ key} {k : κ} {r : α} (h : t.get? k = some r) : r ∈ t :=
  (get?_eq_some.mp h).1

/-- What a lookup finds has the key that was looked up. -/
theorem key_of_get? {t : Table α κ key} {k : κ} {r : α} (h : t.get? k = some r) :
    key r = k :=
  (get?_eq_some.mp h).2

/-- The list with the row of the key of `r` replaced by `r`, or `r` at the end. -/
def putList (key : α → κ) (r : α) : List α → List α
  | [] => [r]
  | x :: xs => if key x = key r then r :: xs else x :: putList key r xs

/-- The keys after a put: unchanged when the key was there, one more at the end
otherwise. -/
theorem map_putList (r : α) (l : List α) :
    (putList key r l).map key =
      if key r ∈ l.map key then l.map key else l.map key ++ [key r] := by
  induction l with
  | nil => simp [putList]
  | cons x xs ih =>
      by_cases hx : key x = key r
      · simp [putList, hx]
      · have hx' : ¬ key r = key x := fun h => hx h.symm
        simp only [putList, hx, if_false, List.map_cons, ih, List.mem_cons, hx', false_or]
        split <;> rfl

/-- Insert the row `r`, or replace the row of its key. -/
def put (t : Table α κ key) (r : α) : Table α κ key where
  rows := putList key r t.rows
  nodup := by
    rw [map_putList]
    split
    · exact t.nodup
    · rename_i h
      rw [List.nodup_append]
      refine ⟨t.nodup, by simp, ?_⟩
      rintro a ha b hb rfl
      exact h (List.mem_singleton.mp hb ▸ ha)

/-- A search by key after a put finds the new row under its key, and what it found
before under any other. -/
theorem find?_putList (r : α) (l : List α) (k : κ) :
    (putList key r l).find? (fun x => key x == k) =
      if key r = k then some r else l.find? (fun x => key x == k) := by
  induction l with
  | nil =>
      by_cases h : key r = k <;> simp [putList, h]
  | cons x xs ih =>
      by_cases hx : key x = key r
      · by_cases h : key r = k
        · simp [putList, hx, h]
        · simp [putList, hx, h]
      · have hput : putList key r (x :: xs) = x :: putList key r xs := if_neg hx
        rw [hput]
        by_cases h : key x = k
        · have hr : ¬ key r = k := fun h' => hx (h.trans h'.symm)
          simp [h, hr]
        · simp [h, ih]

/-- A lookup after a put. -/
theorem get?_put (t : Table α κ key) (r : α) (k : κ) :
    (t.put r).get? k = if key r = k then some r else t.get? k :=
  find?_putList r t.rows k

/-- The row just put is found under its key. -/
@[simp] theorem get?_put_self (t : Table α κ key) (r : α) :
    (t.put r).get? (key r) = some r := by
  rw [get?_put, if_pos rfl]

/-- A put leaves the rows of the other keys. -/
theorem get?_put_ne (t : Table α κ key) (r : α) {k : κ} (h : key r ≠ k) :
    (t.put r).get? k = t.get? k := by
  rw [get?_put, if_neg h]

/-- The rows after `put`: the new row, and the old rows of other keys. -/
theorem mem_put {t : Table α κ key} {r r' : α} :
    r' ∈ t.put r ↔ r' = r ∨ (r' ∈ t ∧ key r' ≠ key r) := by
  constructor
  · intro h
    have hg := get?_of_mem h
    rw [get?_put] at hg
    split at hg
    · exact Or.inl (Option.some.inj hg).symm
    · rename_i hk
      exact Or.inr ⟨mem_of_get? hg, fun h => hk h.symm⟩
  · rintro (rfl | ⟨hm, hk⟩)
    · exact mem_of_get? (get?_put_self t r')
    · refine mem_of_get? (k := key r') ?_
      rw [get?_put_ne t r fun h => hk h.symm]
      exact get?_of_mem hm

/-- Delete the row with the key `k`. -/
def erase (t : Table α κ key) (k : κ) : Table α κ key where
  rows := t.rows.filter fun r => key r != k
  nodup := (List.filter_sublist.map key).nodup t.nodup

/-- An erase leaves the rows of the other keys, and only these. -/
theorem mem_erase {t : Table α κ key} {k : κ} {r : α} :
    r ∈ t.erase k ↔ r ∈ t ∧ key r ≠ k := by
  simp [mem_def, erase]

/-- Nothing is found under an erased key. -/
theorem get?_erase_self (t : Table α κ key) (k : κ) : (t.erase k).get? k = none := by
  cases hr : (t.erase k).get? k with
  | none => rfl
  | some r =>
      obtain ⟨hm, hk⟩ := get?_eq_some.mp hr
      exact absurd hk (mem_erase.mp hm).2

/-- An erase leaves what is found under another key. -/
theorem get?_erase_ne (t : Table α κ key) {k k' : κ} (h : k ≠ k') :
    (t.erase k).get? k' = t.get? k' := by
  cases hr : t.get? k' with
  | some r =>
      obtain ⟨hm, rfl⟩ := get?_eq_some.mp hr
      exact get?_eq_some.mpr ⟨mem_erase.mpr ⟨hm, fun he => h he.symm⟩, rfl⟩
  | none =>
      cases hr' : (t.erase k).get? k' with
      | none => rfl
      | some r =>
          obtain ⟨hm, hk⟩ := get?_eq_some.mp hr'
          rw [get?_eq_some.mpr ⟨(mem_erase.mp hm).1, hk⟩] at hr
          cases hr

/-- The first row with a property, after `put`: the new row, if no row of another key has
it. -/
theorem find?_put_of_pos {t : Table α κ key} {r : α} {p : α → Bool} (hr : p r = true)
    (hkey : ∀ a ∈ t, p a = true → key a = key r) : (t.put r).rows.find? p = some r := by
  cases hf : (t.put r).rows.find? p with
  | none =>
      have hm : r ∈ t.put r := mem_put.mpr (Or.inl rfl)
      have := List.find?_eq_none.mp hf r hm
      exact absurd hr this
  | some a =>
      have ha : a ∈ t.put r := List.mem_of_find?_eq_some hf
      rcases mem_put.mp ha with rfl | ⟨hm, hne⟩
      · rfl
      · exact absurd (hkey a hm (List.find?_some hf)) hne

/-- The rows with a property, after `put`: the old ones, if neither the new row nor the row
that it replaces has the property. -/
theorem filter_put_of_neg {t : Table α κ key} {r : α} {p : α → Bool} (hr : p r = false)
    (hold : ∀ a ∈ t, key a = key r → p a = false) : (t.put r).rows.filter p = t.rows.filter p := by
  have hlist : ∀ l : List α, (∀ a ∈ l, key a = key r → p a = false) →
      (putList key r l).filter p = l.filter p := by
    intro l hl
    induction l with
    | nil => simp [putList, hr]
    | cons x xs ih =>
        have hx := hl x List.mem_cons_self
        have ih := ih fun a ha => hl a (List.mem_cons_of_mem _ ha)
        by_cases hk : key x = key r
        · simp [putList, hk, hr, hx hk]
        · simp [putList, hk, ih, List.filter_cons]
  exact hlist t.rows hold

/-- A put that neither adds nor replaces a row with the property finds the same first
row. -/
theorem find?_put_of_neg {t : Table α κ key} {r : α} {p : α → Bool} (hr : p r = false)
    (hold : ∀ a ∈ t, key a = key r → p a = false) :
    (t.put r).rows.find? p = t.rows.find? p := by
  rw [← List.head?_filter, filter_put_of_neg hr hold, List.head?_filter]

end Table

end ReadCommitted
