import Vanguard.Library.Timeline
import Mathlib.Data.List.Induction

/-!
# `Vanguard.Library.Lookup`: a keyed table of a store

A `Lookup` is a table of a store: `get` finds the row with a key, and a write replaces or adds
one row. What `get` finds after a batch is the last version in the batch, or the row of before
(`latest`).

The rest is about two batches that are written one after the other although each was made
without the other (`merge_cases`). `Unique.merge` says when a key that is unique after each
batch is unique after both: no row version of the one has a key of the other.
-/

set_option autoImplicit false

namespace ReadCommitted

/-- A table of a store, with the key of its rows. -/
structure Lookup (D Row κ β : Type) [Store D Row] [DecidableEq κ] where
  key : β → κ
  version : Row → Option β
  get : D → κ → Option β
  get_write : ∀ db x k, get (Store.write db x) k =
    match version x with
    | some b => if key b = k then some b else get db k
    | none => get db k
  key_of_get : ∀ {db k b}, get db k = some b → key b = k

namespace Lookup

variable {D Row κ β γ : Type} [Store D Row] [DecidableEq κ] (L : Lookup D Row κ β)

/-- The batch has a version of the row `b`, namely `b`. -/
def Holds (rows : List Row) (b : β) : Prop := ∃ x ∈ rows, L.version x = some b

variable {L} {db db' : D} {rows ws : List Row} {k : κ} {b : β}

/-- A batch that has a version of a row still has it when it grows. -/
theorem holds_append (h : L.Holds rows b) (x : Row) : L.Holds (rows ++ [x]) b := by
  obtain ⟨y, hy, hb⟩ := h
  exact ⟨y, List.mem_append_left _ hy, hb⟩

/-- The version of a row in a longer batch is in the old part or is the last one. -/
theorem holds_snoc {x : Row} (h : L.Holds (rows ++ [x]) b) :
    L.Holds rows b ∨ L.version x = some b := by
  obtain ⟨y, hy, hb⟩ := h
  rcases List.mem_append.mp hy with hy | hy
  · exact Or.inl ⟨y, hy, hb⟩
  · exact Or.inr (List.mem_singleton.mp hy ▸ hb)

/-- A lookup after one more write finds the written row under its key. -/
theorem get_snoc (db : D) (rows : List Row) (x : Row) (k : κ) :
    L.get (writeAll db (rows ++ [x])) k =
      match L.version x with
      | some b => if L.key b = k then some b else L.get (writeAll db rows) k
      | none => L.get (writeAll db rows) k := by
  rw [writeAll_append]
  exact L.get_write _ _ _

/-- A batch without a version of the row leaves it. -/
theorem get_of_not_holds (h : ∀ b, L.Holds rows b → L.key b ≠ k) :
    L.get (writeAll db rows) k = L.get db k := by
  induction rows using List.reverseRecOn with
  | nil => rfl
  | append_singleton rows x ih =>
      rw [get_snoc]
      have ih := ih fun b hb => h b (holds_append hb x)
      cases hx : L.version x with
      | none => exact ih
      | some b =>
          simp only
          rw [if_neg (h b ⟨x, by simp, hx⟩)]
          exact ih

/-- After a batch with a version of the row, the row does not depend on what was before. -/
theorem get_of_holds (h : L.Holds rows b) (hk : L.key b = k) :
    L.get (writeAll db rows) k = L.get (writeAll db' rows) k := by
  induction rows using List.reverseRecOn with
  | nil =>
      obtain ⟨x, hx, -⟩ := h
      cases hx
  | append_singleton rows x ih =>
      rw [get_snoc, get_snoc]
      rcases holds_snoc h with h | hx
      · rw [ih h]
      · rw [hx]
        simp only
        rw [if_pos hk, if_pos hk]

/-- The row after a batch is a version of the batch, or the row of before, of which the batch
has no version. -/
theorem latest (h : L.get (writeAll db rows) k = some b) :
    L.Holds rows b ∨ (L.get db k = some b ∧ ∀ b', L.Holds rows b' → L.key b' ≠ k) := by
  induction rows using List.reverseRecOn with
  | nil => exact Or.inr ⟨h, fun b' ⟨x, hx, _⟩ => absurd hx List.not_mem_nil⟩
  | append_singleton rows x ih =>
      rw [get_snoc] at h
      cases hx : L.version x with
      | none =>
          rw [hx] at h
          rcases ih h with hb | ⟨hdb, hno⟩
          · exact Or.inl (holds_append hb x)
          · refine Or.inr ⟨hdb, fun b' hb' => ?_⟩
            rcases holds_snoc hb' with hb' | hb'
            · exact hno b' hb'
            · rw [hx] at hb'
              cases hb'
      | some b₁ =>
          rw [hx] at h
          simp only at h
          split at h
          · cases h
            exact Or.inl ⟨x, by simp, hx⟩
          · rename_i hne
            rcases ih h with hb | ⟨hdb, hno⟩
            · exact Or.inl (holds_append hb x)
            · refine Or.inr ⟨hdb, fun b' hb' => ?_⟩
              rcases holds_snoc hb' with hb' | hb'
              · exact hno b' hb'
              · rw [hx] at hb'
                cases hb'
                exact hne

variable (L) in
/-- After the batch the row is `b`, whatever was before. -/
def Sets (rows : List Row) (b : β) : Prop :=
  ∀ db : D, L.get (writeAll db rows) (L.key b) = some b

/-- A batch that ends with a version of a row sets it. -/
theorem sets_snoc {x : Row} (hx : L.version x = some b) : L.Sets (rows ++ [x]) b := by
  intro db
  rw [get_snoc, hx]
  exact if_pos rfl

/-- Row versions of other tables are added. -/
theorem Sets.append {rows' : List Row} (h : L.Sets rows b)
    (hno : ∀ x ∈ rows', L.version x = none) : L.Sets (rows ++ rows') b := by
  intro db
  rw [writeAll_append, get_of_not_holds]
  · exact h db
  · rintro b' ⟨x, hx, hb'⟩
    rw [hno x hx] at hb'
    cases hb'

/-- A batch that sets a row still does when versions of other tables are added. -/
theorem Sets.snoc {x : Row} (h : L.Sets rows b) (hx : L.version x = none) :
    L.Sets (rows ++ [x]) b :=
  h.append fun _ hy => List.mem_singleton.mp hy ▸ hx

/-- What a lookup finds is still found after a batch. -/
theorem isSome_writeAll (h : (L.get db k).isSome = true) (rows : List Row) :
    (L.get (writeAll db rows) k).isSome = true := by
  refine writeAll_induction (P := fun db => (L.get db k).isSome = true) (fun db x h => ?_) h rows
  rw [L.get_write]
  split
  · split
    · rfl
    · exact h
  · exact h

/-! ### Two batches -/

/-- A row after two batches: the second one has written it, or it is a row after the first one
that the first one has written or that the second one leaves. -/
theorem merge_cases (h : L.get (writeAll (writeAll db rows) ws) k = some b) :
    (L.Holds ws b ∧ L.get (writeAll db ws) k = some b) ∨
      (L.get (writeAll db rows) k = some b ∧
        (L.Holds rows b ∨ L.get (writeAll db ws) k = some b)) := by
  rcases latest h with hb | ⟨h₁, hno⟩
  · exact Or.inl ⟨hb, (get_of_holds hb (L.key_of_get h)).symm.trans h⟩
  · refine Or.inr ⟨h₁, ?_⟩
    rcases latest h₁ with hb | ⟨hdb, -⟩
    · exact Or.inl hb
    · exact Or.inr ((get_of_not_holds hno).trans hdb)

/-- No row is lost. -/
theorem isSome_merge (h : (L.get (writeAll db ws) k).isSome = true) :
    (L.get (writeAll (writeAll db rows) ws) k).isSome = true := by
  obtain ⟨b, hb⟩ := Option.isSome_iff_exists.mp h
  rcases latest hb with hheld | ⟨hdb, -⟩
  · rw [get_of_holds hheld (L.key_of_get hb), hb]
    rfl
  · have hdb : (L.get db k).isSome = true := by rw [hdb, Option.isSome_some]
    exact isSome_writeAll (isSome_writeAll hdb rows) ws

/-- No two rows of the table have the same `f`. -/
def Unique (L : Lookup D Row κ β) (db : D) (f : β → γ) : Prop :=
  ∀ k k' b b', L.get db k = some b → L.get db k' = some b' → f b = f b' → b = b'

/-- A write of a row keeps a key unique if no other row has it. -/
theorem Unique.write {f : β → γ} (h : L.Unique db f) {x : Row} (hx : L.version x = some b)
    (hne : ∀ k' b', L.get db k' = some b' → L.key b' ≠ L.key b → f b' ≠ f b) :
    L.Unique (Store.write db x) f := by
  intro k₁ k₂ b₁ b₂ h₁ h₂ hf
  rw [L.get_write, hx] at h₁ h₂
  simp only at h₁ h₂
  -- Each of the two rows is the new one, or one of before with another key.
  split at h₁
  · cases h₁
    split at h₂
    · cases h₂
      rfl
    · rename_i hk
      exact absurd hf.symm (hne _ _ h₂ fun he => hk (he ▸ L.key_of_get h₂))
  · rename_i hk
    split at h₂
    · cases h₂
      exact absurd hf (hne _ _ h₁ fun he => hk (he ▸ L.key_of_get h₁))
    · exact h _ _ _ _ h₁ h₂ hf

/-- A key that is unique after each of two batches, and that no row version of the one shares
with one of the other, is unique after both. -/
theorem Unique.merge {f : β → γ} (h₁ : L.Unique (writeAll db rows) f)
    (h₂ : L.Unique (writeAll db ws) f)
    (hne : ∀ b b', L.Holds rows b → L.Holds ws b' → f b ≠ f b') :
    L.Unique (writeAll (writeAll db rows) ws) f := by
  intro k k' b b' hb hb' hf
  rcases merge_cases hb with ⟨hws, hb₂⟩ | ⟨hb₁, hb₂⟩
  · rcases merge_cases hb' with ⟨-, hb₂'⟩ | ⟨-, hrows | hb₂'⟩
    · exact h₂ k k' b b' hb₂ hb₂' hf
    · exact absurd hf.symm (hne b' b hrows hws)
    · exact h₂ k k' b b' hb₂ hb₂' hf
  · rcases merge_cases hb' with ⟨hws, hb₂'⟩ | ⟨hb₁', -⟩
    · rcases hb₂ with hrows | hb₂
      · exact absurd hf (hne b b' hrows hws)
      · exact h₂ k k' b b' hb₂ hb₂' hf
    · exact h₁ k k' b b' hb₁ hb₁' hf

end Lookup

end ReadCommitted
