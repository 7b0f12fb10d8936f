import Mathlib.Data.List.Basic

/-!
# `Vanguard.Library.Pipeline`: checks and a normalisation in a fixed order

A pipeline is a list of stages over values of a type `α`. A stage is a check, or the
normalisation `f`, which is idempotent. `run` goes through the stages in their order, so a check
that stands before a normalisation (`early`) sees the value that is not yet normalised.

`run_normal_iff` says when the result of a run is normal, that is passes all checks and is its
own result: when the early checks hold of the normalised input.
-/

set_option autoImplicit false

namespace Pipeline

variable {α σ : Type} (f : α → α) (test : σ → Option (α → Bool))

/-- The stage holds of a value. A normalisation holds of every value. -/
def passes (c : σ) (x : α) : Bool :=
  match test c with
  | some p => p x
  | none => true

/-- The value behind a stage. -/
def apply (c : σ) (x : α) : α :=
  match test c with
  | some _ => x
  | none => f x

/-- The stages in their order: `none` when a check fails. -/
def run : List σ → α → Option α
  | [], x => some x
  | c :: cs, x => if passes test c x then run cs (apply f test c x) else none

/-- The pipeline normalises. -/
def normalises (cs : List σ) : Bool := cs.any fun c => (test c).isNone

/-- The checks that stand before a normalisation. -/
def early : List σ → List σ
  | [] => []
  | c :: cs => if (test c).isSome && normalises test cs then c :: early cs else early cs

variable {f test}

/-- The result is the input, normalised if there is a normalisation. -/
theorem run_eq (hf : ∀ x, f (f x) = f x) {cs : List σ} {x y : α} (h : run f test cs x = some y) :
    y = if normalises test cs then f x else x := by
  induction cs generalizing x with
  | nil =>
      cases h
      rfl
  | cons c cs ih =>
      rw [run] at h
      split at h
      · have hy := ih h
        rcases Option.eq_none_or_eq_some (test c) with hc | ⟨p, hc⟩
        · simp only [apply, hc, hf, ite_self] at hy
          simp only [normalises, List.any_cons, hc, Option.isNone_none, Bool.true_or, if_true]
          exact hy
        · simp only [apply, hc] at hy
          simp only [normalises, List.any_cons, hc, Option.isNone_some, Bool.false_or]
          exact hy
      · cases h

/-- A normal value goes through when all checks hold of it. -/
theorem run_fixed {cs : List σ} {x : α} (hx : f x = x) :
    run f test cs x = some x ↔ ∀ c ∈ cs, passes test c x = true := by
  induction cs with
  | nil => simp [run]
  | cons c cs ih =>
      have happly : apply f test c x = x := by
        unfold apply
        split
        · rfl
        · exact hx
      rw [run, happly, List.forall_mem_cons]
      cases hc : passes test c x with
      | true => simp [ih]
      | false => simp

/-- The early checks are checks of the pipeline. -/
theorem early_subset {cs : List σ} {c : σ} (h : c ∈ early test cs) : c ∈ cs := by
  induction cs with
  | nil => cases h
  | cons d cs ih =>
      rw [early] at h
      split at h
      · rcases List.mem_cons.mp h with rfl | hmem
        · exact List.mem_cons_self
        · exact List.mem_cons_of_mem _ (ih hmem)
      · exact List.mem_cons_of_mem _ (ih h)

/-- Without a normalisation no check is early. -/
theorem early_eq_nil {cs : List σ} (h : normalises test cs = false) : early test cs = [] := by
  induction cs with
  | nil => rfl
  | cons c cs ih =>
      simp only [normalises, List.any_cons, Bool.or_eq_false_iff] at h
      rw [early, normalises, h.2, Bool.and_false, if_neg Bool.false_ne_true]
      exact ih h.2

/-- The other checks hold of the result. -/
theorem passes_of_late (hf : ∀ x, f (f x) = f x) {cs : List σ} {x y : α}
    (h : run f test cs x = some y) {c : σ} (hc : c ∈ cs) (hlate : c ∉ early test cs) :
    passes test c y = true := by
  induction cs generalizing x with
  | nil => cases hc
  | cons d cs ih =>
      have hrun := h
      rw [run] at h
      split at h
      · rename_i hpass
        rw [early] at hlate
        rcases List.mem_cons.mp hc with rfl | hmem
        · cases hd : test c with
          | none => simp [passes, hd]
          | some p =>
              -- No normalisation follows, so the check has seen the result.
              have hnone : normalises test cs = false := by
                by_contra hsome
                rw [hd, eq_true_of_ne_false hsome] at hlate
                exact hlate List.mem_cons_self
              have hy := run_eq hf h
              rw [hnone, if_neg Bool.false_ne_true, apply, hd] at hy
              rw [hy]
              exact hpass
        · refine ih h hmem fun hearly => hlate ?_
          split
          · exact List.mem_cons_of_mem _ hearly
          · exact hearly
      · cases h

/-- An early check has seen the input, or the normalised input. -/
theorem passes_of_early (hf : ∀ x, f (f x) = f x) {cs : List σ} {x y : α}
    (h : run f test cs x = some y) {c : σ} (hc : c ∈ cs) :
    passes test c x = true ∨ passes test c (f x) = true := by
  induction cs generalizing x with
  | nil => cases hc
  | cons d cs ih =>
      rw [run] at h
      split at h
      · rename_i hpass
        rcases List.mem_cons.mp hc with rfl | hmem
        · exact Or.inl hpass
        · have hrest := ih h hmem
          cases hd : test d with
          | none =>
              simp only [apply, hd, hf, or_self] at hrest
              exact Or.inr hrest
          | some p =>
              simp only [apply, hd] at hrest
              exact hrest
      · cases h

/-- The result of a run passes all checks and is its own result exactly when the early checks
hold of the normalised input. -/
theorem run_normal_iff (hf : ∀ x, f (f x) = f x) {cs : List σ} {x y : α}
    (h : run f test cs x = some y) :
    ((∀ c ∈ cs, passes test c y = true) ∧ run f test cs y = some y) ↔
      ∀ c ∈ early test cs, passes test c (f x) = true := by
  have hy := run_eq hf h
  cases hn : normalises test cs with
  | true =>
      rw [hn, if_pos rfl] at hy
      have hfy : f y = y := by rw [hy, hf]
      rw [run_fixed hfy, and_self, ← hy]
      constructor
      · intro hall c hc
        exact hall c (early_subset hc)
      · intro hearly c hc
        by_cases hce : c ∈ early test cs
        · exact hearly c hce
        · exact passes_of_late hf h hc hce
  | false =>
      -- Nothing is normalised: the run has returned its input.
      rw [hn, if_neg Bool.false_ne_true] at hy
      rw [early_eq_nil hn]
      constructor
      · intro _ c hc
        cases hc
      · intro _
        refine ⟨fun c hc => passes_of_late hf h hc ?_, hy ▸ h⟩
        rw [early_eq_nil hn]
        exact List.not_mem_nil

end Pipeline
