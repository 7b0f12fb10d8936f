import Mathlib.Order.Defs.PartialOrder
import Mathlib.Data.List.Basic

/-!
# `Vanguard.Library.Timeline`: the committed states of a store, in order

A `Store` is a database type with row versions: `write` puts one row version into
a database, and `clash` says that two uncommitted row versions cannot exist side
by side (the same row, or the same unique key). A `Timeline` is the log of a
store: the database it started from and the batches of row versions committed
since. `Timeline.now` is the database after the last batch.

`t ≤ t'` says that `t'` continues `t`. `Quiet ws t t'` says more: no batch
committed between the two clashes with the row versions `ws`. This is what a
transaction that holds `ws` uncommitted may rely on. The lemma
`Quiet.now_induction` turns it into a fact about the databases at the two ends.
-/

set_option autoImplicit false

namespace ReadCommitted

/-- A database with row versions. `clash` is the conflict test of two uncommitted row
versions: the store makes the second writer wait. -/
class Store (D : Type) (Row : outParam Type) where
  write : D → Row → D
  clash : Row → Row → Bool

section
variable {D Row : Type} [Store D Row]

/-- The database after a list of row versions, oldest first. -/
def writeAll (db : D) (rows : List Row) : D :=
  rows.foldl Store.write db

/-- No rows, no change. -/
@[simp] theorem writeAll_nil (db : D) : writeAll db ([] : List Row) = db := rfl

/-- The rows are written in their order. -/
@[simp] theorem writeAll_cons (db : D) (r : Row) (rows : List Row) :
    writeAll db (r :: rows) = writeAll (Store.write db r) rows := rfl

/-- Rows written in two batches are the rows of one. -/
theorem writeAll_append (db : D) (rows rows' : List Row) :
    writeAll db (rows ++ rows') = writeAll (writeAll db rows) rows' := by
  simp [writeAll, List.foldl_append]

/-- A property that every write keeps. -/
theorem writeAll_induction {P : D → Prop} (hwrite : ∀ db r, P db → P (Store.write db r))
    {db : D} (h : P db) (rows : List Row) : P (writeAll db rows) := by
  induction rows generalizing db with
  | nil => exact h
  | cons r rows ih => exact ih (hwrite db r h)

/-- No row version of the first list clashes with one of the second. -/
def compatible (rows rows' : List Row) : Bool :=
  rows.all fun r => rows'.all fun r' => !Store.clash (D := D) r r'

/-- Two batches are compatible when no row of one clashes with a row of the other. -/
theorem compatible_iff (rows rows' : List Row) :
    compatible (D := D) rows rows' = true ↔
      ∀ r ∈ rows, ∀ r' ∈ rows', Store.clash (D := D) r r' = false := by
  simp [compatible]

end

/-- The log of a store: the first database and the committed batches. -/
inductive Timeline (D Row : Type) where
  | start (db : D)
  | commit (t : Timeline D Row) (rows : List Row)

namespace Timeline

variable {D Row : Type}

/-- The committed database at the end of the timeline. -/
def now [Store D Row] : Timeline D Row → D
  | start db => db
  | commit t rows => writeAll t.now rows

/-- The present of a history that has just begun. -/
@[simp] theorem now_start [Store D Row] (db : D) :
    (start db : Timeline D Row).now = db := rfl

/-- The present after a commit. -/
@[simp] theorem now_commit [Store D Row] (t : Timeline D Row) (rows : List Row) :
    (t.commit rows).now = writeAll t.now rows := rfl

/-- A batch goes into the log unless it is empty. -/
def publish (t : Timeline D Row) : List Row → Timeline D Row
  | [] => t
  | r :: rows => t.commit (r :: rows)

/-- A transaction that wrote nothing adds no moment. -/
@[simp] theorem publish_nil (t : Timeline D Row) : t.publish [] = t := rfl

/-- A transaction that wrote something adds one moment. -/
@[simp] theorem publish_cons (t : Timeline D Row) (r : Row) (rows : List Row) :
    t.publish (r :: rows) = t.commit (r :: rows) := rfl

/-- The present after a transaction, whether it wrote or not. -/
theorem now_publish [Store D Row] (t : Timeline D Row) (rows : List Row) :
    (t.publish rows).now = writeAll t.now rows := by
  cases rows <;> rfl

/-- The number of committed batches. -/
def length : Timeline D Row → Nat
  | start _ => 0
  | commit t _ => t.length + 1

/-- `t` is an earlier moment of `t'`, or `t'` itself. -/
inductive Before (t : Timeline D Row) : Timeline D Row → Prop where
  | refl : Before t t
  | commit {t' : Timeline D Row} (rows : List Row) : Before t t' → Before t (t'.commit rows)

/-- One history is below another when it is an initial part of it. -/
instance : LE (Timeline D Row) := ⟨Before⟩

/-- A commit only extends a history. -/
theorem le_commit {t t' : Timeline D Row} (rows : List Row) (h : t ≤ t') :
    t ≤ t'.commit rows := Before.commit rows h

/-- A transaction only extends a history. -/
theorem le_publish {t t' : Timeline D Row} (rows : List Row) (h : t ≤ t') :
    t ≤ t'.publish rows := by
  cases rows with
  | nil => exact h
  | cons r rows => exact le_commit _ h

/-- A history is no longer than its extensions. -/
theorem length_le_of_le {t t' : Timeline D Row} (h : t ≤ t') : t.length ≤ t'.length := by
  induction h with
  | refl => exact Nat.le_refl _
  | commit rows _ ih => exact Nat.le_succ_of_le ih

/-- A continuation of the same length is the timeline itself. -/
theorem eq_of_le_of_length {t t' : Timeline D Row} (h : t ≤ t')
    (hl : t'.length ≤ t.length) : t = t' := by
  cases h with
  | refl => rfl
  | commit rows h =>
      have := length_le_of_le h
      simp only [length] at hl
      omega

/-- Histories are ordered by extension: two that extend each other have the same length,
so they are the same. -/
instance : PartialOrder (Timeline D Row) where
  le_refl _ := Before.refl
  le_trans a b c hab hbc := by
    induction hbc with
    | refl => exact hab
    | commit rows _ ih => exact Before.commit rows ih
  le_antisymm a b hab hba := eq_of_le_of_length hab (length_le_of_le hba)

/-- What is below a history with one more commit is that history, or below the part
before it. -/
theorem le_commit_iff {t t' : Timeline D Row} {rows : List Row} :
    t ≤ t'.commit rows ↔ t = t'.commit rows ∨ t ≤ t' := by
  constructor
  · intro h
    cases h with
    | refl => exact Or.inl rfl
    | commit _ h => exact Or.inr h
  · rintro (rfl | h)
    · exact le_refl _
    · exact le_commit _ h

/-- A commit of the log after a batch is the batch itself, or was there before. -/
theorem commit_le_publish {t t' : Timeline D Row} {rows rows' : List Row}
    (h : t.commit rows ≤ t'.publish rows') :
    t.commit rows ≤ t' ∨ (t = t' ∧ rows = rows' ∧ rows ≠ []) := by
  cases rows' with
  | nil => exact Or.inl h
  | cons r rs =>
      rcases le_commit_iff.mp h with he | h
      · cases he
        exact Or.inr ⟨rfl, rfl, List.cons_ne_nil r rs⟩
      · exact Or.inl h

/-- Only a history that has just begun is below one. -/
theorem le_start_iff {t : Timeline D Row} {db : D} : t ≤ start db ↔ t = start db := by
  constructor
  · intro h
    cases h with
    | refl => rfl
  · rintro rfl
    exact le_refl _

/-- A property of databases that every write keeps holds later if it holds now. -/
theorem now_of_le [Store D Row] {P : D → Prop} (hwrite : ∀ db r, P db → P (Store.write db r))
    {t t' : Timeline D Row} (h : t ≤ t') (ht : P t.now) : P t'.now := by
  induction h with
  | refl => exact ht
  | commit rows _ ih => exact writeAll_induction hwrite ih rows

/-- Every commit of the timeline satisfies `P`: the moment before it and its batch. -/
def Commits (P : Timeline D Row → List Row → Prop) (t : Timeline D Row) : Prop :=
  ∀ t' rows, commit t' rows ≤ t → P t' rows

/-- A history without commits keeps every rule on commits. -/
theorem commits_start (P : Timeline D Row → List Row → Prop) (db : D) :
    Commits P (start db) := by
  intro t' rows h
  exact nomatch le_start_iff.mp h

/-- A rule that holds of each commit holds of the history one commit longer. -/
theorem commits_commit {P : Timeline D Row → List Row → Prop} {t : Timeline D Row}
    {rows : List Row} (ht : Commits P t) (hP : P t rows) : Commits P (t.commit rows) := by
  intro t' rows' h
  rcases le_commit_iff.mp h with he | h
  · cases he
    exact hP
  · exact ht t' rows' h

/-- What holds now and did not hold at the start has become true with a commit. -/
theorem exists_commit [Store D Row] {P : D → Prop} {db : D} {t : Timeline D Row}
    (hstart : start db ≤ t) (hdb : ¬ P db) (h : P t.now) :
    ∃ (u : Timeline D Row) (rows : List Row), u.commit rows ≤ t ∧ ¬ P u.now ∧
      P (u.commit rows).now := by
  induction hstart with
  | refl => exact absurd h hdb
  | @commit t rows _ ih =>
      by_cases ht : P t.now
      · obtain ⟨u, rows', hu, hbefore, hafter⟩ := ih ht
        exact ⟨u, rows', le_commit rows hu, hbefore, hafter⟩
      · exact ⟨t, rows, le_refl _, ht, h⟩

/-- A reflexive and transitive relation on databases that every commit respects holds
between any two moments of the timeline. -/
theorem rel_of_le [Store D Row] {R : D → D → Prop} (hrefl : ∀ d, R d d)
    (htrans : ∀ a b c, R a b → R b c → R a c) {t t' : Timeline D Row} (h : t ≤ t')
    (hc : Commits (fun u rows => R u.now (u.commit rows).now) t') : R t.now t'.now := by
  induction h with
  | refl => exact hrefl _
  | commit rows h ih =>
      refine htrans _ _ _ (ih fun u rs hu => hc u rs (le_commit _ hu)) ?_
      exact hc _ rows (le_refl _)

end Timeline

section
variable {D Row : Type} [Store D Row]

/-- From `t` to `t'` no batch was committed that clashes with `ws`. -/
inductive Quiet (ws : List Row) (t : Timeline D Row) : Timeline D Row → Prop where
  | refl : Quiet ws t t
  | commit {t' : Timeline D Row} (rows : List Row) : Quiet ws t t' →
      compatible (D := D) rows ws = true → Quiet ws t (t'.commit rows)

namespace Quiet

variable {ws : List Row} {t t' t'' : Timeline D Row}

/-- A quiet stretch only extends the history. -/
theorem le (h : Quiet ws t t') : t ≤ t' := by
  induction h with
  | refl => exact le_refl _
  | commit rows _ _ ih => exact Timeline.le_commit rows ih

/-- Quiet stretches compose. -/
theorem trans (h : Quiet ws t t') (h' : Quiet ws t' t'') : Quiet ws t t'' := by
  induction h' with
  | refl => exact h
  | commit rows _ hc ih => exact Quiet.commit rows ih hc

/-- A commit that clashes with none of the rows keeps the stretch quiet. -/
theorem publish (h : Quiet ws t t') (rows : List Row)
    (hc : compatible (D := D) rows ws = true) : Quiet ws t (t'.publish rows) := by
  cases rows with
  | nil => exact h
  | cons r rows => exact Quiet.commit _ h hc

/-- A stretch that is quiet for some rows is quiet for fewer of them. -/
theorem mono {ws' : List Row} (h : Quiet ws t t') (hs : ws' ⊆ ws) : Quiet ws' t t' := by
  induction h with
  | refl => exact Quiet.refl
  | commit rows _ hc ih =>
      refine Quiet.commit rows ih ?_
      rw [compatible_iff] at hc ⊢
      exact fun r hr r' hr' => hc r hr r' (hs hr')

/-- A value read from the database that no row version compatible with `ws` changes is
the same at the two ends. -/
theorem now_induction {β : Type} (f : D → β) (h : Quiet ws t t')
    (hf : ∀ db r, (∀ r' ∈ ws, Store.clash (D := D) r r' = false) →
      f (Store.write db r) = f db) : f t'.now = f t.now := by
  induction h with
  | refl => rfl
  | @commit u rows _ hc ih =>
      -- Inside one batch: by induction on its rows, none of which clashes.
      rw [← ih, Timeline.now_commit]
      rw [compatible_iff] at hc
      clear ih
      generalize u.now = db
      induction rows generalizing db with
      | nil => rfl
      | cons r rows ih =>
          rw [writeAll_cons, ih (fun r' hr' => hc r' (List.mem_cons_of_mem _ hr'))]
          exact hf db r (hc r List.mem_cons_self)

end Quiet

end

end ReadCommitted
