import Mathlib.Algebra.Order.BigOperators.Group.List
import Mathlib.Data.List.DropRight
import Mathlib.Data.Nat.Log
import Mathlib.Data.Rat.Floor
import Mathlib.Algebra.Order.Ring.Rat

/-!
# `Vanguard.Domain.Javascript`: the JavaScript values the services compute with

The services use a few operations of the JavaScript standard library. Each has a
definition here:

* `trim` is `String.prototype.trim`. It removes the white space and the line terminators
  of the language at both ends;
* `jsLength` is the `length` of a string, in UTF-16 code units;
* `toLowerCase` on ASCII text, `lastChars` for `slice(-n)`;
* `number` is `Number` on the text of a `BIGINT`: the nearest double, ties to even. It is
  exact up to `maxSafeInteger` (`number_of_le`) and monotone (`number_mono`);
* `toFixed` is `Number.prototype.toFixed` on a nonnegative number. Percentages are exact
  rationals in the model.
-/

set_option autoImplicit false

namespace Vanguard

/-- A point in time, in milliseconds since the epoch. -/
abbrev Timestamp := Int

/-- White space and line terminators of JavaScript. -/
def isSpace (c : Char) : Bool :=
  let n := c.toNat
  (9 ≤ n && n ≤ 13) || n == 0x20 || n == 0xA0 || n == 0x1680 ||
    (0x2000 ≤ n && n ≤ 0x200A) || n == 0x2028 || n == 0x2029 || n == 0x202F ||
    n == 0x205F || n == 0x3000 || n == 0xFEFF

/-- `s.trim()`. -/
def trim (s : String) : String :=
  String.ofList ((s.toList.dropWhile isSpace).rdropWhile isSpace)

/-- A string without white space is its own `trim`. -/
theorem trim_eq_self {s : String} (h : ∀ c ∈ s.toList, isSpace c = false) : trim s = s := by
  have hd : s.toList.dropWhile isSpace = s.toList := by
    rw [List.dropWhile_eq_self_iff]
    intro hl
    simp [h _ (List.getElem_mem hl)]
  have hr : s.toList.rdropWhile isSpace = s.toList := by
    rw [List.rdropWhile_eq_self_iff]
    intro hl
    simp [h _ (List.getLast_mem hl)]
  rw [trim, hd, hr, String.ofList_toList]

/-- A second `trim` changes nothing. -/
theorem trim_trim (s : String) : trim (trim s) = trim s := by
  unfold trim
  rw [String.toList_ofList]
  congr 1
  generalize hl : s.toList.dropWhile isSpace = l
  have hd : (l.rdropWhile isSpace).dropWhile isSpace = l.rdropWhile isSpace := by
    rw [List.dropWhile_eq_self_iff]
    intro hlen
    -- The first character of the trimmed list is the first one of `l`.
    have hpre := List.rdropWhile_prefix isSpace (l := l)
    have hne : l ≠ [] := by
      rintro rfl
      simp at hlen
    have hpos : 0 < l.length := List.length_pos_iff.mpr hne
    have h0 : (l.rdropWhile isSpace)[0] = l[0] := List.IsPrefix.getElem hpre hlen
    rw [h0]
    subst hl
    exact List.dropWhile_get_zero_not isSpace s.toList hpos
  rw [hd, List.rdropWhile_idempotent]

/-- `s.length`, in UTF-16 code units. -/
def jsLength (s : String) : Nat :=
  (s.toList.map fun c => if c.toNat < 0x10000 then 1 else 2).sum

/-- `trim` makes no string longer. -/
theorem jsLength_trim_le (s : String) : jsLength (trim s) ≤ jsLength s := by
  have hsub : ((s.toList.dropWhile isSpace).rdropWhile isSpace).Sublist s.toList :=
    (List.rdropWhile_prefix isSpace _).sublist.trans (List.dropWhile_sublist isSpace)
  rw [jsLength, jsLength, trim, String.toList_ofList]
  exact (hsub.map _).sum_le_sum fun _ _ => Nat.zero_le _

/-- `s.toLowerCase()` on ASCII text. -/
def toLowerCase (s : String) : String :=
  String.ofList (s.toList.map Char.toLower)

/-- `s.slice(-n)`. -/
def lastChars (s : String) (n : Nat) : String :=
  String.ofList (s.toList.drop (s.toList.length - n))

/-- The multiple of `2 ^ e` nearest to `n`, ties to the even one. -/
def roundToPow (n e : Nat) : Nat :=
  let q := n / 2 ^ e
  let r := n % 2 ^ e
  if 2 * r < 2 ^ e ∨ (2 * r = 2 ^ e ∧ q % 2 = 0) then q * 2 ^ e else (q + 1) * 2 ^ e

/-- `Number(text)` on the text of an integer: the nearest double, which has a 53-bit
significand. -/
def number (z : Int) : Int :=
  z.sign * roundToPow z.natAbs (z.natAbs.log2 - 52)

/-- The largest integer that `Number` and every smaller one represent. -/
def maxSafeInteger : Int := 2 ^ 53 - 1

/-- `Number` is exact up to `2 ^ 53 - 1`. -/
theorem number_of_le {z : Int} (h₀ : 0 ≤ z) (h : z ≤ maxSafeInteger) : number z = z := by
  -- 53 bits fit into the significand, so nothing is rounded.
  have hlog : z.natAbs.log2 - 52 = 0 := by
    rcases Nat.eq_zero_or_pos z.natAbs with hz | hz
    · simp [hz]
    · have : z.natAbs.log2 < 53 := by
        rw [Nat.log2_lt (by omega)]
        unfold maxSafeInteger at h
        omega
      omega
  have hround : roundToPow z.natAbs 0 = z.natAbs := by
    simp [roundToPow, Nat.mod_one]
  rw [number, hlog, hround]
  exact Int.sign_mul_natAbs z

/-- A larger number does not round to a smaller multiple. -/
theorem roundToPow_mono {m n : Nat} (h : m ≤ n) (e : Nat) : roundToPow m e ≤ roundToPow n e := by
  have hpos : 0 < 2 ^ e := Nat.two_pow_pos e
  have hq : m / 2 ^ e ≤ n / 2 ^ e := Nat.div_le_div_right h
  have hm := Nat.div_add_mod m (2 ^ e)
  have hn := Nat.div_add_mod n (2 ^ e)
  simp only [roundToPow]
  generalize 2 ^ e = p at *
  rcases Nat.eq_or_lt_of_le hq with heq | hlt
  · -- The same quotient: the remainders decide.
    rw [heq] at hm ⊢
    have hr : m % p ≤ n % p := by omega
    have hsucc : n / p * p ≤ (n / p + 1) * p := Nat.mul_le_mul_right p (Nat.le_succ _)
    split <;> split <;> omega
  · -- The next multiple of the one is at most the multiple of the other.
    have hstep : (m / p + 1) * p ≤ n / p * p := Nat.mul_le_mul_right p hlt
    have hm' : m / p * p ≤ (m / p + 1) * p := Nat.mul_le_mul_right p (Nat.le_succ _)
    have hn' : n / p * p ≤ (n / p + 1) * p := Nat.mul_le_mul_right p (Nat.le_succ _)
    split <;> split <;> omega

/-- A power of two is a multiple of a smaller one. -/
theorem roundToPow_two_pow {k e : Nat} (h : e ≤ k) : roundToPow (2 ^ k) e = 2 ^ k := by
  have hdvd : 2 ^ e ∣ 2 ^ k := Nat.pow_dvd_pow 2 h
  have hr : 2 ^ k % 2 ^ e = 0 := Nat.mod_eq_zero_of_dvd hdvd
  simp only [roundToPow, hr]
  rw [if_pos (Or.inl (by have := Nat.two_pow_pos e; omega))]
  exact Nat.div_mul_cancel hdvd

/-- `Number` is monotone on the nonnegative integers. -/
theorem number_mono {a b : Int} (h₀ : 0 ≤ a) (h : a ≤ b) : number a ≤ number b := by
  obtain ⟨m, rfl⟩ := Int.eq_ofNat_of_zero_le h₀
  obtain ⟨n, rfl⟩ := Int.eq_ofNat_of_zero_le (h₀.trans h)
  have hmn : m ≤ n := by omega
  -- The sign only matters for zero, which rounds to zero.
  have hnum : ∀ k : Nat, number (k : Int) = roundToPow k (k.log2 - 52) := by
    intro k
    rcases Nat.eq_zero_or_pos k with rfl | hk
    · rfl
    · rw [number, Int.natAbs_natCast, Int.sign_eq_one_of_pos (by omega), one_mul]
  rw [hnum, hnum]
  refine Int.ofNat_le.mpr ?_
  rcases Nat.eq_zero_or_pos m with rfl | hm
  · exact Nat.zero_le _
  have hlog : m.log2 ≤ n.log2 := by
    rw [Nat.log2_eq_log_two, Nat.log2_eq_log_two]
    exact Nat.log_mono_right hmn
  rcases Nat.eq_or_lt_of_le hlog with heq | hlt
  · rw [heq]
    exact roundToPow_mono hmn _
  · -- A power of two lies between the two numbers, and both roundings keep it.
    have hbelow : m ≤ 2 ^ n.log2 := by
      have := (Nat.log2_lt (by omega)).mp hlt
      omega
    have habove : 2 ^ n.log2 ≤ n := Nat.log2_self_le (by omega)
    calc roundToPow m (m.log2 - 52)
        ≤ roundToPow (2 ^ n.log2) (m.log2 - 52) := roundToPow_mono hbelow _
      _ = 2 ^ n.log2 := roundToPow_two_pow (by omega)
      _ = roundToPow (2 ^ n.log2) (n.log2 - 52) := (roundToPow_two_pow (by omega)).symm
      _ ≤ roundToPow n (n.log2 - 52) := roundToPow_mono habove _

/-- `x.toFixed(digits)` for `0 ≤ x`: the nearest decimal, ties up. The number is the exact one,
where a program has the nearest double, so the last digit shown may differ by one. -/
def toFixed (x : Rat) (digits : Nat) : String :=
  let n := ⌊x * 10 ^ digits + 1 / 2⌋.toNat
  if digits = 0 then toString n
  else
    let fraction := toString (n % 10 ^ digits)
    toString (n / 10 ^ digits) ++ "." ++
      String.ofList (List.replicate (digits - fraction.length) '0') ++ fraction

end Vanguard
