import FacialCamera.Core.Rounding
import Mathlib.Algebra.Order.Floor.Semifield
import Mathlib.Data.List.DropRight
import Mathlib.Data.Nat.Digits.Lemmas
import Mathlib.Data.Rat.Floor
import Mathlib.Tactic.Positivity

/-! # Text

Strings as lists of UTF-16 code units: trimming, decimal numerals, and the double
that a numeral reads as.
-/

namespace FacialCamera.Core

abbrev Text := List UInt16

def text (s : String) : Text := s.toList.map fun c => c.toNat.toUInt16

section Trimming

variable {α : Type} (p : α → Bool)

/-- A list without the elements at its two ends that satisfy `p`. -/
def strip (xs : List α) : List α := (xs.dropWhile p).rdropWhile p

theorem dropWhile_strip (xs : List α) : (strip p xs).dropWhile p = strip p xs := by
  have hprefix : strip p xs <+: xs.dropWhile p := List.rdropWhile_prefix p _
  cases hs : strip p xs with
  | nil => rfl
  | cons x ys =>
      rw [hs] at hprefix
      -- the first element that is left is the one `dropWhile` stopped at
      have hhead : (xs.dropWhile p).head? = some x := by
        obtain ⟨zs, hzs⟩ := hprefix
        rw [← hzs]
        rfl
      have hx : p x = false := by
        have hstop := List.head?_dropWhile_not p xs
        rw [hhead] at hstop
        simpa using hstop
      simp [hx]

theorem strip_strip (xs : List α) : strip p (strip p xs) = strip p xs := by
  have h := dropWhile_strip p xs
  calc strip p (strip p xs) = (strip p xs).rdropWhile p := by rw [strip, h]
    _ = strip p xs := List.rdropWhile_idempotent p _

end Trimming

/-! ## Numerals -/

def isDigit (c : UInt16) : Bool := decide (48 ≤ c.toNat) && decide (c.toNat ≤ 57)

def digitValue (c : UInt16) : ℕ := c.toNat - 48

def digit (d : ℕ) : UInt16 := (48 + d).toUInt16

theorem toNat_digit {d : ℕ} (h : d < 10) : (digit d).toNat = 48 + d := by
  have hsmall : 48 + d < 65536 := by omega
  simp [digit, Nat.mod_eq_of_lt hsmall]

theorem isDigit_digit {d : ℕ} (h : d < 10) : isDigit (digit d) = true := by
  have hd := toNat_digit h
  simp only [isDigit, hd, Bool.and_eq_true, decide_eq_true_eq]
  omega

@[simp] theorem digitValue_digit {d : ℕ} (h : d < 10) : digitValue (digit d) = d := by
  rw [digitValue, toNat_digit h]
  omega

theorem digitValue_lt {c : UInt16} (h : isDigit c = true) : digitValue c < 10 := by
  simp only [isDigit, Bool.and_eq_true, decide_eq_true_eq] at h
  unfold digitValue
  omega

theorem digit_digitValue {c : UInt16} (h : isDigit c = true) : digit (digitValue c) = c := by
  have hlt := digitValue_lt h
  simp only [isDigit, Bool.and_eq_true, decide_eq_true_eq] at h
  apply UInt16.toNat_inj.1
  rw [toNat_digit hlt, digitValue]
  omega

/-- `/^\d+$/`. -/
def isNumeral (s : Text) : Bool := !s.isEmpty && s.all isDigit

def numeralValue (s : Text) : ℕ := s.foldl (fun n c => 10 * n + digitValue c) 0

/-- The numeral of a number, with no zero before it. -/
def numeral (n : ℕ) : Text := if n = 0 then [48] else ((Nat.digits 10 n).map digit).reverse

theorem isNumeral_iff (s : Text) : isNumeral s = true ↔ s ≠ [] ∧ ∀ c ∈ s, isDigit c = true := by
  simp [isNumeral]

theorem numeralValue_eq (s : Text) :
    numeralValue s = Nat.ofDigits 10 (s.map digitValue).reverse := by
  rw [Nat.ofDigits_eq_foldr, ← List.foldl_eq_foldr_reverse, List.foldl_map]
  unfold numeralValue
  congr 1
  funext n c
  simp [Nat.add_comm]

theorem numeralValue_zeros (k : ℕ) (s : Text) :
    numeralValue (List.replicate k 48 ++ s) = numeralValue s := by
  induction k with
  | zero => simp
  | succ k ih =>
      rw [List.replicate_succ, List.cons_append]
      calc numeralValue (48 :: (List.replicate k 48 ++ s))
          = numeralValue (List.replicate k 48 ++ s) := rfl
        _ = numeralValue s := ih

theorem isNumeral_numeral (n : ℕ) : isNumeral (numeral n) = true := by
  unfold numeral
  split
  · decide
  · rename_i hn
    rw [isNumeral_iff]
    constructor
    · simp [Nat.digits_ne_nil_iff_ne_zero, hn]
    · intro c hc
      simp only [List.mem_reverse, List.mem_map] at hc
      obtain ⟨d, hd, rfl⟩ := hc
      exact isDigit_digit (Nat.digits_lt_base (by omega) hd)

theorem numeralValue_numeral (n : ℕ) : numeralValue (numeral n) = n := by
  unfold numeral
  split
  · rename_i hn
    subst hn
    decide
  · have hmap : ((Nat.digits 10 n).map digit).map digitValue = Nat.digits 10 n := by
      rw [List.map_map]
      have hid : ∀ d ∈ Nat.digits 10 n, (digitValue ∘ digit) d = d := fun d hd =>
        digitValue_digit (Nat.digits_lt_base (by omega) hd)
      exact (List.map_congr_left hid).trans (List.map_id _)
    rw [numeralValue_eq, List.map_reverse, List.reverse_reverse, hmap, Nat.ofDigits_digits]

/-- A numeral as it is written without a zero before it. -/
def Plain (s : Text) : Prop := s = [48] ∨ s.head? ≠ some 48

instance (s : Text) : Decidable (Plain s) := inferInstanceAs (Decidable (_ ∨ _))

theorem plain_numeral (n : ℕ) : Plain (numeral n) := by
  unfold numeral
  split
  · exact .inl rfl
  · rename_i hn
    right
    have hne : Nat.digits 10 n ≠ [] := Nat.digits_ne_nil_iff_ne_zero.2 hn
    have hlast := Nat.getLast_digit_ne_zero 10 hn
    have hlt := Nat.digits_lt_base (b := 10) (by omega) (List.getLast_mem hne)
    rw [List.head?_reverse, List.getLast?_map, List.getLast?_eq_some_getLast hne]
    intro hzero
    have heq : digit ((Nat.digits 10 n).getLast hne) = 48 := by simpa using hzero
    have hnat := congrArg UInt16.toNat heq
    rw [toNat_digit hlt] at hnat
    have h48 : (48 : UInt16).toNat = 48 := rfl
    omega

theorem numeral_numeralValue {s : Text} (h : isNumeral s = true) (hplain : Plain s) :
    numeral (numeralValue s) = s := by
  rw [isNumeral_iff] at h
  rcases hplain with rfl | hhead
  · decide
  -- the digits of the value are those of the text, the last of them not zero
  have hlt : ∀ d ∈ (s.map digitValue).reverse, d < 10 := by
    intro d hd
    simp only [List.mem_reverse, List.mem_map] at hd
    obtain ⟨c, hc, rfl⟩ := hd
    exact digitValue_lt (h.2 c hc)
  cases s with
  | nil => exact absurd rfl h.1
  | cons c cs =>
      have hc : isDigit c = true := h.2 c (by simp)
      have hfirst : digitValue c ≠ 0 := by
        intro hzero
        have hdigit := digit_digitValue hc
        rw [hzero] at hdigit
        exact hhead (by rw [← hdigit]; rfl)
      have hdigits : Nat.digits 10 (numeralValue (c :: cs)) =
          ((c :: cs).map digitValue).reverse := by
        rw [numeralValue_eq]
        exact Nat.digits_ofDigits 10 (by omega) _ hlt fun _ => by simpa using hfirst
      have hne : numeralValue (c :: cs) ≠ 0 := by
        intro hzero
        rw [hzero] at hdigits
        simp at hdigits
      have hback : ((c :: cs).map digitValue).map digit = c :: cs := by
        rw [List.map_map]
        have hid : ∀ x ∈ c :: cs, (digit ∘ digitValue) x = x := fun x hx =>
          digit_digitValue (h.2 x hx)
        exact (List.map_congr_left hid).trans (List.map_id _)
      rw [numeral, if_neg hne, hdigits, List.map_reverse, List.reverse_reverse, hback]

/-- Every run of digits is zeros before the numeral of its value. -/
theorem isNumeral_iff_zeros (s : Text) :
    isNumeral s = true ↔ ∃ k, s = List.replicate k 48 ++ numeral (numeralValue s) := by
  constructor
  · intro h
    induction s with
    | nil => exact absurd h (by decide)
    | cons c cs ih =>
        by_cases hplain : Plain (c :: cs)
        · exact ⟨0, (numeral_numeralValue h hplain).symm⟩
        · simp only [Plain, not_or, not_not, List.head?_cons, Option.some.injEq] at hplain
          obtain ⟨hne, rfl⟩ := hplain
          have hcs : cs ≠ [] := fun hnil => hne (by rw [hnil])
          have hrest : isNumeral cs = true := by
            rw [isNumeral_iff] at h ⊢
            exact ⟨hcs, fun c hc => h.2 c (List.mem_cons_of_mem _ hc)⟩
          obtain ⟨k, hk⟩ := ih hrest
          have hvalue : numeralValue (48 :: cs) = numeralValue cs := rfl
          exact ⟨k + 1, by rw [hvalue, List.replicate_succ, List.cons_append, ← hk]⟩
  · intro ⟨k, hk⟩
    have hnumeral := isNumeral_numeral (numeralValue s)
    rw [hk]
    rw [isNumeral_iff] at hnumeral ⊢
    constructor
    · simp [hnumeral.1]
    · intro c hc
      rcases List.mem_append.1 hc with hzero | hdigit
      · rw [List.eq_of_mem_replicate hzero]
        decide
      · exact hnumeral.2 c hdigit

/-- Different numbers are printed differently. -/
theorem toString_inj {m n : Nat} (h : toString m = toString n) : m = n := by
  have hdigits : Nat.toDigits 10 m = Nat.toDigits 10 n := by
    simpa using congrArg String.toList h
  have hvalues := congrArg (fun cs => Nat.ofDigitChars 10 cs 0) hdigits
  simpa using hvalues

/-! ## Doubles -/

/-- The double nearest to a number, ties to even; `none` is infinity. -/
def toDouble (n : ℕ) : Option ℕ :=
  if n < 2 ^ 53 then some n
  else
    let ulp : ℕ := 2 ^ (n.log2 - 52)
    let m := (halfEven ((n : ℚ) / (ulp : ℚ))).toNat * ulp
    if m < 2 ^ 1024 then some m else none

theorem le_of_toDouble {n m : ℕ} (hn : 2 ^ 53 ≤ n) (h : toDouble n = some m) : 2 ^ 53 ≤ m := by
  have hlog : 53 ≤ n.log2 := (Nat.le_log2 (by omega)).2 hn
  have hself : 2 ^ n.log2 ≤ n := Nat.log2_self_le (by omega)
  have hulp : 2 ^ n.log2 = 2 ^ 52 * 2 ^ (n.log2 - 52) := by
    rw [← Nat.pow_add]
    congr 1
    omega
  have htwo : 2 ≤ 2 ^ (n.log2 - 52) := by
    calc 2 = 2 ^ 1 := rfl
      _ ≤ 2 ^ (n.log2 - 52) := Nat.pow_le_pow_right (by omega) (by omega)
  unfold toDouble at h
  rw [if_neg (by omega)] at h
  simp only [Option.ite_none_right_eq_some, Option.some.injEq] at h
  rw [← h.2]
  -- a significand has 53 bits, and rounding does not take it below its floor
  have hfloor : (2 ^ 52 : ℤ) ≤ ⌊(n : ℚ) / (2 ^ (n.log2 - 52) : ℕ)⌋ := by
    rw [Int.le_floor, le_div_iff₀ (by positivity)]
    have hcast : ((2 ^ 52 * 2 ^ (n.log2 - 52) : ℕ) : ℚ) ≤ (n : ℚ) := by
      exact_mod_cast hulp ▸ hself
    simpa using hcast
  have hround := floor_le_halfEven ((n : ℚ) / (2 ^ (n.log2 - 52) : ℕ))
  have hsignificand : 2 ^ 52 ≤ (halfEven ((n : ℚ) / (2 ^ (n.log2 - 52) : ℕ))).toNat := by
    omega
  calc 2 ^ 53 = 2 ^ 52 * 2 := rfl
    _ ≤ _ := Nat.mul_le_mul hsignificand htwo

/-- A comparison with small bounds sees the number itself. -/
theorem toDouble_within (n lo hi : ℕ) (hhi : hi < 2 ^ 53) :
    ((toDouble n).any fun m => decide (lo ≤ m) && decide (m ≤ hi)) = true ↔ lo ≤ n ∧ n ≤ hi := by
  by_cases hn : n < 2 ^ 53
  · rw [toDouble, if_pos hn]
    simp
  · constructor
    · intro h
      rw [Option.any_eq_true] at h
      obtain ⟨m, hm, hbound⟩ := h
      have hlarge := le_of_toDouble (by omega) hm
      simp only [Bool.and_eq_true, decide_eq_true_eq] at hbound
      omega
    · intro h
      omega

end FacialCamera.Core
