import Mathlib.Algebra.Ring.Nat
import Mathlib.Data.List.Lex
import Mathlib.Order.Monotone.Basic
import Mathlib.Tactic.Common

/-! # Texts in the order of the numbers they print

Numerals of a fixed width, texts put together from them, and the dates of the Gregorian
calendar one day after the other. Texts are ASCII octets and are compared octet by
octet, as a database compares them.
-/

namespace FacialCamera.Core

/-! ## Ordered texts -/

/-- Below the bound, the texts are ordered as the numbers are. -/
def Sorts (text : ℕ → List ℕ) (bound : ℕ) : Prop :=
  ∀ n m, n < bound → m < bound → (text n < text m ↔ n < m)

/-- Below the bound, the texts have the same width. -/
def Wide (text : ℕ → List ℕ) (bound width : ℕ) : Prop := ∀ n < bound, (text n).length = width

variable {text text' : ℕ → List ℕ} {bound bound' width width' n m : ℕ}

theorem append_lt_append_iff {a a' b b' : List ℕ} (h : a.length = a'.length) :
    a ++ b < a' ++ b' ↔ a < a' ∨ a = a' ∧ b < b' := by
  induction a generalizing a' with
  | nil =>
      have hnil : a' = [] := List.length_eq_zero_iff.mp h.symm
      subst hnil
      simp
  | cons x a ih =>
      cases a' with
      | nil => cases h
      | cons x' a' =>
          have hrest : a.length = a'.length := Nat.succ_inj.mp h
          rw [List.cons_append, List.cons_append, List.cons_lt_cons_iff, List.cons_lt_cons_iff,
            ih hrest, List.cons.injEq]
          tauto

namespace Sorts

theorem inj (h : Sorts text bound) (hn : n < bound) (hm : m < bound)
    (heq : text n = text m) : n = m := by
  have hnm := h n m hn hm
  have hmn := h m n hm hn
  rw [heq] at hnm hmn
  have hirrefl : ¬ text m < text m := List.lt_irrefl _
  have hle := mt hnm.mpr hirrefl
  have hge := mt hmn.mpr hirrefl
  omega

theorem mono (h : Sorts text bound) (hle : bound' ≤ bound) : Sorts text bound' :=
  fun n m hn hm => h n m (by omega) (by omega)

/-- The same octets in front. -/
theorem cons (h : Sorts text bound) (x : ℕ) : Sorts (fun n => x :: text n) bound := by
  intro n m hn hm
  show x :: text n < x :: text m ↔ n < m
  rw [List.cons_lt_cons_iff]
  simp [h n m hn hm]

/-- The quotient before the remainder. -/
theorem append (h : Sorts text bound) (hwide : Wide text bound width)
    (h' : Sorts text' bound') : Sorts (fun n => text (n / bound') ++ text' (n % bound'))
      (bound * bound') := by
  intro n m hn hm
  rcases Nat.eq_zero_or_pos bound' with rfl | hpos
  · simp at hn
  have hn' : n / bound' < bound := Nat.div_lt_of_lt_mul (by rwa [Nat.mul_comm])
  have hm' : m / bound' < bound := Nat.div_lt_of_lt_mul (by rwa [Nat.mul_comm])
  have hnmod := Nat.mod_lt n hpos
  have hmmod := Nat.mod_lt m hpos
  have hndiv := Nat.div_add_mod n bound'
  have hmdiv := Nat.div_add_mod m bound'
  show text _ ++ text' _ < text _ ++ text' _ ↔ n < m
  rw [append_lt_append_iff ((hwide _ hn').trans (hwide _ hm').symm), h _ _ hn' hm',
    h' _ _ hnmod hmmod]
  constructor
  · rintro (hlt | ⟨heq, hlt⟩)
    · have hstep : bound' * (n / bound' + 1) ≤ bound' * (m / bound') :=
        Nat.mul_le_mul_left _ hlt
      rw [Nat.mul_add, Nat.mul_one] at hstep
      omega
    · rw [h.inj hn' hm' heq] at hndiv
      omega
  · intro hlt
    rcases Nat.lt_or_ge (n / bound') (m / bound') with hless | hmore
    · exact Or.inl hless
    · have hsame : n / bound' = m / bound' :=
        Nat.le_antisymm (Nat.div_le_div_right hlt.le) hmore
      rw [hsame] at hndiv
      exact Or.inr ⟨by rw [hsame], by omega⟩

/-- Texts of the values of a growing function. -/
theorem comp (h : Sorts text bound) {key : ℕ → ℕ} (hkey : StrictMono key)
    (hbound : ∀ n < bound', key n < bound) : Sorts (fun n => text (key n)) bound' := by
  intro n m hn hm
  exact (h _ _ (hbound n hn) (hbound m hm)).trans hkey.lt_iff_lt

end Sorts

/-! ## Numerals -/

/-- The last `width` decimal digits. -/
def padded : ℕ → ℕ → List ℕ
  | 0, _ => []
  | width + 1, n => padded width (n / 10) ++ [48 + n % 10]

@[simp] theorem length_padded (width n : ℕ) : (padded width n).length = width := by
  induction width generalizing n with
  | zero => rfl
  | succ width ih => simp [padded, ih]

theorem sorts_digit : Sorts (fun n => [48 + n]) 10 := by
  intro n m _ _
  simp [List.cons_lt_cons_iff]

theorem sorts_padded (width : ℕ) : Sorts (padded width) (10 ^ width) := by
  induction width with
  | zero =>
      intro n m hn hm
      simp [padded]
      omega
  | succ width ih => exact ih.append (fun _ _ => length_padded _ _) sorts_digit

/-! ## Dates -/

def isLeap (year : ℕ) : Bool := year % 4 = 0 ∧ (year % 100 ≠ 0 ∨ year % 400 = 0)

def daysIn (year : ℕ) : ℕ → ℕ
  | 2 => if isLeap year then 29 else 28
  | 4 | 6 | 9 | 11 => 30
  | _ => 31

structure Date where
  year : ℕ
  month : ℕ
  day : ℕ
  deriving DecidableEq

namespace Date

def next (d : Date) : Date :=
  if d.day < daysIn d.year d.month then ⟨d.year, d.month, d.day + 1⟩
  else if d.month < 12 then ⟨d.year, d.month + 1, 1⟩
  else ⟨d.year + 1, 1, 1⟩

def later (first : Date) : ℕ → Date
  | 0 => first
  | n + 1 => (first.later n).next

structure Valid (d : Date) : Prop where
  month_pos : 0 < d.month
  month_le : d.month ≤ 12
  day_pos : 0 < d.day
  day_le : d.day ≤ daysIn d.year d.month

theorem daysIn_bounds (year month : ℕ) : 28 ≤ daysIn year month ∧ daysIn year month ≤ 31 := by
  unfold daysIn
  split
  · split <;> omega
  · omega
  · omega
  · omega
  · omega
  · omega

theorem Valid.next {d : Date} (h : d.Valid) : d.next.Valid := by
  obtain ⟨hmonth, hmonths, hday, hdays⟩ := h
  unfold Date.next
  split
  · exact ⟨hmonth, hmonths, Nat.succ_pos _, by assumption⟩
  · have hfirst (year month : ℕ) : 1 ≤ daysIn year month := by
      have hbounds := daysIn_bounds year month
      omega
    split
    case isTrue hlast => exact ⟨Nat.succ_pos _, hlast, Nat.one_pos, hfirst _ _⟩
    case isFalse => exact ⟨Nat.one_pos, Nat.le_of_ble_eq_true rfl, Nat.one_pos, hfirst _ _⟩

theorem Valid.later {d : Date} (h : d.Valid) (n : ℕ) : (d.later n).Valid := by
  induction n with
  | zero => exact h
  | succ n ih => exact ih.next

def key (d : Date) : ℕ := (d.year * 100 + d.month) * 100 + d.day

theorem Valid.key_lt_next {d : Date} (h : d.Valid) : d.key < d.next.key := by
  have hbounds := daysIn_bounds d.year d.month
  obtain ⟨hmonth, hmonths, hday, hdays⟩ := h
  unfold Date.next key
  split
  · dsimp only
    omega
  · split
    · dsimp only
      omega
    · dsimp only
      omega

theorem Valid.strictMono_key {d : Date} (h : d.Valid) : StrictMono fun n => (d.later n).key :=
  strictMono_nat_of_lt_succ fun n => (h.later n).key_lt_next

/-- `YYYY-MM-DD`. -/
def isoformat (d : Date) : List ℕ :=
  padded 4 d.year ++ 45 :: (padded 2 d.month ++ 45 :: padded 2 d.day)

@[simp] theorem length_isoformat (d : Date) : d.isoformat.length = 10 := by
  simp [isoformat]

def keyText (k : ℕ) : List ℕ :=
  padded 4 (k / (100 * 100)) ++
    45 :: (padded 2 (k % (100 * 100) / 100) ++ 45 :: padded 2 (k % (100 * 100) % 100))

theorem sorts_keyText : Sorts keyText (10 ^ 4 * (100 * 100)) := by
  have hday := (sorts_padded 2).cons 45
  have hmonth := ((sorts_padded 2).append (fun _ _ => length_padded _ _) hday).cons 45
  exact (sorts_padded 4).append (fun _ _ => length_padded _ _) hmonth

theorem Valid.isoformat_eq {d : Date} (h : d.Valid) : d.isoformat = keyText d.key := by
  have hbounds := daysIn_bounds d.year d.month
  obtain ⟨hmonth, hmonths, hday, hdays⟩ := h
  have hyear : d.key / (100 * 100) = d.year := by
    unfold key
    omega
  have hmonth' : d.key % (100 * 100) / 100 = d.month := by
    unfold key
    omega
  have hday' : d.key % (100 * 100) % 100 = d.day := by
    unfold key
    omega
  rw [isoformat, keyText, hyear, hmonth', hday']

/-- Until the year 9999 the texts of the days are ordered. -/
theorem Valid.sorts_isoformat {d : Date} (h : d.Valid) {last : ℕ}
    (hlast : (d.later last).year ≤ 9999) :
    Sorts (fun n => (d.later n).isoformat) (last + 1) := by
  have htext : (fun n => (d.later n).isoformat) = fun n => keyText (d.later n).key :=
    funext fun n => (h.later n).isoformat_eq
  rw [htext]
  refine sorts_keyText.comp h.strictMono_key fun n hn => ?_
  have hle : (d.later n).key ≤ (d.later last).key :=
    h.strictMono_key.monotone (Nat.lt_succ_iff.mp hn)
  have hvalid := h.later last
  have hbounds := daysIn_bounds (d.later last).year (d.later last).month
  obtain ⟨_, hmonths, _, hdays⟩ := hvalid
  have hkey : (d.later last).key < 10 ^ 4 * (100 * 100) := by
    unfold key
    omega
  omega

end Date

/-! ## Moments

A moment is a number of microseconds. Its text has a fraction unless it is a full second,
and a `Z` at the end.
-/

def microsPerSecond : ℕ := 1000000

def secondsPerDay : ℕ := 24 * (60 * 60)

/-- `HH:MM:SS` of a second of the day. -/
def clockText (second : ℕ) : List ℕ :=
  padded 2 (second / (60 * 60)) ++
    58 :: (padded 2 (second % (60 * 60) / 60) ++ 58 :: padded 2 (second % (60 * 60) % 60))

def fractionText (micros : ℕ) : List ℕ :=
  if micros = 0 then [90] else 46 :: (padded 6 micros ++ [90])

/-- The second of a moment, from a first day on. -/
def secondText (first : Date) (second : ℕ) : List ℕ :=
  (first.later (second / secondsPerDay)).isoformat ++ 84 :: clockText (second % secondsPerDay)

def momentText (first : Date) (moment : ℕ) : List ℕ :=
  secondText first (moment / microsPerSecond) ++ fractionText (moment % microsPerSecond)

def dayOf (moment : ℕ) : ℕ := moment / microsPerSecond / secondsPerDay

theorem sorts_clockText : Sorts clockText secondsPerDay := by
  have hpadded : Wide (padded 2) (10 ^ 2) 2 := fun _ _ => length_padded _ _
  have hsixty : Sorts (padded 2) 60 := (sorts_padded 2).mono (by omega)
  have hminutes := (hsixty.append (fun n hn => hpadded n (by omega)) (hsixty.cons 58)).cons 58
  have hhours : Sorts (padded 2) 24 := (sorts_padded 2).mono (by omega)
  exact hhours.append (fun n hn => hpadded n (by omega)) hminutes

@[simp] theorem length_clockText (second : ℕ) : (clockText second).length = 8 := by
  simp [clockText]

/-- The fractions of a second in the order of their texts: a full second is the last. -/
def slot (micros : ℕ) : ℕ := if micros = 0 then microsPerSecond - 1 else micros - 1

theorem slot_lt (hn : n < microsPerSecond) : slot n < microsPerSecond := by
  unfold slot
  split
  · simp [microsPerSecond]
  · omega

def slotText (i : ℕ) : List ℕ :=
  if i + 1 = microsPerSecond then [90] else 46 :: (padded 6 (i + 1) ++ [90])

theorem fractionText_eq (hn : n < microsPerSecond) : fractionText n = slotText (slot n) := by
  by_cases hzero : n = 0
  · subst hzero
    rfl
  · have hnext : n - 1 + 1 = n := Nat.succ_pred_eq_of_ne_zero hzero
    rw [fractionText, slotText, slot, if_neg hzero, if_neg hzero, hnext, if_neg hn.ne]

theorem sorts_slotText : Sorts slotText microsPerSecond := by
  intro n m hn hm
  have hdigits : n + 1 < microsPerSecond → m + 1 < microsPerSecond →
      (padded 6 (n + 1) ++ [90] < padded 6 (m + 1) ++ [90] ↔ n < m) := by
    intro hn' hm'
    rw [append_lt_append_iff (by simp), sorts_padded 6 _ _ hn' hm']
    simp
  unfold slotText
  by_cases hn' : n + 1 = microsPerSecond <;> by_cases hm' : m + 1 = microsPerSecond
  · simp only [hn', hm', if_true, List.lt_irrefl, false_iff]
    omega
  · simp only [hn', hm', if_true, if_false, List.cons_lt_cons_iff]
    omega
  · simp only [hn', hm', if_true, if_false, List.cons_lt_cons_iff]
    omega
  · rw [if_neg hn', if_neg hm', List.cons_lt_cons_iff, hdigits (by omega) (by omega)]
    simp

/-- The moments in the order of their texts. -/
def rank (moment : ℕ) : ℕ :=
  moment / microsPerSecond * microsPerSecond + slot (moment % microsPerSecond)

theorem rank_div (n : ℕ) : rank n / microsPerSecond = n / microsPerSecond := by
  have hslot := slot_lt (Nat.mod_lt n (by decide : 0 < microsPerSecond))
  rw [rank, Nat.add_comm, Nat.add_mul_div_right _ _ (by decide), Nat.div_eq_of_lt hslot,
    Nat.zero_add]

theorem rank_mod (n : ℕ) : rank n % microsPerSecond = slot (n % microsPerSecond) := by
  rw [rank, Nat.add_comm, Nat.add_mul_mod_self_right]
  exact Nat.mod_eq_of_lt (slot_lt (Nat.mod_lt _ (by decide)))

theorem momentText_eq (first : Date) (n : ℕ) : momentText first n =
    secondText first (rank n / microsPerSecond) ++ slotText (rank n % microsPerSecond) := by
  rw [momentText, rank_div, rank_mod, fractionText_eq (Nat.mod_lt _ (by decide))]

section Until

variable {first : Date} {last : ℕ} (hfirst : first.Valid) (hlast : (first.later last).year ≤ 9999)
include hfirst hlast

theorem sorts_secondText : Sorts (secondText first) ((last + 1) * secondsPerDay) :=
  (hfirst.sorts_isoformat hlast).append (fun _ _ => Date.length_isoformat _)
    (sorts_clockText.cons 84)

/-- Texts of moments are ordered by their ranks. -/
theorem momentText_lt_iff (hn : dayOf n ≤ last) (hm : dayOf m ≤ last) :
    momentText first n < momentText first m ↔ rank n < rank m := by
  have hsorts := (sorts_secondText hfirst hlast).append
    (fun _ _ => by simp [secondText] : Wide (secondText first) _ 19) sorts_slotText
  have hbound : ∀ k, dayOf k ≤ last →
      rank k < (last + 1) * secondsPerDay * microsPerSecond := by
    intro k hk
    have hday : k / microsPerSecond < (last + 1) * secondsPerDay :=
      Nat.lt_mul_of_div_lt (Nat.lt_succ_of_le hk) (by decide)
    rw [← rank_div] at hday
    exact Nat.lt_mul_of_div_lt hday (by decide)
  rw [momentText_eq, momentText_eq]
  exact hsorts _ _ (hbound n hn) (hbound m hm)

/-- The text of a moment begins with the text of its day. -/
theorem isoformat_prefix_iff {day : ℕ} (hn : dayOf n ≤ last) (hday : day ≤ last) :
    (first.later day).isoformat <+: momentText first n ↔ dayOf n = day := by
  have hsplit : momentText first n = (first.later (dayOf n)).isoformat ++
      (84 :: clockText (n / microsPerSecond % secondsPerDay) ++
        fractionText (n % microsPerSecond)) := by
    rw [momentText, secondText, List.append_assoc]
    rfl
  rw [hsplit]
  constructor
  · intro hstart
    have htake := List.prefix_iff_eq_take.mp hstart
    rw [Date.length_isoformat, List.take_append_of_le_length (by simp),
      List.take_of_length_le (by simp)] at htake
    exact ((hfirst.sorts_isoformat hlast).inj (Nat.lt_succ_of_le hday)
      (Nat.lt_succ_of_le hn) htake).symm
  · intro heq
    rw [heq]
    exact List.prefix_append _ _

end Until

end FacialCamera.Core
