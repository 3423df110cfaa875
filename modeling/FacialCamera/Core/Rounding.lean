import Mathlib.Algebra.Order.Floor.Ring
import Mathlib.Tactic.Linarith

/-! # Rounding half to even

The integer nearest to a number, and the even one of two that are equally near.
-/

namespace FacialCamera.Core

variable {α : Type} [Field α] [LinearOrder α] [FloorRing α]

def halfEven (x : α) : ℤ :=
  if Int.fract x < 1 / 2 then ⌊x⌋
  else if 1 / 2 < Int.fract x then ⌊x⌋ + 1
  else if ⌊x⌋ % 2 = 0 then ⌊x⌋
  else ⌊x⌋ + 1

theorem floor_le_halfEven (x : α) : ⌊x⌋ ≤ halfEven x := by
  unfold halfEven
  split_ifs <;> omega

theorem halfEven_le_floor_add_one (x : α) : halfEven x ≤ ⌊x⌋ + 1 := by
  unfold halfEven
  split_ifs <;> omega

theorem halfEven_mono [IsStrictOrderedRing α] {x y : α} (h : x ≤ y) :
    halfEven x ≤ halfEven y := by
  rcases (Int.floor_le_floor h).lt_or_eq with hlt | heq
  · have hx := halfEven_le_floor_add_one x
    have hy := floor_le_halfEven y
    omega
  · -- inside one unit the fractions are compared, and the tie has one side only
    have hfract : Int.fract x ≤ Int.fract y := by
      rw [Int.fract, Int.fract, heq]
      linarith
    unfold halfEven
    rw [heq]
    split_ifs <;> first | omega | (exfalso; linarith)

end FacialCamera.Core
