import Mathlib.Data.List.Basic
import Mathlib.Data.List.Pairwise

/-! # A register that is overwritten

Readers of such a register see some of the values written, in the order in which they
were written: a read returns the last write before it.
-/

namespace FacialCamera.Core

variable {α : Type} {written more : List α} {values : List (Option α)}

/-- What the register holds after `n` writes. -/
def held (written : List α) : Nat → Option α
  | 0 => none
  | n + 1 => written[n]?

theorem held_append {n : Nat} (h : n ≤ written.length) :
    held (written ++ more) n = held written n := by
  cases n with
  | zero => rfl
  | succ n => exact List.getElem?_append_left h

theorem held_length (written : List α) : held written written.length = written.getLast? := by
  cases written with
  | nil => rfl
  | cons a written => simp [held, List.getLast?_eq_getElem?]

/-- The values were read one after the other: later reads, later writes. -/
def ReadOff (written : List α) (values : List (Option α)) : Prop :=
  ∃ ns : List Nat, ns.Pairwise (· ≤ ·) ∧ (∀ n ∈ ns, n ≤ written.length) ∧
    values = ns.map (held written)

namespace ReadOff

theorem nil : ReadOff written [] := ⟨[], List.Pairwise.nil, by simp, rfl⟩

/-- Further writes leave what was read before them. -/
theorem later (h : ReadOff written values) (more : List α) :
    ReadOff (written ++ more) values := by
  obtain ⟨ns, hsorted, hbound, rfl⟩ := h
  refine ⟨ns, hsorted, fun n hn => ?_, ?_⟩
  · rw [List.length_append]
    exact Nat.le_add_right_of_le (hbound n hn)
  · exact List.map_congr_left fun n hn => (held_append (hbound n hn)).symm

/-- A read returns the last write. -/
theorem read (h : ReadOff written values) :
    ReadOff written (values ++ [written.getLast?]) := by
  obtain ⟨ns, hsorted, hbound, rfl⟩ := h
  refine ⟨ns ++ [written.length], ?_, ?_, ?_⟩
  · rw [List.pairwise_append]
    refine ⟨hsorted, List.pairwise_singleton _ _, fun n hn m hm => ?_⟩
    rw [List.mem_singleton.mp hm]
    exact hbound n hn
  · intro n hn
    rcases List.mem_append.mp hn with hn | hn
    · exact hbound n hn
    · exact Nat.le_of_eq (List.mem_singleton.mp hn)
  · rw [List.map_append, List.map_singleton, held_length]

end ReadOff

end FacialCamera.Core
