import Mathlib.Data.List.Nodup
import Mathlib.Data.List.Range

/-! # Numbered tables that are never deleted from

The rows of such a table are numbered from one in the order they were added. A
table that grew out of another still holds each of its rows under its number,
changed at most as a given relation allows.
-/

namespace FacialCamera.Core

variable {α : Type} {number : α → Nat} {rows later : List α} {r r' : α}

/-- The row at position `i` has the number `i + 1`. -/
def Serial (number : α → Nat) (rows : List α) : Prop :=
  rows.map number = List.range' 1 rows.length

namespace Serial

theorem nil : Serial number [] := rfl

theorem snoc (h : Serial number rows) (hr : number r = rows.length + 1) :
    Serial number (rows ++ [r]) := by
  have hlast : List.range' 1 (rows.length + 1) =
      List.range' 1 rows.length ++ [1 + rows.length] := by
    have hconcat : List.range' 1 (rows.length + 1) 1 = _ := List.range'_concat
    simpa using hconcat
  show (rows ++ [r]).map number = List.range' 1 (rows ++ [r]).length
  rw [List.length_append, List.length_singleton, hlast, List.map_append, h, List.map_singleton, hr,
    Nat.add_comm]

/-- A change of rows that leaves their numbers alone. -/
theorem map {f : α → α} (h : Serial number rows) (hf : ∀ r, number (f r) = number r) :
    Serial number (rows.map f) := by
  show (rows.map f).map number = List.range' 1 (rows.map f).length
  rw [List.map_map, List.length_map, ← h]
  exact List.map_congr_left fun r _ => hf r

theorem nodup (h : Serial number rows) : (rows.map number).Nodup := by
  rw [h]
  exact List.nodup_range'

theorem bounds (h : Serial number rows) (hr : r ∈ rows) :
    1 ≤ number r ∧ number r ≤ rows.length := by
  have hmem : number r ∈ List.range' 1 rows.length := h ▸ List.mem_map_of_mem hr
  have hrange := List.mem_range'_1.mp hmem
  omega

/-- No number up to the last is missing. -/
theorem exists_number {n : Nat} (h : Serial number rows) (hpos : 1 ≤ n) (hn : n ≤ rows.length) :
    ∃ r ∈ rows, number r = n := by
  have hmem : n ∈ rows.map number := by
    rw [h, List.mem_range'_1]
    omega
  exact List.mem_map.mp hmem

theorem unique (h : Serial number rows) (hr : r ∈ rows) (hr' : r' ∈ rows)
    (heq : number r = number r') : r = r' :=
  List.inj_on_of_nodup_map h.nodup hr hr' heq

end Serial

/-- Every row is still there under its number, changed as `R` allows. -/
def Grows (number : α → Nat) (R : α → α → Prop) (rows later : List α) : Prop :=
  ∀ r ∈ rows, ∃ r' ∈ later, number r' = number r ∧ R r r'

namespace Grows

variable {R : α → α → Prop}

theorem refl (hR : ∀ r, R r r) (rows : List α) : Grows number R rows rows := fun r hr =>
  ⟨r, hr, rfl, hR r⟩

theorem trans (hR : ∀ r r' r'', R r r' → R r' r'' → R r r'') {last : List α}
    (h : Grows number R rows later) (h' : Grows number R later last) :
    Grows number R rows last := by
  intro r hr
  obtain ⟨r', hr', hnumber, hrel⟩ := h r hr
  obtain ⟨r'', hr'', hnumber', hrel'⟩ := h' r' hr'
  exact ⟨r'', hr'', hnumber'.trans hnumber, hR r r' r'' hrel hrel'⟩

theorem append (hR : ∀ r, R r r) (rows added : List α) :
    Grows number R rows (rows ++ added) := fun r hr =>
  ⟨r, List.mem_append_left _ hr, rfl, hR r⟩

theorem map {f : α → α} (hf : ∀ r, number (f r) = number r) (hR : ∀ r, R r (f r)) :
    Grows number R rows (rows.map f) := fun r hr =>
  ⟨f r, List.mem_map_of_mem hr, hf r, hR r⟩

end Grows

end FacialCamera.Core
