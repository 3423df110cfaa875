import Mathlib.Data.List.Basic
import Mathlib.Data.List.Nodup

/-! # Tables with a primary key

The rows of a table in insertion order. That no two rows share a key is a field
of the table, so a table that violates its primary key cannot be built; an
update maps rows without touching the key, and a deletion only drops rows.
-/

namespace FacialCamera.Core

structure Table (ρ κ : Type) (key : ρ → κ) where
  rows : List ρ
  keys_nodup : (rows.map key).Nodup

namespace Table

variable {ρ κ : Type} {key : ρ → κ}

def empty : Table ρ κ key := ⟨[], by simp⟩

def Has (t : Table ρ κ key) (k : κ) : Prop := ∃ r ∈ t.rows, key r = k

/-- `INSERT` of a row whose key is new. -/
def insert (t : Table ρ κ key) (r : ρ) (fresh : ¬ t.Has (key r)) : Table ρ κ key where
  rows := t.rows ++ [r]
  keys_nodup := by
    simp only [List.map_append, List.map_cons, List.map_nil]
    refine List.Nodup.append t.keys_nodup (by simp) ?_
    intro k hk hr
    obtain ⟨row, hrow, rfl⟩ := List.mem_map.mp hk
    exact fresh ⟨row, hrow, by simpa using hr⟩

/-- `DELETE` of the rows that satisfy `p`. -/
def deleteWhere (t : Table ρ κ key) (p : ρ → Bool) : Table ρ κ key where
  rows := t.rows.filter fun r => !p r
  keys_nodup := t.keys_nodup.sublist (List.filter_sublist.map key)

@[simp] theorem rows_empty : (empty : Table ρ κ key).rows = [] := rfl

@[simp] theorem rows_insert (t : Table ρ κ key) (r : ρ) (fresh : ¬ t.Has (key r)) :
    (t.insert r fresh).rows = t.rows ++ [r] := rfl

@[simp] theorem rows_deleteWhere (t : Table ρ κ key) (p : ρ → Bool) :
    (t.deleteWhere p).rows = t.rows.filter fun r => !p r := rfl

variable [DecidableEq κ]

/-- `SELECT ... WHERE key = ?`, the row if there is one. -/
def find? (t : Table ρ κ key) (k : κ) : Option ρ := t.rows.find? fun r => key r = k

/-- `UPDATE ... WHERE key = ?`. -/
def update (t : Table ρ κ key) (k : κ) (f : ρ → ρ) (hf : ∀ r, key (f r) = key r) :
    Table ρ κ key where
  rows := t.rows.map fun r => if key r = k then f r else r
  keys_nodup := by
    have hkeys : (t.rows.map fun r => if key r = k then f r else r).map key = t.rows.map key := by
      rw [List.map_map]
      refine List.map_congr_left fun r _ => ?_
      by_cases h : key r = k <;> simp [h, hf]
    rw [hkeys]
    exact t.keys_nodup

@[simp] theorem rows_update (t : Table ρ κ key) (k : κ) (f : ρ → ρ)
    (hf : ∀ r, key (f r) = key r) :
    (t.update k f hf).rows = t.rows.map fun r => if key r = k then f r else r := rfl

instance (t : Table ρ κ key) (k : κ) : Decidable (t.Has k) :=
  inferInstanceAs (Decidable (∃ r ∈ t.rows, key r = k))

/-! ## Lookups -/

theorem find?_mem {t : Table ρ κ key} {k : κ} {r : ρ} (h : t.find? k = some r) :
    r ∈ t.rows ∧ key r = k :=
  ⟨List.mem_of_find?_eq_some h, by simpa using List.find?_some h⟩

omit [DecidableEq κ] in
/-- The primary key determines the row. -/
theorem eq_of_key_eq {t : Table ρ κ key} {r r' : ρ} (hr : r ∈ t.rows) (hr' : r' ∈ t.rows)
    (h : key r = key r') : r = r' :=
  List.inj_on_of_nodup_map t.keys_nodup hr hr' h

theorem find?_eq_some_iff {t : Table ρ κ key} {k : κ} {r : ρ} :
    t.find? k = some r ↔ r ∈ t.rows ∧ key r = k := by
  refine ⟨find?_mem, ?_⟩
  rintro ⟨hr, rfl⟩
  cases h : t.find? (key r) with
  | none => simpa using List.find?_eq_none.mp h r hr
  | some row =>
      obtain ⟨hrow, hkey⟩ := find?_mem h
      rw [eq_of_key_eq hrow hr hkey]

theorem find?_eq_none_iff {t : Table ρ κ key} {k : κ} : t.find? k = none ↔ ¬ t.Has k := by
  simp [find?, Has]

theorem has_iff_find? {t : Table ρ κ key} {k : κ} : t.Has k ↔ ∃ r, t.find? k = some r := by
  simp only [find?_eq_some_iff, Has]

@[simp] theorem find?_empty (k : κ) : (empty : Table ρ κ key).find? k = none := rfl

/-- A table that has one row more. -/
theorem find?_of_rows_append {t t' : Table ρ κ key} {r : ρ} (h : t'.rows = t.rows ++ [r])
    (k : κ) : t'.find? k = if key r = k then some r else t.find? k := by
  by_cases hk : key r = k
  · subst hk
    simp [find?_eq_some_iff, h]
  · simp [find?, h, hk]

theorem find?_insert (t : Table ρ κ key) (r : ρ) (fresh : ¬ t.Has (key r)) (k : κ) :
    (t.insert r fresh).find? k = if key r = k then some r else t.find? k :=
  find?_of_rows_append rfl k

theorem find?_update (t : Table ρ κ key) (k k' : κ) (f : ρ → ρ)
    (hf : ∀ r, key (f r) = key r) :
    (t.update k f hf).find? k' = if k = k' then (t.find? k').map f else t.find? k' := by
  have hcomp : ((fun r => decide (key r = k')) ∘ fun r => if key r = k then f r else r) =
      fun r => decide (key r = k') := by
    funext r
    by_cases h : key r = k <;> simp [h, hf]
  simp only [find?, rows_update, List.find?_map, hcomp]
  cases h : t.rows.find? fun r => decide (key r = k') with
  | none => simp
  | some r =>
      have hr : key r = k' := by simpa using List.find?_some h
      by_cases hk : k = k'
      · simp [hk, hr]
      · have hne : key r ≠ k := by simpa [hr] using Ne.symm hk
        simp [hk, hne]

theorem find?_deleteWhere (t : Table ρ κ key) (p : ρ → Bool) (k : κ) :
    (t.deleteWhere p).find? k = (t.find? k).filter fun r => !p r := by
  cases h : t.find? k with
  | none =>
      rw [find?_eq_none_iff] at h
      refine find?_eq_none_iff.mpr ?_
      rintro ⟨r, hr, hk⟩
      exact h ⟨r, (List.mem_filter.mp hr).1, hk⟩
  | some r =>
      obtain ⟨hr, hk⟩ := find?_mem h
      by_cases hp : p r = true
      · have hnone : (t.deleteWhere p).find? k = none := by
          refine find?_eq_none_iff.mpr ?_
          rintro ⟨r', hr', hk'⟩
          obtain ⟨hmem, hkeep⟩ := List.mem_filter.mp hr'
          have heq : r' = r := eq_of_key_eq hmem hr (hk'.trans hk.symm)
          simp [heq, hp] at hkeep
        simp [hnone, Option.filter, hp]
      · have hsome : (t.deleteWhere p).find? k = some r :=
          find?_eq_some_iff.mpr ⟨by simp [hr, hp], hk⟩
        simp [hsome, Option.filter, hp]

/-! ## Keys -/

omit [DecidableEq κ] in
@[simp] theorem has_insert (t : Table ρ κ key) (r : ρ) (fresh : ¬ t.Has (key r)) (k : κ) :
    (t.insert r fresh).Has k ↔ t.Has k ∨ key r = k := by
  simp only [Has, rows_insert, List.mem_append, List.mem_singleton]
  constructor
  · rintro ⟨row, h | rfl, hk⟩
    · exact Or.inl ⟨row, h, hk⟩
    · exact Or.inr hk
  · rintro (⟨row, h, hk⟩ | hk)
    · exact ⟨row, Or.inl h, hk⟩
    · exact ⟨r, Or.inr rfl, hk⟩

@[simp] theorem has_update (t : Table ρ κ key) (k k' : κ) (f : ρ → ρ)
    (hf : ∀ r, key (f r) = key r) : (t.update k f hf).Has k' ↔ t.Has k' := by
  simp only [has_iff_find?, find?_update]
  by_cases h : k = k' <;> simp [h]

end Table

end FacialCamera.Core
