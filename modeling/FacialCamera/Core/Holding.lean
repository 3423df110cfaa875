import Mathlib.Data.List.Nodup
import Mathlib.Data.List.Perm.Basic
import Mathlib.Data.List.Range

/-! # Rows that belong to somebody

A store holds rows with keys, in an order of its own, and each of `n` owners has at most
one of them. Two owners may have rows of one key: then a deletion by that key takes both,
and the rules below ask that it does not.
-/

namespace FacialCamera.Core

variable {κ β : Type} {n p : ℕ} {view view' : ℕ → Option (κ × β)} {rows : List (κ × β)}

/-- The rows are those of the owners below `n`, in some order. -/
def Holding (n : ℕ) (view : ℕ → Option (κ × β)) (rows : List (κ × β)) : Prop :=
  ((List.range n).filterMap view).Perm rows

namespace Holding

theorem congr (h : Holding n view rows) (hview : ∀ q, view' q = view q) :
    Holding n view' rows := by
  have heq : view' = view := funext hview
  rw [heq]
  exact h

/-- The elements of a list own what they have. -/
theorem of_list {α : Type} {xs : List α} {row : α → Option (κ × β)}
    (h : (xs.filterMap row).Perm rows) :
    Holding xs.length (fun p => xs[p]?.bind row) rows := by
  have hlist : (List.range xs.length).filterMap (fun p => xs[p]?.bind row) =
      xs.filterMap row := by
    clear h
    induction xs using List.reverseRecOn with
    | nil => rfl
    | append_singleton xs x ih =>
        have hbefore : ∀ p ∈ List.range xs.length, (xs ++ [x])[p]?.bind row = xs[p]?.bind row := by
          intro p hp
          rw [List.getElem?_append_left (List.mem_range.1 hp)]
        have hlast : (xs ++ [x])[xs.length]?.bind row = row x := by simp
        rw [List.length_append, List.length_singleton, List.range_succ, List.filterMap_append,
          List.filterMap_congr hbefore, ih, List.filterMap_append, List.filterMap_cons, hlast,
          List.filterMap_cons]
        rfl
  show ((List.range xs.length).filterMap _).Perm rows
  rw [hlist]
  exact h

/-- One owner more, who has no row yet. -/
theorem succ (h : Holding n view rows) (hn : view n = none) : Holding (n + 1) view rows := by
  have hlast : (List.range (n + 1)).filterMap view = (List.range n).filterMap view := by
    rw [List.range_succ, List.filterMap_append]
    simp [hn]
  show ((List.range (n + 1)).filterMap view).Perm rows
  rw [hlast]
  exact h

/-- An owner without a row gets one. -/
theorem insert (h : Holding n view rows) {r : κ × β} (hp : p < n) (hnone : view p = none)
    (hr : view' p = some r) (hview : ∀ q, q ≠ p → view' q = view q) :
    Holding n view' (rows ++ [r]) := by
  obtain ⟨before, after, hsplit⟩ := List.append_of_mem (List.mem_range.2 hp)
  have hnodup : (before ++ p :: after).Nodup := hsplit ▸ List.nodup_range
  have hne := (List.nodup_middle.1 hnodup).notMem
  simp only [List.mem_append, not_or] at hne
  have hbefore : before.filterMap view' = before.filterMap view :=
    List.filterMap_congr fun q hq => hview q fun heq => hne.1 (heq ▸ hq)
  have hafter : after.filterMap view' = after.filterMap view :=
    List.filterMap_congr fun q hq => hview q fun heq => hne.2 (heq ▸ hq)
  have hold : before.filterMap view ++ after.filterMap view = (List.range n).filterMap view := by
    rw [hsplit, List.filterMap_append, List.filterMap_cons_none hnone]
  have hnew : (List.range n).filterMap view' =
      before.filterMap view ++ r :: after.filterMap view := by
    rw [hsplit, List.filterMap_append, List.filterMap_cons_some hr, hbefore, hafter]
  have hrows : (before.filterMap view ++ after.filterMap view).Perm rows := by
    rw [hold]
    exact h
  show ((List.range n).filterMap view').Perm (rows ++ [r])
  rw [hnew]
  exact (List.perm_middle.trans (hrows.cons r)).trans (List.perm_append_singleton r rows).symm

/-- A deletion by the key `k` of one owner, which no other row has. -/
theorem delete [DecidableEq κ] (h : Holding n view rows) {k : κ} (hp : view' p = none)
    (hkey : ∀ r, view p = some r → r.1 = k) (hother : ∀ q, q ≠ p → ∀ r, view q = some r → r.1 ≠ k)
    (hview : ∀ q, q ≠ p → view' q = view q) :
    Holding n view' (rows.filter fun r => decide (r.1 ≠ k)) := by
  have hpoint : ∀ q, (view q).filter (fun r => decide (r.1 ≠ k)) = view' q := by
    intro q
    by_cases hq : q = p
    · rw [hq, hp, Option.filter_eq_none_iff]
      intro r hr
      simpa using hkey r hr
    · rw [hview q hq]
      cases hr : view q with
      | none => rfl
      | some r => simp [Option.filter, hother q hq r hr]
  have hfilter : ((List.range n).filterMap view).filter (fun r => decide (r.1 ≠ k)) =
      (List.range n).filterMap view' := by
    rw [List.filter_filterMap]
    exact List.filterMap_congr fun q _ => hpoint q
  show ((List.range n).filterMap view').Perm _
  rw [← hfilter]
  exact h.filter _

/-- A change of the rows with the key `k`, which leaves another owner's row as it is. -/
theorem update [DecidableEq κ] (h : Holding n view rows) {k : κ} {f : κ × β → κ × β}
    (hp : view' p = (view p).map f) (hkey : ∀ r, view p = some r → r.1 = k)
    (hother : ∀ q, q ≠ p → ∀ r, view q = some r → r.1 = k → f r = r)
    (hview : ∀ q, q ≠ p → view' q = view q) :
    Holding n view' (rows.map fun r => if r.1 = k then f r else r) := by
  have hpoint : ∀ q, (view q).map (fun r => if r.1 = k then f r else r) = view' q := by
    intro q
    by_cases hq : q = p
    · rw [hq, hp]
      cases hr : view p with
      | none => rfl
      | some r => simp [hkey r hr]
    · rw [hview q hq]
      cases hr : view q with
      | none => rfl
      | some r =>
          rw [Option.map_some]
          congr 1
          split
          · rename_i hk
            exact hother q hq r hr hk
          · rfl
  have hmap : ((List.range n).filterMap view).map (fun r => if r.1 = k then f r else r) =
      (List.range n).filterMap view' := by
    rw [List.map_filterMap]
    exact List.filterMap_congr fun q _ => hpoint q
  show ((List.range n).filterMap view').Perm _
  rw [← hmap]
  exact h.map _

/-- Two stores with keys of their own hold the same contents where every owner has the
same in both. -/
theorem contents_perm {κ' : Type} {mirror : ℕ → Option (κ' × β)} {rows' : List (κ' × β)}
    (h : Holding n view rows) (h' : Holding n mirror rows')
    (hsame : ∀ q, (view q).map Prod.snd = (mirror q).map Prod.snd) :
    (rows.map Prod.snd).Perm (rows'.map Prod.snd) := by
  have heq : ((List.range n).filterMap view).map Prod.snd =
      ((List.range n).filterMap mirror).map Prod.snd := by
    rw [List.map_filterMap, List.map_filterMap]
    exact List.filterMap_congr fun q _ => hsame q
  have hleft : (((List.range n).filterMap view).map Prod.snd).Perm (rows.map Prod.snd) := h.map _
  have hright : (((List.range n).filterMap mirror).map Prod.snd).Perm (rows'.map Prod.snd) :=
    h'.map _
  rw [heq] at hleft
  exact hleft.symm.trans hright

end Holding

end FacialCamera.Core
