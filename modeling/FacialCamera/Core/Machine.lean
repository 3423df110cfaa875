import Mathlib.Data.List.Basic
import Mathlib.Data.List.Infix
import Mathlib.Data.Nat.Count

/-! # Labelled machines and the histories of their runs

A machine is a partial step function: every choice that is not the machine's own
(which thread moves, which request arrives, what a sensor answers) is in the
label. `Run` keeps each executed transition with both of its states, so a
property of the past is read off the run and no ghost component is added to a
state.
-/

namespace FacialCamera.Core

/-- `next s l` is the state after `l`, or `none` where `l` is not enabled. -/
structure Machine (σ ℓ : Type) where
  next : σ → ℓ → Option σ

/-- One executed step with its pre-state and its post-state. -/
structure Transition (σ ℓ : Type) where
  before : σ
  label : ℓ
  after : σ

namespace Machine

variable {σ ℓ : Type}

/-- The executions from `s₀`, oldest transition first. -/
inductive Run (M : Machine σ ℓ) (s₀ : σ) : List (Transition σ ℓ) → σ → Prop where
  | nil : Run M s₀ [] s₀
  | snoc {ts : List (Transition σ ℓ)} {s s' : σ} {l : ℓ} :
      Run M s₀ ts s → M.next s l = some s' → Run M s₀ (ts ++ [⟨s, l, s'⟩]) s'

def trace (M : Machine σ ℓ) : σ → List ℓ → Option (List (Transition σ ℓ) × σ)
  | s, [] => some ([], s)
  | s, l :: ls =>
      (M.next s l).bind fun s' =>
        (M.trace s' ls).map fun (ts, last) => (⟨s, l, s'⟩ :: ts, last)

variable {M : Machine σ ℓ} {s₀ s s' : σ} {l : ℓ} {ts : List (Transition σ ℓ)}

/-! ## Composition -/

theorem Run.append {us : List (Transition σ ℓ)} (r : M.Run s₀ ts s) (q : M.Run s us s') :
    M.Run s₀ (ts ++ us) s' := by
  induction q with
  | nil => simpa using r
  | snoc _ hstep ih => simpa [List.append_assoc] using ih.snoc hstep

theorem Run.single (h : M.next s l = some s') : M.Run s [⟨s, l, s'⟩] s' := by
  simpa using Run.snoc Run.nil h

theorem Run.cons (h : M.next s₀ l = some s) (q : M.Run s ts s') :
    M.Run s₀ (⟨s₀, l, s⟩ :: ts) s' := by
  simpa using (Run.single h).append q

theorem run_of_trace {ls : List ℓ} (h : M.trace s ls = some (ts, s')) : M.Run s ts s' := by
  induction ls generalizing s ts with
  | nil =>
      cases h
      exact Run.nil
  | cons l ls ih =>
      obtain ⟨mid, hmid, hrest⟩ := Option.bind_eq_some_iff.mp h
      obtain ⟨⟨us, last⟩, htrace, heq⟩ := Option.map_eq_some_iff.mp hrest
      cases heq
      exact Run.cons hmid (ih htrace)

theorem labels_of_trace {ls : List ℓ} (h : M.trace s ls = some (ts, s')) :
    ts.map Transition.label = ls := by
  induction ls generalizing s ts with
  | nil =>
      cases h
      rfl
  | cons l ls ih =>
      obtain ⟨mid, _, hrest⟩ := Option.bind_eq_some_iff.mp h
      obtain ⟨⟨us, last⟩, htrace, heq⟩ := Option.map_eq_some_iff.mp hrest
      cases heq
      rw [List.map_cons, ih htrace]

/-- Execute the labels and look at where they lead. -/
theorem exists_run_of_view {β : Type} {ls : List ℓ} {view : List (Transition σ ℓ) × σ → β} {b : β}
    (h : (M.trace s ls).map view = some b) : ∃ ts s', M.Run s ts s' ∧ view (ts, s') = b := by
  obtain ⟨⟨ts, s'⟩, htrace, hview⟩ := Option.map_eq_some_iff.mp h
  exact ⟨ts, s', run_of_trace htrace, hview⟩

/-- The last transition of a nonempty execution is a step of the machine. -/
theorem Run.snoc_inv {t : Transition σ ℓ} (r : M.Run s₀ (ts ++ [t]) s) :
    M.Run s₀ ts t.before ∧ M.next t.before t.label = some t.after ∧ s = t.after := by
  generalize hus : ts ++ [t] = us at r
  cases r with
  | nil => simp at hus
  | snoc hrun hstep =>
      obtain ⟨rfl, ht⟩ := List.append_inj' hus rfl
      cases ht
      exact ⟨hrun, hstep, rfl⟩

/-- Cut an execution at any position. -/
theorem Run.split {us vs : List (Transition σ ℓ)} (r : M.Run s₀ (us ++ vs) s) :
    ∃ mid, M.Run s₀ us mid ∧ M.Run mid vs s := by
  induction vs using List.reverseRecOn generalizing s with
  | nil => exact ⟨s, by simpa using r, Run.nil⟩
  | append_singleton vs t ih =>
      rw [← List.append_assoc] at r
      obtain ⟨hrun, hstep, rfl⟩ := r.snoc_inv
      obtain ⟨mid, hus, hvs⟩ := ih hrun
      exact ⟨mid, hus, hvs.snoc hstep⟩

/-- Every recorded transition is a step. -/
theorem Run.next_of_mem (r : M.Run s₀ ts s) {t : Transition σ ℓ} (ht : t ∈ ts) :
    M.next t.before t.label = some t.after := by
  induction r with
  | nil => cases ht
  | snoc _ hnext ih =>
      rcases List.mem_append.mp ht with ht | ht
      · exact ih ht
      · rw [List.mem_singleton.mp ht]
        exact hnext

/-! ## Invariants -/

/-- The invariant rule over histories, for runs whose steps all meet `C`. -/
theorem Run.history_invariant {I : List (Transition σ ℓ) → σ → Prop}
    {C : List (Transition σ ℓ) → Transition σ ℓ → Prop} (r : M.Run s₀ ts s)
    (h₀ : I [] s₀)
    (hstep : ∀ us s l s', M.Run s₀ us s → I us s → C us ⟨s, l, s'⟩ → M.next s l = some s' →
      I (us ++ [⟨s, l, s'⟩]) s')
    (hC : ∀ us t, us ++ [t] <+: ts → C us t) : I ts s := by
  induction r with
  | nil => exact h₀
  | snoc hrun hnext ih =>
      refine hstep _ _ _ _ hrun (ih fun us t hus => hC us t ?_) (hC _ _ (List.prefix_rfl)) hnext
      exact hus.trans (List.prefix_append _ _)

/-- The invariant rule over states, for runs whose steps all meet `C`. -/
theorem Run.invariant_where {I : σ → Prop} {C : Transition σ ℓ → Prop} (r : M.Run s₀ ts s)
    (h₀ : I s₀)
    (hstep : ∀ s l s', I s → C ⟨s, l, s'⟩ → M.next s l = some s' → I s')
    (hC : ∀ t ∈ ts, C t) : I s := by
  refine r.history_invariant (I := fun _ s => I s) (C := fun _ t => C t) h₀ ?_ ?_
  · intro us s l s' _ hI hc hnext
    exact hstep s l s' hI hc hnext
  · intro us t hus
    exact hC t (hus.subset (by simp))

theorem Run.invariant {I : σ → Prop} (r : M.Run s₀ ts s) (h₀ : I s₀)
    (hstep : ∀ s l s', I s → M.next s l = some s' → I s') : I s :=
  r.invariant_where (C := fun _ => True) h₀ (fun s l s' hI _ hnext => hstep s l s' hI hnext)
    (fun _ _ => trivial)

/-! ## Exact step conditions -/

def endState (s₀ : σ) (ts : List (Transition σ ℓ)) : σ :=
  (ts.getLast?.map Transition.after).getD s₀

@[simp] theorem endState_nil : endState s₀ ([] : List (Transition σ ℓ)) = s₀ := rfl

@[simp] theorem endState_snoc (t : Transition σ ℓ) : endState s₀ (ts ++ [t]) = t.after := by
  simp [endState]

theorem Run.endState_eq (r : M.Run s₀ ts s) : endState s₀ ts = s := by
  cases r <;> simp

/-- `P` holds of every history passed through, at the state it ends in. -/
def Throughout (P : List (Transition σ ℓ) → σ → Prop) (s₀ : σ)
    (ts : List (Transition σ ℓ)) : Prop :=
  ∀ us, us <+: ts → P us (endState s₀ us)

/-- Every executed step meets `C` under the history before it. -/
def EachStep (C : List (Transition σ ℓ) → Transition σ ℓ → Prop)
    (ts : List (Transition σ ℓ)) : Prop :=
  ∀ us t, us ++ [t] <+: ts → C us t

/-- The same by positions, where it can be evaluated. -/
theorem eachStep_iff_getElem {C : List (Transition σ ℓ) → Transition σ ℓ → Prop} :
    EachStep C ts ↔ ∀ i, ∀ h : i < ts.length, C (ts.take i) ts[i] := by
  constructor
  · intro hC i h
    refine hC _ _ ?_
    rw [List.take_concat_get' ts i h]
    exact List.take_prefix _ _
  · rintro hC us t ⟨vs, rfl⟩
    have hi : us.length < (us ++ [t] ++ vs).length := by simp
    simpa using hC us.length hi

instance {C : List (Transition σ ℓ) → Transition σ ℓ → Prop}
    [∀ us t, Decidable (C us t)] : Decidable (EachStep C ts) :=
  decidable_of_iff _ eachStep_iff_getElem.symm

theorem snoc_isPrefix_snoc {us : List (Transition σ ℓ)} {t t' : Transition σ ℓ} :
    us ++ [t] <+: ts ++ [t'] ↔ (us = ts ∧ t = t') ∨ us ++ [t] <+: ts := by
  rw [List.prefix_concat_iff]
  constructor
  · rintro (h | h)
    · exact Or.inl (by simpa using List.append_inj' h rfl)
    · exact Or.inr h
  · rintro (⟨rfl, rfl⟩ | h)
    · exact Or.inl rfl
    · exact Or.inr h

theorem eachStep_snoc {C : List (Transition σ ℓ) → Transition σ ℓ → Prop} {t : Transition σ ℓ} :
    EachStep C (ts ++ [t]) ↔ EachStep C ts ∧ C ts t := by
  constructor
  · intro h
    exact ⟨fun us u hus => h us u (hus.trans (List.prefix_append _ _)), h ts t List.prefix_rfl⟩
  · intro ⟨hearlier, hlast⟩ us u hus
    rcases snoc_isPrefix_snoc.mp hus with ⟨rfl, rfl⟩ | hus
    · exact hlast
    · exact hearlier us u hus

/-- A step condition that is exact at each step is exact for whole runs. -/
theorem Run.throughout_iff {P : List (Transition σ ℓ) → σ → Prop}
    {C : List (Transition σ ℓ) → Transition σ ℓ → Prop} (r : M.Run s₀ ts s) (h₀ : P [] s₀)
    (hstep : ∀ us s l s', M.Run s₀ us s → P us s → M.next s l = some s' →
      (P (us ++ [⟨s, l, s'⟩]) s' ↔ C us ⟨s, l, s'⟩)) :
    Throughout P s₀ ts ↔ EachStep C ts := by
  induction r with
  | nil =>
      constructor
      · intro _ us t hus
        simp at hus
      · intro _ us hus
        have hnil : us = [] := by simpa using hus
        subst hnil
        exact h₀
  | @snoc ts s s' l hrun hnext ih =>
      constructor
      · intro hP us t hus
        rcases snoc_isPrefix_snoc.mp hus with ⟨rfl, rfl⟩ | hus
        · have hbefore : P us s := by
            simpa [hrun.endState_eq] using hP us (List.prefix_append _ _)
          exact (hstep us s l s' hrun hbefore hnext).mp (by simpa using hP _ List.prefix_rfl)
        · exact ih.mp (fun vs hvs => hP vs (hvs.trans (List.prefix_append _ _))) us t hus
      · intro hC us hus
        have hprior : Throughout P s₀ ts :=
          ih.mpr fun vs t hvs => hC vs t (hvs.trans (List.prefix_append _ _))
        rcases List.prefix_concat_iff.mp hus with rfl | hus
        · have hbefore : P ts s := by
            simpa [hrun.endState_eq] using hprior ts List.prefix_rfl
          simpa using (hstep ts s l s' hrun hbefore hnext).mpr (hC _ _ List.prefix_rfl)
        · exact hprior us hus

/-- The same for a law of single steps. -/
theorem Run.forall_mem_iff {P : Transition σ ℓ → Prop}
    {C : List (Transition σ ℓ) → Transition σ ℓ → Prop} (r : M.Run s₀ ts s)
    (hstep : ∀ us s l s', M.Run s₀ us s → (∀ t ∈ us, P t) → M.next s l = some s' →
      (P ⟨s, l, s'⟩ ↔ C us ⟨s, l, s'⟩)) :
    (∀ t ∈ ts, P t) ↔ EachStep C ts := by
  rw [← r.throughout_iff (P := fun us _ => ∀ t ∈ us, P t) (by simp) ?_]
  · exact ⟨fun h us hus t ht => h t (hus.subset ht), fun h => h ts List.prefix_rfl⟩
  · intro us s l s' hrun h hnext
    rw [← hstep us s l s' hrun h hnext]
    exact ⟨fun hP => hP _ (by simp), fun hP t ht => (List.mem_append.mp ht).elim (h t)
      fun ht => List.mem_singleton.mp ht ▸ hP⟩

theorem Run.throughout_end {P : List (Transition σ ℓ) → σ → Prop} (r : M.Run s₀ ts s)
    (h : Throughout P s₀ ts) : P ts s := by
  simpa [r.endState_eq] using h ts List.prefix_rfl

/-! ## Infinite sequences of labels -/

/-- The state after the first `n` labels; a label that is not enabled changes nothing. -/
def along (M : Machine σ ℓ) (s₀ : σ) (ls : ℕ → ℓ) : ℕ → σ
  | 0 => s₀
  | n + 1 => (M.next (M.along s₀ ls n) (ls n)).getD (M.along s₀ ls n)

variable {ls : ℕ → ℓ}

theorem along_succ {n : ℕ} (h : M.next (M.along s₀ ls n) (ls n) = some s) :
    M.along s₀ ls (n + 1) = s := by
  rw [along, h]
  rfl

theorem along_succ_of_none {n : ℕ} (h : M.next (M.along s₀ ls n) (ls n) = none) :
    M.along s₀ ls (n + 1) = M.along s₀ ls n := by
  rw [along, h]
  rfl

theorem along_invariant {I : σ → Prop} (h₀ : I s₀)
    (hstep : ∀ s l s', I s → M.next s l = some s' → I s') (n : ℕ) : I (M.along s₀ ls n) := by
  induction n with
  | zero => exact h₀
  | succ n ih =>
      cases h : M.next (M.along s₀ ls n) (ls n) with
      | none => rwa [along_succ_of_none h]
      | some s => rw [along_succ h]; exact hstep _ _ _ ih h

/-- The ranking rule: where every step lowers the rank, but a step of a kind may raise it
again by less than `c`, the steps of that kind bound the length of an execution. -/
theorem rank_along {rank : σ → ℕ} {c : ℕ} {P : σ → ℓ → Prop} [∀ s l, Decidable (P s l)]
    (hstep : ∀ s l s', M.next s l = some s' → rank s' + 1 ≤ rank s + if P s l then c else 0)
    {n : ℕ} (henabled : ∀ k < n, (M.next (M.along s₀ ls k) (ls k)).isSome) :
    rank (M.along s₀ ls n) + n ≤
      rank s₀ + c * Nat.count (fun k => P (M.along s₀ ls k) (ls k)) n := by
  induction n with
  | zero => simp [along]
  | succ n ih =>
      obtain ⟨s', hnext⟩ := Option.isSome_iff_exists.mp (henabled n n.lt_succ_self)
      have hbefore := ih fun k hk => henabled k (Nat.lt_succ_of_lt hk)
      have hlast := hstep _ _ _ hnext
      rw [along_succ hnext, Nat.count_succ, Nat.mul_add]
      by_cases hP : P (M.along s₀ ls n) (ls n)
      · simp only [if_pos hP] at hlast ⊢
        omega
      · simp only [if_neg hP] at hlast ⊢
        omega

end Machine

/-! ## A state that lists its parties -/

/-- After one party has moved, a party is the one that did or is as it was. -/
theorem getElem?_set_cases {α : Type*} {l : List α} {i k : ℕ} {a b : α}
    (h : (l.set k a)[i]? = some b) : (i = k ∧ b = a) ∨ (i ≠ k ∧ l[i]? = some b) := by
  by_cases hik : i = k
  · subst hik
    have hi : i < l.length := by
      simpa using (List.getElem?_eq_some_iff.mp h).1
    rw [List.getElem?_set_self hi] at h
    cases h
    exact Or.inl ⟨rfl, rfl⟩
  · rw [List.getElem?_set_ne (Ne.symm hik)] at h
    exact Or.inr ⟨hik, h⟩

end FacialCamera.Core
