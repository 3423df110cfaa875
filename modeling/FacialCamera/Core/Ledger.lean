import FacialCamera.Core.Threads
import Mathlib.Algebra.Ring.Nat

/-! # Credit carried by threads

Some calls earn and some spend. A program is solvent with a credit if, whatever it is
answered, each of its calls is paid out of the credit and of what it has earned before.
Where the threads of a pool are solvent with what has been earned and not yet spent, no
order of their calls spends more than was earned, and a thread that ends or is dropped
leaves its credit behind.
-/

namespace FacialCamera.Core

variable {Call : Type} {Answer : Call → Type} {α β σ ι : Type}

namespace Program

/-- Every call is paid for, starting with this credit. -/
def Solvent (gain cost : Call → Nat) : Program Call Answer α → Nat → Prop
  | done _, _ => True
  | fault, _ => True
  | call c k, credit =>
      cost c ≤ credit ∧ ∀ r, (k r).Solvent gain cost (credit - cost c + gain c)

variable {gain cost : Call → Nat} {credit more : Nat}

@[simp] theorem solvent_done (a : α) :
    (done a : Program Call Answer α).Solvent gain cost credit := trivial

@[simp] theorem solvent_fault :
    (fault : Program Call Answer α).Solvent gain cost credit := trivial

@[simp] theorem solvent_call {c : Call} {k : Answer c → Program Call Answer α} :
    (call c k).Solvent gain cost credit ↔
      cost c ≤ credit ∧ ∀ r, (k r).Solvent gain cost (credit - cost c + gain c) := Iff.rfl

theorem Solvent.mono {p : Program Call Answer α} (h : p.Solvent gain cost credit)
    (hle : credit ≤ more) : p.Solvent gain cost more := by
  induction p generalizing credit more with
  | done a => trivial
  | fault => trivial
  | call c k ih => exact ⟨Nat.le_trans h.1 hle, fun r => ih r (h.2 r) (by omega)⟩

/-- What the first program leaves of its credit is not counted on. -/
theorem Solvent.bind {p : Program Call Answer α} {f : α → Program Call Answer β}
    (hp : p.Solvent gain cost credit) (hf : ∀ a, (f a).Solvent gain cost 0) :
    (p >>= f).Solvent gain cost credit := by
  induction p generalizing credit with
  | done a => exact (hf a).mono (Nat.zero_le credit)
  | fault => trivial
  | call c k ih => exact ⟨hp.1, fun r => ih r (hp.2 r)⟩

theorem Calls.solvent {p : Program Call Answer α} (hp : p.Calls fun c => cost c = 0) :
    p.Solvent gain cost credit := by
  induction p generalizing credit with
  | done a => trivial
  | fault => trivial
  | call c k ih =>
      have hcost : cost c = 0 := hp.1
      exact ⟨by omega, fun r => ih r (hp.2 r)⟩

end Program

namespace Pool

/-- The threads are solvent with credits that what was spent leaves of what was earned. -/
def Covered (gain cost : Call → Nat) (pool : Pool ι Call Answer σ) (earned spent : Nat) : Prop :=
  ∃ purses : List ((ι × Program Call Answer Unit) × Nat), purses.map Prod.fst = pool.threads ∧
    (∀ x ∈ purses, x.1.2.Solvent gain cost x.2) ∧ (purses.map Prod.snd).sum + spent ≤ earned

variable {I : Interp Call Answer σ} {gain cost : Call → Nat} {pool pool' : Pool ι Call Answer σ}
  {i earned spent : Nat}

theorem Covered.le (h : Covered gain cost pool earned spent) : spent ≤ earned := by
  obtain ⟨purses, _, _, hsum⟩ := h
  omega

theorem covered_nil (s : σ) (h : spent ≤ earned) :
    Covered gain cost (⟨s, []⟩ : Pool ι Call Answer σ) earned spent :=
  ⟨[], rfl, by simp, by simpa using h⟩

/-- The threads decide, not the state. -/
theorem Covered.shared (h : Covered gain cost pool earned spent)
    (hthreads : pool'.threads = pool.threads) : Covered gain cost pool' earned spent := by
  obtain ⟨purses, hfst, hsolvent, hsum⟩ := h
  exact ⟨purses, hfst.trans hthreads.symm, hsolvent, hsum⟩

/-- A new thread brings its credit along. -/
theorem Covered.spawn (h : Covered gain cost pool earned spent) {who : ι}
    {p : Program Call Answer Unit} {credit : Nat} (hp : p.Solvent gain cost credit) :
    Covered gain cost (pool.spawn who p) (earned + credit) spent := by
  obtain ⟨purses, hfst, hsolvent, hsum⟩ := h
  unfold Pool.spawn
  split
  · exact ⟨purses, hfst, hsolvent, by omega⟩
  · refine ⟨purses ++ [((who, p), credit)], by simp [hfst], fun x hx => ?_, ?_⟩
    · rcases List.mem_append.mp hx with hx | hx
      · exact hsolvent x hx
      · rw [List.mem_singleton.mp hx]
        exact hp
    · simp only [List.map_append, List.sum_append, List.map_cons, List.map_nil, List.sum_cons,
        List.sum_nil]
      omega

/-- The call that is executed is booked. -/
theorem Covered.step (h : Covered gain cost pool earned spent) {who : ι} {c : Call}
    {k : Answer c → Program Call Answer Unit} {q : Program Call Answer Unit}
    (spec : StepSpec I pool i pool' who c k q) :
    (pool'.shared = pool.shared ∧ Covered gain cost pool' earned spent) ∨
      ∃ r, I c pool.shared = some (r, pool'.shared) ∧
        Covered gain cost pool' (earned + gain c) (spent + cost c) := by
  obtain ⟨purses, hfst, hsolvent, hsum⟩ := h
  obtain ⟨before, after, hthreads, hthreads'⟩ := spec.split
  rw [hthreads] at hfst
  obtain ⟨left, rest, rfl, hleft, hrest⟩ := List.map_eq_append_iff.mp hfst
  obtain ⟨⟨mover, credit⟩, right, rfl, hmover, hright⟩ := List.map_eq_cons_iff.mp hrest
  cases hmover
  obtain ⟨hpaid, hgoes⟩ := hsolvent ((who, .call c k), credit) (by simp)
  simp only [List.map_append, List.map_cons, List.sum_append, List.sum_cons] at hsum
  -- the mover with its new credit, or nobody where its program has ended
  have hcover (n : Nat) (hq : q.Solvent gain cost n) {e s : Nat}
      (hle : (left.map Prod.snd).sum + (n + (right.map Prod.snd).sum) + s ≤ e) :
      Covered gain cost pool' e s := by
    cases hended : q.isEnded with
    | true =>
        refine ⟨left ++ right, by simp [hthreads', hended, hleft, hright], fun x hx => ?_, ?_⟩
        · exact hsolvent x (by simp at hx ⊢; tauto)
        · simp only [List.map_append, List.sum_append]
          omega
    | false =>
        refine ⟨left ++ ((who, q), n) :: right, by simp [hthreads', hended, hleft, hright],
          fun x hx => ?_, by simpa using hle⟩
        rcases List.mem_append.mp hx with hx | hx
        · exact hsolvent x (by simp [hx])
        · rcases List.mem_cons.mp hx with rfl | hx
          · exact hq
          · exact hsolvent x (by simp [hx])
  rcases spec.result with ⟨_, hfault, hsame⟩ | ⟨r, hanswer, hq⟩
  · exact Or.inl ⟨hsame, hcover 0 (hfault ▸ trivial) (by omega)⟩
  · exact Or.inr ⟨r, hanswer, hcover _ (hq ▸ hgoes r) (by omega)⟩

end Pool

end FacialCamera.Core
