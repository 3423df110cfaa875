import FacialCamera.Core.Threads

/-! # What a program has heard

A thread decides by the answers of the calls it has issued. A call is justified by
the answers before it, and in a pool of threads each of these answers was given by a
state that the pool has been in since the thread was started.
-/

namespace FacialCamera.Core

structure Answered (Call : Type) (Answer : Call → Type) where
  call : Call
  answer : Answer call

variable {Call : Type} {Answer : Call → Type} {α β σ ι : Type}

namespace Program

/-- Every call the program can issue is justified by the answers it has heard by then. -/
def Justified (J : List (Answered Call Answer) → Call → Prop) :
    Program Call Answer α → List (Answered Call Answer) → Prop
  | done _, _ => True
  | fault, _ => True
  | call c k, heard => J heard c ∧ ∀ r, (k r).Justified J (heard ++ [⟨c, r⟩])

variable {J : List (Answered Call Answer) → Call → Prop} {heard : List (Answered Call Answer)}

@[simp] theorem justified_done (a : α) :
    (done a : Program Call Answer α).Justified J heard := trivial

@[simp] theorem justified_fault : (fault : Program Call Answer α).Justified J heard := trivial

@[simp] theorem justified_call {c : Call} {k : Answer c → Program Call Answer α} :
    (call c k).Justified J heard ↔ J heard c ∧ ∀ r, (k r).Justified J (heard ++ [⟨c, r⟩]) :=
  Iff.rfl

theorem Justified.bind {p : Program Call Answer α} {f : α → Program Call Answer β}
    (hp : p.Justified J heard) (hf : ∀ a later, (f a).Justified J later) :
    (p >>= f).Justified J heard := by
  induction p generalizing heard with
  | done a => exact hf a heard
  | fault => trivial
  | call c k ih => exact ⟨hp.1, fun r => ih r (hp.2 r)⟩

/-- Calls that need no justification. -/
theorem Calls.justified {P : Call → Prop} {p : Program Call Answer α} (hp : p.Calls P)
    (hJ : ∀ c, P c → ∀ later, J later c) : p.Justified J heard := by
  induction p generalizing heard with
  | done a => trivial
  | fault => trivial
  | call c k ih => exact ⟨hJ c hp.1 heard, fun r => ih r (hp.2 r)⟩

end Program

namespace Pool

def Given (I : Interp Call Answer σ) (Past : σ → Prop) (a : Answered Call Answer) : Prop :=
  ∃ s s', Past s ∧ I a.call s = some (a.answer, s')

/-- Every thread goes on justified by answers of the states since it was started; a thread of
`who` may have been started before the states `Past` where `Since who Past`. -/
def Witnessed (I : Interp Call Answer σ) (J : ι → List (Answered Call Answer) → Call → Prop)
    (Since : ι → (σ → Prop) → Prop) (pool : Pool ι Call Answer σ) : Prop :=
  ∀ t ∈ pool.threads, ∃ Past heard, Since t.1 Past ∧ t.2.Justified (J t.1) heard ∧
    ∀ a ∈ heard, Given I Past a

/-- What began before some states began before these and the state `s`. -/
def Reaches (Since Since' : ι → (σ → Prop) → Prop) (s : σ) : Prop :=
  ∀ who Past, Since who Past → ∃ Later, Since' who Later ∧ Later s ∧ ∀ s, Past s → Later s

variable {I : Interp Call Answer σ} {J : ι → List (Answered Call Answer) → Call → Prop}
  {Past Later : σ → Prop} {Since Since' : ι → (σ → Prop) → Prop}
  {pool pool' : Pool ι Call Answer σ} {i : Nat}

theorem Given.mono {a : Answered Call Answer} (h : Given I Past a) (hle : ∀ s, Past s → Later s) :
    Given I Later a := by
  obtain ⟨s, s', hs, hanswer⟩ := h
  exact ⟨s, s', hle s hs, hanswer⟩

theorem Witnessed.later (h : Witnessed I J Since pool) {s : σ} (hreach : Reaches Since Since' s) :
    Witnessed I J Since' pool := by
  intro t ht
  obtain ⟨Past, heard, hsince, hjustified, hgiven⟩ := h t ht
  obtain ⟨Later, hlater, _, hle⟩ := hreach _ _ hsince
  exact ⟨Later, heard, hlater, hjustified, fun a ha => (hgiven a ha).mono hle⟩

/-- A new thread has heard nothing. -/
theorem Witnessed.spawn (h : Witnessed I J Since pool) {who : ι} {p : Program Call Answer Unit}
    (hsince : Since who Past) (hp : p.Justified (J who) []) :
    Witnessed I J Since (pool.spawn who p) := by
  intro t ht
  rcases mem_spawn.mp ht with ht | ⟨rfl, _⟩
  · exact h t ht
  · exact ⟨Past, [], hsince, hp, fun a ha => by cases ha⟩

/-- The thread that moves issues a justified call and hears the answer of the state it is
issued in. -/
theorem Witnessed.step (h : Witnessed I J Since pool) {who : ι} {c : Call}
    {k : Answer c → Program Call Answer Unit} {q : Program Call Answer Unit}
    (spec : StepSpec I pool i pool' who c k q) (hreach : Reaches Since Since' pool.shared) :
    Witnessed I J Since' pool' ∧ ∃ Past heard, Since who Past ∧ J who heard c ∧
      ∀ a ∈ heard, Given I Past a := by
  obtain ⟨Past, heard, hsince, hjustified, hgiven⟩ := h _ (spec.mem_before.mpr (Or.inl rfl))
  refine ⟨fun t ht => ?_, Past, heard, hsince, hjustified.1, hgiven⟩
  rcases spec.mem_after.mp ht with ⟨rfl, _⟩ | ht
  · obtain ⟨Later, hlater, hnow, hle⟩ := hreach _ _ hsince
    rcases spec.result with ⟨_, hfault, _⟩ | ⟨r, hanswer, hgoes⟩
    · exact ⟨Later, [], hlater, hfault ▸ trivial, fun a ha => by cases ha⟩
    · refine ⟨Later, heard ++ [⟨c, r⟩], hlater, hgoes ▸ hjustified.2 r, fun a ha => ?_⟩
      rcases List.mem_append.mp ha with ha | ha
      · exact (hgiven a ha).mono hle
      · rw [List.mem_singleton.mp ha]
        exact ⟨pool.shared, _, hnow, hanswer⟩
  · exact h.later hreach t (spec.mem_before.mpr (Or.inr ht))

end Pool

end FacialCamera.Core
