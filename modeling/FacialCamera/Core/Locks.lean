import FacialCamera.Core.Machine
import FacialCamera.Core.Threads
import Mathlib.Data.List.MinMax
import Mathlib.Logic.Hydra

/-! # Threads that share locks

A program takes and gives back locks between its other calls, any of which may raise. Where
every program takes its locks in the order of their ranks and gives back what it took, no lock
has two holders, a call is made under the locks it asks for, and the threads cannot block each
other for ever.
-/

namespace FacialCamera.Core

/-- A call of a program that shares the locks `L` with others. -/
inductive Op (L Call : Type) : Type where
  | acquire (l : L)
  | release (l : L)
  | call (c : Call)

@[reducible] def Op.Answer {L Call : Type} (Answer : Call → Type) : Op L Call → Type
  | .acquire _ => Unit
  | .release _ => Unit
  | .call c => Option (Answer c)

abbrev Locking (L Call : Type) (Answer : Call → Type) (α : Type) : Type :=
  Program (Op L Call) (Op.Answer Answer) α

variable {L Call C ι α β : Type} {Answer : Call → Type} {A : C → Type}

/-! ## Programs -/

namespace Program

/-- Each call carried out by a program over other calls. -/
def translate (f : (c : Call) → Program C A (Answer c)) :
    Program Call Answer α → Program C A α
  | done a => done a
  | fault => fault
  | call c k => f c >>= fun r => (k r).translate f

theorem bind_done (p : Program Call Answer α) : (p >>= done) = p := by
  induction p with
  | done a => rfl
  | fault => rfl
  | call c k ih => exact congrArg (call c) (funext ih)

section Translate

variable {f : (c : Call) → Program C A (Answer c)}

@[simp] theorem translate_call (c : Call) (k : Answer c → Program Call Answer α) :
    (call c k).translate f = f c >>= fun r => (k r).translate f := rfl

@[simp] theorem translate_bind (p : Program Call Answer α) (g : α → Program Call Answer β) :
    (p >>= g).translate f = p.translate f >>= fun a => (g a).translate f := by
  induction p with
  | done a => rfl
  | fault => rfl
  | call c k ih =>
      simp only [call_bind, translate_call, bind_assoc]
      exact congrArg (f c >>= ·) (funext ih)

end Translate

/-- `try` and `finally`: what is done last is done after an exception as well. -/
def ensuring (p : Program Call Answer α) (last : Program Call Answer Unit) :
    Program Call Answer α :=
  match p with
  | done a => last >>= fun _ => done a
  | fault => last >>= fun _ => fault
  | call c k => call c fun r => (k r).ensuring last

/-- `try` and `except Exception`, with nothing to do after an exception. -/
def recovering : Program Call Answer Unit → Program Call Answer Unit
  | done _ => done ()
  | fault => done ()
  | call c k => call c fun r => (k r).recovering

/-- One call, whose exception the program does not catch. -/
def attempt (c : Call) : Locking L Call Answer (Answer c) :=
  .call (.call c) fun
    | some r => .done r
    | none => .fault

def withLock (l : L) (p : Locking L Call Answer α) : Locking L Call Answer α :=
  .call (.acquire l) fun _ => p.ensuring (perform (Op.release l))

/-! ### With the locks left out -/

/-- The program with its locks left out, each call carried out by a program. -/
def unlocked (f : (c : Call) → Program C A (Answer c)) (p : Locking L Call Answer α) :
    Program C A α :=
  p.translate fun
    | .acquire _ => .done ()
    | .release _ => .done ()
    | .call c => f c >>= fun r => .done (some r)

section Unlocked

variable {f : (c : Call) → Program C A (Answer c)}

@[simp] theorem unlocked_done (a : α) :
    (done a : Locking L Call Answer α).unlocked f = .done a := rfl

@[simp] theorem unlocked_bind (p : Locking L Call Answer α) (g : α → Locking L Call Answer β) :
    (p >>= g).unlocked f = p.unlocked f >>= fun a => (g a).unlocked f :=
  translate_bind p g

@[simp] theorem unlocked_attempt (c : Call) :
    (attempt c : Locking L Call Answer (Answer c)).unlocked f = f c := by
  rw [unlocked, attempt, translate_call, bind_assoc]
  exact bind_done (f c)

theorem unlocked_ensuring (l : L) (p : Locking L Call Answer α) :
    (p.ensuring (perform (Op.release l))).unlocked f = p.unlocked f := by
  induction p with
  | done a => rfl
  | fault => rfl
  | call c k ih => exact congrArg (_ >>= ·) (funext ih)

@[simp] theorem unlocked_withLock (l : L) (p : Locking L Call Answer α) :
    (withLock l p).unlocked f = p.unlocked f :=
  unlocked_ensuring l p

/-- A program over the calls below, carried out one by one, is that program. -/
theorem unlocked_translate {g : (c : C) → Locking L Call Answer (A c)}
    (hg : ∀ c, (g c).unlocked f = perform c) (p : Program C A α) :
    (p.translate g).unlocked f = p := by
  induction p with
  | done a => rfl
  | fault => rfl
  | call c k ih =>
      rw [translate_call, unlocked_bind, hg]
      exact congrArg (call c) (funext ih)

end Unlocked

/-! ### The discipline of a program -/

/-- Holding these locks, newest first, the program takes only locks that rank above them, gives
back the newest one, makes a call only where `J` lets it, and leaves with the locks `left`. -/
def Nested (rank : L → Nat) (J : List L → Call → Prop) (left : List L) :
    Locking L Call Answer α → List L → Prop
  | .done _, held => held = left
  | .fault, held => held = left
  | .call (.acquire l) k, held =>
      (∀ h ∈ held, rank h < rank l) ∧ (k ()).Nested rank J left (l :: held)
  | .call (.release l) k, held => ∃ rest, held = l :: rest ∧ (k ()).Nested rank J left rest
  | .call (.call c) k, held => J held c ∧ ∀ r, (k r).Nested rank J left held

section Nested

variable {rank : L → Nat} {J : List L → Call → Prop} {left held : List L}

theorem Nested.bind {p : Locking L Call Answer α} {g : α → Locking L Call Answer β}
    (hp : p.Nested rank J left held) (hg : ∀ a, (g a).Nested rank J left left) :
    (p >>= g).Nested rank J left held := by
  induction p generalizing held with
  | done a =>
      cases hp
      exact hg a
  | fault => exact hp
  | call o k ih =>
      cases o with
      | acquire l => exact ⟨hp.1, ih () hp.2⟩
      | release l =>
          obtain ⟨rest, rfl, hrest⟩ := hp
          exact ⟨rest, rfl, ih () hrest⟩
      | call c => exact ⟨hp.1, fun r => ih r (hp.2 r)⟩

theorem Nested.ensuring {l : L} {p : Locking L Call Answer α}
    (hp : p.Nested rank J (l :: left) held) :
    (p.ensuring (perform (Op.release l))).Nested rank J left held := by
  induction p generalizing held with
  | done a => exact ⟨left, hp, rfl⟩
  | fault => exact ⟨left, hp, rfl⟩
  | call o k ih =>
      cases o with
      | acquire l' => exact ⟨hp.1, ih () hp.2⟩
      | release l' =>
          obtain ⟨rest, rfl, hrest⟩ := hp
          exact ⟨rest, rfl, ih () hrest⟩
      | call c => exact ⟨hp.1, fun r => ih r (hp.2 r)⟩

theorem Nested.recovering {p : Locking L Call Answer Unit} (hp : p.Nested rank J left held) :
    p.recovering.Nested rank J left held := by
  induction p generalizing held with
  | done a => exact hp
  | fault => exact hp
  | call o k ih =>
      cases o with
      | acquire l => exact ⟨hp.1, ih () hp.2⟩
      | release l =>
          obtain ⟨rest, rfl, hrest⟩ := hp
          exact ⟨rest, rfl, ih () hrest⟩
      | call c => exact ⟨hp.1, fun r => ih r (hp.2 r)⟩

theorem nested_withLock {l : L} {p : Locking L Call Answer α}
    (hrank : ∀ h ∈ held, rank h < rank l) (hp : p.Nested rank J (l :: held) (l :: held)) :
    (withLock l p).Nested rank J held held :=
  ⟨hrank, hp.ensuring⟩

theorem nested_attempt {c : Call} (hc : J held c) :
    (attempt c : Locking L Call Answer (Answer c)).Nested rank J held held :=
  ⟨hc, fun r => by cases r <;> rfl⟩

theorem nested_translate {P : C → Prop} {g : (c : C) → Locking L Call Answer (A c)}
    (hg : ∀ c, P c → (g c).Nested rank J held held) {p : Program C A α} (hp : p.Calls P) :
    (p.translate g).Nested rank J held held := by
  induction p with
  | done a => rfl
  | fault => rfl
  | call c k ih => exact (hg c hp.1).bind fun r => ih r (hp.2 r)

end Nested

end Program

/-! ## Threads -/

namespace Locks

/-- A thread with the locks it holds, newest first, and the rest of its program. -/
structure Worker (ι L Call : Type) (Answer : Call → Type) where
  who : ι
  held : List L
  rest : Locking L Call Answer Unit

def Taken (ws : List (Worker ι L Call Answer)) (l : L) : Prop := ∃ w ∈ ws, l ∈ w.held

instance [DecidableEq L] (ws : List (Worker ι L Call Answer)) : DecidablePred (Taken ws) :=
  fun l => inferInstanceAs (Decidable (∃ w ∈ ws, l ∈ w.held))

/-- The next step of a thread, with what its call answers or that it raises; none where the
thread has ended or waits for a lock. -/
def Worker.next (taken : L → Prop) [DecidablePred taken] [DecidableEq L]
    (answer : (c : Call) → Option (Answer c)) (w : Worker ι L Call Answer) :
    Option (Worker ι L Call Answer) :=
  match w.rest with
  | .done _ => none
  | .fault => none
  | .call (.acquire l) k =>
      if taken l then none else some { w with held := l :: w.held, rest := k () }
  | .call (.release l) k => some { w with held := w.held.erase l, rest := k () }
  | .call (.call c) k => some { w with rest := k (answer c) }

inductive Shift (ι Call : Type) (Answer : Call → Type) where
  | start (who : ι)
  | step (i : Nat) (answer : (c : Call) → Option (Answer c))

/-- Threads of these programs, any number of them, started and moved in any order. An ended
thread stays in its place. -/
def sharing [DecidableEq L] (program : ι → Locking L Call Answer Unit) :
    Machine (List (Worker ι L Call Answer)) (Shift ι Call Answer) where
  next ws
    | .start who => some (ws ++ [⟨who, [], program who⟩])
    | .step i answer => ws[i]?.bind fun w => (w.next (Taken ws) answer).map fun w' => ws.set i w'

/-- What the threads keep: each is nested, and no lock has two holders. -/
structure Orderly (rank : L → Nat) (J : List L → Call → Prop)
    (ws : List (Worker ι L Call Answer)) : Prop where
  nested : ∀ w ∈ ws, w.rest.Nested rank J [] w.held
  apart : ∀ (i j : Nat) (w v : Worker ι L Call Answer), ws[i]? = some w → ws[j]? = some v →
    i ≠ j → ∀ l ∈ w.held, l ∉ v.held

def Finished (ws : List (Worker ι L Call Answer)) : Prop :=
  ∀ w ∈ ws, w.rest.isEnded = true ∧ w.held = []

section Threads

variable {rank : L → Nat} {J : List L → Call → Prop} {ws ws' : List (Worker ι L Call Answer)}
  {w w' : Worker ι L Call Answer}

def Worker.calls (w : Worker ι L Call Answer) : Option Call :=
  match w.rest with
  | .call (.call c) _ => some c
  | _ => none

theorem guarded_of_calls {c : Call} (hw : w.rest.Nested rank J [] w.held)
    (hcalls : w.calls = some c) : J w.held c := by
  obtain ⟨who, held, rest⟩ := w
  rcases rest with a | _ | ⟨o, k⟩
  · cases hcalls
  · cases hcalls
  · cases o with
    | acquire l => cases hcalls
    | release l => cases hcalls
    | call c' =>
        cases hcalls
        exact hw.1

/-- Two threads at calls under one lock are one thread. -/
theorem Orderly.exclusive (h : Orderly rank J ws) {l : L} {i j : Nat}
    {v : Worker ι L Call Answer} {c d : Call} (hi : ws[i]? = some w) (hj : ws[j]? = some v)
    (hw : w.calls = some c) (hv : v.calls = some d) (hc : ∀ held, J held c → l ∈ held)
    (hd : ∀ held, J held d → l ∈ held) : i = j := by
  by_contra hij
  have hguarded := guarded_of_calls (h.nested w (List.mem_of_getElem? hi)) hw
  have hguarded' := guarded_of_calls (h.nested v (List.mem_of_getElem? hj)) hv
  exact h.apart i j w v hi hj hij l (hc _ hguarded) (hd _ hguarded')

theorem Orderly.held_of_ended (h : Orderly rank J ws) (hw : w ∈ ws)
    (hended : w.rest.isEnded = true) : w.held = [] := by
  have hnested := h.nested w hw
  cases hrest : w.rest with
  | done a =>
      rw [hrest] at hnested
      exact hnested
  | fault =>
      rw [hrest] at hnested
      exact hnested
  | call o k =>
      rw [hrest] at hended
      cases hended

def Worker.asks (w : Worker ι L Call Answer) : Option L :=
  match w.rest with
  | .call (.acquire l) _ => some l
  | _ => none

theorem rank_lt_of_asks {l : L} (hw : w.rest.Nested rank J [] w.held) (hasks : w.asks = some l) :
    ∀ h ∈ w.held, rank h < rank l := by
  obtain ⟨who, held, rest⟩ := w
  rcases rest with a | _ | ⟨o, k⟩
  · cases hasks
  · cases hasks
  · cases o with
    | acquire l' =>
        cases hasks
        exact hw.1
    | release l' => cases hasks
    | call c => cases hasks

theorem Orderly.start (h : Orderly rank J ws) (who : ι) {p : Locking L Call Answer Unit}
    (hp : p.Nested rank J [] []) : Orderly rank J (ws ++ [⟨who, [], p⟩]) := by
  have hold {i : Nat} {v : Worker ι L Call Answer} (hv : (ws ++ [⟨who, [], p⟩])[i]? = some v) :
      ws[i]? = some v ∨ v.held = [] := by
    rw [List.getElem?_append] at hv
    split at hv
    · exact Or.inl hv
    · refine Or.inr ?_
      have hlast := List.mem_of_getElem? hv
      rw [List.mem_singleton.mp hlast]
  constructor
  · intro w hw
    rcases List.mem_append.mp hw with hw | hw
    · exact h.nested w hw
    · rw [List.mem_singleton.mp hw]
      exact hp
  · intro i j w v hw hv hij l hl hlv
    rcases hold hw with hw | hnone
    · rcases hold hv with hv | hnone
      · exact h.apart i j w v hw hv hij l hl hlv
      · simp [hnone] at hlv
    · simp [hnone] at hl

/-! ### Steps -/

variable [DecidableEq L] {program : ι → Locking L Call Answer Unit}
  {answer : (c : Call) → Option (Answer c)}

/-- A nested thread goes on nested, and what it holds then it held before or nobody did. -/
theorem Worker.next_spec {taken : L → Prop} [DecidablePred taken]
    (hw : w.rest.Nested rank J [] w.held) (hnext : w.next taken answer = some w') :
    w'.rest.Nested rank J [] w'.held ∧ ∀ l ∈ w'.held, l ∈ w.held ∨ ¬ taken l := by
  obtain ⟨who, held, rest⟩ := w
  rcases rest with a | _ | ⟨o, k⟩
  · cases hnext
  · cases hnext
  · cases o with
    | acquire l =>
        simp only [next, Option.ite_none_left_eq_some, Option.some.injEq] at hnext
        obtain ⟨hfree, rfl⟩ := hnext
        refine ⟨hw.2, fun l' hl' => ?_⟩
        rcases List.mem_cons.mp hl' with rfl | hl'
        · exact Or.inr hfree
        · exact Or.inl hl'
    | release l =>
        obtain ⟨rest, hheld, hrest⟩ := hw
        cases hnext
        dsimp only at hheld ⊢
        subst hheld
        rw [List.erase_cons_head]
        exact ⟨hrest, fun l' hl' => Or.inl (List.mem_cons_of_mem _ hl')⟩
    | call c =>
        cases hnext
        exact ⟨hw.2 _, fun l' hl' => Or.inl hl'⟩

/-- A step is that of one thread, in its place. -/
theorem sharing_step {i : Nat} (hnext : (sharing program).next ws (.step i answer) = some ws') :
    ∃ w w', ws[i]? = some w ∧ w.next (Taken ws) answer = some w' ∧ ws' = ws.set i w' := by
  obtain ⟨w, hw, hmoved⟩ := Option.bind_eq_some_iff.mp hnext
  obtain ⟨w', hw', rfl⟩ := Option.map_eq_some_iff.mp hmoved
  exact ⟨w, w', hw, hw', rfl⟩

theorem Orderly.step {i : Nat} (h : Orderly rank J ws)
    (hnext : (sharing program).next ws (.step i answer) = some ws') : Orderly rank J ws' := by
  obtain ⟨w, w', hw, hmoved, rfl⟩ := sharing_step hnext
  have hmem := List.mem_of_getElem? hw
  obtain ⟨hnested, hheld⟩ := Worker.next_spec (h.nested w hmem) hmoved
  -- what the thread holds now, no other thread holds
  have hothers {j : Nat} {v : Worker ι L Call Answer} (hj : j ≠ i) (hv : ws[j]? = some v)
      (l : L) (hl : l ∈ w'.held) : l ∉ v.held := by
    rcases hheld l hl with hbefore | hfree
    · exact h.apart i j w v hw hv hj.symm l hbefore
    · exact fun hlv => hfree ⟨v, List.mem_of_getElem? hv, hlv⟩
  constructor
  · intro v hv
    rcases List.mem_or_eq_of_mem_set hv with hv | rfl
    · exact h.nested v hv
    · exact hnested
  · intro j k v u hv hu hjk l hl
    rcases getElem?_set_cases hv with ⟨rfl, rfl⟩ | ⟨hji, hbefore⟩
    · rcases getElem?_set_cases hu with ⟨rfl, _⟩ | ⟨hki, hbefore⟩
      · exact absurd rfl hjk
      · exact hothers hki hbefore l hl
    · rcases getElem?_set_cases hu with ⟨rfl, rfl⟩ | ⟨hki, hbefore'⟩
      · exact fun hlu => hothers hji hbefore l hlu hl
      · exact h.apart j k v u hbefore hbefore' hjk l hl

theorem orderly_of_sharing (hprogram : ∀ who, (program who).Nested rank J [] [])
    {ts : List (Transition (List (Worker ι L Call Answer)) (Shift ι Call Answer))}
    (hrun : (sharing program).Run [] ts ws) : Orderly rank J ws := by
  refine hrun.invariant (I := Orderly rank J) ?_ ?_
  · exact ⟨by simp, by simp⟩
  · intro ws l ws' h hnext
    cases l with
    | start who =>
        cases hnext
        exact h.start who (hprogram who)
    | step i answer => exact h.step hnext

/-! ### Waiting -/

/-- A thread that cannot move has ended or asks for a lock that is taken. -/
theorem asks_of_stuck {taken : L → Prop} [DecidablePred taken]
    (hstuck : w.next taken answer = none) (hleft : w.rest.isEnded = false) :
    ∃ l, w.asks = some l ∧ taken l := by
  obtain ⟨who, held, rest⟩ := w
  rcases rest with a | _ | ⟨o, k⟩
  · cases hleft
  · cases hleft
  · cases o with
    | acquire l =>
        refine ⟨l, rfl, ?_⟩
        by_contra hfree
        simp [Worker.next, hfree] at hstuck
    | release l => cases hstuck
    | call c => cases hstuck

/-- As long as a thread is left, one can move. The holder of a lock that a thread waits for asks
for a lock of a higher rank, so the one that asks for the highest is not kept waiting. -/
theorem Orderly.moves (h : Orderly rank J ws) (hleft : ∃ w ∈ ws, w.rest.isEnded = false)
    (program : ι → Locking L Call Answer Unit) :
    ∃ i ws' answer, (sharing program).next ws (.step i answer) = some ws' := by
  by_contra hnone
  have hstuck (w : Worker ι L Call Answer) (hw : w ∈ ws) (hleft : w.rest.isEnded = false) :
      ∃ l, w.asks = some l ∧ Taken ws l := by
    obtain ⟨i, hi⟩ := List.mem_iff_getElem?.mp hw
    refine @asks_of_stuck _ _ _ _ _ _ (fun _ => none) _ _ ?_ hleft
    by_contra hmoves
    obtain ⟨w', hw'⟩ := Option.ne_none_iff_exists'.mp hmoves
    exact hnone ⟨i, ws.set i w', fun _ => none, by simp [sharing, hi, hw']⟩
  have hasked (w : Worker ι L Call Answer) (hw : w ∈ ws) (hleft : w.rest.isEnded = false) :
      ∃ l ∈ ws.filterMap Worker.asks, w.asks = some l := by
    obtain ⟨l, hl, _⟩ := hstuck w hw hleft
    exact ⟨l, List.mem_filterMap.mpr ⟨w, hw, hl⟩, hl⟩
  obtain ⟨w, hw, hleft⟩ := hleft
  obtain ⟨l₀, hl₀, _⟩ := hasked w hw hleft
  cases hmax : (ws.filterMap Worker.asks).argmax rank with
  | none =>
      rw [List.argmax_eq_none.mp hmax] at hl₀
      cases hl₀
  | some l =>
      obtain ⟨v, hv, hasks⟩ := List.mem_filterMap.mp (List.argmax_mem hmax)
      have hvleft : v.rest.isEnded = false := by
        cases hrest : v.rest with
        | done a => simp [Worker.asks, hrest] at hasks
        | fault => simp [Worker.asks, hrest] at hasks
        | call o k => rfl
      obtain ⟨_, hsame, u, hu, hheld⟩ := hstuck v hv hvleft
      cases hasks.symm.trans hsame
      have huleft : u.rest.isEnded = false := by
        by_contra hended
        rw [h.held_of_ended hu (by simpa using hended)] at hheld
        cases hheld
      obtain ⟨l', hl', hlarger⟩ := hasked u hu huleft
      have hlt := rank_lt_of_asks (h.nested u hu) hlarger l hheld
      exact absurd (List.le_of_mem_argmax hl' hmax) (by omega)

/-! ### Coming to an end -/

def Moves (program : ι → Locking L Call Answer Unit) (ws ws' : List (Worker ι L Call Answer)) :
    Prop :=
  ∃ i answer, (sharing program).next ws (.step i answer) = some ws'

def Shrinks (w' w : Worker ι L Call Answer) : Prop :=
  ∃ o k r, w.rest = .call o k ∧ w'.rest = k r

theorem shrinks_of_next {taken : L → Prop} [DecidablePred taken]
    (hnext : w.next taken answer = some w') : Shrinks w' w := by
  obtain ⟨who, held, rest⟩ := w
  rcases rest with a | _ | ⟨o, k⟩
  · cases hnext
  · cases hnext
  · cases o with
    | acquire l =>
        simp only [Worker.next, Option.ite_none_left_eq_some, Option.some.injEq] at hnext
        obtain ⟨_, rfl⟩ := hnext
        exact ⟨_, k, (), rfl, rfl⟩
    | release l =>
        cases hnext
        exact ⟨_, k, (), rfl, rfl⟩
    | call c =>
        cases hnext
        exact ⟨_, k, answer c, rfl, rfl⟩

omit [DecidableEq L] in
theorem wellFounded_shrinks : WellFounded (@Shrinks L Call ι Answer) := by
  refine ⟨fun w => ?_⟩
  obtain ⟨who, held, rest⟩ := w
  induction rest generalizing who held with
  | done a => exact ⟨_, fun w' ⟨o, k, r, hrest, _⟩ => by cases hrest⟩
  | fault => exact ⟨_, fun w' ⟨o, k, r, hrest, _⟩ => by cases hrest⟩
  | call o k ih =>
      refine ⟨_, fun w' ⟨o', k', r, hrest, hsmaller⟩ => ?_⟩
      cases hrest
      obtain ⟨who', held', rest'⟩ := w'
      cases hsmaller
      exact ih r who' held'

theorem coe_set {σ : Type} {l : List σ} {i : Nat} (hi : i < l.length) (a : σ) :
    ((l.set i a : List σ) : Multiset σ) + {l[i]} = (l : Multiset σ) + {a} := by
  have hl : (l : Multiset σ) = l.take i + ({l[i]} + (l.drop (i + 1) : Multiset σ)) := by
    conv_lhs => rw [← List.take_append_drop i l, List.drop_eq_getElem_cons hi]
    rw [← Multiset.coe_add, ← Multiset.cons_coe, Multiset.singleton_add]
  have hset : ((l.set i a : List σ) : Multiset σ) =
      l.take i + ({a} + (l.drop (i + 1) : Multiset σ)) := by
    rw [List.set_eq_take_append_cons_drop, if_pos hi, ← Multiset.coe_add, ← Multiset.cons_coe,
      Multiset.singleton_add]
  rw [hl, hset]
  ac_rfl

/-- Threads cannot move for ever. -/
theorem wellFounded_moves (program : ι → Locking L Call Answer Unit) :
    WellFounded fun ws' ws => Moves program ws ws' := by
  have hwf : WellFounded (InvImage (Relation.CutExpand Shrinks)
      fun ws : List (Worker ι L Call Answer) => (ws : Multiset (Worker ι L Call Answer))) :=
    InvImage.wf _ wellFounded_shrinks.cutExpand
  refine Subrelation.wf ?_ hwf
  rintro ws' ws ⟨i, answer, hnext⟩
  obtain ⟨w, w', hw, hmoved, rfl⟩ := sharing_step hnext
  obtain ⟨hi, rfl⟩ := List.getElem?_eq_some_iff.mp hw
  refine ⟨{w'}, ws[i], ?_, ?_⟩
  · intro v hv
    rw [Multiset.mem_singleton.mp hv]
    exact shrinks_of_next hmoved
  · exact coe_set hi w'

/-- A schedule that goes on while a thread can move. -/
def Schedule (program : ι → Locking L Call Answer Unit)
    (f : ℕ → List (Worker ι L Call Answer)) : Prop :=
  ∀ n, Moves program (f n) (f (n + 1)) ∨ (¬ ∃ ws', Moves program (f n) ws') ∧ f (n + 1) = f n

theorem Orderly.drains (h : Orderly rank J ws) {f : ℕ → List (Worker ι L Call Answer)}
    (hf : Schedule program f) (hstart : f 0 = ws) :
    ∃ n, Finished (f n) := by
  induction ws using (wellFounded_moves program).induction generalizing f with
  | _ ws ih =>
    rcases hf 0 with hmoves | ⟨hstuck, _⟩
    · rw [hstart] at hmoves
      obtain ⟨i, answer', hnext⟩ := id hmoves
      obtain ⟨n, hn⟩ := ih _ hmoves (h.step hnext) (f := fun n => f (n + 1))
        (fun n => hf (n + 1)) rfl
      exact ⟨n + 1, hn⟩
    · refine ⟨0, ?_⟩
      rw [hstart] at hstuck ⊢
      have hended (w : Worker ι L Call Answer) (hw : w ∈ ws) : w.rest.isEnded = true := by
        by_contra hleft
        obtain ⟨i, ws', answer, hnext⟩ := h.moves ⟨w, hw, by simpa using hleft⟩ program
        exact hstuck ⟨ws', i, answer, hnext⟩
      exact fun w hw => ⟨hended w hw, h.held_of_ended hw (hended w hw)⟩

end Threads

end Locks

end FacialCamera.Core
