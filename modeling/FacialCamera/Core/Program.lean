import Mathlib.Data.List.Basic
import Mathlib.Logic.Relation

/-! # Programs over a signature of calls

A program issues one call at a time and continues with the answer. The same text
is executed in five ways: to its end (`run`), one call at a time between the
calls of other threads (`advance`), up to its next suspension point (`segment`),
with a failure injected before any one of its calls (`visits` lists the states
such a failure leaves behind), and with what a call that raises leaves behind
(`runLeaving`). In all others a call that raises changes nothing.
-/

namespace FacialCamera.Core

/-- `fault` is an exception that the program does not catch. -/
inductive Program (Call : Type) (Answer : Call → Type) (α : Type) : Type where
  | done (a : α)
  | fault
  | call (c : Call) (k : Answer c → Program Call Answer α)

/-- The meaning of one call: its answer and the next state, or `none` where it raises. -/
abbrev Interp (Call : Type) (Answer : Call → Type) (σ : Type) : Type :=
  (c : Call) → σ → Option (Answer c × σ)

namespace Program

variable {Call : Type} {Answer : Call → Type} {α β σ : Type}

def bind : Program Call Answer α → (α → Program Call Answer β) → Program Call Answer β
  | done a, f => f a
  | fault, _ => fault
  | call c k, f => call c fun r => (k r).bind f

instance : Monad (Program Call Answer) where
  pure := done
  bind := bind

@[simp] def perform (c : Call) : Program Call Answer (Answer c) := call c done

@[simp] theorem pure_eq_done (a : α) : (pure a : Program Call Answer α) = done a := rfl

@[simp] theorem done_bind (a : α) (f : α → Program Call Answer β) : (done a >>= f) = f a := rfl

@[simp] theorem fault_bind (f : α → Program Call Answer β) :
    ((fault : Program Call Answer α) >>= f) = fault := rfl

@[simp] theorem call_bind (c : Call) (k : Answer c → Program Call Answer α)
    (f : α → Program Call Answer β) : (call c k >>= f) = call c fun r => k r >>= f := rfl

theorem bind_assoc {γ : Type} (p : Program Call Answer α) (f : α → Program Call Answer β)
    (g : β → Program Call Answer γ) : (p >>= f) >>= g = p >>= fun a => f a >>= g := by
  induction p with
  | done a => rfl
  | fault => rfl
  | call c k ih =>
      simp only [call_bind]
      exact congrArg (call c) (funext ih)

def forget (p : Program Call Answer α) : Program Call Answer Unit := p >>= fun _ => done ()

/-! ## Execution to the end -/

/-- The result (`none` after an exception) and the state reached. -/
def run (I : Interp Call Answer σ) : Program Call Answer α → σ → Option α × σ
  | done a, s => (some a, s)
  | fault, s => (none, s)
  | call c k, s =>
      match I c s with
      | none => (none, s)
      | some (r, s') => (k r).run I s'

variable {I : Interp Call Answer σ} {s s' : σ}

@[simp] theorem run_done (a : α) : (done a : Program Call Answer α).run I s = (some a, s) := rfl

@[simp] theorem run_fault : (fault : Program Call Answer α).run I s = (none, s) := rfl

theorem run_call (c : Call) (k : Answer c → Program Call Answer α) :
    (call c k).run I s =
      match I c s with
      | none => (none, s)
      | some (r, s') => (k r).run I s' := by
  cases h : I c s <;> simp [run, h]

theorem run_bind (p : Program Call Answer α) (f : α → Program Call Answer β) (s : σ) :
    (p >>= f).run I s =
      match p.run I s with
      | (some a, s') => (f a).run I s'
      | (none, s') => (none, s') := by
  induction p generalizing s with
  | done a => rfl
  | fault => rfl
  | call c k ih =>
      simp only [call_bind, run_call]
      cases I c s with
      | none => rfl
      | some out => exact ih out.1 out.2

theorem run_map (p : Program Call Answer α) (f : α → β) (s : σ) :
    ((p >>= fun a => done (f a)).run I s).2 = (p.run I s).2 := by
  rw [run_bind]
  cases p.run I s with
  | mk result s' => cases result <;> rfl

theorem run_forget (p : Program Call Answer α) (s : σ) :
    (p.forget.run I s).2 = (p.run I s).2 := p.run_map (fun _ => ()) s

/-! ## Which calls a program may issue -/

/-- Every call the program can issue satisfies `P`. -/
def Calls (P : Call → Prop) : Program Call Answer α → Prop
  | done _ => True
  | fault => True
  | call c k => P c ∧ ∀ r, (k r).Calls P

@[simp] theorem calls_done {P : Call → Prop} (a : α) :
    (done a : Program Call Answer α).Calls P := trivial

@[simp] theorem calls_fault {P : Call → Prop} : (fault : Program Call Answer α).Calls P := trivial

@[simp] theorem calls_call {P : Call → Prop} {c : Call} {k : Answer c → Program Call Answer α} :
    (call c k).Calls P ↔ P c ∧ ∀ r, (k r).Calls P := Iff.rfl

theorem Calls.bind {P : Call → Prop} {p : Program Call Answer α}
    {f : α → Program Call Answer β} (hp : p.Calls P) (hf : ∀ a, (f a).Calls P) :
    (p >>= f).Calls P := by
  induction p with
  | done a => exact hf a
  | fault => trivial
  | call c k ih => exact ⟨hp.1, fun r => ih r (hp.2 r)⟩

theorem Calls.imp {P Q : Call → Prop} {p : Program Call Answer α} (hp : p.Calls P)
    (h : ∀ c, P c → Q c) : p.Calls Q := by
  induction p with
  | done a => trivial
  | fault => trivial
  | call c k ih => exact ⟨h c hp.1, fun r => ih r (hp.2 r)⟩

theorem calls_true (p : Program Call Answer α) : p.Calls fun _ => True := by
  induction p with
  | done a => trivial
  | fault => trivial
  | call c k ih => exact ⟨trivial, ih⟩

/-- What each allowed call keeps, the whole program keeps. -/
theorem Calls.run_rel {P : Call → Prop} {R : σ → σ → Prop} (hrefl : ∀ s, R s s)
    (htrans : ∀ a b c, R a b → R b c → R a c)
    (hcall : ∀ c s r s', P c → I c s = some (r, s') → R s s')
    {p : Program Call Answer α} (hp : p.Calls P) (s : σ) : R s (p.run I s).2 := by
  induction p generalizing s with
  | done a => exact hrefl s
  | fault => exact hrefl s
  | call c k ih =>
      rw [run_call]
      cases h : I c s with
      | none => exact hrefl s
      | some out =>
          exact htrans _ _ _ (hcall c s out.1 out.2 hp.1 h) (ih out.1 (hp.2 out.1) out.2)

/-- The frame rule: a part of the state that no allowed call writes is unchanged. -/
theorem Calls.run_frame {γ : Type} {P : Call → Prop} (view : σ → γ)
    (hcall : ∀ c s r s', P c → I c s = some (r, s') → view s' = view s)
    {p : Program Call Answer α} (hp : p.Calls P) (s : σ) : view (p.run I s).2 = view s :=
  hp.run_rel (R := fun a b => view b = view a) (fun _ => rfl)
    (fun _ _ _ hab hbc => hbc.trans hab) hcall s

/-! ## What a program may return -/

/-- Every value the program can return satisfies `P`, whatever it is answered. -/
def Returns (P : α → Prop) : Program Call Answer α → Prop
  | done a => P a
  | fault => True
  | call _ k => ∀ r, (k r).Returns P

@[simp] theorem returns_done {P : α → Prop} {a : α} :
    (done a : Program Call Answer α).Returns P ↔ P a := Iff.rfl

@[simp] theorem returns_fault {P : α → Prop} : (fault : Program Call Answer α).Returns P := trivial

@[simp] theorem returns_call {P : α → Prop} {c : Call} {k : Answer c → Program Call Answer α} :
    (call c k).Returns P ↔ ∀ r, (k r).Returns P := Iff.rfl

theorem Returns.bind {P : α → Prop} {Q : β → Prop} {p : Program Call Answer α}
    {f : α → Program Call Answer β} (hp : p.Returns P) (hf : ∀ a, P a → (f a).Returns Q) :
    (p >>= f).Returns Q := by
  induction p with
  | done a => exact hf a hp
  | fault => trivial
  | call c k ih => exact fun r => ih r (hp r)

theorem returns_true (p : Program Call Answer α) : p.Returns fun _ => True := by
  induction p with
  | done a => trivial
  | fault => trivial
  | call c k ih => exact ih

theorem Returns.run {P : α → Prop} {p : Program Call Answer α} (hp : p.Returns P) {s : σ} {a : α}
    (h : (p.run I s).1 = some a) : P a := by
  induction p generalizing s with
  | done b =>
      cases h
      exact hp
  | fault => cases h
  | call c k ih =>
      rw [run_call] at h
      cases hcall : I c s with
      | none =>
          rw [hcall] at h
          cases h
      | some out =>
          rw [hcall] at h
          exact ih out.1 (hp out.1) h

/-! ## Interrupted executions -/

/-- The calls issued, each with the state it is issued in. -/
def visits (I : Interp Call Answer σ) : Program Call Answer α → σ → List (Call × σ)
  | done _, _ => []
  | fault, _ => []
  | call c k, s =>
      (c, s) ::
        match I c s with
        | none => []
        | some (r, s') => (k r).visits I s'

@[simp] theorem visits_done (a : α) : (done a : Program Call Answer α).visits I s = [] := rfl

@[simp] theorem visits_fault : (fault : Program Call Answer α).visits I s = [] := rfl

/-- A result that is worked on further adds no call. -/
theorem visits_map (p : Program Call Answer α) (f : α → β) (s : σ) :
    (p >>= fun a => done (f a)).visits I s = p.visits I s := by
  induction p generalizing s with
  | done a => rfl
  | fault => rfl
  | call c k ih =>
      simp only [call_bind, visits]
      cases I c s with
      | none => rfl
      | some out => exact congrArg _ (ih out.1 out.2)

/-- The counting rule: a measure that grows by one with each call of a kind counts them. -/
theorem visits_countP {P : Call → Bool} {f : σ → Nat}
    (hcall : ∀ c s r s', I c s = some (r, s') → f s' = f s + (P c).toNat)
    (hraise : ∀ c s, I c s = none → P c = false) (p : Program Call Answer α) (s : σ) :
    f (p.run I s).2 = f s + (p.visits I s).countP fun v => P v.1 := by
  induction p generalizing s with
  | done a => rfl
  | fault => rfl
  | call c k ih =>
      rw [run_call, visits, List.countP_cons]
      cases h : I c s with
      | none => simp [hraise c s h]
      | some out =>
          have hstep := hcall c s out.1 out.2 h
          have hrest := ih out.1 out.2
          cases hc : P c <;> simp only [hc, Bool.toNat_false, Bool.toNat_true] at hstep <;>
            simp only [hrest, hstep, if_true, Bool.false_eq_true, if_false] <;> omega

/-- Run with an exception injected into call number `n`, which then changes nothing. -/
def runRaising (I : Interp Call Answer σ) : Nat → Program Call Answer α → σ → Option α × σ
  | _, done a, s => (some a, s)
  | _, fault, s => (none, s)
  | 0, call _ _, s => (none, s)
  | n + 1, call c k, s =>
      match I c s with
      | none => (none, s)
      | some (r, s') => (k r).runRaising I n s'

/-- The injected exception leaves the state that its call was issued in. -/
theorem runRaising_eq {p : Program Call Answer α} {n : Nat} {c : Call}
    (h : (p.visits I s)[n]? = some (c, s')) : p.runRaising I n s = (none, s') := by
  induction p generalizing n s with
  | done a => simp at h
  | fault => simp at h
  | call d k ih =>
      cases n with
      | zero =>
          obtain ⟨_, rfl⟩ : d = c ∧ s = s' := by simpa [visits] using h
          rfl
      | succ n =>
          cases hd : I d s with
          | none => simp [visits, hd] at h
          | some out =>
              simp only [runRaising, hd]
              exact ih out.1 (by simpa [visits, hd] using h)

/-- The frame rule for interrupted executions. -/
theorem Calls.runRaising_frame {γ : Type} {P : Call → Prop} (view : σ → γ)
    (hcall : ∀ c s r s', P c → I c s = some (r, s') → view s' = view s)
    {p : Program Call Answer α} (hp : p.Calls P) (n : Nat) (s : σ) :
    view (p.runRaising I n s).2 = view s := by
  induction p generalizing n s with
  | done a => cases n <;> rfl
  | fault => cases n <;> rfl
  | call c k ih =>
      cases n with
      | zero => rfl
      | succ n =>
          rw [runRaising]
          cases h : I c s with
          | none => rfl
          | some out =>
              exact (ih out.1 (hp.2 out.1) n out.2).trans (hcall c s out.1 out.2 hp.1 h)

/-- Only allowed calls are issued. -/
theorem Calls.of_mem_visits {P : Call → Prop} {p : Program Call Answer α} (hp : p.Calls P)
    {v : Call × σ} (hv : v ∈ p.visits I s) : P v.1 := by
  induction p generalizing s with
  | done a => cases hv
  | fault => cases hv
  | call c k ih =>
      rw [visits] at hv
      rcases List.mem_cons.mp hv with rfl | hv
      · exact hp.1
      · cases h : I c s with
        | none => simp [h] at hv
        | some out => exact ih out.1 (hp.2 out.1) (by simpa [h] using hv)

/-! ## Calls that leave something behind -/

/-- The execution where a call that raises may still change the state. -/
def runLeaving (I : Interp Call Answer σ) (leave : Call → σ → σ) :
    Program Call Answer α → σ → Option α × σ
  | done a, s => (some a, s)
  | fault, s => (none, s)
  | call c k, s =>
      match I c s with
      | none => (none, leave c s)
      | some (r, s') => (k r).runLeaving I leave s'

section Leaving

theorem runLeaving_rel (leave : Call → σ → σ) {R : σ → σ → Prop} (hrefl : ∀ s, R s s)
    (htrans : ∀ a b c, R a b → R b c → R a c) (hcall : ∀ c s r s', I c s = some (r, s') → R s s')
    (hraise : ∀ c s, I c s = none → R s (leave c s)) (p : Program Call Answer α) (s : σ) :
    R s (p.runLeaving I leave s).2 := by
  induction p generalizing s with
  | done a => exact hrefl s
  | fault => exact hrefl s
  | call c k ih =>
      rw [runLeaving]
      cases h : I c s with
      | none => exact hraise c s h
      | some out => exact htrans _ _ _ (hcall c s out.1 out.2 h) (ih out.1 out.2)

variable {leave : Call → σ → σ} {τ : Type} {J : Interp Call Answer τ} {view : σ → τ}
  {Free : σ → Prop}

/-- Where the calls are those of a smaller state, so is the execution. -/
theorem runLeaving_view
    (hcall : ∀ c s, Free s → J c (view s) = (I c s).map fun out => (out.1, view out.2))
    (hfree : ∀ c s r s', Free s → I c s = some (r, s') → Free s')
    (hraise : ∀ c s, Free s → I c s = none → view (leave c s) = view s)
    (p : Program Call Answer α) {s : σ} (hs : Free s) :
    view (p.runLeaving I leave s).2 = (p.run J (view s)).2 := by
  induction p generalizing s with
  | done a => rfl
  | fault => rfl
  | call c k ih =>
      rw [runLeaving, run_call, hcall c s hs]
      cases h : I c s with
      | none => exact hraise c s hs h
      | some out => exact ih out.1 (hfree c s out.1 out.2 hs h)

theorem visits_view
    (hcall : ∀ c s, Free s → J c (view s) = (I c s).map fun out => (out.1, view out.2))
    (hfree : ∀ c s r s', Free s → I c s = some (r, s') → Free s')
    (p : Program Call Answer α) {s : σ} (hs : Free s) :
    (p.visits I s).map (fun v => (v.1, view v.2)) = p.visits J (view s) := by
  induction p generalizing s with
  | done a => rfl
  | fault => rfl
  | call c k ih =>
      rw [visits, visits, List.map_cons, hcall c s hs]
      cases h : I c s with
      | none => rfl
      | some out => exact congrArg _ (ih out.1 (hfree c s out.1 out.2 hs h))

end Leaving

/-! ## Calls that commit -/

def commits (I : Interp Call Answer σ) (P : Call → Bool) : Program Call Answer α → σ → List σ
  | done _, _ => []
  | fault, _ => []
  | call c k, s =>
      match I c s with
      | none => []
      | some (r, s') =>
          if P c then s' :: (k r).commits I P s' else (k r).commits I P s'

@[simp] theorem commits_done {P : Call → Bool} (a : α) :
    (done a : Program Call Answer α).commits I P s = [] := rfl

@[simp] theorem commits_fault {P : Call → Bool} :
    (fault : Program Call Answer α).commits I P s = [] := rfl

theorem commits_bind {P : Call → Bool} (p : Program Call Answer α)
    (f : α → Program Call Answer β) (s : σ) :
    (p >>= f).commits I P s = p.commits I P s ++
      match p.run I s with
      | (some a, s') => (f a).commits I P s'
      | (none, _) => [] := by
  induction p generalizing s with
  | done a => rfl
  | fault => rfl
  | call c k ih =>
      simp only [call_bind, commits, run_call]
      cases I c s with
      | none => rfl
      | some out =>
          cases P c
          · exact ih out.1 out.2
          · exact congrArg _ (ih out.1 out.2)

theorem commits_forget {P : Call → Bool} (p : Program Call Answer α) (s : σ) :
    p.forget.commits I P s = p.commits I P s := by
  rw [forget, commits_bind]
  cases p.run I s with
  | mk result s' => cases result <;> simp

theorem Calls.commits_eq_nil {P : Call → Bool} {p : Program Call Answer α}
    (hp : p.Calls fun c => P c = false) (s : σ) : p.commits I P s = [] := by
  induction p generalizing s with
  | done a => rfl
  | fault => rfl
  | call c k ih =>
      have hc : P c = false := hp.1
      simp only [commits, hc]
      cases I c s with
      | none => rfl
      | some out => exact ih out.1 (hp.2 out.1) out.2

/-- The rule for interruptions: where only calls of a kind change the view, a call is
issued in the view that the calls of that kind before it have left. -/
theorem visits_commits {γ : Type} {P : Call → Bool} (view : σ → γ)
    (hkeep : ∀ c s r s', P c = false → I c s = some (r, s') → view s' = view s)
    {p : Program Call Answer α} {n : Nat} {c : Call}
    (h : (p.visits I s)[n]? = some (c, s')) :
    ((s :: p.commits I P s).map view)[((p.visits I s).take n).countP fun v => P v.1]? =
      some (view s') := by
  induction p generalizing n s with
  | done a => simp at h
  | fault => simp at h
  | call d k ih =>
      cases n with
      | zero =>
          obtain ⟨_, rfl⟩ : d = c ∧ s = s' := by simpa [visits] using h
          rfl
      | succ n =>
          cases hd : I d s with
          | none => simp [visits, hd] at h
          | some out =>
              have hrest := ih out.1 (s := out.2) (by simpa [visits, hd] using h)
              simp only [visits, commits, hd, List.take_succ_cons, List.countP_cons]
              cases hP : P d with
              | true => simpa using hrest
              | false =>
                  have hview := hkeep d s out.1 out.2 hP hd
                  simpa [hview] using hrest

/-! ## One call at a time -/

/-- Execute the next call; `none` where the program has ended. -/
def advance (I : Interp Call Answer σ) :
    Program Call Answer α → σ → Option (Program Call Answer α × σ)
  | done _, _ => none
  | fault, _ => none
  | call c k, s =>
      match I c s with
      | none => some (fault, s)
      | some (r, s') => some (k r, s')

/-- A step of a thread executes the call at the head of its program. -/
theorem advance_spec {p q : Program Call Answer α} (h : p.advance I s = some (q, s')) :
    ∃ c k, p = call c k ∧
      ((I c s = none ∧ q = fault ∧ s' = s) ∨ ∃ r, I c s = some (r, s') ∧ q = k r) := by
  cases p with
  | done a => cases h
  | fault => cases h
  | call c k =>
      refine ⟨c, k, rfl, ?_⟩
      cases hc : I c s with
      | none =>
          simp only [advance, hc, Option.some.injEq, Prod.mk.injEq] at h
          exact Or.inl ⟨rfl, h.1.symm, h.2.symm⟩
      | some out =>
          simp only [advance, hc, Option.some.injEq, Prod.mk.injEq] at h
          obtain ⟨rfl, rfl⟩ := h
          exact Or.inr ⟨out.1, rfl, rfl⟩

/-! ## Suspension points -/

/-- A segment ends with the program or before a call it suspends at. -/
inductive Segment (Call : Type) (Answer : Call → Type) (α σ : Type) : Type where
  | ended (result : Option α) (s : σ)
  | suspended (rest : Program Call Answer α) (s : σ)

/-- Run up to the next call that `pauses`, or to the end. -/
def segment (I : Interp Call Answer σ) (pauses : Call → Bool) :
    Program Call Answer α → σ → Segment Call Answer α σ
  | done a, s => .ended (some a) s
  | fault, s => .ended none s
  | call c k, s =>
      if pauses c then .suspended (call c k) s
      else
        match I c s with
        | none => .ended none s
        | some (r, s') => (k r).segment I pauses s'

/-- Leave the suspension point at the head of the program and run on. -/
def resume (I : Interp Call Answer σ) (pauses : Call → Bool) :
    Program Call Answer α → σ → Segment Call Answer α σ
  | done a, s => .ended (some a) s
  | fault, s => .ended none s
  | call c k, s =>
      match I c s with
      | none => .ended none s
      | some (r, s') => (k r).segment I pauses s'

/-- A part without a suspension point runs to its end inside a segment. -/
theorem segment_bind {pauses : Call → Bool} {p : Program Call Answer α}
    (hp : p.Calls fun c => pauses c = false) (f : α → Program Call Answer β) (s : σ) :
    (p >>= f).segment I pauses s =
      match p.run I s with
      | (some a, s') => (f a).segment I pauses s'
      | (none, s') => .ended none s' := by
  induction p generalizing s with
  | done a => rfl
  | fault => rfl
  | call c k ih =>
      have hc : pauses c = false := hp.1
      simp only [call_bind, segment, hc, Bool.false_eq_true, if_false, run_call]
      cases I c s with
      | none => rfl
      | some out => exact ih out.1 (hp.2 out.1) out.2

/-- Without a suspension point a segment is the whole run. -/
theorem segment_eq_run {pauses : Call → Bool} {p : Program Call Answer α}
    (hp : p.Calls fun c => pauses c = false) (s : σ) :
    p.segment I pauses s = .ended (p.run I s).1 (p.run I s).2 := by
  induction p generalizing s with
  | done a => rfl
  | fault => rfl
  | call c k ih =>
      have hc : pauses c = false := hp.1
      simp only [segment, hc, Bool.false_eq_true, if_false, run_call]
      cases I c s with
      | none => rfl
      | some out => exact ih out.1 (hp.2 out.1) out.2

theorem Calls.forget {P : Call → Prop} {p : Program Call Answer α} (hp : p.Calls P) :
    p.forget.Calls P := hp.bind fun _ => trivial

theorem Calls.of_forget {P : Call → Prop} {p : Program Call Answer α} (hp : p.forget.Calls P) :
    p.Calls P := by
  induction p with
  | done a => trivial
  | fault => trivial
  | call c k ih => exact ⟨hp.1, fun r => ih r (hp.2 r)⟩

end Program

end FacialCamera.Core
