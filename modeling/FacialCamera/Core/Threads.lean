import FacialCamera.Core.Program

/-! # Threads over a shared state

A pool holds the programs in flight. Any of them may execute its next call at
any time, so a schedule is a list of positions; a thread leaves the pool when
its program has ended.
-/

namespace FacialCamera.Core

/-- Each thread carries the name `ι` of the actor that runs it. -/
structure Pool (ι Call : Type) (Answer : Call → Type) (σ : Type) where
  shared : σ
  threads : List (ι × Program Call Answer Unit)

namespace Program

variable {Call : Type} {Answer : Call → Type} {α : Type}

def isEnded : Program Call Answer α → Bool
  | done _ => true
  | fault => true
  | call _ _ => false

end Program

namespace Pool

variable {ι Call : Type} {Answer : Call → Type} {σ : Type}

def spawn (pool : Pool ι Call Answer σ) (who : ι) (p : Program Call Answer Unit) :
    Pool ι Call Answer σ :=
  if p.isEnded then pool else { pool with threads := pool.threads ++ [(who, p)] }

def others (pool : Pool ι Call Answer σ) (i : Nat) : List (ι × Program Call Answer Unit) :=
  pool.threads.eraseIdx i

def stepAt (I : Interp Call Answer σ) (pool : Pool ι Call Answer σ) (i : Nat) :
    Option (Pool ι Call Answer σ) :=
  match pool.threads[i]? with
  | none => none
  | some (who, p) =>
      match p.advance I pool.shared with
      | none => none
      | some (q, s) =>
          some ⟨s, if q.isEnded then pool.threads.eraseIdx i else pool.threads.set i (who, q)⟩

/-- What a step does: a call of one thread, whose answer or exception decides how
that thread goes on. -/
structure StepSpec (I : Interp Call Answer σ) (pool : Pool ι Call Answer σ) (i : Nat)
    (pool' : Pool ι Call Answer σ) (who : ι) (c : Call)
    (k : Answer c → Program Call Answer Unit) (q : Program Call Answer Unit) : Prop where
  thread : pool.threads[i]? = some (who, .call c k)
  result : (I c pool.shared = none ∧ q = .fault ∧ pool'.shared = pool.shared) ∨
    ∃ r, I c pool.shared = some (r, pool'.shared) ∧ q = k r
  threads : pool'.threads =
    if q.isEnded then pool.threads.eraseIdx i else pool.threads.set i (who, q)

variable {I : Interp Call Answer σ} {pool pool' : Pool ι Call Answer σ} {i : Nat}

theorem stepAt_spec (h : pool.stepAt I i = some pool') :
    ∃ who c k q, StepSpec I pool i pool' who c k q := by
  unfold stepAt at h
  cases ht : pool.threads[i]? with
  | none => simp [ht] at h
  | some t =>
      obtain ⟨who, p⟩ := t
      cases ha : p.advance I pool.shared with
      | none => simp [ht, ha] at h
      | some out =>
          obtain ⟨q, s⟩ := out
          simp only [ht, ha, Option.some.injEq] at h
          subst h
          obtain ⟨c, k, rfl, hres⟩ := Program.advance_spec ha
          exact ⟨who, c, k, q, ht, hres, rfl⟩

/-- After a step every thread is the one that moved or one that did not. -/
theorem StepSpec.mem_after {who : ι} {c : Call} {k : Answer c → Program Call Answer Unit}
    {q : Program Call Answer Unit} (h : StepSpec I pool i pool' who c k q)
    {t : ι × Program Call Answer Unit} :
    t ∈ pool'.threads ↔ (t = (who, q) ∧ q.isEnded = false) ∨ t ∈ pool.others i := by
  obtain ⟨hi, hget⟩ := List.getElem?_eq_some_iff.mp h.thread
  rw [h.threads, others]
  cases hq : q.isEnded with
  | true => simp
  | false =>
      simp only [Bool.false_eq_true, if_false, and_true]
      rw [List.set_eq_take_append_cons_drop, if_pos hi, List.eraseIdx_eq_take_drop_succ]
      simp only [List.mem_append, List.mem_cons]
      tauto

theorem StepSpec.mem_before {who : ι} {c : Call} {k : Answer c → Program Call Answer Unit}
    {q : Program Call Answer Unit} (h : StepSpec I pool i pool' who c k q)
    {t : ι × Program Call Answer Unit} :
    t ∈ pool.threads ↔ t = (who, .call c k) ∨ t ∈ pool.others i := by
  obtain ⟨hi, hget⟩ := List.getElem?_eq_some_iff.mp h.thread
  rw [others, List.eraseIdx_eq_take_drop_succ]
  conv_lhs => rw [← List.take_append_drop i pool.threads, List.drop_eq_getElem_cons hi, hget]
  simp only [List.mem_append, List.mem_cons]
  tauto

/-- The thread that moved stays in its place or leaves it. -/
theorem StepSpec.split {who : ι} {c : Call} {k : Answer c → Program Call Answer Unit}
    {q : Program Call Answer Unit} (h : StepSpec I pool i pool' who c k q) :
    ∃ before after, pool.threads = before ++ (who, .call c k) :: after ∧
      pool'.threads = before ++ (if q.isEnded then [] else [(who, q)]) ++ after := by
  obtain ⟨hi, hget⟩ := List.getElem?_eq_some_iff.mp h.thread
  refine ⟨pool.threads.take i, pool.threads.drop (i + 1), ?_, ?_⟩
  · rw [← hget, List.getElem_cons_drop, List.take_append_drop]
  · rw [h.threads]
    cases q.isEnded with
    | true => simp [List.eraseIdx_eq_take_drop_succ]
    | false => simp [List.set_eq_take_append_cons_drop, if_pos hi]

theorem mem_spawn {who : ι} {p : Program Call Answer Unit}
    {t : ι × Program Call Answer Unit} :
    t ∈ (pool.spawn who p).threads ↔ t ∈ pool.threads ∨ (t = (who, p) ∧ p.isEnded = false) := by
  unfold spawn
  cases p.isEnded <;> simp

@[simp] theorem spawn_shared (who : ι) (p : Program Call Answer Unit) :
    (pool.spawn who p).shared = pool.shared := by
  unfold spawn
  split <;> rfl

end Pool

end FacialCamera.Core
