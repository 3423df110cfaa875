import FacialCamera.Screen.Finalizing

/-! # How long an enrollment lasts

The MacBook's flow polls until a deadline and then makes seven more requests. The door
camera's flow has no deadline: it tries an angle again as often as the Pi sees no face.
-/

namespace FacialCamera.Screen

open FacialCamera.Core Backend Enrollment
open Macbook (anglesToUpload)

/-! ## Sequences of turns -/

/-- Every wait takes at least its stated time. -/
def Patient (f₀ : Flow) (turns : ℕ → Turn) : Prop :=
  ∀ n, (flow.along f₀ turns n).since + (flow.along f₀ turns n).awaits.wait ≤ (turns n).clock

/-- The flow has ended, with success or failure, and another one can be started. -/
structure Finished (f : Flow) : Prop where
  ended : ∃ outcome, f.awaits = .ended outcome
  cleared : f.enrollingMemberId = none
  again : ∀ camera member clock, (enroll camera f.enrollingMemberId member clock).isSome

/-- How often the Pi has seen no face in the first `n` turns. -/
def refusals (f₀ : Flow) (turns : ℕ → Turn) (n : ℕ) : ℕ :=
  Nat.count (fun k => Refused (flow.along f₀ turns k) (turns k)) n

/-! ## The rank of a flow -/

/-- A bound on the turns that are left, if the Pi refuses nothing. -/
def Await.rank (since : ℕ) : Await → ℕ
  | .startMacbookCapture => 161
  | .pollPause deadline => 10 + 2 * ((deadline - since) / 800)
  | .pollMacbookCaptureStatus deadline => 9 + 2 * ((deadline + 800 - since) / 800)
  | .startMemberFaceEnrollment => 8
  | .download _ i => 1 + 2 * (3 - i)
  | .upload _ i _ => 2 * (3 - i)
  | .retryPause _ i => 2 + 2 * (3 - i)
  | .posePause _ i => 1 + 2 * (3 - i)
  | .piCameraCapture _ i => 2 * (3 - i)
  | .completePiEnrollment _ => 1
  | .ended _ => 0

def Flow.rank (f : Flow) : ℕ := f.awaits.rank f.since

section Loops

variable (f : Flow) (clock : ℕ)

theorem rank_pollLoop (deadline : ℕ) :
    (f.pollLoop clock deadline).rank = 0 ∨
      clock ≤ deadline ∧
        (f.pollLoop clock deadline).rank = 10 + 2 * ((deadline - clock) / 800) := by
  unfold Flow.pollLoop
  split
  · exact Or.inl rfl
  · next hclock => exact Or.inr ⟨not_lt.mp hclock, rfl⟩

theorem rank_afterPoll (status : Macbook.CaptureStatus) (deadline : ℕ) :
    (f.afterPoll clock status deadline).rank ≤ 8 ∨
      clock ≤ deadline ∧
        (f.afterPoll clock status deadline).rank = 10 + 2 * ((deadline - clock) / 800) := by
  unfold Flow.afterPoll
  dsimp only
  split
  · exact Or.inl (Nat.zero_le _)
  · split
    · exact Or.inl le_rfl
    · exact (rank_pollLoop _ clock deadline).imp_left fun hzero => hzero.trans_le (Nat.zero_le _)

theorem rank_uploadLoop (s : Uuid) (i : ℕ) :
    (f.uploadLoop clock s i).rank ≤ 1 + 2 * (3 - i) := by
  unfold Flow.uploadLoop
  split
  · exact le_rfl
  · exact Nat.le_add_right 1 _

theorem rank_poseLoop (s : Uuid) (i : ℕ) :
    (f.poseLoop clock s i).rank ≤ 1 + 2 * (3 - i) := by
  unfold Flow.poseLoop
  split
  · exact le_rfl
  · exact Nat.le_add_right 1 _

end Loops

theorem rank_throws (f : Flow) (clock : ℕ) (e : Thrown) : (f.throws clock e).rank = 0 := rfl

theorem rank_start {f : Flow} (t : Turn) (ha : f.awaits = .startMemberFaceEnrollment) :
    (f.resume t).rank ≤ 7 := by
  simp only [Flow.resume, ha]
  split
  · exact Nat.zero_le _
  · exact rank_uploadLoop _ _ _ 0
  · exact Nat.zero_le _
  · exact rank_poseLoop _ _ _ 0

theorem rank_startMacbookCapture {f : Flow} (t : Turn) (ha : f.awaits = .startMacbookCapture) :
    (f.resume t).rank ≤ 160 := by
  simp only [Flow.resume, ha]
  split
  · exact Nat.zero_le _
  · rcases rank_pollLoop f t.clock (t.clock + ENROLLMENT_TIMEOUT_MS) with hzero | ⟨_, hpoll⟩
    · rw [hzero]
      exact Nat.zero_le _
    · rw [hpoll, ENROLLMENT_TIMEOUT_MS]
      omega

theorem rank_pollMacbookCaptureStatus {f : Flow} (t : Turn) {deadline : ℕ}
    (ha : f.awaits = .pollMacbookCaptureStatus deadline) :
    (f.resume t).rank ≤ 8 ∨
      t.clock ≤ deadline ∧ (f.resume t).rank = 10 + 2 * ((deadline - t.clock) / 800) := by
  simp only [Flow.resume, ha]
  split
  · exact (rank_pollLoop f t.clock deadline).imp_left fun hzero => hzero.trans_le (Nat.zero_le _)
  · exact rank_afterPoll f t.clock t.status deadline

/-- A refusal costs the two turns to the next capture of the same angle. -/
theorem rank_piCameraCapture {f : Flow} (t : Turn) {s : Uuid} {i : Fin ANGLES.length}
    (ha : f.awaits = .piCameraCapture s i) :
    (f.resume t).rank + 1 ≤ 2 * (3 - i) + if Refused f t then 3 else 0 := by
  have hi : (i : ℕ) < 3 := i.isLt
  rcases resume_piCameraCapture t ha with ⟨e, hresume⟩ | ⟨hrefused, card, hresume⟩ |
    ⟨_, _, _, _, card, hresume⟩
  · rw [hresume, rank_throws]
    omega
  · have hafter : (f.resume t).rank = 2 + 2 * (3 - i) := by
      rw [hresume]
      rfl
    rw [hafter, if_pos hrefused]
    omega
  · have hafter := rank_poseLoop (f.tell card) t.clock s (i + 1)
    rw [hresume]
    omega

/-- Every step lowers the rank by one, but a refused capture raises it by two. -/
theorem rank_next {f f' : Flow} {t : Turn} (h : flow.next f t = some f') :
    f'.rank + 1 ≤ f.rank + if Refused f t then 3 else 0 := by
  obtain ⟨hawaits, hwait, rfl⟩ := next_eq_some h
  have hrank : f.rank = f.awaits.rank f.since := rfl
  cases ha : f.awaits with
  | ended outcome => exact absurd ha (hawaits outcome)
  | startMacbookCapture =>
      have hafter := rank_startMacbookCapture t ha
      rw [hrank, ha, Await.rank]
      omega
  | pollPause deadline =>
      rw [ha, Await.wait] at hwait
      have hafter : (f.resume t).rank = 9 + 2 * ((deadline + 800 - t.clock) / 800) := by
        simp only [Flow.resume, ha]
        rfl
      rw [hrank, ha, hafter, Await.rank]
      refine le_trans ?_ (Nat.le_add_right _ _)
      omega
  | pollMacbookCaptureStatus deadline =>
      have hsince : f.since ≤ t.clock := (Nat.le_add_right _ _).trans hwait
      rw [hrank, ha, Await.rank]
      refine le_trans ?_ (Nat.le_add_right _ _)
      rcases rank_pollMacbookCaptureStatus t ha with hsmall | ⟨hdeadline, hpoll⟩
      · omega
      · rw [hpoll]
        omega
  | startMemberFaceEnrollment =>
      have hafter := rank_start t ha
      rw [hrank, ha, Await.rank]
      omega
  | download s i =>
      have hi : (i : ℕ) < 3 := i.isLt
      have hafter : (f.resume t).rank ≤ 2 * (3 - i) := by
        simp only [Flow.resume, ha]
        split
        · exact Nat.zero_le _
        · exact le_rfl
      rw [hrank, ha, Await.rank]
      omega
  | upload s i jpeg =>
      have hi : (i : ℕ) < 3 := i.isLt
      have hafter : (f.resume t).rank ≤ 1 + 2 * (3 - (i + 1)) := by
        simp only [Flow.resume, ha]
        split
        · exact Nat.zero_le _
        · exact rank_uploadLoop _ _ _ _
      rw [hrank, ha, Await.rank]
      omega
  | posePause s i =>
      have hafter : (f.resume t).rank = 2 * (3 - i) := by
        simp only [Flow.resume, ha]
        rfl
      rw [hrank, ha, Await.rank]
      omega
  | piCameraCapture s i =>
      rw [hrank, ha, Await.rank]
      exact rank_piCameraCapture t ha
  | retryPause s i =>
      have hafter : (f.resume t).rank ≤ 1 + 2 * (3 - i) := by
        simp only [Flow.resume, ha]
        exact rank_poseLoop _ _ _ _
      rw [hrank, ha, Await.rank]
      omega
  | completePiEnrollment s =>
      have hafter : (f.resume t).rank = 0 := by
        simp only [Flow.resume, ha]
        split <;> rfl
      rw [hrank, ha, Await.rank]
      omega

/-! ## Whole sequences -/

theorem next_eq_resume {f : Flow} {t : Turn} (hawaits : ∀ outcome, f.awaits ≠ .ended outcome)
    (hwait : f.since + f.awaits.wait ≤ t.clock) : flow.next f t = some (f.resume t) := by
  simp only [flow]
  cases ha : f.awaits with
  | ended outcome => exact absurd ha (hawaits outcome)
  | _ => simp [← ha, hwait]

theorem next_ended {f : Flow} {t : Turn} {outcome : Outcome} (h : f.awaits = .ended outcome) :
    flow.next f t = none := by
  simp [flow, h]

def Cleared (f : Flow) : Prop := ∀ outcome, f.awaits = .ended outcome → f.enrollingMemberId = none

theorem cleared_enroll {camera : Camera} {enrollingMemberId : Option Uuid} {member : Member}
    {clock : ℕ} {f : Flow} (h : enroll camera enrollingMemberId member clock = some f) :
    Cleared f := by
  rcases enroll_cases h with ⟨rfl, rfl⟩ | ⟨rfl, rfl⟩ <;> simp [Cleared]

theorem rank_enroll {camera : Camera} {enrollingMemberId : Option Uuid} {member : Member}
    {clock : ℕ} {f : Flow} (h : enroll camera enrollingMemberId member clock = some f) :
    f.rank ≤ 161 := by
  rcases enroll_cases h with ⟨rfl, rfl⟩ | ⟨rfl, rfl⟩ <;> simp [Flow.rank, Await.rank]

theorem Cleared.finished {f : Flow} (h : Cleared f) {outcome : Outcome}
    (hended : f.awaits = .ended outcome) : Finished f := by
  have hnone := h outcome hended
  refine ⟨⟨outcome, hended⟩, hnone, fun camera member clock => ?_⟩
  cases camera <;> simp [enroll, handleEnrollFace, handlePiEnrollFace, hnone]

section Sequences

variable {f₀ : Flow} {turns : ℕ → Turn}

theorem cleared_along (h : Cleared f₀) (n : ℕ) : Cleared (flow.along f₀ turns n) :=
  Machine.along_invariant h (fun _ _ _ _ hnext => (continues_next hnext).cleared) n

/-- What has ended stays as it is. -/
theorem along_ended {n k : ℕ} {outcome : Outcome} (hk : n ≤ k)
    (h : (flow.along f₀ turns n).awaits = .ended outcome) :
    (flow.along f₀ turns k).awaits = .ended outcome := by
  induction k, hk using Nat.le_induction with
  | base => exact h
  | succ k _ ih => rwa [Machine.along_succ_of_none (next_ended ih)]

/-- Until it ends a flow has taken at most so many turns. -/
theorem turns_lt (hpatient : Patient f₀ turns) {n : ℕ}
    (h : ∀ outcome, (flow.along f₀ turns n).awaits ≠ .ended outcome) :
    n < f₀.rank + 3 * refusals f₀ turns n := by
  have henabled : ∀ k < n, (flow.next (flow.along f₀ turns k) (turns k)).isSome := by
    intro k hk
    have hawaits (outcome : Outcome) : (flow.along f₀ turns k).awaits ≠ .ended outcome :=
      fun hended => h outcome (along_ended hk.le hended)
    rw [next_eq_resume hawaits (hpatient k)]
    rfl
  have hrank : (flow.along f₀ turns n).rank + n ≤ f₀.rank + 3 * refusals f₀ turns n :=
    Machine.rank_along (fun _ _ _ => rank_next) henabled
  have hpositive : 0 < (flow.along f₀ turns n).rank := by
    rw [Flow.rank]
    cases ha : (flow.along f₀ turns n).awaits with
    | ended outcome => exact absurd ha (h outcome)
    | download s i | upload s i | posePause s i | piCameraCapture s i | retryPause s i =>
        have hi : (i : ℕ) < 3 := i.isLt
        rw [Await.rank]
        omega
    | _ => simp [Await.rank]
  omega

theorem finished_of_turns (hcleared : Cleared f₀) (hpatient : Patient f₀ turns) {n : ℕ}
    (hn : f₀.rank + 3 * refusals f₀ turns n ≤ n) : Finished (flow.along f₀ turns n) := by
  by_cases h : ∃ outcome, (flow.along f₀ turns n).awaits = .ended outcome
  · obtain ⟨outcome, hended⟩ := h
    exact (cleared_along hcleared n).finished hended
  · exact absurd (turns_lt hpatient fun outcome hended => h ⟨outcome, hended⟩) (not_lt.mpr hn)

/-- Refusals that stop are at most as many as the turns before they stop. -/
theorem refusals_le {N : ℕ}
    (h : ∀ n, N ≤ n → ¬ Refused (flow.along f₀ turns n) (turns n)) (n : ℕ) :
    refusals f₀ turns n ≤ N := by
  rcases Nat.le_total n N with hn | hn
  · exact (Nat.count_le _).trans hn
  · obtain ⟨k, rfl⟩ := Nat.exists_eq_add_of_le hn
    rw [refusals, Nat.count_add, Nat.count_iff_forall_not.mpr fun k _ => h _ (Nat.le_add_right N k)]
    exact Nat.count_le _

/-- The MacBook's flow is refused nothing. -/
theorem refusals_macbook (hcamera : f₀.camera = .macbook)
    (hbelongs : f₀.awaits.belongsTo .macbook = true) (n : ℕ) : refusals f₀ turns n = 0 := by
  refine Nat.count_iff_forall_not.mpr fun k _ hrefused => ?_
  have halong : (flow.along f₀ turns k).camera = .macbook ∧
      (flow.along f₀ turns k).awaits.belongsTo .macbook = true := by
    refine Machine.along_invariant (I := fun f : Flow => f.camera = .macbook ∧
      f.awaits.belongsTo .macbook = true) ⟨hcamera, hbelongs⟩ ?_ k
    rintro f t f' ⟨hmacbook, hbelongs⟩ hnext
    have hkept := belongs_next (hmacbook ▸ hbelongs) hnext
    have hcamera' : f'.camera = .macbook := (continues_next hnext).camera.trans hmacbook
    exact ⟨hcamera', hcamera' ▸ hkept⟩
  cases ha : (flow.along f₀ turns k).awaits with
  | piCameraCapture s i => simp [ha, Await.belongsTo] at halong
  | _ => simp [Refused, ha] at hrefused

end Sequences

/-- Turns that are three seconds apart wait for every timer. -/
theorem patient_of_clock {f₀ : Flow} {turns : ℕ → Turn}
    (h₀ : f₀.since + 3000 ≤ (turns 0).clock)
    (hturns : ∀ n, (turns n).clock + 3000 ≤ (turns (n + 1)).clock) : Patient f₀ turns := by
  have hsince (n : ℕ) : (flow.along f₀ turns n).since + 3000 ≤ (turns n).clock := by
    induction n with
    | zero => exact h₀
    | succ n ih =>
        cases hnext : flow.next (flow.along f₀ turns n) (turns n) with
        | none =>
            rw [Machine.along_succ_of_none hnext]
            exact ih.trans ((Nat.le_add_right _ _).trans (hturns n))
        | some f =>
            rw [Machine.along_succ hnext, (continues_next hnext).since]
            exact hturns n
  intro n
  have hwait : (flow.along f₀ turns n).awaits.wait ≤ 3000 := by
    cases (flow.along f₀ turns n).awaits <;> simp [Await.wait]
  exact (Nat.add_le_add_left hwait _).trans (hsince n)

/-- Whether a flow ends: exactly if the Pi does not go on for ever to see no face in the
captures of the door camera. It then ends within 161 turns and three more for each such
answer, which the MacBook's flow never gets. -/
theorem finished_iff_notRefusedForEver {camera : Camera} {enrollingMemberId : Option Uuid}
    {member : Member} {clock : ℕ} {f₀ : Flow} {turns : ℕ → Turn}
    (hstart : enroll camera enrollingMemberId member clock = some f₀)
    (hpatient : Patient f₀ turns) :
    ((∃ n, Finished (flow.along f₀ turns n)) ↔
        ∃ N, ∀ n, N ≤ n → ¬ Refused (flow.along f₀ turns n) (turns n)) ∧
      (∀ n, 161 + 3 * refusals f₀ turns n ≤ n → Finished (flow.along f₀ turns n)) ∧
      (camera = .macbook → Finished (flow.along f₀ turns 161)) := by
  have hcleared := cleared_enroll hstart
  have hrank := rank_enroll hstart
  have hbound (n : ℕ) (hn : 161 + 3 * refusals f₀ turns n ≤ n) :
      Finished (flow.along f₀ turns n) :=
    finished_of_turns hcleared hpatient ((Nat.add_le_add_right hrank _).trans hn)
  refine ⟨⟨?_, ?_⟩, hbound, ?_⟩
  · rintro ⟨N, hfinished⟩
    obtain ⟨outcome, hended⟩ := hfinished.ended
    refine ⟨N, fun n hn hrefused => ?_⟩
    simp [Refused, along_ended hn hended] at hrefused
  · rintro ⟨N, hN⟩
    refine ⟨161 + 3 * N, hbound _ ?_⟩
    exact Nat.add_le_add_left (Nat.mul_le_mul_left 3 (refusals_le hN _)) 161
  · rintro rfl
    obtain ⟨hcamera, hbelongs⟩ := belongs_enroll hstart
    exact hbound 161 (by rw [refusals_macbook hcamera hbelongs])

/-! ## A MacBook that falls silent and a Pi that never sees a face -/

def spaced (n : ℕ) (thrown : Option Thrown) (pi : Process) : Turn :=
  ⟨3000 * (n + 1), thrown, ⟨.idle, 0, "Ready", none⟩, [], fun _ => .noFace, some .noFace, pi, pi⟩

/-- The MacBook starts a capture, and no poll reaches it again. -/
def silentMacbook (n : ℕ) : Turn := spaced n (if n = 0 then none else some .other) memberAdded

theorem finished_silentMacbook : Finished (flow.along macbookStart silentMacbook 161) := by
  have hstart : enroll .macbook none resident 0 = some macbookStart := rfl
  have hpatient : Patient macbookStart silentMacbook := patient_of_clock le_rfl fun n => le_rfl
  exact (finished_iff_notRefusedForEver hstart hpatient).2.2 rfl

def piStart : Flow :=
  ⟨.pi, resident, .startMemberFaceEnrollment, 0, ⟨5, .startingEnrollment, 0⟩, some 0, none⟩

def refusedOnce : Process :=
  (Request.piCameraCapture 0 1 "front" (some .noFace)).perform sessionOpen

def emptyRoom (n : ℕ) : Turn :=
  spaced n none (if n = 0 then memberAdded else if n ≤ 2 then sessionOpen else refusedOnce)

def first : Fin ANGLES.length := ⟨0, by decide⟩

def AtFront (f : Flow) : Prop :=
  f.member = resident ∧
    f.awaits ∈ ([.posePause 1 first, .piCameraCapture 1 first, .retryPause 1 first] : List Await)

theorem admitted_emptyRoom (n : ℕ) : Admitted (emptyRoom (n + 1)).pi.db 0 1 := by
  have hopen : Admitted sessionOpen.db 0 1 := by decide +kernel
  have honce : Admitted refusedOnce.db 0 1 := by decide +kernel
  simp only [emptyRoom, spaced, Nat.add_one_ne_zero, if_false]
  split
  · exact hopen
  · exact honce

theorem atFront_resume {f : Flow} (h : AtFront f) (n : ℕ) :
    AtFront (f.resume (emptyRoom (n + 1))) := by
  obtain ⟨hmember, hawaits⟩ := h
  have hnever : ∀ outcome, f.awaits ≠ .ended outcome := by
    rintro outcome hended
    simp [hended] at hawaits
  refine ⟨(continues_resume f _ hnever).member.trans hmember, ?_⟩
  simp only [List.mem_cons, List.not_mem_nil, or_false] at hawaits
  rcases hawaits with ha | ha | ha
  · simp only [Flow.resume, ha]
    exact List.mem_cons_of_mem _ List.mem_cons_self
  · have hrefused : Refused f (emptyRoom (n + 1)) := by
      simp only [Refused, ha, hmember]
      exact ⟨rfl, admitted_emptyRoom n, rfl⟩
    obtain ⟨card, hresume⟩ := resume_refused ha hrefused
    rw [hresume]
    exact List.mem_cons_of_mem _ (List.mem_cons_of_mem _ List.mem_cons_self)
  · simp only [Flow.resume, ha]
    exact List.mem_cons_self

theorem not_always_finished :
    ¬ ∀ turns : ℕ → Turn, Patient piStart turns → ∃ n, Finished (flow.along piStart turns n) := by
  intro halways
  have hpatient : Patient piStart emptyRoom := patient_of_clock le_rfl fun n => le_rfl
  have hnever {f : Flow} (h : AtFront f) (outcome : Outcome) : f.awaits ≠ .ended outcome := by
    intro hended
    simp [AtFront, hended] at h
  have hfront (n : ℕ) : AtFront (flow.along piStart emptyRoom (n + 1)) := by
    induction n with
    | zero =>
        have hfirst : flow.along piStart emptyRoom 1 = piStart.resume (emptyRoom 0) := by
          apply Machine.along_succ
          exact next_eq_resume (by simp [Machine.along, piStart]) (hpatient 0)
        rw [hfirst]
        exact ⟨rfl, by decide +kernel⟩
    | succ n ih =>
        rw [Machine.along_succ (next_eq_resume (hnever ih) (hpatient (n + 1)))]
        exact atFront_resume ih n
  obtain ⟨n, hfinished⟩ := halways emptyRoom hpatient
  obtain ⟨outcome, hended⟩ := hfinished.ended
  exact hnever (hfront n) outcome (along_ended (Nat.le_succ n) hended)

end FacialCamera.Screen
