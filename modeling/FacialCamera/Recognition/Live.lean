import FacialCamera.Backend.Api
import FacialCamera.Core.Machine
import FacialCamera.Enrollment.Calls
import FacialCamera.Enrollment.Requests
import FacialCamera.Recognition.Pipelines

/-! # Everything that happens to a running process

All routes, the motion callback and the relock timers over one process, each
executed without interruption. What an event does to the log and to the unlock
commands is said once: nothing, a manual entry, or a recognition run.
-/

namespace FacialCamera.Recognition

open FacialCamera.Core Backend Door

inductive Event where
  | wait (clock : ℚ)
  | request (a : ApiRequest) (seen : Surroundings)
  | motion (sight : Sight)
  | fire (i : Nat)

namespace Event

def program : Event → Proc Unit
  | .wait _ => .done ()
  | .request a seen => (a.handler seen).forget
  | .motion sight => onMotionDetected sight
  | .fire _ => doRelock

/-- The process that the program of an event starts in; `none` where the event cannot
happen. The clock of a run never goes back. -/
def ready (b : Process) : Event → Option Process
  | .wait clock => if b.clock ≤ clock then some { b with clock } else none
  | .fire i =>
      if b.relock.Due b.clock i then some { b with relock := b.relock.fire i } else none
  | _ => some b

def recognition : Event → Option (Pipeline × Sight)
  | .request .doorbell seen => some (.doorbell, seen.sight)
  | .motion sight => some (.motion, sight)
  | _ => none

end Event

/-- Every sequence of events under a clock that never goes back. -/
def live : Machine Process Event where
  next b e := (e.ready b).map fun b => (e.program.run exec b).2

/-- The calls that a transition issues, each with the state it is issued in. -/
def issued (t : Transition Process Event) : List (Call × Process) :=
  ((t.label.ready t.before).map fun b => t.label.program.visits exec b).getD []

/-! ## Quiet programs -/

/-- The call writes no log entry and commands no unlock. -/
def quiet : Call → Bool
  | .addLog _ _ _ _ => false
  | .servoUnlock => false
  | _ => true

/-- The call touches neither the log nor the door. -/
def apart : Call → Bool
  | .addLog _ _ _ _ | .servoLock | .servoUnlock | .setDoorLocked _ | .cancelRelockTimer
  | .startRelockTimer => false
  | _ => true

def entered (b : Process) : Call → Option LogRow
  | .addLog type name confidence snapshot =>
      some { id := b.db.logs.length + 1, type, name, timestamp := b.clock, confidence, snapshot }
  | _ => none

theorem exec_logs {c : Call} {b b' : Process} {r : Answer c} (h : exec c b = some (r, b')) :
    b'.db.logs = b.db.logs ++ (entered b c).toList := by
  cases c <;> simp only [exec, Option.map_eq_some_iff, Option.ite_none_right_eq_some,
    Option.some.injEq, Prod.mk.injEq] at h
  case createEnrollmentSession m =>
    obtain ⟨⟨row, db⟩, hdb, _, rfl⟩ := h
    simpa [entered] using (b.db.createEnrollmentSession_spec hdb).logs
  case storeFaceEncoding =>
    obtain ⟨db, hdb, _, rfl⟩ := h
    simpa [entered] using (b.db.storeFaceEncoding_spec hdb).logs
  case getLogs | getLogSnapshot =>
    obtain ⟨_, _, rfl⟩ := h
    exact (List.append_nil _).symm
  case markAlertRead =>
    obtain ⟨_, _, rfl⟩ := h
    exact (List.append_nil _).symm
  case claimMotion =>
    unfold Process.claimMotion at h
    split at h <;> cases h <;> exact (List.append_nil _).symm
  case addLog =>
    obtain ⟨_, rfl⟩ := h
    rfl
  all_goals (obtain ⟨_, rfl⟩ := h; exact (List.append_nil _).symm)

/-- What a quiet call leaves alone, its program leaves alone. -/
theorem quiet_run {α : Type} {p : Proc α} (hp : p.Calls fun c => quiet c = true) (b : Process) :
    (p.run exec b).2.db.logs = b.db.logs ∧ openingSpins (p.run exec b).2 = openingSpins b := by
  constructor
  · refine hp.run_frame (I := exec) (fun b => b.db.logs) (fun c b r b' hc h => ?_) b
    have hnone : entered b c = none := by cases c <;> first | rfl | cases hc
    rw [exec_logs h, hnone]
    exact List.append_nil _
  · refine hp.run_frame (I := exec) openingSpins (fun c b r b' hc h => ?_) b
    have hother : decide (c = .servoUnlock) = false := by cases c <;> first | rfl | cases hc
    rw [exec_openingSpins h, hother]
    rfl

/-! ## What an event does -/

inductive Happens (b : Process) : Event → Process → Prop where
  | wait {clock : ℚ} : b.clock ≤ clock → Happens b (.wait clock) { b with clock }
  | request (a : ApiRequest) (seen : Surroundings) :
      Happens b (.request a seen) ((a.handler seen).forget.run exec b).2
  | motion (sight : Sight) : Happens b (.motion sight) (Pipeline.motion.perform sight b)
  | fire {i : Nat} : b.relock.Due b.clock i → Happens b (.fire i) (b.fire i)

theorem happens_of_next {b b' : Process} {e : Event} (hnext : live.next b e = some b') :
    Happens b e b' := by
  obtain ⟨start, hready, rfl⟩ := Option.map_eq_some_iff.mp hnext
  cases e <;> simp only [Event.ready, Option.ite_none_right_eq_some, Option.some.injEq] at hready
  case wait clock =>
    obtain ⟨hclock, rfl⟩ := hready
    exact .wait hclock
  case fire i =>
    obtain ⟨hdue, rfl⟩ := hready
    exact .fire hdue
  case request a seen =>
    subst hready
    exact .request a seen
  case motion sight =>
    subst hready
    exact .motion sight

/-- Before its program runs an event changes the clock or a timer. -/
theorem ready_same {b start : Process} {e : Event} (hready : e.ready b = some start) :
    start.db = b.db ∧ start.servo = b.servo := by
  cases e <;> simp only [Event.ready, Option.ite_none_right_eq_some, Option.some.injEq] at hready
  case wait | fire =>
    obtain ⟨_, rfl⟩ := hready
    exact ⟨rfl, rfl⟩
  case request | motion =>
    subst hready
    exact ⟨rfl, rfl⟩

theorem perform_of_doorbell (seen : Surroundings) (b : Process) :
    ((ApiRequest.handler seen .doorbell).forget.run exec b).2 =
      Pipeline.doorbell.perform seen.sight b := by
  rw [Pipeline.perform, Pipeline.program, Program.run_forget, Program.run_forget]
  exact Program.run_map _ _ b

/-- The event of a recognition run is the run of its pipeline. -/
theorem after_of_recognition {b b' : Process} {e : Event} {p : Pipeline} {sight : Sight}
    (hnext : live.next b e = some b') (h : e.recognition = some (p, sight)) :
    b' = p.perform sight b := by
  cases happens_of_next hnext with
  | wait _ => cases h
  | fire _ => cases h
  | motion sight' =>
      cases h
      rfl
  | request a seen =>
      cases a with
      | doorbell =>
          cases h
          exact perform_of_doorbell seen b
      | _ => cases h

def manualEntry (b : Process) (name : String) : LogRow :=
  { id := b.db.logs.length + 1, type := .manualLock, name, timestamp := b.clock,
    confidence := none, snapshot := none }

inductive Logged (b b' : Process) : Event → Prop where
  | silent {e : Event} : b'.db.logs = b.db.logs → openingSpins b' = openingSpins b → Logged b b' e
  | locked {seen : Surroundings} : b'.db.logs = b.db.logs ++ [manualEntry b "Locked via app"] →
      openingSpins b' = openingSpins b → Logged b b' (.request .doorLock seen)
  | unlocked {seen : Surroundings} :
      b'.db.logs = b.db.logs ++ [manualEntry b "Unlocked via app"] →
      openingSpins b' = openingSpins b + 1 → Logged b b' (.request .doorUnlock seen)
  | recognized {e : Event} {p : Pipeline} {sight : Sight} : e.recognition = some (p, sight) →
      p.Runs b → b' = p.perform sight b → Logged b b' e

/-! ## The routes by what they do -/

def sets : ApiRequest → Flag → Option Bool
  | .setMotionSettings detection _, .motionDetectionEnabled => detection
  | .setMotionSettings _ alerts, .motionAlertsEnabled => alerts
  | .setAutolock enabled, .autoLockOnUnknown => some enabled
  | _, _ => none

def routine : Call → Bool
  | .addLog _ _ _ _ | .addAlert _ | .servoLock | .servoUnlock | .setDoorLocked _
  | .cancelRelockTimer | .startRelockTimer | .claimMotion | .writeFlag _ _ => false
  | _ => true

theorem routine_of_desk (c : Call) (hc : Enrollment.deskCall c = true) : routine c = true := by
  cases c <;> first | rfl | cases hc

theorem calls_deskRoute {P : Call → Prop} (hP : ∀ c, routine c = true → P c) {α : Type}
    {body : α → Body} {p : Proc (Reply α)} (r : Enrollment.Request)
    (hr : r.program = p.forget) : (reply body p).forget.Calls P := by
  have hcalls := Enrollment.calls_program (fun c hc => hP c (routine_of_desk c hc)) (r := r)
    (Or.inr (hP _ rfl))
  rw [hr] at hcalls
  exact Program.Calls.forget (hcalls.of_forget.bind fun _ => trivial)

/-- Beside the routine calls a route that neither commands the door nor rings the bell writes
the flags it sets. -/
theorem calls_request {P : Call → Prop} (hP : ∀ c, routine c = true → P c) (seen : Surroundings)
    {a : ApiRequest} (hsets : ∀ flag value, sets a flag = some value → P (.writeFlag flag value))
    (hlock : a ≠ .doorLock) (hunlock : a ≠ .doorUnlock) (hbell : a ≠ .doorbell) :
    (a.handler seen).forget.Calls P := by
  have hread (flag : Flag) : P (.readFlag flag) := hP _ rfl
  have hthreshold (threshold : ℚ) : P (.writeThreshold threshold) := hP _ rfl
  cases a with
  | doorLock => exact absurd rfl hlock
  | doorUnlock => exact absurd rfl hunlock
  | doorbell => exact absurd rfl hbell
  | addMember name role => exact calls_deskRoute hP (.addMember name role) rfl
  | removeMember m => exact calls_deskRoute hP (.removeMember m) rfl
  | startEnrollment m => exact calls_deskRoute hP (.startEnrollment m) rfl
  | pollEnrollment m s => exact calls_deskRoute hP (.pollEnrollment m s) rfl
  | uploadCapture m s angle image =>
      exact calls_deskRoute hP (.uploadCapture m s angle (seen.encode image)) rfl
  | completeEnrollment m s => exact calls_deskRoute hP (.completeEnrollment m s) rfl
  | cancelEnrollment m s => exact calls_deskRoute hP (.cancelEnrollment m s) rfl
  | uploadCaptureB64 m s body =>
      exact calls_deskRoute hP
        (.uploadCaptureB64 m s (body.map fun body => body.encoded seen.encode)) rfl
  | piCameraCapture m s angle =>
      exact calls_deskRoute hP (.piCameraCapture m s angle (seen.sight.frames 0)) rfl
  | removeFaceTemplate m => exact calls_deskRoute hP (.removeFaceTemplate m) rfl
  | setConfidence threshold =>
      rcases threshold with _ | threshold
      · trivial
      · by_cases hrange : 0 ≤ threshold ∧ threshold ≤ 1 <;>
          simp [ApiRequest.handler, reply, Backend.setConfidence, Program.forget, hrange,
            hthreshold]
  | setMotionSettings detection alerts =>
      have hdetection {value : Bool} (h : detection = some value) :=
        hsets .motionDetectionEnabled value h
      have halerts {value : Bool} (h : alerts = some value) := hsets .motionAlertsEnabled value h
      cases detection <;> cases alerts <;>
        simp [ApiRequest.handler, answer, Backend.setMotionSettings, Program.forget, hread,
          hdetection, halerts]
  | setAutolock enabled =>
      exact ⟨hsets .autoLockOnUnknown enabled rfl, fun _ => ⟨hP _ rfl, fun _ => trivial⟩⟩
  | debugMotion =>
      cases hsensor : seen.sensor <;>
        simp [ApiRequest.handler, answer, Backend.debugMotion, Program.forget, hsensor, hread]
  | getLogSnapshot logId =>
      refine ⟨hP _ rfl, fun snapshot => ?_⟩
      rcases snapshot with _ | ⟨_ | ⟨byte, rest⟩⟩ <;> trivial
  | cameraStream => trivial
  | getMotionSettings => exact ⟨hP _ rfl, fun _ => ⟨hP _ rfl, fun _ => trivial⟩⟩
  | _ => exact ⟨hP _ rfl, fun _ => trivial⟩

/-- Three routes command the door or write the log. -/
theorem apart_request (seen : Surroundings) {a : ApiRequest} (hlock : a ≠ .doorLock)
    (hunlock : a ≠ .doorUnlock) (hbell : a ≠ .doorbell) :
    (a.handler seen).forget.Calls fun c => apart c = true := by
  refine calls_request (fun c hc => ?_) seen (fun _ _ _ => rfl) hlock hunlock hbell
  cases c <;> first | rfl | cases hc

/-- A route commands the door, rings the bell, is a member or enrollment request, or
stays away from the log and the door. -/
inductive Kind (seen : Surroundings) : ApiRequest → Prop where
  | doorLock : Kind seen .doorLock
  | doorUnlock : Kind seen .doorUnlock
  | doorbell : Kind seen .doorbell
  | enrollment {a : ApiRequest} (r : Enrollment.Request) :
      (∀ b, ((a.handler seen).forget.run exec b).2 = r.perform b) → Kind seen a
  | apart {a : ApiRequest} : (a.handler seen).forget.Calls (fun c => apart c = true) →
      Kind seen a

/-- The answer of an enrollment request adds nothing to what it does. -/
theorem Kind.of_request {seen : Surroundings} {a : ApiRequest} {α : Type} {body : α → Body}
    {p : Proc (Reply α)} (r : Enrollment.Request) (ha : a.handler seen = reply body p)
    (hr : r.program = p.forget) : Kind seen a := by
  refine .enrollment r fun b => ?_
  rw [Enrollment.Request.perform, hr, ha, Program.run_forget, Program.run_forget]
  exact p.run_map _ b

theorem kind_request (seen : Surroundings) (a : ApiRequest) : Kind seen a := by
  cases a with
  | doorLock => exact .doorLock
  | doorUnlock => exact .doorUnlock
  | doorbell => exact .doorbell
  | addMember name role => exact .of_request (.addMember name role) rfl rfl
  | removeMember m => exact .of_request (.removeMember m) rfl rfl
  | startEnrollment m => exact .of_request (.startEnrollment m) rfl rfl
  | pollEnrollment m s => exact .of_request (.pollEnrollment m s) rfl rfl
  | uploadCapture m s angle image =>
      exact .of_request (.uploadCapture m s angle (seen.encode image)) rfl rfl
  | completeEnrollment m s => exact .of_request (.completeEnrollment m s) rfl rfl
  | cancelEnrollment m s => exact .of_request (.cancelEnrollment m s) rfl rfl
  | uploadCaptureB64 m s body =>
      exact .of_request (.uploadCaptureB64 m s (body.map fun body => body.encoded seen.encode))
        rfl rfl
  | piCameraCapture m s angle =>
      exact .of_request (.piCameraCapture m s angle (seen.sight.frames 0)) rfl rfl
  | removeFaceTemplate m => exact .of_request (.removeFaceTemplate m) rfl rfl
  | _ => exact .apart (apart_request seen (by simp) (by simp) (by simp))

theorem calls_doRelock : doRelock.Calls fun c => quiet c = true := by
  refine ⟨rfl, fun locked => ?_⟩
  cases locked with
  | true => trivial
  | false => exact ⟨rfl, fun _ => ⟨rfl, fun _ => trivial⟩⟩

theorem quiet_of_apart {c : Call} (h : apart c = true) : quiet c = true := by
  cases c <;> first | rfl | cases h

theorem logged_request (a : ApiRequest) (seen : Surroundings) (b : Process) :
    Logged b ((a.handler seen).forget.run exec b).2 (.request a seen) := by
  cases kind_request seen a with
  | doorLock => exact .locked rfl (openingSpins_of_lock rfl)
  | doorUnlock => exact .unlocked rfl (openingSpins_of_unlock rfl)
  | doorbell => exact .recognized rfl trivial (perform_of_doorbell seen b)
  | enrollment r hr =>
      rw [hr, Enrollment.perform_eq]
      exact .silent (Enrollment.logs_apply b.clock (Enrollment.deed_valid b.db r)) rfl
  | apart hcalls =>
      obtain ⟨hlogs, hspins⟩ := quiet_run (hcalls.imp fun _ hc => quiet_of_apart hc) b
      exact .silent hlogs hspins

theorem logged_step {b b' : Process} {e : Event} (hnext : live.next b e = some b') :
    Logged b b' e := by
  cases happens_of_next hnext with
  | wait _ => exact .silent rfl rfl
  | request a seen => exact logged_request a seen b
  | motion sight =>
      by_cases hruns : motionRuns b
      · exact .recognized (p := .motion) rfl hruns rfl
      · rw [perform_motion_of_not_runs b sight hruns]
        exact .silent rfl rfl
  | @fire i _ =>
      obtain ⟨hlogs, hspins⟩ := quiet_run calls_doRelock { b with relock := b.relock.fire i }
      exact .silent hlogs hspins

/-- The unlock commands of a transition are the spins it starts to unlock. -/
theorem issued_unlocks {b b' : Process} {e : Event} (hnext : live.next b e = some b') :
    openingSpins b' =
      openingSpins b + (issued ⟨b, e, b'⟩).countP fun v => v.1 = .servoUnlock := by
  obtain ⟨start, hready, rfl⟩ := Option.map_eq_some_iff.mp hnext
  have hstart : openingSpins start = openingSpins b := by
    rw [openingSpins, (ready_same hready).2, openingSpins]
  simp only [issued, hready, Option.map_some, Option.getD_some]
  rw [openingSpins_run, hstart, unlocks]

end FacialCamera.Recognition
