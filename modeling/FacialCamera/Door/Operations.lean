import FacialCamera.Backend.Door

/-! # What each door operation does to the door

The door part of a process is the servo flag, the persistent flag and the relock
timers. Each operation is described once by its effect on that part; the
restart, failure and timing results use these descriptions and never unfold a
handler again.
-/

namespace FacialCamera.Door

open FacialCamera.Core Backend

/-- The part of a process that the door operations read and write together. -/
structure DoorView where
  servoLocked : Bool
  flag : Bool
  relock : RelockTimers
  deriving DecidableEq

namespace DoorView

def opened (d : DoorView) (deadline : ℚ) : DoorView :=
  ⟨false, false, d.relock.cancelCurrent.start deadline⟩

def closed (d : DoorView) : DoorView := ⟨true, true, d.relock.cancelCurrent⟩

/-- After a lock that looks at the flag first and leaves the timers alone. -/
def shut (d : DoorView) : DoorView := if d.flag then d else ⟨true, true, d.relock⟩

end DoorView

end FacialCamera.Door

namespace FacialCamera.Backend.Process

open Door

def door (b : Process) : DoorView := ⟨b.servo.locked, b.db.doorLocked, b.relock⟩

def fire (b : Process) (i : Nat) : Process :=
  (doRelock.run exec { b with relock := b.relock.fire i }).2

end FacialCamera.Backend.Process

namespace FacialCamera.Door

open FacialCamera.Core Backend

/-- The last direction commanded to the servo is the one the database holds. -/
def Agree (b : Process) : Prop := b.servo.locked = b.db.doorLocked

instance (b : Process) : Decidable (Agree b) := inferInstanceAs (Decidable (_ = _))

/-- Servo and database agree, and an open door has a relock timer waiting. -/
structure Guarded (b : Process) : Prop where
  agree : Agree b
  timed : b.db.doorLocked = false → ∃ i, b.relock.Pending i

/-! ## Operations -/

inductive Operation where
  | doorLock
  | doorUnlock
  | onMotionDetected (sight : Sight)
  | runDoorbellScan (sight : Sight)
  | setMotionSettings (detection alerts : Option Bool)
  | setAutolock (enabled : Bool)

def Operation.program : Operation → Proc Unit
  | .doorLock => Backend.doorLock.forget
  | .doorUnlock => Backend.doorUnlock.forget
  | .onMotionDetected sight => Backend.onMotionDetected sight
  | .runDoorbellScan sight => (Backend.runDoorbellScan sight).forget
  | .setMotionSettings detection alerts => (Backend.setMotionSettings detection alerts).forget
  | .setAutolock enabled => (Backend.setAutolock enabled).forget

def Operation.perform (o : Operation) (b : Process) : Process := (o.program.run exec b).2

/-! ## The outcome of a recognition run -/

inductive Verdict where
  | raises
  | noFace
  | authorized (name : String) (confidence : ℚ)
  | unknown (confidence : ℚ)
  deriving DecidableEq

/-- The branch a pipeline takes from `b`. -/
def verdict (b : Process) (sight : Sight) : Verdict :=
  match grabFaceEncoding sight.frames with
  | .raises => .raises
  | .noFace => .noFace
  | .face encoding _ =>
      let outcome :=
        compareFace sight.library b.confidenceThreshold encoding b.db.getAllFaceEncodings
      match recognizedName outcome with
      | some name => .authorized name outcome.2.2
      | none => .unknown outcome.2.2

def motionRuns (b : Process) : Prop :=
  b.flags .motionDetectionEnabled = true ∧ ¬ b.clock - b.lastMotionTime < MOTION_COOLDOWN

instance (b : Process) : Decidable (motionRuns b) := inferInstanceAs (Decidable (_ ∧ _))

/-- What an operation orders the door to do. An automatic lock looks at the flag first
and leaves the timers alone. -/
inductive Order where
  | unlock
  | lock
  | autoLock
  deriving DecidableEq

def Verdict.order (autoLock : Bool) : Verdict → Option Order
  | .authorized _ _ => some .unlock
  | .unknown _ => if autoLock then some .autoLock else none
  | _ => none

def Operation.order (b : Process) : Operation → Option Order
  | .doorLock => some .lock
  | .doorUnlock => some .unlock
  | .onMotionDetected sight =>
      if motionRuns b then (verdict b sight).order (b.flags .autoLockOnUnknown) else none
  | .runDoorbellScan sight => (verdict b sight).order (b.flags .autoLockOnUnknown)
  | .setMotionSettings _ _ => none
  | .setAutolock _ => none

/-- The door after an order; an unlock's timer gets the deadline. -/
def DoorView.obey (d : DoorView) (deadline : ℚ) : Option Order → DoorView
  | some .unlock => d.opened deadline
  | some .lock => d.closed
  | some .autoLock => d.shut
  | none => d

/-! ## Effects -/

section Effects

attribute [local simp] Program.run_call exec Program.run_forget Database.getDoorLocked

variable (b : Process)

theorem door_doRelock : (doRelock.run exec b).2.door = b.door.shut := by
  cases h : b.db.doorLocked <;> simp [doRelock, Process.door, DoorView.shut, h]

theorem door_fire (i : Nat) :
    (b.fire i).door = ({ b.door with relock := b.relock.fire i } : DoorView).shut :=
  door_doRelock _

theorem door_doorLock : (Operation.doorLock.perform b).door = b.door.closed := by
  simp [Operation.perform, Operation.program, doorLock, Process.door, DoorView.closed]

theorem door_doorUnlock :
    (Operation.doorUnlock.perform b).door = b.door.opened (b.clock + AUTO_RELOCK_SECS) := by
  simp [Operation.perform, Operation.program, doorUnlock, scheduleRelock, Process.door,
    DoorView.opened]

/-- The verdict is read before any write of the run to the door. -/
theorem door_runDoorbellScan (sight : Sight) :
    ((Operation.runDoorbellScan sight).perform b).door =
      b.door.obey (b.clock + AUTO_RELOCK_SECS)
        ((verdict b sight).order (b.flags .autoLockOnUnknown)) := by
  unfold Operation.perform Operation.program verdict
  rw [Program.run_forget]
  cases hgrab : grabFaceEncoding sight.frames with
  | raises => simp [runDoorbellScan, hgrab, Verdict.order, DoorView.obey, Process.door]
  | noFace => simp [runDoorbellScan, hgrab, Verdict.order, DoorView.obey, Process.door]
  | face encoding quality =>
      cases hname : recognizedName (compareFace sight.library b.confidenceThreshold encoding
          b.db.getAllFaceEncodings) with
      | some name =>
          simp [runDoorbellScan, hgrab, hname, Verdict.order, DoorView.obey, Process.door,
            scheduleRelock, DoorView.opened]
      | none =>
          cases hauto : b.flags .autoLockOnUnknown <;> cases hflag : b.db.doorLocked <;>
            simp [runDoorbellScan, hgrab, hname, hauto, hflag, Verdict.order, DoorView.obey,
              Process.door, DoorView.shut]

theorem door_onMotionDetected (sight : Sight) :
    ((Operation.onMotionDetected sight).perform b).door =
      b.door.obey (b.clock + AUTO_RELOCK_SECS)
        (if motionRuns b then (verdict b sight).order (b.flags .autoLockOnUnknown)
          else none) := by
  unfold Operation.perform Operation.program verdict
  by_cases henabled : b.flags .motionDetectionEnabled = true
  swap
  · simp [motionRuns, henabled, onMotionDetected, DoorView.obey]
  by_cases hcooldown : b.clock - b.lastMotionTime < MOTION_COOLDOWN
  · simp [motionRuns, henabled, hcooldown, onMotionDetected, Process.claimMotion_of_lt,
      DoorView.obey]
  have hruns : motionRuns b := ⟨henabled, hcooldown⟩
  have halways := Process.claimMotion_of_not_lt hcooldown
  rw [if_pos hruns]
  cases hgrab : grabFaceEncoding sight.frames with
  | raises =>
      simp [onMotionDetected, henabled, halways, hgrab, Verdict.order, DoorView.obey, Process.door]
  | noFace =>
      cases halerts : b.flags .motionAlertsEnabled <;>
        simp [onMotionDetected, henabled, halways, hgrab, halerts, Verdict.order, DoorView.obey,
          Process.door]
  | face encoding quality =>
      cases hname : recognizedName (compareFace sight.library b.confidenceThreshold encoding
          b.db.getAllFaceEncodings) with
      | some name =>
          simp [onMotionDetected, henabled, halways, hgrab, hname, Verdict.order, DoorView.obey,
            Process.door, scheduleRelock, DoorView.opened]
      | none =>
          cases halerts : b.flags .motionAlertsEnabled <;>
            cases hauto : b.flags .autoLockOnUnknown <;> cases hflag : b.db.doorLocked <;>
            simp [onMotionDetected, henabled, halways, hgrab, hname, halerts, hauto, hflag,
              Verdict.order, DoorView.obey, Process.door, DoorView.shut]

theorem door_setMotionSettings (detection alerts : Option Bool) :
    ((Operation.setMotionSettings detection alerts).perform b).door = b.door := by
  cases detection <;> cases alerts <;>
    simp [Operation.perform, Operation.program, setMotionSettings, Process.door]

theorem door_setAutolock (enabled : Bool) :
    ((Operation.setAutolock enabled).perform b).door = b.door := by
  simp [Operation.perform, Operation.program, setAutolock, Process.door]

end Effects

/-- Every operation does to the door what its order says, and nothing else. -/
theorem door_perform (b : Process) (o : Operation) :
    (o.perform b).door = b.door.obey (b.clock + AUTO_RELOCK_SECS) (o.order b) := by
  cases o with
  | doorLock => exact door_doorLock b
  | doorUnlock => exact door_doorUnlock b
  | onMotionDetected sight => exact door_onMotionDetected b sight
  | runDoorbellScan sight => exact door_runDoorbellScan b sight
  | setMotionSettings detection alerts => exact door_setMotionSettings b detection alerts
  | setAutolock enabled => exact door_setAutolock b enabled

def servoAfter (s : ServoController) : Call → ServoController
  | .servoLock => s.lock
  | .servoUnlock => s.unlock
  | _ => s

/-- Handlers take no time, reach the servo by its two commands, and stamp a motion run or set a
flag by one call each. -/
structure CallFrame (c : Call) (b b' : Process) : Prop where
  clock : b'.clock = b.clock
  servo : b'.servo = servoAfter b.servo c
  lastMotionTime : c ≠ .claimMotion → b'.lastMotionTime = b.lastMotionTime
  flags : (∀ flag value, c ≠ .writeFlag flag value) → b'.flags = b.flags

theorem exec_frame {c : Call} {b b' : Process} {r : Answer c}
    (h : exec c b = some (r, b')) : CallFrame c b b' := by
  cases c <;> simp only [exec, Option.map_eq_some_iff, Option.ite_none_right_eq_some,
    Option.some.injEq, Prod.mk.injEq] at h
  case createEnrollmentSession | storeFaceEncoding =>
    obtain ⟨_, _, _, rfl⟩ := h
    exact ⟨rfl, rfl, fun _ => rfl, fun _ => rfl⟩
  case getLogs | getLogSnapshot | markAlertRead =>
    obtain ⟨_, _, rfl⟩ := h
    exact ⟨rfl, rfl, fun _ => rfl, fun _ => rfl⟩
  case claimMotion =>
    unfold Process.claimMotion at h
    split at h <;> cases h <;> exact ⟨rfl, rfl, fun hc => absurd rfl hc, fun _ => rfl⟩
  case writeFlag flag value =>
    obtain ⟨_, rfl⟩ := h
    exact ⟨rfl, rfl, fun _ => rfl, fun hc => absurd rfl (hc flag value)⟩
  all_goals (obtain ⟨_, rfl⟩ := h; exact ⟨rfl, rfl, fun _ => rfl, fun _ => rfl⟩)

theorem exec_clock {c : Call} {b b' : Process} {r : Answer c} (h : exec c b = some (r, b')) :
    b'.clock = b.clock := (exec_frame h).clock

theorem clock_run {α : Type} (p : Proc α) (b : Process) : (p.run exec b).2.clock = b.clock :=
  (Program.calls_true p).run_frame (I := exec) Process.clock (fun _ _ _ _ _ h => exec_clock h) b

theorem clock_perform (o : Operation) (b : Process) : (o.perform b).clock = b.clock :=
  clock_run o.program b

theorem clock_fire (b : Process) (i : Nat) : (b.fire i).clock = b.clock :=
  clock_run doRelock _

theorem flag_fire (b : Process) (i : Nat) : (b.fire i).db.doorLocked = true := by
  have hdoor := congrArg DoorView.flag (door_fire b i)
  cases hflag : b.db.doorLocked <;>
    simpa [DoorView.shut, Process.door, hflag] using hdoor

theorem servo_fire {b : Process} (i : Nat) (h : b.db.doorLocked = false) :
    (b.fire i).servo.locked = true := by
  simpa [DoorView.shut, Process.door, h] using congrArg DoorView.servoLocked (door_fire b i)

end FacialCamera.Door
