import FacialCamera.Core.Program
import FacialCamera.Backend.Database
import FacialCamera.Backend.Hardware
import Mathlib.Algebra.Order.Ring.Rat

/-! # The backend process and the calls its handlers make

One process of `main.py`: the database it has open, the servo, every
`threading.Timer` it has started, and its module globals. A handler reaches this
state only through the calls below, which are the atomic steps of a handler
between which other threads can run.
-/

namespace FacialCamera.Backend

open FacialCamera.Core

def AUTO_RELOCK_SECS : ℚ := 10
def MOTION_COOLDOWN : ℚ := 5
def CONFIDENCE_THRESHOLD : ℚ := 6 / 10

/-- `cancel()` stops a pending timer only; a fired one has its thread running or done. -/
inductive TimerStatus where
  | pending
  | cancelled
  | fired
  deriving DecidableEq

@[ext]
structure RelockTimer where
  deadline : ℚ
  status : TimerStatus
  deriving DecidableEq

/-- Every relock timer started, oldest first, and the position of the one that
`_relock_timer` refers to. -/
structure RelockTimers where
  started : List RelockTimer
  current : Option Nat
  deriving DecidableEq

namespace RelockTimers

def Waiting (r : RelockTimers) (i : Nat) (deadline : ℚ) : Prop :=
  r.started[i]? = some ⟨deadline, .pending⟩

def Pending (r : RelockTimers) (i : Nat) : Prop := ∃ deadline, r.Waiting i deadline

def Due (r : RelockTimers) (clock : ℚ) (i : Nat) : Prop :=
  ∃ deadline, r.Waiting i deadline ∧ deadline ≤ clock

theorem waiting_iff {r : RelockTimers} {i : Nat} {deadline : ℚ} :
    r.Waiting i deadline ↔
      ∃ t, r.started[i]? = some t ∧ t.status = .pending ∧ t.deadline = deadline := by
  constructor
  · intro h
    exact ⟨_, h, rfl, rfl⟩
  · rintro ⟨⟨_, _⟩, h, rfl, rfl⟩
    exact h

instance (r : RelockTimers) (i : Nat) : Decidable (r.Pending i) :=
  decidable_of_iff (∃ t, r.started[i]? = some t ∧ t.status = .pending)
    (by simp [Pending, waiting_iff, @exists_comm ℚ])

instance (r : RelockTimers) (clock : ℚ) (i : Nat) : Decidable (r.Due clock i) :=
  decidable_of_iff (∃ t, r.started[i]? = some t ∧ t.status = .pending ∧ t.deadline ≤ clock) (by
    simp only [Due, waiting_iff]
    constructor
    · rintro ⟨t, ht, hpending, hdeadline⟩
      exact ⟨t.deadline, ⟨t, ht, hpending, rfl⟩, hdeadline⟩
    · rintro ⟨_, ⟨t, ht, hpending, rfl⟩, hdeadline⟩
      exact ⟨t, ht, hpending, hdeadline⟩)

def settle (r : RelockTimers) (i : Nat) (status : TimerStatus) : RelockTimers :=
  { r with started := r.started.modify i fun t =>
      if t.status = .pending then { t with status } else t }

/-- `if _relock_timer: _relock_timer.cancel()`. -/
def cancelCurrent (r : RelockTimers) : RelockTimers :=
  match r.current with
  | none => r
  | some i => r.settle i .cancelled

/-- `_relock_timer = threading.Timer(AUTO_RELOCK_SECS, ...)` and its `start()`. -/
def start (r : RelockTimers) (deadline : ℚ) : RelockTimers :=
  { started := r.started ++ [⟨deadline, .pending⟩], current := some r.started.length }

/-- The wait of timer `i` is over; its thread goes on to the callback. -/
def fire (r : RelockTimers) (i : Nat) : RelockTimers := r.settle i .fired

variable {r : RelockTimers} {i j : Nat} {deadline : ℚ}

theorem waiting_settle {status : TimerStatus} (hstatus : status ≠ .pending) :
    (r.settle i status).Waiting j deadline ↔ j ≠ i ∧ r.Waiting j deadline := by
  simp only [Waiting, settle, List.getElem?_modify]
  by_cases hij : i = j
  · subst hij
    cases r.started[i]? with
    | none => simp
    | some t =>
        by_cases ht : t.status = .pending <;> simp [ht, RelockTimer.ext_iff, hstatus]
  · simp [hij, Ne.symm hij]

theorem waiting_fire :
    (r.fire i).Waiting j deadline ↔ j ≠ i ∧ r.Waiting j deadline :=
  waiting_settle (by simp)

theorem waiting_cancelCurrent :
    r.cancelCurrent.Waiting j deadline ↔ r.current ≠ some j ∧ r.Waiting j deadline := by
  unfold cancelCurrent
  cases r.current with
  | none => simp
  | some i => simp [waiting_settle, eq_comm]

theorem waiting_start {new : ℚ} :
    (r.start new).Waiting j deadline ↔
      (j = r.started.length ∧ deadline = new) ∨ r.Waiting j deadline := by
  simp only [Waiting, start, List.getElem?_append]
  split
  case isTrue hj => simp [hj.ne]
  case isFalse hj =>
    rw [List.getElem?_eq_none (Nat.le_of_not_lt hj), List.getElem?_singleton]
    by_cases hlast : j = r.started.length
    · simp [hlast, eq_comm]
    · have : j - r.started.length ≠ 0 := by omega
      simp [hlast, this]

theorem pending_fire : (r.fire i).Pending j ↔ j ≠ i ∧ r.Pending j := by
  simp [Pending, waiting_fire]

theorem pending_start {new : ℚ} :
    (r.start new).Pending j ↔ j = r.started.length ∨ r.Pending j := by
  simp [Pending, waiting_start, exists_or]

end RelockTimers

/-- The module globals that the settings endpoints write and the pipelines read. -/
inductive Flag where
  | motionDetectionEnabled
  | motionAlertsEnabled
  | autoLockOnUnknown
  deriving DecidableEq

structure Process where
  db : Database
  servo : ServoController
  relock : RelockTimers
  flags : Flag → Bool
  lastMotionTime : ℚ
  confidenceThreshold : ℚ
  clock : ℚ

namespace Process

/-- A process that has just imported its modules and run `init_db`; `onPi` says whether
the GPIO library is importable. -/
def boot (onPi : Bool) (disk : Option Database) (clock : ℚ) : Process where
  db := Database.initDb disk
  servo := ServoController.init onPi
  relock := ⟨[], none⟩
  flags := fun _ => true
  lastMotionTime := 0
  confidenceThreshold := CONFIDENCE_THRESHOLD
  clock := clock

/-- The body of `with _motion_lock`: whether the run goes on, and the stamp it leaves. -/
def claimMotion (b : Process) : Bool × Process :=
  if b.clock - b.lastMotionTime < MOTION_COOLDOWN then (false, b)
  else (true, { b with lastMotionTime := b.clock })

theorem claimMotion_of_lt {b : Process} (h : b.clock - b.lastMotionTime < MOTION_COOLDOWN) :
    b.claimMotion = (false, b) := if_pos h

theorem claimMotion_of_not_lt {b : Process}
    (h : ¬ b.clock - b.lastMotionTime < MOTION_COOLDOWN) :
    b.claimMotion = (true, { b with lastMotionTime := b.clock }) := if_neg h

end Process

/-- The atomic steps of a handler. `readBody` is the `await` of a request body. -/
inductive Call : Type where
  | getDoorLocked
  | setDoorLocked (locked : Bool)
  | getMember (memberId : Uuid)
  | addMember (name role : String)
  | deleteMember (memberId : Uuid)
  | updateMemberFaceEnrolled (memberId : Uuid) (enrolled : Bool) (liveness : Option ℚ)
  | createEnrollmentSession (memberId : Uuid)
  | getEnrollmentSession (sessionId : Uuid)
  | updateEnrollmentSession (sessionId : Uuid) (columns : Database.SessionColumns)
  | selectCapturesCount (sessionId : Uuid)
  | storeFaceEncoding (memberId : Uuid) (encoding : Encoding) (angle : Angle)
  | getAllFaceEncodings
  | deleteFaceEncodings (memberId : Uuid)
  | uuid4
  | addLog (type : LogType) (name : String) (confidence : Option ℚ) (snapshot : Option Base64)
  | addAlert (label : AlertLabel)
  | getAllMembers
  | getLogs (limit : Int)
  | getLogSnapshot (logId : Int)
  | getAlerts
  | markAlertRead (alertId : Int)
  | getStats
  | servoLock
  | servoUnlock
  | cancelRelockTimer
  | startRelockTimer
  | claimMotion
  | readFlag (flag : Flag)
  | writeFlag (flag : Flag) (value : Bool)
  | readThreshold
  | writeThreshold (threshold : ℚ)
  | now
  | readBody
  deriving DecidableEq

@[reducible] def Answer : Call → Type
  | .getDoorLocked => Bool
  | .getMember _ => Option MemberRow
  | .addMember _ _ => MemberRow
  | .createEnrollmentSession _ => SessionRow
  | .getEnrollmentSession _ => Option SessionRow
  | .selectCapturesCount _ => Option Nat
  | .getAllFaceEncodings => List KnownEntry
  | .getAllMembers => List MemberRow
  | .getLogs _ => List LogEntry
  | .getLogSnapshot _ => Option Base64
  | .getAlerts => List AlertRow
  | .getStats => Stats
  | .uuid4 => Uuid
  | .claimMotion => Bool
  | .readFlag _ => Bool
  | .readThreshold => ℚ
  | .now => Timestamp
  | _ => Unit

/-- The calls into `database.py` and the inline `SELECT`. -/
def Call.isDb : Call → Bool
  | .getDoorLocked | .setDoorLocked _ | .getMember _ | .addMember _ _ | .deleteMember _
  | .updateMemberFaceEnrolled _ _ _ | .createEnrollmentSession _ | .getEnrollmentSession _
  | .updateEnrollmentSession _ _ | .selectCapturesCount _ | .storeFaceEncoding _ _ _
  | .getAllFaceEncodings | .deleteFaceEncodings _ | .addLog _ _ _ _ | .addAlert _
  | .getAllMembers | .getLogs _ | .getLogSnapshot _ | .getAlerts | .markAlertRead _
  | .getStats => true
  | _ => false

/-- The `await`s of the handlers, where the event loop may run other requests. -/
def Call.awaits : Call → Bool
  | .readBody => true
  | _ => false

/-- The meaning of a call in a process. A call that stamps its row reads the clock and inserts
in one step. -/
def exec : Interp Call Answer Process
  | .getDoorLocked, b => some (b.db.getDoorLocked, b)
  | .setDoorLocked locked, b => some ((), { b with db := b.db.setDoorLocked locked })
  | .getMember m, b => some (b.db.getMember m, b)
  | .addMember name role, b =>
      let (row, db) := b.db.addMember name role b.clock
      some (row, { b with db })
  | .deleteMember m, b => some ((), { b with db := b.db.deleteMember m })
  | .updateMemberFaceEnrolled m enrolled liveness, b =>
      some ((), { b with db := b.db.updateMemberFaceEnrolled m enrolled liveness b.clock })
  | .createEnrollmentSession m, b =>
      (b.db.createEnrollmentSession m b.clock).map fun (row, db) => (row, { b with db })
  | .getEnrollmentSession s, b => some (b.db.getEnrollmentSession s, b)
  | .updateEnrollmentSession s columns, b =>
      some ((), { b with db := b.db.updateEnrollmentSession s columns })
  | .selectCapturesCount s, b => some (b.db.selectCapturesCount s, b)
  | .storeFaceEncoding m encoding angle, b =>
      (b.db.storeFaceEncoding m encoding angle b.clock).map fun db => ((), { b with db })
  | .getAllFaceEncodings, b => some (b.db.getAllFaceEncodings, b)
  | .deleteFaceEncodings m, b => some ((), { b with db := b.db.deleteFaceEncodings m })
  | .uuid4, b => some (b.db.drawUuid.1, { b with db := b.db.drawUuid.2 })
  | .addLog type name confidence snapshot, b =>
      some ((), { b with db := b.db.addLog type name confidence snapshot b.clock })
  | .addAlert label, b => some ((), { b with db := b.db.addAlert label b.clock })
  | .getAllMembers, b => some (b.db.getAllMembers, b)
  | .getLogs limit, b => if Database.bindable limit then some (b.db.getLogs limit, b) else none
  | .getLogSnapshot logId, b =>
      if Database.bindable logId then some (b.db.getLogSnapshot logId, b) else none
  | .getAlerts, b => some (b.db.getAlerts, b)
  | .markAlertRead alertId, b =>
      if Database.bindable alertId then some ((), { b with db := b.db.markAlertRead alertId })
      else none
  | .getStats, b => some (b.db.getStats b.clock, b)
  | .servoLock, b => some ((), { b with servo := b.servo.lock })
  | .servoUnlock, b => some ((), { b with servo := b.servo.unlock })
  | .cancelRelockTimer, b => some ((), { b with relock := b.relock.cancelCurrent })
  | .startRelockTimer, b =>
      some ((), { b with relock := b.relock.start (b.clock + AUTO_RELOCK_SECS) })
  | .claimMotion, b => some b.claimMotion
  | .readFlag flag, b => some (b.flags flag, b)
  | .writeFlag flag value, b =>
      some ((), { b with flags := Function.update b.flags flag value })
  | .readThreshold, b => some (b.confidenceThreshold, b)
  | .writeThreshold threshold, b => some ((), { b with confidenceThreshold := threshold })
  | .now, b => some (b.clock, b)
  | .readBody, b => some ((), b)

abbrev Proc (α : Type) : Type := Program Call Answer α

structure HTTPException where
  status : Nat
  detail : String
  deriving DecidableEq

/-- What a route handler answers when it does not fault. -/
abbrev Reply (α : Type) : Type := Except HTTPException α

/-! ## The calls under their names -/

@[simp] def issue (c : Call) : Proc (Answer c) := .perform c

namespace Db

@[simp] def getDoorLocked : Proc Bool := issue .getDoorLocked
@[simp] def setDoorLocked (locked : Bool) : Proc Unit := issue (.setDoorLocked locked)
@[simp] def getMember (m : Uuid) : Proc (Option MemberRow) := issue (.getMember m)
@[simp] def addMember (name role : String) : Proc MemberRow := issue (.addMember name role)
@[simp] def deleteMember (m : Uuid) : Proc Unit := issue (.deleteMember m)
@[simp] def updateMemberFaceEnrolled (m : Uuid) (enrolled : Bool) (liveness : Option ℚ) :
    Proc Unit := issue (.updateMemberFaceEnrolled m enrolled liveness)
@[simp] def createEnrollmentSession (m : Uuid) : Proc SessionRow :=
  issue (.createEnrollmentSession m)
@[simp] def getEnrollmentSession (s : Uuid) : Proc (Option SessionRow) :=
  issue (.getEnrollmentSession s)
@[simp] def updateEnrollmentSession (s : Uuid) (columns : Database.SessionColumns) : Proc Unit :=
  issue (.updateEnrollmentSession s columns)
@[simp] def selectCapturesCount (s : Uuid) : Proc (Option Nat) := issue (.selectCapturesCount s)
@[simp] def storeFaceEncoding (m : Uuid) (encoding : Encoding) (angle : Angle) : Proc Unit :=
  issue (.storeFaceEncoding m encoding angle)
@[simp] def getAllFaceEncodings : Proc (List KnownEntry) := issue .getAllFaceEncodings
@[simp] def deleteFaceEncodings (m : Uuid) : Proc Unit := issue (.deleteFaceEncodings m)
@[simp] def addLog (type : LogType) (name : String) (confidence : Option ℚ)
    (snapshot : Option Base64) : Proc Unit := issue (.addLog type name confidence snapshot)
@[simp] def addAlert (label : AlertLabel) : Proc Unit := issue (.addAlert label)
@[simp] def getAllMembers : Proc (List MemberRow) := issue .getAllMembers
@[simp] def getLogs (limit : Int) : Proc (List LogEntry) := issue (.getLogs limit)
@[simp] def getLogSnapshot (logId : Int) : Proc (Option Base64) := issue (.getLogSnapshot logId)
@[simp] def getAlerts : Proc (List AlertRow) := issue .getAlerts
@[simp] def markAlertRead (alertId : Int) : Proc Unit := issue (.markAlertRead alertId)
@[simp] def getStats : Proc Stats := issue .getStats

end Db

namespace Servo

@[simp] def lock : Proc Unit := issue .servoLock
@[simp] def unlock : Proc Unit := issue .servoUnlock

end Servo

@[simp] def readFlag (flag : Flag) : Proc Bool := issue (.readFlag flag)
@[simp] def writeFlag (flag : Flag) (value : Bool) : Proc Unit := issue (.writeFlag flag value)

end FacialCamera.Backend
