import FacialCamera.Door.Operations

/-! # Door operations interrupted by a database exception

No door operation has a `try` block, so a `db` call that raises ends it and
leaves what the calls before it did. The servo is commanded before the flag is
written, which makes the flag write of every path the point where a failure
parts them, unless the flag holds the written value already. The relock callback
has a second such point: it runs with its own timer spent.
-/

namespace FacialCamera.Door

open FacialCamera.Core Backend

/-- An operation of the event loop or the motion thread, or the callback of timer `i`. -/
inductive Task where
  | operation (o : Operation)
  | relock (i : Nat)

namespace Task

def program : Task → Proc Unit
  | .operation o => o.program
  | .relock _ => doRelock

def entry (b : Process) : Task → Process
  | .operation _ => b
  | .relock i => { b with relock := b.relock.fire i }

/-- Run the task from `b` with call number `n` raising. -/
def interrupted (task : Task) (n : Nat) (b : Process) : Process :=
  (task.program.runRaising exec n (task.entry b)).2

end Task

/-- The failure points that lose the door: a flag write that had something to change,
and the flag read of a relock callback that no other timer backs up. -/
def LosesDoor (b : Process) : Task → Call → Prop
  | _, .setDoorLocked locked => locked ≠ b.db.doorLocked
  | .relock i, .getDoorLocked =>
      b.db.doorLocked = false ∧ ∀ j, j ≠ i → ¬ b.relock.Pending j
  | _, _ => False

/-- At every failure point of the task the door is guarded unless the point loses it. -/
def Exact (b : Process) (task : Task) : Prop :=
  ∀ v ∈ task.program.visits exec (task.entry b), v.1.isDb = true →
    (Guarded v.2 ↔ ¬ LosesDoor b task v.1)

/-! ## The failure points of each operation -/

section Points

variable {b : Process}

/-- A state that differs from `b` outside the door is as guarded as `b`. -/
theorem guarded_iff : Guarded b ↔
    Agree b ∧ (b.db.doorLocked = false → ∃ i, b.relock.Pending i) :=
  ⟨fun h => ⟨h.agree, h.timed⟩, fun h => ⟨h.1, h.2⟩⟩

attribute [local simp] Exact Task.program Task.entry Program.visits exec Program.forget
  Database.getDoorLocked LosesDoor Call.isDb guarded_iff Agree

theorem exact_doorLock (h : Guarded b) : Exact b (.operation .doorLock) := by
  have hservo : b.servo.locked = b.db.doorLocked := h.agree
  simp [Operation.program, doorLock, hservo]
  intro hlocked hunlocked
  simp [hlocked] at hunlocked

theorem exact_doorUnlock (h : Guarded b) : Exact b (.operation .doorUnlock) := by
  have hservo : b.servo.locked = b.db.doorLocked := h.agree
  cases hflag : b.db.doorLocked with
  | true =>
      simp [Operation.program, doorUnlock, scheduleRelock, RelockTimers.pending_start, hflag]
  | false =>
      simp [Operation.program, doorUnlock, scheduleRelock, RelockTimers.pending_start, hflag]
      exact h.timed hflag

theorem exact_runDoorbellScan (h : Guarded b) (sight : Sight) :
    Exact b (.operation (.runDoorbellScan sight)) := by
  have hservo : b.servo.locked = b.db.doorLocked := h.agree
  have htimed := h.timed
  cases hgrab : grabFaceEncoding sight.frames with
  | raises => simpa [Operation.program, runDoorbellScan, hgrab, hservo] using htimed
  | noFace => simpa [Operation.program, runDoorbellScan, hgrab, hservo] using htimed
  | face encoding quality =>
      cases hname : recognizedName (compareFace sight.library b.confidenceThreshold encoding
          b.db.getAllFaceEncodings) with
      | some name =>
          cases hflag : b.db.doorLocked <;>
            simp [Operation.program, runDoorbellScan, scheduleRelock, hgrab, hname, hservo, hflag]
          exact htimed hflag
      | none =>
          cases hauto : b.flags .autoLockOnUnknown <;> cases hflag : b.db.doorLocked <;>
            simp [Operation.program, runDoorbellScan, hgrab, hname, hauto, hservo, hflag]
              <;> exact htimed hflag

theorem exact_onMotionDetected (h : Guarded b) (sight : Sight) :
    Exact b (.operation (.onMotionDetected sight)) := by
  have hservo : b.servo.locked = b.db.doorLocked := h.agree
  have htimed := h.timed
  by_cases henabled : b.flags .motionDetectionEnabled = true
  swap
  · simp [Operation.program, onMotionDetected, henabled]
  by_cases hcooldown : b.clock - b.lastMotionTime < MOTION_COOLDOWN
  · simp [Operation.program, onMotionDetected, henabled, Process.claimMotion_of_lt hcooldown]
  have halways := Process.claimMotion_of_not_lt hcooldown
  cases hgrab : grabFaceEncoding sight.frames with
  | raises =>
      simpa [Operation.program, onMotionDetected, henabled, halways, hgrab, hservo] using htimed
  | noFace =>
      cases halerts : b.flags .motionAlertsEnabled <;>
        simpa [Operation.program, onMotionDetected, henabled, halways, hgrab, halerts, hservo]
          using htimed
  | face encoding quality =>
      cases hname : recognizedName (compareFace sight.library b.confidenceThreshold encoding
          b.db.getAllFaceEncodings) with
      | some name =>
          cases hflag : b.db.doorLocked <;>
            simp [Operation.program, onMotionDetected, scheduleRelock, henabled, halways, hgrab,
              hname, hservo, hflag]
          exact htimed hflag
      | none =>
          cases halerts : b.flags .motionAlertsEnabled <;>
            cases hauto : b.flags .autoLockOnUnknown <;> cases hflag : b.db.doorLocked <;>
            simp [Operation.program, onMotionDetected, henabled, halways, hgrab, hname, halerts,
              hauto, hservo, hflag] <;> exact htimed hflag

theorem exact_setMotionSettings (detection alerts : Option Bool) :
    Exact b (.operation (.setMotionSettings detection alerts)) := by
  cases detection <;> cases alerts <;> simp [Operation.program, setMotionSettings]

theorem exact_setAutolock (enabled : Bool) : Exact b (.operation (.setAutolock enabled)) := by
  simp [Operation.program, setAutolock]

theorem exact_relock (h : Guarded b) (i : Nat) : Exact b (.relock i) := by
  have hservo : b.servo.locked = b.db.doorLocked := h.agree
  cases hflag : b.db.doorLocked <;>
    simp [doRelock, hservo, hflag, RelockTimers.pending_fire]

end Points

/-- Every failure point of every task. -/
theorem exact_task {b : Process} (h : Guarded b) (task : Task) : Exact b task := by
  cases task with
  | relock i => exact exact_relock h i
  | operation o =>
      cases o with
      | doorLock => exact exact_doorLock h
      | doorUnlock => exact exact_doorUnlock h
      | onMotionDetected sight => exact exact_onMotionDetected h sight
      | runDoorbellScan sight => exact exact_runDoorbellScan h sight
      | setMotionSettings detection alerts => exact exact_setMotionSettings detection alerts
      | setAutolock enabled => exact exact_setAutolock enabled

theorem guarded_interrupted_iff {b b' : Process} {task : Task} {n : Nat} {c : Call}
    (h : Guarded b)
    (hcall : (task.program.visits exec (task.entry b))[n]? = some (c, b')) (hdb : c.isDb = true) :
    Guarded (task.interrupted n b) ↔ ¬ LosesDoor b task c := by
  rw [Task.interrupted, Program.runRaising_eq hcall]
  exact exact_task h task (c, b') (List.mem_of_getElem? hcall) hdb

/-! ## Instances at a locked door -/

theorem guarded_boot : Guarded (Process.boot true none 0) :=
  ⟨rfl, fun h => by cases h⟩

/-- `set_door_locked(True)` of a manual lock changes nothing at a locked door. -/
theorem guarded_interrupted_doorLock :
    Guarded ((Task.operation .doorLock).interrupted 2 (Process.boot true none 0)) :=
  (guarded_interrupted_iff (c := .setDoorLocked true) guarded_boot rfl rfl).mpr fun h => h rfl

/-- `set_door_locked(False)` of a manual unlock raises after the servo has opened. -/
theorem not_always_guarded_interrupted :
    ¬ ∀ (b b' : Process) (task : Task) (n : Nat) (c : Call), Guarded b →
      (task.program.visits exec (task.entry b))[n]? = some (c, b') → c.isDb = true →
      Guarded (task.interrupted n b) := by
  intro halways
  have hleft := halways (Process.boot true none 0) _ (.operation .doorUnlock) 1
    (.setDoorLocked false) guarded_boot rfl rfl
  cases hleft.agree

end FacialCamera.Door
