import FacialCamera.Recognition.Pipelines

/-! # One pipeline written twice

The docstring of the doorbell scan promises the logic of the motion callback. Both
runs are compared from one process, by the verdict that decides what they do.
-/

namespace FacialCamera.Recognition

open FacialCamera.Core Backend Door

def laterEntries (b b' : Process) : List LogRow := b'.db.logs.drop (b.db.logs.length + 1)

/-- A motion run to `m` and a doorbell run to `d`, both from `b`, have the same effect. -/
structure SameEffect (b m d : Process) : Prop where
  servo : m.servo = d.servo
  doorLocked : m.db.doorLocked = d.db.doorLocked
  relock : m.relock = d.relock
  members : m.db.members = d.db.members
  encodings : m.db.encodings = d.db.encodings
  sessions : m.db.sessions = d.db.sessions
  entries : ∃ entries, m.db.logs = b.db.logs ++ Pipeline.motion.trigger b :: entries ∧
    d.db.logs = b.db.logs ++ Pipeline.doorbell.trigger b :: entries
  alerts : b.flags .motionAlertsEnabled = true → m.db.alerts.length = d.db.alerts.length

structure NamesBranch (b d : Process) (result : Option String) : Prop where
  authorized : result = some "authorized" ↔
    (laterEntries b d).map LogRow.type = [.authorized]
  unknown : result = some "unknown" ↔ (laterEntries b d).map LogRow.type = [.unknown]
  noFace : result = some "no_face" ↔
    laterEntries b d = [] ∧ d.db.alerts.length = b.db.alerts.length + 1

/-! ## What both runs leave -/

/-- The process without its log and its alerts, and without the stamp of a motion run. -/
structure Shared where
  servo : ServoController
  relock : RelockTimers
  doorLocked : Bool
  members : Table MemberRow Uuid MemberRow.id
  encodings : Table EncodingRow Uuid EncodingRow.id
  sessions : Table SessionRow Uuid SessionRow.sessionId

section Tables

variable (b : Process) (p : Pipeline) (snapshot : Option Base64) (v : Verdict)

def shared : Shared :=
  ⟨b.servo, b.relock, b.db.doorLocked, b.db.members, b.db.encodings, b.db.sessions⟩

def verdictLeaves : Shared :=
  match v with
  | .authorized _ _ =>
      { shared b with
        servo := b.servo.unlock
        relock := b.relock.cancelCurrent.start (b.clock + AUTO_RELOCK_SECS)
        doorLocked := false }
  | .unknown _ =>
      if b.flags .autoLockOnUnknown ∧ b.db.doorLocked = false then
        { shared b with servo := b.servo.lock, doorLocked := true }
      else shared b
  | _ => shared b

theorem shared_triggered : verdictLeaves (p.triggered b) v = verdictLeaves b v := by
  cases p <;> cases v <;> rfl

theorem shared_conclude : shared (p.conclude snapshot b v) = verdictLeaves b v := by
  cases v with
  | raises => rfl
  | noFace =>
      simp only [Pipeline.conclude]
      split <;> rfl
  | authorized name confidence => rfl
  | unknown confidence =>
      have hreported : shared { b with db := p.reported b confidence snapshot } = shared b := by
        unfold Pipeline.reported
        dsimp only
        split <;> rfl
      simp only [Pipeline.conclude, Pipeline.refuse, verdictLeaves]
      split
      · have hdb := congrArg (fun s => ({ s with servo := b.servo.lock, doorLocked := true } :
          Shared)) hreported
        exact hdb
      · exact hreported

end Tables

theorem shared_perform {p : Pipeline} {b : Process} (sight : Sight) (hruns : p.Runs b) :
    shared (p.perform sight b) = verdictLeaves b (verdict b sight) := by
  rw [perform_eq sight hruns, shared_conclude, shared_triggered]

/-- The alerts that a verdict adds, where the pipeline adds any. -/
def verdictAlerts : Verdict → Bool
  | .noFace => true
  | .unknown _ => true
  | _ => false

theorem length_alerts_conclude (b : Process) (p : Pipeline) (snapshot : Option Base64)
    (v : Verdict) : (p.conclude snapshot b v).db.alerts.length =
      b.db.alerts.length + (p.alerts b && verdictAlerts v).toNat := by
  cases v with
  | raises => simp [Pipeline.conclude, verdictAlerts]
  | authorized name confidence => simp [Pipeline.conclude, verdictAlerts, letIn]; rfl
  | noFace =>
      simp only [Pipeline.conclude]
      cases halerts : p.alerts b <;> simp [verdictAlerts, Database.addAlert]
  | unknown confidence =>
      have hreported : (p.reported b confidence snapshot).alerts.length =
          b.db.alerts.length + (p.alerts b && verdictAlerts (.unknown confidence)).toNat := by
        cases halerts : p.alerts b <;>
          simp [Pipeline.reported, verdictAlerts, halerts, Database.addAlert, Database.addLog]
      simp only [Pipeline.conclude, Pipeline.refuse]
      split <;> exact hreported

theorem length_alerts_perform {p : Pipeline} {b : Process} (sight : Sight) (hruns : p.Runs b) :
    (p.perform sight b).db.alerts.length =
      b.db.alerts.length + (p.alerts b && verdictAlerts (verdict b sight)).toNat := by
  have hstart : (p.triggered b).db.alerts = b.db.alerts := by cases p <;> rfl
  have halerts : p.alerts (p.triggered b) = p.alerts b := by cases p <;> rfl
  rw [perform_eq sight hruns, length_alerts_conclude, hstart, halerts]

/-- Both pipelines stamp the second entry with the same number and time. -/
theorem verdictEntry_triggered (b : Process) (p q : Pipeline) (snapshot : Option Base64)
    (v : Verdict) :
    verdictEntry (p.triggered b) snapshot v = verdictEntry (q.triggered b) snapshot v := by
  have hlength (p : Pipeline) : (p.triggered b).db.logs.length = b.db.logs.length + 1 := by
    cases p <;> simp [Pipeline.triggered, Pipeline.announced, Database.addLog]
  have hclock (p : Pipeline) : (p.triggered b).clock = b.clock := by cases p <;> rfl
  cases v <;> simp [verdictEntry, hlength, hclock]

theorem laterEntries_perform {p : Pipeline} {b : Process} (sight : Sight) (hruns : p.Runs b) :
    laterEntries b (p.perform sight b) =
      (verdictEntry (p.triggered b) (captureSnapshot sight.jpeg) (verdict b sight)).toList := by
  simp [laterEntries, logs_perform sight hruns, List.drop_append]

/-- The answer of a doorbell scan; an exception of the encoder is not caught. -/
def verdictResult : Verdict → Option DoorbellResult
  | .raises => none
  | .noFace => some .noFace
  | .authorized name confidence => some (.authorized name confidence)
  | .unknown confidence => some (.unknown confidence)

theorem result_runDoorbellScan (b : Process) (sight : Sight) :
    ((runDoorbellScan sight).run exec b).1 = verdictResult (verdict b sight) := by
  unfold verdict
  cases hgrab : grabFaceEncoding sight.frames with
  | raises => simp [runDoorbellScan, hgrab, Program.run_call, exec, verdictResult]
  | noFace => simp [runDoorbellScan, hgrab, Program.run_call, exec, verdictResult]
  | face encoding quality =>
      cases hname : recognizedName (compareFace sight.library b.confidenceThreshold encoding
          b.db.getAllFaceEncodings) with
      | some name =>
          simp [runDoorbellScan, hgrab, hname, Program.run_call, exec, verdictResult,
            scheduleRelock]
      | none =>
          cases hauto : b.flags .autoLockOnUnknown <;> cases hflag : b.db.doorLocked <;>
            simp [runDoorbellScan, hgrab, hname, hauto, hflag, Program.run_call, exec,
              verdictResult, Database.getDoorLocked]

/-! ## The comparison -/

theorem sameEffect_perform {b : Process} (sight : Sight) (hruns : motionRuns b) :
    SameEffect b (Pipeline.motion.perform sight b) (Pipeline.doorbell.perform sight b) := by
  have hshared : shared (Pipeline.motion.perform sight b) =
      shared (Pipeline.doorbell.perform sight b) := by
    rw [shared_perform (p := .motion) sight hruns, shared_perform (p := .doorbell) sight trivial]
  refine ⟨congrArg Shared.servo hshared, congrArg Shared.doorLocked hshared,
    congrArg Shared.relock hshared, congrArg Shared.members hshared,
    congrArg Shared.encodings hshared, congrArg Shared.sessions hshared, ?_, fun halerts => ?_⟩
  · refine ⟨_, logs_perform (p := .motion) sight hruns, ?_⟩
    rw [logs_perform (p := .doorbell) sight trivial, verdictEntry_triggered b .doorbell .motion]
  · have hmotion : Pipeline.motion.alerts b = true := halerts
    rw [length_alerts_perform (p := .motion) sight hruns,
      length_alerts_perform (p := .doorbell) sight trivial, hmotion]
    rfl

theorem namesBranch_perform (b : Process) (sight : Sight) :
    NamesBranch b (Pipeline.doorbell.perform sight b)
      (((runDoorbellScan sight).run exec b).1.map DoorbellResult.result) := by
  have hlater := laterEntries_perform (p := .doorbell) (b := b) sight trivial
  have halerts := length_alerts_perform (p := .doorbell) (b := b) sight trivial
  rw [result_runDoorbellScan]
  cases hverdict : verdict b sight <;> rw [hverdict] at hlater halerts <;> constructor <;>
    simp [hlater, halerts, verdictEntry, verdictResult, DoorbellResult.result,
      verdictAlerts, Pipeline.alerts]

/-- From a process in which a motion run would start, the two pipelines do the same to
the door and to the tables, add the same entries after their first one and as many alerts,
and the doorbell answers with the branch that it took. -/
theorem pipelines_agree (b : Process) (sight : Sight)
    (henabled : b.flags .motionDetectionEnabled = true)
    (helapsed : MOTION_COOLDOWN ≤ b.clock - b.lastMotionTime) :
    SameEffect b ((onMotionDetected sight).run exec b).2 ((runDoorbellScan sight).run exec b).2 ∧
      NamesBranch b ((runDoorbellScan sight).run exec b).2
        (((runDoorbellScan sight).run exec b).1.map DoorbellResult.result) := by
  have hdoorbell : Pipeline.doorbell.perform sight b = ((runDoorbellScan sight).run exec b).2 :=
    Program.run_forget (runDoorbellScan sight) b
  rw [← hdoorbell]
  exact ⟨sameEffect_perform sight ⟨henabled, not_lt.mpr helapsed⟩, namesBranch_perform b sight⟩

/-- A stranger at an open door, seen by both. -/
theorem pipelines_agree_stranger :
    let sight : Sight := ⟨fun _ => some (.face [1] 1), some [7], .available fun _ _ => 1⟩
    let b : Process := { Process.boot true none 5 with servo := (ServoController.init true).unlock }
    SameEffect b ((onMotionDetected sight).run exec b).2 ((runDoorbellScan sight).run exec b).2 ∧
      ((runDoorbellScan sight).run exec b).1.map DoorbellResult.result = some "unknown" :=
  ⟨(pipelines_agree _ _ rfl (by simp [Process.boot, MOTION_COOLDOWN])).1, by decide +kernel⟩

end FacialCamera.Recognition
