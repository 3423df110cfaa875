import FacialCamera.Door.Operations
import FacialCamera.Recognition.Compare

/-! # What a recognition run leaves behind

The motion pipeline and the doorbell pipeline are one sequence of steps with
different texts, a rate limit on the first and a switch for its alerts. A run is
described once by its verdict; the results on entries, unlocks and thresholds
read their part off this description.
-/

namespace FacialCamera.Recognition

open FacialCamera.Core Backend Door

inductive Pipeline where
  | motion
  | doorbell
  deriving DecidableEq

namespace Pipeline

def program (sight : Sight) : Pipeline → Proc Unit
  | .motion => onMotionDetected sight
  | .doorbell => (runDoorbellScan sight).forget

def perform (p : Pipeline) (sight : Sight) (b : Process) : Process :=
  ((p.program sight).run exec b).2

/-- Detection is on and the cooldown is over; a doorbell always runs. -/
def Runs (b : Process) : Pipeline → Prop
  | .motion => motionRuns b
  | .doorbell => True

instance (b : Process) : (p : Pipeline) → Decidable (p.Runs b)
  | .motion => inferInstanceAs (Decidable (motionRuns b))
  | .doorbell => inferInstanceAs (Decidable True)

/-- The pipeline adds alerts; the doorbell does so whatever the settings. -/
def alerts (b : Process) : Pipeline → Bool
  | .motion => b.flags .motionAlertsEnabled
  | .doorbell => true

def noFace : Pipeline → AlertLabel
  | .motion => .motionNoFace
  | .doorbell => .doorbellNoFace

def unknown (confidence : ℚ) : Pipeline → AlertLabel
  | .motion => .motionUnknown confidence
  | .doorbell => .doorbellUnknown confidence

def claimed (b : Process) : Pipeline → Process
  | .motion => { b with lastMotionTime := b.clock }
  | .doorbell => b

def announced (b : Process) : Pipeline → Database
  | .motion => b.db.addLog .motion "" none none b.clock
  | .doorbell => b.db.addLog .doorbell "Doorbell pressed" none none b.clock

def triggered (b : Process) (p : Pipeline) : Process := { p.claimed b with db := p.announced b }

end Pipeline

/-! ## The end of a run -/

def letIn (b : Process) (name : String) (confidence : ℚ) (snapshot : Option Base64) : Process :=
  { b with
    db := (b.db.addLog .authorized name (some confidence) snapshot b.clock).setDoorLocked false
    servo := b.servo.unlock
    relock := b.relock.cancelCurrent.start (b.clock + AUTO_RELOCK_SECS) }

namespace Pipeline

def reported (b : Process) (confidence : ℚ) (snapshot : Option Base64) (p : Pipeline) :
    Database :=
  let db := b.db.addLog .unknown "Unknown person" (some confidence) snapshot b.clock
  if p.alerts b then db.addAlert (p.unknown confidence) b.clock else db

def refuse (b : Process) (confidence : ℚ) (snapshot : Option Base64) (p : Pipeline) : Process :=
  if b.flags .autoLockOnUnknown ∧ b.db.doorLocked = false then
    { b with db := (p.reported b confidence snapshot).setDoorLocked true, servo := b.servo.lock }
  else { b with db := p.reported b confidence snapshot }

def conclude (p : Pipeline) (snapshot : Option Base64) (b : Process) : Verdict → Process
  | .raises => b
  | .noFace => if p.alerts b then { b with db := b.db.addAlert p.noFace b.clock } else b
  | .authorized name confidence => letIn b name confidence snapshot
  | .unknown confidence => p.refuse b confidence snapshot

end Pipeline

section Effects

attribute [local simp] Program.run_call exec Program.run_forget Database.getDoorLocked
  Pipeline.conclude Pipeline.triggered Pipeline.claimed Pipeline.announced Pipeline.alerts
  Pipeline.noFace Pipeline.unknown Pipeline.refuse Pipeline.reported letIn scheduleRelock

variable (b : Process) (sight : Sight)

theorem perform_doorbell : Pipeline.doorbell.perform sight b =
    Pipeline.doorbell.conclude (captureSnapshot sight.jpeg) (Pipeline.doorbell.triggered b)
      (verdict b sight) := by
  unfold Pipeline.perform Pipeline.program verdict
  cases hgrab : grabFaceEncoding sight.frames with
  | raises => simp [runDoorbellScan, hgrab]
  | noFace => simp [runDoorbellScan, hgrab]
  | face encoding quality =>
      cases hname : recognizedName (compareFace sight.library b.confidenceThreshold encoding
          b.db.getAllFaceEncodings) with
      | some name => simp [runDoorbellScan, hgrab, hname]
      | none =>
          cases hauto : b.flags .autoLockOnUnknown <;> cases hflag : b.db.doorLocked <;>
            simp [runDoorbellScan, hgrab, hname, hauto, hflag]

theorem perform_motion (hruns : motionRuns b) : Pipeline.motion.perform sight b =
    Pipeline.motion.conclude (captureSnapshot sight.jpeg) (Pipeline.motion.triggered b)
      (verdict b sight) := by
  have henabled := hruns.1
  have hclaim := Process.claimMotion_of_not_lt hruns.2
  unfold Pipeline.perform Pipeline.program verdict
  cases hgrab : grabFaceEncoding sight.frames with
  | raises => simp [onMotionDetected, henabled, hclaim, hgrab]
  | noFace =>
      cases halerts : b.flags .motionAlertsEnabled <;>
        simp [onMotionDetected, henabled, hclaim, hgrab, halerts]
  | face encoding quality =>
      cases hname : recognizedName (compareFace sight.library b.confidenceThreshold encoding
          b.db.getAllFaceEncodings) with
      | some name => simp [onMotionDetected, henabled, hclaim, hgrab, hname]
      | none =>
          cases halerts : b.flags .motionAlertsEnabled <;>
            cases hauto : b.flags .autoLockOnUnknown <;> cases hflag : b.db.doorLocked <;>
            simp [onMotionDetected, henabled, hclaim, hgrab, hname, halerts, hauto, hflag]

theorem perform_motion_of_not_runs (hruns : ¬ motionRuns b) :
    Pipeline.motion.perform sight b = b := by
  unfold Pipeline.perform Pipeline.program
  by_cases henabled : b.flags .motionDetectionEnabled = true
  · have hcooldown : b.clock - b.lastMotionTime < MOTION_COOLDOWN := by
      by_contra h
      exact hruns ⟨henabled, h⟩
    simp [onMotionDetected, henabled, Process.claimMotion_of_lt hcooldown]
  · simp [onMotionDetected, henabled]

end Effects

/-- A run by its verdict. -/
theorem perform_eq {p : Pipeline} {b : Process} (sight : Sight) (hruns : p.Runs b) :
    p.perform sight b =
      p.conclude (captureSnapshot sight.jpeg) (p.triggered b) (verdict b sight) := by
  cases p with
  | motion => exact perform_motion b sight hruns
  | doorbell => exact perform_doorbell b sight

/-- Who a verdict lets in: a known entry that `compare_face` answered with, under a name
that is not empty. -/
theorem verdict_eq_authorized {b : Process} {sight : Sight} {name : String} {confidence : ℚ}
    (h : verdict b sight = .authorized name confidence) :
    ∃ encoding quality, grabFaceEncoding sight.frames = .face encoding quality ∧
      ∃ k ∈ b.db.getAllFaceEncodings, k.name = name ∧ name ≠ "" ∧
        compareFace sight.library b.confidenceThreshold encoding b.db.getAllFaceEncodings =
          (some k.memberId, some name, confidence) := by
  unfold verdict at h
  cases hgrab : grabFaceEncoding sight.frames with
  | raises => simp [hgrab] at h
  | noFace => simp [hgrab] at h
  | face encoding quality =>
      simp only [hgrab] at h
      refine ⟨encoding, quality, rfl, ?_⟩
      rcases compareFace_entry sight.library b.confidenceThreshold encoding
        b.db.getAllFaceEncodings with ⟨k, hk, confidence', hanswer⟩ | ⟨confidence', hanswer⟩
      · by_cases hname : k.name = ""
        · simp [hanswer, recognizedName, hname] at h
        · obtain ⟨rfl, rfl⟩ : k.name = name ∧ confidence' = confidence := by
            simpa [hanswer, recognizedName, hname] using h
          exact ⟨k, hk, rfl, hname, hanswer⟩
      · simp [hanswer, recognizedName] at h

/-! ## Log entries -/

namespace Pipeline

def trigger (b : Process) : Pipeline → LogRow
  | .motion =>
      { id := b.db.logs.length + 1, type := .motion, name := "", timestamp := b.clock,
        confidence := none, snapshot := none }
  | .doorbell =>
      { id := b.db.logs.length + 1, type := .doorbell, name := "Doorbell pressed",
        timestamp := b.clock, confidence := none, snapshot := none }

end Pipeline

def verdictEntry (b : Process) (snapshot : Option Base64) : Verdict → Option LogRow
  | .authorized name confidence =>
      some { id := b.db.logs.length + 1, type := .authorized, name, timestamp := b.clock,
             confidence := some confidence, snapshot }
  | .unknown confidence =>
      some { id := b.db.logs.length + 1, type := .unknown, name := "Unknown person",
             timestamp := b.clock, confidence := some confidence, snapshot }
  | _ => none

theorem logs_conclude (p : Pipeline) (snapshot : Option Base64) (b : Process) (v : Verdict) :
    (p.conclude snapshot b v).db.logs = b.db.logs ++ (verdictEntry b snapshot v).toList := by
  cases v with
  | raises => exact (List.append_nil _).symm
  | noFace =>
      simp only [Pipeline.conclude]
      split <;> exact (List.append_nil _).symm
  | authorized name confidence => rfl
  | unknown confidence =>
      have hreported : (p.reported b confidence snapshot).logs =
          b.db.logs ++ (verdictEntry b snapshot (.unknown confidence)).toList := by
        unfold Pipeline.reported
        dsimp only
        split <;> rfl
      simp only [Pipeline.conclude, Pipeline.refuse]
      split <;> exact hreported

/-- The entries of a run. -/
theorem logs_perform {p : Pipeline} {b : Process} (sight : Sight) (hruns : p.Runs b) :
    (p.perform sight b).db.logs = b.db.logs ++ (p.trigger b ::
      (verdictEntry (p.triggered b) (captureSnapshot sight.jpeg) (verdict b sight)).toList) := by
  have hstart : (p.triggered b).db.logs = b.db.logs ++ [p.trigger b] := by cases p <;> rfl
  rw [perform_eq sight hruns, logs_conclude, hstart, List.append_assoc]
  rfl

/-! ## Counting unlocks -/

/-- The spins that were started to unlock. -/
def openingSpins (b : Process) : Nat := b.servo.spins.countP fun s => s.duty = SERVO_UNLOCKED_DUTY

def unlocks {α : Type} (p : Proc α) (b : Process) : Nat :=
  (p.visits exec b).countP fun v => v.1 = .servoUnlock

theorem openingSpins_of_lock {b b' : Process} (h : b'.servo = b.servo.lock) :
    openingSpins b' = openingSpins b := by
  simp [openingSpins, h, ServoController.lock, ServoController.spin, SERVO_LOCKED_DUTY,
    SERVO_UNLOCKED_DUTY]

theorem openingSpins_of_unlock {b b' : Process} (h : b'.servo = b.servo.unlock) :
    openingSpins b' = openingSpins b + 1 := by
  simp [openingSpins, h, ServoController.unlock, ServoController.spin]

theorem exec_openingSpins {c : Call} {b b' : Process} {r : Answer c}
    (h : exec c b = some (r, b')) :
    openingSpins b' = openingSpins b + (decide (c = .servoUnlock)).toNat := by
  have hservo := (exec_frame h).servo
  cases c
  case servoLock => exact openingSpins_of_lock hservo
  case servoUnlock => exact openingSpins_of_unlock hservo
  all_goals simp [openingSpins, hservo, servoAfter]

theorem servoUnlock_answers {c : Call} {b : Process} (h : exec c b = none) :
    decide (c = .servoUnlock) = false := by
  cases c <;> first | rfl | simp [exec] at h

/-- The commands issued are the spins started. -/
theorem openingSpins_run {α : Type} (p : Proc α) (b : Process) :
    openingSpins (p.run exec b).2 = openingSpins b + unlocks p b :=
  p.visits_countP (fun _ _ _ _ h => exec_openingSpins h) (fun _ _ h => servoUnlock_answers h) b

def admits : Verdict → Bool
  | .authorized _ _ => true
  | _ => false

theorem openingSpins_conclude (p : Pipeline) (snapshot : Option Base64) (b : Process)
    (v : Verdict) : openingSpins (p.conclude snapshot b v) = openingSpins b + (admits v).toNat := by
  cases v with
  | raises => rfl
  | noFace =>
      simp only [Pipeline.conclude]
      split <;> rfl
  | authorized name confidence => exact openingSpins_of_unlock rfl
  | unknown confidence =>
      simp only [Pipeline.conclude, Pipeline.refuse]
      split
      · exact openingSpins_of_lock rfl
      · rfl

theorem openingSpins_perform {p : Pipeline} {b : Process} (sight : Sight) (hruns : p.Runs b) :
    openingSpins (p.perform sight b) = openingSpins b + (admits (verdict b sight)).toNat := by
  have hstart : openingSpins (p.triggered b) = openingSpins b := by cases p <;> rfl
  rw [perform_eq sight hruns, openingSpins_conclude, hstart]

/-- A run unlocks once if its verdict lets somebody in, and never otherwise. -/
theorem unlocks_program {p : Pipeline} {b : Process} (sight : Sight) (hruns : p.Runs b) :
    unlocks (p.program sight) b = (admits (verdict b sight)).toNat := by
  have hspins := openingSpins_run (p.program sight) b
  rw [← Pipeline.perform, openingSpins_perform sight hruns] at hspins
  omega

end FacialCamera.Recognition
