import FacialCamera.Backend.State
import FacialCamera.Backend.Camera

/-! # The door handlers of `main.py`

The relock callback, the two manual endpoints and the two recognition pipelines.
The pipelines are written twice in the source and are kept apart here. What a
run sees (frames, the JPEG of the moment, the library's distances) is its input.
The locks, which guard no state of the process but the cooldown, are added to
these handlers in a module of their own.
-/

namespace FacialCamera.Backend

/-! ## Relocking -/

/-- `_do_relock`, the callback of every relock timer. -/
def doRelock : Proc Unit := do
  if !(← Db.getDoorLocked) then
    Servo.lock
    Db.setDoorLocked true

def scheduleRelock : Proc Unit := do
  issue .cancelRelockTimer
  issue .startRelockTimer

/-! ## Manual control -/

structure DoorStatus where
  locked : Bool
  deriving DecidableEq

def doorStatus : Proc DoorStatus := do
  return ⟨← Db.getDoorLocked⟩

def doorLock : Proc DoorStatus := do
  issue .cancelRelockTimer
  Servo.lock
  Db.setDoorLocked true
  Db.addLog .manualLock "Locked via app" none none
  return ⟨true⟩

def doorUnlock : Proc DoorStatus := do
  Servo.unlock
  Db.setDoorLocked false
  scheduleRelock
  Db.addLog .manualLock "Unlocked via app" none none
  return ⟨false⟩

/-! ## The recognition pipelines -/

/-- What one run of a pipeline sees: at each attempt no frame or the encoder's
outcome on it, then the JPEG buffer and the face library. -/
structure Sight where
  frames : Nat → Option EncoderOutcome
  jpeg : Option Jpeg
  library : FaceLibrary

def grabAttempts (frames : Nat → Option EncoderOutcome) : List Nat → EncoderOutcome
  | [] => .noFace
  | attempt :: rest =>
      match frames attempt with
      | none => grabAttempts frames rest
      | some .noFace => grabAttempts frames rest
      | some .raises => .raises
      | some (.face encoding quality) => .face encoding quality

def grabFaceEncoding (frames : Nat → Option EncoderOutcome) : EncoderOutcome :=
  grabAttempts frames (List.range 3)

/-- No snapshot where the buffer is missing or empty. -/
def captureSnapshot : Option Jpeg → Option Base64
  | some (byte :: bytes) => some ⟨byte :: bytes⟩
  | _ => none

/-- The name to let in: `if member_id and name`, where an id is never empty. -/
def recognizedName : Option Uuid × Option String × ℚ → Option String
  | (some _, some name, _) => if name = "" then none else some name
  | _ => none

def onMotionDetected (sight : Sight) : Proc Unit := do
  if !(← readFlag .motionDetectionEnabled) then return
  if !(← issue .claimMotion) then return
  Db.addLog .motion "" none none
  match grabFaceEncoding sight.frames with
  | .raises => .fault
  | .noFace =>
      if ← readFlag .motionAlertsEnabled then
        Db.addAlert .motionNoFace
  | .face encoding _ =>
      let snapshot := captureSnapshot sight.jpeg
      let known ← Db.getAllFaceEncodings
      let outcome := compareFace sight.library (← issue .readThreshold) encoding known
      let confidence := outcome.2.2
      match recognizedName outcome with
      | some name =>
          Db.addLog .authorized name (some confidence) snapshot
          Servo.unlock
          Db.setDoorLocked false
          scheduleRelock
      | none =>
          Db.addLog .unknown "Unknown person" (some confidence) snapshot
          if ← readFlag .motionAlertsEnabled then
            Db.addAlert (.motionUnknown confidence)
          if ← readFlag .autoLockOnUnknown then
            if !(← Db.getDoorLocked) then
              Servo.lock
              Db.setDoorLocked true

/-- The `result` of a doorbell scan, with the data its message is built from. -/
inductive DoorbellResult where
  | noFace
  | authorized (name : String) (confidence : ℚ)
  | unknown (confidence : ℚ)
  deriving DecidableEq

namespace DoorbellResult

def result : DoorbellResult → String
  | .noFace => "no_face"
  | .authorized _ _ => "authorized"
  | .unknown _ => "unknown"

def message : DoorbellResult → String
  | .noFace => "No face detected in camera frame"
  | .authorized name _ => "Welcome, " ++ name ++ "! Door unlocked."
  | .unknown _ => "Unknown person. Access denied."

end DoorbellResult

def runDoorbellScan (sight : Sight) : Proc DoorbellResult := do
  Db.addLog .doorbell "Doorbell pressed" none none
  match grabFaceEncoding sight.frames with
  | .raises => .fault
  | .noFace =>
      Db.addAlert .doorbellNoFace
      return .noFace
  | .face encoding _ =>
      let snapshot := captureSnapshot sight.jpeg
      let known ← Db.getAllFaceEncodings
      let outcome := compareFace sight.library (← issue .readThreshold) encoding known
      let confidence := outcome.2.2
      match recognizedName outcome with
      | some name =>
          Db.addLog .authorized name (some confidence) snapshot
          Servo.unlock
          Db.setDoorLocked false
          scheduleRelock
          return .authorized name confidence
      | none =>
          Db.addLog .unknown "Unknown person" (some confidence) snapshot
          Db.addAlert (.doorbellUnknown confidence)
          if ← readFlag .autoLockOnUnknown then
            if !(← Db.getDoorLocked) then
              Servo.lock
              Db.setDoorLocked true
          return .unknown confidence

/-! ## Runtime settings -/

structure MotionSettings where
  motionDetection : Bool
  motionAlerts : Bool
  deriving DecidableEq

def setMotionSettings (detection alerts : Option Bool) : Proc MotionSettings := do
  if let some value := detection then writeFlag .motionDetectionEnabled value
  if let some value := alerts then writeFlag .motionAlertsEnabled value
  return ⟨← readFlag .motionDetectionEnabled, ← readFlag .motionAlertsEnabled⟩

def setAutolock (enabled : Bool) : Proc Bool := do
  writeFlag .autoLockOnUnknown enabled
  readFlag .autoLockOnUnknown

end FacialCamera.Backend
