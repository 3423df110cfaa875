import FacialCamera.Backend.Api
import FacialCamera.Core.Locks

/-! # The locks of `main.py` and `camera.py`

The same handlers with the locks that they take: the event loop runs one handler at a time and
goes on with others where it awaits a body, `_doorbell_lock` is taken around a scan,
`_motion_lock` around the cooldown, `_face_lock` around the calls of the face library, and the
camera's `_lock` around its frame and its JPEG. Any call may raise. The spin threads share the
servo's `_busy` among themselves only and are left to the model of the servo.
-/

namespace FacialCamera.Backend

open FacialCamera.Core

inductive Lock where
  /-- The thread of the event loop. -/
  | loop
  | doorbell
  | motion
  | face
  | camera
  deriving DecidableEq

/-- What the threads do between taking and giving back locks: the calls on the process, and
those on the camera and the face library. -/
inductive Work (Image : Type) where
  | process (c : Call)
  /-- `self._latest_frame`, at this attempt of a run. -/
  | latestFrame (attempt : Nat)
  | latestJpeg
  /-- `_read_frame` of the capture loop. -/
  | readFrame
  /-- `_correct_noir` and `_encode_jpeg`. -/
  | develop (frame : Image)
  | publish (frame : Image) (jpeg : Jpeg)
  | encodeFaceFromImage (frame : Image)
  | encodeFaceFromJpeg (jpeg : Jpeg)
  | compareFace (unknown : Encoding) (known : List KnownEntry)

variable {Image : Type}

@[reducible] def Work.Answer : Work Image → Type
  | .process c => Backend.Answer c
  | .latestFrame _ => Option Image
  | .latestJpeg => Option Jpeg
  | .readFrame => Option Image
  | .develop _ => Image × Jpeg
  | .publish _ _ => Unit
  | .encodeFaceFromImage _ => Option (Encoding × ℚ)
  | .encodeFaceFromJpeg _ => Option (Encoding × ℚ)
  | .compareFace _ _ => Option Uuid × Option String × ℚ

namespace Locked

open Program (attempt withLock)

abbrev Proc (Image α : Type) : Type := Locking Lock (Work Image) Work.Answer α

def work (w : Work Image) : Proc Image w.Answer := attempt w

def plain {α : Type} (p : Backend.Proc α) : Proc Image α :=
  p.translate fun c => work (.process c)

/-! ## The camera -/

def getFrameRgb (attempt : Nat) : Proc Image (Option Image) :=
  withLock .camera (work (.latestFrame attempt))

/-- `get_jpeg` and `capture_single_jpeg`. -/
def getJpeg : Proc Image (Option Jpeg) := withLock .camera (work .latestJpeg)

/-- One turn of the loop of `generate_mjpeg`. -/
def generateMjpeg : Proc Image Unit := do
  let _ ← getJpeg

/-- One turn of `_capture_loop`, whose exceptions are logged. -/
def captureLoop : Proc Image Unit :=
  Program.recovering do
    match ← work .readFrame with
    | none => return
    | some image =>
        let (frame, jpeg) ← work (.develop image)
        withLock .camera (work (.publish frame jpeg))

/-! ## The recognition pipelines -/

def grabAttempts : List Nat → Proc Image (Option (Encoding × ℚ))
  | [] => return none
  | attempt :: rest => do
      match ← getFrameRgb attempt with
      | none => grabAttempts rest
      | some frame =>
          match ← work (.encodeFaceFromImage frame) with
          | some face => return some face
          | none => grabAttempts rest

def grabFaceEncoding : Proc Image (Option (Encoding × ℚ)) := grabAttempts (List.range 3)

def captureSnapshot : Proc Image (Option Base64) := do
  return Backend.captureSnapshot (← getJpeg)

/-- The block under `_face_lock` of both pipelines: the snapshot and the outcome of
`compare_face`, or none after the alert of a run without a face. -/
def scan (noFace : Backend.Proc Unit) :
    Proc Image (Option (Option Base64 × Option Uuid × Option String × ℚ)) :=
  withLock .face do
    match ← grabFaceEncoding with
    | none =>
        plain noFace
        return none
    | some (encoding, _) =>
        let snapshot ← captureSnapshot
        let known ← plain Db.getAllFaceEncodings
        return some (snapshot, ← work (.compareFace encoding known))

def onMotionDetected : Proc Image Unit := do
  if !(← plain (readFlag .motionDetectionEnabled)) then return
  if !(← withLock .motion (plain (issue .claimMotion))) then return
  plain (Db.addLog .motion "" none none)
  let scanned ← scan do
    if ← readFlag .motionAlertsEnabled then
      Db.addAlert .motionNoFace
  match scanned with
  | none => return
  | some (snapshot, outcome) =>
      let confidence := outcome.2.2
      match recognizedName outcome with
      | some name => plain do
          Db.addLog .authorized name (some confidence) snapshot
          Servo.unlock
          Db.setDoorLocked false
          scheduleRelock
      | none => plain do
          Db.addLog .unknown "Unknown person" (some confidence) snapshot
          if ← readFlag .motionAlertsEnabled then
            Db.addAlert (.motionUnknown confidence)
          if ← readFlag .autoLockOnUnknown then
            if !(← Db.getDoorLocked) then
              Servo.lock
              Db.setDoorLocked true

def runDoorbellScan : Proc Image DoorbellResult := do
  plain (Db.addLog .doorbell "Doorbell pressed" none none)
  match ← scan (Db.addAlert .doorbellNoFace) with
  | none => return .noFace
  | some (snapshot, outcome) =>
      let confidence := outcome.2.2
      match recognizedName outcome with
      | some name => plain do
          Db.addLog .authorized name (some confidence) snapshot
          Servo.unlock
          Db.setDoorLocked false
          scheduleRelock
          return .authorized name confidence
      | none => plain do
          Db.addLog .unknown "Unknown person" (some confidence) snapshot
          Db.addAlert (.doorbellUnknown confidence)
          if ← readFlag .autoLockOnUnknown then
            if !(← Db.getDoorLocked) then
              Servo.lock
              Db.setDoorLocked true
          return .unknown confidence

def doorbell : Proc Image DoorbellResult := withLock .doorbell runDoorbellScan

/-! ## The captures -/

/-- What an encoder call that has not raised leaves to record. -/
def outcomeOf : Option (Encoding × ℚ) → EncoderOutcome
  | none => .noFace
  | some (encoding, quality) => .face encoding quality

def recordCapture (texts : CaptureTexts) (m s : Uuid) (angle : Backend.Angle)
    (encode : Proc Image (Option (Encoding × ℚ))) : Proc Image (Reply (Option SessionRow)) := do
  let face ← withLock .face encode
  plain (Backend.recordCapture texts m s angle (outcomeOf face))

def uploadCapture (m s : Uuid) (angle : String) (image : Jpeg) :
    Proc Image (Reply (Option SessionRow)) := do
  match ← withLock .loop (plain (guardCapture uploadTexts m s)) with
  | some refusal => return .error refusal
  | none =>
      plain (issue .readBody)
      withLock .loop
        (recordCapture uploadTexts m s (.text angle) (work (.encodeFaceFromJpeg image)))

def recordBody (m s : Uuid) (body : Option ImageBody) : Proc Image (Reply (Option SessionRow)) :=
  match body with
  | none => .fault
  | some ⟨some _, some none⟩ => .fault
  | some ⟨some angle, some (some image)⟩ =>
      recordCapture uploadTexts m s angle (work (.encodeFaceFromJpeg image))
  | some _ => return .error ⟨400, "angle and imageBase64 required"⟩

def uploadCaptureB64 (m s : Uuid) (body : Option ImageBody) :
    Proc Image (Reply (Option SessionRow)) := do
  match ← withLock .loop (plain (guardCapture uploadTexts m s)) with
  | some refusal => return .error refusal
  | none =>
      plain (issue .readBody)
      withLock .loop (recordBody m s body)

def piCameraCapture (m s : Uuid) (angle : String) : Proc Image (Reply (Option SessionRow)) := do
  match ← plain (guardCapture cameraTexts m s) with
  | some refusal => return .error refusal
  | none =>
      match ← getFrameRgb 0 with
      | none => return .error ⟨503, "Camera not available"⟩
      | some frame =>
          recordCapture cameraTexts m s (.text angle) (work (.encodeFaceFromImage frame))

/-! ## The routes -/

def handler (seen : Surroundings) : ApiRequest → Proc Image (Reply Body)
  | .uploadCapture m s angle image => do
      return (← uploadCapture m s angle image).map .session
  | .uploadCaptureB64 m s body => do return (← uploadCaptureB64 m s body).map .session
  | .piCameraCapture m s angle =>
      withLock .loop do return (← piCameraCapture m s angle).map .session
  | .doorbell => withLock .loop do return .ok (.doorbell (← doorbell))
  | a => withLock .loop (plain (a.handler seen))

end Locked

end FacialCamera.Backend
