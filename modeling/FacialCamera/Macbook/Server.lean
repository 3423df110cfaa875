import FacialCamera.Core.Program
import FacialCamera.Backend.Database

/-! # The MacBook enrollment server

The shared state of `enroll_server.py`, its route handlers and the capture worker
of its main thread. One status and one dictionary of images serve every client;
neither says whose enrollment it belongs to. The webcam and the keyboard are an
input of a capture, because OpenCV is a library.
-/

namespace FacialCamera.Macbook

open FacialCamera.Core
open Backend (Uuid Jpeg)

inductive Angle where
  | front
  | left
  | right
  deriving DecidableEq

def Angle.text : Angle → String
  | .front => "front"
  | .left => "left"
  | .right => "right"

def Angle.upper : Angle → String
  | .front => "FRONT"
  | .left => "LEFT"
  | .right => "RIGHT"

def ANGLES : List Angle := [.front, .left, .right]

def ANGLE_INSTRUCTIONS : Angle → String
  | .front => "Look straight at the camera"
  | .left => "Turn your head slightly LEFT"
  | .right => "Turn your head slightly RIGHT"

/-! ## Shared state -/

/-- The texts of `status["status"]`. -/
inductive Stage where
  | idle
  | starting
  | capturing
  | capturedAll
  | error
  deriving DecidableEq

structure CaptureStatus where
  status : Stage
  progress : Nat
  message : String
  capturedAngles : Option (List Angle) := none
  deriving DecidableEq

/-- An entry of `capture_queue`. -/
structure Job where
  memberId : Uuid
  sessionId : String
  deriving DecidableEq

/-- JPEG bytes with the job that took them. The server stores the bytes only; `job`
is what the results are about and no function reads it. -/
structure Photo where
  jpeg : Jpeg
  job : Job
  deriving DecidableEq

structure Server where
  status : CaptureStatus
  captureQueue : List Job
  capturedImages : List (Angle × Photo)

def Server.init : Server := ⟨⟨.idle, 0, "Ready", none⟩, [], []⟩

namespace Server

variable (v : Server)

def setStatus (status : CaptureStatus) : Server := { v with status }

/-- `list(captured_images.keys())`. -/
def doneAngles : List Angle := v.capturedImages.map Prod.fst

/-- `images[angle] = photo` on a dictionary in insertion order. -/
def assign (angle : Angle) (photo : Photo) : List (Angle × Photo) → List (Angle × Photo)
  | [] => [(angle, photo)]
  | (a, p) :: images =>
      if a = angle then (a, photo) :: images else (a, p) :: assign angle photo images

def storeImage (angle : Angle) (photo : Photo) : Server :=
  { v with capturedImages := assign angle photo v.capturedImages }

theorem mem_assign {angle : Angle} {photo : Photo} {images : List (Angle × Photo)}
    {entry : Angle × Photo} (h : entry ∈ assign angle photo images) :
    entry ∈ images ∨ entry = (angle, photo) := by
  induction images with
  | nil => exact Or.inr (by simpa [assign] using h)
  | cons head images ih =>
      simp only [assign] at h
      split at h
      case isTrue ha =>
        rcases List.mem_cons.mp h with rfl | h
        · exact Or.inr (by rw [ha])
        · exact Or.inl (List.mem_cons_of_mem _ h)
      case isFalse =>
        rcases List.mem_cons.mp h with rfl | h
        · exact Or.inl List.mem_cons_self
        · exact (ih h).imp_left (List.mem_cons_of_mem _)

/-! ## Routes -/

/-- `jsonify({"error": error}), code`. -/
structure ErrorReply where
  code : Nat
  error : String
  deriving DecidableEq

structure Started where
  status : String
  message : String
  deriving DecidableEq

/-- An empty or missing `memberId` is `none`. -/
def startEnrollment (memberId : Option Uuid) (sessionId : String) :
    Except ErrorReply Started × Server :=
  match memberId with
  | none => (.error ⟨400, "memberId required"⟩, v)
  | some memberId =>
      if v.status.status = .capturing ∨ v.status.status = .starting then
        (.error ⟨409, "Enrollment already in progress"⟩, v)
      else
        (.ok ⟨"started", "Webcam capture starting on MacBook"⟩,
          { v with
            status := ⟨.starting, 0, "Opening MacBook camera...", none⟩
            captureQueue := v.captureQueue ++ [⟨memberId, sessionId⟩] })

def enrollmentStatus : CaptureStatus := v.status

/-- The image travels as base64 text; a `Photo` stands for it. -/
def getCapture (angle : Angle) : Except ErrorReply Photo :=
  match v.capturedImages.lookup angle with
  | none => .error ⟨404, "No capture for angle '" ++ angle.text ++ "'"⟩
  | some photo => .ok photo

theorem mem_of_getCapture {v : Server} {angle : Angle} {photo : Photo}
    (h : v.getCapture angle = .ok photo) : (angle, photo) ∈ v.capturedImages := by
  unfold getCapture at h
  split at h
  · cases h
  next found hlookup =>
    cases h
    obtain ⟨_, _, heq, _⟩ := List.lookup_eq_some_iff.mp hlookup
    rw [heq]
    simp

end Server

/-! ## The capture worker -/

inductive Call where
  | clearImages
  | doneAngles
  | storeImage (angle : Angle) (photo : Photo)
  | setStatus (status : CaptureStatus)

@[reducible] def Answer : Call → Type
  | .doneAngles => List Angle
  | .storeImage _ _ => List Angle
  | _ => Unit

def exec : Interp Call Answer Server
  | .clearImages, v => some ((), { v with capturedImages := [] })
  | .doneAngles, v => some (v.doneAngles, v)
  | .storeImage angle photo, v =>
      some ((v.storeImage angle photo).doneAngles, v.storeImage angle photo)
  | .setStatus status, v => some ((), v.setStatus status)

abbrev Proc (α : Type) : Type := Program Call Answer α

def issue (c : Call) : Proc (Answer c) := .perform c

/-- One turn of the countdown loop. `due` is the turn after the countdown, with the
clean frame, `none` where it cannot be read. -/
inductive Frame where
  | unread
  | shown
  | quit
  | due (clean : Option Jpeg)

/-- What OpenCV does during one capture: the turns of each angle's loop (where they end,
a call raises) and whether a call of the pause after an angle raises. -/
structure Webcam where
  opened : Bool
  frames : Angle → List Frame
  pauseRaises : Angle → Bool
  failure : String

def steadyWebcam (jpeg : Jpeg) : Webcam where
  opened := true
  frames := fun _ => [.due (some jpeg)]
  pauseRaises := fun _ => false
  failure := ""

/-- How `run_capture` ends: before its `try`, by a `return` or the end of it, or by an
exception. -/
inductive Exit where
  | unopened
  | returned
  | raised (failure : String)
  deriving DecidableEq

inductive Countdown where
  | taken (jpeg : Jpeg)
  | failed (message : String)
  | raised

def countdown : List Frame → Countdown
  | [] => .raised
  | .unread :: _ => .failed "Camera read error"
  | .shown :: frames => countdown frames
  | .quit :: _ => .failed "Cancelled by user"
  | .due none :: _ => .failed "Camera read error during capture"
  | .due (some jpeg) :: _ => .taken jpeg

/-- The body of the loop over `ANGLES`; `none` goes on with the next angle. -/
def captureAngle (job : Job) (webcam : Webcam) (i : Nat) (angle : Angle) : Proc (Option Exit) := do
  let doneAngles ← issue .doneAngles
  issue (.setStatus ⟨.capturing, i * 30, "Capturing " ++ angle.text ++ " (" ++ toString (i + 1) ++
    "/3) — " ++ ANGLE_INSTRUCTIONS angle, some doneAngles⟩)
  match countdown (webcam.frames angle) with
  | .raised => return some (.raised webcam.failure)
  | .failed message =>
      issue (.setStatus ⟨.error, 0, message, none⟩)
      return some .returned
  | .taken jpeg =>
      let doneAngles ← issue (.storeImage angle ⟨jpeg, job⟩)
      issue (.setStatus ⟨.capturing, (i + 1) * 30, angle.upper ++ " captured!", some doneAngles⟩)
      return if i < ANGLES.length - 1 ∧ webcam.pauseRaises angle then some (.raised webcam.failure)
        else none

def captureAngles (job : Job) (webcam : Webcam) : Nat → List Angle → Proc Exit
  | _, [] => do
      let angles ← issue .doneAngles
      issue (.setStatus
        ⟨.capturedAll, 90, "All photos captured! Uploading to Pi...", some angles⟩)
      return .returned
  | i, angle :: angles => do
      match ← captureAngle job webcam i angle with
      | some exit => return exit
      | none => captureAngles job webcam (i + 1) angles

/-- `run_capture` without its `finally`. -/
def runCapture (job : Job) (webcam : Webcam) : Proc Exit := do
  issue .clearImages
  if webcam.opened then captureAngles job webcam 0 ANGLES
  else
    issue (.setStatus ⟨.error, 0, "Could not open MacBook webcam", none⟩)
    return .unopened

/-- The `finally`, where `failure` is what its calls raise, and the `except` of `main_loop`. -/
def Server.finish (v : Server) (exit : Exit) (failure : Option String) : Server :=
  match exit, failure with
  | .unopened, _ => v
  | .returned, none => v
  | .returned, some e => v.setStatus ⟨.error, 0, "Capture crashed: " ++ e, none⟩
  | .raised e, none => v.setStatus ⟨.error, 0, "Capture crashed: " ++ e, none⟩
  | .raised _, some e => v.setStatus ⟨.error, 0, "Capture crashed: " ++ e, none⟩

theorem finish_frame (v : Server) (exit : Exit) (failure : Option String) :
    (v.finish exit failure).capturedImages = v.capturedImages ∧
      (v.finish exit failure).captureQueue = v.captureQueue := by
  cases exit <;> cases failure <;> exact ⟨rfl, rfl⟩

/-! ## What a capture stores -/

def Call.storesFor (job : Job) : Call → Prop
  | .storeImage _ photo => photo.job = job
  | _ => True

theorem calls_captureAngle (job : Job) (webcam : Webcam) (i : Nat) (angle : Angle) :
    (captureAngle job webcam i angle).Calls (Call.storesFor job) := by
  unfold captureAngle
  refine ⟨trivial, fun doneAngles => ⟨trivial, fun _ => ?_⟩⟩
  cases countdown (webcam.frames angle) with
  | raised => trivial
  | failed message => exact ⟨trivial, fun _ => trivial⟩
  | taken jpeg => exact ⟨rfl, fun _ => ⟨trivial, fun _ => trivial⟩⟩

theorem calls_captureAngles (job : Job) (webcam : Webcam) (i : Nat) (angles : List Angle) :
    (captureAngles job webcam i angles).Calls (Call.storesFor job) := by
  induction angles generalizing i with
  | nil => exact ⟨trivial, fun _ => ⟨trivial, fun _ => trivial⟩⟩
  | cons angle angles ih =>
      refine (calls_captureAngle job webcam i angle).bind fun exit => ?_
      cases exit with
      | some exit => trivial
      | none => exact ih (i + 1)

/-- A capture begins by clearing the images. -/
theorem runCapture_spec (job : Job) (webcam : Webcam) :
    ∃ rest, runCapture job webcam = .call .clearImages rest ∧
      ∀ r, (rest r).Calls (Call.storesFor job) := by
  refine ⟨fun _ => if webcam.opened then captureAngles job webcam 0 ANGLES
    else .call (.setStatus ⟨.error, 0, "Could not open MacBook webcam", none⟩)
      fun _ => .done .unopened, rfl, fun _ => ?_⟩
  split
  · exact calls_captureAngles job webcam 0 ANGLES
  · exact ⟨trivial, fun _ => trivial⟩

end FacialCamera.Macbook
