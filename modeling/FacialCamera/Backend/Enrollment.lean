import FacialCamera.Backend.State
import FacialCamera.Backend.Camera
import Mathlib.Algebra.Order.Ring.Rat

/-! # The member and enrollment handlers of `main.py`

The three capture endpoints are one sequence of steps with different texts and
a different source of the image; only the two uploads `await` their body. An
encoder's outcome on the image is an input, because the detector is a library.
-/

namespace FacialCamera.Backend

/-! ## Members -/

def addMember (name role : String) : Proc (Reply MemberRow) := do
  return .ok (← Db.addMember name role)

def removeMember (m : Uuid) : Proc (Reply Unit) := do
  match ← Db.getMember m with
  | none => return .error ⟨404, "Member not found"⟩
  | some _ =>
      Db.deleteFaceEncodings m
      Db.deleteMember m
      return .ok ()

/-! ## Starting and polling -/

structure CaptureGuidance where
  minFrames : Nat
  requiredAngles : List String
  minQualityScore : ℚ
  minLivenessScore : ℚ
  deriving DecidableEq

def captureGuidance : CaptureGuidance where
  minFrames := 3
  requiredAngles := ["front", "left", "right"]
  minQualityScore := 7 / 10
  minLivenessScore := 6 / 10

def startEnrollment (m : Uuid) : Proc (Reply (SessionRow × CaptureGuidance)) := do
  match ← Db.getMember m with
  | none => return .error ⟨404, "Member not found"⟩
  | some _ =>
      let session ← Db.createEnrollmentSession m
      return .ok (session, captureGuidance)

/-- The session of that id, where `session["memberId"] != member_id` does not hold. -/
def sessionOf (m s : Uuid) : Proc (Option SessionRow) := do
  match ← Db.getEnrollmentSession s with
  | none => return none
  | some session => return if session.memberId = m then some session else none

def sessionNotFound : HTTPException := ⟨404, "Enrollment session not found"⟩

def pollEnrollment (m s : Uuid) : Proc (Reply SessionRow) := do
  match ← sessionOf m s with
  | none => return .error sessionNotFound
  | some session => return .ok session

/-! ## Capturing -/

/-- What tells the capture endpoints apart. -/
structure CaptureTexts where
  refusal : String
  noFace : Angle → Message
  captured : String → Message
  allCaptured : Message

def uploadTexts : CaptureTexts where
  refusal := "cannot accept captures"
  noFace := .uploadNoFace
  captured := .uploadCaptured
  allCaptured := .uploadAllCaptured

def cameraTexts : CaptureTexts where
  refusal := "cannot capture"
  noFace := .cameraNoFace
  captured := .cameraCaptured
  allCaptured := .cameraAllCaptured

/-- The session lookup and the status check; `none` lets the capture pass. -/
def guardCapture (texts : CaptureTexts) (m s : Uuid) : Proc (Option HTTPException) := do
  match ← sessionOf m s with
  | none => return some sessionNotFound
  | some session =>
      return if session.status.isOpen then none
        else some ⟨400, "Session is '" ++ session.status.text ++ "', " ++ texts.refusal⟩

def captureColumns (captures : Nat) (quality : ℚ) (message : Message) :
    Database.SessionColumns where
  status := some (if captures ≥ 3 then .processing else .capturing)
  progress := some (min 90 (20 + captures * 25))
  qualityScore := some (min (98 / 100) quality)
  livenessScore := some (min (96 / 100) (8 / 10 + captures * (3 / 100)))
  message := some message
  capturesCount := some captures

/-- The message of capture number `captures`; `none` where `angle.upper()` raises. -/
def captureMessage (texts : CaptureTexts) (captures : Nat) (angle : Angle) : Option Message :=
  if captures ≥ 3 then some texts.allCaptured
  else
    match angle with
    | .text a => some (texts.captured a)
    | _ => none

/-- From the encoder call to the end of a capture endpoint. -/
def recordCapture (texts : CaptureTexts) (m s : Uuid) (angle : Angle) (image : EncoderOutcome) :
    Proc (Reply (Option SessionRow)) := do
  match image with
  | .raises => .fault
  | .noFace =>
      Db.updateEnrollmentSession s { message := some (texts.noFace angle) }
      return .ok (← Db.getEnrollmentSession s)
  | .face encoding quality =>
      Db.storeFaceEncoding m encoding angle
      let captures := (← Db.selectCapturesCount s).getD 0 + 1
      match captureMessage texts captures angle with
      | none => .fault
      | some message =>
          Db.updateEnrollmentSession s (captureColumns captures quality message)
          return .ok (← Db.getEnrollmentSession s)

def uploadCapture (m s : Uuid) (angle : String) (image : EncoderOutcome) :
    Proc (Reply (Option SessionRow)) := do
  match ← guardCapture uploadTexts m s with
  | some refusal => return .error refusal
  | none =>
      issue .readBody
      recordCapture uploadTexts m s (.text angle) image

/-- The JSON body of a base64 capture; a falsy value is `none`. -/
structure CaptureBody where
  angle : Option Angle
  image : Option EncoderOutcome
  deriving DecidableEq

/-- After the body is read; `none` where it is not a JSON object. -/
def recordBody (m s : Uuid) (body : Option CaptureBody) : Proc (Reply (Option SessionRow)) :=
  match body with
  | none => .fault
  | some ⟨some angle, some image⟩ => recordCapture uploadTexts m s angle image
  | some _ => return .error ⟨400, "angle and imageBase64 required"⟩

def uploadCaptureB64 (m s : Uuid) (body : Option CaptureBody) :
    Proc (Reply (Option SessionRow)) := do
  match ← guardCapture uploadTexts m s with
  | some refusal => return .error refusal
  | none =>
      issue .readBody
      recordBody m s body

def piCameraCapture (m s : Uuid) (angle : String) (frame : Option EncoderOutcome) :
    Proc (Reply (Option SessionRow)) := do
  match ← guardCapture cameraTexts m s with
  | some refusal => return .error refusal
  | none =>
      match frame with
      | none => return .error ⟨503, "Camera not available"⟩
      | some image => recordCapture cameraTexts m s (.text angle) image

/-! ## Completing, cancelling, removing -/

structure Template where
  templateId : Uuid
  version : Nat
  enrolledAt : Timestamp
  encryptedAtRest : Bool := true
  deriving DecidableEq

def completedColumns (now : Timestamp) : Database.SessionColumns where
  status := some .completed
  progress := some 100
  message := some .completed
  completedAt := some now

def completeEnrollment (m s : Uuid) : Proc (Reply (MemberRow × Template)) := do
  match ← sessionOf m s with
  | none => return .error sessionNotFound
  | some session =>
      let now ← issue .now
      Db.updateEnrollmentSession s (completedColumns now)
      Db.updateMemberFaceEnrolled m true (some session.livenessScore)
      let member ← Db.getMember m
      let templateId ← issue .uuid4
      match member with
      | none => .fault
      | some member =>
          return .ok (member,
            { templateId, version := member.faceProfileVersion, enrolledAt := now })

def cancelledColumns : Database.SessionColumns where
  status := some .cancelled
  message := some .cancelled

def cancelEnrollment (m s : Uuid) : Proc (Reply Unit) := do
  match ← sessionOf m s with
  | none => return .ok ()
  | some _ =>
      Db.updateEnrollmentSession s cancelledColumns
      return .ok ()

def removeFaceTemplate (m : Uuid) : Proc (Reply (Option MemberRow)) := do
  match ← Db.getMember m with
  | none => return .error ⟨404, "Member not found"⟩
  | some _ =>
      Db.deleteFaceEncodings m
      Db.updateMemberFaceEnrolled m false none
      return .ok (← Db.getMember m)

end FacialCamera.Backend
