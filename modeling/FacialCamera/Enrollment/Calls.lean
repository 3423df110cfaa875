import FacialCamera.Enrollment.Requests

/-! # The calls of the enrollment handlers

Which calls a handler can issue is said once, for every property that the calls
of the member and session tables have. Only the two uploads issue one more, the
`await` of their body.
-/

namespace FacialCamera.Enrollment

open FacialCamera.Core Backend

/-- The calls on members, encodings and sessions, and what else their handlers draw. -/
def deskCall : Call → Bool
  | .getMember _ | .addMember _ _ | .deleteMember _ | .updateMemberFaceEnrolled _ _ _
  | .createEnrollmentSession _ | .getEnrollmentSession _ | .updateEnrollmentSession _ _
  | .selectCapturesCount _ | .storeFaceEncoding _ _ _ | .deleteFaceEncodings _ | .uuid4
  | .now => true
  | _ => false

variable {P : Call → Prop}

theorem calls_sessionOf (hP : ∀ c, deskCall c = true → P c) (m s : Uuid) :
    (sessionOf m s).Calls P := by
  refine ⟨hP _ rfl, fun found => ?_⟩
  cases found with
  | none => trivial
  | some session => trivial

theorem calls_guardCapture (hP : ∀ c, deskCall c = true → P c) (texts : CaptureTexts)
    (m s : Uuid) : (guardCapture texts m s).Calls P := by
  refine (calls_sessionOf hP m s).bind fun found => ?_
  cases found <;> trivial

theorem calls_recordCapture (hP : ∀ c, deskCall c = true → P c) (texts : CaptureTexts)
    (m s : Uuid) (angle : Angle) (image : EncoderOutcome) :
    (recordCapture texts m s angle image).Calls P := by
  cases image with
  | raises => trivial
  | noFace => exact ⟨hP _ rfl, fun _ => ⟨hP _ rfl, fun _ => trivial⟩⟩
  | face encoding quality =>
      refine ⟨hP _ rfl, fun _ => ⟨hP _ rfl, fun count => ?_⟩⟩
      -- the message depends on the count, and `upper` may fault on the angle
      dsimp only [Program.bind]
      split
      · trivial
      · exact ⟨hP _ rfl, fun _ => ⟨hP _ rfl, fun _ => trivial⟩⟩

theorem calls_recordBody (hP : ∀ c, deskCall c = true → P c) (m s : Uuid)
    (body : Option CaptureBody) : (recordBody m s body).Calls P := by
  match body with
  | none => trivial
  | some ⟨some angle, some image⟩ => exact calls_recordCapture hP uploadTexts m s angle image
  | some ⟨none, _⟩ => trivial
  | some ⟨some _, none⟩ => trivial

theorem calls_program (hP : ∀ c, deskCall c = true → P c) {r : Request}
    (hread : r.upload? = none ∨ P .readBody) : r.program.Calls P := by
  cases r with
  | uploadCapture m s angle image =>
      have hread := hread.resolve_left (by simp [Request.upload?])
      refine Program.Calls.forget ((calls_guardCapture hP uploadTexts m s).bind fun refused => ?_)
      cases refused with
      | some _ => trivial
      | none =>
          exact ⟨hread, fun _ => calls_recordCapture hP uploadTexts m s (.text angle) image⟩
  | uploadCaptureB64 m s body =>
      have hread := hread.resolve_left (by simp [Request.upload?])
      refine Program.Calls.forget ((calls_guardCapture hP uploadTexts m s).bind fun refused => ?_)
      cases refused with
      | some _ => trivial
      | none => exact ⟨hread, fun _ => calls_recordBody hP m s body⟩
  | addMember name role => exact ⟨hP _ rfl, fun _ => trivial⟩
  | removeMember m =>
      refine ⟨hP _ rfl, fun found => ?_⟩
      cases found with
      | none => trivial
      | some _ => exact ⟨hP _ rfl, fun _ => ⟨hP _ rfl, fun _ => trivial⟩⟩
  | startEnrollment m =>
      refine ⟨hP _ rfl, fun found => ?_⟩
      cases found with
      | none => trivial
      | some _ => exact ⟨hP _ rfl, fun _ => trivial⟩
  | pollEnrollment m s =>
      refine Program.Calls.forget ((calls_sessionOf hP m s).bind fun found => ?_)
      cases found <;> trivial
  | piCameraCapture m s angle frame =>
      refine Program.Calls.forget ((calls_guardCapture hP cameraTexts m s).bind fun refused => ?_)
      cases refused with
      | some _ => trivial
      | none =>
          cases frame with
          | none => trivial
          | some image => exact calls_recordCapture hP cameraTexts m s (.text angle) image
  | completeEnrollment m s =>
      refine Program.Calls.forget ((calls_sessionOf hP m s).bind fun found => ?_)
      cases found with
      | none => trivial
      | some _ =>
          refine ⟨hP _ rfl, fun _ => ⟨hP _ rfl, fun _ => ⟨hP _ rfl, fun _ => ?_⟩⟩⟩
          refine ⟨hP _ rfl, fun member => ⟨hP _ rfl, fun _ => ?_⟩⟩
          cases member <;> trivial
  | cancelEnrollment m s =>
      refine Program.Calls.forget ((calls_sessionOf hP m s).bind fun found => ?_)
      cases found with
      | none => trivial
      | some _ => exact ⟨hP _ rfl, fun _ => trivial⟩
  | removeFaceTemplate m =>
      refine ⟨hP _ rfl, fun found => ?_⟩
      cases found with
      | none => trivial
      | some _ => exact ⟨hP _ rfl, fun _ => ⟨hP _ rfl, fun _ => ⟨hP _ rfl, fun _ => trivial⟩⟩⟩

end FacialCamera.Enrollment
