import FacialCamera.Enrollment.Requests

/-! # One capture behind three endpoints

The form upload, the base64 upload and the capture with the door camera repeat one
update. On one database they take the same decision and write the same rows, apart
from the message of the session.
-/

namespace FacialCamera.Enrollment

open FacialCamera.Core Backend

inductive Endpoint where
  | uploadCapture
  | uploadCaptureB64
  | piCameraCapture
  deriving DecidableEq

/-- The JSON body with an image that decodes; `if not angle` takes `""` for missing. -/
def jsonBody (angle : String) (image : EncoderOutcome) : CaptureBody where
  angle := if angle = "" then none else some (.text angle)
  image := some image

namespace Endpoint

def program (m s : Uuid) (angle : String) (image : EncoderOutcome) :
    Endpoint → Proc (Reply (Option SessionRow))
  | .uploadCapture => Backend.uploadCapture m s angle image
  | .uploadCaptureB64 => Backend.uploadCaptureB64 m s (some (jsonBody angle image))
  | .piCameraCapture => Backend.piCameraCapture m s angle (some image)

def texts : Endpoint → CaptureTexts
  | .uploadCapture => uploadTexts
  | .uploadCaptureB64 => uploadTexts
  | .piCameraCapture => cameraTexts

/-- Past the guard and the body every endpoint is the same program. -/
def record (m s : Uuid) (angle : String) (image : EncoderOutcome) (e : Endpoint) :
    Proc (Reply (Option SessionRow)) := recordCapture e.texts m s (.text angle) image

end Endpoint

/-- The status code of an answer; an exception in the handler is answered with 500. -/
def statusCode {α : Type} : Option (Reply α) → Nat
  | some (.ok _) => 200
  | some (.error e) => e.status
  | none => 500

def acceptance (db : Database) (m s : Uuid) (image : EncoderOutcome) : Nat :=
  match ownSession db m s with
  | none => 404
  | some session => if session.status.isOpen then (if image = .raises then 500 else 200) else 400

/-- Two databases that differ in nothing but the message of the session `s`. -/
def EqualButMessage (s : Uuid) (db db' : Database) : Prop :=
  db.updateEnrollmentSession s { message := some .created } =
    db'.updateEnrollmentSession s { message := some .created }

/-! ## The message column -/

section Message

variable (db : Database) (s : Uuid)

/-- A second write to a session overwrites the message of the first. -/
theorem update_then_message (u : Database.SessionColumns) (message : Message) :
    (db.updateEnrollmentSession s u).updateEnrollmentSession s { message := some message } =
      db.updateEnrollmentSession s { u with message := some message } := by
  simp only [Database.updateEnrollmentSession, Database.mk.injEq, true_and, and_true]
  simp only [Table.update, Table.mk.injEq, List.map_map]
  refine List.map_congr_left fun r _ => ?_
  by_cases hr : r.sessionId = s <;> simp [hr, Database.SessionColumns.write]

theorem equalButMessage_refl : EqualButMessage s db db := rfl

/-- Only the message of the columns is free. -/
theorem equalButMessage_update (u : Database.SessionColumns) (message message' : Message) :
    EqualButMessage s (db.updateEnrollmentSession s { u with message := some message })
      (db.updateEnrollmentSession s { u with message := some message' }) := by
  rw [EqualButMessage, update_then_message, update_then_message]

theorem equalButMessage_message (message : Message) :
    EqualButMessage s (db.updateEnrollmentSession s { message := some message }) db := by
  rw [EqualButMessage, update_then_message]

/-- The texts of an endpoint reach nothing but the message. -/
theorem equalButMessage_captureDeed (now : Timestamp) (texts texts' : CaptureTexts) (m : Uuid)
    (angle : String) (image : EncoderOutcome) :
    EqualButMessage s ((captureDeed db texts m s (.text angle) image).apply now db)
      ((captureDeed db texts' m s (.text angle) image).apply now db) := by
  cases image with
  | raises => exact equalButMessage_refl db s
  | noFace => exact equalButMessage_update db s {} (texts.noFace (.text angle)) _
  | face encoding quality =>
      by_cases hm : db.members.Has m
      swap
      · simp only [captureDeed, Angle.stored?, hm, if_false]
        exact equalButMessage_refl db s
      obtain ⟨db', hdb, _⟩ := exists_storeFaceEncoding now hm encoding angle
      obtain ⟨message, hfirst⟩ :=
        exists_captureMessage texts ((db.selectCapturesCount s).getD 0 + 1) angle
      obtain ⟨message', hsecond⟩ :=
        exists_captureMessage texts' ((db.selectCapturesCount s).getD 0 + 1) angle
      simp only [captureDeed, Angle.stored?, hm, if_true, hfirst, hsecond, Option.map_some,
        Deed.apply, hdb]
      exact equalButMessage_update db' s
        (captureColumns ((db.selectCapturesCount s).getD 0 + 1) quality message) message message'

end Message

/-! ## The endpoints -/

section Runs

variable (b : Process) (m s : Uuid) (angle : String) (image : EncoderOutcome) (e : Endpoint)

/-- An endpoint is its guard followed by the common part. -/
theorem run_endpoint (hangle : angle ≠ "") :
    (e.program m s angle image).run exec b =
      match refusal b.db e.texts m s with
      | some refused => (some (.error refused), b)
      | none => (e.record m s angle image).run exec b := by
  cases e with
  | uploadCapture =>
      rw [Endpoint.program, Backend.uploadCapture, Program.run_bind, run_guardCapture,
        Endpoint.texts]
      cases refusal b.db uploadTexts m s <;> rfl
  | uploadCaptureB64 =>
      rw [Endpoint.program, Backend.uploadCaptureB64, Program.run_bind, run_guardCapture,
        Endpoint.texts, jsonBody, if_neg hangle]
      cases refusal b.db uploadTexts m s <;> rfl
  | piCameraCapture =>
      rw [Endpoint.program, Backend.piCameraCapture.eq_def, Program.run_bind, run_guardCapture,
        Endpoint.texts]
      cases refusal b.db cameraTexts m s <;> rfl

theorem statusCode_recordCapture (texts : CaptureTexts) (hm : b.db.members.Has m) :
    statusCode ((recordCapture texts m s (.text angle) image).run exec b).1 =
      if image = .raises then 500 else 200 := by
  cases image with
  | raises => rfl
  | noFace => simp [recordCapture, Program.run_call, exec, statusCode]
  | face encoding quality =>
      obtain ⟨db', hdb, _⟩ := exists_storeFaceEncoding b.clock hm encoding angle
      obtain ⟨message, hmessage⟩ :=
        exists_captureMessage texts ((db'.selectCapturesCount s).getD 0 + 1) angle
      simp [recordCapture, Program.run_call, exec, hdb, hmessage, statusCode]

theorem refusal_cases (texts : CaptureTexts) :
    (∃ refused, refusal b.db texts m s = some refused ∧
        (refused.status = 404 ∨ refused.status = 400) ∧
        acceptance b.db m s image = refused.status) ∨
      refusal b.db texts m s = none ∧ b.db.members.Has m ∧
        acceptance b.db m s image = if image = .raises then 500 else 200 := by
  unfold refusal acceptance
  cases hown : ownSession b.db m s with
  | none => exact Or.inl ⟨_, rfl, Or.inl rfl, rfl⟩
  | some session =>
      cases hopen : session.status.isOpen with
      | false => simp [hopen]
      | true => simp [hopen, has_of_ownSession hown]

/-- Which answer an endpoint gives does not depend on the endpoint. -/
theorem statusCode_endpoint (hangle : angle ≠ "") :
    statusCode ((e.program m s angle image).run exec b).1 = acceptance b.db m s image := by
  rw [run_endpoint b m s angle image e hangle]
  rcases refusal_cases b m s image e.texts with
    ⟨refused, hrefused, _, haccept⟩ | ⟨hnone, hm, haccept⟩
  · rw [hrefused, haccept]
    rfl
  · rw [hnone, haccept]
    exact statusCode_recordCapture b m s angle image e.texts hm

/-- What an endpoint leaves: the deed of an admitted capture, or nothing. -/
theorem process_endpoint (hangle : angle ≠ "") :
    ((e.program m s angle image).run exec b).2 =
      if refusal b.db e.texts m s = none then
        { b with db := (captureDeed b.db e.texts m s (.text angle) image).apply b.clock b.db }
      else b := by
  rw [run_endpoint b m s angle image e hangle]
  cases hrefused : refusal b.db e.texts m s with
  | none => exact run_recordCapture b e.texts m s (.text angle) image
  | some refused => rfl

theorem refusal_none_iff (texts texts' : CaptureTexts) :
    refusal b.db texts m s = none ↔ refusal b.db texts' m s = none := by
  rw [refusal_eq_none_iff, refusal_eq_none_iff]

end Runs

/-- The executions `x` and `x'` of capture endpoints from `b` are one operation. -/
structure SameCapture (b : Process) (m s : Uuid) (image : EncoderOutcome)
    (x x' : Option (Reply (Option SessionRow)) × Process) : Prop where
  decision : statusCode x.1 = acceptance b.db m s image ∧
    statusCode x'.1 = acceptance b.db m s image
  tables : EqualButMessage s x.2.db x'.2.db
  noFace : image = .noFace → EqualButMessage s x.2.db b.db
  rejected : acceptance b.db m s image = 404 ∨ acceptance b.db m s image = 400 → x.2 = b

/-- The three capture endpoints, each executed without interruption on the same process for
the same session, angle and image, take the same decision and leave databases that differ in
nothing but the session's message. -/
theorem endpoints_agree (b : Process) (m s : Uuid) (angle : String) (image : EncoderOutcome)
    (e e' : Endpoint) (hangle : angle ≠ "") :
    SameCapture b m s image ((e.program m s angle image).run exec b)
      ((e'.program m s angle image).run exec b) := by
  have hleft := process_endpoint b m s angle image e hangle
  have hright := process_endpoint b m s angle image e' hangle
  refine ⟨⟨statusCode_endpoint b m s angle image e hangle,
    statusCode_endpoint b m s angle image e' hangle⟩, ?_, ?_, ?_⟩
  · rw [hleft, hright]
    by_cases hnone : refusal b.db e.texts m s = none
    · rw [if_pos hnone, if_pos ((refusal_none_iff b m s e.texts e'.texts).mp hnone)]
      exact equalButMessage_captureDeed b.db s b.clock e.texts e'.texts m angle image
    · rw [if_neg hnone, if_neg (mt (refusal_none_iff b m s e.texts e'.texts).mpr hnone)]
      exact equalButMessage_refl b.db s
  · rintro rfl
    rw [hleft]
    split
    · exact equalButMessage_message b.db s (e.texts.noFace (.text angle))
    · exact equalButMessage_refl b.db s
  · intro hrejected
    rw [hleft]
    rcases refusal_cases b m s image e.texts with ⟨refused, hrefused, _, _⟩ | ⟨_, _, haccept⟩
    · rw [if_neg (by simp [hrefused])]
    · rw [haccept] at hrejected
      split at hrejected <;> simp at hrejected

/-- The first photo of the first member's first session. -/
theorem endpoints_agree_first_capture :
    let b := (Request.startEnrollment 0).perform
      ((Request.addMember "Resident" "Member").perform (Process.boot true none 0))
    SameCapture b 0 1 (.face [1] 1)
        ((Endpoint.uploadCaptureB64.program 0 1 "front" (.face [1] 1)).run exec b)
        ((Endpoint.piCameraCapture.program 0 1 "front" (.face [1] 1)).run exec b) ∧
      acceptance b.db 0 1 (.face [1] 1) = 200 :=
  ⟨endpoints_agree _ 0 1 "front" (.face [1] 1) .uploadCaptureB64 .piCameraCapture (by decide),
    by decide +kernel⟩

end FacialCamera.Enrollment
