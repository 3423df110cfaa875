import FacialCamera.Enrollment.Segments
import FacialCamera.Screen.Members

/-! # What the Pi answers an enrollment

An answer of 200 to a capture says that the encoding is stored or that no face was
seen. Only the message of the session in the answer tells which.
-/

namespace FacialCamera.Screen

open FacialCamera.Core Backend Enrollment
open Macbook (anglesToUpload)

/-! ## Answers of 200 -/

theorem settle_eq_ok {α : Type} {answer : Option (Reply α)} {a : α} :
    settle answer = .ok a ↔ answer = some (.ok a) := by
  rcases answer with _ | (e | a') <;> simp [settle]

theorem await_eq_ok {α : Type} {t : Turn} {answer : Option (Reply α)} {a : α} :
    t.await answer = .ok a ↔ t.thrown = none ∧ answer = some (.ok a) := by
  cases h : t.thrown <;> simp [Turn.await, h, settle_eq_ok]

section Captures

variable {b : Process} {texts : CaptureTexts} {m s : Uuid} {angle : String}
  {image : EncoderOutcome} {result : Option SessionRow}

/-- A capture answers with the session as it leaves it. -/
theorem session_recordCapture
    (h : ((recordCapture texts m s (.text angle) image).run exec b).1 = some (.ok result)) :
    result =
      ((recordCapture texts m s (.text angle) image).run exec b).2.db.getEnrollmentSession s := by
  cases image with
  | raises => simp [recordCapture] at h
  | noFace =>
      simp only [recordCapture, Db.updateEnrollmentSession, Db.getEnrollmentSession, issue,
        Program.perform, Program.call_bind, Program.done_bind, Program.pure_eq_done,
        Program.run_call, exec, Program.run_done] at h ⊢
      simpa using h.symm
  | face encoding quality =>
      cases hdb : b.db.storeFaceEncoding m encoding (.text angle) b.clock with
      | none => simp [recordCapture, Program.run_call, exec, hdb] at h
      | some db' =>
          obtain ⟨message, hmessage⟩ :=
            exists_captureMessage texts ((db'.selectCapturesCount s).getD 0 + 1) angle
          simp [recordCapture, Program.run_call, exec, hdb, hmessage] at h ⊢
          exact h.symm

/-- A capture that is answered 200 has seen no face or has stored the encoding. -/
theorem cases_recordCapture
    (h : ((recordCapture texts m s (.text angle) image).run exec b).1 = some (.ok result)) :
    image = .noFace ∨ ∃ encoding columns, ∃ captures : ℕ,
      captureDeed b.db texts m s (.text angle) image =
          .capture m s encoding angle (some columns) ∧
        columns.message = captureMessage texts captures (.text angle) := by
  cases image with
  | raises => simp [recordCapture] at h
  | noFace => exact Or.inl rfl
  | face encoding quality =>
      by_cases hm : b.db.members.Has m
      swap
      · have hraise : b.db.storeFaceEncoding m encoding (.text angle) b.clock = none := by
          simp [Database.storeFaceEncoding_eq_none_iff, hm]
        simp [recordCapture, Program.run_call, exec, hraise] at h
      let captures := (b.db.selectCapturesCount s).getD 0 + 1
      obtain ⟨message, hmessage⟩ := exists_captureMessage texts captures angle
      refine Or.inr ⟨encoding, captureColumns captures quality message, captures, ?_,
        hmessage.symm⟩
      simp [captureDeed, Angle.stored?, hm, hmessage, captures]

/-- The message of the answer tells which. -/
theorem message_recordCapture {row : SessionRow} (hrow : b.db.getEnrollmentSession s = some row)
    (h : ((recordCapture texts m s (.text angle) image).run exec b).1 = some (.ok result)) :
    ∃ row', result = some row' ∧
      ((image = .noFace ∧ row'.message = texts.noFace (.text angle)) ∨
        ∃ encoding columns, ∃ captures : ℕ,
          captureDeed b.db texts m s (.text angle) image =
              .capture m s encoding angle (some columns) ∧
            captureMessage texts captures (.text angle) = some row'.message) := by
  let deed := captureDeed b.db texts m s (.text angle) image
  have hresult : result = deed.sessionAfter b.clock b.db s := by
    rw [session_recordCapture h, run_recordCapture]
    exact session_apply b.clock (captureDeed_valid b.db texts m s (.text angle) image) s
  obtain ⟨_, rfl⟩ := Table.find?_mem hrow
  rcases cases_recordCapture h with rfl | ⟨encoding, columns, captures, hdeed, hmessage⟩
  · refine ⟨deed.revise b.clock row, ?_, Or.inl ⟨rfl, ?_⟩⟩
    · rw [hresult]
      simp [deed, captureDeed, Deed.sessionAfter, hrow]
    · simp [deed, captureDeed, Deed.revise, Deed.columnsFor, Database.SessionColumns.write]
  · refine ⟨deed.revise b.clock row, ?_, Or.inr ⟨encoding, columns, captures, hdeed, ?_⟩⟩
    · rw [hresult]
      simp [deed, hdeed, Deed.sessionAfter, hrow]
    · obtain ⟨message, hsome⟩ := exists_captureMessage texts captures angle
      rw [hsome] at hmessage ⊢
      simp [deed, hdeed, Deed.revise, Deed.columnsFor, Database.SessionColumns.write, hmessage]

end Captures

/-! ## The two captures -/

section Answers

variable {t : Turn} {m s : Uuid} {result : Option SessionRow}

/-- An upload is its guard where it arrives and its capture where its body has been read. -/
theorem uploadAnswer_eq (t : Turn) (m s : Uuid) (body : CaptureBody) :
    t.uploadAnswer m s body =
      match refusal t.pi.db uploadTexts m s with
      | some e => some (.error e)
      | none => ((recordBody m s (some body)).run exec t.landing).1 := by
  rw [Turn.uploadAnswer, Backend.uploadCaptureB64,
    Program.segment_bind (calls_guardCapture awaits_of_desk uploadTexts m s), run_guardCapture]
  cases refusal t.pi.db uploadTexts m s with
  | some e => rfl
  | none =>
      have hsegment := Program.segment_eq_run (I := exec)
        (calls_recordBody awaits_of_desk m s (some body)) t.landing
      simp [issue, Program.segment, Program.resume, Call.awaits, exec, hsegment]

theorem uploadAnswer_ok {body : CaptureBody}
    (h : t.uploadAnswer m s body = some (.ok result)) :
    Admitted t.pi.db m s ∧
      ((recordBody m s (some body)).run exec t.landing).1 = some (.ok result) := by
  rw [uploadAnswer_eq] at h
  cases hrefused : refusal t.pi.db uploadTexts m s with
  | some e => simp [hrefused] at h
  | none => exact ⟨(refusal_eq_none_iff _ _ _ _).mp hrefused, by simpa [hrefused] using h⟩

/-- An admitted upload without a face is answered 200. -/
theorem uploadAnswer_noFace {body : CaptureBody} (hadmitted : Admitted t.pi.db m s)
    {angle : Backend.Angle} (hangle : body.angle = some angle)
    (himage : body.image = some .noFace) :
    ∃ result, t.uploadAnswer m s body = some (.ok result) := by
  obtain ⟨_, _⟩ := body
  obtain rfl := hangle
  obtain rfl := himage
  rw [uploadAnswer_eq, (refusal_eq_none_iff _ _ _ _).mpr hadmitted]
  simp [recordBody, recordCapture, Program.run_call, exec]

theorem captureAnswer_eq (t : Turn) (m s : Uuid) (angle : Angle) :
    t.captureAnswer m s angle =
      match refusal t.pi.db cameraTexts m s, t.frame with
      | some e, _ => some (.error e)
      | none, none => some (.error ⟨503, "Camera not available"⟩)
      | none, some image =>
          ((recordCapture cameraTexts m s (.text angle.text) image).run exec t.pi).1 := by
  rw [Turn.captureAnswer, Backend.piCameraCapture.eq_def, Program.run_bind, run_guardCapture]
  cases refusal t.pi.db cameraTexts m s with
  | some e => rfl
  | none => cases t.frame <;> rfl

theorem captureAnswer_ok {angle : Angle} (h : t.captureAnswer m s angle = some (.ok result)) :
    Admitted t.pi.db m s ∧ ∃ image, t.frame = some image ∧
      ((recordCapture cameraTexts m s (.text angle.text) image).run exec t.pi).1 =
        some (.ok result) := by
  rw [captureAnswer_eq] at h
  cases hrefused : refusal t.pi.db cameraTexts m s with
  | some e => simp [hrefused] at h
  | none =>
      cases hframe : t.frame with
      | none => simp [hrefused, hframe] at h
      | some image =>
          exact ⟨(refusal_eq_none_iff _ _ _ _).mp hrefused, image, rfl,
            by simpa [hrefused, hframe] using h⟩

theorem captureAnswer_noFace (angle : Angle) (hadmitted : Admitted t.pi.db m s)
    (hframe : t.frame = some .noFace) :
    ∃ result, t.captureAnswer m s angle = some (.ok result) := by
  rw [captureAnswer_eq, (refusal_eq_none_iff _ _ _ _).mpr hadmitted, hframe]
  simp [recordCapture, Program.run_call, exec]

end Answers

/-! ## After a capture with the door camera -/

/-- The message of the door camera's answer tells whether a face was seen. -/
theorem saysNoFace_noFace (angle : Angle) :
    saysNoFace (cameraTexts.noFace (.text angle.text)) = true := by
  cases angle <;> decide +kernel

theorem saysNoFace_captured {captures : ℕ} {angle : Angle} {message : Message}
    (h : captureMessage cameraTexts captures (.text angle.text) = some message) :
    saysNoFace message = false := by
  simp only [captureMessage] at h
  split at h
  · cases h
    decide +kernel
  · cases h
    cases angle <;> decide +kernel

/-- The Pi answers a capture of the door camera, and has seen no face. -/
def Refused (f : Flow) (t : Turn) : Prop :=
  match f.awaits with
  | .piCameraCapture s _ =>
      t.thrown = none ∧ Admitted t.pi.db f.member.id s ∧ t.frame = some .noFace
  | _ => False

instance (f : Flow) (t : Turn) : Decidable (Refused f t) := by
  unfold Refused
  split <;> infer_instance

/-- After an answer the flow tries the angle again where the Pi has seen no face, and goes on
where it has stored the encoding. -/
theorem afterCapture_cases {f : Flow} {t : Turn} {s : Uuid} {i : Fin ANGLES.length}
    {result : Option SessionRow} (hthrown : t.thrown = none) (ha : f.awaits = .piCameraCapture s i)
    (hanswer : t.captureAnswer f.member.id s (ANGLES.get i) = some (.ok result)) :
    (Refused f t ∧ ∃ card, f.resume t = (f.tell card).wait t.clock (.retryPause s i)) ∨
      t.frame ≠ some .noFace ∧ ∃ encoding columns,
        (Request.piCameraCapture f.member.id s (ANGLES.get i).text t.frame).deed t.pi.db =
            .capture f.member.id s encoding (ANGLES.get i).text (some columns) ∧
          ∃ card, f.resume t = (f.tell card).poseLoop t.clock s (i + 1) := by
  obtain ⟨hadmitted, image, hframe, hrecord⟩ := captureAnswer_ok hanswer
  have hsession : ∃ row, t.pi.db.getEnrollmentSession s = some row := by
    obtain ⟨row, hown, _⟩ := hadmitted
    exact ⟨row, (ownSession_eq_some_iff.mp hown).1⟩
  obtain ⟨_, hrow⟩ := hsession
  obtain ⟨row, rfl, hmessage⟩ := message_recordCapture hrow hrecord
  have hresume : f.resume t = f.afterCapture t.clock s i (some row) := by
    simp only [Flow.resume, ha]
    rw [await_eq_ok.mpr ⟨hthrown, hanswer⟩]
  let card : Card := { f.card with progress := row.progress, message := .pi row.message }
  rcases hmessage with ⟨rfl, hnoFace⟩ | ⟨encoding, columns, captures, hcapture, hmessage⟩
  · have hsays : saysNoFace row.message = true := hnoFace ▸ saysNoFace_noFace (ANGLES.get i)
    refine Or.inl ⟨?_, card, ?_⟩
    · simp only [Refused, ha]
      exact ⟨hthrown, hadmitted, hframe⟩
    · simp only [hresume, Flow.afterCapture, hsays, if_true]
      rfl
  · have hsays := saysNoFace_captured hmessage
    refine Or.inr ⟨?_, encoding, columns, ?_, card, ?_⟩
    · rw [hframe]
      rintro ⟨⟩
      cases hcapture
    · simp only [Request.deed, hframe, if_pos hadmitted]
      exact hcapture
    · simp only [hresume, Flow.afterCapture, hsays, Bool.false_eq_true, if_false]
      rfl

theorem resume_piCameraCapture {f : Flow} (t : Turn) {s : Uuid} {i : Fin ANGLES.length}
    (ha : f.awaits = .piCameraCapture s i) :
    (∃ e, f.resume t = f.throws t.clock e) ∨
      (Refused f t ∧ ∃ card, f.resume t = (f.tell card).wait t.clock (.retryPause s i)) ∨
      t.thrown = none ∧ ∃ encoding columns,
        (Request.piCameraCapture f.member.id s (ANGLES.get i).text t.frame).deed t.pi.db =
            .capture f.member.id s encoding (ANGLES.get i).text (some columns) ∧
          ∃ card, f.resume t = (f.tell card).poseLoop t.clock s (i + 1) := by
  cases hanswer : t.await (t.captureAnswer f.member.id s (ANGLES.get i)) with
  | error e =>
      refine Or.inl ⟨e, ?_⟩
      simp only [Flow.resume, ha]
      rw [hanswer]
  | ok result =>
      obtain ⟨hthrown, hok⟩ := await_eq_ok.mp hanswer
      refine Or.inr ((afterCapture_cases hthrown ha hok).imp_right ?_)
      rintro ⟨_, hstored⟩
      exact ⟨hthrown, hstored⟩

/-- A refused capture is tried again. -/
theorem resume_refused {f : Flow} {t : Turn} {s : Uuid} {i : Fin ANGLES.length}
    (ha : f.awaits = .piCameraCapture s i) (h : Refused f t) :
    ∃ card, f.resume t = (f.tell card).wait t.clock (.retryPause s i) := by
  simp only [Refused, ha] at h
  obtain ⟨hthrown, hadmitted, hframe⟩ := h
  obtain ⟨result, hanswer⟩ := captureAnswer_noFace (ANGLES.get i) hadmitted hframe
  rcases afterCapture_cases hthrown ha hanswer with ⟨_, hretry⟩ | ⟨hface, _⟩
  · exact hretry
  · exact absurd hframe hface

end FacialCamera.Screen
