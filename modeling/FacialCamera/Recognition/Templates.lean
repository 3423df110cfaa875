import FacialCamera.Core.Evidence
import FacialCamera.Recognition.Encoder
import FacialCamera.Recognition.Interleaved

/-! # Where the stored faces and the scores come from

A face is stored, and a quality written, by the thread of a capture request only, and
both are what the encoder made of the picture of that request. The liveness of a session
and of a member follows from the number of captures alone.
-/

namespace FacialCamera.Recognition

open FacialCamera.Core Backend

/-! ## The captures of the requests -/

/-- What a capture endpoint was asked to record; `jpeg` is `none` where the camera gave the
picture. -/
structure CaptureOf where
  member : Uuid
  session : Uuid
  angle : Angle
  jpeg : Option Jpeg
  outcome : EncoderOutcome

def Event.capture? : Event → Option CaptureOf
  | .request (.uploadCapture m s angle image) seen =>
      some ⟨m, s, .text angle, some image, seen.encode image⟩
  | .request (.uploadCaptureB64 m s (some ⟨some angle, some (some image)⟩)) seen =>
      some ⟨m, s, angle, some image, seen.encode image⟩
  | .request (.piCameraCapture m s angle) seen =>
      (seen.sight.frames 0).map fun outcome => ⟨m, s, .text angle, none, outcome⟩
  | _ => none

/-- `min(0.96, 0.8 + captures * 0.03)` of a first or later capture. -/
def livenessOf (captures : ℕ) : ℚ := min (96 / 100) (8 / 10 + captures * (3 / 100))

def Liveness (score : ℚ) : Prop := score = 0 ∨ ∃ captures > 0, score = livenessOf captures

def Recorded (e : Event) (c : CaptureOf) (encoding : Encoding) (quality : ℚ) : Prop :=
  e.capture? = some c ∧ c.outcome = .face encoding quality

def Permitted (e : Event) (heard : List (Answered Call Answer)) : Call → Prop
  | .storeFaceEncoding m encoding angle =>
      ∃ c quality, Recorded e c encoding quality ∧ c.member = m ∧ c.angle = angle
  | .updateEnrollmentSession s columns =>
      (∀ score, columns.qualityScore = some score → ∃ c encoding quality,
        Recorded e c encoding quality ∧ c.session = s ∧ score = min (98 / 100) quality) ∧
      ∀ score, columns.livenessScore = some score → Liveness score
  | .updateMemberFaceEnrolled _ _ liveness =>
      ∀ score, liveness = some score → ∃ s row, row.livenessScore = score ∧
        (⟨.getEnrollmentSession s, some row⟩ : Answered Call Answer) ∈ heard
  | _ => True

def plain : Call → Bool
  | .storeFaceEncoding _ _ _ | .updateEnrollmentSession _ _ | .updateMemberFaceEnrolled _ _ _ =>
      false
  | _ => true

section Programs

variable {e : Event} {α : Type} {heard : List (Answered Call Answer)}

theorem permitted_of_plain {c : Call} (hc : plain c = true) : Permitted e heard c := by
  cases c <;> trivial

theorem permitted_program_of_plain {p : Proc α} (hp : p.Calls fun c => plain c = true) :
    p.Justified (Permitted e) heard :=
  hp.justified fun _ hc _ => permitted_of_plain hc

/-! ## The capture endpoints -/

theorem plain_sessionOf (m s : Uuid) : (sessionOf m s).Calls fun c => plain c = true := by
  refine ⟨rfl, fun found => ?_⟩
  cases found <;> trivial

theorem plain_guardCapture (texts : CaptureTexts) (m s : Uuid) :
    (guardCapture texts m s).Calls fun c => plain c = true := by
  refine (plain_sessionOf m s).bind fun found => ?_
  cases found <;> trivial

theorem permitted_noScores {s : Uuid} {columns : Database.SessionColumns}
    (hquality : columns.qualityScore = none) (hliveness : columns.livenessScore = none) :
    Permitted e heard (.updateEnrollmentSession s columns) := by
  constructor
  · intro score hscore
    cases hquality.symm.trans hscore
  · intro score hscore
    cases hliveness.symm.trans hscore

theorem permitted_captureColumns {c : CaptureOf} {encoding : Encoding} {quality : ℚ}
    (hrecorded : Recorded e c encoding quality) (captures : ℕ) (message : Message) :
    Permitted e heard
      (.updateEnrollmentSession c.session (captureColumns (captures + 1) quality message)) := by
  constructor
  · intro score hscore
    cases hscore
    exact ⟨c, encoding, quality, hrecorded, rfl, rfl⟩
  · intro score hscore
    cases hscore
    exact Or.inr ⟨captures + 1, Nat.succ_pos captures, rfl⟩

theorem permitted_recordCapture {c : CaptureOf} (he : e.capture? = some c)
    (texts : CaptureTexts) :
    (recordCapture texts c.member c.session c.angle c.outcome).Justified (Permitted e) heard := by
  cases houtcome : c.outcome with
  | raises => trivial
  | noFace =>
      exact ⟨permitted_noScores rfl rfl, fun _ => ⟨trivial, fun _ => trivial⟩⟩
  | face encoding quality =>
      refine ⟨⟨c, quality, ⟨he, houtcome⟩, rfl, rfl⟩, fun _ => ⟨trivial, fun count => ?_⟩⟩
      dsimp only [Program.bind]
      split
      · trivial
      · refine ⟨permitted_captureColumns ⟨he, houtcome⟩ _ _, fun _ => ?_⟩
        exact ⟨trivial, fun _ => trivial⟩

theorem permitted_uploadCapture (m s : Uuid) (angle : String) (image : Jpeg)
    (seen : Surroundings) : (Backend.uploadCapture m s angle (seen.encode image)).Justified
      (Permitted (.request (.uploadCapture m s angle image) seen)) heard := by
  refine (permitted_program_of_plain (plain_guardCapture uploadTexts m s)).bind ?_
  intro refused later
  cases refused with
  | some refusal => trivial
  | none =>
      refine ⟨trivial, fun _ => ?_⟩
      exact permitted_recordCapture (c := ⟨m, s, .text angle, some image, seen.encode image⟩) rfl
        uploadTexts

theorem permitted_uploadCaptureB64 (m s : Uuid) (body : Option ImageBody) (seen : Surroundings) :
    (Backend.uploadCaptureB64 m s (body.map fun body => body.encoded seen.encode)).Justified
      (Permitted (.request (.uploadCaptureB64 m s body) seen)) heard := by
  refine (permitted_program_of_plain (plain_guardCapture uploadTexts m s)).bind ?_
  intro refused later
  cases refused with
  | some refusal => trivial
  | none =>
      refine ⟨trivial, fun _ => ?_⟩
      match body with
      | none => trivial
      | some ⟨none, _⟩ => trivial
      | some ⟨some _, none⟩ => trivial
      | some ⟨some _, some none⟩ => trivial
      | some ⟨some angle, some (some image)⟩ =>
          exact permitted_recordCapture (c := ⟨m, s, angle, some image, seen.encode image⟩) rfl
            uploadTexts

theorem permitted_piCameraCapture (m s : Uuid) (angle : String) (seen : Surroundings) :
    (Backend.piCameraCapture m s angle (seen.sight.frames 0)).Justified
      (Permitted (.request (.piCameraCapture m s angle) seen)) heard := by
  refine (permitted_program_of_plain (plain_guardCapture cameraTexts m s)).bind ?_
  intro refused later
  cases refused with
  | some refusal => trivial
  | none =>
      cases hframe : seen.sight.frames 0 with
      | none => trivial
      | some outcome =>
          have hcapture : (Event.request (.piCameraCapture m s angle) seen).capture? =
              some ⟨m, s, .text angle, none, outcome⟩ := by
            simp [Event.capture?, hframe]
          exact permitted_recordCapture hcapture cameraTexts

/-! ## The other handlers -/

/-- The liveness that a completion gives to the member is that of the session it has read. -/
theorem permitted_completeEnrollment (m s : Uuid) :
    (Backend.completeEnrollment m s).Justified (Permitted e) heard := by
  refine ⟨trivial, fun found => ?_⟩
  cases found with
  | none => trivial
  | some row =>
      dsimp only [Program.bind]
      split
      · refine ⟨trivial, fun now => ⟨permitted_noScores rfl rfl, fun _ => ⟨?_, fun _ => ?_⟩⟩⟩
        · intro score hscore
          cases hscore
          exact ⟨s, row, rfl, by simp⟩
        · refine ⟨trivial, fun member => ⟨trivial, fun templateId => ?_⟩⟩
          cases member <;> trivial
      · trivial

theorem permitted_cancelEnrollment (m s : Uuid) :
    (Backend.cancelEnrollment m s).Justified (Permitted e) heard := by
  refine (permitted_program_of_plain (plain_sessionOf m s)).bind fun found later => ?_
  cases found with
  | none => trivial
  | some row => exact ⟨permitted_noScores rfl rfl, fun _ => trivial⟩

theorem permitted_removeFaceTemplate (m : Uuid) :
    (Backend.removeFaceTemplate m).Justified (Permitted e) heard := by
  refine ⟨trivial, fun found => ?_⟩
  cases found with
  | none => trivial
  | some row =>
      refine ⟨trivial, fun _ => ⟨fun score hscore => ?_, fun _ => ⟨trivial, fun _ => trivial⟩⟩⟩
      cases hscore

theorem permitted_answer {body : α → Body} {p : Proc α} (hp : p.Justified (Permitted e) heard) :
    (answer body p).forget.Justified (Permitted e) heard := by
  have hanswer : (answer body p).Justified (Permitted e) heard := hp.bind fun _ _ => trivial
  exact hanswer.bind fun _ _ => trivial

theorem permitted_reply {body : α → Body} {p : Proc (Reply α)}
    (hp : p.Justified (Permitted e) heard) :
    (reply body p).forget.Justified (Permitted e) heard := by
  have hreply : (reply body p).Justified (Permitted e) heard := hp.bind fun _ _ => trivial
  exact hreply.bind fun _ _ => trivial

theorem plain_setConfidence (threshold : Option ℚ) :
    (Backend.setConfidence threshold).Calls fun c => plain c = true := by
  cases threshold with
  | none => trivial
  | some threshold =>
      unfold Backend.setConfidence
      dsimp only
      split
      · exact ⟨rfl, fun _ => trivial⟩
      · trivial

theorem plain_setMotionSettings (detection alerts : Option Bool) :
    (Backend.setMotionSettings detection alerts).Calls fun c => plain c = true := by
  cases detection <;> cases alerts <;> simp [Backend.setMotionSettings, plain]

theorem plain_onMotionDetected (sight : Sight) :
    (onMotionDetected sight).Calls fun c => plain c = true := by
  cases hgrab : grabFaceEncoding sight.frames with
  | raises => simp [onMotionDetected, hgrab, plain]
  | noFace => simp [onMotionDetected, hgrab, plain]
  | face encoding quality =>
      simp [onMotionDetected, hgrab, plain]
      intro known threshold
      cases recognizedName (compareFace sight.library threshold encoding known) with
      | some name => simp [scheduleRelock]
      | none => simp

theorem plain_runDoorbellScan (sight : Sight) :
    (runDoorbellScan sight).Calls fun c => plain c = true := by
  cases hgrab : grabFaceEncoding sight.frames with
  | raises => simp [runDoorbellScan, hgrab, plain]
  | noFace => simp [runDoorbellScan, hgrab, plain]
  | face encoding quality =>
      simp [runDoorbellScan, hgrab, plain]
      intro known threshold
      cases recognizedName (compareFace sight.library threshold encoding known) with
      | some name => simp [scheduleRelock]
      | none => simp

theorem permitted_request (a : ApiRequest) (seen : Surroundings) :
    (a.handler seen).forget.Justified (Permitted (.request a seen)) heard := by
  have hplain {α : Type} {p : Proc α} (hp : p.Calls fun c => plain c = true) :
      p.Justified (Permitted (.request a seen)) heard := permitted_program_of_plain hp
  cases a with
  | uploadCapture m s angle image =>
      exact permitted_reply (permitted_uploadCapture m s angle image seen)
  | uploadCaptureB64 m s body => exact permitted_reply (permitted_uploadCaptureB64 m s body seen)
  | piCameraCapture m s angle => exact permitted_reply (permitted_piCameraCapture m s angle seen)
  | completeEnrollment m s => exact permitted_reply (permitted_completeEnrollment m s)
  | cancelEnrollment m s => exact permitted_reply (permitted_cancelEnrollment m s)
  | removeFaceTemplate m => exact permitted_reply (permitted_removeFaceTemplate m)
  | doorbell => exact permitted_answer (hplain (plain_runDoorbellScan seen.sight))
  | setConfidence threshold => exact permitted_reply (hplain (plain_setConfidence threshold))
  | setMotionSettings detection alerts =>
      exact permitted_answer (hplain (plain_setMotionSettings detection alerts))
  | pollEnrollment m s =>
      refine permitted_reply (hplain ((plain_sessionOf m s).bind fun found => ?_))
      cases found <;> trivial
  | removeMember m =>
      refine permitted_reply (hplain ⟨rfl, fun found => ?_⟩)
      cases found with
      | none => trivial
      | some row => exact ⟨rfl, fun _ => ⟨rfl, fun _ => trivial⟩⟩
  | startEnrollment m =>
      refine permitted_reply (hplain ⟨rfl, fun found => ?_⟩)
      cases found with
      | none => trivial
      | some row => exact ⟨rfl, fun _ => trivial⟩
  | debugMotion =>
      refine permitted_answer (hplain ?_)
      cases seen.sensor with
      | error raised => trivial
      | ok readings => exact ⟨rfl, fun _ => trivial⟩
  | getLogSnapshot logId =>
      refine permitted_reply (hplain ⟨rfl, fun snapshot => ?_⟩)
      rcases snapshot with _ | ⟨_ | ⟨byte, rest⟩⟩ <;> trivial
  | addMember name role => exact permitted_reply (hplain ⟨rfl, fun _ => trivial⟩)
  | cameraStream => trivial
  | getMotionSettings | setAutolock =>
      exact permitted_answer (hplain ⟨rfl, fun _ => ⟨rfl, fun _ => trivial⟩⟩)
  | doorLock => exact permitted_answer (hplain (by simp [Backend.doorLock, plain]))
  | doorUnlock =>
      exact permitted_answer (hplain (by simp [Backend.doorUnlock, scheduleRelock, plain]))
  | _ => exact permitted_answer (hplain ⟨rfl, fun _ => trivial⟩)

theorem permitted_program (e : Event) : e.program.Justified (Permitted e) [] := by
  cases e with
  | wait clock => trivial
  | motion sight => exact permitted_program_of_plain (plain_onMotionDetected sight)
  | fire i => exact permitted_program_of_plain (by simp [Event.program, doRelock, plain])
  | request a seen => exact permitted_request a seen

end Programs

/-! ## What one call does to the rows -/

structure RowsAfter (c : Call) (b b' : Process) : Prop where
  encodings : ∀ row ∈ b'.db.encodings.rows, row ∈ b.db.encodings.rows ∨
    ∃ angle, c = .storeFaceEncoding row.memberId row.encoding angle ∧ angle.stored? = some row.angle
  sessions : ∀ row ∈ b'.db.sessions.rows, (row.qualityScore = 0 ∧ row.livenessScore = 0) ∨
    ∃ old ∈ b.db.sessions.rows, ∃ columns, row = columns.write old ∧
      (columns = {} ∨ c = .updateEnrollmentSession old.sessionId columns)
  members : ∀ row ∈ b'.db.members.rows, row.livenessScore = none ∨
    (∃ old ∈ b.db.members.rows, old.livenessScore = row.livenessScore) ∨
      ∃ m enrolled, c = .updateMemberFaceEnrolled m enrolled row.livenessScore

theorem rowsAfter_exec {c : Call} {b b' : Process} {r : Answer c} (h : exec c b = some (r, b')) :
    RowsAfter c b b' := by
  have hencoding (row : EncodingRow) (hrow : row ∈ b.db.encodings.rows) :
      row ∈ b.db.encodings.rows ∨ ∃ angle,
        c = .storeFaceEncoding row.memberId row.encoding angle ∧ angle.stored? = some row.angle :=
    Or.inl hrow
  have hsession (row : SessionRow) (hrow : row ∈ b.db.sessions.rows) :
      (row.qualityScore = 0 ∧ row.livenessScore = 0) ∨
        ∃ old ∈ b.db.sessions.rows, ∃ columns, row = columns.write old ∧
          (columns = {} ∨ c = .updateEnrollmentSession old.sessionId columns) :=
    Or.inr ⟨row, hrow, {}, rfl, Or.inl rfl⟩
  have hmember (row : MemberRow) (hrow : row ∈ b.db.members.rows) :
      row.livenessScore = none ∨
        (∃ old ∈ b.db.members.rows, old.livenessScore = row.livenessScore) ∨
          ∃ m enrolled, c = .updateMemberFaceEnrolled m enrolled row.livenessScore :=
    Or.inr (Or.inl ⟨row, hrow, rfl⟩)
  cases c <;> simp only [exec, Option.map_eq_some_iff, Option.ite_none_right_eq_some,
    Option.some.injEq, Prod.mk.injEq] at h
  case addMember name role =>
    obtain ⟨_, rfl⟩ := h
    refine ⟨hencoding, hsession, fun row hrow => ?_⟩
    rcases List.mem_append.mp hrow with hold | hnew
    · exact hmember row hold
    · rw [List.mem_singleton.mp hnew]
      exact Or.inl rfl
  case deleteMember m =>
    obtain ⟨_, rfl⟩ := h
    exact ⟨fun row hrow => hencoding row (List.mem_filter.mp hrow).1,
      fun row hrow => hsession row (List.mem_filter.mp hrow).1,
      fun row hrow => hmember row (List.mem_filter.mp hrow).1⟩
  case updateMemberFaceEnrolled m enrolled liveness =>
    obtain ⟨_, rfl⟩ := h
    refine ⟨hencoding, hsession, fun row hrow => ?_⟩
    obtain ⟨old, hold, rfl⟩ := List.mem_map.mp hrow
    split
    · cases enrolled with
      | true => exact Or.inr (Or.inr ⟨m, true, rfl⟩)
      | false => exact Or.inl rfl
    · exact hmember old hold
  case createEnrollmentSession m =>
    obtain ⟨⟨new, db⟩, hdb, _, rfl⟩ := h
    have spec := b.db.createEnrollmentSession_spec hdb
    refine ⟨spec.encodings ▸ hencoding, fun row hrow => ?_, spec.members ▸ hmember⟩
    rw [spec.sessions] at hrow
    rcases List.mem_append.mp hrow with hold | hnew
    · exact hsession row hold
    · rw [List.mem_singleton.mp hnew]
      exact Or.inl ⟨rfl, rfl⟩
  case updateEnrollmentSession s columns =>
    obtain ⟨_, rfl⟩ := h
    refine ⟨hencoding, fun row hrow => ?_, hmember⟩
    obtain ⟨old, hold, rfl⟩ := List.mem_map.mp hrow
    split
    case isTrue hid => exact Or.inr ⟨old, hold, columns, rfl, Or.inr (by rw [hid])⟩
    case isFalse => exact hsession old hold
  case storeFaceEncoding m encoding angle =>
    obtain ⟨db, hdb, _, rfl⟩ := h
    have spec := b.db.storeFaceEncoding_spec hdb
    refine ⟨fun row hrow => ?_, spec.sessions ▸ hsession, spec.members ▸ hmember⟩
    obtain ⟨stored, hstored, hrows⟩ := spec.encodings
    rw [hrows] at hrow
    rcases List.mem_append.mp hrow with hold | hnew
    · exact hencoding row hold
    · rw [List.mem_singleton.mp hnew]
      exact Or.inr ⟨angle, rfl, hstored⟩
  case deleteFaceEncodings m =>
    obtain ⟨_, rfl⟩ := h
    exact ⟨fun row hrow => hencoding row (List.mem_filter.mp hrow).1, hsession, hmember⟩
  case getLogs | getLogSnapshot | markAlertRead =>
    obtain ⟨_, _, rfl⟩ := h
    exact ⟨hencoding, hsession, hmember⟩
  case claimMotion =>
    unfold Process.claimMotion at h
    split at h <;> cases h <;> exact ⟨hencoding, hsession, hmember⟩
  all_goals (obtain ⟨_, rfl⟩ := h; exact ⟨hencoding, hsession, hmember⟩)

/-! ## Every reachable state -/

def RecordedIn (ts : List (Transition House HouseTurn)) (c : CaptureOf) (encoding : Encoding)
    (quality : ℚ) : Prop :=
  ∃ t ∈ ts, ∃ e, t.label = .start e ∧ Recorded e c encoding quality

structure Sourced (ts : List (Transition House HouseTurn)) (b : Process) : Prop where
  encodings : ∀ row ∈ b.db.encodings.rows, ∃ c quality,
    RecordedIn ts c row.encoding quality ∧ c.member = row.memberId ∧
      c.angle.stored? = some row.angle
  qualities : ∀ row ∈ b.db.sessions.rows, row.qualityScore = 0 ∨ ∃ c encoding quality,
    RecordedIn ts c encoding quality ∧ c.session = row.sessionId ∧
      row.qualityScore = min (98 / 100) quality
  sessions : ∀ row ∈ b.db.sessions.rows, Liveness row.livenessScore
  members : ∀ row ∈ b.db.members.rows, ∀ score, row.livenessScore = some score → Liveness score

variable {ts : List (Transition House HouseTurn)} {h h' : House} {turn : HouseTurn}

theorem RecordedIn.later {c : CaptureOf} {encoding : Encoding} {quality : ℚ}
    (hrecorded : RecordedIn ts c encoding quality) (t : Transition House HouseTurn) :
    RecordedIn (ts ++ [t]) c encoding quality := by
  obtain ⟨u, hu, e, hstart, hevent⟩ := hrecorded
  exact ⟨u, List.mem_append_left _ hu, e, hstart, hevent⟩

theorem Sourced.later {b : Process} (hsourced : Sourced ts b) (t : Transition House HouseTurn) :
    Sourced (ts ++ [t]) b := by
  refine ⟨fun row hrow => ?_, fun row hrow => ?_, hsourced.sessions, hsourced.members⟩
  · obtain ⟨c, quality, hrecorded, hkeys⟩ := hsourced.encodings row hrow
    exact ⟨c, quality, hrecorded.later t, hkeys⟩
  · refine (hsourced.qualities row hrow).imp_right ?_
    rintro ⟨c, encoding, quality, hrecorded, hkeys⟩
    exact ⟨c, encoding, quality, hrecorded.later t, hkeys⟩

theorem Sourced.same {b b' : Process} (hsourced : Sourced ts b) (hdb : b'.db = b.db) :
    Sourced ts b' :=
  ⟨hdb ▸ hsourced.encodings, hdb ▸ hsourced.qualities, hdb ▸ hsourced.sessions,
    hdb ▸ hsourced.members⟩

/-- The event was started in the history, and the liveness scores of the sessions have been
writable ones since. -/
def StartedIn (ts : List (Transition House HouseTurn)) (e : Event) (Past : Process → Prop) :
    Prop :=
  (∃ t ∈ ts, t.label = .start e) ∧
    ∀ b, Past b → ∀ row ∈ b.db.sessions.rows, Liveness row.livenessScore

theorem reaches_startedIn {b : Process} (hsourced : Sourced ts b)
    (t : Transition House HouseTurn) :
    Pool.Reaches (StartedIn ts) (StartedIn (ts ++ [t])) b := by
  rintro e Past ⟨⟨u, hu, hstart⟩, hpast⟩
  refine ⟨fun s => Past s ∨ s = b, ⟨⟨u, List.mem_append_left _ hu, hstart⟩, ?_⟩, Or.inr rfl,
    fun _ => Or.inl⟩
  rintro s (hs | rfl)
  · exact hpast s hs
  · exact hsourced.sessions

/-- A permitted call of a started event keeps the rows sourced. -/
theorem Sourced.exec {b b' : Process} (hsourced : Sourced ts b) {c : Call} {r : Answer c}
    (hexec : Backend.exec c b = some (r, b')) {e : Event} {Past : Process → Prop}
    {heard : List (Answered Call Answer)} (hsince : StartedIn ts e Past)
    (hpermitted : Permitted e heard c) (hgiven : ∀ a ∈ heard, Pool.Given Backend.exec Past a) :
    Sourced ts b' := by
  obtain ⟨⟨t, ht, hstart⟩, hpast⟩ := hsince
  have hrows := rowsAfter_exec hexec
  constructor
  case encodings =>
    intro row hrow
    rcases hrows.encodings row hrow with hold | ⟨angle, rfl, hstored⟩
    · exact hsourced.encodings row hold
    · obtain ⟨capture, quality, hrecorded, hmember, hangle⟩ := hpermitted
      exact ⟨capture, quality, ⟨t, ht, e, hstart, hrecorded⟩, hmember, hangle ▸ hstored⟩
  case qualities =>
    intro row hrow
    rcases hrows.sessions row hrow with hnew | ⟨old, hold, columns, rfl, hcall⟩
    · exact Or.inl hnew.1
    · cases hscore : columns.qualityScore with
      | none =>
          have hkept : (columns.write old).qualityScore = old.qualityScore := by
            simp [Database.SessionColumns.write, hscore]
          rw [hkept]
          exact hsourced.qualities old hold
      | some score =>
          have hwritten : (columns.write old).qualityScore = score := by
            simp [Database.SessionColumns.write, hscore]
          rcases hcall with rfl | rfl
          · cases hscore
          · obtain ⟨capture, encoding, quality, hrecorded, hsession, hvalue⟩ :=
              hpermitted.1 score hscore
            exact Or.inr ⟨capture, encoding, quality, ⟨t, ht, e, hstart, hrecorded⟩, hsession,
              hwritten.trans hvalue⟩
  case sessions =>
    intro row hrow
    rcases hrows.sessions row hrow with hnew | ⟨old, hold, columns, rfl, hcall⟩
    · exact Or.inl hnew.2
    · cases hscore : columns.livenessScore with
      | none =>
          have hkept : (columns.write old).livenessScore = old.livenessScore := by
            simp [Database.SessionColumns.write, hscore]
          rw [hkept]
          exact hsourced.sessions old hold
      | some score =>
          have hwritten : (columns.write old).livenessScore = score := by
            simp [Database.SessionColumns.write, hscore]
          rcases hcall with rfl | rfl
          · cases hscore
          · rw [hwritten]
            exact hpermitted.2 score hscore
  case members =>
    intro row hrow score hscore
    rcases hrows.members row hrow with hnone | ⟨old, hold, hsame⟩ | ⟨m, enrolled, rfl⟩
    · cases hnone.symm.trans hscore
    · exact hsourced.members old hold score (hsame.trans hscore)
    · -- the session was read in a state whose scores were writable ones
      obtain ⟨s, session, rfl, hheard⟩ := hpermitted score hscore
      obtain ⟨earlier, _, hearlier, hanswer⟩ := hgiven _ hheard
      have hfound : earlier.db.sessions.find? s = some session :=
        (Prod.mk.inj (Option.some.inj hanswer)).1
      exact hpast earlier hearlier session (Table.find?_mem hfound).1

theorem sourced_step (hsourced : Sourced ts h.shared)
    (hwitnessed : Pool.Witnessed exec Permitted (StartedIn ts) h)
    (hnext : interleaved.next h turn = some h') :
    Sourced (ts ++ [⟨h, turn, h'⟩]) h'.shared ∧
      Pool.Witnessed exec Permitted (StartedIn (ts ++ [⟨h, turn, h'⟩])) h' := by
  have hreach := reaches_startedIn hsourced ⟨h, turn, h'⟩
  cases turn with
  | start e =>
      obtain ⟨b, hready, rfl⟩ := Option.map_eq_some_iff.mp hnext
      have hstarted : StartedIn
          (ts ++ [⟨h, .start e, Pool.spawn { h with shared := b } e e.program⟩])
          e fun _ => False :=
        ⟨⟨_, List.mem_append_right _ (List.mem_singleton_self _), rfl⟩, fun _ hb => hb.elim⟩
      have hwaiting : Pool.Witnessed exec Permitted (StartedIn ts) { h with shared := b } :=
        fun t ht => hwitnessed t ht
      refine ⟨?_, (hwaiting.later hreach).spawn hstarted (permitted_program e)⟩
      rw [Pool.spawn_shared]
      exact (hsourced.same (ready_same hready).1).later _
  | step i =>
      obtain ⟨who, c, k, q, spec⟩ := Pool.stepAt_spec hnext
      obtain ⟨hlater, Past, heard, hsince, hpermitted, hgiven⟩ := hwitnessed.step spec hreach
      refine ⟨?_, hlater⟩
      rcases spec.result with ⟨_, _, hsame⟩ | ⟨r, hexec, _⟩
      · exact hsame ▸ hsourced.later _
      · exact (hsourced.exec hexec hsince hpermitted hgiven).later _
  | restart onPi clock =>
      obtain ⟨_, hboot⟩ := Option.ite_none_right_eq_some.mp hnext
      cases hboot
      refine ⟨Sourced.later ?_ _, fun t ht => by cases ht⟩
      exact hsourced.same rfl

theorem sourced_of_run {onPi : Bool} {clock : Timestamp}
    (hrun : interleaved.Run (powerOn onPi clock) ts h) : Sourced ts h.shared := by
  suffices hboth : Sourced ts h.shared ∧ Pool.Witnessed exec Permitted (StartedIn ts) h from hboth.1
  induction hrun with
  | nil =>
      refine ⟨⟨?_, ?_, ?_, ?_⟩, fun t ht => by cases ht⟩
      · exact fun row hrow => by cases hrow
      · exact fun row hrow => by cases hrow
      · exact fun row hrow => by cases hrow
      · exact fun row hrow => by cases hrow
  | snoc _ hnext ih => exact sourced_step ih.1 ih.2 hnext

/-! ## The pictures -/

/-- What a request looks through: the encoder, and the frame that the camera has at each
attempt. -/
structure Vision (Image : Type) where
  pipeline : FacePipeline Image
  frames : Nat → Option Image

/-- What the request sees is what this encoder makes of its pictures. -/
structure SeenThrough {Image : Type} (vision : Vision Image) (seen : Surroundings) : Prop where
  documented : vision.pipeline.Documented
  posted : ∀ jpeg, seen.encode jpeg = encodeFaceFromJpeg vision.pipeline jpeg
  frames : ∀ i, seen.sight.frames i = (vision.frames i).map (encodeFaceFromImage vision.pipeline)

/-- The turn starts no request, or one whose pictures go through its encoder. -/
def Encodes {Image : Type} (visionOf : Surroundings → Vision Image) : HouseTurn → Prop
  | .start (.request _ seen) => SeenThrough (visionOf seen) seen
  | _ => True

/-- The picture of the capture: the posted one, or else the frame of the camera. -/
def CaptureOf.Shows {Image : Type} (c : CaptureOf) (vision : Vision Image)
    (library : FaceRecognition Image) (picture : Image) : Prop :=
  match c.jpeg with
  | some jpeg => library.loadImageFile jpeg = some picture
  | none => vision.frames 0 = some picture

/-- The face is the largest one of the picture of the capture, or was made up without the
library. -/
inductive Pictured {Image : Type} (vision : Vision Image) (c : CaptureOf) (encoding : Encoding)
    (quality : ℚ) : Prop
  | found (library : FaceRecognition Image) (picture : Image) :
      vision.pipeline = .available library → c.Shows vision library picture →
      Encoded library picture encoding quality → Pictured vision c encoding quality
  | madeUp : vision.pipeline = .unavailable encoding → quality = 92 / 100 →
      Pictured vision c encoding quality

variable {Image : Type} {vision : Vision Image} {visionOf : Surroundings → Vision Image}

theorem Pictured.quality {c : CaptureOf} {encoding : Encoding} {quality : ℚ}
    (h : Pictured vision c encoding quality) : Quality quality := by
  cases h with
  | found _ _ _ _ hencoded => exact hencoded.quality
  | madeUp _ hfake => exact hfake ▸ quality_fake

theorem pictured_of_posted {seen : Surroundings} (hseen : SeenThrough vision seen)
    {c : CaptureOf} {jpeg : Jpeg} (hjpeg : c.jpeg = some jpeg) {encoding : Encoding} {quality : ℚ}
    (h : seen.encode jpeg = .face encoding quality) : Pictured vision c encoding quality := by
  rw [hseen.posted] at h
  rcases shown_of_jpeg hseen.documented h with
    ⟨hfake, hquality⟩ | ⟨library, picture, hlibrary, hload, hencoded⟩
  · exact .madeUp hfake hquality
  · have hshows : c.Shows vision library picture := by
      simpa [CaptureOf.Shows, hjpeg] using hload
    exact .found library picture hlibrary hshows hencoded

theorem pictured_of_frame {seen : Surroundings} (hseen : SeenThrough vision seen)
    {c : CaptureOf} (hjpeg : c.jpeg = none) {encoding : Encoding} {quality : ℚ}
    (h : seen.sight.frames 0 = some (.face encoding quality)) :
    Pictured vision c encoding quality := by
  rw [hseen.frames] at h
  obtain ⟨frame, hframe, hencode⟩ := Option.map_eq_some_iff.mp h
  cases shown_of_image hseen.documented hencode with
  | found library hlibrary hencoded =>
      have hshows : c.Shows vision library frame := by
        simpa [CaptureOf.Shows, hjpeg] using hframe
      exact .found library frame hlibrary hshows hencoded
  | madeUp hfake hquality => exact .madeUp hfake hquality

/-- A capture request of the history recorded the face, and this request was shown it. -/
def ShownIn (visionOf : Surroundings → Vision Image) (ts : List (Transition House HouseTurn))
    (c : CaptureOf) (encoding : Encoding) (quality : ℚ) : Prop :=
  ∃ t ∈ ts, ∃ a seen, t.label = .start (.request a seen) ∧
    Recorded (.request a seen) c encoding quality ∧ Pictured (visionOf seen) c encoding quality

theorem shownIn_of_recordedIn {c : CaptureOf} {encoding : Encoding} {quality : ℚ}
    (hturns : ∀ t ∈ ts, Encodes visionOf t.label) (hin : RecordedIn ts c encoding quality) :
    ShownIn visionOf ts c encoding quality := by
  obtain ⟨t, ht, e, hstart, hrecorded⟩ := hin
  have hencodes : Encodes visionOf (.start e) := hstart ▸ hturns t ht
  obtain ⟨hcapture, houtcome⟩ := hrecorded
  unfold Event.capture? at hcapture
  split at hcapture
  case h_1 m s angle image seen =>
    cases hcapture
    exact ⟨t, ht, _, seen, hstart, ⟨rfl, houtcome⟩, pictured_of_posted hencodes rfl houtcome⟩
  case h_2 m s angle image seen =>
    cases hcapture
    exact ⟨t, ht, _, seen, hstart, ⟨rfl, houtcome⟩, pictured_of_posted hencodes rfl houtcome⟩
  case h_3 m s angle seen =>
    obtain ⟨outcome, hframe, rfl⟩ := Option.map_eq_some_iff.mp hcapture
    have hface : seen.sight.frames 0 = some (.face encoding quality) :=
      hframe.trans (congrArg some houtcome)
    exact ⟨t, ht, _, seen, hstart, ⟨hcapture, houtcome⟩, pictured_of_frame hencodes rfl hface⟩
  case h_4 => cases hcapture

theorem liveness_bounds {score : ℚ} (h : Liveness score) :
    score = 0 ∨ 83 / 100 ≤ score ∧ score ≤ 96 / 100 := by
  rcases h with rfl | ⟨captures, hpos, rfl⟩
  · exact Or.inl rfl
  · have hone : (1 : ℚ) ≤ captures := by exact_mod_cast hpos
    exact Or.inr ⟨le_min (by norm_num) (by linarith), min_le_left _ _⟩

structure Portrayed (visionOf : Surroundings → Vision Image)
    (ts : List (Transition House HouseTurn)) (b : Process) : Prop where
  encodings : ∀ row ∈ b.db.encodings.rows, ∃ c quality,
    ShownIn visionOf ts c row.encoding quality ∧ c.member = row.memberId ∧
      c.angle.stored? = some row.angle
  qualities : ∀ row ∈ b.db.sessions.rows, row.qualityScore = 0 ∨ ∃ c encoding quality,
    ShownIn visionOf ts c encoding quality ∧ c.session = row.sessionId ∧
      row.qualityScore = min (98 / 100) quality
  quality : ∀ row ∈ b.db.sessions.rows, 0 ≤ row.qualityScore ∧ row.qualityScore ≤ 98 / 100
  session : ∀ row ∈ b.db.sessions.rows,
    row.livenessScore = 0 ∨ 83 / 100 ≤ row.livenessScore ∧ row.livenessScore ≤ 96 / 100
  member : ∀ row ∈ b.db.members.rows, ∀ score, row.livenessScore = some score →
    score = 0 ∨ 83 / 100 ≤ score ∧ score ≤ 96 / 100

/-- In every run each stored face is the largest one of the picture of a capture request for
its member, each quality is that of such a picture, and the scores stay in their ranges. -/
theorem portrayed_of_run {onPi : Bool} {clock : Timestamp}
    (hrun : interleaved.Run (powerOn onPi clock) ts h)
    (hturns : ∀ t ∈ ts, Encodes visionOf t.label) : Portrayed visionOf ts h.shared := by
  have hsourced := sourced_of_run hrun
  constructor
  case encodings =>
    intro row hrow
    obtain ⟨c, quality, hin, hmember, hangle⟩ := hsourced.encodings row hrow
    exact ⟨c, quality, shownIn_of_recordedIn hturns hin, hmember, hangle⟩
  case qualities =>
    intro row hrow
    refine (hsourced.qualities row hrow).imp_right ?_
    rintro ⟨c, encoding, quality, hin, hsession, hvalue⟩
    exact ⟨c, encoding, quality, shownIn_of_recordedIn hturns hin, hsession, hvalue⟩
  case quality =>
    intro row hrow
    rcases hsourced.qualities row hrow with hzero | ⟨c, encoding, quality, hin, _, hvalue⟩
    · rw [hzero]
      exact ⟨le_rfl, by norm_num⟩
    · obtain ⟨_, _, _, _, _, _, hpictured⟩ := shownIn_of_recordedIn hturns hin
      rw [hvalue]
      exact ⟨le_min (by norm_num) hpictured.quality.nonneg, min_le_left _ _⟩
  case session => exact fun row hrow => liveness_bounds (hsourced.sessions row hrow)
  case member =>
    exact fun row hrow score hscore => liveness_bounds (hsourced.members row hrow score hscore)

/-- A library that finds two faces in every picture of a hundred pixels square. -/
def twoFaces : FaceRecognition Unit where
  height _ := 100
  width _ := 100
  applyClahe image := some image
  faceLocations _ := some [⟨0, 10, 10, 0⟩, ⟨20, 70, 80, 10⟩]
  faceEncodings _ locations := some (locations.map fun box => [(box.area : ℚ)])
  loadImageFile _ := some ()

theorem documented_twoFaces : twoFaces.Documented := by
  constructor
  · intro image locations h
    cases h
    simp [twoFaces]
  · intro image locations encodings h
    cases h
    exact List.length_map _

def crowd : Vision Unit := ⟨.available twoFaces, fun _ => none⟩

def inTheCrowd : Surroundings := { nobody with encode := encodeFaceFromJpeg crowd.pipeline }

def enrolledInTheCrowd : List HouseTurn :=
  [.start (.request (.addMember "Ana" "Family") inTheCrowd), .step 0,
    .start (.request (.startEnrollment 0) inTheCrowd), .step 0, .step 0,
    .start (.request (.uploadCapture 0 1 "front" [255]) inTheCrowd)] ++ List.replicate 6 (.step 0)

theorem portrayed_enrolledInTheCrowd : ∃ ts h, interleaved.Run (powerOn false 0) ts h ∧
    (h.shared.db.encodings.rows.map EncodingRow.encoding = [[3600]] ∧
      h.shared.db.sessions.rows.map SessionRow.qualityScore = [98 / 100]) ∧
        Portrayed (fun _ => crowd) ts h.shared := by
  have hend : (interleaved.trace (powerOn false 0) enrolledInTheCrowd).map (fun (_, h) =>
      (h.shared.db.encodings.rows.map EncodingRow.encoding,
        h.shared.db.sessions.rows.map SessionRow.qualityScore)) = some ([[3600]], [98 / 100]) := by
    decide +kernel
  obtain ⟨⟨ts, h⟩, htrace, hrows⟩ := Option.map_eq_some_iff.mp hend
  have hseen : SeenThrough crowd inTheCrowd := ⟨documented_twoFaces, fun _ => rfl, fun _ => rfl⟩
  have hturns : ∀ t ∈ ts, Encodes (fun _ => crowd) t.label := by
    intro t ht
    have hlabel := Machine.labels_of_trace htrace ▸ List.mem_map_of_mem ht
    have hall : ∀ turn ∈ enrolledInTheCrowd, Encodes (fun _ => crowd) turn := by
      simp [enrolledInTheCrowd, Encodes, hseen]
    exact hall t.label hlabel
  have hrun := Machine.run_of_trace htrace
  exact ⟨ts, h, hrun, Prod.mk.inj hrows, portrayed_of_run hrun hturns⟩

end FacialCamera.Recognition
