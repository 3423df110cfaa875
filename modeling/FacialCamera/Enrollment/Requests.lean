import FacialCamera.Core.Machine
import FacialCamera.Backend.Enrollment

/-! # What each enrollment request does to the tables

Every member, enrollment and template request is described once by its deed: the
rows it writes, decided from the tables it finds. The results on the enrollment
tables are about deeds and never unfold a handler again.
-/

namespace FacialCamera.Enrollment

open FacialCamera.Core Backend

inductive Request where
  | addMember (name role : String)
  | removeMember (m : Uuid)
  | startEnrollment (m : Uuid)
  | pollEnrollment (m s : Uuid)
  | uploadCapture (m s : Uuid) (angle : String) (image : EncoderOutcome)
  | uploadCaptureB64 (m s : Uuid) (body : Option CaptureBody)
  | piCameraCapture (m s : Uuid) (angle : String) (frame : Option EncoderOutcome)
  | completeEnrollment (m s : Uuid)
  | cancelEnrollment (m s : Uuid)
  | removeFaceTemplate (m : Uuid)

def Request.program : Request → Proc Unit
  | .addMember name role => (Backend.addMember name role).forget
  | .removeMember m => (Backend.removeMember m).forget
  | .startEnrollment m => (Backend.startEnrollment m).forget
  | .pollEnrollment m s => (Backend.pollEnrollment m s).forget
  | .uploadCapture m s angle image => (Backend.uploadCapture m s angle image).forget
  | .uploadCaptureB64 m s body => (Backend.uploadCaptureB64 m s body).forget
  | .piCameraCapture m s angle frame => (Backend.piCameraCapture m s angle frame).forget
  | .completeEnrollment m s => (Backend.completeEnrollment m s).forget
  | .cancelEnrollment m s => (Backend.cancelEnrollment m s).forget
  | .removeFaceTemplate m => (Backend.removeFaceTemplate m).forget

def Request.upload? : Request → Option (Uuid × Uuid)
  | .uploadCapture m s _ _ => some (m, s)
  | .uploadCaptureB64 m s _ => some (m, s)
  | _ => none

def Request.capture? : Request → Option (Uuid × Uuid)
  | .piCameraCapture m s _ _ => some (m, s)
  | r => r.upload?

def Request.perform (r : Request) (b : Process) : Process := (r.program.run exec b).2

/-! ## Deeds -/

/-- `capture` has no columns where the handler raises right after the encoding is stored. -/
inductive Deed where
  | nothing
  | addMember (name role : String)
  | removeMember (m : Uuid)
  | start (m : Uuid)
  | note (s : Uuid) (message : Message)
  | capture (m s : Uuid) (encoding : Encoding) (stored : String)
      (columns : Option Database.SessionColumns)
  | complete (m s : Uuid) (liveness : ℚ)
  | cancel (m s : Uuid)
  | removeTemplate (m : Uuid)
  deriving DecidableEq

def Deed.apply (now : Timestamp) (db : Database) : Deed → Database
  | .nothing => db
  | .addMember name role => (db.addMember name role now).2
  | .removeMember m => (db.deleteFaceEncodings m).deleteMember m
  | .start m => ((db.createEnrollmentSession m now).map Prod.snd).getD db
  | .note s message => db.updateEnrollmentSession s { message := some message }
  | .capture m s encoding stored columns =>
      match db.storeFaceEncoding m encoding (.text stored) now with
      | none => db
      | some db' =>
          match columns with
          | none => db'
          | some columns => db'.updateEnrollmentSession s columns
  | .complete m s liveness =>
      ((db.updateEnrollmentSession s (completedColumns now)).updateMemberFaceEnrolled m true
        (some liveness) now).drawUuid.2
  | .cancel _ s => db.updateEnrollmentSession s cancelledColumns
  | .removeTemplate m => (db.deleteFaceEncodings m).updateMemberFaceEnrolled m false none now

/-- The session of that id, if it is the member's. -/
def ownSession (db : Database) (m s : Uuid) : Option SessionRow :=
  (db.getEnrollmentSession s).filter fun session => session.memberId = m

def captureDeed (db : Database) (texts : CaptureTexts) (m s : Uuid) (angle : Angle) :
    EncoderOutcome → Deed
  | .raises => .nothing
  | .noFace => .note s (texts.noFace angle)
  | .face encoding quality =>
      match angle.stored? with
      | none => .nothing
      | some stored =>
          if db.members.Has m then
            let captures := (db.selectCapturesCount s).getD 0 + 1
            .capture m s encoding stored
              ((captureMessage texts captures angle).map (captureColumns captures quality))
          else .nothing

def bodyDeed (db : Database) (m s : Uuid) : Option CaptureBody → Deed
  | some ⟨some angle, some image⟩ => captureDeed db uploadTexts m s angle image
  | _ => .nothing

def Admitted (db : Database) (m s : Uuid) : Prop :=
  ∃ session ∈ ownSession db m s, session.status.isOpen = true

instance (db : Database) (m s : Uuid) : Decidable (Admitted db m s) :=
  inferInstanceAs (Decidable (∃ session ∈ ownSession db m s, _))

/-- What a request executed on `db` without interruption does. -/
def Request.deed (db : Database) : Request → Deed
  | .addMember name role => .addMember name role
  | .removeMember m => if (db.getMember m).isSome then .removeMember m else .nothing
  | .startEnrollment m => if (db.getMember m).isSome then .start m else .nothing
  | .pollEnrollment _ _ => .nothing
  | .uploadCapture m s angle image =>
      if Admitted db m s then captureDeed db uploadTexts m s (.text angle) image else .nothing
  | .uploadCaptureB64 m s body => if Admitted db m s then bodyDeed db m s body else .nothing
  | .piCameraCapture m s angle frame =>
      match frame with
      | none => .nothing
      | some image =>
          if Admitted db m s then captureDeed db cameraTexts m s (.text angle) image else .nothing
  | .completeEnrollment m s =>
      match ownSession db m s with
      | none => .nothing
      | some session => .complete m s session.livenessScore
  | .cancelEnrollment m s => if (ownSession db m s).isSome then .cancel m s else .nothing
  | .removeFaceTemplate m => if (db.getMember m).isSome then .removeTemplate m else .nothing

/-- `angle.upper()` is defined on every angle of a form or a query. -/
theorem exists_captureMessage (texts : CaptureTexts) (captures : Nat) (angle : String) :
    ∃ message, captureMessage texts captures (.text angle) = some message := by
  unfold captureMessage
  split
  · exact ⟨texts.allCaptured, rfl⟩
  · exact ⟨texts.captured angle, rfl⟩

/-! ## The handlers do their deeds -/

section Deeds

attribute [local simp] exec Program.run_call Program.run_forget

variable (b : Process)

theorem run_sessionOf (m s : Uuid) :
    (sessionOf m s).run exec b = (some (ownSession b.db m s), b) := by
  cases h : b.db.getEnrollmentSession s with
  | none => simp [sessionOf, ownSession, h]
  | some session =>
      by_cases hm : session.memberId = m <;> simp [sessionOf, ownSession, Option.filter, h, hm]

def refusal (db : Database) (texts : CaptureTexts) (m s : Uuid) : Option HTTPException :=
  match ownSession db m s with
  | none => some sessionNotFound
  | some session =>
      if session.status.isOpen then none
      else some ⟨400, "Session is '" ++ session.status.text ++ "', " ++ texts.refusal⟩

theorem run_guardCapture (texts : CaptureTexts) (m s : Uuid) :
    (guardCapture texts m s).run exec b = (some (refusal b.db texts m s), b) := by
  rw [guardCapture, Program.run_bind, run_sessionOf]
  cases h : ownSession b.db m s with
  | none => simp [refusal, h]
  | some session => simp [refusal, h]

theorem refusal_eq_none_iff (db : Database) (texts : CaptureTexts) (m s : Uuid) :
    refusal db texts m s = none ↔ Admitted db m s := by
  cases h : ownSession db m s with
  | none => simp [refusal, Admitted, h]
  | some session =>
      cases hopen : session.status.isOpen <;> simp [refusal, Admitted, h, hopen]

/-- A handler behind the guard runs on or changes nothing. -/
theorem run_guarded {α : Type} (texts : CaptureTexts) (m s : Uuid)
    (k : Option HTTPException → Proc (Reply α)) (hrefuse : ∀ e, k (some e) = .done (.error e)) :
    ((guardCapture texts m s >>= k).run exec b).2 =
      if Admitted b.db m s then ((k none).run exec b).2 else b := by
  rw [Program.run_bind, run_guardCapture]
  by_cases hadmitted : Admitted b.db m s
  · rw [if_pos hadmitted, (refusal_eq_none_iff b.db texts m s).mpr hadmitted]
  · obtain ⟨e, he⟩ := Option.ne_none_iff_exists'.mp
      (mt (refusal_eq_none_iff b.db texts m s).mp hadmitted)
    rw [if_neg hadmitted, he]
    exact congrArg (fun p : Proc (Reply α) => (p.run exec b).2) (hrefuse e)

theorem storeFaceEncoding_text {db : Database} {m : Uuid} {encoding : Encoding} {angle : Angle}
    {stored : String} (h : angle.stored? = some stored) (now : Timestamp) :
    db.storeFaceEncoding m encoding angle now =
      db.storeFaceEncoding m encoding (.text stored) now := by
  rw [Database.storeFaceEncoding, h]
  rfl

theorem exists_storeFaceEncoding {db : Database} (now : Timestamp) {m : Uuid}
    (h : db.members.Has m) (encoding : Encoding) (angle : String) :
    ∃ db', db.storeFaceEncoding m encoding (.text angle) now = some db' ∧
      db.EncodingStored m encoding (.text angle) now db' := by
  obtain ⟨db', hdb⟩ : ∃ db', db.storeFaceEncoding m encoding (.text angle) now = some db' := by
    apply Option.ne_none_iff_exists'.mp
    simp [Ne, Database.storeFaceEncoding_eq_none_iff, Angle.stored?, h]
  exact ⟨db', hdb, db.storeFaceEncoding_spec hdb⟩

theorem run_recordCapture (texts : CaptureTexts) (m s : Uuid) (angle : Angle)
    (image : EncoderOutcome) :
    ((recordCapture texts m s angle image).run exec b).2 =
      { b with db := (captureDeed b.db texts m s angle image).apply b.clock b.db } := by
  cases image with
  | raises => simp [recordCapture, captureDeed, Deed.apply]
  | noFace => simp [recordCapture, captureDeed, Deed.apply]
  | face encoding quality =>
      cases hstored : angle.stored? with
      | none =>
          have hraise : b.db.storeFaceEncoding m encoding angle b.clock = none := by
            simp [Database.storeFaceEncoding_eq_none_iff, hstored]
          simp [recordCapture, captureDeed, hstored, hraise, Deed.apply]
      | some stored =>
          by_cases hm : b.db.members.Has m
          swap
          · have hraise : b.db.storeFaceEncoding m encoding angle b.clock = none := by
              simp [Database.storeFaceEncoding_eq_none_iff, hm]
            simp [recordCapture, captureDeed, hstored, hm, hraise, Deed.apply]
          obtain ⟨db', hdb, hspec⟩ := exists_storeFaceEncoding b.clock hm encoding stored
          have hangle := (storeFaceEncoding_text hstored b.clock).trans hdb
          have hcount : db'.selectCapturesCount s = b.db.selectCapturesCount s := by
            rw [Database.selectCapturesCount, hspec.sessions]
            rfl
          cases hmessage : captureMessage texts ((b.db.selectCapturesCount s).getD 0 + 1) angle <;>
            simp [recordCapture, captureDeed, hstored, hm, hdb, hangle, hcount, hmessage,
              Deed.apply]

theorem run_recordBody (m s : Uuid) (body : Option CaptureBody) :
    ((recordBody m s body).run exec b).2 =
      { b with db := (bodyDeed b.db m s body).apply b.clock b.db } := by
  match body with
  | none => rfl
  | some ⟨some angle, some image⟩ => exact run_recordCapture b uploadTexts m s angle image
  | some ⟨none, _⟩ => rfl
  | some ⟨some _, none⟩ => rfl

theorem perform_eq (r : Request) :
    r.perform b = { b with db := (r.deed b.db).apply b.clock b.db } := by
  unfold Request.perform Request.program
  cases r with
  | addMember name role => simp [Backend.addMember, Request.deed, Deed.apply]
  | removeMember m =>
      cases h : b.db.getMember m <;>
        simp [Backend.removeMember, Request.deed, Deed.apply, h]
  | startEnrollment m =>
      cases h : b.db.getMember m with
      | none => simp [Backend.startEnrollment, Request.deed, Deed.apply, h]
      | some member =>
          cases hs : b.db.createEnrollmentSession m b.clock <;>
            simp [Backend.startEnrollment, Request.deed, Deed.apply, h, hs]
  | pollEnrollment m s =>
      rw [Program.run_forget, Backend.pollEnrollment, Program.run_bind, run_sessionOf]
      cases ownSession b.db m s <;> simp [Request.deed, Deed.apply]
  | uploadCapture m s angle image =>
      rw [Program.run_forget, Backend.uploadCapture, run_guarded]
      · by_cases hadmitted : Admitted b.db m s <;>
          simp [Request.deed, hadmitted, run_recordCapture, Deed.apply]
      · exact fun _ => rfl
  | uploadCaptureB64 m s body =>
      rw [Program.run_forget, Backend.uploadCaptureB64, run_guarded]
      · by_cases hadmitted : Admitted b.db m s <;>
          simp [Request.deed, hadmitted, run_recordBody, Deed.apply]
      · exact fun _ => rfl
  | piCameraCapture m s angle frame =>
      rw [Program.run_forget, Backend.piCameraCapture.eq_def, run_guarded]
      · by_cases hadmitted : Admitted b.db m s <;> cases frame <;>
          simp [Request.deed, hadmitted, run_recordCapture, Deed.apply]
      · exact fun _ => rfl
  | completeEnrollment m s =>
      rw [Program.run_forget, Backend.completeEnrollment, Program.run_bind, run_sessionOf]
      cases hown : ownSession b.db m s with
      | none => simp [Request.deed, hown, Deed.apply]
      | some session =>
          simp only [Request.deed, hown, Deed.apply, Db.updateEnrollmentSession, issue,
            Program.perform, Program.call_bind, Program.done_bind, Program.run_call, exec,
            Db.updateMemberFaceEnrolled, Db.getMember]
          split <;> rfl
  | cancelEnrollment m s =>
      rw [Program.run_forget, Backend.cancelEnrollment, Program.run_bind, run_sessionOf]
      cases hown : ownSession b.db m s <;> simp [Request.deed, hown, Deed.apply]
  | removeFaceTemplate m =>
      cases h : b.db.getMember m <;>
        simp [Backend.removeFaceTemplate, Request.deed, Deed.apply, h]

end Deeds

/-! ## Requests one at a time -/

structure Arrival where
  clock : ℚ
  request : Request

/-- Every sequence of requests, each executed without interruption. -/
def serve : Machine Process Arrival where
  next b a :=
    if b.clock ≤ a.clock then some (a.request.perform { b with clock := a.clock }) else none

def deedOf (t : Transition Process Arrival) : Deed := t.label.request.deed t.before.db

theorem serve_db {b b' : Process} {a : Arrival} (h : serve.next b a = some b') :
    b'.db = (deedOf ⟨b, a, b'⟩).apply a.clock b.db := by
  simp only [serve, Option.ite_none_right_eq_some, Option.some.injEq] at h
  rw [← h.2, perform_eq]
  rfl

/-! ## What a deed leaves in the tables -/

/-- The face gate of the recognizer is open for the member. -/
def enrolled (db : Database) (m : Uuid) : Bool :=
  ((db.getMember m).map MemberRow.faceEnrolled).getD false

def stored (db : Database) (m : Uuid) : List EncodingRow :=
  db.encodings.rows.filter fun e => e.memberId = m

namespace Deed

variable (now : Timestamp) (db : Database)

def memberAfter (m' : Uuid) : Deed → Option MemberRow
  | .addMember name role =>
      if db.uuids = m' then some (db.newMember name role now) else db.getMember m'
  | .removeMember m => if m = m' then none else db.getMember m'
  | .complete m _ liveness =>
      if m = m' then (db.getMember m').map (Database.enrolledColumns true (some liveness) now)
      else db.getMember m'
  | .removeTemplate m =>
      if m = m' then (db.getMember m').map (Database.enrolledColumns false none now)
      else db.getMember m'
  | _ => db.getMember m'

def enrolledAfter (m' : Uuid) : Deed → Bool
  | .complete m _ _ => if m = m' then true else enrolled db m'
  | .removeMember m => if m = m' then false else enrolled db m'
  | .removeTemplate m => if m = m' then false else enrolled db m'
  | _ => enrolled db m'

def storedAfter (m' : Uuid) : Deed → List EncodingRow
  | .capture m _ encoding angle _ =>
      if m = m' then stored db m' ++ [db.newEncoding m encoding angle now] else stored db m'
  | .removeMember m => if m = m' then [] else stored db m'
  | .removeTemplate m => if m = m' then [] else stored db m'
  | _ => stored db m'

def columnsFor (s' : Uuid) : Deed → Option Database.SessionColumns
  | .note s message => if s = s' then some { message := some message } else none
  | .capture _ s _ _ columns => if s = s' then columns else none
  | .complete _ s _ => if s = s' then some (completedColumns now) else none
  | .cancel _ s => if s = s' then some cancelledColumns else none
  | _ => none

def revise (d : Deed) (row : SessionRow) : SessionRow :=
  ((d.columnsFor now row.sessionId).map fun u => u.write row).getD row

def sessionAfter (s' : Uuid) : Deed → Option SessionRow
  | .start m => if db.uuids = s' then some (db.newSession m now) else db.getEnrollmentSession s'
  | .removeMember m => (db.getEnrollmentSession s').filter fun r => r.memberId ≠ m
  | d => (db.getEnrollmentSession s').map (d.revise now)

/-- What the handler has checked before it does the deed. -/
def Valid : Deed → Prop
  | .removeMember m => (db.getMember m).isSome
  | .start m => (db.getMember m).isSome
  | .capture m _ _ _ _ => db.members.Has m
  | .complete m s _ => (ownSession db m s).isSome
  | .cancel m s => (ownSession db m s).isSome
  | .removeTemplate m => (db.getMember m).isSome
  | _ => True

end Deed

/-- A body that is not a full capture does nothing. -/
theorem bodyDeed_cases (db : Database) (m s : Uuid) (body : Option CaptureBody) :
    bodyDeed db m s body = .nothing ∨
      ∃ angle image, bodyDeed db m s body = captureDeed db uploadTexts m s angle image := by
  match body with
  | none => exact Or.inl rfl
  | some ⟨some angle, some image⟩ => exact Or.inr ⟨angle, image, rfl⟩
  | some ⟨none, _⟩ => exact Or.inl rfl
  | some ⟨some _, none⟩ => exact Or.inl rfl

theorem captureDeed_valid (db : Database) (texts : CaptureTexts) (m s : Uuid) (angle : Angle)
    (image : EncoderOutcome) : (captureDeed db texts m s angle image).Valid db := by
  cases image with
  | raises => trivial
  | noFace => trivial
  | face encoding quality =>
      unfold captureDeed
      cases angle.stored? with
      | none => trivial
      | some stored =>
          by_cases hm : db.members.Has m
          · simp [hm, Deed.Valid]
          · simp [hm, Deed.Valid]

theorem bodyDeed_valid (db : Database) (m s : Uuid) (body : Option CaptureBody) :
    (bodyDeed db m s body).Valid db := by
  rcases bodyDeed_cases db m s body with hbody | ⟨angle, image, hbody⟩
  · rw [hbody]
    trivial
  · rw [hbody]
    exact captureDeed_valid db uploadTexts m s angle image

theorem deed_valid (db : Database) (r : Request) : (r.deed db).Valid db := by
  cases r with
  | addMember name role => trivial
  | removeMember m => by_cases h : (db.getMember m).isSome <;> simp [Request.deed, Deed.Valid, h]
  | startEnrollment m => by_cases h : (db.getMember m).isSome <;> simp [Request.deed, Deed.Valid, h]
  | pollEnrollment m s => trivial
  | uploadCapture m s angle image =>
      by_cases h : Admitted db m s
      · simpa [Request.deed, h] using captureDeed_valid db uploadTexts m s (.text angle) image
      · simp [Request.deed, h, Deed.Valid]
  | uploadCaptureB64 m s body =>
      by_cases h : Admitted db m s
      · simpa [Request.deed, h] using bodyDeed_valid db m s body
      · simp [Request.deed, h, Deed.Valid]
  | piCameraCapture m s angle frame =>
      cases frame with
      | none => trivial
      | some image =>
          by_cases h : Admitted db m s
          · simpa [Request.deed, h] using captureDeed_valid db cameraTexts m s (.text angle) image
          · simp [Request.deed, h, Deed.Valid]
  | completeEnrollment m s =>
      cases h : ownSession db m s <;> simp [Request.deed, Deed.Valid, h]
  | cancelEnrollment m s =>
      by_cases h : (ownSession db m s).isSome <;> simp [Request.deed, Deed.Valid, h]
  | removeFaceTemplate m =>
      by_cases h : (db.getMember m).isSome <;> simp [Request.deed, Deed.Valid, h]

theorem deedOf_valid (t : Transition Process Arrival) : (deedOf t).Valid t.before.db :=
  deed_valid t.before.db t.label.request

structure Captures (db : Database) (m s : Uuid) (columns : Option Database.SessionColumns) :
    Prop where
  member : db.members.Has m
  columns : ∀ c ∈ columns, ∃ quality message,
    c = captureColumns ((db.selectCapturesCount s).getD 0 + 1) quality message

theorem captureDeed_eq_capture {db : Database} {texts : CaptureTexts} {m m' s s' : Uuid}
    {angle : Angle} {image : EncoderOutcome} {encoding : Encoding} {stored : String}
    {columns : Option Database.SessionColumns}
    (h : captureDeed db texts m s angle image = .capture m' s' encoding stored columns) :
    m' = m ∧ s' = s ∧ Captures db m s columns := by
  cases image with
  | raises => cases h
  | noFace => cases h
  | face encoding quality =>
      unfold captureDeed at h
      cases ha : angle.stored? with
      | none => simp [ha] at h
      | some text =>
          by_cases hm : db.members.Has m
          swap
          · simp [ha, hm] at h
          simp only [ha, hm, if_true, Deed.capture.injEq] at h
          obtain ⟨rfl, rfl, _, _, rfl⟩ := h
          refine ⟨rfl, rfl, hm, fun c hc => ?_⟩
          obtain ⟨message, _, rfl⟩ := Option.map_eq_some_iff.mp hc
          exact ⟨quality, message, rfl⟩

theorem bodyDeed_eq_capture {db : Database} {m m' s s' : Uuid} {body : Option CaptureBody}
    {encoding : Encoding} {stored : String} {columns : Option Database.SessionColumns}
    (h : bodyDeed db m s body = .capture m' s' encoding stored columns) :
    m' = m ∧ s' = s ∧ Captures db m s columns := by
  rcases bodyDeed_cases db m s body with hbody | ⟨angle, image, hbody⟩
  · rw [hbody] at h
    cases h
  · exact captureDeed_eq_capture (hbody ▸ h)

/-- A request that stores an encoding is a capture that has passed the guard. -/
theorem deed_eq_capture {db : Database} {r : Request} {m s : Uuid} {encoding : Encoding}
    {stored : String} {columns : Option Database.SessionColumns}
    (h : r.deed db = .capture m s encoding stored columns) :
    Admitted db m s ∧ r.capture? = some (m, s) ∧ Captures db m s columns := by
  cases r with
  | uploadCapture m' s' angle image =>
      simp only [Request.deed] at h
      split at h
      next hadmitted =>
        obtain ⟨rfl, rfl, hcaptures⟩ := captureDeed_eq_capture h
        exact ⟨hadmitted, rfl, hcaptures⟩
      next => cases h
  | uploadCaptureB64 m' s' body =>
      simp only [Request.deed] at h
      split at h
      next hadmitted =>
        obtain ⟨rfl, rfl, hcaptures⟩ := bodyDeed_eq_capture h
        exact ⟨hadmitted, rfl, hcaptures⟩
      next => cases h
  | piCameraCapture m' s' angle frame =>
      cases frame with
      | none => cases h
      | some image =>
          simp only [Request.deed] at h
          split at h
          next hadmitted =>
            obtain ⟨rfl, rfl, hcaptures⟩ := captureDeed_eq_capture h
            exact ⟨hadmitted, rfl, hcaptures⟩
          next => cases h
  | addMember name role => cases h
  | pollEnrollment m' s' => cases h
  | completeEnrollment m' s' =>
      simp only [Request.deed] at h
      split at h <;> cases h
  | removeMember m' | startEnrollment m' | cancelEnrollment m' s' | removeFaceTemplate m' =>
      simp only [Request.deed] at h
      split at h <;> cases h

theorem ownSession_eq_some_iff {db : Database} {m s : Uuid} {session : SessionRow} :
    ownSession db m s = some session ↔
      db.getEnrollmentSession s = some session ∧ session.memberId = m := by
  simp [ownSession, Option.filter_eq_some_iff]

/-- The member of a session exists. -/
theorem has_of_ownSession {db : Database} {m s : Uuid} {session : SessionRow}
    (h : ownSession db m s = some session) : db.members.Has m := by
  obtain ⟨hs, rfl⟩ := ownSession_eq_some_iff.mp h
  exact db.sessions_member session (Table.find?_mem hs).1

section Views

variable {db : Database} (now : Timestamp) {d : Deed}

theorem exists_createEnrollmentSession {m : Uuid} (h : (db.getMember m).isSome) :
    ∃ db', db.createEnrollmentSession m now = some (db.newSession m now, db') ∧
      db.SessionCreated m now (db.newSession m now) db' := by
  have hm : db.members.Has m := Table.has_iff_find?.mpr (Option.isSome_iff_exists.mp h)
  obtain ⟨⟨row, db'⟩, hdb⟩ : ∃ out, db.createEnrollmentSession m now = some out := by
    simp [Database.createEnrollmentSession, hm]
  have hspec := db.createEnrollmentSession_spec hdb
  obtain rfl := hspec.row
  exact ⟨db', hdb, hspec⟩

theorem getMember_apply (h : d.Valid db) (m' : Uuid) :
    (d.apply now db).getMember m' = d.memberAfter now db m' := by
  cases d with
  | nothing => rfl
  | note s message => rfl
  | cancel m s => rfl
  | addMember name role => exact db.getMember_addMember name role now m'
  | removeMember m => exact (db.deleteFaceEncodings m).getMember_deleteMember m m'
  | start m =>
      obtain ⟨db', hdb, hspec⟩ := exists_createEnrollmentSession now h
      simp [Deed.apply, Deed.memberAfter, hdb, Database.getMember, hspec.members]
  | capture m s encoding angle columns =>
      obtain ⟨db', hdb, hspec⟩ := exists_storeFaceEncoding now h encoding angle
      cases columns <;>
        simp [Deed.apply, Deed.memberAfter, hdb, Database.getMember,
          Database.updateEnrollmentSession, hspec.members]
  | complete m s liveness =>
      exact (db.updateEnrollmentSession s (completedColumns now)).getMember_updateMemberFaceEnrolled
        m m' true (some liveness) now
  | removeTemplate m =>
      exact (db.deleteFaceEncodings m).getMember_updateMemberFaceEnrolled m m' false none now

theorem enrolled_apply (h : d.Valid db) (m' : Uuid) :
    enrolled (d.apply now db) m' = d.enrolledAfter db m' := by
  rw [enrolled, getMember_apply now h]
  cases d with
  | addMember name role =>
      by_cases hm : db.uuids = m'
      · subst hm
        have hnone : db.getMember db.uuids = none := Table.find?_eq_none_iff.mpr db.member_fresh
        simp [Deed.memberAfter, Deed.enrolledAfter, enrolled, hnone, Database.newMember]
      · simp [Deed.memberAfter, Deed.enrolledAfter, enrolled, hm]
  | removeMember m =>
      by_cases hm : m = m' <;> simp [Deed.memberAfter, Deed.enrolledAfter, enrolled, hm]
  | complete m s liveness =>
      by_cases hm : m = m'
      · subst hm
        obtain ⟨session, hsession⟩ := Option.isSome_iff_exists.mp h
        obtain ⟨row, hrow⟩ := Table.has_iff_find?.mp (has_of_ownSession hsession)
        have hrow : db.getMember m = some row := hrow
        simp [Deed.memberAfter, Deed.enrolledAfter, hrow, Database.enrolledColumns]
      · simp [Deed.memberAfter, Deed.enrolledAfter, enrolled, hm]
  | removeTemplate m =>
      by_cases hm : m = m'
      · cases hrow : db.getMember m' <;>
          simp [Deed.memberAfter, Deed.enrolledAfter, hm, hrow, Database.enrolledColumns]
      · simp [Deed.memberAfter, Deed.enrolledAfter, enrolled, hm]
  | _ => rfl

theorem stored_deleteFaceEncodings (m m' : Uuid) :
    stored (db.deleteFaceEncodings m) m' = if m = m' then [] else stored db m' := by
  by_cases hm : m = m'
  · simp [stored, Database.deleteFaceEncodings, hm]
  · simp only [stored, Database.deleteFaceEncodings, Table.rows_deleteWhere, List.filter_filter,
      if_neg hm]
    refine List.filter_congr fun e _ => ?_
    by_cases he : e.memberId = m' <;> simp [he, Ne.symm hm]

theorem stored_apply (h : d.Valid db) (m' : Uuid) :
    stored (d.apply now db) m' = d.storedAfter now db m' := by
  cases d with
  | nothing => rfl
  | addMember name role => rfl
  | note s message => rfl
  | complete m s liveness => rfl
  | cancel m s => rfl
  | start m =>
      obtain ⟨db', hdb, hspec⟩ := exists_createEnrollmentSession now h
      simp [Deed.apply, Deed.storedAfter, hdb, stored, hspec.encodings]
  | capture m s encoding angle columns =>
      obtain ⟨db', hdb, hspec⟩ := exists_storeFaceEncoding now h encoding angle
      obtain ⟨text, htext, hrows⟩ := hspec.encodings
      obtain rfl : angle = text := by simpa [Angle.stored?] using htext
      have hafter : stored (Deed.apply now db (.capture m s encoding angle columns)) m' =
          stored db' m' := by
        cases columns <;> simp [Deed.apply, hdb, stored, Database.updateEnrollmentSession]
      rw [hafter]
      by_cases hm : m = m' <;>
        simp [stored, Deed.storedAfter, hrows, Database.newEncoding, hm]
  | removeMember m =>
      have hgone : stored (db.deleteFaceEncodings m |>.deleteMember m) m' =
          stored (db.deleteFaceEncodings m) m' := by
        simp only [stored, Database.deleteFaceEncodings, Database.deleteMember,
          Table.rows_deleteWhere, List.filter_filter]
        refine List.filter_congr fun e _ => ?_
        by_cases he : e.memberId = m <;> simp [he]
      exact hgone.trans (stored_deleteFaceEncodings m m')
  | removeTemplate m => exact stored_deleteFaceEncodings m m'

/-- A lookup after an update of the session `s`, as a deed with these columns describes it. -/
theorem session_updated (s s' : Uuid) (u : Database.SessionColumns)
    (hfor : ∀ s', d.columnsFor now s' = if s = s' then some u else none) :
    (db.updateEnrollmentSession s u).getEnrollmentSession s' =
      (db.getEnrollmentSession s').map (d.revise now) := by
  rw [db.getEnrollmentSession_updateEnrollmentSession]
  cases hrow : db.getEnrollmentSession s' with
  | none => simp
  | some row =>
      obtain ⟨_, rfl⟩ := Table.find?_mem hrow
      by_cases hs : s = row.sessionId <;> simp [Deed.revise, hfor, hs]

theorem session_unwritten (s' : Uuid) (hfor : ∀ s', d.columnsFor now s' = none) :
    (db.getEnrollmentSession s').map (d.revise now) = db.getEnrollmentSession s' := by
  cases db.getEnrollmentSession s' <;> simp [Deed.revise, hfor]

theorem session_apply (h : d.Valid db) (s' : Uuid) :
    (d.apply now db).getEnrollmentSession s' = d.sessionAfter now db s' := by
  cases d with
  | nothing => exact (session_unwritten now s' fun _ => rfl).symm
  | addMember name role => exact (session_unwritten now s' fun _ => rfl).symm
  | removeTemplate m => exact (session_unwritten now s' fun _ => rfl).symm
  | note s message => exact session_updated now s s' _ fun _ => rfl
  | complete m s liveness => exact session_updated now s s' _ fun _ => rfl
  | cancel m s => exact session_updated now s s' _ fun _ => rfl
  | removeMember m => exact (db.deleteFaceEncodings m).getEnrollmentSession_deleteMember m s'
  | start m =>
      obtain ⟨db', hdb, hspec⟩ := exists_createEnrollmentSession now h
      simpa [Deed.apply, Deed.sessionAfter, hdb] using
        Database.SessionCreated.getEnrollmentSession db hspec s'
  | capture m s encoding angle columns =>
      obtain ⟨db', hdb, hspec⟩ := exists_storeFaceEncoding now h encoding angle
      have hsame (s : Uuid) : db'.getEnrollmentSession s = db.getEnrollmentSession s := by
        rw [Database.getEnrollmentSession, hspec.sessions, Database.getEnrollmentSession]
      cases columns with
      | none =>
          simp only [Deed.apply, hdb]
          rw [hsame]
          exact (session_unwritten now s' fun _ => by simp [Deed.columnsFor]).symm
      | some columns =>
          simp only [Deed.apply, hdb]
          rw [session_updated (d := .capture m s encoding angle (some columns)) now s s' columns
            fun _ => rfl, hsame]
          rfl

/-- A session after a deed is the one it started or one that was there. -/
theorem session_cases (h : d.Valid db) {s' : Uuid} {row' : SessionRow}
    (hrow : (d.apply now db).getEnrollmentSession s' = some row') :
    (∃ m, d = .start m ∧ s' = db.uuids ∧ row' = db.newSession m now) ∨
      ∃ row, db.getEnrollmentSession s' = some row ∧ row' = d.revise now row := by
  rw [session_apply now h] at hrow
  cases d with
  | start m =>
      simp only [Deed.sessionAfter] at hrow
      split at hrow
      case isTrue hs => exact Or.inl ⟨m, rfl, hs.symm, (Option.some.inj hrow).symm⟩
      case isFalse => exact Or.inr ⟨row', hrow, rfl⟩
  | removeMember m =>
      obtain ⟨hrow, _⟩ := Option.filter_eq_some_iff.mp hrow
      exact Or.inr ⟨row', hrow, rfl⟩
  | _ =>
      obtain ⟨row, hbefore, rfl⟩ := Option.map_eq_some_iff.mp hrow
      exact Or.inr ⟨row, hbefore, rfl⟩

@[simp] theorem memberId_revise (row : SessionRow) :
    (d.revise now row).memberId = row.memberId := by
  unfold Deed.revise
  cases d.columnsFor now row.sessionId <;> rfl

theorem status_revise (row : SessionRow) :
    (d.revise now row).status =
      ((d.columnsFor now row.sessionId).bind fun u => u.status).getD row.status := by
  unfold Deed.revise
  cases d.columnsFor now row.sessionId <;> rfl

/-- How a deed moves a session that is there: not at all but for its texts and scores,
by a counted capture, by its completion or by its cancellation. -/
inductive Moved (db : Database) (row row' : SessionRow) : Deed → Prop where
  | kept {d : Deed} : row'.status = row.status → row'.progress = row.progress →
      row'.capturesCount = row.capturesCount → Moved db row row' d
  | captured {m : Uuid} {encoding : Encoding} {angle : String} {columns : Database.SessionColumns} :
      row'.capturesCount = row.capturesCount + 1 →
      row'.status = (if row.capturesCount + 1 ≥ 3 then .processing else .capturing) →
      Moved db row row' (.capture m row.sessionId encoding angle (some columns))
  | completed {m : Uuid} {liveness : ℚ} : row'.status = .completed →
      row'.capturesCount = row.capturesCount →
      Moved db row row' (.complete m row.sessionId liveness)
  | cancelled {m : Uuid} : row'.status = .cancelled → row'.capturesCount = row.capturesCount →
      Moved db row row' (.cancel m row.sessionId)

theorem moved_revise {s : Uuid} {row : SessionRow} (hrow : db.getEnrollmentSession s = some row)
    (hcaptures : ∀ m s encoding angle columns, d = .capture m s encoding angle columns →
      Captures db m s columns) : Moved db row (d.revise now row) d := by
  obtain ⟨_, rfl⟩ := Table.find?_mem hrow
  have hkept (hfor : d.columnsFor now row.sessionId = none) : Moved db row (d.revise now row) d :=
    .kept (by simp [Deed.revise, hfor]) (by simp [Deed.revise, hfor]) (by simp [Deed.revise, hfor])
  cases d with
  | capture m s' encoding angle columns =>
      by_cases hs : s' = row.sessionId
      swap
      · exact hkept (by simp [Deed.columnsFor, hs])
      subst hs
      cases columns with
      | none => exact hkept (by simp [Deed.columnsFor])
      | some columns =>
          obtain ⟨quality, message, rfl⟩ :=
            (hcaptures m row.sessionId encoding angle (some columns) rfl).columns columns rfl
          have hcount : (db.selectCapturesCount row.sessionId).getD 0 = row.capturesCount := by
            have hfound : db.sessions.find? row.sessionId = some row := hrow
            simp [Database.selectCapturesCount, hfound]
          refine .captured ?_ ?_ <;>
            simp [Deed.revise, Deed.columnsFor, Database.SessionColumns.write, captureColumns,
              hcount]
  | note s' message =>
      by_cases hs : s' = row.sessionId
      · refine .kept ?_ ?_ ?_ <;>
          simp [Deed.revise, Deed.columnsFor, hs, Database.SessionColumns.write]
      · exact hkept (by simp [Deed.columnsFor, hs])
  | complete m s' liveness =>
      by_cases hs : s' = row.sessionId
      · subst hs
        refine .completed ?_ ?_ <;>
          simp [Deed.revise, Deed.columnsFor, Database.SessionColumns.write, completedColumns]
      · exact hkept (by simp [Deed.columnsFor, hs])
  | cancel m s' =>
      by_cases hs : s' = row.sessionId
      · subst hs
        refine .cancelled ?_ ?_ <;>
          simp [Deed.revise, Deed.columnsFor, Database.SessionColumns.write, cancelledColumns]
      · exact hkept (by simp [Deed.columnsFor, hs])
  | _ => exact hkept rfl

/-- No request writes an entry or an alert or moves the door. -/
theorem untouched_apply (h : d.Valid db) : (d.apply now db).logs = db.logs ∧
    (d.apply now db).alerts = db.alerts ∧ (d.apply now db).doorLocked = db.doorLocked := by
  cases d with
  | start m =>
      obtain ⟨db', hdb, hspec⟩ := exists_createEnrollmentSession now h
      simp [Deed.apply, hdb, hspec.logs, hspec.alerts, hspec.doorLocked]
  | capture m s encoding angle columns =>
      obtain ⟨db', hdb, hspec⟩ := exists_storeFaceEncoding now h encoding angle
      cases columns <;>
        simp [Deed.apply, hdb, Database.updateEnrollmentSession, hspec.logs, hspec.alerts,
          hspec.doorLocked]
  | _ => exact ⟨rfl, rfl, rfl⟩

theorem logs_apply (h : d.Valid db) : (d.apply now db).logs = db.logs :=
  (untouched_apply now h).1

theorem doorLocked_apply (h : d.Valid db) : (d.apply now db).doorLocked = db.doorLocked :=
  (untouched_apply now h).2.2

/-- Ids are never drawn twice. -/
theorem uuids_le_apply (h : d.Valid db) : db.uuids ≤ (d.apply now db).uuids := by
  cases d with
  | start m =>
      obtain ⟨db', hdb, hspec⟩ := exists_createEnrollmentSession now h
      simp [Deed.apply, hdb, hspec.uuids]
  | capture m s encoding angle columns =>
      obtain ⟨db', hdb, hspec⟩ := exists_storeFaceEncoding now h encoding angle
      cases columns <;>
        simp [Deed.apply, hdb, Database.updateEnrollmentSession, hspec.uuids]
  | addMember name role => exact Nat.le_succ _
  | complete m s liveness => exact Nat.le_succ _
  | _ => exact le_rfl

end Views

end FacialCamera.Enrollment
