import FacialCamera.Enrollment.History
import FacialCamera.Enrollment.Segments

/-! # Captures and closed sessions

A session is closed by its completion or its cancellation. The guard of an upload
looks at the status in the first segment and the second segment writes whatever
the status has become, so an upload can land in a session closed in between.
-/

namespace FacialCamera.Enrollment

open FacialCamera.Core Backend

/-! ## What captures may do -/

/-- A new encoding comes from a capture whose session is open, and a capture leaves every
closed session's status, progress and count as they are. -/
structure KeepsClosed (t : Transition Desk DeskMove) : Prop where
  stores : ∀ e ∈ t.after.process.db.encodings.rows, e ∉ t.before.process.db.encodings.rows →
    ∃ r m s session, t.label.request t.before = some r ∧ r.capture? = some (m, s) ∧
      t.before.process.db.getEnrollmentSession s = some session ∧ session.status.isOpen = true
  keeps : ∀ r target, t.label.request t.before = some r → r.capture? = some target →
    ∀ s row row', t.before.process.db.getEnrollmentSession s = some row →
      row.status.isOpen = false → t.after.process.db.getEnrollmentSession s = some row' →
      row'.status = row.status ∧ row'.progress = row.progress ∧
        row'.capturesCount = row.capturesCount

/-! ## The condition -/

def Request.closes (db : Database) (s : Uuid) : Request → Bool
  | .completeEnrollment m s' => s' = s ∧ (ownSession db m s').isSome
  | .cancelEnrollment m s' => s' = s ∧ (ownSession db m s').isSome
  | _ => false

def closes (s : Uuid) (t : Transition Desk DeskMove) : Bool :=
  match t.label with
  | .arrive a => a.request.closes t.before.process.db s
  | .resume _ _ => false

/-- The session `s` was completed or cancelled after request number `ticket` came in. -/
def ClosedSince (ts : List (Transition Desk DeskMove)) (ticket : Nat) (s : Uuid) : Prop :=
  ∃ t ∈ ts, ticket < t.before.arrivals ∧ closes s t = true

/-- An upload of an image with a face, under an angle that can be stored. -/
def Request.carriesFace : Request → Bool
  | .uploadCapture _ _ _ (.face _ _) => true
  | .uploadCaptureB64 _ _ (some ⟨some angle, some (.face _ _)⟩) => angle.stored?.isSome
  | _ => false

/-- No upload of a face for a member that is still there resumes after its session was
closed during its `await`. -/
def LandsInTime (ts : List (Transition Desk DeskMove)) (t : Transition Desk DeskMove) : Prop :=
  match t.label with
  | .arrive _ => True
  | .resume i _ =>
      ∀ w ∈ t.before.waiting[i]?, w.request.carriesFace = true →
        ∀ target ∈ w.request.upload?, t.before.process.db.members.Has target.1 →
          ¬ ClosedSince ts w.ticket target.2

instance (ts : List (Transition Desk DeskMove)) (ticket : Nat) (s : Uuid) :
    Decidable (ClosedSince ts ticket s) := by
  unfold ClosedSince
  infer_instance

instance (ts : List (Transition Desk DeskMove)) (t : Transition Desk DeskMove) :
    Decidable (LandsInTime ts t) := by
  unfold LandsInTime
  split <;> infer_instance

/-! ## Deeds that close a session -/

def Deed.closes (s : Uuid) : Deed → Bool
  | .complete _ s' _ => s' = s
  | .cancel _ s' => s' = s
  | _ => false

theorem closes_captureDeed (db : Database) (texts : CaptureTexts) (m s s' : Uuid) (angle : Angle)
    (image : EncoderOutcome) : (captureDeed db texts m s angle image).closes s' = false := by
  unfold captureDeed
  split
  · rfl
  · rfl
  · split
    · rfl
    · split <;> rfl

theorem closes_landingDeed (db : Database) (r : Request) (s : Uuid) :
    (r.landingDeed db).closes s = false := by
  cases r with
  | uploadCapture m s' angle image =>
      exact closes_captureDeed db uploadTexts m s' s (.text angle) image
  | uploadCaptureB64 m s' body =>
      simp only [Request.landingDeed]
      rcases bodyDeed_cases db m s' body with hbody | ⟨angle, image, hbody⟩
      · rw [hbody]
        rfl
      · rw [hbody]
        exact closes_captureDeed db uploadTexts m s' s angle image
  | _ => rfl

theorem closes_arrivalDeed (db : Database) (r : Request) (s : Uuid) :
    (r.arrivalDeed db).closes s = r.closes db s := by
  cases r with
  | completeEnrollment m s' =>
      cases hown : ownSession db m s' <;>
        simp [Request.arrivalDeed, Request.upload?, Request.deed, Request.closes, Deed.closes, hown]
  | cancelEnrollment m s' =>
      cases hown : ownSession db m s' <;>
        simp [Request.arrivalDeed, Request.upload?, Request.deed, Request.closes, Deed.closes, hown]
  | piCameraCapture m s' angle frame =>
      cases frame with
      | none => rfl
      | some image =>
          simp only [Request.arrivalDeed, Request.upload?, Request.deed, Request.closes,
            Option.isSome_none, Bool.false_eq_true, if_false]
          split
          · exact closes_captureDeed db cameraTexts m s' s (.text angle) image
          · rfl
  | removeMember m | startEnrollment m | removeFaceTemplate m =>
      simp only [Request.arrivalDeed, Request.upload?, Request.deed, Request.closes,
        Option.isSome_none, Bool.false_eq_true, if_false]
      split <;> rfl
  | _ => rfl

theorem closes_deed (t : Transition Desk DeskMove) (s : Uuid) :
    (t.label.deed t.before).closes s = closes s t := by
  unfold closes
  cases t.label with
  | arrive a => exact closes_arrivalDeed t.before.process.db a.request s
  | resume i clock =>
      simp only [DeskMove.deed]
      cases t.before.waiting[i]? with
      | none => rfl
      | some w => exact closes_landingDeed t.before.process.db w.request s

/-! ## What one segment keeps -/

theorem Moved.isOpen {db : Database} {row row' : SessionRow} {d : Deed} (h : Moved db row row' d)
    (hopen : row.status.isOpen = true) (hd : d.closes row.sessionId = false) :
    row'.status.isOpen = true := by
  cases h with
  | kept hstatus _ _ => rw [hstatus, hopen]
  | captured _ hstatus => rw [hstatus]; split <;> rfl
  | completed _ _ | cancelled _ _ => simp [Deed.closes] at hd

theorem isOpen_revise_of_closes (now : Timestamp) {row : SessionRow} {d : Deed}
    (h : d.closes row.sessionId = true) : (d.revise now row).status.isOpen = false := by
  cases d with
  | complete m s liveness =>
      simp_all [Deed.closes, status_revise, Deed.columnsFor, completedColumns, Status.isOpen]
  | cancel m s =>
      simp_all [Deed.closes, status_revise, Deed.columnsFor, cancelledColumns, Status.isOpen]
  | _ => cases h

/-- A deed closes a session that is there. -/
theorem lt_uuids_of_closes {db : Database} {d : Deed} (hvalid : d.Valid db) {s : Uuid}
    (h : d.closes s = true) : s < db.uuids := by
  cases d with
  | complete m s' liveness | cancel m s' =>
      obtain rfl : s' = s := of_decide_eq_true h
      obtain ⟨session, hsession⟩ := Option.isSome_iff_exists.mp hvalid
      exact lt_uuids_of_session (ownSession_eq_some_iff.mp hsession).1
  | _ => cases h

theorem mem_stored {db : Database} {e : EncodingRow} :
    e ∈ stored db e.memberId ↔ e ∈ db.encodings.rows := by
  simp [stored]

/-- An encoding after a deed was there before or is the one it captured. -/
theorem mem_encodings_apply {db : Database} (now : Timestamp) {d : Deed} (h : d.Valid db)
    {e : EncodingRow} (he : e ∈ (d.apply now db).encodings.rows) :
    e ∈ db.encodings.rows ∨ ∃ m s encoding angle columns,
      d = .capture m s encoding angle columns ∧ e = db.newEncoding m encoding angle now := by
  rw [← mem_stored, stored_apply now h] at he
  cases d with
  | capture m s encoding angle columns =>
      simp only [Deed.storedAfter] at he
      split at he
      case isTrue hm =>
        rcases List.mem_append.mp he with he | he
        · exact Or.inl (mem_stored.mp he)
        · exact Or.inr ⟨m, s, encoding, angle, columns, rfl, List.mem_singleton.mp he⟩
      case isFalse => exact Or.inl (mem_stored.mp he)
  | removeMember m | removeTemplate m =>
      simp only [Deed.storedAfter] at he
      split at he
      case isTrue => cases he
      case isFalse => exact Or.inl (mem_stored.mp he)
  | _ => exact Or.inl (mem_stored.mp he)

theorem newEncoding_mem {db : Database} (now : Timestamp) {m s : Uuid} {encoding : Encoding}
    {angle : String} {columns : Option Database.SessionColumns}
    (h : (Deed.capture m s encoding angle columns).Valid db) :
    db.newEncoding m encoding angle now ∈
      ((Deed.capture m s encoding angle columns).apply now db).encodings.rows := by
  have hm : (db.newEncoding m encoding angle now).memberId = m := rfl
  rw [← mem_stored, stored_apply now h, hm]
  simp [Deed.storedAfter]

theorem newEncoding_notMem (db : Database) (now : Timestamp) (m : Uuid) (encoding : Encoding)
    (angle : String) : db.newEncoding m encoding angle now ∉ db.encodings.rows := fun h =>
  db.encoding_fresh ⟨_, h, rfl⟩

section Move

variable {d d' : Desk} {l : DeskMove}

/-- A segment that stores an encoding is one of a capture. -/
theorem DeskMove.deed_eq_capture {m s : Uuid} {encoding : Encoding} {stored : String}
    {columns : Option Database.SessionColumns}
    (h : l.deed d = .capture m s encoding stored columns) :
    ∃ r, l.request d = some r ∧ r.capture? = some (m, s) ∧ Captures d.process.db m s columns := by
  cases l with
  | arrive a =>
      simp only [DeskMove.deed, Request.arrivalDeed] at h
      split at h
      · cases h
      · exact ⟨a.request, rfl, (Enrollment.deed_eq_capture h).2⟩
  | resume i clock =>
      cases hw : d.waiting[i]? with
      | none => simp [DeskMove.deed, hw] at h
      | some w =>
          obtain ⟨hupload, hcaptures⟩ :=
            landingDeed_eq_capture (r := w.request) (by simpa [DeskMove.deed, hw] using h)
          refine ⟨w.request, by simp [DeskMove.request, hw], ?_, hcaptures⟩
          cases hr : w.request <;> simp_all [Request.upload?, Request.capture?]

theorem closes_of_capture {r : Request} {target : Uuid × Uuid} (hr : l.request d = some r)
    (hcapture : r.capture? = some target) (s : Uuid) : closes s ⟨d, l, d'⟩ = false := by
  cases l with
  | resume i clock => rfl
  | arrive a =>
      obtain rfl : a.request = r := by simpa [DeskMove.request] using hr
      unfold closes
      cases hr : a.request <;> simp_all [Request.capture?, Request.upload?, Request.closes]

variable (hsuspended : d.Suspended) (hnext : desk.next d l = some d')
include hsuspended hnext

theorem uuids_le_move : d.process.db.uuids ≤ d'.process.db.uuids := by
  rw [(desk_spec hsuspended hnext).1]
  exact uuids_le_apply l.clock (l.deed_valid d)

/-- A session after a segment whose id was drawn before it. -/
theorem session_found {s : Uuid} {row' : SessionRow} (hs : s < d.process.db.uuids)
    (hrow' : d'.process.db.getEnrollmentSession s = some row') :
    ∃ row, d.process.db.getEnrollmentSession s = some row ∧
      row' = (l.deed d).revise l.clock row := by
  rw [(desk_spec hsuspended hnext).1] at hrow'
  rcases session_cases l.clock (l.deed_valid d) hrow' with ⟨_, _, rfl, _⟩ | hbefore
  · exact absurd hs (lt_irrefl _)
  · exact hbefore

omit hsuspended hnext in
theorem moved_deed {s : Uuid} {row : SessionRow}
    (hrow : d.process.db.getEnrollmentSession s = some row) :
    Moved d.process.db row ((l.deed d).revise l.clock row) (l.deed d) :=
  moved_revise l.clock hrow fun _ _ _ _ _ hd => (DeskMove.deed_eq_capture hd).choose_spec.2.2

/-- A segment respects the closed sessions exactly if it captures for an open one. -/
theorem keepsClosed_iff :
    KeepsClosed ⟨d, l, d'⟩ ↔
      ∀ m s encoding angle columns, l.deed d = .capture m s encoding angle columns →
        ∃ session, d.process.db.getEnrollmentSession s = some session ∧
          session.status.isOpen = true := by
  have hdb := (desk_spec hsuspended hnext).1
  constructor
  · intro h m s encoding angle columns hd
    let e := d.process.db.newEncoding m encoding angle l.clock
    have hvalid : (Deed.capture m s encoding angle columns).Valid d.process.db :=
      hd ▸ l.deed_valid d
    have hmem : e ∈ d'.process.db.encodings.rows := by
      rw [hdb, hd]
      exact newEncoding_mem l.clock hvalid
    have hnew : e ∉ d.process.db.encodings.rows := newEncoding_notMem _ _ _ _ _
    obtain ⟨r, m', s', session, hr, hcapture, hsession, hopen⟩ := h.stores e hmem hnew
    obtain ⟨r', hr', hcapture', _⟩ := DeskMove.deed_eq_capture hd
    obtain rfl : r = r' := Option.some.inj (hr.symm.trans hr')
    obtain ⟨rfl, rfl⟩ := Prod.mk.inj (Option.some.inj (hcapture.symm.trans hcapture'))
    exact ⟨session, hsession, hopen⟩
  · intro h
    constructor
    · intro e he hnew
      rw [hdb] at he
      rcases mem_encodings_apply l.clock (l.deed_valid d) he with
        hold | ⟨m, s, encoding, angle, columns, hd, rfl⟩
      · exact absurd hold hnew
      · obtain ⟨r, hr, hcapture, _⟩ := DeskMove.deed_eq_capture hd
        obtain ⟨session, hsession, hopen⟩ := h m s encoding angle columns hd
        exact ⟨r, m, s, session, hr, hcapture, hsession, hopen⟩
    · intro r target hr hcapture s row row' hrow hclosed hrow'
      obtain ⟨before, hbefore, rfl⟩ :=
        session_found hsuspended hnext (lt_uuids_of_session hrow) hrow'
      obtain rfl : before = row := Option.some.inj (hbefore.symm.trans hrow)
      have hmoved := moved_deed (l := l) hrow
      have hcloses : (l.deed d).closes before.sessionId = false := by
        rw [closes_deed ⟨d, l, d'⟩]
        exact closes_of_capture hr hcapture before.sessionId
      obtain ⟨_, rfl⟩ := Table.find?_mem hrow
      generalize hd : l.deed d = deed at hmoved hcloses
      cases hmoved with
      | kept hstatus hprogress hcount => exact ⟨hstatus, hprogress, hcount⟩
      | captured _ _ =>
          obtain ⟨session, hsession, hopen⟩ := h _ _ _ _ _ hd
          obtain rfl : session = before := Option.some.inj (hsession.symm.trans hrow)
          rw [hclosed] at hopen
          cases hopen
      | completed _ _ | cancelled _ _ => simp [Deed.closes] at hcloses

/-- A session that the history has closed is drawn and closed. -/
theorem closed_step {s : Uuid} (hkeeps : KeepsClosed ⟨d, l, d'⟩) (hs : s < d.process.db.uuids)
    (hclosed : ∀ row, d.process.db.getEnrollmentSession s = some row → row.status.isOpen = false)
    {row' : SessionRow} (hrow' : d'.process.db.getEnrollmentSession s = some row') :
    row'.status.isOpen = false := by
  obtain ⟨row, hrow, rfl⟩ := session_found hsuspended hnext hs hrow'
  have hmoved := moved_deed (l := l) hrow
  obtain ⟨_, rfl⟩ := Table.find?_mem hrow
  generalize hd : l.deed d = deed at hmoved
  cases hmoved with
  | kept hstatus _ _ => rw [hstatus, hclosed row hrow]
  | captured _ _ =>
      obtain ⟨session, hsession, hopen⟩ :=
        (keepsClosed_iff hsuspended hnext).mp hkeeps _ _ _ _ _ hd
      rw [hclosed session hsession] at hopen
      cases hopen
  | completed hstatus _ | cancelled hstatus _ => rw [hstatus]; rfl

end Move

/-! ## Sessions closed by the history -/

theorem closed_run {b : Process} {d : Desk} {ts : List (Transition Desk DeskMove)}
    (hrun : desk.Run ⟨b, 0, []⟩ ts d) (hkeeps : ∀ t ∈ ts, KeepsClosed t) {s : Uuid}
    (hs : ∃ t ∈ ts, closes s t = true) :
    s < d.process.db.uuids ∧
      ∀ row, d.process.db.getEnrollmentSession s = some row → row.status.isOpen = false := by
  induction hrun with
  | nil => simp at hs
  | @snoc ts d d' l hprior hnext ih =>
      have hsuspended := suspended_run hprior
      have hdrawn := uuids_le_move hsuspended hnext
      obtain ⟨t, ht, hcloses⟩ := hs
      rcases List.mem_append.mp ht with ht | ht
      · obtain ⟨hlt, hclosed⟩ :=
          ih (fun u hu => hkeeps u (List.mem_append_left _ hu)) ⟨t, ht, hcloses⟩
        exact ⟨hlt.trans_le hdrawn,
          fun row => closed_step hsuspended hnext (hkeeps ⟨d, l, d'⟩ (by simp)) hlt hclosed⟩
      · rw [List.mem_singleton.mp ht, ← closes_deed] at hcloses
        have hlt := lt_uuids_of_closes (l.deed_valid d) hcloses
        refine ⟨hlt.trans_le hdrawn, fun row' hrow' => ?_⟩
        obtain ⟨row, hrow, rfl⟩ := session_found hsuspended hnext hlt hrow'
        obtain ⟨_, rfl⟩ := Table.find?_mem hrow
        exact isOpen_revise_of_closes l.clock hcloses

/-! ## What a waiting upload still knows -/

/-- The session that a waiting upload was admitted to is there as long as its member is, and
open until the history closes it. -/
structure Expects (ts : List (Transition Desk DeskMove)) (d : Desk) (w : Waiting) (m s : Uuid) :
    Prop where
  upload : w.request.upload? = some (m, s)
  ticket : w.ticket < d.arrivals
  member : m < d.process.db.uuids
  session : s < d.process.db.uuids
  finds : d.process.db.members.Has m → ∃ row, d.process.db.getEnrollmentSession s = some row ∧
    row.memberId = m ∧ (¬ ClosedSince ts w.ticket s → row.status.isOpen = true)

/-- A member after a deed whose id was drawn before it is not the one it removed. -/
theorem has_of_has_apply {db : Database} (now : Timestamp) {d : Deed} (h : d.Valid db) {m : Uuid}
    (hm : m < db.uuids) (hhas : (d.apply now db).members.Has m) :
    db.members.Has m ∧ d ≠ .removeMember m := by
  obtain ⟨row, hrow⟩ := Table.has_iff_find?.mp hhas
  have hget : (d.apply now db).getMember m = some row := hrow
  rw [getMember_apply now h] at hget
  rw [Table.has_iff_find?]
  cases d with
  | addMember name role =>
      simp only [Deed.memberAfter, if_neg hm.ne'] at hget
      exact ⟨⟨row, hget⟩, by simp⟩
  | removeMember m' =>
      simp only [Deed.memberAfter] at hget
      split at hget
      case isTrue => cases hget
      case isFalse hne => exact ⟨⟨row, hget⟩, by simpa using hne⟩
  | complete m' s liveness | removeTemplate m' =>
      simp only [Deed.memberAfter] at hget
      split at hget
      case isTrue =>
        obtain ⟨before, hbefore, _⟩ := Option.map_eq_some_iff.mp hget
        exact ⟨⟨before, hbefore⟩, by simp⟩
      case isFalse => exact ⟨⟨row, hget⟩, by simp⟩
  | _ => exact ⟨⟨row, hget⟩, by simp⟩

/-- A deed that does not remove its member keeps a session. -/
theorem session_stays {db : Database} (now : Timestamp) {d : Deed} (h : d.Valid db) {s : Uuid}
    {row : SessionRow} (hrow : db.getEnrollmentSession s = some row)
    (hkept : d ≠ .removeMember row.memberId) :
    (d.apply now db).getEnrollmentSession s = some (d.revise now row) := by
  rw [session_apply now h]
  cases d with
  | start m =>
      simp only [Deed.sessionAfter, if_neg (lt_uuids_of_session hrow).ne', hrow]
      rfl
  | removeMember m =>
      have hm : row.memberId ≠ m := fun hm => hkept (by rw [hm])
      simp only [Deed.sessionAfter, hrow, Option.filter_some, decide_eq_true hm, if_true]
      rfl
  | _ => simp [Deed.sessionAfter, hrow]

theorem closedSince_snoc {ts : List (Transition Desk DeskMove)} {t : Transition Desk DeskMove}
    {ticket : Nat} {s : Uuid} (h : ticket < t.before.arrivals) :
    ClosedSince (ts ++ [t]) ticket s ↔ ClosedSince ts ticket s ∨ closes s t = true := by
  simp [ClosedSince, or_and_right, exists_or, h]

section Expect

variable {ts : List (Transition Desk DeskMove)} {d d' : Desk} {l : DeskMove}

theorem Expects.step {w : Waiting} {m s : Uuid} (h : Expects ts d w m s)
    (hsuspended : d.Suspended) (hnext : desk.next d l = some d') :
    Expects (ts ++ [⟨d, l, d'⟩]) d' w m s := by
  obtain ⟨hdb, hmoves⟩ := desk_spec hsuspended hnext
  have hdrawn := uuids_le_move hsuspended hnext
  refine ⟨h.upload, h.ticket.trans_le hmoves.arrivals_le, h.member.trans_le hdrawn,
    h.session.trans_le hdrawn, fun hhas => ?_⟩
  rw [hdb] at hhas ⊢
  obtain ⟨hbefore, hkept⟩ := has_of_has_apply l.clock (l.deed_valid d) h.member hhas
  obtain ⟨row, hrow, rfl, hopen⟩ := h.finds hbefore
  refine ⟨_, session_stays l.clock (l.deed_valid d) hrow hkept, memberId_revise l.clock row, ?_⟩
  intro hsince
  rw [closedSince_snoc h.ticket, not_or] at hsince
  obtain ⟨_, rfl⟩ := Table.find?_mem hrow
  refine (moved_deed hrow).isOpen (hopen hsince.1) ?_
  rw [closes_deed ⟨d, l, d'⟩]
  exact Bool.eq_false_iff.mpr hsince.2

/-- An upload starts to wait when it is admitted. -/
theorem expects_new {a : Arrival} {m s : Uuid} (hsuspended : d.Suspended)
    (hnext : desk.next d (.arrive a) = some d') (hupload : a.request.upload? = some (m, s))
    (hadmitted : Admitted d.process.db m s) (hcount : d'.arrivals = d.arrivals + 1) :
    Expects ts d' ⟨d.arrivals, a.request, a.request.awaiting⟩ m s := by
  have hsame : d'.process.db = d.process.db := by
    rw [(desk_spec hsuspended hnext).1]
    simp [DeskMove.deed, Request.arrivalDeed, hupload, Deed.apply]
  obtain ⟨session, hsession, hopen⟩ := hadmitted
  obtain ⟨hrow, hmember⟩ := ownSession_eq_some_iff.mp hsession
  constructor
  · exact hupload
  · simp [hcount]
  · exact hsame ▸ lt_uuids_of_has (has_of_ownSession hsession)
  · exact hsame ▸ lt_uuids_of_session hrow
  · intro _
    exact ⟨session, hsame ▸ hrow, hmember, fun _ => hopen⟩

theorem expects_run {b : Process} (hrun : desk.Run ⟨b, 0, []⟩ ts d) {w : Waiting}
    (hw : w ∈ d.waiting) : ∃ m s, Expects ts d w m s := by
  induction hrun with
  | nil => cases hw
  | snoc hprior hnext ih =>
      have hsuspended := suspended_run hprior
      rcases (desk_spec hsuspended hnext).2.mem_waiting hw with
        hw | ⟨a, m, s, rfl, hupload, hadmitted, rfl, hcount⟩
      · obtain ⟨m, s, h⟩ := ih hw
        exact ⟨m, s, h.step hsuspended hnext⟩
      · exact ⟨m, s, expects_new hsuspended hnext hupload hadmitted hcount⟩

end Expect

/-! ## Exactly the uploads that land in time -/

/-- Which captures store an encoding. -/
theorem captureDeed_captures_iff {db : Database} {texts : CaptureTexts} {m s : Uuid} {angle : Angle}
    {image : EncoderOutcome} :
    (∃ encoding stored columns,
        captureDeed db texts m s angle image = .capture m s encoding stored columns) ↔
      ((∃ encoding quality, image = .face encoding quality) ∧ angle.stored?.isSome = true) ∧
        db.members.Has m := by
  cases image with
  | raises => simp [captureDeed]
  | noFace => simp [captureDeed]
  | face encoding quality =>
      cases hstored : angle.stored? with
      | none => simp [captureDeed, hstored]
      | some text => by_cases hm : db.members.Has m <;> simp [captureDeed, hstored, hm]

/-- Which uploads store an encoding in their second segment. -/
theorem landingDeed_captures_iff {db : Database} {r : Request} {m s : Uuid}
    (hupload : r.upload? = some (m, s)) :
    (∃ encoding stored columns, r.landingDeed db = .capture m s encoding stored columns) ↔
      r.carriesFace = true ∧ db.members.Has m := by
  cases r with
  | uploadCapture m' s' angle image =>
      obtain ⟨rfl, rfl⟩ : m' = m ∧ s' = s := by simpa [Request.upload?] using hupload
      refine captureDeed_captures_iff.trans (and_congr_left' ?_)
      cases image <;> simp [Request.carriesFace, Angle.stored?]
  | uploadCaptureB64 m' s' body =>
      obtain ⟨rfl, rfl⟩ : m' = m ∧ s' = s := by simpa [Request.upload?] using hupload
      rcases body with _ | ⟨_ | angle, _ | image⟩
      iterate 4 simp [Request.landingDeed, bodyDeed, Request.carriesFace]
      refine captureDeed_captures_iff.trans (and_congr_left' ?_)
      cases image <;> simp [Request.carriesFace]
  | _ => cases hupload

/-- A landing keeps to the open sessions exactly if it is in time. -/
theorem keepsClosed_resume_iff {b : Process} {d d' : Desk} {us : List (Transition Desk DeskMove)}
    {i : Nat} {clock : ℚ} (hprior : desk.Run ⟨b, 0, []⟩ us d) (hkeeps : ∀ t ∈ us, KeepsClosed t)
    (hnext : desk.next d (.resume i clock) = some d') :
    KeepsClosed ⟨d, .resume i clock, d'⟩ ↔ LandsInTime us ⟨d, .resume i clock, d'⟩ := by
  have hsuspended := suspended_run hprior
  obtain ⟨w, hw⟩ : ∃ w, d.waiting[i]? = some w := by
    cases (desk_spec hsuspended hnext).2 with
    | landed hw _ _ => exact ⟨_, hw⟩
  obtain ⟨m, s, hexpects⟩ := expects_run hprior (List.mem_of_getElem? hw)
  have hdeed : (DeskMove.resume i clock).deed d = w.request.landingDeed d.process.db := by
    simp [DeskMove.deed, hw]
  rw [keepsClosed_iff hsuspended hnext, hdeed]
  constructor
  · intro hlands w' hw' hface target htarget hmember hsince
    obtain rfl : w = w' := Option.some.inj (hw.symm.trans hw')
    obtain rfl : (m, s) = target := Option.some.inj (hexpects.upload.symm.trans htarget)
    obtain ⟨encoding, stored, columns, hd⟩ :=
      (landingDeed_captures_iff hexpects.upload).mpr ⟨hface, hmember⟩
    obtain ⟨session, hsession, hopen⟩ := hlands m s encoding stored columns hd
    obtain ⟨t, ht, _, hcloses⟩ := hsince
    rw [(closed_run hprior hkeeps ⟨t, ht, hcloses⟩).2 session hsession] at hopen
    cases hopen
  · intro hintime m' s' encoding stored columns hd
    obtain ⟨hupload, hcaptures⟩ := landingDeed_eq_capture hd
    obtain ⟨rfl, rfl⟩ := Prod.mk.inj (Option.some.inj (hexpects.upload.symm.trans hupload))
    obtain ⟨hface, hmember⟩ :=
      (landingDeed_captures_iff hupload).mp ⟨encoding, stored, columns, hd⟩
    obtain ⟨row, hrow, _, hopen⟩ := hexpects.finds hmember
    exact ⟨row, hrow, hopen (hintime w hw hface (m, s) hupload hmember)⟩

/-- No capture of a run touches a closed session, exactly if every upload lands in time. -/
theorem keepsClosed_iff_landsInTime {b : Process} {d : Desk} {ts : List (Transition Desk DeskMove)}
    (hrun : desk.Run ⟨b, 0, []⟩ ts d) :
    (∀ t ∈ ts, KeepsClosed t) ↔ Machine.EachStep LandsInTime ts := by
  refine hrun.forall_mem_iff fun us d l d' hprior hkeeps hnext => ?_
  cases l with
  | resume i clock => exact keepsClosed_resume_iff hprior hkeeps hnext
  | arrive a =>
      rw [keepsClosed_iff (suspended_run hprior) hnext]
      refine iff_of_true (fun m s encoding angle columns hd => ?_) trivial
      simp only [DeskMove.deed, Request.arrivalDeed] at hd
      split at hd
      · cases hd
      · obtain ⟨session, hsession, hopen⟩ := (deed_eq_capture hd).1
        exact ⟨session, (ownSession_eq_some_iff.mp hsession).1, hopen⟩

/-! ## An upload before and after a cancellation -/

def newDesk : Desk := ⟨Process.boot true none 0, 0, []⟩

def uploadsInTime : List DeskMove :=
  [.arrive ⟨0, .addMember "Resident" "Member"⟩, .arrive ⟨0, .startEnrollment 0⟩,
    .arrive ⟨0, .uploadCapture 0 1 "front" (.face [1] 1)⟩,
    .arrive ⟨0, .uploadCapture 0 1 "left" (.face [2] 1)⟩, .resume 1 0, .resume 0 0,
    .arrive ⟨0, .completeEnrollment 0 1⟩]

theorem keepsClosed_uploadsInTime :
    ∃ ts d, desk.Run newDesk ts d ∧ d.process.db.encodings.rows.length = 2 ∧
      ∀ t ∈ ts, KeepsClosed t := by
  have hend : (desk.trace newDesk uploadsInTime).map (fun (ts, d) =>
      (d.process.db.encodings.rows.length, decide (Machine.EachStep LandsInTime ts))) =
        some (2, true) := by
    decide +kernel
  obtain ⟨ts, d, hrun, hview⟩ := Machine.exists_run_of_view hend
  obtain ⟨hlength, hsteps⟩ := Prod.mk.inj hview
  exact ⟨ts, d, hrun, hlength, (keepsClosed_iff_landsInTime hrun).mpr (of_decide_eq_true hsteps)⟩

/-- The session is cancelled while the upload waits for its body. -/
def cancelledUpload : List DeskMove :=
  [.arrive ⟨0, .addMember "Resident" "Member"⟩, .arrive ⟨0, .startEnrollment 0⟩,
    .arrive ⟨0, .uploadCapture 0 1 "front" (.face [1] 1)⟩,
    .arrive ⟨0, .cancelEnrollment 0 1⟩, .resume 0 0]

theorem not_always_keepsClosed :
    ¬ ∀ (ts : List (Transition Desk DeskMove)) (d : Desk),
      desk.Run newDesk ts d → ∀ t ∈ ts, KeepsClosed t := by
  intro halways
  have hend : (desk.trace newDesk cancelledUpload).map (fun (ts, _) =>
      ts.getLast?.map fun t => ((t.label.request t.before).bind Request.capture?,
        (t.before.process.db.getEnrollmentSession 1).map SessionRow.status,
        (t.after.process.db.getEnrollmentSession 1).map SessionRow.status)) =
      some (some (some (0, 1), some .cancelled, some .capturing)) := by
    decide +kernel
  obtain ⟨ts, d, hrun, hlast⟩ := Machine.exists_run_of_view hend
  obtain ⟨t, ht, hview⟩ := Option.map_eq_some_iff.mp hlast
  simp only [Prod.mk.injEq] at hview
  obtain ⟨hrequest, hbefore, hafter⟩ := hview
  obtain ⟨r, hr, hcapture⟩ := Option.bind_eq_some_iff.mp hrequest
  obtain ⟨row, hrow, hcancelled⟩ := Option.map_eq_some_iff.mp hbefore
  obtain ⟨row', hrow', hcapturing⟩ := Option.map_eq_some_iff.mp hafter
  have hkeeps := halways ts d hrun t (List.mem_of_getLast? ht)
  have hclosed : row.status.isOpen = false := by rw [hcancelled]; rfl
  have hsame := (hkeeps.keeps r (0, 1) hr hcapture 1 row row' hrow hclosed hrow').1
  rw [hcancelled, hcapturing] at hsame
  cases hsame

end FacialCamera.Enrollment
