import FacialCamera.Enrollment.Deletion

/-! # What an enrollment request leaves alone

Member and session id come from the path independently of each other. The guard
compares them once, before an upload waits; that the comparison still holds when
the upload lands rests on ids that are never drawn again and on rows that never
change their member.
-/

namespace FacialCamera.Enrollment

open FacialCamera.Core Backend

def Request.path? : Request → Option (Uuid × Option Uuid)
  | .startEnrollment m => some (m, none)
  | .pollEnrollment m s => some (m, some s)
  | .uploadCapture m s _ _ => some (m, some s)
  | .uploadCaptureB64 m s _ => some (m, some s)
  | .piCameraCapture m s _ _ => some (m, some s)
  | .completeEnrollment m s => some (m, some s)
  | .cancelEnrollment m s => some (m, some s)
  | .removeFaceTemplate m => some (m, none)
  | _ => none

/-- The session is the addressed one and the member's, or it is new and the member's. -/
inductive OwnSession (m : Uuid) (target : Option Uuid) (before after : Option SessionRow)
    (s : Uuid) : Prop where
  | addressed {row row' : SessionRow} : target = some s → before = some row →
      after = some row' → row.memberId = m → row'.memberId = m → OwnSession m target before after s
  | created {row' : SessionRow} : target = none → before = none → after = some row' →
      row'.memberId = m → OwnSession m target before after s

/-- From `b` to `b'` nothing but the member's own rows and the addressed session changes. -/
structure TouchesOwn (m : Uuid) (target : Option Uuid) (b b' : Process) : Prop where
  sessions : ∀ s, b'.db.getEnrollmentSession s ≠ b.db.getEnrollmentSession s →
    OwnSession m target (b.db.getEnrollmentSession s) (b'.db.getEnrollmentSession s) s
  members : ∀ m', m' ≠ m → b'.db.getMember m' = b.db.getMember m'
  encodings : ∀ m', m' ≠ m → stored b'.db m' = stored b.db m'
  door : b'.db.doorLocked = b.db.doorLocked
  servo : b'.servo = b.servo
  relock : b'.relock = b.relock
  logs : b'.db.logs = b.db.logs
  alerts : b'.db.alerts = b.db.alerts
  flags : b'.flags = b.flags
  threshold : b'.confidenceThreshold = b.confidenceThreshold
  cooldown : b'.lastMotionTime = b.lastMotionTime

/-! ## Deeds for one member -/

def Owns (db : Database) (m s : Uuid) : Prop :=
  ∀ row, db.getEnrollmentSession s = some row → row.memberId = m

/-- The deed is for the member and, where it is for a session, for that one. -/
inductive Deed.For (db : Database) (m : Uuid) (target : Option Uuid) : Deed → Prop where
  | nothing : Deed.For db m target .nothing
  | start : target = none → Deed.For db m target (.start m)
  | note {s : Uuid} {message : Message} : target = some s → Owns db m s →
      Deed.For db m target (.note s message)
  | capture {s : Uuid} {encoding : Encoding} {stored : String}
      {columns : Option Database.SessionColumns} : target = some s → Owns db m s →
      Deed.For db m target (.capture m s encoding stored columns)
  | complete {s : Uuid} {liveness : ℚ} : target = some s → Owns db m s →
      Deed.For db m target (.complete m s liveness)
  | cancel {s : Uuid} : target = some s → Owns db m s → Deed.For db m target (.cancel m s)
  | removeTemplate : Deed.For db m target (.removeTemplate m)

theorem owns_of_ownSession {db : Database} {m s : Uuid} (h : (ownSession db m s).isSome = true) :
    Owns db m s := by
  obtain ⟨session, hsession⟩ := Option.isSome_iff_exists.mp h
  obtain ⟨hfound, hmember⟩ := ownSession_eq_some_iff.mp hsession
  intro row hrow
  rw [Option.some.inj (hrow.symm.trans hfound)]
  exact hmember

theorem owns_of_admitted {db : Database} {m s : Uuid} (h : Admitted db m s) : Owns db m s :=
  fun _ hrow => (isOpen_of_admitted h hrow).1

theorem for_captureDeed {db : Database} {m s : Uuid} (texts : CaptureTexts) (angle : Angle)
    (image : EncoderOutcome) (h : Owns db m s) :
    (captureDeed db texts m s angle image).For db m (some s) := by
  cases image with
  | raises => exact .nothing
  | noFace => exact .note rfl h
  | face encoding quality =>
      unfold captureDeed
      cases angle.stored? with
      | none => exact .nothing
      | some stored =>
          dsimp only
          split
          · exact .capture rfl h
          · exact .nothing

theorem for_bodyDeed {db : Database} {m s : Uuid} (body : Option CaptureBody) (h : Owns db m s) :
    (bodyDeed db m s body).For db m (some s) := by
  rcases bodyDeed_cases db m s body with hbody | ⟨angle, image, hbody⟩
  · rw [hbody]
    exact .nothing
  · rw [hbody]
    exact for_captureDeed uploadTexts angle image h

/-- A request executed without interruption does a deed for the member in its path. -/
theorem for_deed (db : Database) {r : Request} {m : Uuid} {target : Option Uuid}
    (hpath : r.path? = some (m, target)) : (r.deed db).For db m target := by
  cases r <;> simp only [Request.path?, Option.some.injEq, Prod.mk.injEq, reduceCtorEq] at hpath <;>
    obtain ⟨rfl, rfl⟩ := hpath <;> simp only [Request.deed]
  case startEnrollment m =>
    split
    · exact .start rfl
    · exact .nothing
  case pollEnrollment m s => exact .nothing
  case uploadCapture m s angle image =>
    split
    case isTrue h => exact for_captureDeed uploadTexts (.text angle) image (owns_of_admitted h)
    case isFalse => exact .nothing
  case uploadCaptureB64 m s body =>
    split
    case isTrue h => exact for_bodyDeed body (owns_of_admitted h)
    case isFalse => exact .nothing
  case piCameraCapture m s angle frame =>
    cases frame with
    | none => exact .nothing
    | some image =>
        dsimp only
        split
        case isTrue h => exact for_captureDeed cameraTexts (.text angle) image (owns_of_admitted h)
        case isFalse => exact .nothing
  case completeEnrollment m s =>
    cases hown : ownSession db m s with
    | none => exact .nothing
    | some session => exact .complete rfl (owns_of_ownSession (by simp [hown]))
  case cancelEnrollment m s =>
    split
    case isTrue h => exact .cancel rfl (owns_of_ownSession h)
    case isFalse => exact .nothing
  case removeFaceTemplate m =>
    split
    · exact .removeTemplate
    · exact .nothing

section Apply

variable {db : Database} {d : Deed} {m : Uuid} {target : Option Uuid} (now : Timestamp)

theorem members_of_for (h : d.For db m target) (hvalid : d.Valid db) {m' : Uuid} (hne : m' ≠ m) :
    (d.apply now db).getMember m' = db.getMember m' := by
  rw [getMember_apply now hvalid]
  cases h <;> simp [Deed.memberAfter, hne.symm]

theorem encodings_of_for (h : d.For db m target) (hvalid : d.Valid db) {m' : Uuid}
    (hne : m' ≠ m) : stored (d.apply now db) m' = stored db m' := by
  rw [stored_apply now hvalid]
  cases h <;> simp [Deed.storedAfter, hne.symm]

/-- The deed writes columns of the addressed session only. -/
theorem columnsFor_of_for (h : d.For db m target) {s : Uuid}
    (hs : target ≠ some s ∨ ¬ Owns db m s) : d.columnsFor now s = none := by
  cases h with
  | nothing | start | removeTemplate => rfl
  | note htarget howns | capture htarget howns | complete htarget howns | cancel htarget howns =>
      simp only [Deed.columnsFor, ite_eq_right_iff]
      rintro rfl
      exact absurd howns (hs.resolve_left (not_not.mpr htarget))

theorem sessions_of_for (h : d.For db m target) (hvalid : d.Valid db) {s : Uuid}
    (hchanged : (d.apply now db).getEnrollmentSession s ≠ db.getEnrollmentSession s) :
    OwnSession m target (db.getEnrollmentSession s) ((d.apply now db).getEnrollmentSession s)
      s := by
  have hafter := session_apply now hvalid s
  -- a deed that starts no session revises those that are there
  have hrevised (hmap : d.sessionAfter now db s =
      (db.getEnrollmentSession s).map (d.revise now)) :
      OwnSession m target (db.getEnrollmentSession s) ((d.apply now db).getEnrollmentSession s)
        s := by
    rw [hafter, hmap] at hchanged ⊢
    cases hrow : db.getEnrollmentSession s with
    | none => simp [hrow] at hchanged
    | some row =>
        obtain ⟨_, rfl⟩ := Table.find?_mem hrow
        have hwritten : d.columnsFor now row.sessionId ≠ none := by
          intro hnone
          simp [hrow, Deed.revise, hnone] at hchanged
        have htarget : target = some row.sessionId := by
          by_contra hne
          exact hwritten (columnsFor_of_for now h (Or.inl hne))
        have howns : Owns db m row.sessionId := by
          by_contra hne
          exact hwritten (columnsFor_of_for now h (Or.inr hne))
        exact .addressed htarget rfl rfl (howns row hrow)
          ((memberId_revise now row).trans (howns row hrow))
  cases h with
  | start htarget =>
      rw [hafter] at hchanged ⊢
      simp only [Deed.sessionAfter] at hchanged ⊢
      split at hchanged
      case isFalse => exact absurd rfl hchanged
      case isTrue hs =>
        subst hs
        have hnone : db.getEnrollmentSession db.uuids = none :=
          Table.find?_eq_none_iff.mpr db.session_fresh
        rw [if_pos rfl, hnone]
        exact .created htarget rfl rfl rfl
  | _ => exact hrevised rfl

end Apply

/-! ## One segment -/

/-- Every segment of a request does a deed for the member in its path. -/
theorem for_move {b : Process} {ts : List (Transition Desk DeskMove)} {d : Desk} {l : DeskMove}
    (hprior : desk.Run ⟨b, 0, []⟩ ts d) {r : Request} (hr : l.request d = some r) {m : Uuid}
    {target : Option Uuid} (hpath : r.path? = some (m, target)) :
    (l.deed d).For d.process.db m target := by
  cases l with
  | arrive a =>
      obtain rfl : a.request = r := by simpa [DeskMove.request] using hr
      simp only [DeskMove.deed, Request.arrivalDeed]
      split
      · exact .nothing
      · exact for_deed d.process.db hpath
  | resume i clock =>
      obtain ⟨w, hw, rfl⟩ := Option.map_eq_some_iff.mp hr
      have hdeed : (DeskMove.resume i clock).deed d = w.request.landingDeed d.process.db := by
        simp [DeskMove.deed, hw]
      have howns (m s : Uuid) (hupload : w.request.upload? = some (m, s)) :
          Owns d.process.db m s :=
        (addressed_run hprior (List.mem_of_getElem? hw) hupload).2
      rw [hdeed]
      cases hrequest : w.request with
      | uploadCapture m' s angle image =>
          obtain ⟨rfl, rfl⟩ : m' = m ∧ some s = target := by
            simpa [hrequest, Request.path?] using hpath
          exact for_captureDeed uploadTexts (.text angle) image
            (howns m' s (by simp [hrequest, Request.upload?]))
      | uploadCaptureB64 m' s body =>
          obtain ⟨rfl, rfl⟩ : m' = m ∧ some s = target := by
            simpa [hrequest, Request.path?] using hpath
          exact for_bodyDeed body (howns m' s (by simp [hrequest, Request.upload?]))
      | _ => exact .nothing

/-- Every segment of every enrollment or template request, in every interleaving, leaves
alone what is not the member's own or not addressed. -/
theorem touchesOwn_move {b : Process} {ts : List (Transition Desk DeskMove)} {d d' : Desk}
    {l : DeskMove} {r : Request} {m : Uuid} {target : Option Uuid}
    (hprior : desk.Run ⟨b, 0, []⟩ ts d) (hnext : desk.next d l = some d')
    (hr : l.request d = some r) (hpath : r.path? = some (m, target)) :
    TouchesOwn m target d.process d'.process := by
  have hfor := for_move hprior hr hpath
  have hvalid := l.deed_valid d
  obtain ⟨hlogs, halerts, hdoor⟩ := untouched_apply l.clock hvalid
  rw [(desk_process (suspended_run hprior) hnext).1]
  exact {
    sessions := fun s hs => sessions_of_for l.clock hfor hvalid hs
    members := fun m' hne => members_of_for l.clock hfor hvalid hne
    encodings := fun m' hne => encodings_of_for l.clock hfor hvalid hne
    door := hdoor
    servo := rfl
    relock := rfl
    logs := hlogs
    alerts := halerts
    flags := rfl
    threshold := rfl
    cooldown := rfl }

/-- The second of two waiting uploads lands. -/
theorem touchesOwn_uploadsInTime :
    ∃ ts d d', desk.Run newDesk ts d ∧ desk.next d (.resume 1 0) = some d' ∧
      (stored d'.process.db 0).length = (stored d.process.db 0).length + 1 ∧
      TouchesOwn 0 (some 1) d.process d'.process := by
  have hend : ((desk.trace newDesk (uploadsInTime.take 4)).bind fun (_, d) =>
      (desk.next d (.resume 1 0)).map fun d' =>
        (((DeskMove.resume 1 0).request d).bind Request.path?,
          (stored d.process.db 0).length, (stored d'.process.db 0).length)) =
      some (some (0, some 1), 0, 1) := by decide +kernel
  obtain ⟨⟨ts, d⟩, hprior, hend⟩ := Option.bind_eq_some_iff.mp hend
  obtain ⟨d', hnext, hview⟩ := Option.map_eq_some_iff.mp hend
  simp only [Prod.mk.injEq] at hview
  obtain ⟨hrequest, hbefore, hafter⟩ := hview
  obtain ⟨r, hr, hpath⟩ := Option.bind_eq_some_iff.mp hrequest
  have hprior := Machine.run_of_trace hprior
  exact ⟨ts, d, d', hprior, hnext, by rw [hbefore, hafter],
    touchesOwn_move hprior hnext hr hpath⟩

end FacialCamera.Enrollment
