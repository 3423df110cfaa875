import FacialCamera.Enrollment.ClosedSessions

/-! # Deleted members

A deletion drops the member and, by the cascades of the schema, every row that
refers to it. An id is never drawn again and a stored row needs its member, so no
later request and no upload that was waiting can bring such a row back.
-/

namespace FacialCamera.Enrollment

open FacialCamera.Core Backend

/-- The member's own rows are gone and every other row is as it was. -/
structure OwnRowsDeleted (m : Uuid) (db db' : Database) : Prop where
  members : db'.members.rows = db.members.rows.filter fun r => r.id ≠ m
  encodings : db'.encodings.rows = db.encodings.rows.filter fun e => e.memberId ≠ m
  sessions : db'.sessions.rows = db.sessions.rows.filter fun r => r.memberId ≠ m

/-- No row and no entry that the recognizer compares with refers to the member. -/
structure Unreferenced (m : Uuid) (db : Database) : Prop where
  encodings : ∀ e ∈ db.encodings.rows, e.memberId ≠ m
  sessions : ∀ r ∈ db.sessions.rows, r.memberId ≠ m
  known : ∀ k ∈ db.getAllFaceEncodings, k.memberId ≠ m

def StoresNothing (m : Uuid) (t : Transition Desk DeskMove) : Prop :=
  ∀ i clock w s, t.label = .resume i clock → t.before.waiting[i]? = some w →
    w.request.upload? = some (m, s) → t.after.process.db.tables = t.before.process.db.tables

/-- A deletion from `db` to `db'`, and the tables `later` after the moves `vs` that follow. -/
structure Deleted (m : Uuid) (db db' : Database) (vs : List (Transition Desk DeskMove))
    (later : Database) : Prop where
  deletes : OwnRowsDeleted m db db'
  unreferenced : Unreferenced m later
  late : ∀ v ∈ vs, StoresNothing m v

def FindsMember (b : Process) (m s : Uuid) : Prop :=
  ∀ m' b', (.getMember m', b') ∈ (completeEnrollment m s).visits exec b →
    (b'.db.getMember m').isSome = true

/-! ## Absence -/

structure Gone (m : Uuid) (db : Database) : Prop where
  drawn : m < db.uuids
  absent : ¬ db.members.Has m

theorem Gone.unreferenced {m : Uuid} {db : Database} (h : Gone m db) : Unreferenced m db := by
  constructor
  · rintro e he rfl
    exact h.absent (db.encodings_member e he)
  · rintro r hr rfl
    exact h.absent (db.sessions_member r hr)
  · rintro k hk rfl
    obtain ⟨e, he, _, _, _, rfl⟩ := db.mem_getAllFaceEncodings.mp hk
    exact h.absent (db.encodings_member e he)

theorem Gone.apply {m : Uuid} {db : Database} {now : Timestamp} {d : Deed} (h : Gone m db)
    (hvalid : d.Valid db) : Gone m (d.apply now db) := by
  constructor
  · exact h.drawn.trans_le (uuids_le_apply now hvalid)
  · intro hhas
    exact h.absent (has_of_has_apply now hvalid h.drawn hhas).1

theorem gone_removeMember {m : Uuid} {db : Database} (now : Timestamp)
    (hfound : (db.getMember m).isSome = true) : Gone m ((Deed.removeMember m).apply now db) := by
  have hvalid : (Deed.removeMember m).Valid db := hfound
  have hdrawn := lt_uuids_of_has (Table.has_iff_find?.mpr (Option.isSome_iff_exists.mp hfound))
  constructor
  · exact hdrawn.trans_le (uuids_le_apply now hvalid)
  · intro hhas
    exact (has_of_has_apply now hvalid hdrawn hhas).2 rfl

theorem ownRowsDeleted_removeMember (m : Uuid) (db : Database) (now : Timestamp) :
    OwnRowsDeleted m db ((Deed.removeMember m).apply now db) := by
  constructor <;>
    simp [Deed.apply, Database.deleteFaceEncodings, Database.deleteMember, List.filter_filter]

/-! ## Waiting uploads -/

/-- The session of a waiting upload is the member's, as long as it is there. -/
def Addressed (d : Desk) (m s : Uuid) : Prop :=
  s < d.process.db.uuids ∧
    ∀ row, d.process.db.getEnrollmentSession s = some row → row.memberId = m

section Move

variable {d d' : Desk} {l : DeskMove}

theorem Addressed.step {m s : Uuid} (h : Addressed d m s) (hsuspended : d.Suspended)
    (hnext : desk.next d l = some d') : Addressed d' m s := by
  refine ⟨h.1.trans_le (uuids_le_move hsuspended hnext), fun row' hrow' => ?_⟩
  obtain ⟨row, hrow, rfl⟩ := session_found hsuspended hnext h.1 hrow'
  rw [memberId_revise]
  exact h.2 row hrow

theorem addressed_run {b : Process} {ts : List (Transition Desk DeskMove)}
    (hrun : desk.Run ⟨b, 0, []⟩ ts d) {w : Waiting} (hw : w ∈ d.waiting) {m s : Uuid}
    (hupload : w.request.upload? = some (m, s)) : Addressed d m s := by
  induction hrun with
  | nil => cases hw
  | @snoc ts d d' l hprior hnext ih =>
      have hsuspended := suspended_run hprior
      rcases (desk_spec hsuspended hnext).2.mem_waiting hw with
        hw | ⟨a, m', s', rfl, hupload', ⟨session, hsession, _⟩, rfl, _⟩
      · exact (ih hw).step hsuspended hnext
      · obtain ⟨rfl, rfl⟩ := Prod.mk.inj (Option.some.inj (hupload'.symm.trans hupload))
        obtain ⟨hrow, hmember⟩ := ownSession_eq_some_iff.mp hsession
        have hbefore : Addressed d m' s' := by
          refine ⟨lt_uuids_of_session hrow, fun row hrow' => ?_⟩
          rw [Option.some.inj (hrow'.symm.trans hrow)]
          exact hmember
        exact hbefore.step hsuspended hnext

/-- An upload whose member is gone writes nothing or a message into no session. -/
theorem landingDeed_of_absent {db : Database} {r : Request} {m s : Uuid}
    (hupload : r.upload? = some (m, s)) (habsent : ¬ db.members.Has m) :
    r.landingDeed db = .nothing ∨ ∃ message, r.landingDeed db = .note s message := by
  have hcapture (angle : Angle) (image : EncoderOutcome) :
      captureDeed db uploadTexts m s angle image = .nothing ∨
        ∃ message, captureDeed db uploadTexts m s angle image = .note s message := by
    cases image with
    | raises => exact Or.inl rfl
    | noFace => exact Or.inr ⟨_, rfl⟩
    | face encoding quality =>
        left
        unfold captureDeed
        cases angle.stored? <;> simp [habsent]
  cases r with
  | uploadCapture m' s' angle image =>
      obtain ⟨rfl, rfl⟩ : m' = m ∧ s' = s := by simpa [Request.upload?] using hupload
      exact hcapture (.text angle) image
  | uploadCaptureB64 m' s' body =>
      obtain ⟨rfl, rfl⟩ : m' = m ∧ s' = s := by simpa [Request.upload?] using hupload
      simp only [Request.landingDeed]
      rcases bodyDeed_cases db m' s' body with hbody | ⟨angle, image, hbody⟩
      · exact Or.inl hbody
      · rw [hbody]
        exact hcapture angle image
  | _ => cases hupload

theorem tables_note {db : Database} {now : Timestamp} {s : Uuid} {message : Message}
    (hnone : db.getEnrollmentSession s = none) :
    ((Deed.note s message).apply now db).tables = db.tables := by
  have hrows : ((Deed.note s message).apply now db).sessions.rows = db.sessions.rows := by
    simp only [Deed.apply, Database.updateEnrollmentSession]
    refine (List.map_congr_left fun r hr => ?_).trans (List.map_id _)
    rw [if_neg]
    · rfl
    · intro hs
      exact (Table.find?_eq_none_iff.mp hnone) ⟨r, hr, hs⟩
  exact congrArg (Database.Tables.mk db.members.rows db.encodings.rows) hrows

theorem storesNothing_step {b : Process} {ts : List (Transition Desk DeskMove)} {m : Uuid}
    (hrun : desk.Run ⟨b, 0, []⟩ ts d) (hgone : Gone m d.process.db)
    (hnext : desk.next d l = some d') : StoresNothing m ⟨d, l, d'⟩ := by
  rintro i clock w s rfl hw hupload
  have hdb := (desk_spec (suspended_run hrun) hnext).1
  have hdeed : (DeskMove.resume i clock).deed d = w.request.landingDeed d.process.db := by
    have hw : d.waiting[i]? = some w := hw
    simp [DeskMove.deed, hw]
  show d'.process.db.tables = d.process.db.tables
  rw [hdb, hdeed]
  rcases landingDeed_of_absent hupload hgone.absent with hnothing | ⟨message, hnote⟩
  · rw [hnothing]
    rfl
  · rw [hnote]
    refine tables_note ?_
    have haddressed := addressed_run hrun (List.mem_of_getElem? hw) hupload
    cases hsession : d.process.db.getEnrollmentSession s with
    | none => rfl
    | some row =>
        have hmember := d.process.db.sessions_member row (Table.find?_mem hsession).1
        rw [haddressed.2 row hsession] at hmember
        exact absurd hmember hgone.absent

end Move

/-! ## Completions -/

attribute [local simp] Program.visits exec in
/-- The session that a completion has found keeps its member in the table. -/
theorem findsMember (b : Process) (m s : Uuid) : FindsMember b m s := by
  intro m' b' hvisit
  cases hsession : b.db.getEnrollmentSession s with
  | none => simp [completeEnrollment, sessionOf, hsession] at hvisit
  | some session =>
      by_cases hm : session.memberId = m
      · subst hm
        obtain ⟨row, hrow⟩ := Table.has_iff_find?.mp
          (b.db.sessions_member session (Table.find?_mem hsession).1)
        have hrow : b.db.getMember session.memberId = some row := hrow
        have hfound : ((b.db.updateEnrollmentSession s
            (completedColumns b.clock)).updateMemberFaceEnrolled session.memberId true
              (some session.livenessScore) b.clock).getMember session.memberId =
            some (Database.enrolledColumns true (some session.livenessScore) b.clock row) := by
          rw [Database.getMember_updateMemberFaceEnrolled, if_pos rfl]
          exact congrArg (Option.map _) hrow
        obtain ⟨rfl, rfl⟩ : m' = session.memberId ∧ b' = { b with
            db := (b.db.updateEnrollmentSession s
              (completedColumns b.clock)).updateMemberFaceEnrolled session.memberId true
                (some session.livenessScore) b.clock } := by
          simpa [completeEnrollment, sessionOf, hsession, hfound] using hvisit
        simp [hfound]
      · simp [completeEnrollment, sessionOf, hsession, hm] at hvisit

/-! ## Whole runs -/

theorem gone_run {m : Uuid} {b : Process} {us vs : List (Transition Desk DeskMove)} {d d' : Desk}
    (hprior : desk.Run ⟨b, 0, []⟩ us d) (hrun : desk.Run d vs d') (hgone : Gone m d.process.db) :
    Gone m d'.process.db ∧ ∀ v ∈ vs, StoresNothing m v := by
  induction hrun with
  | nil => exact ⟨hgone, by simp⟩
  | @snoc vs d' d'' l hlater hnext ih =>
      obtain ⟨hgone', hlate⟩ := ih
      have hall := hprior.append hlater
      constructor
      · rw [(desk_spec (suspended_run hall) hnext).1]
        exact hgone'.apply (l.deed_valid d')
      · intro v hv
        rcases List.mem_append.mp hv with hv | hv
        · exact hlate v hv
        · rw [List.mem_singleton.mp hv]
          exact storesNothing_step hall hgone' hnext

/-- A deletion is complete, and final in every continuation of the run. -/
theorem deleted_run {m : Uuid} {clock : ℚ} {b : Process} {d₀ d₁ d : Desk}
    {us vs : List (Transition Desk DeskMove)} (hprior : desk.Run ⟨b, 0, []⟩ us d₀)
    (hfound : (d₀.process.db.getMember m).isSome = true)
    (hnext : desk.next d₀ (.arrive ⟨clock, .removeMember m⟩) = some d₁)
    (hlater : desk.Run d₁ vs d) :
    Deleted m d₀.process.db d₁.process.db vs d.process.db ∧ ∀ b m s, FindsMember b m s := by
  have hdeed : (DeskMove.arrive ⟨clock, .removeMember m⟩).deed d₀ = .removeMember m := by
    simp [DeskMove.deed, Request.arrivalDeed, Request.upload?, Request.deed, hfound]
  have hdb := (desk_spec (suspended_run hprior) hnext).1
  rw [hdeed] at hdb
  have hgone : Gone m d₁.process.db := hdb ▸ gone_removeMember clock hfound
  obtain ⟨hgone', hlate⟩ := gone_run (hprior.snoc hnext) hlater hgone
  refine ⟨⟨?_, hgone'.unreferenced, hlate⟩, findsMember⟩
  rw [hdb]
  exact ownRowsDeleted_removeMember m d₀.process.db clock

/-- The member of a waiting upload is deleted before the body arrives. -/
theorem deleted_duringUpload :
    ∃ us d₀ d₁ vs d, desk.Run ⟨Process.boot true none 0, 0, []⟩ us d₀ ∧ d₀.waiting.length = 1 ∧
      desk.next d₀ (.arrive ⟨0, .removeMember 0⟩) = some d₁ ∧ desk.Run d₁ vs d ∧
      d.waiting.length = 0 ∧ Deleted 0 d₀.process.db d₁.process.db vs d.process.db := by
  have hend : ((desk.trace ⟨Process.boot true none 0, 0, []⟩
      [.arrive ⟨0, .addMember "Resident" "Member"⟩, .arrive ⟨0, .startEnrollment 0⟩,
        .arrive ⟨0, .uploadCapture 0 1 "front" (.face [1] 1)⟩]).bind fun (_, d₀) =>
      (desk.next d₀ (.arrive ⟨0, .removeMember 0⟩)).bind fun d₁ =>
      (desk.trace d₁ [.resume 0 0]).map fun (_, d) =>
        (d₀.waiting.length, (d₀.process.db.getMember 0).isSome, d.waiting.length)) =
      some (1, true, 0) := by decide +kernel
  obtain ⟨⟨us, d₀⟩, hprior, hend⟩ := Option.bind_eq_some_iff.mp hend
  obtain ⟨d₁, hnext, hend⟩ := Option.bind_eq_some_iff.mp hend
  obtain ⟨⟨vs, d⟩, hlater, hview⟩ := Option.map_eq_some_iff.mp hend
  simp only [Prod.mk.injEq] at hview
  obtain ⟨hwaits, hfound, hlanded⟩ := hview
  have hprior := Machine.run_of_trace hprior
  have hlater := Machine.run_of_trace hlater
  exact ⟨us, d₀, d₁, vs, d, hprior, hwaits, hnext, hlater, hlanded,
    (deleted_run hprior hfound hnext hlater).1⟩

end FacialCamera.Enrollment
