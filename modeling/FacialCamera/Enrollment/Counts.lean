import FacialCamera.Enrollment.ClosedSessions

/-! # What a session says about its captures

Count, liveness score, progress and status of a session are written together by
every capture, from a count that is read in the same segment. They agree with the
encodings stored through the session, unless a handler raises between storing an
encoding and counting it.
-/

namespace FacialCamera.Enrollment

open FacialCamera.Core Backend

def Deed.storesThrough (s : Uuid) : Deed → Bool
  | .capture _ s' _ _ _ => s' = s
  | _ => false

/-- The encodings that a history has ever stored through the session `s`. -/
def storedThrough (s : Uuid) (ts : List (Transition Desk DeskMove)) : Nat :=
  ts.countP fun t => (t.label.deed t.before).storesThrough s

def livenessFor (captures : Nat) : ℚ :=
  if captures = 0 then 0 else min (96 / 100) (8 / 10 + 3 / 100 * captures)

def progressFor (captures : Nat) : ℚ :=
  if captures = 0 then 15 else min 90 (20 + 25 * captures)

structure Tallies (stored : Nat) (row : SessionRow) : Prop where
  count : row.capturesCount = stored
  liveness : row.livenessScore = livenessFor row.capturesCount
  status : row.status.isOpen = true → (row.status = .processing ↔ 3 ≤ row.capturesCount)
  progress : row.status.isOpen = true → row.progress = progressFor row.capturesCount
  finished : row.progress = 100 → row.status = .completed ∨ row.status = .cancelled

/-- Every session agrees with the encodings that were ever stored through it. -/
def Counted (ts : List (Transition Desk DeskMove)) (d : Desk) : Prop :=
  ∀ s row, d.process.db.getEnrollmentSession s = some row → Tallies (storedThrough s ts) row

/-! ## The condition -/

/-- An upload of a face under `true` or a number that SQLite stores, which have no
`upper()`. -/
def Request.lacksUpper : Request → Bool
  | .uploadCaptureB64 _ _ (some ⟨some (.scalar _), some (.face _ _)⟩) => true
  | _ => false

/-- No such upload lands for a member that is still there while the session has fewer than
two captures. -/
def CountsCapture (_ : List (Transition Desk DeskMove)) (t : Transition Desk DeskMove) : Prop :=
  match t.label with
  | .arrive _ => True
  | .resume i _ =>
      ∀ w ∈ t.before.waiting[i]?, w.request.lacksUpper = true →
        ∀ target ∈ w.request.upload?, t.before.process.db.members.Has target.1 →
          2 ≤ (t.before.process.db.selectCapturesCount target.2).getD 0

instance (ts : List (Transition Desk DeskMove)) :
    (t : Transition Desk DeskMove) → Decidable (CountsCapture ts t)
  | ⟨_, .arrive _, _⟩ => inferInstanceAs (Decidable True)
  | ⟨before, .resume i _, _⟩ => inferInstanceAs (Decidable (∀ w ∈ before.waiting[i]?, _))

/-! ## Captures that are not counted -/

/-- The handler raises after it has stored the encoding. -/
def Deed.uncounted : Deed → Bool
  | .capture _ _ _ _ none => true
  | _ => false

theorem uncounted_captureDeed_text (db : Database) (texts : CaptureTexts) (m s : Uuid)
    (angle : String) (image : EncoderOutcome) :
    (captureDeed db texts m s (.text angle) image).uncounted = false := by
  cases image with
  | raises => rfl
  | noFace => rfl
  | face encoding quality =>
      obtain ⟨message, hmessage⟩ :=
        exists_captureMessage texts ((db.selectCapturesCount s).getD 0 + 1) angle
      by_cases hm : db.members.Has m <;>
        simp [captureDeed, Angle.stored?, hm, hmessage, Deed.uncounted]

theorem uncounted_arrivalDeed (db : Database) (r : Request) :
    (r.arrivalDeed db).uncounted = false := by
  unfold Request.arrivalDeed
  split
  case isTrue => rfl
  case isFalse hupload =>
    cases hd : r.deed db with
    | capture m s encoding stored columns =>
        cases r with
        | piCameraCapture m' s' angle frame =>
            cases frame with
            | none => cases hd
            | some image =>
                have htext := uncounted_captureDeed_text db cameraTexts m' s' angle image
                simp only [Request.deed] at hd
                split at hd
                · rw [← hd, htext]
                · cases hd
        | uploadCapture | uploadCaptureB64 => simp [Request.upload?] at hupload
        | _ =>
            obtain ⟨_, hcapture, _⟩ := deed_eq_capture hd
            simp [Request.capture?, Request.upload?] at hcapture
    | _ => rfl

/-- Which landings are not counted. -/
theorem uncounted_landingDeed_iff {db : Database} {r : Request} {m s : Uuid}
    (hupload : r.upload? = some (m, s)) :
    (r.landingDeed db).uncounted = true ↔
      r.lacksUpper = true ∧ db.members.Has m ∧ (db.selectCapturesCount s).getD 0 < 2 := by
  cases r with
  | uploadCapture m' s' angle image =>
      simp [Request.landingDeed, uncounted_captureDeed_text, Request.lacksUpper]
  | uploadCaptureB64 m' s' body =>
      obtain ⟨rfl, rfl⟩ : m' = m ∧ s' = s := by simpa [Request.upload?] using hupload
      rcases body with _ | ⟨_ | angle, _ | image⟩
      iterate 4 simp [Request.landingDeed, bodyDeed, Request.lacksUpper, Deed.uncounted]
      cases angle with
      | text angle =>
          simp [Request.landingDeed, bodyDeed, uncounted_captureDeed_text, Request.lacksUpper]
      | nan | compound =>
          cases image <;>
            simp [Request.landingDeed, bodyDeed, captureDeed, Angle.stored?, Request.lacksUpper,
              Deed.uncounted]
      | scalar stored =>
          cases image with
          | raises => simp [Request.landingDeed, bodyDeed, captureDeed, Request.lacksUpper,
              Deed.uncounted]
          | noFace => simp [Request.landingDeed, bodyDeed, captureDeed, Request.lacksUpper,
              Deed.uncounted]
          | face encoding quality =>
              by_cases hm : db.members.Has m'
              swap
              · simp [Request.landingDeed, bodyDeed, captureDeed, Angle.stored?, hm,
                  Deed.uncounted]
              by_cases hcount : (db.selectCapturesCount s').getD 0 < 2
              · have hfew : ¬ 3 ≤ (db.selectCapturesCount s').getD 0 + 1 := by omega
                simp [Request.landingDeed, bodyDeed, captureDeed, Angle.stored?, hm,
                  captureMessage, hfew, hcount, Request.lacksUpper, Deed.uncounted]
              · have hmany : 3 ≤ (db.selectCapturesCount s').getD 0 + 1 := by omega
                simp [Request.landingDeed, bodyDeed, captureDeed, Angle.stored?, hm,
                  captureMessage, hmany, hcount, Deed.uncounted]
  | _ => cases hupload

/-! ## One deed -/

theorem tallies_newSession (db : Database) (m : Uuid) (now : Timestamp) :
    Tallies 0 (db.newSession m now) := by
  constructor <;> simp [Database.newSession, Status.isOpen, livenessFor, progressFor]

/-- The columns of a capture agree with each other. -/
theorem tallies_captureColumns {stored : Nat} {row : SessionRow} (quality : ℚ) (message : Message)
    (h : row.capturesCount = stored) :
    Tallies (stored + 1) ((captureColumns (row.capturesCount + 1) quality message).write row) := by
  subst h
  constructor
  · rfl
  · simp [Database.SessionColumns.write, captureColumns, livenessFor, mul_comm]
  · intro _
    simp only [Database.SessionColumns.write, captureColumns, Option.getD_some]
    split <;> simp_all
  · intro _
    simp [Database.SessionColumns.write, captureColumns, progressFor, mul_comm]
  · intro hprogress
    have hle : min 90 (20 + ((row.capturesCount + 1 : ℕ) : ℚ) * 25) ≤ 90 := min_le_left _ _
    simp only [Database.SessionColumns.write, captureColumns, Option.getD_some] at hprogress
    rw [hprogress] at hle
    norm_num at hle

/-- A deed keeps a session in agreement with what is stored through it, unless it stores an
encoding there without counting it. -/
theorem Tallies.revise {db : Database} {s : Uuid} {row : SessionRow} {d : Deed} {stored : Nat}
    (now : Timestamp) (h : Tallies stored row) (hrow : db.getEnrollmentSession s = some row)
    (hcaptures : ∀ m s encoding angle columns, d = .capture m s encoding angle columns →
      Captures db m s columns) (hcounted : d.uncounted = false) :
    Tallies (stored + (d.storesThrough row.sessionId).toNat) (d.revise now row) := by
  have hkept (hfor : d.columnsFor now row.sessionId = none)
      (hstores : d.storesThrough row.sessionId = false) :
      Tallies (stored + (d.storesThrough row.sessionId).toNat) (d.revise now row) := by
    simpa [Deed.revise, hfor, hstores] using h
  cases d with
  | capture m s' encoding angle columns =>
      by_cases hs : s' = row.sessionId
      swap
      · exact hkept (by simp [Deed.columnsFor, hs]) (by simp [Deed.storesThrough, hs])
      subst hs
      cases columns with
      | none => cases hcounted
      | some columns =>
          obtain ⟨quality, message, rfl⟩ :=
            (hcaptures m row.sessionId encoding angle (some columns) rfl).columns columns rfl
          have hcount : (db.selectCapturesCount row.sessionId).getD 0 = row.capturesCount := by
            obtain ⟨_, rfl⟩ := Table.find?_mem hrow
            have hfound : db.sessions.find? row.sessionId = some row := hrow
            simp [Database.selectCapturesCount, hfound]
          simpa [Deed.revise, Deed.columnsFor, Deed.storesThrough, hcount] using
            tallies_captureColumns quality message h.count
  | note s' message =>
      by_cases hs : s' = row.sessionId
      · simp only [Deed.revise, Deed.columnsFor, if_pos hs, Deed.storesThrough]
        exact ⟨h.count, h.liveness, h.status, h.progress, h.finished⟩
      · exact hkept (by simp [Deed.columnsFor, hs]) rfl
  | complete m s' liveness =>
      by_cases hs : s' = row.sessionId
      · simp only [Deed.revise, Deed.columnsFor, if_pos hs, Deed.storesThrough]
        have hclosed {p : Prop} (h : false = true) : p := by cases h
        exact ⟨h.count, h.liveness, hclosed, hclosed, fun _ => Or.inl rfl⟩
      · exact hkept (by simp [Deed.columnsFor, hs]) rfl
  | cancel m s' =>
      by_cases hs : s' = row.sessionId
      · simp only [Deed.revise, Deed.columnsFor, if_pos hs, Deed.storesThrough]
        have hclosed {p : Prop} (h : false = true) : p := by cases h
        exact ⟨h.count, h.liveness, hclosed, hclosed, fun _ => Or.inr rfl⟩
      · exact hkept (by simp [Deed.columnsFor, hs]) rfl
  | _ => exact hkept rfl rfl

/-! ## One segment -/

section Move

variable {ts : List (Transition Desk DeskMove)} {d d' : Desk} {l : DeskMove}

theorem storedThrough_snoc (s : Uuid) (ts : List (Transition Desk DeskMove))
    (t : Transition Desk DeskMove) :
    storedThrough s (ts ++ [t]) =
      storedThrough s ts + ((t.label.deed t.before).storesThrough s).toNat := by
  cases h : (t.label.deed t.before).storesThrough s <;> simp [storedThrough, h]

/-- The session that an encoding is stored through is there. -/
theorem exists_session_of_capture {b : Process} {m s : Uuid} {encoding : Encoding}
    {stored : String} {columns : Option Database.SessionColumns}
    (hprior : desk.Run ⟨b, 0, []⟩ ts d)
    (hd : l.deed d = .capture m s encoding stored columns) :
    ∃ row, d.process.db.getEnrollmentSession s = some row := by
  cases l with
  | arrive a =>
      simp only [DeskMove.deed, Request.arrivalDeed] at hd
      split at hd
      · cases hd
      · obtain ⟨session, hsession, _⟩ := (Enrollment.deed_eq_capture hd).1
        exact ⟨session, (ownSession_eq_some_iff.mp hsession).1⟩
  | resume i clock =>
      cases hw : d.waiting[i]? with
      | none => simp [DeskMove.deed, hw] at hd
      | some w =>
          obtain ⟨hupload, hcaptures⟩ :=
            landingDeed_eq_capture (r := w.request) (by simpa [DeskMove.deed, hw] using hd)
          obtain ⟨m', s', hexpects⟩ := expects_run hprior (List.mem_of_getElem? hw)
          obtain ⟨rfl, rfl⟩ := Prod.mk.inj (Option.some.inj (hexpects.upload.symm.trans hupload))
          obtain ⟨row, hrow, _⟩ := hexpects.finds hcaptures.member
          exact ⟨row, hrow⟩

/-- No encoding is stored through a session that is not drawn yet. -/
theorem storedThrough_of_le {b : Process} (hrun : desk.Run ⟨b, 0, []⟩ ts d) {s : Uuid}
    (hs : d.process.db.uuids ≤ s) : storedThrough s ts = 0 := by
  induction hrun with
  | nil => rfl
  | @snoc ts d d' l hprior hnext ih =>
      have hbefore := (uuids_le_move (suspended_run hprior) hnext).trans hs
      rw [storedThrough_snoc, ih hbefore, Nat.zero_add]
      cases hd : l.deed d with
      | capture m s' encoding stored columns =>
          obtain ⟨row, hrow⟩ := exists_session_of_capture hprior hd
          have hne : s' ≠ s := ((lt_uuids_of_session hrow).trans_le hbefore).ne
          simp [Deed.storesThrough, hne]
      | _ => rfl

/-- One segment keeps the agreement exactly if it counts what it stores. -/
theorem counted_step_iff {b : Process} (hprior : desk.Run ⟨b, 0, []⟩ ts d) (h : Counted ts d)
    (hnext : desk.next d l = some d') :
    Counted (ts ++ [⟨d, l, d'⟩]) d' ↔ (l.deed d).uncounted = false := by
  have hdb := (desk_spec (suspended_run hprior) hnext).1
  have hvalid := l.deed_valid d
  constructor
  · intro hafter
    cases hd : l.deed d with
    | capture m s encoding stored columns =>
        cases columns with
        | some columns => rfl
        | none =>
            obtain ⟨row, hrow⟩ := exists_session_of_capture hprior hd
            have hstays := session_stays l.clock hvalid hrow (by simp [hd])
            rw [← hdb, hd] at hstays
            have hcount := (hafter s _ hstays).count
            rw [storedThrough_snoc] at hcount
            simp [hd, Deed.storesThrough, Deed.revise, Deed.columnsFor, (h s row hrow).count]
              at hcount
    | _ => rfl
  · intro hcounted s row' hrow'
    rw [hdb] at hrow'
    rw [storedThrough_snoc]
    rcases session_cases l.clock hvalid hrow' with ⟨m, hd, rfl, rfl⟩ | ⟨row, hrow, rfl⟩
    · rw [storedThrough_of_le hprior le_rfl]
      simpa [hd, Deed.storesThrough] using tallies_newSession d.process.db m l.clock
    · obtain ⟨_, rfl⟩ := Table.find?_mem hrow
      exact (h row.sessionId row hrow).revise l.clock hrow
        (fun _ _ _ _ _ hd => (DeskMove.deed_eq_capture hd).choose_spec.2.2) hcounted

theorem uncounted_iff {b : Process} (hprior : desk.Run ⟨b, 0, []⟩ ts d)
    (hnext : desk.next d l = some d') :
    (l.deed d).uncounted = false ↔ CountsCapture ts ⟨d, l, d'⟩ := by
  cases l with
  | arrive a => exact iff_of_true (uncounted_arrivalDeed d.process.db a.request) trivial
  | resume i clock =>
      obtain ⟨w, hw⟩ : ∃ w, d.waiting[i]? = some w := by
        cases (desk_spec (suspended_run hprior) hnext).2 with
        | landed hw _ _ => exact ⟨_, hw⟩
      obtain ⟨m, s, hexpects⟩ := expects_run hprior (List.mem_of_getElem? hw)
      have hlands : (w.request.landingDeed d.process.db).uncounted = true ↔ _ :=
        uncounted_landingDeed_iff hexpects.upload
      have hdeed : (DeskMove.resume i clock).deed d = w.request.landingDeed d.process.db := by
        simp [DeskMove.deed, hw]
      rw [hdeed, ← Bool.not_eq_true, hlands]
      simp only [CountsCapture, hw, hexpects.upload, Option.mem_some_iff, forall_eq', not_and,
        not_lt]

end Move

/-- In every state of a run every session agrees with the encodings stored through it,
exactly if every stored encoding is counted. -/
theorem counted_iff_countsCapture {onPi : Bool} {clock : ℚ} {d : Desk}
    {ts : List (Transition Desk DeskMove)}
    (hrun : desk.Run ⟨Process.boot onPi none clock, 0, []⟩ ts d) :
    Machine.Throughout Counted ⟨Process.boot onPi none clock, 0, []⟩ ts ↔
      Machine.EachStep CountsCapture ts := by
  refine hrun.throughout_iff ?_ fun us d l d' hprior h hnext => ?_
  · intro s row hrow
    simp [Process.boot, Database.initDb, Database.fresh, Database.getEnrollmentSession] at hrow
  · rw [counted_step_iff hprior h hnext, uncounted_iff hprior hnext]

/-! ## A run that counts and one that does not -/

theorem counted_uploadsInTime :
    ∃ ts d, desk.Run newDesk ts d ∧ Machine.Throughout Counted newDesk ts ∧
      (d.process.db.getEnrollmentSession 1).map SessionRow.capturesCount = some 2 := by
  have hend : (desk.trace newDesk uploadsInTime).map (fun (ts, d) =>
      (decide (Machine.EachStep CountsCapture ts),
        (d.process.db.getEnrollmentSession 1).map SessionRow.capturesCount)) =
      some (true, some 2) := by
    decide +kernel
  obtain ⟨ts, d, hrun, hview⟩ := Machine.exists_run_of_view hend
  obtain ⟨hsteps, hcount⟩ := Prod.mk.inj hview
  exact ⟨ts, d, hrun, (counted_iff_countsCapture hrun).mpr (of_decide_eq_true hsteps), hcount⟩

def numberedAngle : List DeskMove :=
  [.arrive ⟨0, .addMember "Resident" "Member"⟩, .arrive ⟨0, .startEnrollment 0⟩,
    .arrive ⟨0, .uploadCaptureB64 0 1 (some ⟨some (.scalar "1"), some (.face [1] 1)⟩)⟩,
    .resume 0 0]

theorem not_always_counted :
    ¬ ∀ (ts : List (Transition Desk DeskMove)) (d : Desk),
      desk.Run newDesk ts d → Counted ts d := by
  intro halways
  have hend : (desk.trace newDesk numberedAngle).map (fun (ts, d) =>
      (storedThrough 1 ts, (d.process.db.getEnrollmentSession 1).map SessionRow.capturesCount)) =
      some (1, some 0) := by
    decide +kernel
  obtain ⟨ts, d, hrun, hview⟩ := Machine.exists_run_of_view hend
  obtain ⟨hstored, hcount⟩ := Prod.mk.inj hview
  obtain ⟨row, hrow, hzero⟩ := Option.map_eq_some_iff.mp hcount
  have htallies := (halways ts d hrun 1 row hrow).count
  rw [hzero, hstored] at htallies
  cases htallies

end FacialCamera.Enrollment
