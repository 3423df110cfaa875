import FacialCamera.Enrollment.Requests

/-! # The sessions that a history completed and cancelled

Facts about runs of requests that the results on captures and on the life cycle
share: ids in the history are drawn, sessions it mentions were there before, and
no request reopens a closed one.
-/

namespace FacialCamera.Enrollment

open FacialCamera.Core Backend

def completes (s : Uuid) (t : Transition Process Arrival) : Bool :=
  match deedOf t with
  | .complete _ s' _ => s' = s
  | _ => false

def cancels (s : Uuid) (t : Transition Process Arrival) : Bool :=
  match deedOf t with
  | .cancel _ s' => s' = s
  | _ => false

theorem completes_iff {s : Uuid} {t : Transition Process Arrival} :
    completes s t = true ↔ ∃ m liveness, deedOf t = .complete m s liveness := by
  unfold completes
  cases deedOf t <;> simp

/-! ## Open and closed sessions -/

theorem isOpen_of_admitted {db : Database} {m s : Uuid} (h : Admitted db m s) {row : SessionRow}
    (hrow : db.getEnrollmentSession s = some row) :
    row.memberId = m ∧ row.status.isOpen = true := by
  obtain ⟨session, hsession, hopen⟩ := h
  obtain ⟨hfound, hmember⟩ := ownSession_eq_some_iff.mp hsession
  obtain rfl : session = row := Option.some.inj (hfound.symm.trans hrow)
  exact ⟨hmember, hopen⟩

/-- How an uninterrupted request moves a session. -/
theorem moved_request {db : Database} (now : Timestamp) (r : Request) {s : Uuid} {row : SessionRow}
    (hrow : db.getEnrollmentSession s = some row) :
    Moved db row ((r.deed db).revise now row) (r.deed db) :=
  moved_revise now hrow fun _ _ _ _ _ hd => (deed_eq_capture hd).2.2

/-- No uninterrupted request reopens a closed session. -/
theorem isOpen_revise {db : Database} {now : Timestamp} {r : Request} {s : Uuid}
    {row : SessionRow} (hrow : db.getEnrollmentSession s = some row)
    (hclosed : row.status.isOpen = false) :
    ((r.deed db).revise now row).status.isOpen = false := by
  have hmoved := moved_request now r hrow
  obtain ⟨_, rfl⟩ := Table.find?_mem hrow
  generalize hd : r.deed db = d at hmoved
  cases hmoved with
  | kept hstatus _ _ => rw [hstatus, hclosed]
  | captured _ _ =>
      have hopen := (isOpen_of_admitted (deed_eq_capture hd).1 hrow).2
      rw [hclosed] at hopen
      cases hopen
  | completed hstatus _ => rw [hstatus]; rfl
  | cancelled hstatus _ => rw [hstatus]; rfl

/-! ## Ids -/

section Step

variable {b b' : Process} {a : Arrival}

/-- A session of the state after a request that the history mentions was there before. -/
theorem session_before (hnext : serve.next b a = some b') {s : Uuid} {row' : SessionRow}
    (hs : s < b.db.uuids) (hrow : b'.db.getEnrollmentSession s = some row') :
    ∃ row, b.db.getEnrollmentSession s = some row ∧
      row' = (deedOf ⟨b, a, b'⟩).revise a.clock row := by
  rw [serve_db hnext] at hrow
  rcases session_cases a.clock (deedOf_valid ⟨b, a, b'⟩) hrow with ⟨_, _, rfl, _⟩ | hbefore
  · exact absurd hs (lt_irrefl _)
  · exact hbefore

/-- A session after a request is the one it started or has moved as its deed says. -/
theorem session_step (hnext : serve.next b a = some b') {s : Uuid} {row' : SessionRow}
    (hrow : b'.db.getEnrollmentSession s = some row') :
    (∃ m, deedOf ⟨b, a, b'⟩ = .start m ∧ s = b.db.uuids ∧ row' = b.db.newSession m a.clock) ∨
      ∃ row, b.db.getEnrollmentSession s = some row ∧ Moved b.db row row' (deedOf ⟨b, a, b'⟩) := by
  rw [serve_db hnext] at hrow
  refine (session_cases a.clock (deedOf_valid ⟨b, a, b'⟩) hrow).imp_right ?_
  rintro ⟨row, hbefore, rfl⟩
  exact ⟨row, hbefore, moved_request a.clock a.request hbefore⟩

theorem lt_uuids_of_has {db : Database} {m : Uuid} (h : db.members.Has m) : m < db.uuids := by
  obtain ⟨row, hrow, rfl⟩ := h
  exact db.members_drawn row hrow

theorem lt_uuids_of_session {db : Database} {s : Uuid} {row : SessionRow}
    (h : db.getEnrollmentSession s = some row) : s < db.uuids := by
  obtain ⟨hrow, rfl⟩ := Table.find?_mem h
  exact db.sessions_drawn row hrow

/-- A session on both sides of a request has moved as its deed says. -/
theorem moved_step (hnext : serve.next b a = some b') {s : Uuid} {row row' : SessionRow}
    (hrow : b.db.getEnrollmentSession s = some row)
    (hrow' : b'.db.getEnrollmentSession s = some row') :
    Moved b.db row row' (deedOf ⟨b, a, b'⟩) := by
  obtain ⟨before, hbefore, hafter⟩ := session_before hnext (lt_uuids_of_session hrow) hrow'
  obtain rfl : before = row := Option.some.inj (hbefore.symm.trans hrow)
  rw [hafter]
  exact moved_request a.clock a.request hrow

theorem lt_uuids_of_admitted {db : Database} {m s : Uuid} (h : Admitted db m s) : s < db.uuids := by
  obtain ⟨session, hsession, _⟩ := h
  exact lt_uuids_of_session (ownSession_eq_some_iff.mp hsession).1

theorem lt_uuids_of_completes {s : Uuid} (h : completes s ⟨b, a, b'⟩ = true) : s < b.db.uuids := by
  obtain ⟨m, liveness, hd⟩ := completes_iff.mp h
  have hown : (Deed.complete m s liveness).Valid b.db := hd ▸ deedOf_valid ⟨b, a, b'⟩
  obtain ⟨session, hsession⟩ := Option.isSome_iff_exists.mp hown
  exact lt_uuids_of_session (ownSession_eq_some_iff.mp hsession).1

theorem uuids_le_step (hnext : serve.next b a = some b') : b.db.uuids ≤ b'.db.uuids := by
  rw [serve_db hnext]
  exact uuids_le_apply a.clock (deedOf_valid ⟨b, a, b'⟩)

end Step

theorem completed_drawn {b₀ b : Process} {ts : List (Transition Process Arrival)}
    (hrun : serve.Run b₀ ts b) (s : Uuid) (h : ∃ t ∈ ts, completes s t = true) :
    s < b.db.uuids := by
  induction hrun with
  | nil => simp at h
  | snoc _ hnext ih =>
      obtain ⟨t, ht, hs⟩ := h
      rcases List.mem_append.mp ht with ht | ht
      · exact (ih ⟨t, ht, hs⟩).trans_le (uuids_le_step hnext)
      · rw [List.mem_singleton.mp ht] at hs
        exact (lt_uuids_of_completes hs).trans_le (uuids_le_step hnext)

def fullEnrollment : List Arrival :=
  ([.addMember "Resident" "Member", .startEnrollment 0,
    .piCameraCapture 0 1 "front" (some (.face [1] 1)),
    .piCameraCapture 0 1 "left" (some (.face [2] 1)),
    .piCameraCapture 0 1 "right" (some (.face [3] 1)),
    .completeEnrollment 0 1] : List Request).map (Arrival.mk 0)

end FacialCamera.Enrollment
