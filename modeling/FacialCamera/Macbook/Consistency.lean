import FacialCamera.Macbook.Worker

/-! # Status, queue and images agree

With every `POST /enroll` in one piece the three shared values agree at every moment,
though they are updated one after the other. A job counts until its last status: what
then remains of `run_capture` is the release of the webcam, during which the next job may
already be queued.
-/

namespace FacialCamera.Macbook

open FacialCamera.Core
open Backend (Uuid)

/-- A request, or a step of the worker whose webcam is released without an exception. -/
inductive Visit where
  | startEnrollment (memberId : Option Uuid) (sessionId : String)
  | enrollmentStatus
  | getCapture (angle : Angle)
  | take (opening : Opening)
  | work
  | close

def attending : Machine Station Visit where
  next s
    | .startEnrollment memberId sessionId =>
        some { s with server := (s.server.startEnrollment memberId sessionId).2 }
    | .enrollmentStatus => some s
    | .getCapture _ => some s
    | .take opening => s.move (.take opening)
    | .work => s.move .work
    | .close => s.move (.close none)

abbrev Attended : Type := Transition Station Visit

/-! ## The law -/

def starts (t : Attended) : Option (Job × Opening) :=
  match t.label with
  | .take opening => t.before.server.captureQueue.head?.map fun job => (job, opening)
  | _ => none

def lastStarted (ts : List Attended) : Option (Job × Opening) := ts.reverse.findSome? starts

def ShotLast (ts : List Attended) (entry : Angle × Photo) : Prop :=
  ∃ started ∈ lastStarted ts, Shot started.1 started.2 entry

structure Consistent (occupied : Worker → Bool) (ts : List Attended) (s : Station) : Prop where
  one : s.jobs occupied ≤ 1
  held : s.server.status.busy = true → 0 < s.jobs occupied
  served : ∀ angle ∈ s.server.enrollmentStatus.listed, ∃ photo,
    s.server.getCapture angle = .ok photo ∧ ShotLast ts (angle, photo)

/-! ## Lookups -/

theorem getCapture_eq_ok {v : Server} {angle : Angle} {photo : Photo} :
    v.getCapture angle = .ok photo ↔ v.capturedImages.lookup angle = some photo := by
  unfold Server.getCapture
  cases v.capturedImages.lookup angle <;> simp

theorem lookup_assign (images : Images) (angle angle' : Angle) (photo : Photo) :
    (Server.assign angle photo images).lookup angle' =
      if angle' = angle then some photo else images.lookup angle' := by
  induction images with
  | nil =>
      by_cases h : angle' = angle
      · simp [Server.assign, h]
      · simp [Server.assign, List.lookup_cons, h, beq_eq_false_iff_ne.mpr h]
  | cons entry images ih =>
      obtain ⟨a, p⟩ := entry
      by_cases ha : a = angle
      · subst ha
        by_cases h : angle' = a
        · simp [Server.assign, h]
        · simp [Server.assign, List.lookup_cons, h, beq_eq_false_iff_ne.mpr h]
      · simp only [Server.assign, ha, if_false, List.lookup_cons, ih]
        by_cases h : angle' = a
        · simp [h, ha]
        · simp [beq_eq_false_iff_ne.mpr h]

theorem lastStarted_snoc (ts : List Attended) (t : Attended) :
    lastStarted (ts ++ [t]) = (starts t).or (lastStarted ts) := by
  simp only [lastStarted, List.reverse_append, List.reverse_singleton, List.singleton_append,
    List.findSome?_cons]
  cases starts t <;> rfl

/-- A step that starts no job leaves the job started last. -/
theorem shotLast_snoc {ts : List Attended} {t : Attended} (h : starts t = none) :
    ShotLast (ts ++ [t]) = ShotLast ts := by
  funext entry
  rw [ShotLast, lastStarted_snoc, h, Option.none_or, ShotLast]

/-! ## The invariant -/

def Station.fresh (s : Station) : Prop :=
  s.server.captureQueue ≠ [] ∨ ∃ job k, s.worker = .capturing job (.call .clearImages k)

/-- The status is busy exactly while there is a job, and lists nothing before the job has
cleared the images. -/
structure Keeps (ts : List Attended) (s : Station) : Prop where
  tracks : Tracks (ShotLast ts) s
  one : s.jobs Worker.engaged ≤ 1
  busy : s.server.status.busy = true ↔ 0 < s.jobs Worker.engaged
  fresh : s.fresh → s.server.status.listed = []
  served : ∀ angle ∈ s.server.status.listed, ∃ photo,
    s.server.capturedImages.lookup angle = some photo ∧ ShotLast ts (angle, photo)

theorem keeps_init : Keeps [] .init := by
  refine ⟨tracks_of_not_capturing _ (by simp [Station.init]), ?_, ?_, ?_, ?_⟩ <;>
    simp [Station.init, Station.jobs, Server.init, Worker.engaged, CaptureStatus.busy,
      CaptureStatus.listed]

theorem Keeps.consistent {ts : List Attended} {s : Station} (h : Keeps ts s) :
    Consistent Worker.engaged ts s := by
  refine ⟨h.one, h.busy.mp, fun angle hangle => ?_⟩
  obtain ⟨photo, hlookup, hshot⟩ := h.served angle hangle
  exact ⟨photo, getCapture_eq_ok.mpr hlookup, hshot⟩

section Steps

variable {ts : List Attended} {s s' : Station}

/-- A step that changes nothing and starts no job. -/
theorem Keeps.same (h : Keeps ts s) {t : Attended} (ht : starts t = none) :
    Keeps (ts ++ [t]) s := by
  refine ⟨?_, h.one, h.busy, h.fresh, ?_⟩
  · rw [shotLast_snoc ht]
    exact h.tracks
  · rw [shotLast_snoc ht]
    exact h.served

theorem Keeps.startEnrollment (h : Keeps ts s) (memberId : Option Uuid) (sessionId : String)
    {t : Attended} (ht : starts t = none) :
    Keeps (ts ++ [t]) { s with server := (s.server.startEnrollment memberId sessionId).2 } := by
  cases memberId with
  | none => exact h.same ht
  | some memberId =>
      rw [startEnrollment_eq, accepts_eq]
      cases hbusy : s.server.status.busy with
      | true => simpa [hbusy] using h.same ht
      | false =>
          have hnone : s.jobs Worker.engaged = 0 := by
            have hnot := mt h.busy.mpr (Bool.eq_false_iff.mp hbusy)
            omega
          simp only [Bool.not_false, if_true]
          rw [Station.jobs] at hnone
          refine ⟨?_, ?_, ?_, fun _ => rfl, by simp [Server.enqueue, CaptureStatus.listed]⟩
          · rw [shotLast_snoc ht]
            exact h.tracks.congr rfl
          · simp only [Station.jobs, Server.enqueue, List.length_append, List.length_singleton]
            omega
          · simp only [Station.jobs, Server.enqueue, List.length_append, List.length_singleton]
            exact iff_of_true rfl (by omega)

theorem Keeps.take (h : Keeps ts s) {job : Job} {jobs : List Job} {opening : Opening}
    (hqueue : s.server.captureQueue = job :: jobs) {t : Attended}
    (ht : starts t = some (job, opening)) :
    Keeps (ts ++ [t])
      ⟨{ s.server with captureQueue := jobs }, .capturing job (capture job opening)⟩ := by
  have hengaged : (Worker.capturing job (capture job opening)).engaged = true := by
    cases opening <;> rfl
  have hone := h.one
  have hlisted : s.server.status.listed = [] := h.fresh (Or.inl (by simp [hqueue]))
  have hshot : ShotLast (ts ++ [t]) = Shot job opening := by
    funext entry
    simp [ShotLast, lastStarted_snoc, ht]
  rw [Station.jobs, hqueue, List.length_cons] at hone
  refine ⟨?_, ?_, ?_, fun _ => hlisted, ?_⟩
  · rw [hshot]
    exact tracks_capture _ job opening
  · simp only [Station.jobs, hengaged, Bool.toNat_true]
    omega
  · simp only [Station.jobs, hengaged, Bool.toNat_true]
    refine iff_of_true (h.busy.mpr ?_) (by omega)
    rw [Station.jobs, hqueue, List.length_cons]
    omega
  · intro angle hangle
    rw [hlisted] at hangle
    cases hangle

/-- A call keeps the listed angles served: it lists what is stored, or stores a photo of the
same capture, or clears the images while nothing is listed. -/
theorem Keeps.served_called (h : Keeps ts s) {job : Job} {c : Call} {k : Answer c → Proc Exit}
    (hworker : s.worker = .capturing job (.call c k)) :
    ∀ angle ∈ (c.apply s.server).status.listed, ∃ photo,
      (c.apply s.server).capturedImages.lookup angle = some photo ∧
        ShotLast ts (angle, photo) := by
  rcases h.tracks job _ hworker with ⟨rest, hclear, _, _⟩ | ⟨hallowed, _, _⟩
  · cases hclear
    have hlisted : s.server.status.listed = [] := h.fresh (Or.inr ⟨job, rest, hworker⟩)
    intro angle hangle
    simp [Call.apply, Call.statusAfter, hlisted] at hangle
  · cases c with
    | clearImages => exact hallowed.elim
    | doneAngles => exact h.served
    | setStatus status => exact hallowed
    | storeImage stored photo =>
        intro angle hangle
        simp only [Call.apply, Call.imagesAfter, lookup_assign]
        by_cases hsame : angle = stored
        · subst hsame
          exact ⟨photo, by simp, hallowed⟩
        · rw [if_neg hsame]
          exact h.served angle hangle

theorem Keeps.called (h : Keeps ts s) {job : Job} {c : Call} {k : Answer c → Proc Exit}
    (hworker : s.worker = .capturing job (.call c k)) {t : Attended} (ht : starts t = none) :
    Keeps (ts ++ [t])
      ⟨c.apply s.server, .capturing job (k (c.answer s.server.capturedImages))⟩ := by
  have hengaged : s.worker.engaged = true := by rw [hworker]; rfl
  have hone := h.one
  rw [jobs_of_occupied hengaged] at hone
  have hempty : s.server.captureQueue.length = 0 := by omega
  have hbusy : s.server.status.busy = true := by
    refine h.busy.mpr ?_
    rw [jobs_of_occupied hengaged]
    omega
  obtain ⟨hquiet, hleft⟩ := h.tracks.called hworker
  have hstatus := busy_called h.tracks hworker hbusy
  have hlast := Bool.toNat_le
    (Worker.capturing job (k (c.answer s.server.capturedImages))).engaged
  refine ⟨?_, ?_, ?_, ?_, ?_⟩
  · rw [shotLast_snoc ht]
    exact tracks_of_left hleft
  · simp only [Station.jobs, Call.apply]
    omega
  · simp only [Station.jobs, Call.apply, hempty] at hstatus ⊢
    rw [hstatus]
    cases (Worker.capturing job (k (c.answer s.server.capturedImages))).engaged <;> simp
  · rintro (hqueue | ⟨job', k', hclear⟩)
    · exact absurd (List.eq_nil_of_length_eq_zero hempty) hqueue
    · obtain ⟨_, hrest⟩ := Worker.capturing.inj hclear
      rw [hrest] at hleft
      exact hleft.1.elim
  · rw [shotLast_snoc ht]
    exact h.served_called hworker

theorem Keeps.returned (h : Keeps ts s) {job : Job} {exit : Exit}
    (hworker : s.worker = .capturing job (.done exit)) {t : Attended} (ht : starts t = none) :
    Keeps (ts ++ [t]) { s with worker := .closing exit } := by
  have hjobs : Station.jobs { s with worker := .closing exit } Worker.engaged =
      s.jobs Worker.engaged := by
    rw [Station.jobs, Station.jobs, hworker]
    rfl
  refine ⟨tracks_of_not_capturing _ (by simp), hjobs ▸ h.one, hjobs ▸ h.busy, ?_, ?_⟩
  · rintro (hqueue | ⟨_, _, hclear⟩)
    · exact h.fresh (Or.inl hqueue)
    · cases hclear
  · rw [shotLast_snoc ht]
    exact h.served

theorem Keeps.closed (h : Keeps ts s) {exit : Exit} (hworker : s.worker = .closing exit)
    {t : Attended} (ht : starts t = none) :
    Keeps (ts ++ [t]) ⟨s.server.finish exit none, .waiting⟩ := by
  have htracks (v : Server) : Tracks (ShotLast (ts ++ [t])) ⟨v, .waiting⟩ :=
    tracks_of_not_capturing _ (by simp)
  -- Without an exception the status has been published, and nothing is written again.
  have hquiet (hidle : s.worker.engaged = false) :
      Keeps (ts ++ [t]) ⟨s.server, .waiting⟩ := by
    have hjobs : Station.jobs ⟨s.server, .waiting⟩ Worker.engaged = s.jobs Worker.engaged := by
      rw [Station.jobs, Station.jobs, hidle]
      rfl
    refine ⟨htracks _, hjobs ▸ h.one, hjobs ▸ h.busy, ?_, ?_⟩
    · rintro (hqueue | ⟨_, _, hclear⟩)
      · exact h.fresh (Or.inl hqueue)
      · cases hclear
    · rw [shotLast_snoc ht]
      exact h.served
  cases exit with
  | unopened => exact hquiet (by rw [hworker]; rfl)
  | returned => exact hquiet (by rw [hworker]; rfl)
  | raised e =>
      have hone := h.one
      have hengaged : s.worker.engaged = true := by rw [hworker]; rfl
      rw [jobs_of_occupied hengaged] at hone
      have hempty : s.server.captureQueue.length = 0 := by omega
      have hjobs : Station.jobs ⟨s.server.finish (.raised e) none, .waiting⟩ Worker.engaged = 0 :=
        hempty
      refine ⟨htracks _, hjobs ▸ Nat.zero_le 1, ?_, fun _ => rfl, ?_⟩
      · rw [hjobs]
        simp [Server.finish, Server.setStatus, CaptureStatus.busy]
      · simp [Server.finish, Server.setStatus, CaptureStatus.listed]

theorem Keeps.step (h : Keeps ts s) {e : Visit} (hnext : attending.next s e = some s') :
    Keeps (ts ++ [⟨s, e, s'⟩]) s' := by
  cases e with
  | startEnrollment memberId sessionId =>
      cases hnext
      exact h.startEnrollment memberId sessionId rfl
  | enrollmentStatus =>
      cases hnext
      exact h.same rfl
  | getCapture angle =>
      cases hnext
      exact h.same rfl
  | take opening =>
      have hmove : s.move (.take opening) = some s' := hnext
      cases move_cases hmove with
      | taken _ hqueue hs =>
          subst hs
          exact h.take hqueue (by simp [starts, hqueue])
  | work =>
      have hmove : s.move .work = some s' := hnext
      cases move_cases hmove with
      | called hworker hs =>
          subst hs
          exact h.called hworker rfl
      | returned hworker hs =>
          subst hs
          exact h.returned hworker rfl
  | close =>
      have hmove : s.move (.close none) = some s' := hnext
      cases move_cases hmove with
      | closed hworker hs =>
          subst hs
          exact h.closed hworker rfl

end Steps

/-- In every state that requests and captures lead to, at most one job is queued or has not
published its last status, there is one whenever the status is busy, and every listed angle
is downloaded with the photo that the job started last has taken. -/
theorem consistent_engaged {ts : List Attended} {s : Station}
    (hrun : attending.Run .init ts s) : Consistent Worker.engaged ts s := by
  have hkeeps : Keeps ts s := by
    refine hrun.history_invariant (C := fun _ _ => True) keeps_init ?_ fun _ _ _ => trivial
    intro us s e s' _ h _ hnext
    exact h.step hnext
  exact hkeeps.consistent

def nextRequest : List Visit :=
  [.startEnrollment (some 0) "pending", .take (.ok (steadyWebcam []))] ++ List.replicate 15 .work ++
    [.startEnrollment (some 1) "pending"]

theorem consistent_nextRequest :
    ∃ ts s, attending.Run .init ts s ∧ s.jobs Worker.engaged = 1 ∧
      Consistent Worker.engaged ts s := by
  have hend : (attending.trace .init nextRequest).map (fun (_, s) => s.jobs Worker.engaged) =
      some 1 := by
    decide +kernel
  obtain ⟨ts, s, hrun, hjobs⟩ := Machine.exists_run_of_view hend
  exact ⟨ts, s, hrun, hjobs, consistent_engaged hrun⟩

/-- The next job is queued while the worker has not left the one before. -/
theorem not_always_consistent :
    ¬ ∀ (ts : List Attended) (s : Station), attending.Run .init ts s →
      Consistent Worker.running ts s := by
  intro halways
  have hend : (attending.trace .init nextRequest).map (fun (_, s) => s.jobs Worker.running) =
      some 2 := by
    decide +kernel
  obtain ⟨ts, s, hrun, hjobs⟩ := Machine.exists_run_of_view hend
  have hone := (halways ts s hrun).one
  have htwo : s.jobs Worker.running = 2 := hjobs
  omega

end FacialCamera.Macbook
