import FacialCamera.Macbook.Worker

/-! # Concurrent enrollment requests

Flask runs every `POST /enroll` in a thread of its own. The handler looks at the status
in one critical section and writes it in another, so two handlers may both see it free.
-/

namespace FacialCamera.Macbook

open FacialCamera.Core
open Backend (Uuid)

/-! ## The handler, one critical section at a time -/

inductive HandlerCall where
  | getStatus
  | setStatus (status : CaptureStatus)
  | put (job : Job)

@[reducible] def HandlerAnswer : HandlerCall → Type
  | .getStatus => CaptureStatus
  | _ => Unit

def execHandler : Interp HandlerCall HandlerAnswer Server
  | .getStatus, v => some (v.status, v)
  | .setStatus status, v => some ((), v.setStatus status)
  | .put job, v => some ((), { v with captureQueue := v.captureQueue ++ [job] })

abbrev Handler : Type :=
  Program HandlerCall HandlerAnswer (Except Server.ErrorReply Server.Started)

def HandlerCall.issue (c : HandlerCall) : Program HandlerCall HandlerAnswer (HandlerAnswer c) :=
  .perform c

def startEnrollment (memberId : Option Uuid) (sessionId : String) : Handler :=
  match memberId with
  | none => return .error ⟨400, "memberId required"⟩
  | some memberId => do
      let current ← HandlerCall.getStatus.issue
      if current.status = .capturing ∨ current.status = .starting then
        return .error ⟨409, "Enrollment already in progress"⟩
      else
        (HandlerCall.setStatus ⟨.starting, 0, "Opening MacBook camera...", none⟩).issue
        (HandlerCall.put ⟨memberId, sessionId⟩).issue
        return .ok ⟨"started", "Webcam capture starting on MacBook"⟩

/-- Without interruption the handler is the atomic `POST /enroll`. -/
theorem run_startEnrollment (memberId : Option Uuid) (sessionId : String) (v : Server) :
    (startEnrollment memberId sessionId).run execHandler v =
      (some (v.startEnrollment memberId sessionId).1,
        (v.startEnrollment memberId sessionId).2) := by
  cases memberId with
  | none => rfl
  | some memberId =>
      by_cases h : v.status.status = .capturing ∨ v.status.status = .starting
      · simp [startEnrollment, Server.startEnrollment, HandlerCall.issue, Program.run_call,
          execHandler, h]
      · simp [startEnrollment, Server.startEnrollment, HandlerCall.issue, Program.run_call,
          execHandler, h, Server.setStatus]

def puts (memberId : Uuid) (sessionId : String) : Handler :=
  .call (.put ⟨memberId, sessionId⟩) fun _ =>
    .done (.ok ⟨"started", "Webcam capture starting on MacBook"⟩)

def writes (memberId : Uuid) (sessionId : String) : Handler :=
  .call (.setStatus ⟨.starting, 0, "Opening MacBook camera...", none⟩) fun _ =>
    puts memberId sessionId

inductive Handles : Handler → Prop where
  | reading (memberId : Uuid) (sessionId : String) :
      Handles (startEnrollment (some memberId) sessionId)
  | writing (memberId : Uuid) (sessionId : String) : Handles (writes memberId sessionId)
  | putting (memberId : Uuid) (sessionId : String) : Handles (puts memberId sessionId)
  | answered (answer : Except Server.ErrorReply Server.Started) : Handles (.done answer)

namespace Handler

/-- The handler is about to look at the status, -/
def reading : Handler → Bool
  | .call .getStatus _ => true
  | _ => false

/-- has found it free and is about to write it, -/
def writing : Handler → Bool
  | .call (.setStatus _) _ => true
  | _ => false

/-- or has written it and is about to queue its job. -/
def putting : Handler → Bool
  | .call (.put _) _ => true
  | _ => false

def pending (p : Handler) : Bool := p.writing || p.putting

end Handler

/-! ## Any number of handlers and the worker -/

structure Serving where
  station : Station
  handlers : List Handler

def Serving.init : Serving := ⟨.init, []⟩

inductive ServingEvent where
  | receive (memberId : Option Uuid) (sessionId : String)
  | handle (i : Nat)
  | worker (move : WorkerMove)

def serving : Machine Serving ServingEvent where
  next s
    | .receive memberId sessionId =>
        some { s with handlers := s.handlers ++ [startEnrollment memberId sessionId] }
    | .handle i =>
        (s.handlers[i]?).bind fun p =>
          (p.advance execHandler s.station.server).map fun (rest, server) =>
            ⟨{ s.station with server }, s.handlers.set i rest⟩
    | .worker move => (s.station.move move).map fun station => { s with station }

abbrev Served : Type := Transition Serving ServingEvent

/-! ## The law and the conditions -/

def ServingEvent.handler? (s : Serving) : ServingEvent → Option Handler
  | .handle i => s.handlers[i]?
  | _ => none

def Checks (t : Served) : Prop := ∃ p ∈ t.label.handler? t.before, p.reading = true

instance (t : Served) : Decidable (Checks t) :=
  inferInstanceAs (Decidable (∃ p ∈ t.label.handler? t.before, _))

abbrev Serving.jobs (s : Serving) (occupied : Worker → Bool) : Nat := s.station.jobs occupied

def inProgress : Handler := .done (.error ⟨409, "Enrollment already in progress"⟩)

/-- At most one job is queued or occupies the worker, and every request that has looked at
the status in the meantime has been answered 409. -/
structure Single (occupied : Worker → Bool) (ts : List Served) (s : Serving) : Prop where
  one : s.jobs occupied ≤ 1
  refused : ∀ t ∈ ts, Checks t → 0 < t.before.jobs occupied →
    t.label.handler? t.after = some inProgress

/-- No request sees the status free after another one has and before that one writes it. -/
def ReadsAlone (t : Served) : Prop :=
  Checks t → t.before.station.server.status.busy = false →
    ∀ p ∈ t.before.handlers, p.writing = false

/-- No release of the webcam raises after a request has written the status again. -/
def ReleasesFirst (t : Served) : Prop :=
  match t.label, t.before.station.worker with
  | .worker (.close (some _)), .closing .returned => t.before.station.server.status.busy = false
  | _, _ => True

/-- No request sees the status free while the worker has not left `run_capture`. -/
def ReadsReleased (t : Served) : Prop :=
  Checks t → t.before.station.server.status.busy = false →
    t.before.station.worker.running = false

instance (t : Served) : Decidable (ReadsAlone t) := by
  unfold ReadsAlone
  infer_instance

instance (t : Served) : Decidable (ReleasesFirst t) := by
  unfold ReleasesFirst
  split <;> infer_instance

instance (t : Served) : Decidable (ReadsReleased t) := by
  unfold ReadsReleased
  infer_instance

/-! ## One step of a handler -/

inductive Handled (v v' : Server) (p q : Handler) : Prop where
  | refused : p.reading = true → v.status.busy = true → q = inProgress → v' = v →
      Handled v v' p q
  | seen : p.reading = true → v.status.busy = false → q.writing = true → v' = v →
      Handled v v' p q
  | written : p.writing = true → q.putting = true →
      v' = v.setStatus ⟨.starting, 0, "Opening MacBook camera...", none⟩ → Handled v v' p q
  | queued {job : Job} : p.putting = true → q.pending = false →
      v' = { v with captureQueue := v.captureQueue ++ [job] } → Handled v v' p q

theorem handled {v v' : Server} {p q : Handler} (hp : Handles p)
    (h : p.advance execHandler v = some (q, v')) : Handled v v' p q ∧ Handles q := by
  cases hp with
  | reading memberId sessionId =>
      obtain ⟨rfl, rfl⟩ : _ = q ∧ v = v' := by simpa [startEnrollment, HandlerCall.issue,
        Program.advance, execHandler] using h
      by_cases hbusy : v.status.status = .capturing ∨ v.status.status = .starting
      · rw [if_pos hbusy]
        exact ⟨.refused rfl (decide_eq_true hbusy) rfl rfl, .answered _⟩
      · rw [if_neg hbusy]
        exact ⟨.seen rfl (decide_eq_false hbusy) rfl rfl, .writing memberId sessionId⟩
  | writing memberId sessionId =>
      obtain ⟨rfl, rfl⟩ : puts memberId sessionId = q ∧ _ = v' := by
        simpa [writes, Program.advance, execHandler] using h
      exact ⟨.written rfl rfl rfl, .putting memberId sessionId⟩
  | putting memberId sessionId =>
      obtain ⟨rfl, rfl⟩ : _ = q ∧ _ = v' := by
        simpa [puts, Program.advance, execHandler] using h
      exact ⟨.queued rfl rfl rfl, .answered _⟩
  | answered answer => cases h

theorem pending_of_reading {p : Handler} (h : p.reading = true) : p.pending = false := by
  cases p with
  | call c k => cases c <;> first | rfl | cases h
  | _ => rfl

theorem putting_of_writing {p : Handler} (h : p.writing = true) : p.putting = false := by
  cases p with
  | call c k => cases c <;> first | rfl | cases h
  | _ => rfl

theorem putting_of_pending {p : Handler} (h : p.pending = false) : p.putting = false :=
  (Bool.or_eq_false_iff.mp h).2

/-- The requests that have seen the status free, when one handler moves. -/
theorem pending_set {handlers : List Handler} {i : Nat} {p : Handler} (q : Handler)
    (hp : handlers[i]? = some p) :
    (handlers.set i q).countP Handler.pending + p.pending.toNat =
      handlers.countP Handler.pending + q.pending.toNat := by
  obtain ⟨hi, rfl⟩ := List.getElem?_eq_some_iff.mp hp
  have hpos : handlers[i].pending = true → 0 < handlers.countP Handler.pending := fun h =>
    List.countP_pos_iff.mpr ⟨_, List.getElem_mem hi, h⟩
  rw [List.countP_set hi]
  cases hold : handlers[i].pending with
  | false => cases hnew : q.pending <;> simp
  | true =>
      have := hpos hold
      cases hnew : q.pending <;> simp <;> omega

/-! ## The invariant -/

/-- What may count as occupying the worker: at least a capture that has not published its
last status, and nothing while it waits. -/
structure Occupancy (occupied : Worker → Bool) : Prop where
  waiting : occupied .waiting = false
  engaged : ∀ worker, worker.engaged = true → occupied worker = true
  closing : ∀ job exit, occupied (.closing exit) = occupied (.capturing job (.done exit))

theorem occupancy_engaged : Occupancy Worker.engaged :=
  ⟨rfl, fun _ => id, fun _ _ => rfl⟩

theorem occupancy_running : Occupancy Worker.running := by
  refine ⟨rfl, fun worker h => ?_, fun _ _ => rfl⟩
  cases worker with
  | waiting => cases h
  | _ => rfl

/-- Requests that have seen the status free count as jobs, and a free status says that
there is none but one that has not written it yet. -/
structure Guarded (occupied : Worker → Bool) (s : Serving) : Prop where
  handlers : ∀ p ∈ s.handlers, Handles p
  tracks : ∃ shot, Tracks shot s.station
  one : s.handlers.countP Handler.pending + s.jobs occupied ≤ 1
  free : s.station.server.status.busy = false →
    s.station.server.captureQueue = [] ∧ (∀ p ∈ s.handlers, p.putting = false) ∧
      s.station.worker.engaged = false

structure Allows (occupied : Worker → Bool) (t : Served) : Prop where
  reads : Checks t → t.before.station.server.status.busy = false →
    (∀ p ∈ t.before.handlers, p.writing = false) ∧ occupied t.before.station.worker = false
  releases : ∀ failure, t.label = .worker (.close (some failure)) →
    t.before.station.worker = .closing .returned →
      t.before.station.server.captureQueue = [] ∧ ∀ p ∈ t.before.handlers, p.putting = false

theorem guarded_init {occupied : Worker → Bool} (h : Occupancy occupied) :
    Guarded occupied .init := by
  refine ⟨by simp [Serving.init], ⟨fun _ => True, ?_⟩, ?_, ?_⟩
  · exact tracks_of_not_capturing _ (by simp [Serving.init, Station.init])
  · simp [Serving.init, Station.jobs, Station.init, Server.init, h.waiting]
  · simp [Serving.init, Station.init, Server.init, Worker.engaged]

section Steps

variable {occupied : Worker → Bool} {s s' : Serving}

theorem Guarded.receive (h : Guarded occupied s) (memberId : Option Uuid) (sessionId : String) :
    Guarded occupied { s with handlers := s.handlers ++ [startEnrollment memberId sessionId] } := by
  have hnew : Handles (startEnrollment memberId sessionId) ∧
      (startEnrollment memberId sessionId).pending = false := by
    cases memberId with
    | none => exact ⟨.answered _, rfl⟩
    | some memberId => exact ⟨.reading memberId sessionId, rfl⟩
  obtain ⟨hhandles, hpending⟩ := hnew
  refine ⟨fun p hp => ?_, h.tracks, ?_, fun hfree => ?_⟩
  · rcases List.mem_append.mp hp with hp | hp
    · exact h.handlers p hp
    · exact List.mem_singleton.mp hp ▸ hhandles
  · simpa [List.countP_append, hpending, Station.jobs] using h.one
  · obtain ⟨hqueue, hputting, hworker⟩ := h.free hfree
    refine ⟨hqueue, fun p hp => ?_, hworker⟩
    rcases List.mem_append.mp hp with hp | hp
    · exact hputting p hp
    · rw [List.mem_singleton.mp hp]
      exact putting_of_pending hpending

section Handle

variable {i : Nat} {p q : Handler}

theorem Guarded.handlers_set (h : Guarded occupied s) (hq : Handles q) (i : Nat) :
    ∀ r ∈ s.handlers.set i q, Handles r := by
  intro r hr
  rcases List.mem_or_eq_of_mem_set hr with hr | rfl
  · exact h.handlers r hr
  · exact hq

theorem Guarded.refused (h : Guarded occupied s) (hp : s.handlers[i]? = some p)
    (hreading : p.reading = true) (hbusy : s.station.server.status.busy = true) :
    Guarded occupied { s with handlers := s.handlers.set i inProgress } := by
  have hset := pending_set inProgress hp
  rw [pending_of_reading hreading] at hset
  have hsame : (s.handlers.set i inProgress).countP Handler.pending =
      s.handlers.countP Handler.pending := hset
  refine ⟨h.handlers_set (.answered _) i, h.tracks, ?_, fun hfree => ?_⟩
  · rw [hsame]
    exact h.one
  · cases hbusy.symm.trans hfree

/-- A handler that sees the status free while nothing is on its way is the only one. -/
theorem Guarded.seen (h : Guarded occupied s) (hp : s.handlers[i]? = some p) (hq : Handles q)
    (hreading : p.reading = true) (hwriting : q.writing = true)
    (hfree : s.station.server.status.busy = false)
    (halone : ∀ r ∈ s.handlers, r.writing = false)
    (hidle : occupied s.station.worker = false) :
    s.jobs occupied = 0 ∧ Guarded occupied { s with handlers := s.handlers.set i q } := by
  obtain ⟨hqueue, hputting, hengaged⟩ := h.free hfree
  have hjobs : s.jobs occupied = 0 := by simp [Station.jobs, hqueue, hidle]
  have hnone : s.handlers.countP Handler.pending = 0 := by
    rw [List.countP_eq_zero]
    intro r hr
    simp [Handler.pending, halone r hr, hputting r hr]
  have hset := pending_set q hp
  rw [hnone, pending_of_reading hreading, Bool.toNat_false] at hset
  have hlast := Bool.toNat_le q.pending
  refine ⟨hjobs, h.handlers_set hq i, h.tracks, ?_, fun _ => ⟨hqueue, fun r hr => ?_, hengaged⟩⟩
  · have hsame : Serving.jobs { s with handlers := s.handlers.set i q } occupied = 0 := hjobs
    rw [hsame]
    show (s.handlers.set i q).countP Handler.pending + 0 ≤ 1
    omega
  · rcases List.mem_or_eq_of_mem_set hr with hr | rfl
    · exact hputting r hr
    · exact putting_of_writing hwriting

theorem Guarded.written (h : Guarded occupied s) (hp : s.handlers[i]? = some p) (hq : Handles q)
    (hwriting : p.writing = true) (hputs : q.putting = true) (message : String) :
    Guarded occupied ⟨⟨s.station.server.setStatus ⟨.starting, 0, message, none⟩,
      s.station.worker⟩, s.handlers.set i q⟩ := by
  obtain ⟨shot, htracks⟩ := h.tracks
  have hset := pending_set q hp
  have hpending : p.pending = true := by simp [Handler.pending, hwriting]
  have hnew : q.pending = true := by simp [Handler.pending, hputs]
  rw [hpending, hnew] at hset
  refine ⟨h.handlers_set hq i, ⟨shot, htracks.congr rfl⟩, ?_, fun hfree => by cases hfree⟩
  rw [Serving.jobs, Station.jobs, Nat.add_right_cancel hset]
  exact h.one

theorem Guarded.queued (h : Guarded occupied s) (hp : s.handlers[i]? = some p) (hq : Handles q)
    (hputs : p.putting = true) (hdone : q.pending = false) (job : Job) :
    Guarded occupied ⟨⟨{ s.station.server with
        captureQueue := s.station.server.captureQueue ++ [job] }, s.station.worker⟩,
      s.handlers.set i q⟩ := by
  obtain ⟨shot, htracks⟩ := h.tracks
  have hone := h.one
  have hset := pending_set q hp
  have hpending : p.pending = true := by simp [Handler.pending, hputs]
  rw [hpending, hdone, Bool.toNat_true, Bool.toNat_false] at hset
  refine ⟨h.handlers_set hq i, ⟨shot, htracks.congr rfl⟩, ?_, fun hfree => ?_⟩
  · rw [Serving.jobs, Station.jobs] at hone
    simp only [Station.jobs, List.length_append, List.length_singleton]
    omega
  · have hnone := (h.free hfree).2.1 p (List.mem_of_getElem? hp)
    rw [hputs] at hnone
    cases hnone

theorem Guarded.handle {v : Server} (h : Guarded occupied s)
    (hallows : Allows occupied ⟨s, .handle i, s'⟩) (hp : s.handlers[i]? = some p)
    (hadvance : p.advance execHandler s.station.server = some (q, v)) :
    Guarded occupied ⟨⟨v, s.station.worker⟩, s.handlers.set i q⟩ ∧
      (p.reading = true → 0 < s.jobs occupied → q = inProgress) := by
  obtain ⟨hcases, hq⟩ := handled (h.handlers p (List.mem_of_getElem? hp)) hadvance
  cases hcases with
  | refused hreading hbusy hanswer hv =>
      subst hv hanswer
      exact ⟨h.refused hp hreading hbusy, fun _ _ => rfl⟩
  | seen hreading hfree hwriting hv =>
      subst hv
      obtain ⟨halone, hidle⟩ := hallows.reads ⟨p, hp, hreading⟩ hfree
      obtain ⟨hjobs, hguarded⟩ := h.seen hp hq hreading hwriting hfree halone hidle
      exact ⟨hguarded, fun _ hpositive => absurd hjobs hpositive.ne'⟩
  | written hwriting hputs hv =>
      subst hv
      have hpending : p.pending = true := by simp [Handler.pending, hwriting]
      refine ⟨h.written hp hq hwriting hputs _, fun hreading => ?_⟩
      rw [pending_of_reading hreading] at hpending
      cases hpending
  | @queued job hputs hdone hv =>
      subst hv
      have hpending : p.pending = true := by simp [Handler.pending, hputs]
      refine ⟨h.queued hp hq hputs hdone job, fun hreading => ?_⟩
      rw [pending_of_reading hreading] at hpending
      cases hpending

end Handle

/-- An occupied worker leaves room for nothing else. -/
theorem Guarded.alone (h : Guarded occupied s) (hoccupied : occupied s.station.worker = true) :
    s.station.server.captureQueue = [] ∧ ∀ p ∈ s.handlers, p.pending = false := by
  have hone := h.one
  rw [Serving.jobs, jobs_of_occupied hoccupied] at hone
  have hnone : s.handlers.countP Handler.pending = 0 := by omega
  refine ⟨List.eq_nil_of_length_eq_zero (by omega), fun p hp => ?_⟩
  exact Bool.eq_false_iff.mpr (List.countP_eq_zero.mp hnone p hp)

theorem Guarded.taken (h : Guarded occupied s) {job : Job} {jobs : List Job}
    (hqueue : s.station.server.captureQueue = job :: jobs) (opening : Opening) :
    Guarded occupied ⟨⟨{ s.station.server with captureQueue := jobs },
      .capturing job (capture job opening)⟩, s.handlers⟩ := by
  have hone := h.one
  have hlast := Bool.toNat_le (occupied (.capturing job (capture job opening)))
  rw [Serving.jobs, Station.jobs, hqueue, List.length_cons] at hone
  refine ⟨h.handlers, ⟨_, tracks_capture _ job opening⟩, ?_, fun hfree => ?_⟩
  · simp only [Station.jobs]
    omega
  · have hnil := (h.free hfree).1
    rw [hqueue] at hnil
    cases hnil

theorem Guarded.called (h : Guarded occupied s) (hoccupancy : Occupancy occupied) {job : Job}
    {c : Call} {k : Answer c → Proc Exit}
    (hworker : s.station.worker = .capturing job (.call c k)) :
    Guarded occupied ⟨⟨c.apply s.station.server,
      .capturing job (k (c.answer s.station.server.capturedImages))⟩, s.handlers⟩ := by
  obtain ⟨shot, htracks⟩ := h.tracks
  have hengaged : s.station.worker.engaged = true := by rw [hworker]; rfl
  obtain ⟨hqueue, hpending⟩ := h.alone (hoccupancy.engaged _ hengaged)
  have hbusy : s.station.server.status.busy = true := by
    by_contra hfree
    have hidle := (h.free (Bool.eq_false_iff.mpr hfree)).2.2
    rw [hengaged] at hidle
    cases hidle
  refine ⟨h.handlers, ⟨shot, tracks_of_left (htracks.called hworker).2⟩, ?_, fun hfree => ?_⟩
  · have hlast := Bool.toNat_le
      (occupied (.capturing job (k (c.answer s.station.server.capturedImages))))
    have hnone : s.handlers.countP Handler.pending = 0 :=
      List.countP_eq_zero.mpr fun p hp => by simp [hpending p hp]
    simp only [Station.jobs, Call.apply, hqueue, hnone, List.length_nil]
    omega
  · rw [busy_called htracks hworker hbusy] at hfree
    exact ⟨hqueue, fun p hp => putting_of_pending (hpending p hp), hfree⟩

theorem Guarded.returned (h : Guarded occupied s) (hoccupancy : Occupancy occupied) {job : Job}
    {exit : Exit} (hworker : s.station.worker = .capturing job (.done exit)) :
    Guarded occupied ⟨{ s.station with worker := .closing exit }, s.handlers⟩ := by
  have hone := h.one
  refine ⟨h.handlers, ⟨fun _ => True, tracks_of_not_capturing _ (by simp)⟩, ?_,
    fun hfree => ?_⟩
  · rw [Serving.jobs, Station.jobs, hworker] at hone
    rw [Serving.jobs, Station.jobs, hoccupancy.closing job exit]
    exact hone
  · obtain ⟨hqueue, hputting, hidle⟩ := h.free hfree
    rw [hworker] at hidle
    exact ⟨hqueue, hputting, hidle⟩

/-- Nothing is on its way where the `finally` and the `except` leave the status free. -/
theorem Guarded.free_finish (h : Guarded occupied s) (hoccupancy : Occupancy occupied)
    {exit : Exit} {failure : Option String}
    (hallows : Allows occupied ⟨s, .worker (.close failure), s'⟩)
    (hworker : s.station.worker = .closing exit)
    (hfree : (s.station.server.finish exit failure).status.busy = false) :
    s.station.server.captureQueue = [] ∧ ∀ p ∈ s.handlers, p.putting = false := by
  cases exit with
  | unopened => exact ⟨(h.free hfree).1, (h.free hfree).2.1⟩
  | returned =>
      cases failure with
      | none => exact ⟨(h.free hfree).1, (h.free hfree).2.1⟩
      | some e => exact hallows.releases e rfl hworker
  | raised e =>
      obtain ⟨hqueue, hpending⟩ := h.alone (hoccupancy.engaged _ (by rw [hworker]; rfl))
      exact ⟨hqueue, fun p hp => putting_of_pending (hpending p hp)⟩

theorem Guarded.closed (h : Guarded occupied s) (hoccupancy : Occupancy occupied) {exit : Exit}
    {failure : Option String} (hallows : Allows occupied ⟨s, .worker (.close failure), s'⟩)
    (hworker : s.station.worker = .closing exit) :
    Guarded occupied ⟨⟨s.station.server.finish exit failure, .waiting⟩, s.handlers⟩ := by
  have hone := h.one
  obtain ⟨_, hqueue⟩ := finish_frame s.station.server exit failure
  refine ⟨h.handlers, ⟨fun _ => True, tracks_of_not_capturing _ (by simp)⟩, ?_,
    fun hfree => ?_⟩
  · rw [Serving.jobs, Station.jobs] at hone
    simp only [Station.jobs, hqueue, hoccupancy.waiting, Bool.toNat_false]
    omega
  · obtain ⟨hempty, hputting⟩ := h.free_finish hoccupancy hallows hworker hfree
    exact ⟨hqueue.trans hempty, hputting, rfl⟩

theorem Guarded.move {move : WorkerMove} {station : Station} (h : Guarded occupied s)
    (hoccupancy : Occupancy occupied) (hallows : Allows occupied ⟨s, .worker move, s'⟩)
    (hmove : s.station.move move = some station) :
    Guarded occupied ⟨station, s.handlers⟩ := by
  cases move_cases hmove with
  | @taken _ _ opening _ hqueue hstation =>
      subst hstation
      exact h.taken hqueue opening
  | called hworker hstation =>
      subst hstation
      exact h.called hoccupancy hworker
  | returned hworker hstation =>
      subst hstation
      exact h.returned hoccupancy hworker
  | closed hworker hstation =>
      subst hstation
      exact h.closed hoccupancy hallows hworker

/-- One step of the server keeps the invariant and answers a look at the status with 409
where a job is queued or occupies the worker. -/
theorem Guarded.step {e : ServingEvent} (h : Guarded occupied s) (hoccupancy : Occupancy occupied)
    (hallows : Allows occupied ⟨s, e, s'⟩) (hnext : serving.next s e = some s') :
    Guarded occupied s' ∧
      (Checks ⟨s, e, s'⟩ → 0 < s.jobs occupied → e.handler? s' = some inProgress) := by
  cases e with
  | receive memberId sessionId =>
      cases hnext
      exact ⟨h.receive memberId sessionId, fun ⟨_, hp, _⟩ => by cases hp⟩
  | worker move =>
      obtain ⟨station, hmove, rfl⟩ := Option.map_eq_some_iff.mp hnext
      exact ⟨h.move hoccupancy hallows hmove, fun ⟨_, hp, _⟩ => by cases hp⟩
  | handle i =>
      obtain ⟨p, hp, hmap⟩ := Option.bind_eq_some_iff.mp hnext
      obtain ⟨⟨q, v⟩, hadvance, rfl⟩ := Option.map_eq_some_iff.mp hmap
      obtain ⟨hguarded, hrefused⟩ := h.handle hallows hp hadvance
      refine ⟨hguarded, ?_⟩
      rintro ⟨r, hr, hreading⟩ hpositive
      obtain rfl : p = r := Option.some.inj (hp.symm.trans hr)
      obtain ⟨hi, _⟩ := List.getElem?_eq_some_iff.mp hp
      rw [← hrefused hreading hpositive]
      simp [ServingEvent.handler?, hi]

end Steps

/-! ## Runs -/

theorem allows_of_readsAlone {s s' : Serving} {e : ServingEvent} (h : Guarded Worker.engaged s)
    (halone : ReadsAlone ⟨s, e, s'⟩) (hfirst : ReleasesFirst ⟨s, e, s'⟩) :
    Allows Worker.engaged ⟨s, e, s'⟩ := by
  refine ⟨fun hchecks hfree => ⟨halone hchecks hfree, (h.free hfree).2.2⟩, ?_⟩
  rintro failure rfl hworker
  have hworker : s.station.worker = .closing .returned := hworker
  have hfree : s.station.server.status.busy = false := by
    simpa [ReleasesFirst, hworker] using hfirst
  exact ⟨(h.free hfree).1, (h.free hfree).2.1⟩

theorem allows_of_readsReleased {s s' : Serving} {e : ServingEvent}
    (h : Guarded Worker.running s) (halone : ReadsAlone ⟨s, e, s'⟩)
    (hreleased : ReadsReleased ⟨s, e, s'⟩) : Allows Worker.running ⟨s, e, s'⟩ := by
  refine ⟨fun hchecks hfree => ⟨halone hchecks hfree, hreleased hchecks hfree⟩, ?_⟩
  rintro failure rfl hworker
  have hworker : s.station.worker = .closing .returned := hworker
  have hrunning : s.station.worker.running = true := by rw [hworker]; rfl
  obtain ⟨hqueue, hpending⟩ := h.alone hrunning
  exact ⟨hqueue, fun p hp => putting_of_pending (hpending p hp)⟩

theorem single_run {occupied : Worker → Bool} {C : Served → Prop} (hoccupancy : Occupancy occupied)
    (hallows : ∀ s e s', Guarded occupied s → C ⟨s, e, s'⟩ → Allows occupied ⟨s, e, s'⟩)
    {ts : List Served} {s : Serving} (hrun : serving.Run .init ts s) (hC : ∀ t ∈ ts, C t) :
    Single occupied ts s := by
  have hall : Guarded occupied s ∧ ∀ t ∈ ts, Checks t → 0 < t.before.jobs occupied →
      t.label.handler? t.after = some inProgress := by
    refine hrun.history_invariant (C := fun _ t => C t) (I := fun ts s => Guarded occupied s ∧
      ∀ t ∈ ts, Checks t → 0 < t.before.jobs occupied →
        t.label.handler? t.after = some inProgress)
      ⟨guarded_init hoccupancy, by simp⟩ ?_ fun us t hus => hC t (hus.subset (by simp))
    rintro us s e s' _ ⟨hguarded, hrefused⟩ hc hnext
    obtain ⟨hafter, hanswer⟩ := hguarded.step hoccupancy (hallows s e s' hguarded hc) hnext
    refine ⟨hafter, fun t ht => ?_⟩
    rcases List.mem_append.mp ht with ht | ht
    · exact hrefused t ht
    · rw [List.mem_singleton.mp ht]
      exact hanswer
  exact ⟨(Nat.le_add_left _ _).trans hall.1.one, hall.2⟩

/-- Where no request sees the status free between another's look at it and its writing it,
at most one job is queued or capturing, and every request in the meantime is answered 409:
if no release of the webcam raises after a request has written the status again, for a job
up to its last status; if no request sees the status free during a release, for a job until
the worker has left it. -/
theorem single_of_readsAlone {ts : List Served} {s : Serving} (hrun : serving.Run .init ts s)
    (halone : ∀ t ∈ ts, ReadsAlone t) :
    ((∀ t ∈ ts, ReleasesFirst t) → Single Worker.engaged ts s) ∧
      ((∀ t ∈ ts, ReadsReleased t) → Single Worker.running ts s) := by
  constructor
  · intro hfirst
    refine single_run (C := fun t => ReadsAlone t ∧ ReleasesFirst t) occupancy_engaged
      (fun s e s' h hC => allows_of_readsAlone h hC.1 hC.2) hrun
      fun t ht => ⟨halone t ht, hfirst t ht⟩
  · intro hreleased
    refine single_run (C := fun t => ReadsAlone t ∧ ReadsReleased t) occupancy_running
      (fun s e s' h hC => allows_of_readsReleased h hC.1 hC.2) hrun
      fun t ht => ⟨halone t ht, hreleased t ht⟩

/-! ## Two requests in turn and two at once -/

def inTurn : List ServingEvent :=
  [.receive (some 0) "pending", .handle 0, .handle 0, .handle 0,
    .worker (.take (.ok (steadyWebcam []))), .receive (some 1) "pending", .handle 1] ++
    List.replicate 16 (.worker .work) ++
    [.worker (.close none), .receive (some 1) "pending", .handle 2, .handle 2, .handle 2]

theorem single_inTurn :
    ∃ ts s, serving.Run .init ts s ∧ s.jobs Worker.running = 1 ∧
      Single Worker.engaged ts s ∧ Single Worker.running ts s := by
  have hend : (serving.trace .init inTurn).map (fun (ts, s) => (s.jobs Worker.running,
      ts.all fun t => ReadsAlone t ∧ ReleasesFirst t ∧ ReadsReleased t)) = some (1, true) := by
    decide +kernel
  obtain ⟨ts, s, hrun, hview⟩ := Machine.exists_run_of_view hend
  obtain ⟨hjobs, hall⟩ := Prod.mk.inj hview
  have hsteps (t : Served) (ht : t ∈ ts) : ReadsAlone t ∧ ReleasesFirst t ∧ ReadsReleased t :=
    of_decide_eq_true (List.all_eq_true.mp hall t ht)
  have hsingle := single_of_readsAlone hrun fun t ht => (hsteps t ht).1
  exact ⟨ts, s, hrun, hjobs, hsingle.1 fun t ht => (hsteps t ht).2.1,
    hsingle.2 fun t ht => (hsteps t ht).2.2⟩

/-- Both handlers look at the status before one of them writes it. -/
def atOnce : List ServingEvent :=
  [.receive (some 0) "pending", .receive (some 1) "pending", .handle 0, .handle 1, .handle 0,
    .handle 0, .handle 1, .handle 1]

theorem not_always_single :
    ¬ ∀ (ts : List Served) (s : Serving), serving.Run .init ts s →
      Single Worker.engaged ts s := by
  intro halways
  have hend : (serving.trace .init atOnce).map (fun (_, s) => s.jobs Worker.engaged) =
      some 2 := by
    decide +kernel
  obtain ⟨ts, s, hrun, hjobs⟩ := Machine.exists_run_of_view hend
  have hone := (halways ts s hrun).one
  have htwo : s.jobs Worker.engaged = 2 := hjobs
  omega

end FacialCamera.Macbook
