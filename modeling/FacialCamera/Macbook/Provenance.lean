import FacialCamera.Macbook.Clients

/-! # Whose photos a client uploads

The server's guard keeps out a second job until the first has announced its
result, and keeps the result for the client that asked for it. But it does not
know when that client has downloaded: a job for another member may start between
any two of its requests and replace the images under the same angles.
-/

namespace FacialCamera.Macbook

open FacialCamera.Core
open Backend (Uuid Jpeg)

/-! ## The law and the condition -/

/-- Every image that a client uploads was taken by a job for the client's member. -/
def UploadsOwn (s : System) : Prop :=
  ∀ c ∈ s.clients, ∀ photo ∈ c.awaits.photo?, photo.job.memberId = c.memberId

def accepted (t : Transition System Event) : Option Uuid :=
  match t.label with
  | .client i e =>
      ((t.before.clients[i]?).filter fun c =>
        c.awaits = .startMacbookCapture ∧ e.handled ∧ t.before.server.accepts).map Client.memberId
  | _ => none

def Worker.job? : Worker → Option Job
  | .capturing job _ => some job
  | _ => none

/-- A `POST /enroll` is accepted only where no client of another member has an image to
download and no job of another member is queued or being captured. -/
def PostsInTurn (t : Transition System Event) : Prop :=
  ∀ m ∈ accepted t,
    (∀ c ∈ t.before.clients, c.awaits.downloadsAhead = true → c.memberId = m) ∧
    (∀ job ∈ t.before.server.captureQueue, job.memberId = m) ∧
    ∀ job ∈ t.before.worker.job?, job.memberId = m

instance (t : Transition System Event) : Decidable (PostsInTurn t) := by
  unfold PostsInTurn
  infer_instance

/-! ## The invariant -/

def ImagesOf (m : Uuid) (v : Server) : Prop := ∀ entry ∈ v.capturedImages, entry.2.job.memberId = m

/-- The rest of a capture stores photos of its own job into images of its own member. -/
structure Captures (job : Job) (rest : Proc Exit) (v : Server) : Prop where
  stores : rest.Calls (Call.storesFor job)
  images : (∃ k, rest = .call .clearImages k) ∨ ImagesOf job.memberId v

structure Enrolls (m : Uuid) (s : System) : Prop where
  clients : ∀ c ∈ s.clients, c.awaits.downloadsAhead = true → c.memberId = m
  queue : ∀ job ∈ s.server.captureQueue, job.memberId = m
  worker : ∀ job rest, s.worker = .capturing job rest →
    job.memberId = m ∧ Captures job rest s.server
  announced : s.server.status.allCaptured = true → ImagesOf m s.server
  ready : ∀ c ∈ s.clients, c.awaits.ready = true → ImagesOf m s.server
  uploads : UploadsOwn s

theorem enrolls_init (m : Uuid) : Enrolls m .init := by
  constructor <;> simp [System.init, Server.init, ImagesOf, UploadsOwn]

theorem downloadsAhead_of_ready {a : Await} (h : a.ready = true) : a.downloadsAhead = true := by
  cases a <;> first | exact h | cases h

/-! ## Steps of clients -/

section Clients

variable {m : Uuid} {s : System} {i : Nat} {c : Client} {a : Await}

/-- A client after a step is one that was there before or the one that moved. -/
theorem mem_put {v : Server} (hc : s.clients[i]? = some c) {d : Client}
    (hd : d ∈ (s.put i a v).clients) : d ∈ s.clients ∨ d = { c with awaits := a } := by
  obtain ⟨j, hj⟩ := List.mem_iff_getElem?.mp hd
  simp only [System.put, List.getElem?_modify] at hj
  by_cases hij : i = j
  · subst hij
    exact Or.inr (by simpa [hc, eq_comm] using hj)
  · exact Or.inl (List.mem_of_getElem? (by simpa [hij] using hj))

/-- A client goes on and the server stays. -/
theorem Enrolls.follow (h : Enrolls m s) (hc : s.clients[i]? = some c)
    (hfollows : Follows s.server c.awaits a) : Enrolls m (s.put i a s.server) := by
  have hmem := List.mem_of_getElem? hc
  refine ⟨?_, h.queue, h.worker, h.announced, ?_, ?_⟩
  · intro d hd hahead
    rcases mem_put hc hd with hd | rfl
    · exact h.clients d hd hahead
    · exact h.clients c hmem (hfollows.ahead hahead)
  · intro d hd hready
    rcases mem_put hc hd with hd | rfl
    · exact h.ready d hd hready
    · exact (hfollows.ready hready).elim (h.ready c hmem) h.announced
  · intro d hd photo hphoto
    rcases mem_put hc hd with hd | rfl
    · exact h.uploads d hd photo hphoto
    · obtain ⟨hready, angle, hentry⟩ := hfollows.photo photo hphoto
      rw [h.ready c hmem hready _ hentry]
      exact (h.clients c hmem (downloadsAhead_of_ready hready)).symm

/-- A user starts an enrollment; nothing is asked of the server yet. -/
theorem Enrolls.begin (h : Enrolls m s) (memberId : Uuid) :
    Enrolls m { s with clients := s.clients ++ [⟨memberId, .startMacbookCapture⟩] } := by
  refine ⟨?_, h.queue, h.worker, h.announced, ?_, ?_⟩
  · intro c hc hahead
    rcases List.mem_append.mp hc with hc | hc
    · exact h.clients c hc hahead
    · rw [List.mem_singleton.mp hc] at hahead
      cases hahead
  · intro c hc hready
    rcases List.mem_append.mp hc with hc | hc
    · exact h.ready c hc hready
    · rw [List.mem_singleton.mp hc] at hready
      cases hready
  · intro c hc photo hphoto
    rcases List.mem_append.mp hc with hc | hc
    · exact h.uploads c hc photo hphoto
    · rw [List.mem_singleton.mp hc] at hphoto
      cases hphoto

/-- An accepted post in turn makes its member the one that is enrolled. -/
theorem Enrolls.post (h : Enrolls m s) (hc : s.clients[i]? = some c)
    (ha : a ∈ [.pollMacbookCaptureStatus, .ended])
    (hclients : ∀ d ∈ s.clients, d.awaits.downloadsAhead = true → d.memberId = c.memberId)
    (hqueue : ∀ job ∈ s.server.captureQueue, job.memberId = c.memberId)
    (hworker : ∀ job ∈ s.worker.job?, job.memberId = c.memberId) :
    Enrolls c.memberId (s.put i a (s.server.enqueue ⟨c.memberId, "pending"⟩)) := by
  have hready : a.ready = false := by
    rcases List.mem_pair.mp ha with rfl | rfl <;> rfl
  have hphoto : a.photo? = none := by
    rcases List.mem_pair.mp ha with rfl | rfl <;> rfl
  constructor
  · intro d hd hahead
    rcases mem_put hc hd with hd | rfl
    · exact hclients d hd hahead
    · rfl
  · intro job hjob
    rcases List.mem_append.mp hjob with hjob | hjob
    · exact hqueue job hjob
    · rw [List.mem_singleton.mp hjob]
  · intro job rest (hrest : s.worker = .capturing job rest)
    have hcaptures := (h.worker job rest hrest).2
    exact ⟨hworker job (by rw [hrest]; rfl), hcaptures.stores, hcaptures.images⟩
  · intro hall
    simp [System.put, Server.enqueue, CaptureStatus.allCaptured] at hall
  · intro d hd hdready
    rcases mem_put hc hd with hd | rfl
    · have hsame : c.memberId = m :=
        (hclients d hd (downloadsAhead_of_ready hdready)).symm.trans
          (h.clients d hd (downloadsAhead_of_ready hdready))
      rw [hsame]
      exact h.ready d hd hdready
    · rw [hready] at hdready
      cases hdready
  · intro d hd photo hp
    rcases mem_put hc hd with hd | rfl
    · exact h.uploads d hd photo hp
    · rw [hphoto] at hp
      cases hp

end Clients

/-! ## Steps of the worker -/

section Worker

variable {m : Uuid} {s : System}

/-- Each critical section of a capture leaves images of the job's member. -/
theorem Captures.advance {job : Job} {rest rest' : Proc Exit} {v v' : Server}
    (h : Captures job rest v) (hnext : rest.advance exec v = some (rest', v')) :
    Captures job rest' v' ∧ ImagesOf job.memberId v' ∧ v'.captureQueue = v.captureQueue := by
  obtain ⟨c, k, rfl, hcall⟩ := Program.advance_spec hnext
  obtain ⟨r, hr, rfl⟩ : ∃ r, exec c v = some (r, v') ∧ rest' = k r := by
    rcases hcall with ⟨hnone, _, _⟩ | hsome
    · cases c <;> cases hnone
    · exact hsome
  have hstores : (k r).Calls (Call.storesFor job) := h.stores.2 r
  suffices himages : ImagesOf job.memberId v' ∧ v'.captureQueue = v.captureQueue from
    ⟨⟨hstores, Or.inr himages.1⟩, himages⟩
  cases c with
  | clearImages =>
      cases hr
      exact ⟨by simp [ImagesOf], rfl⟩
  | doneAngles =>
      cases hr
      exact ⟨h.images.resolve_left (by simp), rfl⟩
  | setStatus status =>
      cases hr
      exact ⟨h.images.resolve_left (by simp), rfl⟩
  | storeImage angle photo =>
      cases hr
      refine ⟨fun entry hentry => ?_, rfl⟩
      rcases Server.mem_assign hentry with hentry | rfl
      · exact h.images.resolve_left (by simp) entry hentry
      · exact congrArg Job.memberId h.stores.1

theorem Enrolls.work (h : Enrolls m s) {job : Job} {rest rest' : Proc Exit} {v' : Server}
    (hworker : s.worker = .capturing job rest)
    (hnext : rest.advance exec s.server = some (rest', v')) :
    Enrolls m { s with server := v', worker := .capturing job rest' } := by
  obtain ⟨rfl, hcaptures⟩ := h.worker job rest hworker
  obtain ⟨hcaptures, himages, hqueue⟩ := hcaptures.advance hnext
  refine ⟨h.clients, fun j hj => h.queue j (hqueue ▸ hj), ?_, fun _ => himages,
    fun _ _ _ => himages, h.uploads⟩
  intro j r hjob
  obtain ⟨rfl, rfl⟩ := Worker.capturing.inj hjob
  exact ⟨rfl, hcaptures⟩

theorem Enrolls.take (h : Enrolls m s) {job : Job} {jobs : List Job}
    (hqueue : s.server.captureQueue = job :: jobs) (webcam : Webcam) :
    Enrolls m { s with
      server := { s.server with captureQueue := jobs }
      worker := .capturing job (runCapture job webcam) } := by
  refine ⟨h.clients, fun j hj => h.queue j (by rw [hqueue]; exact List.mem_cons_of_mem _ hj), ?_,
    h.announced, h.ready, h.uploads⟩
  intro j rest hrest
  obtain ⟨rfl, rfl⟩ := Worker.capturing.inj hrest
  obtain ⟨k, hk, hstores⟩ := runCapture_spec job webcam
  rw [hk]
  exact ⟨h.queue job (by simp [hqueue]), ⟨trivial, hstores⟩, Or.inl ⟨k, rfl⟩⟩

theorem allCaptured_finish {v : Server} {exit : Exit} {failure : Option String}
    (h : (v.finish exit failure).status.allCaptured = true) : v.status.allCaptured = true := by
  cases exit <;> cases failure
  case unopened.none | unopened.some | returned.none => exact h
  all_goals cases h

theorem Enrolls.close (h : Enrolls m s) (exit : Exit) (failure : Option String) :
    Enrolls m { s with server := s.server.finish exit failure, worker := .waiting } := by
  obtain ⟨himages, hqueue⟩ := finish_frame s.server exit failure
  refine ⟨h.clients, fun j hj => h.queue j (hqueue ▸ hj), fun _ _ hrest => (by cases hrest), ?_, ?_,
    h.uploads⟩
  · intro hall
    rw [ImagesOf, himages]
    exact h.announced (allCaptured_finish hall)
  · intro c hc hready
    rw [ImagesOf, himages]
    exact h.ready c hc hready

end Worker

/-! ## Runs -/

/-- Every step in turn enrolls one member at a time. -/
theorem enrolls_step {m : Uuid} {s s' : System} {e : Event} (h : Enrolls m s)
    (hturn : PostsInTurn ⟨s, e, s'⟩) (hnext : enrolling.next s e = some s') :
    ∃ m', Enrolls m' s' := by
  cases e with
  | handleEnrollFace memberId =>
      cases hnext
      exact ⟨m, h.begin memberId⟩
  | client i e =>
      obtain ⟨c, hc, hnext⟩ := Option.bind_eq_some_iff.mp hnext
      obtain ⟨⟨a, v⟩, hclient, rfl⟩ := Option.map_eq_some_iff.mp hnext
      rcases client_next hclient with ⟨rfl, hfollows⟩ | ⟨hstart, hhandled, haccepts, rfl, ha⟩
      · exact ⟨m, h.follow hc hfollows⟩
      · let s' := s.put i a (s.server.enqueue ⟨c.memberId, "pending"⟩)
        have haccepted : accepted ⟨s, .client i e, s'⟩ = some c.memberId := by
          simp [accepted, hc, hstart, hhandled, haccepts, Option.filter]
        obtain ⟨hclients, hqueue, hworker⟩ := hturn c.memberId haccepted
        exact ⟨c.memberId, h.post hc ha hclients hqueue hworker⟩
  | take webcam =>
      simp only [enrolling] at hnext
      split at hnext
      next job jobs hwaiting hqueue =>
        cases hnext
        exact ⟨m, h.take hqueue webcam⟩
      · cases hnext
  | work =>
      simp only [enrolling] at hnext
      split at hnext
      next job exit hworker =>
        cases hnext
        exact ⟨m, h.clients, h.queue, by simp, h.announced, h.ready, h.uploads⟩
      next job rest _ hworker =>
        obtain ⟨⟨rest', v'⟩, hadvance, rfl⟩ := Option.map_eq_some_iff.mp hnext
        exact ⟨m, h.work hworker hadvance⟩
      · cases hnext
  | close failure =>
      simp only [enrolling] at hnext
      split at hnext
      next exit _ =>
        cases hnext
        exact ⟨m, h.close exit failure⟩
      · cases hnext

/-- Where every post is accepted in turn, every image uploaded for a member was taken by a
job started for that member. -/
theorem uploadsOwn_of_postsInTurn {s : System} {ts : List (Transition System Event)}
    (hrun : enrolling.Run .init ts s) (hturn : ∀ t ∈ ts, PostsInTurn t) : UploadsOwn s := by
  obtain ⟨m, h⟩ := hrun.invariant_where (I := fun s => ∃ m, Enrolls m s) (C := PostsInTurn)
    ⟨0, enrolls_init 0⟩ (fun s e s' ⟨m, h⟩ hstep hnext => enrolls_step h hstep hnext) hturn
  exact h.uploads

/-! ## A post out of turn -/

section Intrusion

variable {s : System} {j : Nat} {d : Client}

def Intruded (s : System) (d : Client) : Prop :=
  ∀ angle, ∃ photo, s.server.getCapture angle = .ok photo ∧ photo.job.memberId ≠ d.memberId

theorem getElem?_put {a : Await} {v : Server} (hd : s.clients[j]? = some d) :
    (s.put j a v).clients[j]? = some { d with awaits := a } := by
  simp [System.put, hd]

theorem next_answer {a : Await} {v : Server} (hd : s.clients[j]? = some d) {sessionId : Uuid}
    (h : d.answer s.server sessionId = some (a, v)) :
    enrolling.next s (.client j (.answer sessionId)) = some (s.put j a v) := by
  simp [enrolling, hd, Client.next, h]

theorem breaks_download {sessionId : Uuid} {angle : Angle} {rest : List Angle}
    (hd : s.clients[j]? = some d) (hawaits : d.awaits = .download sessionId angle rest)
    (h : Intruded s d) : ∃ us s', enrolling.Run s us s' ∧ ¬ UploadsOwn s' := by
  obtain ⟨photo, hget, hforeign⟩ := h angle
  have hanswer : d.answer s.server 0 = some (.upload sessionId angle photo rest, s.server) := by
    simp [Client.answer, hawaits, hget]
  refine ⟨_, _, Machine.Run.single (next_answer hd hanswer), fun hown => hforeign ?_⟩
  exact hown _ (List.mem_of_getElem? (getElem?_put hd)) photo rfl

/-- A client on its way to a download, from one `await` before. -/
theorem breaks_before {sessionId : Uuid} {angle : Angle} {rest : List Angle}
    (hd : s.clients[j]? = some d)
    (hanswer : d.answer s.server 0 = some (.download sessionId angle rest, s.server))
    (h : Intruded s d) : ∃ us s', enrolling.Run s us s' ∧ ¬ UploadsOwn s' := by
  obtain ⟨us, s', hrun, hbroken⟩ := breaks_download (getElem?_put hd) rfl
    (show Intruded (s.put j _ s.server) { d with awaits := .download sessionId angle rest } from h)
  exact ⟨_, s', Machine.Run.cons (next_answer hd hanswer) hrun, hbroken⟩

/-- A client with an image to download goes on to upload another member's. -/
theorem breaks_ahead (hd : s.clients[j]? = some d) (hahead : d.awaits.downloadsAhead = true)
    (hstatus : s.server.status.status = .capturedAll) (h : Intruded s d) :
    ∃ us s', enrolling.Run s us s' ∧ ¬ UploadsOwn s' := by
  cases hawaits : d.awaits with
  | startMacbookCapture | completePiEnrollment | ended => rw [hawaits] at hahead; cases hahead
  | download sessionId angle rest => exact breaks_download hd hawaits h
  | startMemberFaceEnrollment =>
      have hanswer : d.answer s.server 0 = some (.download 0 .front [.left, .right], s.server) := by
        simp [Client.answer, hawaits, anglesToUpload, transfers]
      exact breaks_before hd hanswer h
  | upload sessionId angle photo rest =>
      cases rest with
      | nil => rw [hawaits] at hahead; cases hahead
      | cons next rest =>
          have hanswer : d.answer s.server 0 = some (.download sessionId next rest, s.server) := by
            simp [Client.answer, hawaits, transfers]
          exact breaks_before hd hanswer h
  | pollMacbookCaptureStatus =>
      have hanswer : d.answer s.server 0 = some (.startMemberFaceEnrollment, s.server) := by
        simp [Client.answer, hawaits, afterPoll, Server.enrollmentStatus, CaptureStatus.allCaptured,
          hstatus]
      obtain ⟨us, s', hrun, hbroken⟩ := breaks_before (getElem?_put hd)
        (show Client.answer { d with awaits := .startMemberFaceEnrollment } s.server 0 =
          some (.download 0 .front [.left, .right], s.server) from rfl)
        (show Intruded (s.put j _ s.server) _ from h)
      exact ⟨_, s', Machine.Run.cons (next_answer hd hanswer) hrun, hbroken⟩

/-- A capture that nothing disturbs. -/
theorem run_steady {job : Job} {jobs : List Job} (hwaiting : s.worker = .waiting)
    (hqueue : s.server.captureQueue = job :: jobs) (jpeg : Jpeg) :
    ∃ us s', enrolling.Run s us s' ∧ s'.clients = s.clients ∧
      s'.server.status.status = .capturedAll ∧
      ∀ angle, s'.server.getCapture angle = .ok ⟨jpeg, job⟩ := by
  obtain ⟨⟨status, queue, images⟩, worker, clients⟩ := s
  obtain rfl : worker = .waiting := hwaiting
  obtain rfl : queue = job :: jobs := hqueue
  let images' : List (Angle × Photo) := ANGLES.map fun angle => (angle, ⟨jpeg, job⟩)
  have htrace : (enrolling.trace ⟨⟨status, job :: jobs, images⟩, .waiting, clients⟩
      (.take (steadyWebcam jpeg) :: List.replicate 15 .work)).map Prod.snd =
        some ⟨⟨⟨.capturedAll, 90, "All photos captured! Uploading to Pi...", some ANGLES⟩, jobs,
          images'⟩, .capturing job (.done .returned), clients⟩ := rfl
  obtain ⟨us, s', hrun, rfl⟩ := Machine.exists_run_of_view htrace
  exact ⟨us, _, hrun, rfl, rfl, fun angle => by cases angle <;> rfl⟩

theorem getElem?_put_ne {i : Nat} {a : Await} {v : Server} (hij : i ≠ j) :
    (s.put i a v).clients[j]? = s.clients[j]? := by
  simp [System.put, hij]

/-- A post that is accepted although a client of another member has an image to download
can lead to a wrong upload, even where no other job is queued or being captured. -/
theorem intruding_breaks {s' : System} {i : Nat} {e : ClientEvent} {m : Uuid}
    (hnext : enrolling.next s (.client i e) = some s')
    (haccepted : accepted ⟨s, .client i e, s'⟩ = some m) (hqueue : s.server.captureQueue = [])
    (hworker : s.worker = .waiting) (hd : s.clients[j]? = some d)
    (hahead : d.awaits.downloadsAhead = true) (hother : d.memberId ≠ m) :
    ∃ us s'', enrolling.Run s' us s'' ∧ ¬ UploadsOwn s'' := by
  obtain ⟨c, hc, hnext⟩ := Option.bind_eq_some_iff.mp hnext
  obtain ⟨⟨a, v⟩, hclient, rfl⟩ := Option.map_eq_some_iff.mp hnext
  obtain ⟨⟨hstart, hhandled, haccepts⟩, rfl⟩ : (c.awaits = .startMacbookCapture ∧
      e.handled = true ∧ s.server.accepts = true) ∧ c.memberId = m := by
    simpa [accepted, hc, Option.filter_eq_some_iff] using haccepted
  obtain rfl := post_next hclient hstart hhandled haccepts
  have hij : i ≠ j := by
    rintro rfl
    obtain rfl : c = d := Option.some.inj (hc.symm.trans hd)
    rw [hstart] at hahead
    cases hahead
  have hjobs : (s.server.enqueue ⟨c.memberId, "pending"⟩).captureQueue =
      [⟨c.memberId, "pending"⟩] := by simp [Server.enqueue, hqueue]
  obtain ⟨us, s₁, hcapture, hclients, hstatus, himages⟩ :=
    run_steady (s := s.put i a _) hworker hjobs []
  have hd₁ : s₁.clients[j]? = some d := by rw [hclients, getElem?_put_ne hij, hd]
  obtain ⟨vs, s₂, htransfer, hbroken⟩ :=
    breaks_ahead hd₁ hahead hstatus fun angle => ⟨_, himages angle, Ne.symm hother⟩
  exact ⟨us ++ vs, s₂, hcapture.append htransfer, hbroken⟩

end Intrusion

/-! ## One enrollment after the other, and one in the middle of another -/

def enrollment (i : Nat) (memberId : Uuid) : List Event :=
  [.handleEnrollFace memberId, .client i (.answer 0), .take (steadyWebcam [])] ++
    List.replicate 16 .work ++ [.close none] ++ List.replicate 8 (.client i (.answer 0))

theorem uploadsOwn_two_enrollments :
    ∃ ts s, enrolling.Run .init ts s ∧ s.clients.length = 2 ∧ UploadsOwn s := by
  have hend : (enrolling.trace .init (enrollment 0 1 ++ enrollment 1 2)).map (fun (ts, s) =>
      (s.clients.length, decide (∀ t ∈ ts, PostsInTurn t))) = some (2, true) := by
    decide +kernel
  obtain ⟨ts, s, hrun, hview⟩ := Machine.exists_run_of_view hend
  obtain ⟨hlength, hturn⟩ := Prod.mk.inj hview
  exact ⟨ts, s, hrun, hlength, uploadsOwn_of_postsInTurn hrun (of_decide_eq_true hturn)⟩

/-- The second client's job is done between the first client's poll and its downloads. -/
def overtaken : List Event :=
  [.handleEnrollFace 1, .handleEnrollFace 2, .client 0 (.answer 0), .take (steadyWebcam [])] ++
    List.replicate 16 .work ++ [.close none, .client 0 (.answer 0), .client 1 (.answer 0),
      .take (steadyWebcam [])] ++
    List.replicate 16 .work ++ [.close none, .client 0 (.answer 0), .client 0 (.answer 0)]

theorem not_always_uploadsOwn :
    ¬ ∀ (ts : List (Transition System Event)) (s : System),
      enrolling.Run .init ts s → UploadsOwn s := by
  intro halways
  have hend : (enrolling.trace .init overtaken).map (fun (_, s) =>
      (s.clients[0]?).bind fun c => c.awaits.photo?.map fun photo =>
        (c.memberId, photo.job.memberId)) = some (some (1, 2)) := by
    decide +kernel
  obtain ⟨ts, s, hrun, hclient⟩ := Machine.exists_run_of_view hend
  obtain ⟨c, hc, hphoto⟩ := Option.bind_eq_some_iff.mp hclient
  obtain ⟨photo, hphoto, hview⟩ := Option.map_eq_some_iff.mp hphoto
  obtain ⟨hmember, hjob⟩ := Prod.mk.inj hview
  have hown := halways ts s hrun c (List.mem_of_getElem? hc) photo hphoto
  rw [hmember, hjob] at hown
  cases hown

end FacialCamera.Macbook
