import FacialCamera.Macbook.Clients

/-! # The capture worker and the status it publishes

The loop of `main_loop`, one critical section at a time. A capture clears the images
first, lists an angle only when its photo is stored, and its last status is the one
status that lets the next `POST /enroll` in.
-/

namespace FacialCamera.Macbook

open FacialCamera.Core
open Backend (Uuid Jpeg)

abbrev Images : Type := List (Angle × Photo)

/-! ## The loop -/

/-- What `cv2.VideoCapture(0)` comes to: a webcam, or the exception it raises. -/
abbrev Opening : Type := Except String Webcam

/-- `run_capture`, also where the webcam raises before the `try`. -/
def capture (job : Job) : Opening → Proc Exit
  | .ok webcam => runCapture job webcam
  | .error failure => do
      issue .clearImages
      return .raised failure

structure Station where
  server : Server
  worker : Worker

inductive WorkerMove where
  | take (opening : Opening)
  | work
  | close (failure : Option String)

namespace Station

def init : Station := ⟨.init, .waiting⟩

def move (s : Station) : WorkerMove → Option Station
  | .take opening =>
      match s.worker, s.server.captureQueue with
      | .waiting, job :: jobs =>
          some ⟨{ s.server with captureQueue := jobs }, .capturing job (capture job opening)⟩
      | _, _ => none
  | .work =>
      match s.worker with
      | .capturing _ (.done exit) => some { s with worker := .closing exit }
      | .capturing job rest =>
          (rest.advance exec s.server).map fun (rest, server) => ⟨server, .capturing job rest⟩
      | _ => none
  | .close failure =>
      match s.worker with
      | .closing exit => some ⟨s.server.finish exit failure, .waiting⟩
      | _ => none

end Station

/-- The worker's steps among the clients are moves of its station. -/
theorem enrolling_worker (s : System) (webcam : Webcam) (failure : Option String) :
    let lift := fun station : Station =>
      { s with server := station.server, worker := station.worker }
    enrolling.next s (.take webcam) =
        (Station.move ⟨s.server, s.worker⟩ (.take (.ok webcam))).map lift ∧
      enrolling.next s .work = (Station.move ⟨s.server, s.worker⟩ .work).map lift ∧
      enrolling.next s (.close failure) =
        (Station.move ⟨s.server, s.worker⟩ (.close failure)).map lift := by
  obtain ⟨⟨status, queue, images⟩, worker, clients⟩ := s
  refine ⟨?_, ?_, ?_⟩
  · cases worker <;> cases queue <;> rfl
  · cases worker with
    | capturing job rest =>
        cases rest with
        | call c k => cases c <;> rfl
        | _ => rfl
    | _ => rfl
  · cases worker <;> rfl

/-! ## Calls by what they do -/

def CaptureStatus.busy (status : CaptureStatus) : Bool :=
  status.status = .capturing ∨ status.status = .starting

/-- `status.capturedAngles`, a missing one listing nothing. -/
def CaptureStatus.listed (status : CaptureStatus) : List Angle := status.capturedAngles.getD []

theorem accepts_eq (v : Server) : v.accepts = !v.status.busy := by
  unfold Server.accepts CaptureStatus.busy
  by_cases h : v.status.status = .capturing ∨ v.status.status = .starting <;> simp [h]

namespace Call

/-- The answer of a critical section, which only depends on the images. -/
def answer (images : Images) : (c : Call) → Answer c
  | .clearImages => ()
  | .doneAngles => images.map Prod.fst
  | .storeImage angle photo => (Server.assign angle photo images).map Prod.fst
  | .setStatus _ => ()

def imagesAfter (images : Images) : Call → Images
  | .clearImages => []
  | .storeImage angle photo => Server.assign angle photo images
  | _ => images

def statusAfter (status : CaptureStatus) : Call → CaptureStatus
  | .setStatus status => status
  | _ => status

def apply (v : Server) (c : Call) : Server :=
  ⟨c.statusAfter v.status, v.captureQueue, c.imagesAfter v.capturedImages⟩

/-- The call publishes a status with which a `POST /enroll` is accepted. -/
def frees : Call → Bool
  | .setStatus status => !status.busy
  | _ => false

end Call

theorem exec_eq (c : Call) (v : Server) :
    exec c v = some (c.answer v.capturedImages, c.apply v) := by
  cases c <;> rfl

/-! ## What is left of a capture -/

/-- A capture that has ended without an exception, all but its `finally`. -/
def quiet : Proc Exit → Bool
  | .done .unopened => true
  | .done .returned => true
  | _ => false

/-- The worker has a job whose last status it has not published yet. -/
def Worker.engaged : Worker → Bool
  | .waiting => false
  | .capturing _ rest => !quiet rest
  | .closing exit => !quiet (.done exit)

/-- The worker is in `run_capture` or in the `except` after it. -/
def Worker.running : Worker → Bool
  | .waiting => false
  | _ => true

def Station.jobs (s : Station) (occupied : Worker → Bool) : Nat :=
  s.server.captureQueue.length + (occupied s.worker).toNat

theorem jobs_of_occupied {s : Station} {occupied : Worker → Bool}
    (h : occupied s.worker = true) : s.jobs occupied = s.server.captureQueue.length + 1 := by
  rw [Station.jobs, h, Bool.toNat_true]

/-- What a call may do to the images it finds: store photos of the capture, list stored ones. -/
def Call.Allowed (shot : Angle × Photo → Prop) (images : Images) : Call → Prop
  | .clearImages => False
  | .doneAngles => True
  | .storeImage angle photo => shot (angle, photo)
  | .setStatus status =>
      ∀ angle ∈ status.listed, ∃ photo, images.lookup angle = some photo ∧ shot (angle, photo)

/-- What is left of a capture, after it has cleared the images. It ends without an
exception exactly after the call that frees the status. -/
def Left (shot : Angle × Photo → Prop) : Images → Proc Exit → Prop
  | _, .done _ => True
  | _, .fault => False
  | images, .call c k =>
      c.Allowed shot images ∧ quiet (k (c.answer images)) = c.frees ∧
        Left shot (c.imagesAfter images) (k (c.answer images))

def Shot (job : Job) (opening : Opening) (entry : Angle × Photo) : Prop :=
  ∃ webcam, opening = .ok webcam ∧ entry.2.job = job ∧
    countdown (webcam.frames entry.1) = .taken entry.2.jpeg

section Captures

variable {shot : Angle × Photo → Prop}

theorem mem_of_lookup {images : Images} {angle : Angle} {photo : Photo}
    (h : images.lookup angle = some photo) : (angle, photo) ∈ images := by
  obtain ⟨_, _, rfl, _⟩ := List.lookup_eq_some_iff.mp h
  simp

theorem exists_lookup {images : Images} {angle : Angle} (h : angle ∈ images.map Prod.fst) :
    ∃ photo, images.lookup angle = some photo := by
  refine Option.ne_none_iff_exists'.mp fun hnone => ?_
  obtain ⟨⟨_, photo⟩, hmem, rfl⟩ := List.mem_map.mp h
  simpa using List.lookup_eq_none_iff.mp hnone _ hmem

/-- A status that lists the stored angles of a capture is allowed. -/
theorem allowed_list {images : Images} (h : ∀ entry ∈ images, shot entry) (stage : Stage)
    (progress : Nat) (message : String) :
    (Call.setStatus ⟨stage, progress, message, some (images.map Prod.fst)⟩).Allowed shot
      images := by
  intro angle hangle
  obtain ⟨photo, hphoto⟩ := exists_lookup hangle
  exact ⟨photo, hphoto, h _ (mem_of_lookup hphoto)⟩

theorem allowed_none (images : Images) (stage : Stage) (progress : Nat) (message : String) :
    (Call.setStatus ⟨stage, progress, message, none⟩).Allowed shot images := by
  simp [Call.Allowed, CaptureStatus.listed]

/-- The body of the loop over `ANGLES` in front of what comes after it. -/
theorem captureAngle_bind (job : Job) (webcam : Webcam) (i : Nat) (angle : Angle)
    (next : Option Exit → Proc Exit) :
    captureAngle job webcam i angle >>= next =
      .call .doneAngles fun doneAngles =>
        .call (.setStatus ⟨.capturing, i * 30, "Capturing " ++ angle.text ++ " (" ++
            toString (i + 1) ++ "/3) — " ++ ANGLE_INSTRUCTIONS angle, some doneAngles⟩) fun _ =>
          match countdown (webcam.frames angle) with
          | .raised => next (some (.raised webcam.failure))
          | .failed message =>
              .call (.setStatus ⟨.error, 0, message, none⟩) fun _ => next (some .returned)
          | .taken jpeg =>
              .call (.storeImage angle ⟨jpeg, job⟩) fun doneAngles =>
                .call (.setStatus ⟨.capturing, (i + 1) * 30, angle.upper ++ " captured!",
                    some doneAngles⟩) fun _ =>
                  next (if i < ANGLES.length - 1 ∧ webcam.pauseRaises angle then
                    some (.raised webcam.failure) else none) := by
  unfold captureAngle
  cases countdown (webcam.frames angle) <;> rfl

theorem shot_assign {images : Images} {angle : Angle} {photo : Photo}
    (h : ∀ entry ∈ images, shot entry) (hphoto : shot (angle, photo)) :
    ∀ entry ∈ Server.assign angle photo images, shot entry := by
  intro entry hentry
  rcases Server.mem_assign hentry with hold | rfl
  · exact h entry hold
  · exact hphoto

theorem left_captureAngle {job : Job} {webcam : Webcam} {i : Nat} {angle : Angle}
    {next : Option Exit → Proc Exit} {images : Images}
    (hshot : ∀ jpeg, countdown (webcam.frames angle) = .taken jpeg → shot (angle, ⟨jpeg, job⟩))
    (himages : ∀ entry ∈ images, shot entry)
    (hexit : ∀ exit, next (some exit) = .done exit)
    (hnext : ∀ images, (∀ entry ∈ images, shot entry) → Left shot images (next none))
    (hquiet : quiet (next none) = false) :
    Left shot images (captureAngle job webcam i angle >>= next) := by
  rw [captureAngle_bind]
  refine ⟨trivial, rfl, allowed_list himages _ _ _, ?_⟩
  cases hcountdown : countdown (webcam.frames angle) with
  | raised =>
      simp only [hexit]
      exact ⟨rfl, trivial⟩
  | failed message =>
      refine ⟨rfl, allowed_none _ _ _ _, ?_⟩
      simp only [hexit]
      exact ⟨rfl, trivial⟩
  | taken jpeg =>
      have hstored := shot_assign himages (hshot jpeg hcountdown)
      refine ⟨rfl, hshot jpeg hcountdown, rfl, allowed_list hstored _ _ _, ?_⟩
      split
      · simp only [hexit]
        exact ⟨rfl, trivial⟩
      · exact ⟨hquiet, hnext _ hstored⟩

theorem quiet_captureAngles (job : Job) (webcam : Webcam) (i : Nat) (angles : List Angle) :
    quiet (captureAngles job webcam i angles) = false := by
  cases angles <;> rfl

theorem left_captureAngles {job : Job} {webcam : Webcam} {i : Nat} {angles : List Angle}
    {images : Images}
    (hshot : ∀ angle jpeg, countdown (webcam.frames angle) = .taken jpeg →
      shot (angle, ⟨jpeg, job⟩))
    (himages : ∀ entry ∈ images, shot entry) :
    Left shot images (captureAngles job webcam i angles) := by
  induction angles generalizing i images with
  | nil => exact ⟨trivial, rfl, allowed_list himages _ _ _, rfl, trivial⟩
  | cons angle angles ih =>
      rw [captureAngles]
      refine left_captureAngle (hshot angle) himages (fun _ => rfl) (fun images himages => ?_)
        (quiet_captureAngles job webcam (i + 1) angles)
      exact ih himages

/-- A capture clears the images, and what is left then keeps to photos of its own. -/
theorem capture_spec (job : Job) (opening : Opening) :
    ∃ rest, capture job opening = .call .clearImages rest ∧ quiet (rest ()) = false ∧
      Left (Shot job opening) [] (rest ()) := by
  cases opening with
  | error failure => exact ⟨fun _ => .done (.raised failure), rfl, rfl, trivial⟩
  | ok webcam =>
      refine ⟨fun _ => if webcam.opened then captureAngles job webcam 0 ANGLES
        else .call (.setStatus ⟨.error, 0, "Could not open MacBook webcam", none⟩)
          fun _ => .done .unopened, rfl, ?_, ?_⟩
      · dsimp only
        split
        · exact quiet_captureAngles job webcam 0 ANGLES
        · rfl
      · dsimp only
        split
        · exact left_captureAngles (fun angle jpeg hshot => ⟨webcam, rfl, rfl, hshot⟩) (by simp)
        · exact ⟨allowed_none _ _ _ _, rfl, trivial⟩

end Captures

/-! ## One move -/

inductive Moves (s s' : Station) : WorkerMove → Prop where
  | taken {job : Job} {jobs : List Job} {opening : Opening} : s.worker = .waiting →
      s.server.captureQueue = job :: jobs →
      s' = ⟨{ s.server with captureQueue := jobs }, .capturing job (capture job opening)⟩ →
      Moves s s' (.take opening)
  | called {job : Job} {c : Call} {k : Answer c → Proc Exit} :
      s.worker = .capturing job (.call c k) →
      s' = ⟨c.apply s.server, .capturing job (k (c.answer s.server.capturedImages))⟩ →
      Moves s s' .work
  | returned {job : Job} {exit : Exit} : s.worker = .capturing job (.done exit) →
      s' = { s with worker := .closing exit } → Moves s s' .work
  | closed {exit : Exit} {failure : Option String} : s.worker = .closing exit →
      s' = ⟨s.server.finish exit failure, .waiting⟩ → Moves s s' (.close failure)

theorem move_cases {s s' : Station} {move : WorkerMove} (h : s.move move = some s') :
    Moves s s' move := by
  obtain ⟨v, worker⟩ := s
  cases move with
  | take opening =>
      cases worker with
      | waiting =>
          cases hqueue : v.captureQueue with
          | nil => simp [Station.move, hqueue] at h
          | cons job jobs =>
              simp only [Station.move, hqueue, Option.some.injEq] at h
              exact .taken rfl hqueue h.symm
      | _ => cases h
  | work =>
      cases worker with
      | capturing job rest =>
          cases rest with
          | done exit => exact .returned rfl (Option.some.inj h).symm
          | fault => cases h
          | call c k =>
              simp only [Station.move, Program.advance, exec_eq, Option.map_some,
                Option.some.injEq] at h
              exact .called rfl h.symm
      | _ => cases h
  | close failure =>
      cases worker with
      | closing exit => exact .closed rfl (Option.some.inj h).symm
      | _ => cases h

/-- What the worker has left is a whole capture or the rest of one. -/
def Tracks (shot : Angle × Photo → Prop) (s : Station) : Prop :=
  ∀ job rest, s.worker = .capturing job rest →
    (∃ k, rest = .call .clearImages k ∧ quiet (k ()) = false ∧ Left shot [] (k ())) ∨
      Left shot s.server.capturedImages rest

theorem tracks_capture (v : Server) (job : Job) (opening : Opening) :
    Tracks (Shot job opening) ⟨v, .capturing job (capture job opening)⟩ := by
  rintro job' rest ⟨⟩
  exact Or.inl (capture_spec job opening)

theorem tracks_of_not_capturing (shot : Angle × Photo → Prop) {s : Station}
    (h : ∀ job rest, s.worker ≠ .capturing job rest) : Tracks shot s :=
  fun job rest hrest => absurd hrest (h job rest)

/-- Only the images matter to the worker. -/
theorem Tracks.congr {shot : Angle × Photo → Prop} {s : Station} (h : Tracks shot s) {v : Server}
    (himages : v.capturedImages = s.server.capturedImages) :
    Tracks shot { s with server := v } := by
  intro job rest hworker
  exact (h job rest hworker).imp_right fun hleft => himages.symm ▸ hleft

section Steps

variable {shot : Angle × Photo → Prop} {s : Station} {job : Job} {c : Call}
  {k : Answer c → Proc Exit}

/-- A call leaves the rest of the same capture, which is over but for its `finally` exactly
if the call has freed the status. -/
theorem Tracks.called (h : Tracks shot s) (hworker : s.worker = .capturing job (.call c k)) :
    quiet (k (c.answer s.server.capturedImages)) = c.frees ∧
      Left shot (c.imagesAfter s.server.capturedImages)
        (k (c.answer s.server.capturedImages)) := by
  rcases h job _ hworker with ⟨rest, hclear, hquiet, hleft⟩ | ⟨_, hquiet, hleft⟩
  · cases hclear
    exact ⟨hquiet, hleft⟩
  · exact ⟨hquiet, hleft⟩

theorem tracks_of_left {v : Server} {rest : Proc Exit} (h : Left shot v.capturedImages rest) :
    Tracks shot ⟨v, .capturing job rest⟩ := by
  rintro _ _ ⟨⟩
  exact Or.inr h

/-- While a capture has a call to make the status is busy, and a call keeps it so exactly
if it is not the last one. -/
theorem busy_called (h : Tracks shot s) (hworker : s.worker = .capturing job (.call c k))
    (hbusy : s.server.status.busy = true) :
    (c.apply s.server).status.busy =
      (Worker.capturing job (k (c.answer s.server.capturedImages))).engaged := by
  rw [Worker.engaged, (h.called hworker).1]
  cases c with
  | setStatus status => simp [Call.apply, Call.statusAfter, Call.frees]
  | _ => exact hbusy

end Steps

end FacialCamera.Macbook
