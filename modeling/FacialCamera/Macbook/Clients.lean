import FacialCamera.Core.Machine
import FacialCamera.Macbook.Server

/-! # Enrollments over the MacBook

`handleEnrollFace` of any number of app clients against one server and its worker.
A client is where its `async` function awaits; between two `await`s it runs alone.
What the network and the Pi answer is in the label of a step.
-/

namespace FacialCamera.Macbook

open FacialCamera.Core
open Backend (Uuid)

/-! ## One client -/

/-- Where `handleEnrollFace` awaits. `download` and `upload` are the two requests of
`transferMacbookCaptureToPi`, with the angles that come after theirs. -/
inductive Await where
  | startMacbookCapture
  | pollMacbookCaptureStatus
  | startMemberFaceEnrollment
  | download (sessionId : Uuid) (angle : Angle) (rest : List Angle)
  | upload (sessionId : Uuid) (angle : Angle) (photo : Photo) (rest : List Angle)
  | completePiEnrollment (sessionId : Uuid)
  | ended
  deriving DecidableEq

structure Client where
  memberId : Uuid
  awaits : Await

def anglesToUpload : List Angle := [.front, .left, .right]

def transfers (sessionId : Uuid) : List Angle → Await
  | [] => .completePiEnrollment sessionId
  | angle :: rest => .download sessionId angle rest

/-- `capturedAngles.length >= 3 || status.status === 'captured_all'`. -/
def CaptureStatus.allCaptured (status : CaptureStatus) : Bool :=
  3 ≤ (status.capturedAngles.getD []).length ∨ status.status = .capturedAll

def afterPoll (status : CaptureStatus) : Await :=
  if status.status = .error then .ended
  else if status.allCaptured then .startMemberFaceEnrollment
  else .pollMacbookCaptureStatus

/-- The awaited request is answered; `sessionId` is the answer of the Pi. -/
def Client.answer (c : Client) (v : Server) (sessionId : Uuid) : Option (Await × Server) :=
  match c.awaits with
  | .startMacbookCapture =>
      match v.startEnrollment (some c.memberId) "pending" with
      | (.ok _, v') => some (.pollMacbookCaptureStatus, v')
      | (.error _, v') => some (.ended, v')
  | .pollMacbookCaptureStatus => some (afterPoll v.enrollmentStatus, v)
  | .startMemberFaceEnrollment => some (transfers sessionId anglesToUpload, v)
  | .download sessionId angle rest =>
      match v.getCapture angle with
      | .error _ => some (.ended, v)
      | .ok photo => some (.upload sessionId angle photo rest, v)
  | .upload sessionId _ _ rest => some (transfers sessionId rest, v)
  | .completePiEnrollment _ => some (.ended, v)
  | .ended => none

/-- The awaited request throws; the server may have handled it before. -/
def Client.fail (c : Client) (v : Server) (handled : Bool) : Option (Await × Server) :=
  match c.awaits with
  | .startMacbookCapture =>
      some (.ended, if handled then (v.startEnrollment (some c.memberId) "pending").2 else v)
  | .pollMacbookCaptureStatus => some (.pollMacbookCaptureStatus, v)
  | .ended => none
  | _ => some (.ended, v)

/-- `Date.now() > deadline` before a poll. -/
def Client.timeOut (c : Client) (v : Server) : Option (Await × Server) :=
  match c.awaits with
  | .pollMacbookCaptureStatus => some (.ended, v)
  | _ => none

/-! ## The system -/

inductive Worker where
  | waiting
  | capturing (job : Job) (rest : Proc Exit)
  | closing (exit : Exit)

structure System where
  server : Server
  worker : Worker
  clients : List Client

def System.init : System := ⟨.init, .waiting, []⟩

inductive ClientEvent where
  | answer (sessionId : Uuid)
  | fail (handled : Bool)
  | timeOut

def Client.next (c : Client) (v : Server) : ClientEvent → Option (Await × Server)
  | .answer sessionId => c.answer v sessionId
  | .fail handled => c.fail v handled
  | .timeOut => c.timeOut v

inductive Event where
  | handleEnrollFace (memberId : Uuid)
  | client (i : Nat) (e : ClientEvent)
  | take (webcam : Webcam)
  | work
  | close (failure : Option String)

def System.put (s : System) (i : Nat) (awaits : Await) (server : Server) : System :=
  { s with server, clients := s.clients.modify i fun c => { c with awaits } }

def enrolling : Machine System Event where
  next s
    | .handleEnrollFace memberId =>
        some { s with clients := s.clients ++ [⟨memberId, .startMacbookCapture⟩] }
    | .client i e =>
        (s.clients[i]?).bind fun c =>
          (c.next s.server e).map fun (awaits, server) => s.put i awaits server
    | .take webcam =>
        match s.worker, s.server.captureQueue with
        | .waiting, job :: jobs =>
            some { s with
              server := { s.server with captureQueue := jobs }
              worker := .capturing job (runCapture job webcam) }
        | _, _ => none
    | .work =>
        match s.worker with
        | .capturing _ (.done exit) => some { s with worker := .closing exit }
        | .capturing job rest =>
            (rest.advance exec s.server).map fun (rest, server) =>
              { s with server, worker := .capturing job rest }
        | _ => none
    | .close failure =>
        match s.worker with
        | .closing exit =>
            some { s with server := s.server.finish exit failure, worker := .waiting }
        | _ => none

/-! ## What a client's step can do -/

/-- `POST /enroll` is not answered with 409. -/
def Server.accepts (v : Server) : Bool :=
  ¬ (v.status.status = .capturing ∨ v.status.status = .starting)

def Server.enqueue (v : Server) (job : Job) : Server :=
  { v with
    status := ⟨.starting, 0, "Opening MacBook camera...", none⟩
    captureQueue := v.captureQueue ++ [job] }

theorem startEnrollment_eq (v : Server) (m : Uuid) (sessionId : String) :
    v.startEnrollment (some m) sessionId =
      if v.accepts then
        (.ok ⟨"started", "Webcam capture starting on MacBook"⟩, v.enqueue ⟨m, sessionId⟩)
      else (.error ⟨409, "Enrollment already in progress"⟩, v) := by
  by_cases h : v.status.status = .capturing ∨ v.status.status = .starting <;>
    simp [Server.startEnrollment, Server.accepts, Server.enqueue, h]

/-- The client still has an image to download for the job it asked for. -/
def Await.downloadsAhead : Await → Bool
  | .pollMacbookCaptureStatus => true
  | .startMemberFaceEnrollment => true
  | .download _ _ _ => true
  | .upload _ _ _ rest => rest ≠ []
  | _ => false

/-- The client has seen all angles captured and still has an image to download. -/
def Await.ready : Await → Bool
  | .pollMacbookCaptureStatus => false
  | a => a.downloadsAhead

def Await.photo? : Await → Option Photo
  | .upload _ _ photo _ => some photo
  | _ => none

/-- How a client goes on where the server is unchanged. -/
structure Follows (v : Server) (a a' : Await) : Prop where
  ahead : a'.downloadsAhead = true → a.downloadsAhead = true
  ready : a'.ready = true → a.ready = true ∨ v.status.allCaptured = true
  photo : ∀ photo ∈ a'.photo?, a.ready = true ∧ ∃ angle, (angle, photo) ∈ v.capturedImages

theorem follows_ended (v : Server) (a : Await) : Follows v a .ended := by
  constructor <;> simp [Await.downloadsAhead, Await.ready, Await.photo?]

theorem follows_transfers {v : Server} {a : Await} {rest : List Angle} (sessionId : Uuid)
    (h : rest ≠ [] → a.ready = true) (hahead : a.ready = true → a.downloadsAhead = true) :
    Follows v a (transfers sessionId rest) := by
  cases rest with
  | nil => constructor <;> simp [transfers, Await.downloadsAhead, Await.ready, Await.photo?]
  | cons angle rest =>
      have hready := h (by simp)
      constructor
      · intro _
        exact hahead hready
      · intro _
        exact Or.inl hready
      · simp [transfers, Await.photo?]

theorem follows_afterPoll (v : Server) :
    Follows v .pollMacbookCaptureStatus (afterPoll v.enrollmentStatus) := by
  unfold afterPoll
  split
  · exact follows_ended _ _
  · split
    case isTrue hall =>
      constructor
      · simp [Await.downloadsAhead]
      · intro _
        exact Or.inr hall
      · simp [Await.photo?]
    case isFalse => constructor <;> simp [Await.downloadsAhead, Await.ready, Await.photo?]

def ClientEvent.handled : ClientEvent → Bool
  | .answer _ => true
  | .fail handled => handled
  | .timeOut => false

theorem answer_spec {c : Client} {v v' : Server} {sessionId : Uuid} {a' : Await}
    (h : c.answer v sessionId = some (a', v')) :
    (v' = v ∧ Follows v c.awaits a') ∨
      c.awaits = .startMacbookCapture ∧ v.accepts = true ∧ v' = v.enqueue ⟨c.memberId, "pending"⟩ ∧
        a' = .pollMacbookCaptureStatus := by
  unfold Client.answer at h
  cases ha : c.awaits with
  | startMacbookCapture =>
      rw [ha, startEnrollment_eq] at h
      cases haccepts : v.accepts with
      | true =>
          obtain ⟨rfl, rfl⟩ : .pollMacbookCaptureStatus = a' ∧ _ = v' := by
            simpa [haccepts] using h
          exact Or.inr ⟨rfl, rfl, rfl, rfl⟩
      | false =>
          obtain ⟨rfl, rfl⟩ : .ended = a' ∧ v = v' := by simpa [haccepts] using h
          exact Or.inl ⟨rfl, follows_ended _ _⟩
  | pollMacbookCaptureStatus =>
      obtain ⟨rfl, rfl⟩ : afterPoll v.enrollmentStatus = a' ∧ v = v' := by simpa [ha] using h
      exact Or.inl ⟨rfl, follows_afterPoll v⟩
  | startMemberFaceEnrollment =>
      obtain ⟨rfl, rfl⟩ : transfers sessionId anglesToUpload = a' ∧ v = v' := by simpa [ha] using h
      exact Or.inl ⟨rfl, follows_transfers sessionId (fun _ => rfl) fun _ => rfl⟩
  | download session angle rest =>
      rw [ha] at h
      cases hget : v.getCapture angle with
      | error e =>
          obtain ⟨rfl, rfl⟩ : .ended = a' ∧ v = v' := by simpa [hget] using h
          exact Or.inl ⟨rfl, follows_ended _ _⟩
      | ok photo =>
          obtain ⟨rfl, rfl⟩ : .upload session angle photo rest = a' ∧ v = v' := by
            simpa [hget] using h
          refine Or.inl ⟨rfl, fun _ => rfl, fun _ => Or.inl rfl, fun p hp => ⟨rfl, angle, ?_⟩⟩
          obtain rfl : photo = p := by simpa [Await.photo?] using hp
          exact Server.mem_of_getCapture hget
  | upload session angle photo rest =>
      obtain ⟨rfl, rfl⟩ : transfers session rest = a' ∧ v = v' := by simpa [ha] using h
      exact Or.inl ⟨rfl, follows_transfers session
        (fun hrest => by simpa [Await.ready, Await.downloadsAhead] using hrest) id⟩
  | completePiEnrollment session =>
      obtain ⟨rfl, rfl⟩ : .ended = a' ∧ v = v' := by simpa [ha] using h
      exact Or.inl ⟨rfl, follows_ended _ _⟩
  | ended => simp [ha] at h

theorem fail_spec {c : Client} {v v' : Server} {handled : Bool} {a' : Await}
    (h : c.fail v handled = some (a', v')) :
    (v' = v ∧ Follows v c.awaits a') ∨
      c.awaits = .startMacbookCapture ∧ handled = true ∧ v.accepts = true ∧
        v' = v.enqueue ⟨c.memberId, "pending"⟩ ∧ a' = .ended := by
  unfold Client.fail at h
  cases ha : c.awaits with
  | startMacbookCapture =>
      rw [ha, startEnrollment_eq] at h
      cases hpost : handled && v.accepts with
      | true =>
          obtain ⟨rfl, haccepts⟩ := (Bool.and_eq_true _ _).mp hpost
          obtain ⟨rfl, rfl⟩ : .ended = a' ∧ _ = v' := by simpa [haccepts] using h
          exact Or.inr ⟨rfl, rfl, haccepts, rfl, rfl⟩
      | false =>
          obtain ⟨rfl, rfl⟩ : .ended = a' ∧ v = v' := by
            cases handled <;> simp_all
          exact Or.inl ⟨rfl, follows_ended _ _⟩
  | pollMacbookCaptureStatus =>
      obtain ⟨rfl, rfl⟩ : .pollMacbookCaptureStatus = a' ∧ v = v' := by simpa [ha] using h
      exact Or.inl ⟨rfl, id, by simp [Await.ready], by simp [Await.photo?]⟩
  | ended => simp [ha] at h
  | startMemberFaceEnrollment | download | upload | completePiEnrollment =>
      obtain ⟨rfl, rfl⟩ : .ended = a' ∧ v = v' := by simpa [ha] using h
      exact Or.inl ⟨rfl, follows_ended _ _⟩

/-- A client's step leaves the server as it is or is an accepted `POST /enroll`. -/
theorem client_next {c : Client} {v v' : Server} {e : ClientEvent} {a' : Await}
    (h : c.next v e = some (a', v')) :
    (v' = v ∧ Follows v c.awaits a') ∨
      c.awaits = .startMacbookCapture ∧ e.handled = true ∧ v.accepts = true ∧
        v' = v.enqueue ⟨c.memberId, "pending"⟩ ∧ a' ∈ [.pollMacbookCaptureStatus, .ended] := by
  cases e with
  | answer sessionId =>
      refine (answer_spec h).imp_right ?_
      rintro ⟨ha, haccepts, hv, rfl⟩
      exact ⟨ha, rfl, haccepts, hv, by simp⟩
  | fail handled =>
      refine (fail_spec h).imp_right ?_
      rintro ⟨ha, hhandled, haccepts, hv, rfl⟩
      exact ⟨ha, hhandled, haccepts, hv, by simp⟩
  | timeOut =>
      have hended : .ended = a' ∧ v = v' := by
        simp only [Client.next, Client.timeOut] at h
        split at h
        · simpa using h
        · cases h
      obtain ⟨rfl, rfl⟩ := hended
      exact Or.inl ⟨rfl, follows_ended _ _⟩

theorem post_next {c : Client} {v v' : Server} {e : ClientEvent} {a' : Await}
    (h : c.next v e = some (a', v')) (hstart : c.awaits = .startMacbookCapture)
    (hhandled : e.handled = true) (haccepts : v.accepts = true) :
    v' = v.enqueue ⟨c.memberId, "pending"⟩ := by
  cases e with
  | answer sessionId =>
      simp only [Client.next, Client.answer, hstart, startEnrollment_eq, haccepts, if_true,
        Option.some.injEq, Prod.mk.injEq] at h
      exact h.2.symm
  | fail handled =>
      simp only [ClientEvent.handled] at hhandled
      simp only [Client.next, Client.fail, hstart, startEnrollment_eq, haccepts, hhandled, if_true,
        Option.some.injEq, Prod.mk.injEq] at h
      exact h.2.symm
  | timeOut => cases hhandled

end FacialCamera.Macbook
