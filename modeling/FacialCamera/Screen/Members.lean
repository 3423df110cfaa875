import FacialCamera.Enrollment.Endpoints
import FacialCamera.Macbook.Clients

/-! # The two enrollments of `MembersScreen.tsx`

`handleEnrollFace` and `handlePiEnrollFace` with the calls of `api.ts` they make. A
flow is where its `async` function awaits. What it meets when it goes on is in the
label of a step: the clock, a call that throws, the MacBook's answer and the processes
that its request finds at the Pi, whose handlers give the Pi's answers.
-/

namespace FacialCamera.Screen

open FacialCamera.Core Backend
open Enrollment
open Macbook (CaptureStatus anglesToUpload)

abbrev Angle : Type := Macbook.Angle

def ENROLLMENT_TIMEOUT_MS : ℕ := 60000

def ANGLES : List Angle := [.front, .left, .right]

/-- The choices of `showEnrollOptions`. -/
inductive Camera where
  | macbook
  | pi
  deriving DecidableEq

structure Member where
  id : Uuid
  name : String

/-! ## What a flow awaits and shows -/

inductive Outcome where
  | enrolled (session : Uuid)
  | failed
  deriving DecidableEq

/-- Where a flow awaits. `download` and `upload` are the two requests of
`transferMacbookCaptureToPi`; the pauses are the timers of the two loops. -/
inductive Await where
  | startMacbookCapture
  | pollPause (deadline : ℕ)
  | pollMacbookCaptureStatus (deadline : ℕ)
  | startMemberFaceEnrollment
  | download (session : Uuid) (i : Fin anglesToUpload.length)
  | upload (session : Uuid) (i : Fin anglesToUpload.length) (jpeg : Jpeg)
  | posePause (session : Uuid) (i : Fin ANGLES.length)
  | piCameraCapture (session : Uuid) (i : Fin ANGLES.length)
  | retryPause (session : Uuid) (i : Fin ANGLES.length)
  | completePiEnrollment (session : Uuid)
  | ended (outcome : Outcome)
  deriving DecidableEq

def Await.wait : Await → ℕ
  | .pollPause _ => 800
  | .posePause _ _ => 3000
  | .retryPause _ _ => 1000
  | _ => 0

/-- The values of `enrollmentMessage`. -/
inductive Notice where
  | openingMacbookCamera
  | macbook (message : String)
  | connectingToPi
  | uploading (i : ℕ) (angle : Angle)
  | startingEnrollment
  | pose (i : ℕ) (angle : Angle)
  | pi (message : Message)
  | finalizing
  | faceEnrolled
  deriving DecidableEq

/-- `str(angle)` of an angle that a flow has sent. -/
def angleText : Backend.Angle → String
  | .text s => s
  | .scalar stored => stored
  | .nan => "nan"
  | .compound => ""

/-- `session.message` as the app receives it. -/
def messageText (message : Message) : String := message.text String.toUpper angleText

/-- The member's entries of `enrollmentProgress`, `enrollmentMessage` and `enrollmentStep`. -/
structure Card where
  progress : ℚ
  message : Notice
  step : ℕ

inductive Toast where
  | enrollmentComplete (name : String)
  | enrollmentFailed (message : String)
  deriving DecidableEq

structure Flow where
  camera : Camera
  member : Member
  awaits : Await
  since : ℕ
  card : Card
  enrollingMemberId : Option Uuid
  toast : Option Toast

/-! ## What a flow meets -/

/-- A thrown value: an `Error` with its message, or anything else. -/
inductive Thrown where
  | error (message : String)
  | other
  deriving DecidableEq

/-- What a flow meets when it goes on, at the milliseconds `clock` of `Date.now()`. `pi` is the
Pi when a request arrives there and `landing` the Pi when the body of an upload has been read. -/
structure Turn where
  clock : ℕ
  thrown : Option Thrown
  status : CaptureStatus
  jpeg : Jpeg
  encode : Jpeg → EncoderOutcome
  frame : Option EncoderOutcome
  pi : Process
  landing : Process

/-- axios throws for every answer but a 2xx. -/
def settle {α : Type} : Option (Reply α) → Except Thrown α
  | some (.ok a) => .ok a
  | answer => .error (.error ("Request failed with status code " ++ toString (statusCode answer)))

def Turn.await {α : Type} (t : Turn) (answer : Option (Reply α)) : Except Thrown α :=
  match t.thrown with
  | some e => .error e
  | none => settle answer

/-- The body of `transferMacbookCaptureToPi`; an empty text is falsy. -/
def captureBody (angle : Angle) (jpeg : Jpeg) (encode : Jpeg → EncoderOutcome) : CaptureBody where
  angle := some (.text angle.text)
  image := if jpeg = [] then none else some (encode jpeg)

def Turn.uploadAnswer (t : Turn) (m s : Uuid) (body : CaptureBody) :
    Option (Reply (Option SessionRow)) :=
  match (Backend.uploadCaptureB64 m s (some body)).segment exec Call.awaits t.pi with
  | .ended answer _ => answer
  | .suspended rest _ =>
      match rest.resume exec Call.awaits t.landing with
      | .ended answer _ => answer
      | .suspended _ _ => none

def Turn.captureAnswer (t : Turn) (m s : Uuid) (angle : Angle) :
    Option (Reply (Option SessionRow)) :=
  ((Backend.piCameraCapture m s angle.text t.frame).run exec t.pi).1

/-- `result.message.toLowerCase().includes('no face')`. -/
def saysNoFace (message : Message) : Bool :=
  decide ("no face".toList <:+: (messageText message).toLower.toList)

/-! ## The flows -/

/-- `e instanceof Error ? e.message : ..` in the `catch` of a flow. -/
def Thrown.message (camera : Camera) : Thrown → String
  | .error message => message
  | .other =>
      match camera with
      | .macbook => "Unable to enroll face."
      | .pi => "Pi camera enrollment failed."

namespace Flow

variable (f : Flow) (clock : ℕ)

def wait (awaits : Await) : Flow := { f with awaits, since := clock }

def tell (card : Card) : Flow := { f with card }

/-- The timer that removes the card later is left out. -/
def clearEnrollmentUi (outcome : Outcome) : Flow :=
  { f with awaits := .ended outcome, since := clock, enrollingMemberId := none }

def throws (e : Thrown) : Flow :=
  { f with toast := some (.enrollmentFailed (e.message f.camera)) }.clearEnrollmentUi clock .failed

/-- The head of `while (!allCaptured)`. -/
def pollLoop (deadline : ℕ) : Flow :=
  if clock > deadline then f.throws clock (.error "Enrollment timed out. Try again.")
  else f.wait clock (.pollPause deadline)

def uploadLoop (session : Uuid) (i : ℕ) : Flow :=
  if h : i < anglesToUpload.length then
    (f.tell { f.card with
      message := .uploading i anglesToUpload[i], progress := 70 + i * 8 }).wait clock
      (.download session ⟨i, h⟩)
  else
    (f.tell { f.card with message := .finalizing, progress := 95 }).wait clock
      (.completePiEnrollment session)

def poseLoop (session : Uuid) (i : ℕ) : Flow :=
  if h : i < ANGLES.length then
    (f.tell ⟨10 + i * 25, .pose i ANGLES[i], i⟩).wait clock (.posePause session ⟨i, h⟩)
  else (f.tell ⟨95, .finalizing, 3⟩).wait clock (.completePiEnrollment session)

def afterPoll (status : CaptureStatus) (deadline : ℕ) : Flow :=
  let card : Card := ⟨min status.progress 60, .macbook status.message,
    min (status.capturedAngles.getD []).length 3⟩
  if status.status = .error then (f.tell card).throws clock (.error status.message)
  else if status.allCaptured then
    (f.tell { card with message := .connectingToPi, progress := 65 }).wait clock
      .startMemberFaceEnrollment
  else (f.tell card).pollLoop clock deadline

/-- After a capture with the door camera; `i--` and `continue` where no face was seen. -/
def afterCapture (session : Uuid) (i : Fin ANGLES.length) : Option SessionRow → Flow
  | none => f.throws clock (.error "Cannot read property 'progress' of null")
  | some result =>
      let told := f.tell { f.card with progress := result.progress, message := .pi result.message }
      if saysNoFace result.message then told.wait clock (.retryPause session i)
      else told.poseLoop clock session (i + 1)

def afterComplete (session : Uuid) : Flow :=
  { f with
    card := { f.card with progress := 100, message := .faceEnrolled }
    toast := some (.enrollmentComplete f.member.name) }.clearEnrollmentUi clock (.enrolled session)

/-- From one `await` to the next. -/
def resume (t : Turn) : Flow :=
  match f.awaits with
  | .startMacbookCapture =>
      match t.thrown with
      | some _ =>
          f.throws t.clock (.error ("Could not reach MacBook enrollment server. " ++
            "Make sure enroll_server.py is running."))
      | none => f.pollLoop t.clock (t.clock + ENROLLMENT_TIMEOUT_MS)
  | .pollPause deadline => f.wait t.clock (.pollMacbookCaptureStatus deadline)
  | .pollMacbookCaptureStatus deadline =>
      match t.thrown with
      | some _ => f.pollLoop t.clock deadline
      | none => f.afterPoll t.clock t.status deadline
  | .startMemberFaceEnrollment =>
      match f.camera, t.await ((startEnrollment f.member.id).run exec t.pi).1 with
      | .macbook, .error _ =>
          f.throws t.clock
            (.error "Photos captured but could not reach the Pi. Check Pi connection.")
      | .macbook, .ok (session, _) => f.uploadLoop t.clock session.sessionId 0
      | .pi, .error e => f.throws t.clock e
      | .pi, .ok (session, _) => f.poseLoop t.clock session.sessionId 0
  | .download session i =>
      match t.thrown with
      | some _ =>
          f.throws t.clock (.error ("Failed to upload " ++ (anglesToUpload.get i).text ++
            " photo to Pi."))
      | none => f.wait t.clock (.upload session i t.jpeg)
  | .upload session i jpeg =>
      match t.await (t.uploadAnswer f.member.id session
          (captureBody (anglesToUpload.get i) jpeg t.encode)) with
      | .error _ =>
          f.throws t.clock (.error ("Failed to upload " ++ (anglesToUpload.get i).text ++
            " photo to Pi."))
      | .ok _ => f.uploadLoop t.clock session (i + 1)
  | .posePause session i => f.wait t.clock (.piCameraCapture session i)
  | .piCameraCapture session i =>
      match t.await (t.captureAnswer f.member.id session (ANGLES.get i)) with
      | .error e => f.throws t.clock e
      | .ok result => f.afterCapture t.clock session i result
  | .retryPause session i => f.poseLoop t.clock session i
  | .completePiEnrollment session =>
      match t.await ((completeEnrollment f.member.id session).run exec t.pi).1 with
      | .error e => f.throws t.clock e
      | .ok _ => f.afterComplete t.clock session
  | .ended _ => f

end Flow

/-- The flow after `setEnrollingMemberId(member.id)`; the guard refuses a second one. -/
def handleEnrollFace (enrollingMemberId : Option Uuid) (member : Member) (clock : ℕ) :
    Option Flow :=
  if enrollingMemberId.isSome then none
  else some ⟨.macbook, member, .startMacbookCapture, clock, ⟨5, .openingMacbookCamera, 0⟩,
    some member.id, none⟩

def handlePiEnrollFace (enrollingMemberId : Option Uuid) (member : Member) (clock : ℕ) :
    Option Flow :=
  if enrollingMemberId.isSome then none
  else some ⟨.pi, member, .startMemberFaceEnrollment, clock, ⟨5, .startingEnrollment, 0⟩,
    some member.id, none⟩

def enroll : Camera → Option Uuid → Member → ℕ → Option Flow
  | .macbook => handleEnrollFace
  | .pi => handlePiEnrollFace

/-- A flow that awaits goes on at any time after its timer. -/
def flow : Machine Flow Turn where
  next f t :=
    match f.awaits with
    | .ended _ => none
    | awaits => if f.since + awaits.wait ≤ t.clock then some (f.resume t) else none

/-! ## One step -/

theorem next_eq_some {f f' : Flow} {t : Turn} (h : flow.next f t = some f') :
    (∀ outcome, f.awaits ≠ .ended outcome) ∧ f.since + f.awaits.wait ≤ t.clock ∧
      f' = f.resume t := by
  simp only [flow] at h
  cases ha : f.awaits with
  | ended outcome => simp [ha] at h
  | _ =>
      simp only [ha, Option.ite_none_right_eq_some, Option.some.injEq] at h
      exact ⟨by simp, h.1, h.2.symm⟩

/-- What every step keeps: whose flow it is, what it has shown before it ends, and that an
ended flow has cleared `enrollingMemberId`. -/
structure Continues (f : Flow) (clock : ℕ) (f' : Flow) : Prop where
  member : f'.member = f.member
  camera : f'.camera = f.camera
  since : f'.since = clock
  shown : f'.card.message = .faceEnrolled →
    f.card.message = .faceEnrolled ∨ ∃ s, f'.awaits = .ended (.enrolled s)
  cleared : ∀ outcome, f'.awaits = .ended outcome → f'.enrollingMemberId = none

section Continues

variable (f : Flow) (clock : ℕ)

theorem continues_throws (e : Thrown) : Continues f clock (f.throws clock e) :=
  ⟨rfl, rfl, rfl, Or.inl, fun _ _ => rfl⟩

theorem continues_wait {awaits : Await} (h : ∀ outcome, awaits ≠ .ended outcome) :
    Continues f clock (f.wait clock awaits) :=
  ⟨rfl, rfl, rfl, Or.inl, fun outcome hended => absurd hended (h outcome)⟩

/-- A message of a loop is not the last one. -/
theorem Continues.tell {f f' : Flow} {clock : ℕ} {card : Card}
    (h : Continues (f.tell card) clock f')
    (hcard : card.message = .faceEnrolled → f.card.message = .faceEnrolled) :
    Continues f clock f' :=
  ⟨h.member, h.camera, h.since, fun hshown => (h.shown hshown).imp_left hcard, h.cleared⟩

theorem continues_pollLoop (deadline : ℕ) : Continues f clock (f.pollLoop clock deadline) := by
  unfold Flow.pollLoop
  split
  · exact continues_throws f clock _
  · exact continues_wait f clock (by simp)

theorem continues_uploadLoop (s : Uuid) (i : ℕ) : Continues f clock (f.uploadLoop clock s i) := by
  unfold Flow.uploadLoop
  split
  · exact (continues_wait _ clock (by simp)).tell (by simp)
  · exact (continues_wait _ clock (by simp)).tell (by simp)

theorem continues_poseLoop (s : Uuid) (i : ℕ) : Continues f clock (f.poseLoop clock s i) := by
  unfold Flow.poseLoop
  split
  · exact (continues_wait _ clock (by simp)).tell (by simp)
  · exact (continues_wait _ clock (by simp)).tell (by simp)

theorem continues_afterPoll (status : CaptureStatus) (deadline : ℕ) :
    Continues f clock (f.afterPoll clock status deadline) := by
  unfold Flow.afterPoll
  dsimp only
  split
  · exact (continues_throws _ clock _).tell (by simp)
  · split
    · exact (continues_wait _ clock (by simp)).tell (by simp)
    · exact (continues_pollLoop _ clock deadline).tell (by simp)

theorem continues_afterCapture (s : Uuid) (i : Fin ANGLES.length) (result : Option SessionRow) :
    Continues f clock (f.afterCapture clock s i result) := by
  cases result with
  | none => exact continues_throws f clock _
  | some result =>
      simp only [Flow.afterCapture]
      split
      · exact (continues_wait _ clock (by simp)).tell (by simp)
      · exact (continues_poseLoop _ clock s (i + 1)).tell (by simp)

theorem continues_resume (t : Turn) (h : ∀ outcome, f.awaits ≠ .ended outcome) :
    Continues f t.clock (f.resume t) := by
  unfold Flow.resume
  split
  · split
    · exact continues_throws f _ _
    · exact continues_pollLoop f _ _
  · exact continues_wait f _ (by simp)
  · split
    · exact continues_pollLoop f _ _
    · exact continues_afterPoll f _ _ _
  · split
    · exact continues_throws f _ _
    · exact continues_uploadLoop f _ _ _
    · exact continues_throws f _ _
    · exact continues_poseLoop f _ _ _
  · split
    · exact continues_throws f _ _
    · exact continues_wait f _ (by simp)
  · split
    · exact continues_throws f _ _
    · exact continues_uploadLoop f _ _ _
  · exact continues_wait f _ (by simp)
  · split
    · exact continues_throws f _ _
    · exact continues_afterCapture f _ _ _ _
  · exact continues_poseLoop f _ _ _
  · split
    · exact continues_throws f _ _
    · exact ⟨rfl, rfl, rfl, fun _ => Or.inr ⟨_, rfl⟩, fun _ _ => rfl⟩
  · next hended => exact absurd hended (h _)

end Continues

theorem continues_next {f f' : Flow} {t : Turn} (h : flow.next f t = some f') :
    Continues f t.clock f' := by
  obtain ⟨hawaits, _, rfl⟩ := next_eq_some h
  exact continues_resume f t hawaits

def Await.belongsTo : Camera → Await → Bool
  | .macbook, .posePause _ _ => false
  | .macbook, .piCameraCapture _ _ => false
  | .macbook, .retryPause _ _ => false
  | .pi, .startMacbookCapture => false
  | .pi, .pollPause _ => false
  | .pi, .pollMacbookCaptureStatus _ => false
  | .pi, .download _ _ => false
  | .pi, .upload _ _ _ => false
  | _, _ => true

section Belongs

variable (f : Flow) (clock : ℕ)

theorem belongs_pollLoop (deadline : ℕ) :
    (f.pollLoop clock deadline).awaits.belongsTo .macbook = true := by
  unfold Flow.pollLoop
  split <;> rfl

theorem belongs_afterPoll (status : CaptureStatus) (deadline : ℕ) :
    (f.afterPoll clock status deadline).awaits.belongsTo .macbook = true := by
  unfold Flow.afterPoll
  dsimp only
  split
  · rfl
  · split
    · rfl
    · exact belongs_pollLoop _ _ _

theorem belongs_uploadLoop (s : Uuid) (i : ℕ) :
    (f.uploadLoop clock s i).awaits.belongsTo .macbook = true := by
  unfold Flow.uploadLoop
  split <;> rfl

theorem belongs_poseLoop (s : Uuid) (i : ℕ) :
    (f.poseLoop clock s i).awaits.belongsTo .pi = true := by
  unfold Flow.poseLoop
  split <;> rfl

theorem belongs_afterCapture (s : Uuid) (i : Fin ANGLES.length) (result : Option SessionRow) :
    (f.afterCapture clock s i result).awaits.belongsTo .pi = true := by
  cases result with
  | none => rfl
  | some result =>
      simp only [Flow.afterCapture]
      split
      · rfl
      · exact belongs_poseLoop _ _ _ _

end Belongs

theorem belongs_resume_macbook {f : Flow} (t : Turn) (hcamera : f.camera = .macbook)
    (h : f.awaits.belongsTo .macbook = true) : (f.resume t).awaits.belongsTo .macbook = true := by
  cases ha : f.awaits with
  | posePause | piCameraCapture | retryPause => simp [ha, Await.belongsTo] at h
  | startMacbookCapture =>
      simp only [Flow.resume, ha]
      split
      · rfl
      · exact belongs_pollLoop _ _ _
  | pollPause deadline =>
      simp only [Flow.resume, ha]
      rfl
  | pollMacbookCaptureStatus deadline =>
      simp only [Flow.resume, ha]
      split
      · exact belongs_pollLoop _ _ _
      · exact belongs_afterPoll _ _ _ _
  | startMemberFaceEnrollment =>
      simp only [Flow.resume, ha, hcamera]
      split
      · rfl
      · exact belongs_uploadLoop _ _ _ _
      · rfl
      · next hpi _ => cases hpi
  | download s i =>
      simp only [Flow.resume, ha]
      split <;> rfl
  | upload s i jpeg =>
      simp only [Flow.resume, ha]
      split
      · rfl
      · exact belongs_uploadLoop _ _ _ _
  | completePiEnrollment s =>
      simp only [Flow.resume, ha]
      split <;> rfl
  | ended outcome =>
      simp only [Flow.resume, ha]
      rfl

theorem belongs_resume_pi {f : Flow} (t : Turn) (hcamera : f.camera = .pi)
    (h : f.awaits.belongsTo .pi = true) : (f.resume t).awaits.belongsTo .pi = true := by
  cases ha : f.awaits with
  | startMacbookCapture | pollPause | pollMacbookCaptureStatus | download | upload =>
      simp [ha, Await.belongsTo] at h
  | startMemberFaceEnrollment =>
      simp only [Flow.resume, ha, hcamera]
      split
      · rfl
      · next hmacbook _ => cases hmacbook
      · rfl
      · exact belongs_poseLoop _ _ _ _
  | posePause s i =>
      simp only [Flow.resume, ha]
      rfl
  | piCameraCapture s i =>
      simp only [Flow.resume, ha]
      split
      · rfl
      · exact belongs_afterCapture _ _ _ _ _
  | retryPause s i =>
      simp only [Flow.resume, ha]
      exact belongs_poseLoop _ _ _ _
  | completePiEnrollment s =>
      simp only [Flow.resume, ha]
      split <;> rfl
  | ended outcome =>
      simp only [Flow.resume, ha]
      rfl

/-- A flow stays with its camera. -/
theorem belongs_resume {f : Flow} (t : Turn) (h : f.awaits.belongsTo f.camera = true) :
    (f.resume t).awaits.belongsTo f.camera = true := by
  cases hcamera : f.camera with
  | macbook => exact belongs_resume_macbook t hcamera (hcamera ▸ h)
  | pi => exact belongs_resume_pi t hcamera (hcamera ▸ h)

theorem belongs_next {f f' : Flow} {t : Turn} (h : f.awaits.belongsTo f.camera = true)
    (hnext : flow.next f t = some f') : f'.awaits.belongsTo f'.camera = true := by
  rw [(continues_next hnext).camera]
  obtain ⟨_, _, rfl⟩ := next_eq_some hnext
  exact belongs_resume t h

/-- The two flows at their first await. -/
theorem enroll_cases {camera : Camera} {enrollingMemberId : Option Uuid} {member : Member}
    {clock : ℕ} {f : Flow} (h : enroll camera enrollingMemberId member clock = some f) :
    (camera = .macbook ∧ f = ⟨.macbook, member, .startMacbookCapture, clock,
        ⟨5, .openingMacbookCamera, 0⟩, some member.id, none⟩) ∨
      (camera = .pi ∧ f = ⟨.pi, member, .startMemberFaceEnrollment, clock,
        ⟨5, .startingEnrollment, 0⟩, some member.id, none⟩) := by
  cases camera with
  | macbook =>
      obtain ⟨_, hf⟩ := Option.ite_none_left_eq_some.mp h
      exact Or.inl ⟨rfl, (Option.some.inj hf).symm⟩
  | pi =>
      obtain ⟨_, hf⟩ := Option.ite_none_left_eq_some.mp h
      exact Or.inr ⟨rfl, (Option.some.inj hf).symm⟩

theorem belongs_enroll {camera : Camera} {enrollingMemberId : Option Uuid} {member : Member}
    {clock : ℕ} {f : Flow} (h : enroll camera enrollingMemberId member clock = some f) :
    f.camera = camera ∧ f.awaits.belongsTo camera = true := by
  rcases enroll_cases h with ⟨rfl, rfl⟩ | ⟨rfl, rfl⟩
  · exact ⟨rfl, rfl⟩
  · exact ⟨rfl, rfl⟩

end FacialCamera.Screen
