import FacialCamera.Backend.Locks
import FacialCamera.Recognition.Interleaved

/-! # Under the locks

Without their locks the handlers are those of the other modules. With them no two threads are
in the face library at once, nor at the frame of the camera, nor at the cooldown stamp, and the
threads cannot keep each other waiting for ever.
-/

namespace FacialCamera.Recognition

open FacialCamera.Core Backend

/-! ## The handlers without their locks -/

def faceOf : EncoderOutcome → Proc (Option (Encoding × ℚ))
  | .raises => .fault
  | .noFace => return none
  | .face encoding quality => return some (encoding, quality)

/-- The work of an event as its surroundings answer it. A frame is the outcome of the encoder
on it; what the capture loop does is part of no event. -/
def carriedOut (sight : Sight) (encode : Jpeg → EncoderOutcome) :
    (w : Work EncoderOutcome) → Proc w.Answer
  | .process c => issue c
  | .latestFrame attempt => return sight.frames attempt
  | .latestJpeg => return sight.jpeg
  | .readFrame => return none
  | .develop frame => return (frame, [])
  | .publish _ _ => return ()
  | .encodeFaceFromImage frame => faceOf frame
  | .encodeFaceFromJpeg jpeg => faceOf (encode jpeg)
  | .compareFace unknown known => do
      return Backend.compareFace sight.library (← issue .readThreshold) unknown known

variable {sight : Sight} {encode : Jpeg → EncoderOutcome}

theorem unlocked_work (w : Work EncoderOutcome) :
    (Locked.work w).unlocked (carriedOut sight encode) = carriedOut sight encode w :=
  Program.unlocked_attempt w

@[simp] theorem unlocked_getFrameRgb (attempt : Nat) :
    (Locked.getFrameRgb attempt).unlocked (carriedOut sight encode) =
      .done (sight.frames attempt) :=
  (Program.unlocked_withLock _ _).trans (unlocked_work (.latestFrame attempt))

@[simp] theorem unlocked_captureSnapshot :
    Locked.captureSnapshot.unlocked (carriedOut sight encode) =
      .done (captureSnapshot sight.jpeg) := rfl

@[simp] theorem unlocked_plain {α : Type} (p : Proc α) :
    (Locked.plain p).unlocked (carriedOut sight encode) = p :=
  Program.unlocked_translate (fun c => unlocked_work (.process c)) p

theorem unlocked_grabAttempts (attempts : List Nat) :
    (Locked.grabAttempts attempts).unlocked (carriedOut sight encode) =
      faceOf (grabAttempts sight.frames attempts) := by
  induction attempts with
  | nil => rfl
  | cons attempt rest ih =>
      simp only [Locked.grabAttempts, Program.unlocked_bind, unlocked_getFrameRgb,
        Program.done_bind, grabAttempts]
      cases sight.frames attempt with
      | none => exact ih
      | some outcome =>
          simp only [Program.unlocked_bind]
          cases outcome with
          | raises => rfl
          | noFace => exact ih
          | face encoding quality => rfl

theorem unlocked_scan (noFace : Proc Unit) :
    (Locked.scan noFace).unlocked (carriedOut sight encode) =
      match grabFaceEncoding sight.frames with
      | .raises => .fault
      | .noFace => do
          noFace
          return none
      | .face encoding _ => do
          let known ← Db.getAllFaceEncodings
          let threshold ← issue .readThreshold
          return some (captureSnapshot sight.jpeg,
            compareFace sight.library threshold encoding known) := by
  simp only [Locked.scan, Locked.grabFaceEncoding, Program.unlocked_withLock,
    Program.unlocked_bind, unlocked_grabAttempts, grabFaceEncoding]
  cases grabAttempts sight.frames (List.range 3) with
  | raises => rfl
  | noFace => simp [faceOf]
  | face encoding quality =>
      simp only [faceOf, Program.pure_eq_done, Program.done_bind, Program.unlocked_bind,
        unlocked_captureSnapshot, unlocked_plain]
      exact bind_congr fun _ => rfl

theorem unlocked_onMotionDetected (sight : Sight) (encode : Jpeg → EncoderOutcome) :
    Locked.onMotionDetected.unlocked (carriedOut sight encode) = onMotionDetected sight := by
  simp only [Locked.onMotionDetected, onMotionDetected, Program.unlocked_bind, unlocked_plain,
    Program.unlocked_withLock, apply_ite (Program.unlocked _)]
  refine bind_congr fun enabled => if_congr Iff.rfl rfl ?_
  refine bind_congr fun claimed => if_congr Iff.rfl rfl ?_
  refine bind_congr fun _ => ?_
  rw [unlocked_scan]
  cases grabFaceEncoding sight.frames with
  | raises => rfl
  | noFace => exact (Program.bind_assoc _ _ _).trans (Program.bind_done _)
  | face encoding quality =>
      simp only [Program.bind_assoc, Program.pure_eq_done, Program.done_bind]
      refine bind_congr fun known => ?_
      refine bind_congr fun threshold => ?_
      cases recognizedName (compareFace sight.library threshold encoding known) with
      | none => exact unlocked_plain _
      | some name => exact unlocked_plain _

theorem unlocked_doorbell (sight : Sight) (encode : Jpeg → EncoderOutcome) :
    Locked.doorbell.unlocked (carriedOut sight encode) = runDoorbellScan sight := by
  simp only [Locked.doorbell, Locked.runDoorbellScan, runDoorbellScan, Program.unlocked_bind,
    unlocked_plain, Program.unlocked_withLock]
  refine bind_congr fun _ => ?_
  rw [unlocked_scan]
  cases grabFaceEncoding sight.frames with
  | raises => rfl
  | noFace =>
      simp only [Program.bind_assoc, Program.pure_eq_done, Program.done_bind]
      rfl
  | face encoding quality =>
      simp only [Program.bind_assoc, Program.pure_eq_done, Program.done_bind]
      refine bind_congr fun known => ?_
      refine bind_congr fun threshold => ?_
      cases recognizedName (compareFace sight.library threshold encoding known) with
      | none => exact unlocked_plain _
      | some name => exact unlocked_plain _

theorem unlocked_recordCapture {outcome : EncoderOutcome} {p : Locked.Proc EncoderOutcome _}
    (hp : p.unlocked (carriedOut sight encode) = faceOf outcome) (texts : CaptureTexts)
    (m s : Uuid) (angle : Backend.Angle) :
    (Locked.recordCapture texts m s angle p).unlocked (carriedOut sight encode) =
      recordCapture texts m s angle outcome := by
  simp only [Locked.recordCapture, Program.unlocked_bind, Program.unlocked_withLock, hp,
    unlocked_plain]
  cases outcome with
  | raises => rfl
  | noFace => rfl
  | face encoding quality => rfl

theorem unlocked_uploadCapture (m s : Uuid) (angle : String) (image : Jpeg) :
    (Locked.uploadCapture m s angle image).unlocked (carriedOut sight encode) =
      uploadCapture m s angle (encode image) := by
  simp only [Locked.uploadCapture, uploadCapture, Program.unlocked_bind, unlocked_plain,
    Program.unlocked_withLock]
  refine bind_congr fun refused => ?_
  cases refused with
  | some refusal => rfl
  | none =>
      refine (Program.unlocked_bind _ _).trans ?_
      rw [unlocked_plain]
      refine bind_congr fun _ => (Program.unlocked_withLock _ _).trans ?_
      exact unlocked_recordCapture (unlocked_work (.encodeFaceFromJpeg image)) _ _ _ _

theorem unlocked_recordBody (m s : Uuid) (body : Option ImageBody) :
    (Locked.recordBody m s body).unlocked (carriedOut sight encode) =
      recordBody m s (body.map fun body => body.encoded encode) := by
  rcases body with _ | ⟨_ | angle, _ | _ | image⟩
  · rfl
  · rfl
  · rfl
  · rfl
  · rfl
  · rfl
  · exact unlocked_recordCapture (unlocked_work (.encodeFaceFromJpeg image)) _ _ _ _

theorem unlocked_uploadCaptureB64 (m s : Uuid) (body : Option ImageBody) :
    (Locked.uploadCaptureB64 m s body).unlocked (carriedOut sight encode) =
      uploadCaptureB64 m s (body.map fun body => body.encoded encode) := by
  simp only [Locked.uploadCaptureB64, uploadCaptureB64, Program.unlocked_bind, unlocked_plain,
    Program.unlocked_withLock]
  refine bind_congr fun refused => ?_
  cases refused with
  | some refusal => rfl
  | none =>
      refine (Program.unlocked_bind _ _).trans ?_
      rw [unlocked_plain]
      exact bind_congr fun _ => (Program.unlocked_withLock _ _).trans (unlocked_recordBody m s body)

theorem unlocked_piCameraCapture (m s : Uuid) (angle : String) :
    (Locked.piCameraCapture m s angle).unlocked (carriedOut sight encode) =
      piCameraCapture m s angle (sight.frames 0) := by
  simp only [Locked.piCameraCapture, piCameraCapture, Program.unlocked_bind, unlocked_plain]
  refine bind_congr fun refused => ?_
  cases refused with
  | some refusal => rfl
  | none =>
      refine (Program.unlocked_bind _ _).trans ?_
      rw [unlocked_getFrameRgb, Program.done_bind]
      cases sight.frames 0 with
      | none => rfl
      | some frame =>
          exact unlocked_recordCapture (unlocked_work (.encodeFaceFromImage frame)) _ _ _ _

/-- Without its locks each handler is the one of its request. -/
theorem unlocked_handler (seen : Surroundings) (a : ApiRequest) :
    (Locked.handler seen a).unlocked (carriedOut seen.sight seen.encode) = a.handler seen := by
  cases a with
  | uploadCapture m s angle image =>
      simp only [Locked.handler, Program.unlocked_bind, unlocked_uploadCapture]
      rfl
  | uploadCaptureB64 m s body =>
      simp only [Locked.handler, Program.unlocked_bind, unlocked_uploadCaptureB64]
      rfl
  | piCameraCapture m s angle =>
      simp only [Locked.handler, Program.unlocked_withLock, Program.unlocked_bind,
        unlocked_piCameraCapture]
      rfl
  | doorbell =>
      simp only [Locked.handler, Program.unlocked_withLock, Program.unlocked_bind,
        unlocked_doorbell]
      rfl
  | _ => exact (Program.unlocked_withLock _ _).trans (unlocked_plain _)

/-! ## The order of the locks -/

/-- A thread takes a lock only where it comes after those that the thread holds. -/
def precedence : Lock → Nat
  | .loop => 0
  | .doorbell => 1
  | .motion => 1
  | .face => 2
  | .camera => 3

abbrev Below (held : List Lock) (l : Lock) : Prop :=
  ∀ h ∈ held, precedence h < precedence l

def guardedBy : Work EncoderOutcome → Option Lock
  | .process .claimMotion => some .motion
  | .latestFrame _ | .latestJpeg | .publish _ _ => some .camera
  | .encodeFaceFromImage _ | .encodeFaceFromJpeg _ | .compareFace _ _ => some .face
  | _ => none

def Guards (held : List Lock) (w : Work EncoderOutcome) : Prop :=
  ∀ l, guardedBy w = some l → l ∈ held

/-- Holding these locks a part of a handler keeps to the order and the guards, and leaves with
the same locks. -/
abbrev Disciplined {α : Type} (held : List Lock) (p : Locked.Proc EncoderOutcome α) : Prop :=
  p.Nested precedence Guards held held

section Disciplined

variable {α : Type} {held : List Lock}

theorem Below.cons {l m : Lock} (h : Below held l) (hlm : precedence l < precedence m) :
    Below (l :: held) m :=
  List.forall_mem_cons.mpr ⟨hlm, fun l' hl' => (h l' hl').trans hlm⟩

theorem disciplined_work {w : Work EncoderOutcome} {l : Lock} (hw : guardedBy w = some l)
    (hl : l ∈ held) : Disciplined held (Locked.work w) :=
  Program.nested_attempt fun l' hl' => by rwa [← Option.some.inj (hw.symm.trans hl')]

theorem disciplined_plain {p : Proc α} (hp : p.Calls (· ≠ .claimMotion)) :
    Disciplined held (Locked.plain p) := by
  refine Program.nested_translate (fun c hc => Program.nested_attempt fun l hl => ?_) hp
  cases c <;> first | exact absurd rfl hc | cases hl

theorem disciplined_camera {w : Work EncoderOutcome} (hheld : Below held .camera)
    (hw : guardedBy w = some .camera) :
    Disciplined held (Program.withLock .camera (Locked.work w)) :=
  Program.nested_withLock hheld (disciplined_work hw (List.mem_cons_self ..))

theorem disciplined_grabAttempts (hheld : Below held .camera) (hface : .face ∈ held)
    (attempts : List Nat) : Disciplined held (Locked.grabAttempts attempts) := by
  induction attempts with
  | nil => rfl
  | cons attempt rest ih =>
      refine (disciplined_camera hheld rfl).bind fun frame => ?_
      cases frame with
      | none => exact ih
      | some frame =>
          refine (disciplined_work rfl hface).bind fun face => ?_
          cases face with
          | none => exact ih
          | some face => rfl

theorem disciplined_captureSnapshot (hheld : Below held .camera) :
    Disciplined held Locked.captureSnapshot :=
  (disciplined_camera hheld rfl).bind fun _ => rfl

theorem disciplined_scan (hheld : Below held .face) {noFace : Proc Unit}
    (hnoFace : noFace.Calls (· ≠ .claimMotion)) :
    Disciplined held (Locked.scan noFace) := by
  have hbelow : Below (.face :: held) .camera := hheld.cons (by decide)
  have hface : .face ∈ .face :: held := List.mem_cons_self ..
  refine Program.nested_withLock hheld ?_
  refine (disciplined_grabAttempts hbelow hface _).bind fun found => ?_
  rcases found with _ | ⟨encoding, quality⟩
  · exact (disciplined_plain hnoFace).bind fun _ => rfl
  · refine (disciplined_captureSnapshot hbelow).bind fun snapshot => ?_
    refine (disciplined_plain (by simp)).bind fun known => ?_
    exact (disciplined_work rfl hface).bind fun _ => rfl

theorem disciplined_onMotionDetected : Disciplined [] Locked.onMotionDetected := by
  have hclaim : Disciplined [.motion] (Locked.plain (issue .claimMotion)) :=
    Program.nested_translate (P := (· = .claimMotion))
      (fun c hc => hc ▸ disciplined_work rfl (List.mem_cons_self ..)) ⟨rfl, fun _ => trivial⟩
  refine (disciplined_plain (by simp)).bind fun enabled => ?_
  cases enabled with
  | false => rfl
  | true =>
      refine (Program.nested_withLock (by simp) hclaim).bind fun claimed => ?_
      cases claimed with
      | false => rfl
      | true =>
          refine (disciplined_plain (by simp)).bind fun _ => ?_
          refine (disciplined_scan (by decide) (by simp)).bind fun scanned => ?_
          rcases scanned with _ | ⟨snapshot, outcome⟩
          · rfl
          · dsimp only
            cases recognizedName outcome with
            | none => exact disciplined_plain (by simp)
            | some name => exact disciplined_plain (by simp [scheduleRelock])

theorem disciplined_doorbell (hheld : Below held .doorbell) :
    Disciplined held Locked.doorbell := by
  have hbelow : Below (.doorbell :: held) .face := hheld.cons (by decide)
  refine Program.nested_withLock hheld ?_
  refine (disciplined_plain (by simp)).bind fun _ => ?_
  refine (disciplined_scan hbelow (by simp)).bind fun scanned => ?_
  rcases scanned with _ | ⟨snapshot, outcome⟩
  · rfl
  · dsimp only
    cases recognizedName outcome with
    | none => exact disciplined_plain (by simp)
    | some name => exact disciplined_plain (by simp [scheduleRelock])

theorem calm_of_routine (c : Call) (hc : routine c = true) : c ≠ .claimMotion := by
  rintro rfl
  cases hc

theorem calm_of_desk (c : Call) (hc : Enrollment.deskCall c = true) : c ≠ .claimMotion :=
  calm_of_routine c (routine_of_desk c hc)

theorem disciplined_guardCapture (texts : CaptureTexts) (m s : Uuid) :
    Disciplined held (Locked.plain (guardCapture texts m s)) :=
  disciplined_plain (Enrollment.calls_guardCapture calm_of_desk texts m s)

theorem disciplined_recordCapture (hheld : Below held .face)
    {encode : Locked.Proc EncoderOutcome (Option (Encoding × ℚ))}
    (hencode : Disciplined (.face :: held) encode) (texts : CaptureTexts) (m s : Uuid)
    (angle : Backend.Angle) : Disciplined held (Locked.recordCapture texts m s angle encode) := by
  refine (Program.nested_withLock hheld hencode).bind fun face => ?_
  exact disciplined_plain (Enrollment.calls_recordCapture calm_of_desk texts m s angle _)

theorem disciplined_recordBody (m s : Uuid) (body : Option ImageBody) :
    Disciplined [.loop] (Locked.recordBody m s body) := by
  rcases body with _ | ⟨_ | angle, _ | _ | image⟩
  · rfl
  · rfl
  · rfl
  · rfl
  · rfl
  · rfl
  · exact disciplined_recordCapture (by decide)
      (disciplined_work (w := .encodeFaceFromJpeg image) rfl (List.mem_cons_self ..)) _ _ _ _

/-- The loop is not kept while an upload reads its body. -/
theorem disciplined_uploadCapture (m s : Uuid) (angle : String) (image : Jpeg) :
    Disciplined [] (Locked.uploadCapture m s angle image) := by
  refine (Program.nested_withLock (by simp) (disciplined_guardCapture _ _ _)).bind fun refused => ?_
  cases refused with
  | some refusal => rfl
  | none =>
      refine (disciplined_plain (by simp)).bind fun _ => Program.nested_withLock (by simp) ?_
      exact disciplined_recordCapture (by decide)
        (disciplined_work (w := .encodeFaceFromJpeg image) rfl (List.mem_cons_self ..)) _ _ _ _

theorem disciplined_uploadCaptureB64 (m s : Uuid) (body : Option ImageBody) :
    Disciplined [] (Locked.uploadCaptureB64 m s body) := by
  refine (Program.nested_withLock (by simp) (disciplined_guardCapture _ _ _)).bind fun refused => ?_
  cases refused with
  | some refusal => rfl
  | none =>
      refine (disciplined_plain (by simp)).bind fun _ => Program.nested_withLock (by simp) ?_
      exact disciplined_recordBody m s body

theorem disciplined_piCameraCapture (m s : Uuid) (angle : String) :
    Disciplined [.loop] (Locked.piCameraCapture m s angle) := by
  refine (disciplined_guardCapture _ _ _).bind fun refused => ?_
  cases refused with
  | some refusal => rfl
  | none =>
      refine (disciplined_camera (by decide) rfl).bind fun frame => ?_
      cases frame with
      | none => rfl
      | some frame =>
          exact disciplined_recordCapture (by decide)
            (disciplined_work (w := .encodeFaceFromImage frame) rfl (List.mem_cons_self ..)) _ _ _ _

theorem disciplined_plainHandler (seen : Surroundings) {a : ApiRequest}
    (ha : (a.handler seen).Calls (· ≠ .claimMotion)) :
    Disciplined [] (Program.withLock .loop (Locked.plain (a.handler seen))) :=
  Program.nested_withLock (by simp) (disciplined_plain ha)

/-- Under the loop only the doorbell and the captures take another lock. -/
theorem disciplined_handler (seen : Surroundings) (a : ApiRequest) :
    Disciplined [] (Locked.handler seen a) := by
  cases a with
  | uploadCapture m s angle image =>
      exact (disciplined_uploadCapture m s angle image).bind fun _ => rfl
  | uploadCaptureB64 m s body => exact (disciplined_uploadCaptureB64 m s body).bind fun _ => rfl
  | piCameraCapture m s angle =>
      exact Program.nested_withLock (by simp)
        ((disciplined_piCameraCapture m s angle).bind fun _ => rfl)
  | doorbell =>
      exact Program.nested_withLock (by simp)
        ((disciplined_doorbell (by decide)).bind fun _ => rfl)
  | doorLock => exact disciplined_plainHandler seen (by simp [ApiRequest.handler, answer, doorLock])
  | doorUnlock =>
      exact disciplined_plainHandler seen
        (by simp [ApiRequest.handler, answer, doorUnlock, scheduleRelock])
  | _ =>
      exact disciplined_plainHandler seen
        (calls_request calm_of_routine seen (by simp) (by simp) (by simp) (by simp)).of_forget

theorem disciplined_captureLoop : Disciplined [] Locked.captureLoop := by
  refine Program.Nested.recovering ?_
  refine (Program.nested_attempt (by simp [Guards, guardedBy])).bind fun frame => ?_
  cases frame with
  | none => rfl
  | some frame =>
      refine (Program.nested_attempt (by simp [Guards, guardedBy])).bind fun developed => ?_
      exact disciplined_camera (by decide) rfl

end Disciplined

/-! ## The threads -/

/-- What a thread of the process carries out: an event, one turn of the capture loop, or one of
a stream. -/
inductive Thread where
  | event (e : Event)
  | capture
  | stream

def Thread.program : Thread → Locked.Proc EncoderOutcome Unit
  | .event (.wait _) => .done ()
  | .event (.request a seen) => (Locked.handler seen a).forget
  | .event (.motion _) => Locked.onMotionDetected
  | .event (.fire _) => Locked.plain doRelock
  | .capture => Locked.captureLoop
  | .stream => Locked.generateMjpeg

theorem disciplined_program (t : Thread) : Disciplined [] t.program := by
  cases t with
  | event e =>
      cases e with
      | wait clock => rfl
      | request a seen => exact (disciplined_handler seen a).bind fun _ => rfl
      | motion sight => exact disciplined_onMotionDetected
      | fire i => exact disciplined_plain (by simp [doRelock])
  | capture => exact disciplined_captureLoop
  | stream => exact (disciplined_camera (by decide) rfl).bind fun _ => rfl

/-- Without its locks a thread of an event with these surroundings is the event's program. -/
theorem unlocked_program {e : Event} (hmotion : ∀ seen, e = .motion seen → seen = sight)
    (hrequest : ∀ a seen, e = .request a seen → seen.sight = sight ∧ seen.encode = encode) :
    (Thread.event e).program.unlocked (carriedOut sight encode) = e.program := by
  cases e with
  | wait clock => rfl
  | request a seen =>
      obtain ⟨rfl, rfl⟩ := hrequest a seen rfl
      refine (Program.unlocked_bind _ _).trans ?_
      rw [unlocked_handler]
      rfl
  | motion seen =>
      obtain rfl := hmotion seen rfl
      exact unlocked_onMotionDetected seen encode
  | fire i => exact unlocked_plain doRelock

abbrev Running : Type := Locks.Worker Thread Lock (Work EncoderOutcome) Work.Answer

def threads :
    Machine (List Running) (Locks.Shift Thread (Work EncoderOutcome) Work.Answer) :=
  Locks.sharing Thread.program

variable {ts : List (Transition (List Running)
    (Locks.Shift Thread (Work EncoderOutcome) Work.Answer))} {ws : List Running}

/-- Two threads never hold one lock nor are at calls under one lock, the face library among them,
and a thread that has ended holds none, whatever raises. -/
theorem exclusive_of_run (hrun : threads.Run [] ts ws) :
    (∀ (i j : Nat) (w v : Running), ws[i]? = some w → ws[j]? = some v → i ≠ j →
      w.held.Disjoint v.held) ∧
    (∀ (i j : Nat) (w v : Running) (l : Lock), ws[i]? = some w → ws[j]? = some v →
      w.calls.bind guardedBy = some l → v.calls.bind guardedBy = some l → i = j) ∧
    ∀ w ∈ ws, w.rest.isEnded = true → w.held = [] := by
  have h := Locks.orderly_of_sharing disciplined_program hrun
  refine ⟨fun i j w v hw hv hij l => h.apart i j w v hw hv hij l, ?_, ?_⟩
  · intro i j w v l hw hv hwl hvl
    obtain ⟨c, hc, hcl⟩ := Option.bind_eq_some_iff.mp hwl
    obtain ⟨d, hd, hdl⟩ := Option.bind_eq_some_iff.mp hvl
    exact h.exclusive hw hv hc hd (fun held hheld => hheld l hcl) (fun held hheld => hheld l hdl)
  · exact fun w hw hended => h.held_of_ended hw hended

def lively : (w : Work EncoderOutcome) → Option w.Answer
  | .process (.readFlag _) => some true
  | .process .claimMotion => some true
  | .process (.addLog _ _ _ _) => some ()
  | .latestFrame _ => some (some .noFace)
  | _ => none

/-- The bell rings while a motion is in the face library: the loop waits with the handler. -/
theorem exclusive_bellDuringMotion : ∃ ts ws, threads.Run [] ts ws ∧
    ws.map (fun w => (w.held, w.calls.bind guardedBy, w.asks)) =
      [([.face], some .face, none), ([.doorbell, .loop], none, some .face)] ∧
    (∀ (i j : Nat) (w v : Running), ws[i]? = some w → ws[j]? = some v → i ≠ j →
      w.held.Disjoint v.held) ∧
    (∀ (i j : Nat) (w v : Running) (l : Lock), ws[i]? = some w → ws[j]? = some v →
      w.calls.bind guardedBy = some l → v.calls.bind guardedBy = some l → i = j) ∧
    ∀ w ∈ ws, w.rest.isEnded = true → w.held = [] := by
  have hend : (threads.trace [] ([.start (.event (.motion nobody.sight)),
      .start (.event (.request .doorbell nobody))] ++ List.replicate 9 (.step 0 lively) ++
      List.replicate 3 (.step 1 lively))).map (fun (_, ws) =>
        ws.map fun w => (w.held, w.calls.bind guardedBy, w.asks)) =
      some [([.face], some .face, none), ([.doorbell, .loop], none, some .face)] := by
    decide +kernel
  obtain ⟨ts, ws, hrun, hview⟩ := Machine.exists_run_of_view hend
  exact ⟨ts, ws, hrun, hview, exclusive_of_run hrun⟩

/-- However the threads take turns, once none is started any more and one moves whenever one can,
all of them come to their end and every lock is free. -/
theorem drained_of_run (hrun : threads.Run [] ts ws) {f : ℕ → List Running}
    (hf : Locks.Schedule Thread.program f) (hstart : f 0 = ws) : ∃ n, Locks.Finished (f n) :=
  (Locks.orderly_of_sharing disciplined_program hrun).drains hf hstart

def brokenStream : ℕ → List Running
  | 0 => [⟨.stream, [], Thread.stream.program⟩]
  | n + 1 => (threads.next (brokenStream n) (.step 0 fun _ => none)).getD (brokenStream n)

theorem brokenStream_add_three (n : ℕ) : brokenStream (n + 3) = [⟨.stream, [], .fault⟩] := by
  induction n with
  | zero => rfl
  | succ n ih =>
      rw [brokenStream, ih]
      rfl

theorem schedule_brokenStream : Locks.Schedule Thread.program brokenStream := by
  intro n
  match n with
  | 0 => exact Or.inl ⟨0, fun _ => none, rfl⟩
  | 1 => exact Or.inl ⟨0, fun _ => none, rfl⟩
  | 2 => exact Or.inl ⟨0, fun _ => none, rfl⟩
  | n + 3 =>
      refine Or.inr ⟨?_, (brokenStream_add_three (n + 1)).trans (brokenStream_add_three n).symm⟩
      rw [brokenStream_add_three]
      rintro ⟨ws', i, answer, hnext⟩
      cases i <;> cases hnext

theorem drained_brokenStream : (∃ ts, threads.Run [] ts (brokenStream 0)) ∧
    Locks.Schedule Thread.program brokenStream ∧ ∃ n, Locks.Finished (brokenStream n) := by
  have hrun : threads.Run [] [⟨[], .start .stream, brokenStream 0⟩] (brokenStream 0) :=
    Machine.Run.single rfl
  exact ⟨⟨_, hrun⟩, schedule_brokenStream, drained_of_run hrun schedule_brokenStream rfl⟩

end FacialCamera.Recognition
