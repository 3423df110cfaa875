import FacialCamera.Backend.Api
import FacialCamera.Core.Machine
import FacialCamera.Core.Register

/-! # The camera service and what its readers see

`CameraService` with its capture threads, the recognition runs that read a frame up to
three times and then the JPEG of the moment, and the streams. The frame and the JPEG
are stored under one lock and read one at a time, so a run sees captures in the order
they were made, and the picture it keeps is that of the frame it recognized or of a
later one.
-/

namespace FacialCamera.Camera

open FacialCamera.Core Backend

/-! ## The service -/

inductive CameraBackend where
  | picamera2
  | opencv
  deriving DecidableEq

/-- What the service does with pictures: the colour correction, the JPEG encoder (`none`
where it raises) and the frame it makes up without a camera. -/
structure Optics (Image : Type) where
  correctNoir : Image → Image
  encodeJpeg : Image → Option Jpeg
  placeholder : Image

inductive Shot (Image : Type) where
  | raises
  | missing
  | frame (image : Image)

inductive LoopPhase (Image : Type) where
  | checking
  | reading
  | publishing (frame : Image) (jpeg : Jpeg)
  | sleeping
  | ended

/-- Where a recognition run is: the attempts of `_grab_face_encoding`, `_capture_snapshot`,
and what it has ended with. -/
inductive LookPhase where
  | attempting
  | shooting (encoding : Encoding) (quality : ℚ)
  | ended (outcome : EncoderOutcome) (jpeg : Option Jpeg)
  deriving DecidableEq

/-- A run with the frames its attempts were given; `encode` answers for the face library. -/
structure Look (Image : Type) where
  encode : Nat → Image → EncoderOutcome
  frames : List (Option Image)
  phase : LookPhase

inductive StreamPhase where
  | checking
  | taking
  | closed

structure Stream where
  sent : List UInt8
  phase : StreamPhase

/-- `camera` says whether `_camera` is set, `starting` how many calls of `start` are at the
camera. -/
structure CameraService (Image : Type) where
  camera : Bool
  starting : Nat
  latestFrame : Option Image
  latestJpeg : Option Jpeg
  running : Bool
  loops : List (LoopPhase Image)
  looks : List (Look Image)
  streams : List Stream

variable {Image : Type}

namespace CameraService

def init : CameraService Image := ⟨false, 0, none, none, false, [], [], []⟩

/-- `start` up to the camera. -/
def start (s : CameraService Image) : CameraService Image :=
  if s.running then s else { s with running := true, starting := s.starting + 1 }

def openCamera (backend : Option CameraBackend) (s : CameraService Image) : CameraService Image :=
  { s with
    starting := s.starting - 1
    camera := s.camera || backend.isSome
    loops := s.loops ++ [.checking] }

/-- The camera raises, before or after it is assigned: there is no thread, and `_running` stays
as it is. -/
def failToOpen (assigned : Bool) (s : CameraService Image) : CameraService Image :=
  { s with starting := s.starting - 1, camera := s.camera || assigned }

/-- `_read_frame`; without a camera a gray frame is made up. -/
def readFrame (optics : Optics Image) (backend : Option CameraBackend) (s : CameraService Image)
    (seen : Shot Image) : Shot Image :=
  if backend.isSome ∧ s.camera then seen else .frame optics.placeholder

/-- The next step of a capture thread; `none` where it has ended. -/
def captureLoop (optics : Optics Image) (backend : Option CameraBackend) (seen : Shot Image)
    (s : CameraService Image) : LoopPhase Image → Option (LoopPhase Image)
  | .checking => some (if s.running then .reading else .ended)
  | .reading =>
      match s.readFrame optics backend seen with
      | .raises => some .sleeping
      | .missing => some .sleeping
      | .frame image =>
          let frame := optics.correctNoir image
          match optics.encodeJpeg frame with
          | none => some .sleeping
          | some jpeg => some (.publishing frame jpeg)
  | .publishing _ _ => some .sleeping
  | .sleeping => some .checking
  | .ended => none

end CameraService

def Look.turn (look : Look Image) (frame : Option Image) (jpeg : Option Jpeg) :
    Option (Look Image) :=
  match look.phase with
  | .attempting =>
      if look.frames.length < 3 then
        let seen := { look with frames := look.frames ++ [frame] }
        match frame.map (look.encode look.frames.length) with
        | none | some .noFace => some seen
        | some .raises => some { seen with phase := .ended .raises none }
        | some (.face encoding quality) => some { seen with phase := .shooting encoding quality }
      else some { look with phase := .ended .noFace none }
  | .shooting encoding quality => some { look with phase := .ended (.face encoding quality) jpeg }
  | .ended _ _ => none

/-- The next step of a stream: the loop condition, then `get_jpeg` and the part it gives. -/
def Stream.turn (stream : Stream) (running : Bool) (jpeg : Option Jpeg) : Option Stream :=
  match stream.phase with
  | .checking => some { stream with phase := if running then .taking else .closed }
  | .taking => some ⟨stream.sent ++ (mjpegPart jpeg).getD [], .checking⟩
  | .closed => none

inductive CameraTurn (Image : Type) where
  | start
  | opened
  | failed (assigned : Bool)
  /-- `stop` up to the `join`. -/
  | halt
  /-- `stop` after the `join`, which waits for three seconds at most. -/
  | release
  | loop (i : Nat) (seen : Shot Image)
  | look (encode : Nat → Image → EncoderOutcome)
  | lookOn (i : Nat)
  | stream
  | streamOn (i : Nat)

def service (optics : Optics Image) (backend : Option CameraBackend) :
    Machine (CameraService Image) (CameraTurn Image) where
  next s
    | .start => some s.start
    | .opened => if 0 < s.starting then some (s.openCamera backend) else none
    | .failed assigned =>
        if 0 < s.starting ∧ backend.isSome then some (s.failToOpen assigned) else none
    | .halt => some { s with running := false }
    | .release => some { s with camera := false }
    | .loop i seen =>
        s.loops[i]?.bind fun phase =>
          (s.captureLoop optics backend seen phase).map fun phase' =>
            let s' := { s with loops := s.loops.set i phase' }
            match phase with
            | .publishing frame jpeg =>
                { s' with latestFrame := some frame, latestJpeg := some jpeg }
            | _ => s'
    | .look encode => some { s with looks := s.looks ++ [⟨encode, [], .attempting⟩] }
    | .lookOn i =>
        s.looks[i]?.bind fun look =>
          (look.turn s.latestFrame s.latestJpeg).map fun look' =>
            { s with looks := s.looks.set i look' }
    | .stream => some { s with streams := s.streams ++ [⟨[], .checking⟩] }
    | .streamOn i =>
        s.streams[i]?.bind fun stream =>
          (stream.turn s.running s.latestJpeg).map fun stream' =>
            { s with streams := s.streams.set i stream' }

/-! ## What was published -/

def publishes (t : Transition (CameraService Image) (CameraTurn Image)) : Option (Image × Jpeg) :=
  match t.label with
  | .loop i _ =>
      match t.before.loops[i]? with
      | some (.publishing frame jpeg) => some (frame, jpeg)
      | _ => none
  | _ => none

/-- The captures of a history, oldest first. -/
def published (ts : List (Transition (CameraService Image) (CameraTurn Image))) :
    List (Image × Jpeg) := ts.filterMap publishes

/-- A thread reads this picture in the transition: the camera delivers it, or there is no
camera and it is the made-up one. -/
def Reads (optics : Optics Image) (backend : Option CameraBackend)
    (t : Transition (CameraService Image) (CameraTurn Image)) (image : Image) : Prop :=
  ∃ i seen, t.label = .loop i seen ∧ t.before.loops[i]? = some .reading ∧
    if backend.isSome ∧ t.before.camera then seen = .frame image else image = optics.placeholder

/-- The capture was made of a picture that a thread has read. -/
def Taken (optics : Optics Image) (backend : Option CameraBackend)
    (ts : List (Transition (CameraService Image) (CameraTurn Image))) (capture : Image × Jpeg) :
    Prop :=
  ∃ t ∈ ts, ∃ image, Reads optics backend t image ∧
    capture.1 = optics.correctNoir image ∧ optics.encodeJpeg capture.1 = some capture.2

/-! ## What a recognition run concludes -/

theorem grabAttempts_append (frames : Nat → Option EncoderOutcome) (before after : List Nat) :
    grabAttempts frames (before ++ after) =
      match grabAttempts frames before with
      | .noFace => grabAttempts frames after
      | outcome => outcome := by
  induction before with
  | nil => rfl
  | cons attempt before ih =>
      simp only [List.cons_append, grabAttempts]
      cases frames attempt with
      | none => exact ih
      | some outcome => cases outcome <;> first | exact ih | rfl

theorem grabAttempts_congr {frames frames' : Nat → Option EncoderOutcome} {attempts : List Nat}
    (h : ∀ k ∈ attempts, frames k = frames' k) :
    grabAttempts frames attempts = grabAttempts frames' attempts := by
  induction attempts with
  | nil => rfl
  | cons attempt attempts ih =>
      have hrest := ih fun k hk => h k (List.mem_cons_of_mem attempt hk)
      simp only [grabAttempts, h attempt List.mem_cons_self, hrest]

def outcomesOf (encode : Nat → Image → EncoderOutcome) (frames : List (Option Image)) (k : Nat) :
    Option EncoderOutcome := frames[k]?.join.map (encode k)

/-- What a run has concluded is what `_grab_face_encoding` concludes from its frames. -/
structure Look.Concluded (look : Look Image) : Prop where
  attempts : look.frames.length ≤ 3
  outcome : match look.phase with
    | .attempting => grabAttempts (outcomesOf look.encode look.frames)
        (List.range look.frames.length) = .noFace
    | .shooting encoding quality =>
        grabFaceEncoding (outcomesOf look.encode look.frames) = .face encoding quality
    | .ended outcome _ => grabFaceEncoding (outcomesOf look.encode look.frames) = outcome

theorem concluded_new (encode : Nat → Image → EncoderOutcome) :
    (⟨encode, [], .attempting⟩ : Look Image).Concluded := ⟨Nat.zero_le 3, rfl⟩

/-- One more attempt. -/
theorem grab_snoc {encode : Nat → Image → EncoderOutcome} {frames : List (Option Image)}
    (frame : Option Image)
    (hnone : grabAttempts (outcomesOf encode frames) (List.range frames.length) = .noFace) :
    grabAttempts (outcomesOf encode (frames ++ [frame])) (List.range (frames.length + 1)) =
      grabAttempts (fun _ => frame.map (encode frames.length)) [0] := by
  have hearlier : grabAttempts (outcomesOf encode (frames ++ [frame]))
      (List.range frames.length) = .noFace := by
    rw [← hnone]
    refine grabAttempts_congr fun k hk => ?_
    have hlt := List.mem_range.mp hk
    simp [outcomesOf, List.getElem?_append_left hlt]
  have hlast : outcomesOf encode (frames ++ [frame]) frames.length =
      frame.map (encode frames.length) := by
    simp [outcomesOf]
  rw [List.range_succ, grabAttempts_append, hearlier]
  simp only [grabAttempts, hlast]

/-- A conclusion drawn early stands after the remaining attempts. -/
theorem grab_of_early {outcomes : Nat → Option EncoderOutcome} {n : Nat} {outcome : EncoderOutcome}
    (hn : n ≤ 3) (h : grabAttempts outcomes (List.range n) = outcome) (hne : outcome ≠ .noFace) :
    grabFaceEncoding outcomes = outcome := by
  have hsplit : List.range 3 = List.range n ++ (List.range (3 - n)).map (n + ·) := by
    rw [← List.range_add]
    congr 1
    omega
  rw [grabFaceEncoding, hsplit, grabAttempts_append, h]
  cases outcome <;> first | rfl | exact absurd rfl hne

theorem Look.Concluded.turn {look look' : Look Image} (h : look.Concluded)
    {frame : Option Image} {jpeg : Option Jpeg} (hturn : look.turn frame jpeg = some look') :
    look'.Concluded := by
  obtain ⟨hattempts, houtcome⟩ := h
  unfold Look.turn at hturn
  cases hp : look.phase with
  | ended outcome jpeg => simp [hp] at hturn
  | shooting encoding quality =>
      simp only [hp, Option.some.injEq] at hturn houtcome
      subst hturn
      exact ⟨hattempts, houtcome⟩
  | attempting =>
      simp only [hp] at hturn houtcome
      by_cases hmore : look.frames.length < 3
      · simp only [hmore, if_true] at hturn
        have hsnoc := grab_snoc frame houtcome
        have hlength : (look.frames ++ [frame]).length ≤ 3 := by
          rw [List.length_append, List.length_singleton]
          omega
        have hearly {outcome : EncoderOutcome} (hne : outcome ≠ .noFace)
            (hseen : frame.map (look.encode look.frames.length) = some outcome) :
            grabFaceEncoding (outcomesOf look.encode (look.frames ++ [frame])) = outcome := by
          refine grab_of_early hmore (hsnoc.trans ?_) hne
          rw [hseen]
          cases outcome <;> rfl
        cases hseen : frame.map (look.encode look.frames.length) with
        | none =>
            simp only [hseen, Option.some.injEq] at hturn
            subst hturn
            refine ⟨hlength, ?_⟩
            simp only [List.length_append, List.length_singleton, hsnoc, hseen, grabAttempts]
        | some outcome =>
            cases outcome with
            | noFace =>
                simp only [hseen, Option.some.injEq] at hturn
                subst hturn
                refine ⟨hlength, ?_⟩
                simp only [List.length_append, List.length_singleton, hsnoc, hseen, grabAttempts]
            | raises =>
                simp only [hseen, Option.some.injEq] at hturn
                subst hturn
                exact ⟨hlength, hearly (by simp) hseen⟩
            | face encoding quality =>
                simp only [hseen, Option.some.injEq] at hturn
                subst hturn
                exact ⟨hlength, hearly (by simp) hseen⟩
      · simp only [hmore, if_false, Option.some.injEq] at hturn
        subst hturn
        have hthree : look.frames.length = 3 := by omega
        rw [hthree] at houtcome
        exact ⟨hattempts, houtcome⟩

/-! ## What the readers were given -/

/-- What a run read of the JPEG buffer: one capture where it has ended with a face. -/
def Look.Shot (look : Look Image) (shot : List (Option (Image × Jpeg))) : Prop :=
  match look.phase with
  | .ended (.face _ _) jpeg => ∃ last, shot = [last] ∧ jpeg = last.map Prod.snd
  | .ended _ jpeg => shot = [] ∧ jpeg = none
  | _ => shot = []

/-- The frames of a run and then its picture were read one after the other off the captures. -/
def Look.Seen (captures : List (Image × Jpeg)) (look : Look Image) : Prop :=
  ∃ seen shot, ReadOff captures (seen ++ shot) ∧ look.frames = seen.map (Option.map Prod.fst) ∧
    look.Shot shot

/-- A stream has sent the parts of captures that were read one after the other. -/
def Stream.Sent (captures : List (Image × Jpeg)) (stream : Stream) : Prop :=
  ∃ seen, ReadOff captures seen ∧
    stream.sent = (seen.filterMap fun capture => mjpegPart (capture.map Prod.snd)).flatten

variable {captures : List (Image × Jpeg)}

theorem seen_new (encode : Nat → Image → EncoderOutcome) :
    (⟨encode, [], .attempting⟩ : Look Image).Seen captures := ⟨[], [], ReadOff.nil, rfl, rfl⟩

theorem Look.Seen.later {look : Look Image} (h : look.Seen captures) (more : List (Image × Jpeg)) :
    look.Seen (captures ++ more) := by
  obtain ⟨seen, shot, hread, hframes, hshot⟩ := h
  exact ⟨seen, shot, hread.later more, hframes, hshot⟩

theorem Look.Seen.turn {look look' : Look Image} (h : look.Seen captures)
    (hturn : look.turn (captures.getLast?.map Prod.fst) (captures.getLast?.map Prod.snd) =
      some look') : look'.Seen captures := by
  obtain ⟨seen, shot, hread, hframes, hshot⟩ := h
  unfold Look.turn at hturn
  unfold Look.Shot at hshot
  cases hp : look.phase with
  | ended outcome jpeg => simp [hp] at hturn
  | shooting encoding quality =>
      simp only [hp, Option.some.injEq] at hturn hshot
      subst hturn
      subst hshot
      rw [List.append_nil] at hread
      exact ⟨seen, [captures.getLast?], hread.read, hframes, _, rfl, rfl⟩
  | attempting =>
      simp only [hp] at hturn hshot
      subst hshot
      rw [List.append_nil] at hread
      by_cases hmore : look.frames.length < 3
      · simp only [hmore, if_true] at hturn
        have hsnoc : look.frames ++ [captures.getLast?.map Prod.fst] =
            (seen ++ [captures.getLast?]).map (Option.map Prod.fst) := by simp [hframes]
        have hread' : ReadOff captures (seen ++ [captures.getLast?] ++ []) := by
          simpa using hread.read
        split at hturn <;> cases hturn
        case h_1 | h_2 => exact ⟨_, [], hread', hsnoc, by simp [Look.Shot]⟩
        case h_3 => exact ⟨_, [], hread', hsnoc, rfl, rfl⟩
        case h_4 => exact ⟨_, [], hread', hsnoc, rfl⟩
      · simp only [hmore, if_false, Option.some.injEq] at hturn
        subst hturn
        exact ⟨seen, [], by simpa using hread, hframes, rfl, rfl⟩

theorem sent_new : (⟨[], .checking⟩ : Stream).Sent captures := ⟨[], ReadOff.nil, rfl⟩

theorem Stream.Sent.later {stream : Stream} (h : stream.Sent captures)
    (more : List (Image × Jpeg)) : stream.Sent (captures ++ more) := by
  obtain ⟨seen, hread, hsent⟩ := h
  exact ⟨seen, hread.later more, hsent⟩

theorem Stream.Sent.turn {stream stream' : Stream} (h : stream.Sent captures) {running : Bool}
    (hturn : stream.turn running (captures.getLast?.map Prod.snd) = some stream') :
    stream'.Sent captures := by
  obtain ⟨seen, hread, hsent⟩ := h
  unfold Stream.turn at hturn
  cases hp : stream.phase <;> simp only [hp, Option.some.injEq, reduceCtorEq] at hturn
  case checking =>
    subst hturn
    exact ⟨seen, hread, hsent⟩
  case taking =>
    subst hturn
    refine ⟨seen ++ [captures.getLast?], hread.read, ?_⟩
    cases hpart : mjpegPart (captures.getLast?.map Prod.snd) <;> simp [hsent, hpart]

/-! ## Every run -/

structure Recorded (optics : Optics Image) (backend : Option CameraBackend)
    (ts : List (Transition (CameraService Image) (CameraTurn Image))) (s : CameraService Image) :
    Prop where
  frame : s.latestFrame = (published ts).getLast?.map Prod.fst
  jpeg : s.latestJpeg = (published ts).getLast?.map Prod.snd
  pending : ∀ frame jpeg, .publishing frame jpeg ∈ s.loops →
    Taken optics backend ts (frame, jpeg)
  taken : ∀ capture ∈ published ts, Taken optics backend ts capture
  looks : ∀ look ∈ s.looks, look.Seen (published ts) ∧ look.Concluded
  streams : ∀ stream ∈ s.streams, stream.Sent (published ts)

variable {optics : Optics Image} {backend : Option CameraBackend}
  {ts : List (Transition (CameraService Image) (CameraTurn Image))} {s s' : CameraService Image}

theorem Taken.later {capture : Image × Jpeg} (h : Taken optics backend ts capture)
    (us : List (Transition (CameraService Image) (CameraTurn Image))) :
    Taken optics backend (ts ++ us) capture := by
  obtain ⟨t, ht, hcapture⟩ := h
  exact ⟨t, List.mem_append_left us ht, hcapture⟩

theorem published_snoc (t : Transition (CameraService Image) (CameraTurn Image)) :
    published (ts ++ [t]) = published ts ++ (publishes t).toList := by
  cases h : publishes t <;> simp [published, h]

/-- A thread that is about to publish has read its picture in this turn. -/
theorem taken_of_captureLoop {i : Nat} {seen : Shot Image} {phase : LoopPhase Image}
    {frame : Image} {jpeg : Jpeg} (hphase : s.loops[i]? = some phase)
    (h : s.captureLoop optics backend seen phase = some (.publishing frame jpeg)) :
    Taken optics backend (ts ++ [⟨s, .loop i seen, s'⟩]) (frame, jpeg) := by
  cases phase <;> simp only [CameraService.captureLoop, Option.some.injEq, reduceCtorEq] at h
  case checking => split at h <;> cases h
  case reading =>
    cases hread : s.readFrame optics backend seen with
    | raises => simp [hread] at h
    | missing => simp [hread] at h
    | frame image =>
        simp only [hread] at h
        cases hencode : optics.encodeJpeg (optics.correctNoir image) with
        | none => simp [hencode] at h
        | some out =>
            simp only [hencode, Option.some.injEq, LoopPhase.publishing.injEq] at h
            obtain ⟨rfl, rfl⟩ := h
            have hsource : if backend.isSome ∧ s.camera then seen = .frame image
                else image = optics.placeholder := by
              unfold CameraService.readFrame at hread
              split at hread
              case isTrue hcamera => rwa [if_pos hcamera]
              case isFalse hcamera =>
                cases hread
                rw [if_neg hcamera]
            exact ⟨_, List.mem_append_right ts (List.mem_singleton_self _), image,
              ⟨i, seen, rfl, hphase, hsource⟩, rfl, hencode⟩

/-- A turn that publishes nothing keeps what the register holds. -/
theorem Recorded.quiet {turn : CameraTurn Image} (h : Recorded optics backend ts s)
    (hquiet : publishes ⟨s, turn, s'⟩ = none) (hframe : s'.latestFrame = s.latestFrame)
    (hjpeg : s'.latestJpeg = s.latestJpeg)
    (hloops : ∀ frame jpeg, .publishing frame jpeg ∈ s'.loops →
      .publishing frame jpeg ∈ s.loops ∨
        Taken optics backend (ts ++ [⟨s, turn, s'⟩]) (frame, jpeg))
    (hlooks : ∀ look ∈ s'.looks, look.Seen (published ts) ∧ look.Concluded)
    (hstreams : ∀ stream ∈ s'.streams, stream.Sent (published ts)) :
    Recorded optics backend (ts ++ [⟨s, turn, s'⟩]) s' := by
  have hsame : published (ts ++ [⟨s, turn, s'⟩]) = published ts := by
    rw [published_snoc, hquiet]
    exact List.append_nil _
  refine ⟨?_, ?_, fun frame jpeg hmem => ?_, fun capture hmem => ?_, ?_, ?_⟩
  · rw [hsame, hframe, h.frame]
  · rw [hsame, hjpeg, h.jpeg]
  · exact (hloops frame jpeg hmem).elim (fun hold => (h.pending frame jpeg hold).later _) id
  · rw [hsame] at hmem
    exact (h.taken capture hmem).later _
  · rwa [hsame]
  · rwa [hsame]

theorem mem_set_cases {α : Type} {l : List α} {i : Nat} {a b : α} (h : b ∈ l.set i a) :
    b ∈ l ∨ b = a := by
  rcases List.mem_or_eq_of_mem_set h with hmem | heq
  · exact Or.inl hmem
  · exact Or.inr heq

theorem Recorded.step {turn : CameraTurn Image} (h : Recorded optics backend ts s)
    (hnext : (service optics backend).next s turn = some s') :
    Recorded optics backend (ts ++ [⟨s, turn, s'⟩]) s' := by
  cases turn <;> simp only [service, Option.some.injEq, Option.bind_eq_some_iff,
    Option.map_eq_some_iff, Option.ite_none_right_eq_some] at hnext
  case start =>
    subst hnext
    unfold CameraService.start
    split
    · exact h.quiet rfl rfl rfl (fun _ _ hmem => Or.inl hmem) h.looks h.streams
    · exact h.quiet rfl rfl rfl (fun _ _ hmem => Or.inl hmem) h.looks h.streams
  case opened =>
    obtain ⟨_, rfl⟩ := hnext
    refine h.quiet rfl rfl rfl (fun _ _ hmem => Or.inl ?_) h.looks h.streams
    simpa [CameraService.openCamera] using hmem
  case failed assigned =>
    obtain ⟨_, rfl⟩ := hnext
    exact h.quiet rfl rfl rfl (fun _ _ hmem => Or.inl hmem) h.looks h.streams
  case halt =>
    subst hnext
    exact h.quiet rfl rfl rfl (fun _ _ hmem => Or.inl hmem) h.looks h.streams
  case release =>
    subst hnext
    exact h.quiet rfl rfl rfl (fun _ _ hmem => Or.inl hmem) h.looks h.streams
  case look encode =>
    subst hnext
    refine h.quiet rfl rfl rfl (fun _ _ hmem => Or.inl hmem) (fun look hmem => ?_) h.streams
    rcases List.mem_append.mp hmem with hmem | hmem
    · exact h.looks look hmem
    · rw [List.mem_singleton.mp hmem]
      exact ⟨seen_new encode, concluded_new encode⟩
  case stream =>
    subst hnext
    refine h.quiet rfl rfl rfl (fun _ _ hmem => Or.inl hmem) h.looks (fun stream hmem => ?_)
    rcases List.mem_append.mp hmem with hmem | hmem
    · exact h.streams stream hmem
    · rw [List.mem_singleton.mp hmem]
      exact sent_new
  case lookOn i =>
    obtain ⟨look, hlook, look', hturn, rfl⟩ := hnext
    refine h.quiet rfl rfl rfl (fun _ _ hmem => Or.inl hmem) (fun other hmem => ?_) h.streams
    rcases mem_set_cases hmem with hmem | rfl
    · exact h.looks other hmem
    · obtain ⟨hseen, hconcluded⟩ := h.looks look (List.mem_of_getElem? hlook)
      refine ⟨hseen.turn ?_, hconcluded.turn hturn⟩
      rwa [h.frame, h.jpeg] at hturn
  case streamOn i =>
    obtain ⟨stream, hstream, stream', hturn, rfl⟩ := hnext
    refine h.quiet rfl rfl rfl (fun _ _ hmem => Or.inl hmem) h.looks (fun other hmem => ?_)
    rcases mem_set_cases hmem with hmem | rfl
    · exact h.streams other hmem
    · rw [h.jpeg] at hturn
      exact (h.streams stream (List.mem_of_getElem? hstream)).turn hturn
  case loop i seen =>
    obtain ⟨phase, hphase, phase', hturn, rfl⟩ := hnext
    cases phase with
    | publishing frame jpeg =>
        cases hturn
        have hpending := h.pending frame jpeg (List.mem_of_getElem? hphase)
        have hpublished (s' : CameraService Image) :
            published (ts ++ [⟨s, .loop i seen, s'⟩]) = published ts ++ [(frame, jpeg)] := by
          rw [published_snoc]
          simp [publishes, hphase]
        refine ⟨by simp [hpublished], by simp [hpublished], fun f j hmem => ?_,
          fun capture hmem => ?_, fun look hmem => ?_, fun stream hmem => ?_⟩
        · rcases mem_set_cases hmem with hmem | heq
          · exact (h.pending f j hmem).later _
          · cases heq
        · rw [hpublished] at hmem
          rcases List.mem_append.mp hmem with hmem | hmem
          · exact (h.taken capture hmem).later _
          · rw [List.mem_singleton.mp hmem]
            exact hpending.later _
        · rw [hpublished]
          exact ⟨(h.looks look hmem).1.later _, (h.looks look hmem).2⟩
        · rw [hpublished]
          exact (h.streams stream hmem).later _
    | _ =>
        refine h.quiet (by simp [publishes, hphase]) rfl rfl (fun frame jpeg hmem => ?_) h.looks
          h.streams
        rcases mem_set_cases hmem with hmem | rfl
        · exact Or.inl hmem
        · exact Or.inr (taken_of_captureLoop hphase hturn)

theorem recorded_of_run
    (hrun : (service optics backend).Run CameraService.init ts s) :
    Recorded optics backend ts s := by
  induction hrun with
  | nil => exact ⟨rfl, rfl, by simp [CameraService.init], by simp [published],
      by simp [CameraService.init], by simp [CameraService.init]⟩
  | snoc _ hnext ih => exact ih.step hnext

/-- What a run that has found a face keeps: its frame and its picture are captures of the
history, the picture that of the same capture or of a later one. -/
structure Sighted (optics : Optics Image) (backend : Option CameraBackend)
    (ts : List (Transition (CameraService Image) (CameraTurn Image))) (look : Look Image)
    (encoding : Encoding) (quality : ℚ) (jpeg : Option Jpeg) : Prop where
  outcome : grabFaceEncoding (outcomesOf look.encode look.frames) = .face encoding quality
  order : ∃ ns m, (ns ++ [m]).Pairwise (· ≤ ·) ∧ m ≤ (published ts).length ∧
    look.frames = ns.map (fun n => (held (published ts) n).map Prod.fst) ∧
    jpeg = (held (published ts) m).map Prod.snd
  captures : ∀ capture ∈ published ts, Taken optics backend ts capture

/-- In every order of captures, attempts and pictures, and whatever the camera answers, a
recognition run sees captures in the order they were made. -/
theorem sighted_of_run (hrun : (service optics backend).Run CameraService.init ts s)
    {look : Look Image} (hlook : look ∈ s.looks) {encoding : Encoding} {quality : ℚ}
    {jpeg : Option Jpeg} (hended : look.phase = .ended (.face encoding quality) jpeg) :
    Sighted optics backend ts look encoding quality jpeg := by
  have hrecorded := recorded_of_run hrun
  obtain ⟨⟨seen, shot, hread, hframes, hshot⟩, hconcluded⟩ := hrecorded.looks look hlook
  have houtcome := hconcluded.outcome
  unfold Look.Shot at hshot
  simp only [hended] at houtcome hshot
  obtain ⟨last, rfl, rfl⟩ := hshot
  obtain ⟨ns, hsorted, hbound, heq⟩ := hread
  obtain ⟨ns, ms, rfl, rfl, hm⟩ := List.map_eq_append_iff.mp heq.symm
  obtain ⟨m, rfl, rfl⟩ := List.map_eq_singleton_iff.mp hm
  refine ⟨houtcome, ⟨ns, m, hsorted, hbound m (by simp), ?_, rfl⟩, hrecorded.taken⟩
  rw [hframes, List.map_map]
  rfl

def plainOptics : Optics UInt8 := ⟨id, fun image => some [image], 40⟩

/-- A face is found on the first frame, and a second capture follows before the picture. -/
def overtaken : List (CameraTurn UInt8) :=
  [.start, .opened, .loop 0 .missing, .loop 0 (.frame 1), .loop 0 .missing,
    .look fun _ _ => .face [0] 1, .lookOn 0, .loop 0 .missing, .loop 0 .missing, .loop 0 (.frame 2),
    .loop 0 .missing, .lookOn 0]

theorem sighted_overtaken : ∃ ts s, ∃ look ∈ s.looks,
    (service plainOptics (some .opencv)).Run CameraService.init ts s ∧
      Sighted plainOptics (some .opencv) ts look [0] 1 (some [2]) := by
  have hend : ((service plainOptics (some .opencv)).trace CameraService.init overtaken).map
      (fun (_, s) => s.looks.map Look.phase) = some [.ended (.face [0] 1) (some [2])] := by
    decide +kernel
  obtain ⟨ts, s, hrun, hlooks⟩ := Machine.exists_run_of_view hend
  obtain ⟨look, hlook, hended⟩ := List.mem_map.mp (hlooks ▸ List.mem_singleton_self _)
  exact ⟨ts, s, look, hlook, hrun, sighted_of_run hrun hlook hended⟩

end FacialCamera.Camera
