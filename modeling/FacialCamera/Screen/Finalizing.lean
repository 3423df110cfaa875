import FacialCamera.Screen.Answers

/-! # What an enrollment finalizes

The door camera's flow reads the message of every answer and retries an angle without
a face. The MacBook's flow takes every answer to an upload for a stored capture, so it
finalizes angles that the Pi has answered with "No face detected".
-/

namespace FacialCamera.Screen

open FacialCamera.Core Backend Enrollment
open Macbook (anglesToUpload)

abbrev Step : Type := Transition Flow Turn

/-! ## Captures in a history -/

/-- The session of a flow and the number of angles that it treats as done. -/
def Await.passed : Await → Option (Uuid × ℕ)
  | .download s i => some (s, i)
  | .upload s i _ => some (s, i)
  | .posePause s i => some (s, i)
  | .piCameraCapture s i => some (s, i)
  | .retryPause s i => some (s, i)
  | .completePiEnrollment s => some (s, 3)
  | .ended (.enrolled s) => some (s, 3)
  | _ => none

/-- The session and the angle of a request that asks the Pi for a capture. -/
def Await.capture? : Await → Option (Uuid × Angle)
  | .upload s i _ => some (s, anglesToUpload.get i)
  | .piCameraCapture s i => some (s, ANGLES.get i)
  | _ => none

/-- What the Pi does in the tables while it answers a capture of the flow. -/
def Turn.deed (t : Turn) (f : Flow) : Deed :=
  match t.thrown, f.awaits with
  | none, .upload s i jpeg =>
      if Admitted t.pi.db f.member.id s then
        bodyDeed t.landing.db f.member.id s
          (some (captureBody (anglesToUpload.get i) jpeg t.encode))
      else .nothing
  | none, .piCameraCapture s i =>
      (Request.piCameraCapture f.member.id s (ANGLES.get i).text t.frame).deed t.pi.db
  | _, _ => .nothing

def storedBy : Deed → Option (Uuid × Uuid × String)
  | .capture m s _ angle _ => some (m, s, angle)
  | _ => none

/-- The Pi stores an encoding of the angle for the member, through the session. -/
def Stores (m s : Uuid) (angle : Angle) (t : Step) : Prop :=
  storedBy (t.label.deed t.before) = some (m, s, angle.text)

def Starts (m s : Uuid) (t : Step) : Prop :=
  t.before.awaits = .startMemberFaceEnrollment ∧
    ∃ out, t.label.await ((startEnrollment m).run exec t.label.pi).1 = .ok out ∧
      out.1.sessionId = s

/-- The flow takes the capture it has asked for as done. -/
def TreatsAsDone (t : Step) : Prop :=
  ∃ s i, t.before.awaits.passed = some (s, i) ∧ t.after.awaits.passed = some (s, i + 1)

/-- `completePiEnrollment` is called or "Face enrolled!" is shown. -/
def Finalizes (f : Flow) : Prop :=
  (∃ s, f.awaits = .completePiEnrollment s) ∨ f.card.message = .faceEnrolled

def Accepted (t : Step) : Prop :=
  ∀ s angle, t.before.awaits.capture? = some (s, angle) → TreatsAsDone t →
    Stores t.before.member.id s angle t

/-- What is finalized is complete, and no capture that the Pi has not stored is done. -/
structure Complete (ts : List Step) (f : Flow) : Prop where
  finalized : Finalizes f →
    ∃ s, (∃ t ∈ ts, Starts f.member.id s t) ∧
      ∀ angle : Angle, ∃ t ∈ ts, Stores f.member.id s angle t
  accepted : ∀ t ∈ ts, Accepted t

/-- The detector finds a face in the photo of an upload that the Pi answers. -/
def FaceUploaded (t : Step) : Prop :=
  match t.before.awaits with
  | .upload s _ jpeg =>
      t.label.thrown = none → Admitted t.label.pi.db t.before.member.id s → jpeg ≠ [] →
        t.label.encode jpeg ≠ .noFace
  | _ => True

instance (t : Step) : Decidable (FaceUploaded t) := by
  unfold FaceUploaded
  split <;> infer_instance

/-! ## One step of a flow -/

section Loops

variable (f : Flow) (clock : ℕ)

theorem passed_pollLoop (deadline : ℕ) : (f.pollLoop clock deadline).awaits.passed = none := by
  unfold Flow.pollLoop
  split <;> rfl

theorem passed_afterPoll (status : Macbook.CaptureStatus) (deadline : ℕ) :
    (f.afterPoll clock status deadline).awaits.passed = none := by
  unfold Flow.afterPoll
  dsimp only
  split
  · rfl
  · split
    · rfl
    · exact passed_pollLoop _ _ _

theorem passed_uploadLoop {s : Uuid} {i : ℕ} (h : i ≤ 3) :
    (f.uploadLoop clock s i).awaits.passed = some (s, i) := by
  unfold Flow.uploadLoop
  split
  · rfl
  · next hi =>
      obtain rfl : i = 3 := le_antisymm h (not_lt.mp hi)
      rfl

theorem passed_poseLoop {s : Uuid} {i : ℕ} (h : i ≤ 3) :
    (f.poseLoop clock s i).awaits.passed = some (s, i) := by
  unfold Flow.poseLoop
  split
  · rfl
  · next hi =>
      obtain rfl : i = 3 := le_antisymm h (not_lt.mp hi)
      rfl

end Loops

inductive Moves (t : Step) : Prop where
  | lost : FaceUploaded t → t.after.awaits.passed = none → Moves t
  | stays : FaceUploaded t → t.after.awaits.passed = t.before.awaits.passed → Moves t
  | started {s : Uuid} : FaceUploaded t → Starts t.before.member.id s t →
      t.after.awaits.passed = some (s, 0) → Moves t
  | passes {s : Uuid} (i : Fin 3) : t.before.awaits.passed = some (s, (i : ℕ)) →
      t.before.awaits.capture? = some (s, ANGLES.get i) →
      t.after.awaits.passed = some (s, (i : ℕ) + 1) →
      (Stores t.before.member.id s (ANGLES.get i) t ↔ FaceUploaded t) → Moves t

theorem recordBody_captureBody {b : Process} {m s : Uuid} {angle : Angle} {jpeg : Jpeg}
    {encode : Jpeg → EncoderOutcome} {result : Option SessionRow}
    (h : ((recordBody m s (some (captureBody angle jpeg encode))).run exec b).1 =
      some (.ok result)) :
    jpeg ≠ [] ∧
      ((recordCapture uploadTexts m s (.text angle.text) (encode jpeg)).run exec b).1 =
        some (.ok result) := by
  by_cases hjpeg : jpeg = []
  · simp [captureBody, recordBody, hjpeg] at h
  · exact ⟨hjpeg, by simpa [captureBody, recordBody, hjpeg] using h⟩

theorem moves_upload {f : Flow} {t : Turn} {s : Uuid} {i : Fin anglesToUpload.length} {jpeg : Jpeg}
    (ha : f.awaits = .upload s i jpeg) : Moves ⟨f, t, f.resume t⟩ := by
  let m := f.member.id
  let angle : Angle := anglesToUpload.get i
  let body := captureBody angle jpeg t.encode
  cases hanswer : t.await (t.uploadAnswer m s body) with
  | error e =>
      refine .lost ?_ (by simp only [Flow.resume, ha]; rw [hanswer]; rfl)
      simp only [FaceUploaded, ha]
      intro hthrown hadmitted hjpeg hface
      have himage : body.image = some .noFace := by simp [body, captureBody, hjpeg, hface]
      obtain ⟨result, hok⟩ := uploadAnswer_noFace hadmitted rfl himage
      rw [await_eq_ok.mpr ⟨hthrown, hok⟩] at hanswer
      cases hanswer
  | ok result =>
      obtain ⟨hthrown, hok⟩ := await_eq_ok.mp hanswer
      obtain ⟨hadmitted, hbody⟩ := uploadAnswer_ok hok
      obtain ⟨hjpeg, hrecord⟩ := recordBody_captureBody hbody
      have hdeed : t.deed f =
          captureDeed t.landing.db uploadTexts m s (.text angle.text) (t.encode jpeg) := by
        rw [Turn.deed, hthrown, ha]
        simp only [captureBody, hjpeg, if_false, bodyDeed]
        exact if_pos hadmitted
      have hnext : (f.resume t).awaits.passed = some (s, (i : ℕ) + 1) := by
        simp only [Flow.resume, ha]
        rw [hanswer]
        exact passed_uploadLoop f t.clock i.isLt
      refine .passes i (by simp [ha, Await.passed]) (by simp only [ha]; rfl) hnext ?_
      rcases cases_recordCapture hrecord with hface | ⟨encoding, columns, _, hcapture, _⟩
      · refine iff_of_false ?_ ?_
        · simp [Stores, hdeed, hface, captureDeed, storedBy]
        · simpa [FaceUploaded, ha, hface, hthrown, hjpeg] using hadmitted
      · refine iff_of_true ?_ ?_
        · simp only [Stores, hdeed, hcapture, storedBy]
          rfl
        · simp only [FaceUploaded, ha]
          intro _ _ _ hface
          rw [hface] at hcapture
          cases hcapture

theorem moves_piCameraCapture {f : Flow} {t : Turn} {s : Uuid} {i : Fin ANGLES.length}
    (ha : f.awaits = .piCameraCapture s i) : Moves ⟨f, t, f.resume t⟩ := by
  have hface : FaceUploaded ⟨f, t, f.resume t⟩ := by simp [FaceUploaded, ha]
  rcases resume_piCameraCapture t ha with ⟨e, hresume⟩ | ⟨_, card, hresume⟩ |
    ⟨hthrown, encoding, columns, hdeed, card, hresume⟩
  · exact .lost hface (by rw [hresume]; rfl)
  · exact .stays hface (by simp only [hresume, ha]; rfl)
  · have hnext : (f.resume t).awaits.passed = some (s, (i : ℕ) + 1) := by
      rw [hresume]
      exact passed_poseLoop _ _ i.isLt
    refine .passes i (by simp [ha, Await.passed]) (by simp only [ha]; rfl) hnext
      (iff_of_true ?_ hface)
    simp only [Stores, Turn.deed, hthrown, ha, hdeed, storedBy]

theorem moves_start {f : Flow} {t : Turn} (ha : f.awaits = .startMemberFaceEnrollment) :
    Moves ⟨f, t, f.resume t⟩ := by
  have hface : FaceUploaded ⟨f, t, f.resume t⟩ := by simp [FaceUploaded, ha]
  cases hanswer : t.await ((startEnrollment f.member.id).run exec t.pi).1 with
  | error e =>
      refine .lost hface ?_
      cases hcamera : f.camera <;> simp only [Flow.resume, ha, hanswer, hcamera] <;> rfl
  | ok out =>
      refine .started (s := out.1.sessionId) hface ⟨ha, out, hanswer, rfl⟩ ?_
      cases hcamera : f.camera
      · simp only [Flow.resume, ha, hanswer, hcamera]
        exact passed_uploadLoop f t.clock (by decide)
      · simp only [Flow.resume, ha, hanswer, hcamera]
        exact passed_poseLoop f t.clock (by decide)

theorem moves_next {f f' : Flow} {t : Turn} (h : flow.next f t = some f') : Moves ⟨f, t, f'⟩ := by
  obtain ⟨hawaits, _, rfl⟩ := next_eq_some h
  cases ha : f.awaits with
  | upload s i jpeg => exact moves_upload ha
  | piCameraCapture s i => exact moves_piCameraCapture ha
  | startMemberFaceEnrollment => exact moves_start ha
  | ended outcome => exact absurd ha (hawaits outcome)
  | startMacbookCapture =>
      refine .lost (by simp [FaceUploaded, ha]) ?_
      simp only [Flow.resume, ha]
      split
      · rfl
      · exact passed_pollLoop _ _ _
  | pollPause deadline =>
      refine .lost (by simp [FaceUploaded, ha]) ?_
      simp only [Flow.resume, ha]
      rfl
  | pollMacbookCaptureStatus deadline =>
      refine .lost (by simp [FaceUploaded, ha]) ?_
      simp only [Flow.resume, ha]
      split
      · exact passed_pollLoop _ _ _
      · exact passed_afterPoll _ _ _ _
  | download s i =>
      have hface : FaceUploaded ⟨f, t, f.resume t⟩ := by simp [FaceUploaded, ha]
      cases hthrown : t.thrown with
      | some e => exact .lost hface (by simp only [Flow.resume, ha, hthrown]; rfl)
      | none => exact .stays hface (by simp only [Flow.resume, ha, hthrown]; rfl)
  | posePause s i =>
      refine .stays (by simp [FaceUploaded, ha]) ?_
      simp only [Flow.resume, ha]
      rfl
  | retryPause s i =>
      refine .stays (by simp [FaceUploaded, ha]) ?_
      simp only [Flow.resume, ha]
      exact passed_poseLoop f t.clock i.isLt.le
  | completePiEnrollment s =>
      have hface : FaceUploaded ⟨f, t, f.resume t⟩ := by simp [FaceUploaded, ha]
      cases hanswer : t.await ((completeEnrollment f.member.id s).run exec t.pi).1 with
      | error e => exact .lost hface (by simp only [Flow.resume, ha, hanswer]; rfl)
      | ok out => exact .stays hface (by simp only [Flow.resume, ha, hanswer]; rfl)

theorem accepted_iff {t : Step} (h : Moves t) : Accepted t ↔ FaceUploaded t := by
  cases h with
  | lost hface hafter =>
      refine iff_of_true ?_ hface
      rintro _ _ _ ⟨s, i, _, hdone⟩
      rw [hafter] at hdone
      cases hdone
  | stays hface hafter =>
      refine iff_of_true ?_ hface
      rintro _ _ _ ⟨s, i, hbefore, hdone⟩
      rw [hafter, hbefore] at hdone
      simp at hdone
  | started hface hstarts _ =>
      refine iff_of_true ?_ hface
      intro _ _ hcapture _
      rw [hstarts.1] at hcapture
      cases hcapture
  | passes i hbefore hcapture hafter hstores =>
      rw [← hstores]
      constructor
      · intro haccepted
        exact haccepted _ _ hcapture ⟨_, _, hbefore, hafter⟩
      · intro hstored s angle hsame _
        obtain ⟨rfl, rfl⟩ := Prod.mk.inj (Option.some.inj (hcapture.symm.trans hsame))
        exact hstored

/-! ## Runs -/

/-- The history has started the session of the flow and stored the angles before its. -/
structure Recorded (ts : List Step) (f : Flow) : Prop where
  started : ∀ s n, f.awaits.passed = some (s, n) → ∃ t ∈ ts, Starts f.member.id s t
  stored : ∀ s n, f.awaits.passed = some (s, n) →
    ∀ i : Fin 3, (i : ℕ) < n → ∃ t ∈ ts, Stores f.member.id s (ANGLES.get i) t
  shown : f.card.message = .faceEnrolled → ∃ s, f.awaits = .ended (.enrolled s)

theorem recorded_enroll {camera : Camera} {enrollingMemberId : Option Uuid} {member : Member}
    {clock : ℕ} {f : Flow} (h : enroll camera enrollingMemberId member clock = some f) :
    Recorded [] f := by
  rcases enroll_cases h with ⟨rfl, rfl⟩ | ⟨rfl, rfl⟩
  · exact ⟨by simp [Await.passed], by simp [Await.passed], by simp⟩
  · exact ⟨by simp [Await.passed], by simp [Await.passed], by simp⟩

theorem Recorded.snoc {ts : List Step} {f f' : Flow} {t : Turn} (h : Recorded ts f)
    (haccepted : Accepted ⟨f, t, f'⟩) (hnext : flow.next f t = some f') :
    Recorded (ts ++ [⟨f, t, f'⟩]) f' := by
  obtain ⟨hawaits, _, _⟩ := next_eq_some hnext
  obtain ⟨hmember, _, _, hshown, _⟩ := continues_next hnext
  have hstarted (s : Uuid) (hs : ∃ t ∈ ts, Starts f.member.id s t) :
      ∃ u ∈ ts ++ [⟨f, t, f'⟩], Starts f'.member.id s u := by
    obtain ⟨u, hu, hstarts⟩ := hs
    exact ⟨u, List.mem_append_left _ hu, hmember ▸ hstarts⟩
  have hstored (s : Uuid) (angle : Angle) (hs : ∃ t ∈ ts, Stores f.member.id s angle t) :
      ∃ u ∈ ts ++ [⟨f, t, f'⟩], Stores f'.member.id s angle u := by
    obtain ⟨u, hu, hstores⟩ := hs
    exact ⟨u, List.mem_append_left _ hu, hmember ▸ hstores⟩
  have hlast (hmessage : f'.card.message = .faceEnrolled) :
      ∃ s, f'.awaits = .ended (.enrolled s) := by
    rcases hshown hmessage with hmessage | hended
    · obtain ⟨s, hs⟩ := h.shown hmessage
      exact absurd hs (hawaits _)
    · exact hended
  cases moves_next hnext with
  | lost _ hafter =>
      have hnone : f'.awaits.passed = none := hafter
      exact ⟨by simp [hnone], by simp [hnone], hlast⟩
  | stays _ hafter =>
      have hsame : f'.awaits.passed = f.awaits.passed := hafter
      refine ⟨fun s n hn => ?_, fun s n hn i hi => ?_, hlast⟩
      · exact hstarted s (h.started s n (hsame ▸ hn))
      · exact hstored s _ (h.stored s n (hsame ▸ hn) i hi)
  | @started s _ hstarts hafter =>
      have hzero : f'.awaits.passed = some (s, 0) := hafter
      refine ⟨fun s' n hn => ?_, fun s' n hn i hi => ?_, hlast⟩
      · obtain ⟨rfl, rfl⟩ := Prod.mk.inj (Option.some.inj (hzero.symm.trans hn))
        exact ⟨_, List.mem_append_right _ (List.mem_singleton_self _), hmember ▸ hstarts⟩
      · obtain ⟨rfl, rfl⟩ := Prod.mk.inj (Option.some.inj (hzero.symm.trans hn))
        exact absurd hi (Nat.not_lt_zero _)
  | @passes s k hbefore hcapture hafter _ =>
      have hold : f.awaits.passed = some (s, (k : ℕ)) := hbefore
      have hnew : f'.awaits.passed = some (s, (k : ℕ) + 1) := hafter
      refine ⟨fun s' n hn => ?_, fun s' n hn i hi => ?_, hlast⟩
      · obtain ⟨rfl, rfl⟩ := Prod.mk.inj (Option.some.inj (hnew.symm.trans hn))
        exact hstarted s (h.started s _ hold)
      · obtain ⟨rfl, rfl⟩ := Prod.mk.inj (Option.some.inj (hnew.symm.trans hn))
        rcases Nat.lt_succ_iff_lt_or_eq.mp hi with hlt | heq
        · exact hstored s _ (h.stored s _ hold i hlt)
        · obtain rfl := Fin.ext heq
          have hstores := haccepted s _ hcapture ⟨s, i, hbefore, hafter⟩
          exact ⟨_, List.mem_append_right _ (List.mem_singleton_self _), hmember ▸ hstores⟩

theorem recorded_run {f₀ f : Flow} {ts : List Step} (h₀ : Recorded [] f₀)
    (hrun : flow.Run f₀ ts f) (haccepted : ∀ t ∈ ts, Accepted t) : Recorded ts f := by
  induction hrun with
  | nil => exact h₀
  | snoc _ hnext ih =>
      have hbefore := ih fun t ht => haccepted t (List.mem_append_left _ ht)
      exact hbefore.snoc (haccepted _ (by simp)) hnext

theorem Recorded.finalized {ts : List Step} {f : Flow} (h : Recorded ts f) (hf : Finalizes f) :
    ∃ s, (∃ t ∈ ts, Starts f.member.id s t) ∧
      ∀ angle : Angle, ∃ t ∈ ts, Stores f.member.id s angle t := by
  have hpassed : ∃ s, f.awaits.passed = some (s, 3) := by
    rcases hf with ⟨s, hs⟩ | hmessage
    · exact ⟨s, by rw [hs]; rfl⟩
    · obtain ⟨s, hs⟩ := h.shown hmessage
      exact ⟨s, by rw [hs]; rfl⟩
  obtain ⟨s, hs⟩ := hpassed
  refine ⟨s, h.started s 3 hs, fun angle => ?_⟩
  cases angle with
  | front => exact h.stored s 3 hs 0 (by decide)
  | left => exact h.stored s 3 hs 1 (by decide)
  | right => exact h.stored s 3 hs 2 (by decide)

/-- In a run of either flow nothing but complete captures is finalized and every capture
that is treated as done is stored, exactly if the detector finds a face in the photo of
every upload that the Pi answers. -/
theorem complete_iff_faceUploaded {camera : Camera} {enrollingMemberId : Option Uuid}
    {member : Member} {clock : ℕ} {f₀ f : Flow} {ts : List Step}
    (hstart : enroll camera enrollingMemberId member clock = some f₀)
    (hrun : flow.Run f₀ ts f) :
    Machine.Throughout Complete f₀ ts ↔ Machine.EachStep (fun _ t => FaceUploaded t) ts := by
  have h₀ := recorded_enroll hstart
  refine hrun.throughout_iff ⟨h₀.finalized, by simp⟩ ?_
  intro us f t f' hus hcomplete hnext
  have hexact := accepted_iff (moves_next hnext)
  constructor
  · intro hafter
    exact hexact.mp (hafter.accepted _ (by simp))
  · intro hface
    have haccepted : ∀ u ∈ us ++ [⟨f, t, f'⟩], Accepted u := by
      intro u hu
      rcases List.mem_append.mp hu with hu | hu
      · exact hcomplete.accepted u hu
      · rw [List.mem_singleton.mp hu]
        exact hexact.mpr hface
    exact ⟨(recorded_run h₀ (hus.snoc hnext) haccepted).finalized, haccepted⟩

/-! ## An enrollment with and without a face -/

def resident : Member := ⟨0, "Resident"⟩

def memberAdded : Process :=
  (Request.addMember "Resident" "Member").perform (Process.boot true none 0)

def sessionOpen : Process := (Request.startEnrollment 0).perform memberAdded

def uploaded (image : EncoderOutcome) (angle : Angle) (b : Process) : Process :=
  (Request.uploadCaptureB64 0 1 (some (captureBody angle [255] fun _ => image))).perform b

/-- A turn in which nothing fails; the MacBook has taken all photos. -/
def answered (image : EncoderOutcome) (clock : ℕ) (pi : Process) : Turn :=
  ⟨clock, none, ⟨.capturedAll, 90, "All photos captured! Uploading to Pi...",
    some [.front, .left, .right]⟩, [255], fun _ => image, some image, pi, pi⟩

/-- `handleEnrollFace` to its end, with the Pi as its own uploads leave it. -/
def macbookTurns (image : EncoderOutcome) : List Turn :=
  let front := uploaded image .front sessionOpen
  let left := uploaded image .left front
  let right := uploaded image .right left
  [answered image 0 memberAdded, answered image 800 memberAdded, answered image 800 memberAdded,
    answered image 900 memberAdded, answered image 1000 sessionOpen,
    answered image 1000 sessionOpen, answered image 1100 front, answered image 1100 front,
    answered image 1200 left, answered image 1200 left, answered image 1300 right]

def macbookStart : Flow :=
  ⟨.macbook, resident, .startMacbookCapture, 0, ⟨5, .openingMacbookCamera, 0⟩, some 0, none⟩

theorem complete_macbookTurns :
    ∃ ts f, flow.Run macbookStart ts f ∧ f.card.message = .faceEnrolled ∧
      Machine.Throughout Complete macbookStart ts := by
  have hend : (flow.trace macbookStart (macbookTurns (.face [1] 1))).map
      (fun (ts, f) => (f.card.message, decide (Machine.EachStep
        (fun _ t => FaceUploaded t) ts))) = some (.faceEnrolled, true) := by
    decide +kernel
  obtain ⟨ts, f, hrun, hview⟩ := Machine.exists_run_of_view hend
  obtain ⟨hmessage, hsteps⟩ := Prod.mk.inj hview
  have hstart : enroll .macbook none resident 0 = some macbookStart := rfl
  exact ⟨ts, f, hrun, hmessage,
    (complete_iff_faceUploaded hstart hrun).mpr (of_decide_eq_true hsteps)⟩

theorem not_always_complete :
    ¬ ∀ (ts : List Step) (f : Flow), flow.Run macbookStart ts f → Complete ts f := by
  intro halways
  have hend : (flow.trace macbookStart (macbookTurns .noFace)).map
      (fun (ts, f) => (f.card.message, ts.all fun t => storedBy (t.label.deed t.before) = none)) =
        some (.faceEnrolled, true) := by
    decide +kernel
  obtain ⟨ts, f, hrun, hview⟩ := Machine.exists_run_of_view hend
  obtain ⟨hmessage, hnothing⟩ := Prod.mk.inj hview
  obtain ⟨s, _, hstores⟩ := (halways ts f hrun).finalized (Or.inr hmessage)
  obtain ⟨t, ht, hstored⟩ := hstores .front
  have hnone := of_decide_eq_true (List.all_eq_true.mp hnothing t ht)
  rw [Stores, hnone] at hstored
  cases hstored

end FacialCamera.Screen
