import FacialCamera.Recognition.Accounts

/-! # The threshold and the two modes

With the face library a run lets somebody in at the threshold or above it.
Without the library `compare_face` draws a member at random and reports the fixed
confidence 0.85, which it compares with nothing.
-/

namespace FacialCamera.Recognition

open FacialCamera.Core Backend Door

/-- The run has no library, finds a face and draws an entry with a name. -/
def DrawsMatch (b : Process) (sight : Sight) : Prop :=
  ∃ encoding quality random choice, grabFaceEncoding sight.frames = .face encoding quality ∧
    sight.library = .unavailable random choice ∧ random < 7 / 10 ∧
      ∃ k ∈ drawn choice b.db.getAllFaceEncodings, k.name ≠ ""

/-- The authorized entries of a transition record a confidence that reaches the threshold of
their comparison. -/
def Binds (t : Transition Process Event) : Prop :=
  ∀ r ∈ appended t, r.type = .authorized →
    ∃ confidence ∈ r.confidence, t.before.confidenceThreshold ≤ confidence

instance (t : Transition Process Event) : Decidable (Binds t) :=
  inferInstanceAs (Decidable (∀ r ∈ appended t, r.type = .authorized →
    ∃ confidence ∈ r.confidence, t.before.confidenceThreshold ≤ confidence))

/-- A recognition run that draws a match does so at a threshold of 0.85 at most. -/
def DrawsWithin (t : Transition Process Event) : Prop :=
  ∀ p sight, t.label.recognition = some (p, sight) → p.Runs t.before →
    DrawsMatch t.before sight → t.before.confidenceThreshold ≤ 85 / 100

/-! ## The simulated comparison -/

/-- A run without the library lets somebody in exactly if it draws a match, and then at the
simulated confidence. -/
theorem verdict_of_drawsMatch {b : Process} {sight : Sight} (h : DrawsMatch b sight) :
    ∃ name, verdict b sight = .authorized name (85 / 100) := by
  obtain ⟨encoding, quality, random, choice, hface, hlibrary, hrandom, k, hk, hname⟩ := h
  have hanswer := compareFace_simulated random choice b.confidenceThreshold encoding
    b.db.getAllFaceEncodings
  rw [if_pos hrandom, Option.mem_def.mp hk] at hanswer
  refine ⟨k.name, ?_⟩
  simp [verdict, hface, hlibrary, hanswer, recognizedName, hname]

/-- Whom a run lets in reaches the threshold or was drawn. -/
theorem confidence_of_authorized {b : Process} {sight : Sight} {name : String} {confidence : ℚ}
    (h : verdict b sight = .authorized name confidence) :
    b.confidenceThreshold ≤ confidence ∨ (DrawsMatch b sight ∧ confidence = 85 / 100) := by
  obtain ⟨encoding, quality, hface, k, _, hk, hname, hanswer⟩ := verdict_eq_authorized h
  cases hlibrary : sight.library with
  | available distance =>
      rw [hlibrary] at hanswer
      obtain ⟨e, _, _, _, _, hreached⟩ := nearest_of_compareFace hanswer (Or.inl rfl)
      exact Or.inl hreached
  | unavailable random choice =>
      rw [hlibrary, compareFace_simulated] at hanswer
      split at hanswer
      case isFalse => cases hanswer
      case isTrue hrandom =>
        cases hdrawn : drawn choice b.db.getAllFaceEncodings with
        | none => simp [hdrawn] at hanswer
        | some k' =>
            obtain ⟨_, rfl, rfl⟩ : k'.memberId = k.memberId ∧ k'.name = name ∧
                85 / 100 = confidence := by simpa [hdrawn] using hanswer
            exact Or.inr ⟨⟨encoding, quality, random, choice, hface, hlibrary, hrandom, k', hdrawn,
              hname⟩, rfl⟩

/-! ## Runs -/

theorem binds_step {b b' : Process} {e : Event} (hnext : live.next b e = some b') :
    Binds ⟨b, e, b'⟩ ↔ DrawsWithin ⟨b, e, b'⟩ := by
  constructor
  · intro h p sight hrecognition hruns hdraws
    obtain ⟨name, hverdict⟩ := verdict_of_drawsMatch hdraws
    have hafter := after_of_recognition hnext hrecognition
    have happended : appended ⟨b, e, b'⟩ = p.trigger b ::
        (verdictEntry (p.triggered b) (captureSnapshot sight.jpeg) (verdict b sight)).toList := by
      rw [appended, hafter, logs_perform sight hruns, List.drop_left]
    obtain ⟨confidence, hconfidence, hreached⟩ :=
      h _ (by rw [happended, hverdict]; exact List.mem_cons_of_mem _ (List.mem_singleton.mpr rfl))
        rfl
    cases hconfidence
    exact hreached
  · intro h r hr htype
    obtain ⟨p, sight, confidence, hrecognition, hruns, hverdict, hconfidence⟩ :=
      authorized_step hnext hr htype
    refine ⟨confidence, hconfidence, ?_⟩
    rcases confidence_of_authorized hverdict with hreached | ⟨hdraws, rfl⟩
    · exact hreached
    · exact h p sight hrecognition hruns hdraws

/-- The threshold binds in a run exactly if no match is drawn above 0.85. -/
theorem binds_iff_drawsWithin {b₀ b : Process} {ts : List (Transition Process Event)}
    (hrun : live.Run b₀ ts b) : (∀ t ∈ ts, Binds t) ↔ ∀ t ∈ ts, DrawsWithin t :=
  forall₂_congr fun _ ht => binds_step (hrun.next_of_mem ht)

/-! ## Above the simulated confidence -/

def drawing : Surroundings where
  sight := { familiar with library := .unavailable 0 0 }
  encode := fun _ => .noFace
  sensor := .ok []

def enrollAndRing (threshold : ℚ) : List Event :=
  ([.addMember "Resident" "Member", .startEnrollment 0, .piCameraCapture 0 1 "front",
    .completeEnrollment 0 1, .setConfidence (some threshold), .doorbell] : List ApiRequest).map
      fun a => .request a drawing

theorem binds_enrollAndRing :
    ∃ ts b, live.Run (Process.boot true none 0) ts b ∧ (∀ t ∈ ts, Binds t) ∧
      ∀ t ∈ ts, DrawsWithin t := by
  have hend : (live.trace (Process.boot true none 0) (enrollAndRing (8 / 10))).map
      (fun (ts, _) => decide (∀ t ∈ ts, Binds t)) = some true := by decide +kernel
  obtain ⟨ts, b, hrun, hview⟩ := Machine.exists_run_of_view hend
  have hbinds : ∀ t ∈ ts, Binds t := of_decide_eq_true hview
  exact ⟨ts, b, hrun, hbinds, (binds_iff_drawsWithin hrun).mp hbinds⟩

theorem not_always_binds :
    ¬ ∀ (b₀ b : Process) (ts : List (Transition Process Event)), live.Run b₀ ts b →
      ∀ t ∈ ts, Binds t := by
  intro halways
  have hend : (live.trace (Process.boot true none 0) (enrollAndRing (9 / 10))).map
      (fun (ts, _) => decide (∀ t ∈ ts, Binds t)) = some false := by decide +kernel
  obtain ⟨ts, b, hrun, hview⟩ := Machine.exists_run_of_view hend
  exact of_decide_eq_false hview (halways _ b ts hrun)

end FacialCamera.Recognition
