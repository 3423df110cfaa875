import FacialCamera.Enrollment.History

/-! # Enrolled members and the angles captured for them

`start_enrollment` announces three required angles. No handler reads the
announcement again: the capture endpoints count captures of any angle, and
`complete_enrollment` opens the gate whatever has been captured.
-/

namespace FacialCamera.Enrollment

open FacialCamera.Core Backend

def AllAngles (db : Database) (m : Uuid) : Prop :=
  ∀ angle ∈ captureGuidance.requiredAngles, ∃ e ∈ stored db m, e.angle = angle

instance (db : Database) (m : Uuid) : Decidable (AllAngles db m) := by
  unfold AllAngles
  infer_instance

def Captured (db : Database) : Prop := ∀ m, enrolled db m = true → AllAngles db m

/-- A completion finds its member fully captured. -/
def CompletesCaptured (db : Database) : Deed → Prop
  | .complete m _ _ => AllAngles db m
  | _ => True

instance (db : Database) (d : Deed) : Decidable (CompletesCaptured db d) := by
  unfold CompletesCaptured
  split <;> infer_instance

theorem AllAngles.append {db db' : Database} {m : Uuid} {es : List EncodingRow}
    (h : AllAngles db m) (hstored : stored db' m = stored db m ++ es) : AllAngles db' m := by
  intro angle hangle
  obtain ⟨e, he, rfl⟩ := h angle hangle
  exact ⟨e, by simp [hstored, he], rfl⟩

theorem AllAngles.congr {db db' : Database} {m : Uuid} (hstored : stored db' m = stored db m) :
    AllAngles db' m ↔ AllAngles db m := by
  rw [AllAngles, hstored, AllAngles]

/-- A deed that opens no gate and empties no opened one. -/
theorem Captured.of_frame {db db' : Database} (h : Captured db)
    (hframe : ∀ m, enrolled db' m = true →
      enrolled db m = true ∧ ∃ es, stored db' m = stored db m ++ es) : Captured db' := by
  intro m hm
  obtain ⟨hbefore, es, hstored⟩ := hframe m hm
  exact (h m hbefore).append hstored

theorem captured_complete_iff {db : Database} {now : Timestamp} {m s : Uuid} {liveness : ℚ}
    (hvalid : (Deed.complete m s liveness).Valid db) (h : Captured db) :
    Captured ((Deed.complete m s liveness).apply now db) ↔ AllAngles db m := by
  have hstored := stored_apply now hvalid
  have henrolled := enrolled_apply now hvalid
  simp only [Deed.storedAfter, Deed.enrolledAfter] at hstored henrolled
  constructor
  · intro hafter
    exact (AllAngles.congr (hstored m)).mp (hafter m (by simp [henrolled]))
  · intro hall m' hm'
    rw [AllAngles.congr (hstored m')]
    by_cases hm : m = m'
    · exact hm ▸ hall
    · exact h m' (by simpa [henrolled, hm] using hm')

theorem captured_apply_iff {db : Database} {now : Timestamp} {d : Deed} (hvalid : d.Valid db)
    (h : Captured db) : Captured (d.apply now db) ↔ CompletesCaptured db d := by
  have hstored := stored_apply now hvalid
  have henrolled := enrolled_apply now hvalid
  cases d with
  | complete m s liveness => exact captured_complete_iff hvalid h
  | capture m s encoding angle columns =>
      have hafter : Captured ((Deed.capture m s encoding angle columns).apply now db) := by
        refine h.of_frame fun m' hm' => ⟨by simpa [henrolled, Deed.enrolledAfter] using hm', ?_⟩
        simp only [hstored, Deed.storedAfter]
        split
        · exact ⟨_, rfl⟩
        · exact ⟨[], by simp⟩
      exact iff_of_true hafter trivial
  | removeMember m | removeTemplate m =>
      refine iff_of_true (h.of_frame fun m' hm' => ?_) trivial
      simp only [henrolled, Deed.enrolledAfter] at hm'
      split at hm'
      case isTrue => cases hm'
      case isFalse hm => exact ⟨hm', [], by simp [hstored, Deed.storedAfter, hm]⟩
  | nothing | addMember | start | note | cancel =>
      refine iff_of_true (h.of_frame fun m' hm' => ?_) trivial
      have hbefore : enrolled db m' = true := by simpa [henrolled, Deed.enrolledAfter] using hm'
      exact ⟨hbefore, [], by simp [hstored, Deed.storedAfter]⟩

/-- In every state of a run the enrolled members are fully captured, exactly if every
completion finds its member so. -/
theorem captured_iff_completesCaptured {onPi : Bool} {clock : ℚ} {b : Process}
    {ts : List (Transition Process Arrival)}
    (hrun : serve.Run (Process.boot onPi none clock) ts b) :
    Machine.Throughout (fun _ b => Captured b.db) (Process.boot onPi none clock) ts ↔
      Machine.EachStep (fun _ t => CompletesCaptured t.before.db (deedOf t)) ts := by
  refine hrun.throughout_iff ?_ fun us b a b' _ h hnext => ?_
  · intro m hm
    simp [enrolled, Process.boot, Database.initDb, Database.fresh, Database.getMember] at hm
  · rw [serve_db hnext]
    exact captured_apply_iff (deed_valid b.db a.request) h

/-! ## A full and an empty enrollment -/

def emptyEnrollment : List Arrival :=
  ([.addMember "Resident" "Member", .startEnrollment 0, .completeEnrollment 0 1] :
    List Request).map (Arrival.mk 0)

theorem captured_throughout_fullEnrollment :
    ∃ ts b, serve.Run (Process.boot true none 0) ts b ∧ enrolled b.db 0 = true ∧
      Machine.Throughout (fun _ b => Captured b.db) (Process.boot true none 0) ts := by
  have hend : (serve.trace (Process.boot true none 0) fullEnrollment).map
      (fun (ts, b) => (enrolled b.db 0, decide (Machine.EachStep
        (fun _ t => CompletesCaptured t.before.db (deedOf t)) ts))) = some (true, true) := by
    decide +kernel
  obtain ⟨ts, b, hrun, hview⟩ := Machine.exists_run_of_view hend
  obtain ⟨henrolled, hsteps⟩ := Prod.mk.inj hview
  exact ⟨ts, b, hrun, henrolled,
    (captured_iff_completesCaptured hrun).mpr (of_decide_eq_true hsteps)⟩

theorem not_always_captured :
    ¬ ∀ (ts : List (Transition Process Arrival)) (b : Process),
      serve.Run (Process.boot true none 0) ts b → Captured b.db := by
  intro halways
  have hend : (serve.trace (Process.boot true none 0) emptyEnrollment).map
      (fun (_, b) => (enrolled b.db 0, decide (AllAngles b.db 0))) = some (true, false) := by
    decide +kernel
  obtain ⟨ts, b, hrun, hview⟩ := Machine.exists_run_of_view hend
  obtain ⟨henrolled, hangles⟩ := Prod.mk.inj hview
  exact of_decide_eq_false hangles (halways ts b hrun 0 henrolled)

end FacialCamera.Enrollment
