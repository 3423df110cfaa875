import FacialCamera.Enrollment.Segments
import FacialCamera.Recognition.Compare

/-! # Removed face templates

Removing a template deletes the member's encodings and closes the gate, and
leaves every session of the member as it is. A session from before the removal
can still be completed, whatever its status, and its completion opens the gate to
the encodings that any capture has stored since.
-/

namespace FacialCamera.Enrollment

open FacialCamera.Core Backend Recognition

/-- A recognition run over these tables can return the member. -/
def Recognizable (db : Database) (m : Uuid) : Prop :=
  ∃ library threshold unknown,
    (compareFace library threshold unknown db.getAllFaceEncodings).1 = some m

/-- The sessions of `m` started since its template was removed; `none` where it has not been
removed, or one of them has been completed. `fresh` is the id that a new session gets. -/
def Deed.sinceRemoval (m fresh : Uuid) (since : Option (List Uuid)) : Deed → Option (List Uuid)
  | .removeTemplate m' => if m' = m then some [] else since
  | .start m' => if m' = m then since.map fun started => started ++ [fresh] else since
  | .complete m' s _ => if m' = m ∧ ∃ started ∈ since, s ∈ started then none else since
  | _ => since

def sinceRemoval (m : Uuid) (ts : List (Transition Desk DeskMove)) : Option (List Uuid) :=
  ts.foldl (fun since t =>
    (t.label.deed t.before).sinceRemoval m t.before.process.db.uuids since) none

def StaysRemoved (ts : List (Transition Desk DeskMove)) (db : Database) : Prop :=
  ∀ m, (sinceRemoval m ts).isSome = true → ¬ Recognizable db m

/-- While a template is removed, a capture is for a member who is not enrolled, and a
completion through an earlier session finds no encoding. -/
def Deed.Respects (since : Uuid → Option (List Uuid)) (db : Database) : Deed → Prop
  | .capture m _ _ _ _ => (since m).isSome = true → enrolled db m = false
  | .complete m s _ => ∀ started ∈ since m, s ∉ started → stored db m = []
  | _ => True

def RespectsRemoval (ts : List (Transition Desk DeskMove)) (t : Transition Desk DeskMove) : Prop :=
  (t.label.deed t.before).Respects (fun m => sinceRemoval m ts) t.before.process.db

instance (since : Uuid → Option (List Uuid)) (db : Database) :
    (d : Deed) → Decidable (d.Respects since db)
  | .capture m _ _ _ _ =>
      inferInstanceAs (Decidable ((since m).isSome = true → enrolled db m = false))
  | .complete m s _ =>
      inferInstanceAs (Decidable (∀ started ∈ since m, s ∉ started → stored db m = []))
  | .nothing | .addMember _ _ | .removeMember _ | .start _ | .note _ _ | .cancel _ _
  | .removeTemplate _ => instDecidableTrue

instance (ts : List (Transition Desk DeskMove)) (t : Transition Desk DeskMove) :
    Decidable (RespectsRemoval ts t) :=
  inferInstanceAs (Decidable (Deed.Respects _ _ _))

/-! ## Whom a run can return -/

theorem enrolled_iff {db : Database} {m : Uuid} :
    enrolled db m = true ↔ ∃ row, db.getMember m = some row ∧ row.faceEnrolled = true := by
  unfold enrolled
  cases db.getMember m <;> simp

/-- A member can be returned exactly if the gate is open and an encoding is stored. -/
theorem recognizable_iff {db : Database} {m : Uuid} :
    Recognizable db m ↔ enrolled db m = true ∧ stored db m ≠ [] := by
  constructor
  · rintro ⟨library, threshold, unknown, hreturns⟩
    rcases compareFace_entry library threshold unknown db.getAllFaceEncodings with
      ⟨k, hk, confidence, hanswer⟩ | ⟨confidence, hanswer⟩
    · obtain ⟨e, he, row, hrow, henrolled, rfl⟩ := db.mem_getAllFaceEncodings.mp hk
      obtain rfl : e.memberId = m := by simpa [hanswer] using hreturns
      exact ⟨enrolled_iff.mpr ⟨row, hrow, henrolled⟩,
        List.ne_nil_of_mem (List.mem_filter.mpr ⟨he, by simp⟩)⟩
    · simp [hanswer] at hreturns
  · rintro ⟨henrolled, hstored⟩
    obtain ⟨row, hrow, hgate⟩ := enrolled_iff.mp henrolled
    obtain ⟨e, hmem⟩ := List.exists_mem_of_ne_nil _ hstored
    obtain ⟨he, hmember⟩ := List.mem_filter.mp hmem
    obtain rfl : e.memberId = m := by simpa using hmember
    have hk : (⟨e.encoding, e.memberId, row.name⟩ : KnownEntry) ∈ db.getAllFaceEncodings :=
      db.mem_getAllFaceEncodings.mpr ⟨e, he, row, hrow, hgate, rfl⟩
    -- without the library any entry can be drawn
    obtain ⟨i, hi, hget⟩ := List.getElem_of_mem hk
    have hdrawn : drawn i db.getAllFaceEncodings = some ⟨e.encoding, e.memberId, row.name⟩ := by
      rw [drawn, Nat.mod_eq_of_lt hi, List.getElem?_eq_getElem hi, hget]
    refine ⟨.unavailable 0 i, 0, [], ?_⟩
    rw [compareFace_simulated, if_pos (by norm_num), hdrawn]

/-! ## One deed -/

section Step

variable {db : Database} {now : Timestamp} {d : Deed} {since : Uuid → Option (List Uuid)}

def KeptOut (db : Database) (now : Timestamp) (d : Deed) (since : Uuid → Option (List Uuid)) :
    Prop :=
  ∀ m, (d.sinceRemoval m db.uuids (since m)).isSome = true → ¬ Recognizable (d.apply now db) m

theorem recognizable_apply (hvalid : d.Valid db) (m : Uuid) :
    Recognizable (d.apply now db) m ↔
      d.enrolledAfter db m = true ∧ d.storedAfter now db m ≠ [] := by
  rw [recognizable_iff, enrolled_apply now hvalid, stored_apply now hvalid]

theorem keptOut_capture_iff {m s : Uuid} {encoding : Encoding} {angle : String}
    {columns : Option Database.SessionColumns}
    (hvalid : (Deed.capture m s encoding angle columns).Valid db)
    (h : ∀ m, (since m).isSome = true → ¬ Recognizable db m) :
    KeptOut db now (.capture m s encoding angle columns) since ↔
      ((since m).isSome = true → enrolled db m = false) := by
  constructor
  · intro hafter hwaits
    have hout := hafter m hwaits
    rw [recognizable_apply hvalid] at hout
    simpa [Deed.enrolledAfter, Deed.storedAfter] using hout
  · intro hclosed m' hwaits
    have hbefore := h m' hwaits
    rw [recognizable_iff] at hbefore
    rw [recognizable_apply hvalid]
    by_cases hm : m = m'
    · subst hm
      simp [Deed.enrolledAfter, hclosed hwaits]
    · simpa [Deed.enrolledAfter, Deed.storedAfter, hm] using hbefore

theorem keptOut_complete_iff {m s : Uuid} {liveness : ℚ}
    (hvalid : (Deed.complete m s liveness).Valid db)
    (h : ∀ m, (since m).isSome = true → ¬ Recognizable db m) :
    KeptOut db now (.complete m s liveness) since ↔
      ∀ started ∈ since m, s ∉ started → stored db m = [] := by
  constructor
  · intro hafter started hstarted hearlier
    have hout := hafter m (by simp_all [Deed.sinceRemoval])
    rw [recognizable_apply hvalid] at hout
    simpa [Deed.enrolledAfter, Deed.storedAfter] using hout
  · intro hempty m' hwaits
    rw [recognizable_apply hvalid]
    by_cases hm : m = m'
    · subst hm
      cases hsince : since m with
      | none => simp [Deed.sinceRemoval, hsince] at hwaits
      | some started =>
          have hearlier : s ∉ started := by
            intro hs
            simp [Deed.sinceRemoval, hsince, hs] at hwaits
          simp [Deed.storedAfter, hempty started hsince hearlier]
    · have hbefore := h m' (by simpa [Deed.sinceRemoval, hm] using hwaits)
      rw [recognizable_iff] at hbefore
      simpa [Deed.enrolledAfter, Deed.storedAfter, hm] using hbefore

/-- A deed that enrolls nobody and stores nothing. -/
theorem keptOut_of_frame (hvalid : d.Valid db)
    (h : ∀ m, (since m).isSome = true → ¬ Recognizable db m)
    (hframe : ∀ m, (d.sinceRemoval m db.uuids (since m)).isSome = true →
      d.enrolledAfter db m = true → (since m).isSome = true ∧ enrolled db m = true ∧
        d.storedAfter now db m = stored db m) : KeptOut db now d since := by
  intro m hwaits hrecognized
  rw [recognizable_apply hvalid] at hrecognized
  obtain ⟨hbefore, henrolled, hstored⟩ := hframe m hwaits hrecognized.1
  rw [hstored] at hrecognized
  exact h m hbefore (recognizable_iff.mpr ⟨henrolled, hrecognized.2⟩)

theorem keptOut_iff (hvalid : d.Valid db)
    (h : ∀ m, (since m).isSome = true → ¬ Recognizable db m) :
    KeptOut db now d since ↔ d.Respects since db := by
  cases d with
  | capture m s encoding angle columns => exact keptOut_capture_iff hvalid h
  | complete m s liveness => exact keptOut_complete_iff hvalid h
  | start m =>
      refine iff_of_true (keptOut_of_frame hvalid h fun m' hwaits henrolled => ?_) trivial
      refine ⟨?_, henrolled, rfl⟩
      by_cases hm : m = m' <;> simpa [Deed.sinceRemoval, hm] using hwaits
  | removeTemplate m | removeMember m =>
      refine iff_of_true (keptOut_of_frame hvalid h fun m' hwaits henrolled => ?_) trivial
      by_cases hm : m = m'
      · simp [Deed.enrolledAfter, hm] at henrolled
      · refine ⟨?_, ?_, ?_⟩ <;>
          simp_all [Deed.sinceRemoval, Deed.enrolledAfter, Deed.storedAfter]
  | nothing | addMember | note | cancel =>
      exact iff_of_true (keptOut_of_frame hvalid h fun m' hwaits henrolled =>
        ⟨hwaits, henrolled, rfl⟩) trivial

end Step

/-! ## Whole runs -/

theorem sinceRemoval_snoc (m : Uuid) (ts : List (Transition Desk DeskMove))
    (t : Transition Desk DeskMove) : sinceRemoval m (ts ++ [t]) =
      (t.label.deed t.before).sinceRemoval m t.before.process.db.uuids (sinceRemoval m ts) := by
  simp [sinceRemoval]

/-- Nobody whose template is removed is recognized before a new session of theirs is
completed, exactly if every step respects the removals before it. -/
theorem staysRemoved_iff {b : Process} {d : Desk} {ts : List (Transition Desk DeskMove)}
    (hrun : desk.Run ⟨b, 0, []⟩ ts d) :
    Machine.Throughout (fun us d => StaysRemoved us d.process.db) ⟨b, 0, []⟩ ts ↔
      Machine.EachStep RespectsRemoval ts := by
  refine hrun.throughout_iff ?_ fun us d l d' hprior h hnext => ?_
  · intro m hwaits
    cases hwaits
  · have hdb := (desk_spec (suspended_run hprior) hnext).1
    -- the fold over the history meets the deed exactly as the step lemma takes it
    have hstep : KeptOut d.process.db l.clock (l.deed d) (fun m => sinceRemoval m us) ↔
        RespectsRemoval us ⟨d, l, d'⟩ := keptOut_iff (l.deed_valid d) h
    rw [← hstep]
    simp only [StaysRemoved, KeptOut, sinceRemoval_snoc, hdb]

/-! ## An earlier session completed again -/

def captureAfterRemoval : List Request :=
  [.addMember "Resident" "Member", .startEnrollment 0,
    .piCameraCapture 0 1 "front" (some (.face [1] 1)), .completeEnrollment 0 1,
    .removeFaceTemplate 0, .startEnrollment 0, .piCameraCapture 0 4 "front" (some (.face [2] 1))]

/-- The second session is cancelled, and the first one is completed once more. -/
def completeEarlier : List Request :=
  captureAfterRemoval ++ [.cancelEnrollment 0 4, .completeEnrollment 0 1]

def arriving (requests : List Request) : List DeskMove :=
  requests.map fun r => .arrive ⟨0, r⟩

theorem staysRemoved_captureAfterRemoval :
    ∃ ts d, desk.Run ⟨Process.boot true none 0, 0, []⟩ ts d ∧ sinceRemoval 0 ts = some [4] ∧
      Machine.Throughout (fun us d => StaysRemoved us d.process.db)
        ⟨Process.boot true none 0, 0, []⟩ ts := by
  have hend : (desk.trace ⟨Process.boot true none 0, 0, []⟩ (arriving captureAfterRemoval)).map
      (fun (ts, _) => (sinceRemoval 0 ts, decide (Machine.EachStep RespectsRemoval ts))) =
      some (some [4], true) := by decide +kernel
  obtain ⟨ts, d, hrun, hview⟩ := Machine.exists_run_of_view hend
  obtain ⟨hsince, hsteps⟩ := Prod.mk.inj hview
  exact ⟨ts, d, hrun, hsince, (staysRemoved_iff hrun).mpr (of_decide_eq_true hsteps)⟩

theorem not_always_staysRemoved :
    ¬ ∀ (b : Process) (ts : List (Transition Desk DeskMove)) (d : Desk),
      desk.Run ⟨b, 0, []⟩ ts d → StaysRemoved ts d.process.db := by
  intro halways
  have hend : (desk.trace ⟨Process.boot true none 0, 0, []⟩ (arriving completeEarlier)).map
      (fun (ts, d) => ((sinceRemoval 0 ts).isSome, enrolled d.process.db 0,
        (stored d.process.db 0).length)) = some (true, true, 1) := by decide +kernel
  obtain ⟨ts, d, hrun, hview⟩ := Machine.exists_run_of_view hend
  simp only [Prod.mk.injEq] at hview
  obtain ⟨hremoved, henrolled, hstored⟩ := hview
  refine halways _ ts d hrun 0 hremoved (recognizable_iff.mpr ⟨henrolled, ?_⟩)
  exact List.ne_nil_of_length_pos (by omega)

end FacialCamera.Enrollment
