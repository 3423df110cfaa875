import FacialCamera.Enrollment.Requests
import FacialCamera.Recognition.Pipelines

/-! # Who is let in

`compare_face` returns the id and the name of an enrolled member, and both
pipelines ask for the truth of both (`if member_id and name`). An id is never
empty, but a name may be: `add_member` takes any text.
-/

namespace FacialCamera.Recognition

open FacialCamera.Core Backend Door

def matched (b : Process) (sight : Sight) : Option Uuid :=
  match grabFaceEncoding sight.frames with
  | .face encoding _ =>
      (compareFace sight.library b.confidenceThreshold encoding b.db.getAllFaceEncodings).1
  | _ => none

/-- The run logs the member's entry after its own, commands one unlock, opens the door until
the relock it schedules, and raises no alert. -/
structure LetsIn (p : Pipeline) (sight : Sight) (b : Process) (row : MemberRow) : Prop where
  logged : ∃ e, (p.perform sight b).db.logs = (p.announced b).logs ++ [e] ∧
    e.type = .authorized ∧ e.name = row.name
  unlocked : unlocks (p.program sight) b = 1
  opened : (p.perform sight b).db.doorLocked = false
  scheduled : (p.perform sight b).relock =
    b.relock.cancelCurrent.start (b.clock + AUTO_RELOCK_SECS)
  unalarmed : (p.perform sight b).db.alerts = b.db.alerts

/-- A match lets its enrolled member in, and without a match there is no unlock. -/
structure HonoursMatch (p : Pipeline) (sight : Sight) (b : Process) : Prop where
  admits : ∀ m ∈ matched b sight, ∃ row ∈ b.db.getMember m,
    row.faceEnrolled = true ∧ LetsIn p sight b row
  excludes : matched b sight = none → unlocks (p.program sight) b = 0

/-! ## Verdicts -/

/-- The row of a matched member, and the verdict its name gives. -/
theorem verdict_of_matched {b : Process} {sight : Sight} {m : Uuid}
    (h : matched b sight = some m) :
    ∃ row confidence, b.db.getMember m = some row ∧ row.faceEnrolled = true ∧
      verdict b sight =
        if row.name = "" then .unknown confidence else .authorized row.name confidence := by
  unfold matched at h
  unfold verdict
  cases hgrab : grabFaceEncoding sight.frames with
  | raises => simp [hgrab] at h
  | noFace => simp [hgrab] at h
  | face encoding quality =>
      simp only [hgrab] at h
      rcases compareFace_entry sight.library b.confidenceThreshold encoding
        b.db.getAllFaceEncodings with ⟨k, hk, confidence, hanswer⟩ | ⟨confidence, hanswer⟩
      · obtain ⟨e, _, row, hrow, henrolled, rfl⟩ := b.db.mem_getAllFaceEncodings.mp hk
        obtain rfl : e.memberId = m := by simpa [hanswer] using h
        refine ⟨row, confidence, hrow, henrolled, ?_⟩
        by_cases hname : row.name = "" <;> simp [hanswer, recognizedName, hname]
      · simp [hanswer] at h

theorem admits_of_not_matched {b : Process} {sight : Sight} (h : matched b sight = none) :
    admits (verdict b sight) = false := by
  unfold matched at h
  unfold verdict
  cases hgrab : grabFaceEncoding sight.frames with
  | raises => rfl
  | noFace => rfl
  | face encoding quality =>
      simp only [hgrab] at h
      rcases compareFace_entry sight.library b.confidenceThreshold encoding
        b.db.getAllFaceEncodings with ⟨k, hk, confidence, hanswer⟩ | ⟨confidence, hanswer⟩
      · simp [hanswer] at h
      · simp [hanswer, recognizedName, admits]

/-! ## Runs -/

theorem letsIn_of_verdict {p : Pipeline} {b : Process} {sight : Sight} {row : MemberRow}
    {confidence : ℚ} (hruns : p.Runs b)
    (hverdict : verdict b sight = .authorized row.name confidence) : LetsIn p sight b row := by
  have hperform := perform_eq sight hruns
  rw [hverdict] at hperform
  constructor
  · rw [hperform]
    exact ⟨_, rfl, rfl, rfl⟩
  · rw [unlocks_program sight hruns, hverdict]
    rfl
  · rw [hperform]
    rfl
  · rw [hperform]
    cases p <;> rfl
  · rw [hperform]
    cases p <;> rfl

/-- A run honours its match exactly if the matched member has a name that is not empty. -/
theorem honoursMatch_iff {p : Pipeline} {b : Process} (sight : Sight) (hruns : p.Runs b) :
    HonoursMatch p sight b ↔
      ∀ m ∈ matched b sight, ∀ row ∈ b.db.getMember m, row.name ≠ "" := by
  constructor
  · intro h m hm row hrow hname
    obtain ⟨row', confidence, hrow', _, hverdict⟩ := verdict_of_matched hm
    obtain rfl : row' = row := Option.some.inj (hrow'.symm.trans hrow)
    obtain ⟨row', hrow'', _, hletsIn⟩ := h.admits m hm
    have hnone : unlocks (p.program sight) b = 0 := by
      rw [unlocks_program sight hruns, hverdict, if_pos hname]
      rfl
    exact absurd (hnone.symm.trans hletsIn.unlocked) (by decide)
  · intro h
    constructor
    · intro m hm
      obtain ⟨row, confidence, hrow, henrolled, hverdict⟩ := verdict_of_matched hm
      rw [if_neg (h m hm row hrow)] at hverdict
      exact ⟨row, hrow, henrolled, letsIn_of_verdict hruns hverdict⟩
    · intro hnone
      rw [unlocks_program sight hruns, admits_of_not_matched hnone]
      rfl

/-! ## A member without a name -/

def enrolledAs (name : String) : Process :=
  ([.addMember name "Member", .startEnrollment 0,
    .piCameraCapture 0 1 "front" (some (.face [1] 1)), .completeEnrollment 0 1] :
      List Enrollment.Request).foldl (fun b r => r.perform b) (Process.boot true none 0)

/-- A frame with a face that is at distance 0 from every encoding. -/
def familiar : Sight where
  frames := fun _ => some (.face [1] 1)
  jpeg := none
  library := .available fun _ _ => 0

theorem honoursMatch_resident : HonoursMatch .doorbell familiar (enrolledAs "Resident") := by
  refine (honoursMatch_iff (p := .doorbell) familiar trivial).mpr fun m hm row hrow => ?_
  have hnames : ∀ r ∈ (enrolledAs "Resident").db.members.rows, r.name ≠ "" := by decide +kernel
  exact hnames row (Table.find?_mem hrow).1

theorem not_always_honoursMatch :
    ¬ ∀ (p : Pipeline) (sight : Sight) (b : Process), p.Runs b → HonoursMatch p sight b := by
  intro halways
  have hmatched : matched (enrolledAs "") familiar = some 0 := by decide +kernel
  have hnone : unlocks (Pipeline.doorbell.program familiar) (enrolledAs "") = 0 := by
    decide +kernel
  obtain ⟨row, _, _, hletsIn⟩ :=
    (halways .doorbell familiar (enrolledAs "") trivial).admits 0 hmatched
  exact absurd (hnone.symm.trans hletsIn.unlocked) (by decide)

end FacialCamera.Recognition
