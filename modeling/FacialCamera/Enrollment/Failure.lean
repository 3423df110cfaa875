import FacialCamera.Enrollment.Segments

/-! # Enrollment requests interrupted by a database exception

Every function of `database.py` opens a connection of its own and commits before
it returns, and no handler has a `try` block. A request whose next call raises
therefore leaves the tables as its writes so far have committed them: none of
them, all of them, or for the requests with two writes the first one alone.
-/

namespace FacialCamera.Backend

/-- The calls that commit a change of one of these tables. -/
def Call.writes : Call → Bool
  | .addMember _ _ | .deleteMember _ | .updateMemberFaceEnrolled _ _ _
  | .createEnrollmentSession _ | .updateEnrollmentSession _ _ | .storeFaceEncoding _ _ _
  | .deleteFaceEncodings _ => true
  | _ => false

theorem exec_tables {c : Call} {b b' : Process} {r : Answer c} (hc : c.writes = false)
    (h : exec c b = some (r, b')) : b'.db.tables = b.db.tables := by
  cases c <;> simp only [exec, Option.ite_none_right_eq_some, Option.some.injEq,
    Prod.mk.injEq] at h
  case addMember | deleteMember | updateMemberFaceEnrolled | createEnrollmentSession
      | updateEnrollmentSession | storeFaceEncoding | deleteFaceEncodings => cases hc
  case getLogs | getLogSnapshot | markAlertRead =>
    obtain ⟨_, _, rfl⟩ := h
    rfl
  case claimMotion =>
    unfold Process.claimMotion at h
    split at h <;> cases h <;> rfl
  all_goals (obtain ⟨_, rfl⟩ := h; rfl)

end FacialCamera.Backend

namespace FacialCamera.Enrollment

open FacialCamera.Core Backend

/-! ## The commits of a deed -/

def Deed.commits (now : Timestamp) (db : Database) : Deed → List Database
  | .nothing => []
  | .addMember name role => [(db.addMember name role now).2]
  | .removeMember m => [db.deleteFaceEncodings m, (db.deleteFaceEncodings m).deleteMember m]
  | .start m => ((db.createEnrollmentSession m now).map Prod.snd).toList
  | .note s message => [db.updateEnrollmentSession s { message := some message }]
  | .capture m s encoding stored columns =>
      match db.storeFaceEncoding m encoding (.text stored) now with
      | none => []
      | some db' => db' :: (columns.map (db'.updateEnrollmentSession s)).toList
  | .complete m s liveness =>
      let db' := db.updateEnrollmentSession s (completedColumns now)
      [db', db'.updateMemberFaceEnrolled m true (some liveness) now]
  | .cancel _ s => [db.updateEnrollmentSession s cancelledColumns]
  | .removeTemplate m =>
      let db' := db.deleteFaceEncodings m
      [db', db'.updateMemberFaceEnrolled m false none now]

/-- The last commit of a deed is what the deed leaves in the tables. -/
theorem getLast?_commits (now : Timestamp) (db : Database) (d : Deed) :
    ((db :: d.commits now db).map Database.tables).getLast? =
      some (d.apply now db).tables := by
  cases d with
  | start m =>
      cases h : db.createEnrollmentSession m now <;> simp [Deed.commits, Deed.apply, h]
  | capture m s encoding stored columns =>
      cases h : db.storeFaceEncoding m encoding (.text stored) now <;> cases columns <;>
        simp [Deed.commits, Deed.apply, h]
  | _ => rfl

/-! ## The handlers commit their deeds -/

section Commits

attribute [local simp] exec Program.commits Program.run_call Program.commits_forget Call.writes

variable (b : Process)

theorem commits_sessionOf (m s : Uuid) : (sessionOf m s).commits exec Call.writes b = [] := by
  have hreads : (sessionOf m s).Calls fun c => c.writes = false :=
    ⟨rfl, fun found => by cases found <;> trivial⟩
  exact hreads.commits_eq_nil b

theorem commits_guardCapture (texts : CaptureTexts) (m s : Uuid) :
    (guardCapture texts m s).commits exec Call.writes b = [] := by
  rw [guardCapture, Program.commits_bind, commits_sessionOf, run_sessionOf]
  cases ownSession b.db m s <;> rfl

theorem commits_guarded {α : Type} (texts : CaptureTexts) (m s : Uuid)
    (k : Option HTTPException → Proc (Reply α)) (hrefuse : ∀ e, k (some e) = .done (.error e)) :
    (guardCapture texts m s >>= k).commits exec Call.writes b =
      if Admitted b.db m s then (k none).commits exec Call.writes b else [] := by
  rw [Program.commits_bind, commits_guardCapture, run_guardCapture, List.nil_append]
  by_cases hadmitted : Admitted b.db m s
  · rw [if_pos hadmitted, (refusal_eq_none_iff b.db texts m s).mpr hadmitted]
  · obtain ⟨e, he⟩ := Option.ne_none_iff_exists'.mp
      (mt (refusal_eq_none_iff b.db texts m s).mp hadmitted)
    rw [if_neg hadmitted, he]
    exact congrArg (fun p : Proc (Reply α) => p.commits exec Call.writes b) (hrefuse e)

theorem commits_recordCapture (texts : CaptureTexts) (m s : Uuid) (angle : Angle)
    (image : EncoderOutcome) :
    (recordCapture texts m s angle image).commits exec Call.writes b =
      ((captureDeed b.db texts m s angle image).commits b.clock b.db).map
        fun db => { b with db } := by
  cases image with
  | raises => rfl
  | noFace => simp [recordCapture, captureDeed, Deed.commits]
  | face encoding quality =>
      cases hstored : angle.stored? with
      | none =>
          have hraise : b.db.storeFaceEncoding m encoding angle b.clock = none := by
            simp [Database.storeFaceEncoding_eq_none_iff, hstored]
          simp [recordCapture, captureDeed, hstored, hraise, Deed.commits]
      | some stored =>
          by_cases hm : b.db.members.Has m
          swap
          · have hraise : b.db.storeFaceEncoding m encoding angle b.clock = none := by
              simp [Database.storeFaceEncoding_eq_none_iff, hm]
            simp [recordCapture, captureDeed, hstored, hm, hraise, Deed.commits]
          obtain ⟨db', hdb, hspec⟩ := exists_storeFaceEncoding b.clock hm encoding stored
          have hangle := (storeFaceEncoding_text hstored b.clock).trans hdb
          have hcount : db'.selectCapturesCount s = b.db.selectCapturesCount s := by
            rw [Database.selectCapturesCount, hspec.sessions]
            rfl
          cases hmessage : captureMessage texts ((b.db.selectCapturesCount s).getD 0 + 1) angle <;>
            simp [recordCapture, captureDeed, hstored, hm, hdb, hangle, hcount, hmessage,
              Deed.commits]

theorem commits_recordBody (m s : Uuid) (body : Option CaptureBody) :
    (recordBody m s body).commits exec Call.writes b =
      ((bodyDeed b.db m s body).commits b.clock b.db).map fun db => { b with db } := by
  match body with
  | none => rfl
  | some ⟨some angle, some image⟩ => exact commits_recordCapture b uploadTexts m s angle image
  | some ⟨none, _⟩ => rfl
  | some ⟨some _, none⟩ => rfl

theorem commits_program (r : Request) :
    r.program.commits exec Call.writes b =
      ((r.deed b.db).commits b.clock b.db).map fun db => { b with db } := by
  unfold Request.program
  cases r with
  | addMember name role => simp [Backend.addMember, Request.deed, Deed.commits]
  | removeMember m =>
      cases h : b.db.getMember m <;>
        simp [Backend.removeMember, Request.deed, Deed.commits, h]
  | startEnrollment m =>
      cases h : b.db.getMember m with
      | none => simp [Backend.startEnrollment, Request.deed, Deed.commits, h]
      | some member =>
          cases hs : b.db.createEnrollmentSession m b.clock <;>
            simp [Backend.startEnrollment, Request.deed, Deed.commits, h, hs]
  | pollEnrollment m s =>
      rw [Program.commits_forget, Backend.pollEnrollment, Program.commits_bind,
        commits_sessionOf, run_sessionOf]
      cases ownSession b.db m s <;> rfl
  | uploadCapture m s angle image =>
      rw [Program.commits_forget, Backend.uploadCapture, commits_guarded]
      · by_cases hadmitted : Admitted b.db m s <;>
          simp [Request.deed, hadmitted, commits_recordCapture, Deed.commits]
      · exact fun _ => rfl
  | uploadCaptureB64 m s body =>
      rw [Program.commits_forget, Backend.uploadCaptureB64, commits_guarded]
      · by_cases hadmitted : Admitted b.db m s <;>
          simp [Request.deed, hadmitted, commits_recordBody, Deed.commits]
      · exact fun _ => rfl
  | piCameraCapture m s angle frame =>
      rw [Program.commits_forget, Backend.piCameraCapture.eq_def, commits_guarded]
      · by_cases hadmitted : Admitted b.db m s <;> cases frame <;>
          simp [Request.deed, hadmitted, commits_recordCapture, Deed.commits]
      · exact fun _ => rfl
  | completeEnrollment m s =>
      rw [Program.commits_forget, Backend.completeEnrollment, Program.commits_bind,
        commits_sessionOf, run_sessionOf]
      cases hown : ownSession b.db m s with
      | none => simp [Request.deed, hown, Deed.commits]
      | some session =>
          simp [Request.deed, hown, Deed.commits]
          -- Whatever the last read finds, nothing more is written.
          split <;> rfl
  | cancelEnrollment m s =>
      rw [Program.commits_forget, Backend.cancelEnrollment, Program.commits_bind,
        commits_sessionOf, run_sessionOf]
      cases hown : ownSession b.db m s <;> simp [Request.deed, hown, Deed.commits]
  | removeFaceTemplate m =>
      cases h : b.db.getMember m <;>
        simp [Backend.removeFaceTemplate, Request.deed, Deed.commits, h]

theorem commits_landing (r : Request) :
    r.landing.commits exec Call.writes b =
      ((r.landingDeed b.db).commits b.clock b.db).map fun db => { b with db } := by
  cases r with
  | uploadCapture m s angle image =>
      exact (Program.commits_forget _ b).trans (commits_recordCapture b uploadTexts m s _ image)
  | uploadCaptureB64 m s body =>
      exact (Program.commits_forget _ b).trans (commits_recordBody b m s body)
  | _ => rfl

end Commits

/-! ## Failure points -/

/-- What runs without another request between its calls, with its deed: a handler as a
whole, and the rest of an upload that is resumed at its `await`. -/
def Request.parts (r : Request) (db : Database) : List (Proc Unit × Deed) :=
  [(r.program, r.deed db), (r.landing, r.landingDeed db)]

def written (p : Proc Unit) (n : Nat) (b : Process) : Nat :=
  ((p.visits exec b).take n).countP fun v => v.1.writes

/-- A failure of call number `n` keeps the writes before it and nothing else. -/
structure LeavesCommitted (p : Proc Unit) (d : Deed) (n : Nat) (b : Process) : Prop where
  raises : (p.runRaising exec n b).1 = none
  committed : ((b.db :: d.commits b.clock b.db).map Database.tables)[written p n b]? =
    some (p.runRaising exec n b).2.db.tables
  nothing : written p n b = 0 → (p.runRaising exec n b).2.db.tables = b.db.tables
  everything : written p n b = (d.commits b.clock b.db).length →
    (p.runRaising exec n b).2.db.tables = (d.apply b.clock b.db).tables

theorem commits_part {b : Process} {r : Request} {p : Proc Unit} {d : Deed}
    (hpart : (p, d) ∈ r.parts b.db) :
    p.commits exec Call.writes b = (d.commits b.clock b.db).map fun db => { b with db } := by
  simp only [Request.parts, List.mem_cons, List.not_mem_nil, or_false, Prod.mk.injEq] at hpart
  rcases hpart with ⟨rfl, rfl⟩ | ⟨rfl, rfl⟩
  · exact commits_program b r
  · exact commits_landing b r

/-- Every failure point of every request. -/
theorem leavesCommitted {b b' : Process} {r : Request} {p : Proc Unit} {d : Deed} {n : Nat}
    {c : Call} (hpart : (p, d) ∈ r.parts b.db) (hcall : (p.visits exec b)[n]? = some (c, b')) :
    LeavesCommitted p d n b := by
  have hleft : p.runRaising exec n b = (none, b') := Program.runRaising_eq hcall
  have hcommitted := Program.visits_commits (fun b : Process => b.db.tables)
    (fun _ _ _ _ hc h => exec_tables hc h) hcall
  rw [commits_part hpart] at hcommitted
  have hcommitted : ((b.db :: d.commits b.clock b.db).map Database.tables)[written p n b]? =
      some b'.db.tables := by simpa [written, Function.comp_def] using hcommitted
  constructor
  · rw [hleft]
  · rw [hleft]
    exact hcommitted
  · intro hnone
    rw [hnone] at hcommitted
    rw [hleft]
    exact (Option.some.inj hcommitted).symm
  · intro hall
    have hlast := getLast?_commits b.clock b.db d
    rw [List.getLast?_eq_getElem?] at hlast
    rw [hall] at hcommitted
    rw [hleft]
    refine Option.some.inj (hcommitted.symm.trans ?_)
    simpa using hlast

/-! ## A member half removed -/

def enrolledProcess : Process :=
  ([.addMember "Resident" "Member", .startEnrollment 0,
    .piCameraCapture 0 1 "front" (some (.face [1] 1)), .completeEnrollment 0 1] :
    List Request).foldl (fun b r => r.perform b) (Process.boot true none 0)

/-- `delete_member` raises: the member stays, enrolled and without an encoding. -/
theorem leavesCommitted_removeMember :
    LeavesCommitted (Request.removeMember 0).program (.removeMember 0) 2 enrolledProcess ∧
      written (Request.removeMember 0).program 2 enrolledProcess = 1 := by
  have hcall : (((Request.removeMember 0).program.visits exec enrolledProcess)[2]?).map Prod.fst =
      some (.deleteMember 0) := by decide +kernel
  have hdeed : (Request.removeMember 0).deed enrolledProcess.db = .removeMember 0 := by
    decide +kernel
  obtain ⟨⟨c, b'⟩, hcall, rfl⟩ := Option.map_eq_some_iff.mp hcall
  refine ⟨leavesCommitted (r := .removeMember 0) ?_ hcall, by decide +kernel⟩
  simp [Request.parts, hdeed]

theorem not_always_nothing :
    ¬ ∀ (m : Uuid) (b b' : Process) (n : Nat) (c : Call),
      ((Request.removeMember m).program.visits exec b)[n]? = some (c, b') → c.isDb = true →
      ((Request.removeMember m).program.runRaising exec n b).2.db.tables = b.db.tables := by
  intro halways
  have hcall : (((Request.removeMember 0).program.visits exec enrolledProcess)[2]?).map Prod.fst =
      some (.deleteMember 0) := by decide +kernel
  obtain ⟨⟨c, b'⟩, hcall, rfl⟩ := Option.map_eq_some_iff.mp hcall
  have hleft := halways 0 enrolledProcess b' 2 (.deleteMember 0) hcall rfl
  have hdiffer : ((Request.removeMember 0).program.runRaising exec 2 enrolledProcess).2.db.tables ≠
      enrolledProcess.db.tables := by decide +kernel
  exact hdiffer hleft

end FacialCamera.Enrollment
