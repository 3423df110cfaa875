import FacialCamera.Recognition.Accounts

/-! # Unlocks under a lock that is left behind

An INSERT that a constraint refuses raises past the `close()` of its connection. Until that
connection is collected its open transaction has SQLite's write lock, and every write of
another connection raises. The log of a run still only grows, but an unlock request commands
the servo before its first write, and so it is not accounted for.
-/

namespace FacialCamera.Recognition

open FacialCamera.Core Backend Door

/-! ## The write lock -/

def writesFile : Call → Bool
  | .setDoorLocked _ | .addMember _ _ | .deleteMember _ | .updateMemberFaceEnrolled _ _ _
  | .createEnrollmentSession _ | .updateEnrollmentSession _ _ | .storeFaceEncoding _ _ _
  | .deleteFaceEncodings _ | .addLog _ _ _ _ | .addAlert _ | .markAlertRead _ => true
  | _ => false

/-- A process, and whether a connection that it has left open has the write lock. -/
structure Leaky where
  process : Process
  locked : Bool

/-- Python begins a transaction before it binds the values, and SQLite takes the lock where it
steps the statement: only a refused constraint leaves the lock taken. -/
def refusedByConstraint (b : Process) : Call → Bool
  | .storeFaceEncoding _ _ .nan => true
  | .storeFaceEncoding m _ angle => angle.stored?.isSome && !decide (b.db.members.Has m)
  | .createEnrollmentSession m => !decide (b.db.members.Has m)
  | _ => false

def execBeside : Interp Call Answer Leaky
  | c, x =>
      if x.locked && writesFile c then none
      else (exec c x.process).map fun out => (out.1, { x with process := out.2 })

def leaveOpen (c : Call) (x : Leaky) : Leaky :=
  { x with locked := x.locked || refusedByConstraint x.process c }

inductive LeakyTurn where
  | event (e : Event)
  | collect

/-- Every sequence of events, in which the connection is collected at any time. -/
def leaky : Machine Leaky LeakyTurn where
  next x
    | .event e => (e.ready x.process).map fun b =>
        (e.program.runLeaving execBeside leaveOpen { x with process := b }).2
    | .collect => some { x with locked := false }

def issuedBeside (t : Transition Leaky LeakyTurn) : List (Call × Process) :=
  match t.label with
  | .event e => ((e.ready t.before.process).map fun b =>
      (e.program.visits execBeside { t.before with process := b }).map
        fun v => (v.1, v.2.process)).getD []
  | .collect => []

def appendedBeside (t : Transition Leaky LeakyTurn) : List LogRow :=
  t.after.process.db.logs.drop t.before.process.db.logs.length

def unlocksOf (t : Transition Leaky LeakyTurn) : Nat :=
  (issuedBeside t).countP fun v => v.1 = .servoUnlock

def unlocksIssued (ts : List (Transition Leaky LeakyTurn)) : Nat := (ts.map unlocksOf).sum

structure Accounted (x₀ : Leaky) (ts : List (Transition Leaky LeakyTurn)) (x : Leaky) : Prop where
  appendOnly : ∀ t ∈ ts, t.before.process.db.logs <+: t.after.process.db.logs
  increasing : (x.process.db.logs.map LogRow.id).Pairwise (· < ·)
  balanced : unlocksIssued ts =
    (x.process.db.logs.drop x₀.process.db.logs.length).countP isAuthorized +
      (x.process.db.logs.drop x₀.process.db.logs.length).countP isManualUnlock
  backed : ∀ t ∈ ts, ∀ e ∈ appendedBeside t, e.type = .authorized →
    ∃ s, (.getAllFaceEncodings, s) ∈ issuedBeside t ∧ Backed s.db e.name

def LeakyTurn.unlocks : LeakyTurn → Bool
  | .event (.request .doorUnlock _) => true
  | _ => false

/-- An unlock request is handled while the lock is taken. -/
def Hindered (t : Transition Leaky LeakyTurn) : Prop :=
  t.before.locked = true ∧ t.label.unlocks = true

instance : DecidablePred Hindered := fun t =>
  inferInstanceAs (Decidable (t.before.locked = true ∧ t.label.unlocks = true))

/-! ## The log grows -/

theorem exec_of_execBeside {c : Call} {x x' : Leaky} {r : Answer c}
    (h : execBeside c x = some (r, x')) :
    ¬ (x.locked && writesFile c) = true ∧ exec c x.process = some (r, x'.process) ∧
      x'.locked = x.locked := by
  obtain ⟨hfree, h⟩ := Option.ite_none_left_eq_some.mp h
  obtain ⟨⟨r', b⟩, hexec, hout⟩ := Option.map_eq_some_iff.mp h
  cases hout
  exact ⟨hfree, hexec, rfl⟩

theorem extends_runLeaving {α : Type} (p : Proc α) (x : Leaky) :
    Extends x.process (p.runLeaving execBeside leaveOpen x).2.process := by
  refine Program.runLeaving_rel leaveOpen (I := execBeside)
    (R := fun x x' => Extends x.process x'.process) (fun _ => .refl _) (fun _ _ _ h h' => ?_)
    (fun _ _ _ _ h => ?_) (fun _ _ _ => .refl _) p x
  · exact h.trans h'
  · exact extends_exec (exec_of_execBeside h).2.1

theorem extends_step {x x' : Leaky} {turn : LeakyTurn} (hnext : leaky.next x turn = some x') :
    Extends x.process x'.process := by
  cases turn with
  | collect =>
      cases hnext
      exact .refl _
  | event e =>
      obtain ⟨start, hready, rfl⟩ := Option.map_eq_some_iff.mp hnext
      have hstart : start.db = x.process.db := (ready_same hready).1
      have hrun := extends_runLeaving e.program { x with process := start }
      exact ⟨hstart ▸ hrun.logs, fun hb => hrun.numbered (hstart ▸ hb)⟩

/-! ## Where nothing is left behind -/

theorem exec_free {c : Call} {x : Leaky} (hfree : x.locked = false) :
    exec c x.process = (execBeside c x).map fun out => (out.1, out.2.process) := by
  simp [execBeside, hfree, Function.comp_def]

/-- An event is then what it is without connections. -/
theorem live_of_free {x x' : Leaky} {e : Event} (hfree : x.locked = false)
    (hnext : leaky.next x (.event e) = some x') :
    live.next x.process e = some x'.process ∧
      issuedBeside ⟨x, .event e, x'⟩ = issued ⟨x.process, e, x'.process⟩ := by
  obtain ⟨start, hready, rfl⟩ := Option.map_eq_some_iff.mp hnext
  have hkeeps : ∀ c (x : Leaky) r x', x.locked = false → execBeside c x = some (r, x') →
      x'.locked = false := fun _ _ _ _ hx h => (exec_of_execBeside h).2.2.trans hx
  have hrun := Program.runLeaving_view (fun _ _ => exec_free) hkeeps
    (fun c x _ _ => show (leaveOpen c x).process = x.process from rfl) e.program
    (show ({ x with process := start } : Leaky).locked = false from hfree)
  have hvisits := Program.visits_view (fun _ _ => exec_free) hkeeps e.program
    (show ({ x with process := start } : Leaky).locked = false from hfree)
  refine ⟨?_, ?_⟩
  · simp only [live, hready, Option.map_some, hrun]
  · simp only [issuedBeside, issued, hready, Option.map_some, Option.getD_some, hvisits]

/-! ## Where the lock is taken -/

/-- The log is left as it is. -/
theorem logs_of_locked {α : Type} (p : Proc α) {x : Leaky} (hlocked : x.locked = true) :
    (p.runLeaving execBeside leaveOpen x).2.process.db.logs = x.process.db.logs := by
  refine (Program.runLeaving_rel leaveOpen (I := execBeside)
    (R := fun x x' => x.locked = true →
      x'.process.db.logs = x.process.db.logs ∧ x'.locked = true)
    (fun _ h => ⟨rfl, h⟩) (fun a b c hab hbc ha => ?_) (fun c x r x' h hx => ?_)
    (fun c x _ hx => ⟨rfl, by simp [leaveOpen, hx]⟩) p x hlocked).1
  · obtain ⟨hlogs, hb⟩ := hab ha
    obtain ⟨hlogs', hc⟩ := hbc hb
    exact ⟨hlogs'.trans hlogs, hc⟩
  · obtain ⟨hread, hexec, hkept⟩ := exec_of_execBeside h
    have hnone : entered x.process c = none := by
      cases c <;> first | rfl | simp [hx, writesFile] at hread
    exact ⟨by rw [exec_logs hexec, hnone]; exact List.append_nil _, hkept.trans hx⟩

theorem visits_motion (sight : Sight) {x : Leaky} (hlocked : x.locked = true) :
    ∀ v ∈ (onMotionDetected sight).visits execBeside x, v.1 ≠ .servoUnlock := by
  cases henabled : x.process.flags .motionDetectionEnabled with
  | false => simp [onMotionDetected, Program.visits, execBeside, writesFile, exec, henabled]
  | true =>
      rcases hclaim : x.process.claimMotion with ⟨_ | _, b⟩ <;>
        simp [onMotionDetected, Program.visits, execBeside, writesFile, exec, henabled, hclaim,
          hlocked]

theorem visits_request (a : ApiRequest) (seen : Surroundings) (hunlock : a ≠ .doorUnlock)
    {x : Leaky} (hlocked : x.locked = true) :
    ∀ v ∈ (a.handler seen).forget.visits execBeside x, v.1 ≠ .servoUnlock := by
  by_cases hlock : a = .doorLock
  · subst hlock
    simp [ApiRequest.handler, answer, Program.forget, doorLock, Program.visits, execBeside,
      writesFile, exec, hlocked]
  by_cases hbell : a = .doorbell
  · subst hbell
    simp [ApiRequest.handler, answer, Program.forget, runDoorbellScan, Program.visits, execBeside,
      writesFile, hlocked]
  · intro v hv hservo
    have hapart := (apart_request seen hlock hunlock hbell).of_mem_visits hv
    rw [hservo] at hapart
    cases hapart

/-- No other event gets as far as the servo. -/
theorem unlocks_of_locked {x x' : Leaky} {e : Event} (hlocked : x.locked = true)
    (hother : ∀ seen, e ≠ .request .doorUnlock seen) :
    unlocksOf ⟨x, .event e, x'⟩ = 0 := by
  cases hready : e.ready x.process with
  | none => simp [unlocksOf, issuedBeside, hready]
  | some start =>
      have hcount : ∀ v ∈ e.program.visits execBeside { x with process := start },
          v.1 ≠ .servoUnlock := by
        cases e with
        | wait clock => exact fun v hv => by cases hv
        | fire i =>
            intro v hv hservo
            have hquiet := calls_doRelock.of_mem_visits hv
            rw [hservo] at hquiet
            cases hquiet
        | motion sight => exact visits_motion sight hlocked
        | request a seen =>
            exact visits_request a seen (fun ha => hother seen (by rw [ha])) hlocked
      simpa [unlocksOf, issuedBeside, hready, List.countP_map] using hcount

/-- An unlock request commands the servo and raises at the flag. -/
theorem unlocks_hindered {x x' : Leaky} (hlocked : x.locked = true) (seen : Surroundings) :
    unlocksOf ⟨x, .event (.request .doorUnlock seen), x'⟩ = 1 := by
  have hvisits : (ApiRequest.handler seen .doorUnlock).forget.visits execBeside x =
      [(.servoUnlock, x), (.setDoorLocked false,
        { x with process := { x.process with servo := x.process.servo.unlock } })] := by
    simp [ApiRequest.handler, answer, Program.forget, doorUnlock, Program.visits, execBeside,
      writesFile, exec, hlocked]
  simp [unlocksOf, issuedBeside, Event.ready, Event.program, hvisits]

/-! ## One turn -/

theorem balance_event {x x' : Leaky} {e : Event} (hnext : leaky.next x (.event e) = some x') :
    unlocksOf ⟨x, .event e, x'⟩ + unlockEntries x.process.db.logs =
      unlockEntries x'.process.db.logs + if Hindered ⟨x, .event e, x'⟩ then 1 else 0 := by
  cases hlocked : x.locked with
  | false =>
      obtain ⟨hlive, hissued⟩ := live_of_free hlocked hnext
      have hfree : ¬ Hindered ⟨x, .event e, x'⟩ := fun h => by simp [Hindered, hlocked] at h
      rw [if_neg hfree, Nat.add_zero, unlocksOf, hissued]
      exact unlocks_step hlive
  | true =>
      have hlogs : x'.process.db.logs = x.process.db.logs := by
        obtain ⟨start, hready, rfl⟩ := Option.map_eq_some_iff.mp hnext
        have hstart : start.db = x.process.db := (ready_same hready).1
        exact (logs_of_locked e.program (x := { x with process := start }) hlocked).trans
          (congrArg Database.logs hstart)
      by_cases hunlock : ∃ seen, e = .request .doorUnlock seen
      · obtain ⟨seen, rfl⟩ := hunlock
        have hhindered : Hindered ⟨x, .event (.request .doorUnlock seen), x'⟩ := ⟨hlocked, rfl⟩
        rw [unlocks_hindered hlocked, if_pos hhindered, hlogs, Nat.add_comm]
      · have hother : ∀ seen, e ≠ .request .doorUnlock seen := fun seen h => hunlock ⟨seen, h⟩
        have hfree : ¬ Hindered ⟨x, .event e, x'⟩ := by
          rintro ⟨_, hunlocks⟩
          cases e with
          | request a seen => cases a <;> first | exact hother seen rfl | cases hunlocks
          | _ => cases hunlocks
        rw [unlocks_of_locked hlocked hother, if_neg hfree, hlogs, Nat.zero_add, Nat.add_zero]

/-- A turn is out of balance by its hindered unlock. -/
theorem balance_turn {x x' : Leaky} {turn : LeakyTurn} (hnext : leaky.next x turn = some x') :
    unlocksOf ⟨x, turn, x'⟩ + unlockEntries x.process.db.logs =
      unlockEntries x'.process.db.logs + if Hindered ⟨x, turn, x'⟩ then 1 else 0 := by
  cases turn with
  | event e => exact balance_event hnext
  | collect =>
      cases hnext
      have hfree : ¬ Hindered ⟨x, .collect, { x with locked := false }⟩ := fun h => by cases h.2
      rw [if_neg hfree, Nat.add_zero]
      exact Nat.zero_add _

theorem backed_turn {x x' : Leaky} {turn : LeakyTurn} (hnext : leaky.next x turn = some x')
    {r : LogRow} (hr : r ∈ appendedBeside ⟨x, turn, x'⟩) (htype : r.type = .authorized) :
    ∃ s, (.getAllFaceEncodings, s) ∈ issuedBeside ⟨x, turn, x'⟩ ∧ Backed s.db r.name := by
  cases turn with
  | collect =>
      cases hnext
      simp [appendedBeside] at hr
  | event e =>
      cases hlocked : x.locked with
      | false =>
          obtain ⟨hlive, hissued⟩ := live_of_free hlocked hnext
          rw [hissued]
          exact backed_step hlive hr htype
      | true =>
          obtain ⟨start, hready, rfl⟩ := Option.map_eq_some_iff.mp hnext
          have hstart : start.db = x.process.db := (ready_same hready).1
          have hlogs : _ = x.process.db.logs :=
            (logs_of_locked e.program (x := { x with process := start }) hlocked).trans
              (congrArg Database.logs hstart)
          simp [appendedBeside, hlogs] at hr

/-! ## Whole runs -/

variable {x₀ x : Leaky} {ts : List (Transition Leaky LeakyTurn)}

theorem extends_of_run (hrun : leaky.Run x₀ ts x) : Extends x₀.process x.process := by
  induction hrun with
  | nil => exact .refl _
  | snoc _ hnext ih => exact ih.trans (extends_step hnext)

theorem unlocksIssued_run (hrun : leaky.Run x₀ ts x) :
    unlocksIssued ts + unlockEntries x₀.process.db.logs =
      unlockEntries x.process.db.logs + ts.countP fun t => Hindered t := by
  induction hrun with
  | nil => simp [unlocksIssued]
  | @snoc ts s s' l _ hnext ih =>
      have hturn := balance_turn hnext
      simp only [unlocksIssued, List.map_append, List.map_cons, List.map_nil, List.sum_append,
        List.sum_singleton, List.countP_append, List.countP_singleton, decide_eq_true_eq] at ih ⊢
      omega

/-- A run is accounted for exactly if no unlock request meets the lock. -/
theorem accounted_iff_not_hindered (hrun : leaky.Run x₀ ts x)
    (hnumbered : Numbered x₀.process.db) : Accounted x₀ ts x ↔ ∀ t ∈ ts, ¬ Hindered t := by
  have hextends := extends_of_run hrun
  have hcount : unlocksIssued ts =
      unlockEntries (x.process.db.logs.drop x₀.process.db.logs.length) +
        ts.countP fun t => Hindered t := by
    have htotal := unlocksIssued_run hrun
    obtain ⟨new, hnew⟩ := hextends.logs
    rw [← hnew, unlockEntries_append] at htotal
    rw [← hnew, List.drop_left]
    omega
  constructor
  · intro h
    have hbalanced := h.balanced
    rw [← unlockEntries, hcount, Nat.add_eq_left, List.countP_eq_zero] at hbalanced
    simpa using hbalanced
  · intro hfree
    have hzero : ts.countP (fun t => decide (Hindered t)) = 0 :=
      List.countP_eq_zero.mpr fun t ht => by simpa using hfree t ht
    refine ⟨fun t ht => (extends_step (hrun.next_of_mem ht)).logs, ?_, ?_, ?_⟩
    · rw [hextends.numbered hnumbered]
      exact List.pairwise_lt_range'
    · rw [hcount, hzero]
      rfl
    · exact fun t ht r hr htype => backed_turn (hrun.next_of_mem ht) hr htype

/-! ## A day at the door -/

/-- A visitor with a face that everybody's encodings are near to. -/
def visit : Surroundings where
  sight := familiar
  encode := fun _ => .face [0] 1
  sensor := .ok []

def requests (as : List ApiRequest) : List LeakyTurn := as.map fun a => .event (.request a visit)

def started : Leaky := ⟨Process.boot true none 0, false⟩

def enrollAndEnter : List LeakyTurn :=
  requests [.addMember "Resident" "Member", .startEnrollment 0, .piCameraCapture 0 1 "front",
    .completeEnrollment 0 1, .doorbell, .doorUnlock]

theorem accounted_enrollAndEnter : ∃ ts x, leaky.Run started ts x ∧ unlocksIssued ts = 2 ∧
    Accounted started ts x := by
  have hend : (leaky.trace started enrollAndEnter).map (fun (ts, _) =>
      (unlocksIssued ts, decide (∀ t ∈ ts, ¬ Hindered t))) = some (2, true) := by
    decide +kernel
  obtain ⟨ts, x, hrun, hview⟩ := Machine.exists_run_of_view hend
  obtain ⟨hissued, hfree⟩ := Prod.mk.inj hview
  exact ⟨ts, x, hrun, hissued,
    (accounted_iff_not_hindered hrun rfl).mpr (of_decide_eq_true hfree)⟩

/-- An upload under the angle NaN leaves its connection open, and the door is unlocked. -/
def uploadAndUnlock : List LeakyTurn :=
  requests [.addMember "Resident" "Member", .startEnrollment 0,
    .uploadCaptureB64 0 1 (some ⟨some .nan, some (some [255])⟩), .doorUnlock]

/-- The unlock is commanded and not logged. -/
theorem not_always_accounted : ∃ ts x, leaky.Run started ts x ∧ ¬ Accounted started ts x := by
  have hend : (leaky.trace started uploadAndUnlock).map (fun (ts, x) =>
      (unlocksIssued ts, x.process.db.logs)) = some (1, []) := by
    decide +kernel
  obtain ⟨ts, x, hrun, hview⟩ := Machine.exists_run_of_view hend
  obtain ⟨hissued, hlogs⟩ := Prod.mk.inj hview
  refine ⟨ts, x, hrun, fun h => ?_⟩
  have hbalanced := h.balanced
  rw [hissued, hlogs] at hbalanced
  simp at hbalanced

end FacialCamera.Recognition
