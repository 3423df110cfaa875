import FacialCamera.Core.Machine
import FacialCamera.Core.Threads
import FacialCamera.Door.Operations

/-! # Servo and flag under concurrency

The event loop runs one request at a time, the motion thread one callback at a
time, and every relock timer that fires has a thread of its own. Each call of a
handler is atomic and the calls of different threads interleave freely. Every
handler commands the servo and then writes the flag, with nothing that keeps
another thread out in between, so the two can part; the results say exactly
which interleavings make them part.
-/

namespace FacialCamera.Door

open FacialCamera.Core Backend

inductive Actor where
  | eventLoop
  | motionThread
  | relockTimer (i : Nat)
  deriving DecidableEq

def Operation.actor : Operation → Actor
  | .onMotionDetected _ => .motionThread
  | _ => .eventLoop

abbrev House : Type := Pool Actor Call Answer Process

/-- Time passes, a handler starts, a timer wakes up at or after its deadline, a thread
executes a call. -/
inductive Move where
  | wait (clock : ℚ)
  | start (o : Operation)
  | fire (i : Nat)
  | step (i : Nat)

/-- A timer leaves its wait and starts its callback thread. -/
def House.expire (h : House) (i : Nat) : House :=
  Pool.spawn { h with shared := { h.shared with relock := h.shared.relock.fire i } }
    (.relockTimer i) doRelock

/-- Every interleaving of the handlers' calls. -/
def house : Machine House Move where
  next h
    | .wait clock =>
        if h.shared.clock ≤ clock then some { h with shared := { h.shared with clock } } else none
    | .start o =>
        if ∃ t ∈ h.threads, t.1 = o.actor then none else some (h.spawn o.actor o.program)
    | .fire i => if h.shared.relock.Due h.shared.clock i then some (h.expire i) else none
    | .step i => h.stepAt exec i

/-! ## Commands and the flag writes they owe -/

def command : Call → Option Bool
  | .servoLock => some true
  | .servoUnlock => some false
  | _ => none

def flagWrite : Call → Option Bool
  | .setDoorLocked locked => some locked
  | _ => none

theorem exec_servo {c : Call} {b b' : Process} {r : Answer c} (h : exec c b = some (r, b')) :
    b'.servo.locked = (command c).getD b.servo.locked := by
  rw [(exec_frame h).servo]
  cases c <;> rfl

theorem exec_flag {c : Call} {b b' : Process} {r : Answer c} (h : exec c b = some (r, b')) :
    b'.db.doorLocked = (flagWrite c).getD b.db.doorLocked := by
  cases c <;> simp only [exec, Option.map_eq_some_iff, Option.ite_none_right_eq_some,
    Option.some.injEq, Prod.mk.injEq] at h
  case createEnrollmentSession m =>
    obtain ⟨⟨row, db⟩, hdb, _, rfl⟩ := h
    exact (b.db.createEnrollmentSession_spec hdb).doorLocked
  case storeFaceEncoding =>
    obtain ⟨db, hdb, _, rfl⟩ := h
    exact (b.db.storeFaceEncoding_spec hdb).doorLocked
  case getLogs | getLogSnapshot | markAlertRead =>
    obtain ⟨_, _, rfl⟩ := h
    rfl
  case claimMotion =>
    unfold Process.claimMotion at h
    split at h <;> cases h <;> rfl
  all_goals (obtain ⟨_, rfl⟩ := h; rfl)

theorem door_call_answers {c : Call} {b : Process} (h : exec c b = none) :
    command c = none ∧ flagWrite c = none := by
  cases c <;> first | exact ⟨rfl, rfl⟩ | simp [exec] at h

/-- The flag write at the head of a program: a servo command was issued and the flag
is still to be written. -/
def owes {α : Type} : Proc α → Option Bool
  | .call c _ => flagWrite c
  | _ => none

/-- A flag write comes right after the servo command of its direction, and only there. -/
def Paired {α : Type} : Proc α → Prop
  | .done _ => True
  | .fault => True
  | .call c k => ∀ r, owes (k r) = command c ∧ Paired (k r)

theorem owes_forget {α : Type} (p : Proc α) : owes p.forget = owes p := by
  cases p <;> rfl

theorem Paired.forget {α : Type} {p : Proc α} (h : Paired p) : Paired p.forget := by
  induction p with
  | done a => trivial
  | fault => trivial
  | call c k ih =>
      intro r
      exact ⟨(owes_forget (k r)).trans (h r).1, ih r (h r).2⟩

/-! ## The handlers are paired -/

section Handlers

attribute [local simp] Paired owes command flagWrite scheduleRelock

theorem paired_doRelock : Paired doRelock ∧ owes doRelock = none := by
  simp [doRelock]

theorem paired_runDoorbellScan (sight : Sight) :
    Paired (runDoorbellScan sight) ∧ owes (runDoorbellScan sight) = none := by
  cases hgrab : grabFaceEncoding sight.frames with
  | raises => simp [runDoorbellScan, hgrab]
  | noFace => simp [runDoorbellScan, hgrab]
  | face encoding quality =>
      simp [runDoorbellScan, hgrab]
      intro known threshold
      cases recognizedName (compareFace sight.library threshold encoding known) with
      | some name => simp
      | none => simp [apply_ite]

theorem paired_onMotionDetected (sight : Sight) :
    Paired (onMotionDetected sight) ∧ owes (onMotionDetected sight) = none := by
  cases hgrab : grabFaceEncoding sight.frames with
  | raises => simp [onMotionDetected, hgrab]
  | noFace => simp [onMotionDetected, hgrab]
  | face encoding quality =>
      simp [onMotionDetected, hgrab]
      intro known threshold
      cases recognizedName (compareFace sight.library threshold encoding known) with
      | some name => simp
      | none => simp [apply_ite]

theorem paired_program (o : Operation) : Paired o.program ∧ owes o.program = none := by
  cases o with
  | doorLock => simp [Operation.program, Program.forget, doorLock]
  | doorUnlock => simp [Operation.program, Program.forget, doorUnlock]
  | onMotionDetected sight => exact paired_onMotionDetected sight
  | runDoorbellScan sight =>
      obtain ⟨hpaired, howes⟩ := paired_runDoorbellScan sight
      exact ⟨hpaired.forget, (owes_forget _).trans howes⟩
  | setMotionSettings detection alerts =>
      cases detection <;> cases alerts <;>
        simp [Operation.program, Program.forget, setMotionSettings]
  | setAutolock enabled => simp [Operation.program, Program.forget, setAutolock]

end Handlers

/-! ## Stale writes -/

def Owed (threads : List (Actor × Proc Unit)) (d : Bool) : Prop :=
  ∃ t ∈ threads, owes t.2 = some d

/-- The call that position `i` executes next. -/
def House.head (h : House) (i : Nat) : Option Call :=
  match h.threads[i]? with
  | some (_, .call c _) => some c
  | _ => none

def Commands (h : House) : Move → Prop
  | .step i => ∃ c ∈ h.head i, (command c).isSome
  | _ => False

/-- The move writes the flag against the servo, and the write that belongs to the
servo's direction is not still to come. -/
def WritesStale (h : House) : Move → Prop
  | .step i => ∃ c ∈ h.head i, ∃ d ∈ flagWrite c,
      d ≠ h.shared.servo.locked ∧ ¬ Owed (h.others i) h.shared.servo.locked
  | _ => False

/-- A schedule whose last word on the flag is a stale one: no later command. -/
def EndsStale (ts : List (Transition House Move)) : Prop :=
  ∃ us t vs, ts = us ++ t :: vs ∧ WritesStale t.before t.label ∧
    ∀ v ∈ vs, ¬ Commands v.before v.label

/-- The agreement that holds while handlers are in flight: the servo's direction is in
the database or is about to be written there. -/
def Covered (h : House) : Prop :=
  Agree h.shared ∨ Owed h.threads h.shared.servo.locked

theorem not_endsStale_nil : ¬ EndsStale [] := by
  rintro ⟨us, t, vs, h, _⟩
  simp at h

theorem endsStale_snoc {ts : List (Transition House Move)} {t : Transition House Move} :
    EndsStale (ts ++ [t]) ↔
      WritesStale t.before t.label ∨ (EndsStale ts ∧ ¬ Commands t.before t.label) := by
  constructor
  · rintro ⟨us, w, vs, h, hstale, hquiet⟩
    rcases List.eq_nil_or_concat vs with rfl | ⟨vs, v, rfl⟩
    · obtain ⟨_, ht⟩ := List.append_inj' h rfl
      cases ht
      exact Or.inl hstale
    · have hcut : ts ++ [t] = (us ++ w :: vs) ++ [v] := by simpa using h
      obtain ⟨rfl, ht⟩ := List.append_inj' hcut rfl
      cases ht
      exact Or.inr ⟨⟨us, w, vs, rfl, hstale, fun x hx => hquiet x (by simp [hx])⟩,
        hquiet t (by simp)⟩
  · rintro (hstale | ⟨⟨us, w, vs, rfl, hstale, hquiet⟩, hlast⟩)
    · exact ⟨ts, t, [], rfl, hstale, by simp⟩
    · refine ⟨us, w, vs ++ [t], by simp, hstale, fun v hv => ?_⟩
      rcases List.mem_append.mp hv with hv | hv
      · exact hquiet v hv
      · rw [List.mem_singleton.mp hv]
        exact hlast

/-! ## One step -/

theorem command_flagWrite (c : Call) : command c = none ∨ flagWrite c = none := by
  cases c <;> simp [command, flagWrite]

/-- A thread that joins the house owes nothing at its start. -/
theorem covered_spawn {h : House} {who : Actor} {p : Proc Unit} (hp : owes p = none) :
    Covered (h.spawn who p) ↔ Covered h := by
  have howed (d : Bool) : Owed (h.spawn who p).threads d ↔ Owed h.threads d := by
    constructor
    · rintro ⟨t, ht, hd⟩
      rcases Pool.mem_spawn.mp ht with ht | ⟨rfl, _⟩
      · exact ⟨t, ht, hd⟩
      · rw [hp] at hd
        cases hd
    · rintro ⟨t, ht, hd⟩
      exact ⟨t, Pool.mem_spawn.mpr (Or.inl ht), hd⟩
  unfold Covered
  rw [howed, Pool.spawn_shared]

structure StepEffect (h h' : House) (i : Nat) (c : Call) : Prop where
  head : h.head i = some c
  servo : h'.shared.servo.locked = (command c).getD h.shared.servo.locked
  flag : h'.shared.db.doorLocked = (flagWrite c).getD h.shared.db.doorLocked
  owedBefore : ∀ d, Owed h.threads d ↔ flagWrite c = some d ∨ Owed (h.others i) d
  owedAfter : ∀ d, Owed h'.threads d ↔ command c = some d ∨ Owed (h.others i) d
  paired : ∀ t ∈ h'.threads, Paired t.2

theorem step_effect {h h' : House} {i : Nat} (hpaired : ∀ t ∈ h.threads, Paired t.2)
    (hstep : h.stepAt exec i = some h') : ∃ c, StepEffect h h' i c := by
  obtain ⟨who, c, k, q, spec⟩ := Pool.stepAt_spec hstep
  have hcall : Paired (Program.call c k) :=
    hpaired (who, .call c k) (spec.mem_before.mpr (Or.inl rfl))
  have hbefore (d : Bool) : Owed h.threads d ↔ flagWrite c = some d ∨ Owed (h.others i) d := by
    simp [Owed, spec.mem_before, owes]
  have hothers : ∀ t ∈ h.others i, Paired t.2 :=
    fun t ht => hpaired t (spec.mem_before.mpr (Or.inr ht))
  have hhead : h.head i = some c := by simp [House.head, spec.thread]
  rcases spec.result with ⟨hraise, rfl, hshared⟩ | ⟨r, hexec, rfl⟩
  · obtain ⟨hcommand, hwrite⟩ := door_call_answers hraise
    refine ⟨c, hhead, by simp [hshared, hcommand], by simp [hshared, hwrite], hbefore, ?_, ?_⟩
    · simp [Owed, spec.mem_after, Program.isEnded, hcommand]
    · intro t ht
      rcases spec.mem_after.mp ht with ⟨_, hended⟩ | ht
      · cases hended
      · exact hothers t ht
  · obtain ⟨howes, hrest⟩ := hcall r
    refine ⟨c, hhead, exec_servo hexec, exec_flag hexec, hbefore, ?_, ?_⟩
    · intro d
      constructor
      · rintro ⟨t, ht, hd⟩
        rcases spec.mem_after.mp ht with ⟨rfl, _⟩ | ht
        · exact Or.inl (howes ▸ hd)
        · exact Or.inr ⟨t, ht, hd⟩
      · rintro (hd | ⟨t, ht, hd⟩)
        · have hlive : (k r).isEnded = false := by
            cases hkr : k r with
            | call c' k' => rfl
            | done a => simp [hkr, owes, hd] at howes
            | fault => simp [hkr, owes, hd] at howes
          exact ⟨(who, k r), spec.mem_after.mpr (Or.inl ⟨rfl, hlive⟩), howes.trans hd⟩
        · exact ⟨t, spec.mem_after.mpr (Or.inr ht), hd⟩
    · intro t ht
      rcases spec.mem_after.mp ht with ⟨rfl, _⟩ | ht
      · exact hrest
      · exact hothers t ht

/-- A command covers whatever was uncovered, a stale write uncovers, and nothing else
changes coverage. -/
theorem covered_step {h h' : House} {m : Move} (hpaired : ∀ t ∈ h.threads, Paired t.2)
    (hnext : house.next h m = some h') :
    (¬ Covered h' ↔ WritesStale h m ∨ (¬ Covered h ∧ ¬ Commands h m)) ∧
      ∀ t ∈ h'.threads, Paired t.2 := by
  cases m with
  | wait clock =>
      simp only [house, Option.ite_none_right_eq_some, Option.some.injEq] at hnext
      obtain ⟨_, rfl⟩ := hnext
      exact ⟨by simp [WritesStale, Commands, Covered, Agree], hpaired⟩
  | start o =>
      simp only [house, Option.ite_none_left_eq_some, Option.some.injEq] at hnext
      obtain ⟨_, rfl⟩ := hnext
      obtain ⟨hp, howes⟩ := paired_program o
      refine ⟨by simp [covered_spawn howes, WritesStale, Commands], fun t ht => ?_⟩
      rcases Pool.mem_spawn.mp ht with ht | ⟨rfl, _⟩
      · exact hpaired t ht
      · exact hp
  | fire i =>
      simp only [house, Option.ite_none_right_eq_some, Option.some.injEq] at hnext
      obtain ⟨_, rfl⟩ := hnext
      obtain ⟨hp, howes⟩ := paired_doRelock
      have hcovered : Covered (h.expire i) ↔ Covered h := covered_spawn howes
      refine ⟨by simp [hcovered, WritesStale, Commands], fun t ht => ?_⟩
      rcases Pool.mem_spawn.mp ht with ht | ⟨rfl, _⟩
      · exact hpaired t ht
      · exact hp
  | step i =>
      obtain ⟨c, effect⟩ := step_effect hpaired hnext
      refine ⟨?_, effect.paired⟩
      simp only [Covered, Agree, WritesStale, Commands, effect.head, effect.servo, effect.flag,
        effect.owedBefore, effect.owedAfter, Option.mem_def, Option.some.injEq, exists_eq_left']
      cases hcommand : command c with
      | some d =>
          have hwrite : flagWrite c = none := by simpa [hcommand] using command_flagWrite c
          simp [hwrite]
      | none =>
          cases hwrite : flagWrite c with
          | some d => simp [eq_comm]
          | none => simp

/-! ## Whole runs -/

theorem covered_run {h₀ h : House} {ts : List (Transition House Move)}
    (hrun : house.Run h₀ ts h) (hagree : Agree h₀.shared) (hstart : h₀.threads = []) :
    (¬ Covered h ↔ EndsStale ts) ∧ ∀ t ∈ h.threads, Paired t.2 := by
  induction hrun with
  | nil =>
      refine ⟨iff_of_false (not_not_intro (Or.inl hagree)) not_endsStale_nil, ?_⟩
      simp [hstart]
  | snoc hprior hnext ih =>
      obtain ⟨hcovered, hpaired⟩ := ih
      obtain ⟨hstep, hafter⟩ := covered_step hpaired hnext
      exact ⟨by rw [hstep, hcovered, endsStale_snoc], hafter⟩

/-- With no handler in flight the servo and the database agree exactly if the schedule
does not end with a stale write. -/
theorem agree_iff_not_endsStale {h₀ h : House} {ts : List (Transition House Move)}
    (hrun : house.Run h₀ ts h) (hagree : Agree h₀.shared) (hstart : h₀.threads = [])
    (hidle : h.threads = []) : Agree h.shared ↔ ¬ EndsStale ts := by
  obtain ⟨hcovered, _⟩ := covered_run hrun hagree hstart
  rw [← hcovered, not_not]
  simp [Covered, Owed, hidle]

/-! ## Overlaps that are safe -/

/-- A handler commands the servo while another one still has to write the flag for its own
command. -/
def Interrupts (h : House) (m : Move) : Prop := Commands h m ∧ ∃ d, Owed h.threads d

/-- Who still has to write the flag writes the servo's direction. -/
def InStep (h : House) : Prop := ∀ d, Owed h.threads d → d = h.shared.servo.locked

theorem owed_of_head {h : House} {i : Nat} {c : Call} {d : Bool} (hhead : h.head i = some c)
    (hwrite : flagWrite c = some d) : Owed h.threads d := by
  unfold House.head at hhead
  split at hhead
  case h_1 who c' k hthread =>
    cases hhead
    exact ⟨_, List.mem_of_getElem? hthread, hwrite⟩
  case h_2 => cases hhead

theorem InStep.not_writesStale {h : House} (hstep : InStep h) (m : Move) :
    ¬ WritesStale h m := by
  cases m with
  | step i =>
      rintro ⟨c, hhead, d, hwrite, hne, _⟩
      exact hne (hstep d (owed_of_head hhead hwrite))
  | _ => exact id

theorem InStep.spawn {h : House} {who : Actor} {p : Proc Unit} (hstep : InStep h)
    (hp : owes p = none) : InStep (h.spawn who p) := by
  rintro d ⟨t, ht, hd⟩
  rw [Pool.spawn_shared]
  rcases Pool.mem_spawn.mp ht with ht | ⟨rfl, _⟩
  · exact hstep d ⟨t, ht, hd⟩
  · cases hp.symm.trans hd

theorem InStep.next {h h' : House} {m : Move} (hstep : InStep h)
    (hpaired : ∀ t ∈ h.threads, Paired t.2) (hapart : ¬ Interrupts h m)
    (hnext : house.next h m = some h') : InStep h' := by
  cases m with
  | wait clock =>
      obtain ⟨_, hout⟩ := Option.ite_none_right_eq_some.mp hnext
      cases hout
      exact hstep
  | start o =>
      obtain ⟨_, hout⟩ := Option.ite_none_left_eq_some.mp hnext
      cases hout
      exact hstep.spawn (paired_program o).2
  | fire i =>
      obtain ⟨_, hout⟩ := Option.ite_none_right_eq_some.mp hnext
      cases hout
      exact InStep.spawn (h := { h with
        shared := { h.shared with relock := h.shared.relock.fire i } }) hstep paired_doRelock.2
  | step i =>
      obtain ⟨c, effect⟩ := step_effect hpaired hnext
      intro d hd
      rw [effect.servo]
      cases hcommand : command c with
      | none =>
          rcases (effect.owedAfter d).mp hd with hown | hother
          · cases hcommand.symm.trans hown
          · exact hstep d ((effect.owedBefore d).mpr (Or.inr hother))
      | some direction =>
          rcases (effect.owedAfter d).mp hd with hown | hother
          · exact Option.some.inj (hown.symm.trans hcommand)
          · have hcommands : Commands h (.step i) := ⟨c, effect.head, by simp [hcommand]⟩
            exact absurd ⟨hcommands, d, (effect.owedBefore d).mpr (Or.inr hother)⟩ hapart

theorem inStep_of_run {h₀ h : House} {ts : List (Transition House Move)}
    (hrun : house.Run h₀ ts h) (hagree : Agree h₀.shared) (hstart : h₀.threads = [])
    (hapart : ∀ t ∈ ts, ¬ Interrupts t.before t.label) : InStep h ∧ ¬ EndsStale ts := by
  induction hrun with
  | nil => exact ⟨fun d hd => by simp [Owed, hstart] at hd, not_endsStale_nil⟩
  | @snoc us s s' m hprior hnext ih =>
      obtain ⟨hstep, hfresh⟩ := ih fun t ht => hapart t (List.mem_append_left _ ht)
      have hpaired := (covered_run hprior hagree hstart).2
      have hlast : ¬ Interrupts s m := hapart ⟨s, m, s'⟩ (by simp)
      refine ⟨hstep.next hpaired hlast hnext, fun hstale => ?_⟩
      rcases endsStale_snoc.mp hstale with hlast | ⟨hearlier, _⟩
      · exact hstep.not_writesStale _ hlast
      · exact hfresh hearlier

/-- Handlers may overlap in every other way: servo and flag agree if no handler commands the
servo between a command of another one and its flag write. -/
theorem agree_of_not_interrupts {h₀ h : House} {ts : List (Transition House Move)}
    (hrun : house.Run h₀ ts h) (hagree : Agree h₀.shared) (hstart : h₀.threads = [])
    (hidle : h.threads = []) (hapart : ∀ t ∈ ts, ¬ Interrupts t.before t.label) :
    Agree h.shared := by
  obtain ⟨hcovered, _⟩ := covered_run hrun hagree hstart
  have hfresh := (inStep_of_run hrun hagree hstart hapart).2
  have hopen : Covered h := not_not.mp fun hnot => hfresh (hcovered.mp hnot)
  simpa [Covered, Owed, hidle] using hopen

/-! ## The lost agreement -/

/-- A timer thread has commanded the lock when an unlock runs through; its flag write
then lands on the unlocked door. -/
def lateRelock : List Move :=
  [.start .doorUnlock, .step 0, .step 0, .step 0, .step 0, .step 0, .wait 10, .fire 0,
    .step 0, .step 0, .start .doorUnlock, .step 1, .step 1, .step 1, .step 1, .step 1, .step 0]

def house₀ : House := ⟨Process.boot true none 0, []⟩

theorem exists_run_of_lateRelock :
    ∃ h ts, house.Run house₀ ts h ∧ h.threads = [] ∧ ¬ Agree h.shared := by
  have hend : (house.trace house₀ lateRelock).map
      (fun (_, h) => (h.threads.length, h.shared.servo.locked, h.shared.db.doorLocked)) =
      some (0, false, true) := by decide +kernel
  obtain ⟨ts, h, hrun, hview⟩ := Machine.exists_run_of_view hend
  simp only [Prod.mk.injEq] at hview
  obtain ⟨hidle, hservo, hflag⟩ := hview
  exact ⟨h, ts, hrun, List.length_eq_zero_iff.mp hidle,
    by simp [Agree, hservo, hflag]⟩

theorem not_always_agree :
    ¬ ∀ (h₀ h : House) (ts : List (Transition House Move)), Agree h₀.shared → h₀.threads = [] →
      house.Run h₀ ts h → h.threads = [] → Agree h.shared := by
  intro halways
  obtain ⟨h, ts, hrun, hidle, hdisagree⟩ := exists_run_of_lateRelock
  exact hdisagree (halways house₀ h ts rfl rfl hrun hidle)

/-- The schedule of the late relock is one that ends stale. -/
theorem exists_endsStale_run :
    ∃ h ts, house.Run house₀ ts h ∧ h.threads = [] ∧ EndsStale ts := by
  obtain ⟨h, ts, hrun, hidle, hdisagree⟩ := exists_run_of_lateRelock
  refine ⟨h, ts, hrun, hidle, ?_⟩
  by_contra hstale
  exact hdisagree ((agree_iff_not_endsStale hrun rfl rfl hidle).mpr hstale)

end FacialCamera.Door
