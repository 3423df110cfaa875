import FacialCamera.Core.Evidence
import FacialCamera.Recognition.Interleaved

/-! # Settings that are heeded

The app switches motion detection, motion alerts and the automatic lock while callbacks
and scans are under way. Whatever the order of the calls, a recognition run does nothing
that a setting forbids unless the setting has been on since the run began, and only the
request for a setting, or a restart, changes it.
-/

namespace FacialCamera.Recognition

open FacialCamera.Core Backend

/-! ## What a thread may do on what it has heard -/

def locksDoor : Call → Bool
  | .servoLock => true
  | .setDoorLocked locked => locked
  | _ => false

/-- The settings that have to be on for a call of an event. A motion run asks for the first of
them before it does anything. -/
def guards : Event → Call → List Flag
  | .motion _, .readFlag .motionDetectionEnabled => []
  | .motion _, .addAlert _ => [.motionDetectionEnabled, .motionAlertsEnabled]
  | .motion _, c =>
      if locksDoor c then [.motionDetectionEnabled, .autoLockOnUnknown]
      else [.motionDetectionEnabled]
  | .request .doorbell _, c => if locksDoor c then [.autoLockOnUnknown] else []
  | _, _ => []

def Event.sets : Event → Flag → Option Bool
  | .request a _ => Recognition.sets a
  | _ => fun _ => none

/-- On what it has heard the thread of an event may issue the call. -/
structure Heeds (e : Event) (heard : List (Answered Call Answer)) (c : Call) : Prop where
  settings : ∀ flag ∈ guards e c, ⟨.readFlag flag, true⟩ ∈ heard
  unlocked : e.recognition.isSome = true → locksDoor c = true → ⟨.getDoorLocked, false⟩ ∈ heard
  switches : ∀ flag value, c = .writeFlag flag value → e.sets flag = some value

variable {e : Event} {heard : List (Answered Call Answer)}

theorem heeds_iff {c : Call} : Heeds e heard c ↔
    (∀ flag ∈ guards e c, ⟨.readFlag flag, true⟩ ∈ heard) ∧
      (e.recognition.isSome = true → locksDoor c = true → ⟨.getDoorLocked, false⟩ ∈ heard) ∧
        ∀ flag value, c = .writeFlag flag value → e.sets flag = some value :=
  ⟨fun h => ⟨h.settings, h.unlocked, h.switches⟩, fun h => ⟨h.1, h.2.1, h.2.2⟩⟩

/-- An event that is no recognition run has nothing to ask for. -/
theorem heeds_of_request {c : Call} (he : e.recognition = none)
    (hsets : ∀ flag value, c = .writeFlag flag value → e.sets flag = some value) :
    Heeds e heard c := by
  have hguards : guards e c = [] := by
    unfold guards
    split <;> first | rfl | cases he
  exact ⟨by simp [hguards], by simp [he], hsets⟩

/-! ### The recognition runs -/

theorem heeds_onMotionDetected (sight : Sight) :
    (onMotionDetected sight).Justified (Heeds (.motion sight)) [] := by
  cases hgrab : grabFaceEncoding sight.frames with
  | raises => simp [onMotionDetected, hgrab, heeds_iff, guards, locksDoor]
  | noFace => simp [onMotionDetected, hgrab, heeds_iff, guards, locksDoor]
  | face encoding quality =>
      simp [onMotionDetected, hgrab, heeds_iff, guards, locksDoor]
      intro _ known threshold
      cases recognizedName (compareFace sight.library threshold encoding known) with
      | some name => simp [scheduleRelock, heeds_iff, guards, locksDoor]
      | none => simp [heeds_iff, guards, locksDoor]

theorem heeds_runDoorbellScan (seen : Surroundings) :
    (runDoorbellScan seen.sight).Justified (Heeds (.request .doorbell seen)) [] := by
  cases hgrab : grabFaceEncoding seen.sight.frames with
  | raises => simp [runDoorbellScan, hgrab, heeds_iff, guards, locksDoor]
  | noFace => simp [runDoorbellScan, hgrab, heeds_iff, guards, locksDoor]
  | face encoding quality =>
      simp [runDoorbellScan, hgrab, heeds_iff, guards, locksDoor]
      intro _ known threshold
      cases recognizedName (compareFace seen.sight.library threshold encoding known) with
      | some name => simp [scheduleRelock, heeds_iff, guards, locksDoor]
      | none => simp [heeds_iff, guards, locksDoor]

/-! ### The other events -/

theorem heeds_of_other {p : Proc Unit} (he : e.recognition = none)
    (hp : p.Calls fun c => ∀ flag value, c = .writeFlag flag value → e.sets flag = some value) :
    p.Justified (Heeds e) heard :=
  hp.justified fun _ hc _ => heeds_of_request he hc

theorem heeds_program (e : Event) : e.program.Justified (Heeds e) [] := by
  cases e with
  | wait clock => trivial
  | motion sight => exact heeds_onMotionDetected sight
  | fire i =>
      refine heeds_of_other rfl ⟨by simp, fun locked => ?_⟩
      cases locked with
      | true => trivial
      | false => exact ⟨by simp, fun _ => ⟨by simp, fun _ => trivial⟩⟩
  | request a seen =>
      by_cases hbell : a = .doorbell
      · subst hbell
        have hanswer : (ApiRequest.handler seen .doorbell).Justified
            (Heeds (.request .doorbell seen)) [] :=
          (heeds_runDoorbellScan seen).bind fun _ _ => trivial
        exact hanswer.bind fun _ _ => trivial
      have he : (Event.request a seen).recognition = none := by
        cases a <;> first | rfl | exact absurd rfl hbell
      by_cases hlock : a = .doorLock
      · subst hlock
        exact heeds_of_other rfl (by
          simp [Event.program, ApiRequest.handler, answer, Program.forget, doorLock])
      by_cases hunlock : a = .doorUnlock
      · subst hunlock
        exact heeds_of_other rfl (by
          simp [Event.program, ApiRequest.handler, answer, Program.forget, doorUnlock,
            scheduleRelock])
      refine heeds_of_other he (calls_request ?_ seen ?_ hlock hunlock hbell)
      · rintro c hc flag value rfl
        cases hc
      · rintro flag value hsets _ _ ⟨⟩
        exact hsets

/-! ## Every run -/

section Runs

variable {J : Event → List (Answered Call Answer) → Call → Prop}
  {ts : List (Transition House HouseTurn)} {h h' : House} {turn : HouseTurn}

/-- The history has started a thread of the event, and has been through these states since. -/
def BegunIn (ts : List (Transition House HouseTurn)) (e : Event) (Past : Process → Prop) : Prop :=
  ∃ us t vs, ts = us ++ t :: vs ∧ t.label = .start e ∧
    Past = fun b => ∃ u ∈ vs, u.before.shared = b

theorem reaches_begunIn (t : Transition House HouseTurn) :
    Pool.Reaches (BegunIn ts) (BegunIn (ts ++ [t])) t.before.shared := by
  rintro e _ ⟨us, s, vs, rfl, hstart, rfl⟩
  refine ⟨_, ⟨us, s, vs ++ [t], by simp, hstart, rfl⟩, ⟨t, by simp, rfl⟩, ?_⟩
  rintro b ⟨u, hu, rfl⟩
  exact ⟨u, List.mem_append_left _ hu, rfl⟩

/-- What the programs of all events are justified in, the threads are after a turn. -/
theorem justified_step (hJ : ∀ e : Event, e.program.Justified (J e) [])
    (hwitnessed : Pool.Witnessed exec J (BegunIn ts) h)
    (hnext : interleaved.next h turn = some h') :
    Pool.Witnessed exec J (BegunIn (ts ++ [⟨h, turn, h'⟩])) h' := by
  have hreach : Pool.Reaches (BegunIn ts) (BegunIn (ts ++ [⟨h, turn, h'⟩])) h.shared :=
    reaches_begunIn ⟨h, turn, h'⟩
  cases turn with
  | start e =>
      obtain ⟨b, _, rfl⟩ := Option.map_eq_some_iff.mp hnext
      have hbegun : BegunIn
          (ts ++ [⟨h, .start e, Pool.spawn { h with shared := b } e e.program⟩])
          e fun _ => False :=
        ⟨ts, _, [], rfl, rfl, by simp⟩
      have hwaiting : Pool.Witnessed exec J (BegunIn ts) { h with shared := b } :=
        fun t ht => hwitnessed t ht
      exact (hwaiting.later hreach).spawn hbegun (hJ e)
  | step i =>
      obtain ⟨who, c, k, q, spec⟩ := Pool.stepAt_spec hnext
      exact (hwitnessed.step spec hreach).1
  | restart onPi clock =>
      obtain ⟨_, hboot⟩ := Option.ite_none_right_eq_some.mp hnext
      cases hboot
      intro t ht
      cases ht

theorem justified_of_run {onPi : Bool} {clock : Timestamp}
    (hJ : ∀ e : Event, e.program.Justified (J e) [])
    (hrun : interleaved.Run (powerOn onPi clock) ts h) :
    Pool.Witnessed exec J (BegunIn ts) h := by
  induction hrun with
  | nil =>
      intro t ht
      cases ht
  | snoc _ hnext ih => exact justified_step hJ ih hnext

def Issues (h : House) (turn : HouseTurn) (e : Event) (c : Call) : Prop :=
  ∃ i k, turn = .step i ∧ h.threads[i]? = some (e, .call c k)

/-- Since a start of the event the history has been through such a state. -/
def BeenSince (ts : List (Transition House HouseTurn)) (e : Event) (P : Process → Prop) : Prop :=
  ∃ us t vs, ts = us ++ t :: vs ∧ t.label = .start e ∧ ∃ u ∈ vs, P u.before.shared

/-- The transition keeps to the settings: what a thread does against a setting, the setting
allowed since its start; an automatic lock has found the door open since; and a setting
changes as a request asks for, or by the restart that turns them all on. -/
structure Heeded (us : List (Transition House HouseTurn)) (t : Transition House HouseTurn) :
    Prop where
  settings : ∀ e c, Issues t.before t.label e c → ∀ flag ∈ guards e c,
    BeenSince us e fun b => b.flags flag = true
  unlocked : ∀ e c, Issues t.before t.label e c → e.recognition.isSome = true →
    locksDoor c = true → BeenSince us e fun b => b.db.doorLocked = false
  switched : ∀ flag, t.after.shared.flags flag ≠ t.before.shared.flags flag →
    (∃ onPi clock, t.label = .restart onPi clock ∧ t.after.shared.flags flag = true) ∨
      ∃ e value, Issues t.before t.label e (.writeFlag flag value) ∧ e.sets flag = some value ∧
        t.after.shared.flags flag = value

theorem beenSince_of_heard {Past : Process → Prop} {c : Call} {r : Answer c}
    (hbegun : BegunIn ts e Past) (hheard : ⟨c, r⟩ ∈ heard)
    (hgiven : ∀ a ∈ heard, Pool.Given exec Past a) {P : Process → Prop}
    (hP : ∀ b b', exec c b = some (r, b') → P b) : BeenSince ts e P := by
  obtain ⟨us, t, vs, rfl, hstart, rfl⟩ := hbegun
  obtain ⟨_, b', ⟨u, hu, rfl⟩, hanswer⟩ := hgiven _ hheard
  exact ⟨us, t, vs, rfl, hstart, u, hu, hP _ b' hanswer⟩

/-- A flag changes by the write of a thread. -/
theorem flags_exec {c : Call} {b b' : Process} {r : Answer c} (hexec : exec c b = some (r, b'))
    {flag : Flag} (hchanged : b'.flags flag ≠ b.flags flag) :
    c = .writeFlag flag (b'.flags flag) := by
  by_cases hwrite : ∃ written value, c = .writeFlag written value
  · obtain ⟨written, value, rfl⟩ := hwrite
    simp only [exec, Option.some.injEq, Prod.mk.injEq] at hexec
    obtain ⟨_, rfl⟩ := hexec
    by_cases hflag : flag = written
    · subst hflag
      simp
    · simp [hflag] at hchanged
  · refine absurd ?_ hchanged
    rw [(Door.exec_frame hexec).flags fun flag value hc => hwrite ⟨flag, value, hc⟩]

theorem flags_ready {b start : Process} (hready : e.ready b = some start) :
    start.flags = b.flags := by
  cases e <;> simp only [Event.ready, Option.ite_none_right_eq_some, Option.some.injEq] at hready
  case wait | fire =>
    obtain ⟨_, rfl⟩ := hready
    rfl
  case request | motion =>
    subst hready
    rfl

theorem heeded_step (hwitnessed : Pool.Witnessed exec Heeds (BegunIn ts) h)
    (hnext : interleaved.next h turn = some h') : Heeded ts ⟨h, turn, h'⟩ := by
  cases turn with
  | start e =>
      obtain ⟨b, hready, rfl⟩ := Option.map_eq_some_iff.mp hnext
      refine ⟨?_, ?_, fun flag hchanged => absurd ?_ hchanged⟩
      · rintro e c ⟨i, k, hturn, _⟩
        cases hturn
      · rintro e c ⟨i, k, hturn, _⟩
        cases hturn
      · rw [Pool.spawn_shared, flags_ready hready]
  | restart onPi clock =>
      obtain ⟨_, hboot⟩ := Option.ite_none_right_eq_some.mp hnext
      cases hboot
      refine ⟨?_, ?_, fun flag _ => Or.inl ⟨onPi, clock, rfl, rfl⟩⟩
      · rintro e c ⟨i, k, hturn, _⟩
        cases hturn
      · rintro e c ⟨i, k, hturn, _⟩
        cases hturn
  | step i =>
      obtain ⟨who, c, k, q, spec⟩ := Pool.stepAt_spec hnext
      obtain ⟨Past, heard, hbegun, hjustified, hgiven⟩ :=
        hwitnessed _ (spec.mem_before.mpr (Or.inl rfl))
      have hheeds : Heeds who heard c := hjustified.1
      have hissued {e : Event} {c' : Call} (hissues : Issues h (.step i) e c') :
          e = who ∧ c' = c := by
        obtain ⟨_, k', hturn, hthread⟩ := hissues
        cases hturn
        cases hthread.symm.trans spec.thread
        exact ⟨rfl, rfl⟩
      refine ⟨?_, ?_, fun flag hchanged => Or.inr ?_⟩
      · intro e c' hissues flag hflag
        obtain ⟨rfl, rfl⟩ := hissued hissues
        refine beenSince_of_heard hbegun (hheeds.settings flag hflag) hgiven fun b b' hread => ?_
        exact (Prod.mk.inj (Option.some.inj hread)).1
      · intro e c' hissues hrun hlocks
        obtain ⟨rfl, rfl⟩ := hissued hissues
        refine beenSince_of_heard hbegun (hheeds.unlocked hrun hlocks) hgiven fun b b' hread => ?_
        exact (Prod.mk.inj (Option.some.inj hread)).1
      · rcases spec.result with ⟨_, _, hsame⟩ | ⟨r, hexec, _⟩
        · exact absurd (congrArg (fun b => b.flags flag) hsame) hchanged
        · have hcall := flags_exec hexec hchanged
          subst hcall
          exact ⟨who, _, ⟨i, k, rfl, spec.thread⟩, hheeds.switches flag _ rfl, rfl⟩

/-- In every run each act of a recognition run was allowed since the run began, and each change
of a setting was asked for. -/
theorem heeded_of_run {onPi : Bool} {clock : Timestamp}
    (hrun : interleaved.Run (powerOn onPi clock) ts h) : Machine.EachStep Heeded ts := by
  rintro us t ⟨vs, rfl⟩
  obtain ⟨mid, hus, _⟩ := hrun.split
  obtain ⟨hbefore, hnext, _⟩ := hus.snoc_inv
  exact heeded_step (justified_of_run heeds_program hbefore) hnext

end Runs

/-- Nobody is seen, and the alerts are switched off before this one is written. -/
def switchedOffTooLate : List HouseTurn :=
  .start (.motion nobody.sight) :: List.replicate 4 (.step 0) ++
    [.start (.request (.setMotionSettings none (some false)) nobody), .step 1, .step 0]

theorem heeded_switchedOffTooLate : ∃ ts h, interleaved.Run (powerOn false 100) ts h ∧
    (h.shared.flags .motionAlertsEnabled = false ∧
      h.shared.db.alerts.map AlertRow.label = [.motionNoFace]) ∧
        Machine.EachStep Heeded ts := by
  have hend : (interleaved.trace (powerOn false 100) switchedOffTooLate).map (fun (_, h) =>
      (h.shared.flags .motionAlertsEnabled, h.shared.db.alerts.map AlertRow.label)) =
        some (false, [.motionNoFace]) := by
    decide +kernel
  obtain ⟨ts, h, hrun, hview⟩ := Machine.exists_run_of_view hend
  exact ⟨ts, h, hrun, Prod.mk.inj hview, heeded_of_run hrun⟩

end FacialCamera.Recognition
