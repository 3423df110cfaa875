import FacialCamera.Backend.Sensor
import FacialCamera.Core.Machine
import FacialCamera.Door.Operations

/-! # Polls, edges and the cooldown

The sensor remembers a level and `on_motion_detected` remembers a time. A run
starts where a poll is a rising edge for the one and late enough for the other;
what each of them remembers is read off the history of the polls.
-/

namespace FacialCamera.Motion

open FacialCamera.Core Backend Door

structure Watch where
  sensor : MotionSensor
  process : Process

inductive WatchMove where
  | poll (p : Poll)
  | setMotionSettings (detection alerts : Option Bool)

def watching : Machine Watch WatchMove where
  next w
    | .poll p =>
        if w.process.clock ≤ p.clock then
          let (sensor, process) := w.sensor.pollOnce p { w.process with clock := p.clock }
          some ⟨sensor, process⟩
        else none
    | .setMotionSettings detection alerts =>
        some { w with
          process := ((setMotionSettings detection alerts).run exec w.process).2 }

/-! ## What the history tells -/

def Watch.at (w : Watch) (clock : ℚ) : Process := { w.process with clock }

/-- The poll is a rising edge, on which the sensor calls `_on_motion`. -/
def Watch.callsBack (w : Watch) (p : Poll) : Bool :=
  p.reading = some true ∧ w.sensor.lastState = false

def executed (p : Poll) (b : Process) : List (Call × Process) :=
  let visits := (onMotionDetected p.sight).visits exec b
  match p.raisesAt with
  | none => visits
  | some n => visits.take n

/-- The callback executes its claim and the claim is granted. -/
def claims (p : Poll) (b : Process) : Bool :=
  (executed p b).any fun v => v.1 = .claimMotion ∧ v.2.claimMotion.1

def startsRun (t : Transition Watch WatchMove) : Bool :=
  match t.label with
  | .poll p => t.before.callsBack p && claims p (t.before.at p.clock)
  | .setMotionSettings _ _ => false

/-- The level of a poll whose reading and callback went through. -/
def completed? (t : Transition Watch WatchMove) : Option Bool :=
  match t.label with
  | .poll p =>
      if t.before.callsBack p = true ∧ (p.callback (t.before.at p.clock)).1 = none then none
      else p.reading
  | .setMotionSettings _ _ => none

/-- The level of the most recent poll that went through. -/
def lastCompleted (ts : List (Transition Watch WatchMove)) : Option Bool :=
  (ts.filterMap completed?).getLast?

def clockOf (t : Transition Watch WatchMove) : ℚ := t.after.process.clock

/-! ## The callback -/

/-- The call neither claims a run nor changes a setting. -/
def Plain (c : Call) : Prop := c ≠ .claimMotion ∧ ∀ flag value, c ≠ .writeFlag flag value

/-- The callback is the flag, the claim and then a run of plain calls. -/
theorem onMotionDetected_spec (sight : Sight) : ∃ rest : Proc Unit,
    onMotionDetected sight = .call (.readFlag .motionDetectionEnabled) (fun enabled =>
      if enabled then .call .claimMotion fun claimed => if claimed then rest else .done ()
      else .done ()) ∧ rest.Calls Plain := by
  refine ⟨?rest, ?heq, ?hcalls⟩
  case heq =>
    unfold onMotionDetected
    refine congrArg (Program.call _) (funext fun enabled => ?_)
    cases enabled with
    | false => rfl
    | true =>
        refine congrArg (Program.call _) (funext fun claimed => ?_)
        cases claimed with
        | false => rfl
        | true => rfl
  case hcalls =>
    refine ⟨by simp [Plain], fun _ => ?_⟩
    cases grabFaceEncoding sight.frames with
    | raises => trivial
    | noFace =>
        refine ⟨by simp [Plain], fun alerts => ?_⟩
        cases alerts <;> simp [Program.bind, Plain]
    | face encoding quality =>
        refine ⟨by simp [Plain], fun known => ⟨by simp [Plain], fun threshold => ?_⟩⟩
        simp only [Program.bind]
        cases recognizedName (compareFace sight.library threshold encoding known) with
        | some name => simp [scheduleRelock, Plain]
        | none =>
            refine ⟨by simp [Plain], fun _ => ⟨by simp [Plain], fun alerts => ?_⟩⟩
            cases alerts <;> simp [Program.bind, Bool.forall_bool, Plain]

/-- The calls of an undisturbed callback, up to the claim. -/
theorem visits_onMotionDetected (sight : Sight) (b : Process) : ∃ later : List (Call × Process),
    (onMotionDetected sight).visits exec b =
      (.readFlag .motionDetectionEnabled, b) ::
        (if b.flags .motionDetectionEnabled then
          (.claimMotion, b) :: (if b.claimMotion.1 then later else []) else []) ∧
      ∀ v ∈ later, v.1 ≠ .claimMotion := by
  obtain ⟨rest, heq, hrest⟩ := onMotionDetected_spec sight
  refine ⟨rest.visits exec b.claimMotion.2, ?_, fun v hv => (hrest.of_mem_visits hv).1⟩
  rw [heq]
  cases henabled : b.flags .motionDetectionEnabled <;> cases hclaim : b.claimMotion.1 <;>
    simp [Program.visits, exec, henabled, hclaim]

theorem claimMotion_granted_iff (b : Process) :
    b.claimMotion.1 = true ↔ ¬ b.clock - b.lastMotionTime < MOTION_COOLDOWN := by
  unfold Process.claimMotion
  split
  case isTrue h => simp [h]
  case isFalse h => simp [h]

/-- A callback starts a run where the pipeline would and nothing raises before the stamp. -/
theorem claims_iff (p : Poll) (b : Process) :
    claims p b = true ↔ motionRuns b ∧ ∀ n ∈ p.raisesAt, 2 ≤ n := by
  obtain ⟨later, hvisits, hlater⟩ := visits_onMotionDetected p.sight b
  have hrest (n : Nat) : (later.take n).any (fun v =>
      decide (v.1 = .claimMotion ∧ v.2.claimMotion.1 = true)) = false := by
    refine List.any_eq_false.mpr fun v hv => ?_
    simp [hlater v (List.mem_of_mem_take hv)]
  have hall : later.any (fun v =>
      decide (v.1 = .claimMotion ∧ v.2.claimMotion.1 = true)) = false := by
    simpa using hrest later.length
  rw [motionRuns, ← claimMotion_granted_iff]
  simp only [claims, executed, hvisits]
  cases henabled : b.flags .motionDetectionEnabled <;> cases hclaim : b.claimMotion.1 <;>
    rcases p.raisesAt with _ | _ | _ | n <;>
    simp_all

/-- A callback that starts no run leaves the process as it is. -/
theorem callback_of_not_claims {p : Poll} {b : Process} (h : claims p b = false) :
    (p.callback b).2 = b := by
  obtain ⟨rest, heq, _⟩ := onMotionDetected_spec p.sight
  rw [← Bool.not_eq_true, claims_iff, motionRuns, ← claimMotion_granted_iff] at h
  have hsame (hrefused : b.claimMotion.1 = false) : b.claimMotion.2 = b := by
    unfold Process.claimMotion at hrefused ⊢
    split
    · rfl
    · next hlate => simp [hlate] at hrefused
  unfold Poll.callback
  rw [heq]
  cases henabled : b.flags .motionDetectionEnabled <;> cases hclaim : b.claimMotion.1 <;>
    rcases hraises : p.raisesAt with _ | _ | _ | n <;>
    simp_all [Program.run_call, Program.runRaising, exec]

/-- A callback that starts a run leaves its own time as the stamp. -/
theorem callback_of_claims {p : Poll} {b : Process} (h : claims p b = true) :
    (p.callback b).2.lastMotionTime = b.clock := by
  obtain ⟨rest, heq, hrest⟩ := onMotionDetected_spec p.sight
  obtain ⟨⟨henabled, hlate⟩, hraises⟩ := (claims_iff p b).mp h
  have hclaim := Process.claimMotion_of_not_lt hlate
  have hcall (c : Call) (b : Process) (r : Answer c) (b' : Process) (hc : Plain c)
      (hexec : exec c b = some (r, b')) : b'.lastMotionTime = b.lastMotionTime :=
    (exec_frame hexec).lastMotionTime hc.1
  unfold Poll.callback
  rw [heq]
  rcases hat : p.raisesAt with _ | _ | _ | n
  · simpa [Program.run_call, exec, henabled, hclaim] using
      hrest.run_frame Process.lastMotionTime hcall { b with lastMotionTime := b.clock }
  · exact absurd (hraises 0 hat) (by decide)
  · exact absurd (hraises 1 hat) (by decide)
  · simpa [Program.runRaising, exec, henabled, hclaim] using
      hrest.runRaising_frame Process.lastMotionTime hcall n { b with lastMotionTime := b.clock }

theorem clock_callback (p : Poll) (b : Process) : (p.callback b).2.clock = b.clock := by
  unfold Poll.callback
  cases p.raisesAt with
  | none => exact clock_run (onMotionDetected p.sight) b
  | some n =>
      exact (Program.calls_true (onMotionDetected p.sight)).runRaising_frame (I := exec)
        Process.clock (fun _ _ _ _ _ h => exec_clock h) n b

/-! ## One step -/

inductive Moved (w w' : Watch) : WatchMove → Prop where
  | set {detection alerts : Option Bool} : w'.sensor = w.sensor →
      w'.process.lastMotionTime = w.process.lastMotionTime →
      w'.process.clock = w.process.clock → Moved w w' (.setMotionSettings detection alerts)
  | unread {p : Poll} : p.reading = none → w'.sensor = w.sensor →
      w'.process = w.at p.clock → Moved w w' (.poll p)
  | level {p : Poll} {triggered : Bool} : p.reading = some triggered → w.callsBack p = false →
      w'.sensor.lastState = triggered → w'.process = w.at p.clock → Moved w w' (.poll p)
  | edge {p : Poll} : w.callsBack p = true →
      w'.sensor.lastState = (p.callback (w.at p.clock)).1.isSome →
      w'.process = (p.callback (w.at p.clock)).2 → Moved w w' (.poll p)

theorem moved_of_next {w w' : Watch} {l : WatchMove} (hnext : watching.next w l = some w') :
    Moved w w' l ∧ w.process.clock ≤ w'.process.clock := by
  cases l with
  | setMotionSettings detection alerts =>
      obtain rfl := Option.some.inj hnext
      have hcalls : (setMotionSettings detection alerts).Calls fun c => c ≠ .claimMotion := by
        cases detection <;> cases alerts <;> simp [setMotionSettings]
      have hstamp := hcalls.run_frame (I := exec) Process.lastMotionTime
        (fun _ _ _ _ hc h => (exec_frame h).lastMotionTime hc) w.process
      have hclock := clock_run (setMotionSettings detection alerts) w.process
      exact ⟨.set rfl hstamp hclock, hclock.ge⟩
  | poll p =>
      simp only [watching, Option.ite_none_right_eq_some, Option.some.injEq] at hnext
      obtain ⟨hclock, rfl⟩ := hnext
      have hat : { w.process with clock := p.clock } = w.at p.clock := rfl
      rw [hat]
      cases hreading : p.reading with
      | none =>
          simp only [MotionSensor.pollOnce, hreading]
          exact ⟨.unread hreading rfl rfl, hclock⟩
      | some triggered =>
          cases hcalls : w.callsBack p with
          | false =>
              have hlevel : (triggered && !w.sensor.lastState) = false := by
                cases triggered <;> simp_all [Watch.callsBack]
              simp only [MotionSensor.pollOnce, hreading, hlevel, Bool.false_eq_true, if_false]
              exact ⟨.level hreading hcalls rfl rfl, hclock⟩
          | true =>
              obtain ⟨htriggered, hlow⟩ : triggered = true ∧ w.sensor.lastState = false := by
                simpa [Watch.callsBack, hreading] using hcalls
              have hafter := clock_callback p (w.at p.clock)
              simp only [MotionSensor.pollOnce, hreading, htriggered, hlow, Bool.not_false,
                Bool.and_self, if_true]
              rcases hcallback : p.callback (w.at p.clock) with ⟨_ | _, b'⟩ <;>
                simp only [hcallback] at hafter ⊢ <;>
                refine ⟨.edge hcalls ?_ ?_, hafter ▸ hclock⟩ <;>
                simp [hcallback, hlow]

theorem Moved.starts {w w' : Watch} {p : Poll} (h : Moved w w' (.poll p))
    (hstarts : startsRun ⟨w, .poll p, w'⟩ = true) :
    motionRuns (w.at p.clock) ∧ w'.process.lastMotionTime = p.clock := by
  obtain ⟨hcalls, hclaims⟩ := (Bool.and_eq_true _ _).mp hstarts
  refine ⟨((claims_iff p (w.at p.clock)).mp hclaims).1, ?_⟩
  cases h with
  | unread hreading _ _ => simp [Watch.callsBack, hreading] at hcalls
  | level _ hother _ _ =>
      rw [hother] at hcalls
      cases hcalls
  | edge _ _ hafter => rw [hafter, callback_of_claims hclaims, Watch.at]

/-- A poll that starts no run changes nothing but the time and the level. -/
theorem Moved.of_not_starts {w w' : Watch} {p : Poll} (h : Moved w w' (.poll p))
    (hstarts : startsRun ⟨w, .poll p, w'⟩ = false) : w'.process = w.at p.clock := by
  cases h with
  | unread _ _ hafter => exact hafter
  | level _ _ _ hafter => exact hafter
  | edge hcalls _ hafter =>
      have hclaims : claims p (w.at p.clock) = false := by
        simpa [startsRun, hcalls] using hstarts
      rw [hafter, callback_of_not_claims hclaims]

theorem Moved.clock {w w' : Watch} {p : Poll} (h : Moved w w' (.poll p)) :
    w'.process.clock = p.clock := by
  cases h with
  | unread _ _ hafter => rw [hafter, Watch.at]
  | level _ _ _ hafter => rw [hafter, Watch.at]
  | edge _ _ hafter => rw [hafter, clock_callback, Watch.at]

/-! ## Whole runs -/

section Runs

variable {b₀ : Process} {w : Watch} {ts : List (Transition Watch WatchMove)}

/-- The time of the last run, where there has been none what `_last_motion_time` held. -/
def lastRun (b₀ : Process) (ts : List (Transition Watch WatchMove)) : ℚ :=
  ((ts.filter startsRun).getLast?.map clockOf).getD b₀.lastMotionTime

theorem lastRun_snoc (b₀ : Process) (ts : List (Transition Watch WatchMove))
    (t : Transition Watch WatchMove) :
    lastRun b₀ (ts ++ [t]) = if startsRun t then clockOf t else lastRun b₀ ts := by
  cases h : startsRun t <;> simp [lastRun, List.filter_append, h]

theorem lastCompleted_snoc (ts : List (Transition Watch WatchMove))
    (t : Transition Watch WatchMove) :
    lastCompleted (ts ++ [t]) = (completed? t).or (lastCompleted ts) := by
  cases h : completed? t <;> simp [lastCompleted, List.filterMap_append, h]

/-- `_last_state` is the level of the last poll that went through. -/
theorem lastState_run (hrun : watching.Run ⟨.init, b₀⟩ ts w) :
    w.sensor.lastState = (lastCompleted ts).getD false := by
  induction hrun with
  | nil => rfl
  | @snoc ts w w' l _ hnext ih =>
      rw [lastCompleted_snoc]
      cases (moved_of_next hnext).1 with
      | set hsensor _ _ => simp [completed?, hsensor, ih]
      | unread hreading hsensor _ => simp [completed?, hreading, hsensor, ih]
      | level hreading hcalls hlevel _ => simp [completed?, hreading, hcalls, hlevel]
      | @edge p hcalls hlevel _ =>
          obtain ⟨hreading, hlow⟩ : p.reading = some true ∧ w.sensor.lastState = false := by
            simpa [Watch.callsBack] using hcalls
          cases hresult : (p.callback (w.at p.clock)).1 with
          | none => simp [completed?, hcalls, hresult, hlevel, ← ih, hlow]
          | some _ => simp [completed?, hcalls, hresult, hlevel, hreading]

/-- `_last_motion_time` is the time of the last run. -/
theorem lastMotionTime_run (hrun : watching.Run ⟨.init, b₀⟩ ts w) :
    w.process.lastMotionTime = lastRun b₀ ts := by
  induction hrun with
  | nil => rfl
  | @snoc ts w w' l _ hnext ih =>
      have hmoved := (moved_of_next hnext).1
      rw [lastRun_snoc]
      cases l with
      | setMotionSettings detection alerts =>
          cases hmoved with
          | set _ hstamp _ => simpa [startsRun, ← ih] using hstamp
      | poll p =>
          cases hstarts : startsRun ⟨w, .poll p, w'⟩ with
          | true =>
              rw [if_pos rfl, (hmoved.starts hstarts).2]
              exact hmoved.clock.symm
          | false =>
              rw [hmoved.of_not_starts hstarts, ← ih]
              rfl

/-- No run of the history is later than the stamp. -/
theorem clockOf_le_lastRun (hrun : watching.Run ⟨.init, b₀⟩ ts w)
    {t : Transition Watch WatchMove} (ht : t ∈ ts) (hstarts : startsRun t = true) :
    clockOf t ≤ lastRun b₀ ts := by
  induction hrun with
  | nil => cases ht
  | @snoc ts w w' l hprior hnext ih =>
      rw [lastRun_snoc]
      rcases List.mem_append.mp ht with ht | ht
      · have hbefore := ih ht
        split
        case isFalse => exact hbefore
        case isTrue hnew =>
          cases l with
          | setMotionSettings detection alerts => cases hnew
          | poll p =>
              have hmoved := (moved_of_next hnext).1
              have hlate : ¬ p.clock - w.process.lastMotionTime < MOTION_COOLDOWN :=
                (hmoved.starts hnew).1.2
              have hclock : clockOf ⟨w, .poll p, w'⟩ = p.clock := hmoved.clock
              have hpositive : 0 < MOTION_COOLDOWN := by simp [MOTION_COOLDOWN]
              rw [lastMotionTime_run hprior] at hlate
              rw [hclock]
              linarith
      · rw [List.mem_singleton.mp ht] at hstarts ⊢
        rw [if_pos hstarts]

end Runs

structure Untouched (b b' : Process) : Prop where
  stamp : b'.lastMotionTime = b.lastMotionTime
  logs : b'.db.logs = b.db.logs
  alerts : b'.db.alerts = b.db.alerts
  servo : b'.servo = b.servo
  doorLocked : b'.db.doorLocked = b.db.doorLocked

structure RateLimited (ts : List (Transition Watch WatchMove)) : Prop where
  apart : (ts.filter startsRun).Pairwise fun t u => MOTION_COOLDOWN ≤ clockOf u - clockOf t
  edges : ∀ us t, us ++ [t] <+: ts → startsRun t = true →
    (∃ p, t.label = .poll p ∧ p.reading = some true) ∧ lastCompleted us ≠ some true
  suppressed : ∀ t ∈ ts, ∀ p, t.label = .poll p → startsRun t = false →
    Untouched t.before.process t.after.process

theorem apart_run {b₀ : Process} {w : Watch} {ts : List (Transition Watch WatchMove)}
    (hrun : watching.Run ⟨.init, b₀⟩ ts w) :
    (ts.filter startsRun).Pairwise fun t u => MOTION_COOLDOWN ≤ clockOf u - clockOf t := by
  induction hrun with
  | nil => exact List.Pairwise.nil
  | @snoc ts w w' l hprior hnext ih =>
      rw [List.filter_append, List.pairwise_append]
      refine ⟨ih, List.Pairwise.sublist List.filter_sublist (List.pairwise_singleton _ _), ?_⟩
      intro t ht u hu
      obtain ⟨ht, hstarted⟩ := List.mem_filter.mp ht
      obtain ⟨hu, hstarts⟩ := List.mem_filter.mp hu
      obtain rfl := List.mem_singleton.mp hu
      cases l with
      | setMotionSettings detection alerts => cases hstarts
      | poll p =>
          have hmoved := (moved_of_next hnext).1
          have hlate : ¬ p.clock - w.process.lastMotionTime < MOTION_COOLDOWN :=
            (hmoved.starts hstarts).1.2
          have hbefore := clockOf_le_lastRun hprior ht hstarted
          have hclock : clockOf ⟨w, .poll p, w'⟩ = p.clock := hmoved.clock
          rw [lastMotionTime_run hprior] at hlate
          rw [hclock]
          linarith

/-- Over every sequence of polls, exceptions and changes of the settings the runs are a
cooldown apart, each on a rising edge of the polls that went through, and a poll without a
run leaves stamp, log, alerts, servo and door as they are. -/
theorem rateLimited_run {b₀ : Process} {w : Watch} {ts : List (Transition Watch WatchMove)}
    (hrun : watching.Run ⟨.init, b₀⟩ ts w) : RateLimited ts := by
  refine ⟨apart_run hrun, ?_, ?_⟩
  · rintro us t ⟨vs, rfl⟩ hstarts
    obtain ⟨mid, hprior, _⟩ := hrun.split
    obtain ⟨hprior, _, _⟩ := hprior.snoc_inv
    have hlevel := lastState_run hprior
    obtain ⟨before, label, after⟩ := t
    cases label with
    | setMotionSettings detection alerts => cases hstarts
    | poll p =>
        obtain ⟨hreading, hlow⟩ : p.reading = some true ∧ before.sensor.lastState = false := by
          simpa [Watch.callsBack] using ((Bool.and_eq_true _ _).mp hstarts).1
        refine ⟨⟨p, rfl, hreading⟩, fun hhigh => ?_⟩
        have hlevel : before.sensor.lastState = (lastCompleted us).getD false := hlevel
        rw [hlow, hhigh] at hlevel
        cases hlevel
  · intro t ht p hlabel hstarts
    have hnext := hrun.next_of_mem ht
    obtain ⟨before, label, after⟩ := t
    obtain rfl : label = .poll p := hlabel
    have hafter := (moved_of_next hnext).1.of_not_starts hstarts
    have hafter : after.process = before.at p.clock := hafter
    rw [hafter]
    exact ⟨rfl, rfl, rfl, rfl, rfl⟩

def emptyHall : Sight := ⟨fun _ => some .noFace, none, .available fun _ _ => 1⟩

/-- The first callback raises right after its stamp, the second comes too early. -/
def raisingVisit : List WatchMove :=
  [.poll ⟨5, some true, emptyHall, some 2⟩, .poll ⟨6, some true, emptyHall, none⟩,
    .poll ⟨7, none, emptyHall, none⟩, .setMotionSettings none (some false),
    .poll ⟨8, some false, emptyHall, none⟩, .poll ⟨11, some true, emptyHall, none⟩]

theorem rateLimited_raisingVisit :
    ∃ ts w, watching.Run ⟨.init, Process.boot true none 0⟩ ts w ∧
      (ts.filter startsRun).map clockOf = [5, 11] ∧ RateLimited ts := by
  have hend : (watching.trace ⟨.init, Process.boot true none 0⟩ raisingVisit).map (fun (ts, _) =>
      (ts.filter startsRun).map clockOf) = some [5, 11] := by
    decide +kernel
  obtain ⟨ts, w, hrun, hruns⟩ := Machine.exists_run_of_view hend
  exact ⟨ts, w, hrun, hruns, rateLimited_run hrun⟩

end FacialCamera.Motion
