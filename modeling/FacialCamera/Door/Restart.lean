import FacialCamera.Core.Machine
import FacialCamera.Door.Operations

/-! # The door across process lifetimes

The lock flag is a row of the database and outlives the process; the servo flag
and the relock timers are memory. `lifespan` starts no timer and reads no flag,
so what a start leaves unattended is decided by the row it finds.
-/

namespace FacialCamera.Door

open FacialCamera.Core Backend

/-- Between lifetimes only the database file exists, and before the first not even that. -/
inductive System where
  | down (disk : Option Database)
  | up (b : Process)

/-- What `lifespan` does after its `yield`. -/
def shutdown (b : Process) : Process :=
  { b with relock := b.relock.cancelCurrent, servo := b.servo.cleanup }

inductive Event where
  | startup (onPi : Bool) (clock : ℚ)
  | shutdown
  | crash
  | wait (clock : ℚ)
  | perform (o : Operation)
  | fire (i : Nat)

def lifetimes : Machine System Event where
  next
    | .down disk, .startup onPi clock => some (.up (Process.boot onPi disk clock))
    | .up b, .shutdown => some (.down (some (shutdown b).db))
    | .up b, .crash => some (.down (some b.db))
    | .up b, .wait clock => if b.clock ≤ clock then some (.up { b with clock }) else none
    | .up b, .perform o => some (.up (o.perform b))
    | .up b, .fire i => if b.relock.Due b.clock i then some (.up (b.fire i)) else none
    | _, _ => none

/-- While the system is up an open door has a pending timer whose firing locks it. -/
def Attended : System → Prop
  | .down _ => True
  | .up b => b.db.doorLocked = false →
      ∃ i, b.relock.Pending i ∧ (b.fire i).servo.locked = true ∧ (b.fire i).db.doorLocked = true

def StartsLocked (t : Transition System Event) : Prop :=
  match t.before, t.label with
  | .down (some db), .startup _ _ => db.doorLocked = true
  | _, _ => True

theorem attended_up {b : Process} :
    Attended (.up b) ↔ (b.db.doorLocked = false → ∃ i, b.relock.Pending i) := by
  constructor
  · intro h hopen
    obtain ⟨i, hpending, _⟩ := h hopen
    exact ⟨i, hpending⟩
  · intro h hopen
    obtain ⟨i, hpending⟩ := h hopen
    exact ⟨i, hpending, servo_fire i hopen, flag_fire b i⟩

theorem pending_obey (d : DoorView) (deadline : ℚ) (order : Option Order)
    (h : d.flag = false → ∃ i, d.relock.Pending i)
    (hopen : (d.obey deadline order).flag = false) :
    ∃ i, (d.obey deadline order).relock.Pending i := by
  cases order with
  | none => exact h hopen
  | some order =>
      cases order with
      | unlock => exact ⟨_, RelockTimers.pending_start.mpr (Or.inl rfl)⟩
      | lock => cases hopen
      | autoLock =>
          have hflag : d.flag = true ∨ d.flag = false := by cases d.flag <;> simp
          rcases hflag with hflag | hflag <;> simp [DoorView.obey, DoorView.shut, hflag] at hopen

theorem attended_perform {b : Process} (h : Attended (.up b)) (o : Operation) :
    Attended (.up (o.perform b)) := by
  have hkeep := pending_obey b.door (b.clock + AUTO_RELOCK_SECS) (o.order b) (attended_up.mp h)
  rw [← door_perform] at hkeep
  exact attended_up.mpr hkeep

theorem attended_boot {onPi : Bool} {disk : Option Database} {clock : ℚ} :
    Attended (.up (Process.boot onPi disk clock)) ↔
      ∀ db, disk = some db → db.doorLocked = true := by
  have hnone : ¬ ∃ i, (Process.boot onPi disk clock).relock.Pending i := by
    simp [Process.boot, RelockTimers.Pending, RelockTimers.Waiting]
  simp only [attended_up, hnone, imp_false, Bool.not_eq_false]
  cases disk with
  | none => simp [Process.boot, Database.initDb, Database.fresh]
  | some db => simp [Process.boot, Database.initDb]

theorem attended_step_iff {s s' : System} {e : Event} (h : Attended s)
    (hnext : lifetimes.next s e = some s') : Attended s' ↔ StartsLocked ⟨s, e, s'⟩ := by
  cases s with
  | down disk =>
      cases e with
      | startup onPi clock =>
          cases hnext
          rw [attended_boot]
          cases disk <;> simp [StartsLocked]
      | _ => cases hnext
  | up b =>
      suffices Attended s' by simpa [StartsLocked] using this
      cases e with
      | startup onPi clock => cases hnext
      | shutdown =>
          cases hnext
          trivial
      | crash =>
          cases hnext
          trivial
      | wait clock =>
          simp only [lifetimes, Option.ite_none_right_eq_some, Option.some.injEq] at hnext
          obtain ⟨_, rfl⟩ := hnext
          have hkeep := attended_up.mp h
          exact attended_up.mpr hkeep
      | perform o =>
          cases hnext
          exact attended_perform h o
      | fire i =>
          simp only [lifetimes, Option.ite_none_right_eq_some, Option.some.injEq] at hnext
          obtain ⟨_, rfl⟩ := hnext
          exact attended_up.mpr fun hopen => by simp [flag_fire] at hopen

/-- The door is attended in every state of a run exactly if every start finds it locked. -/
theorem attended_iff_startsLocked {disk : Option Database} {s : System}
    {ts : List (Transition System Event)} (hrun : lifetimes.Run (.down disk) ts s) :
    Machine.Throughout (fun _ s => Attended s) (.down disk) ts ↔
      Machine.EachStep (fun _ t => StartsLocked t) ts :=
  hrun.throughout_iff trivial fun _ _ _ _ _ h hnext => attended_step_iff h hnext

/-! ## A crash inside the unlock window -/

def unlockThenCrash : List Event :=
  [.startup true 0, .perform .doorUnlock, .crash, .startup true 5]

theorem exists_run_of_unlockThenCrash :
    ∃ ts s, lifetimes.Run (.down none) ts s ∧ ¬ Attended s := by
  obtain ⟨ts, s, htrace⟩ : ∃ ts s, lifetimes.trace (.down none) unlockThenCrash = some (ts, s) :=
    ⟨_, _, rfl⟩
  refine ⟨ts, s, Machine.run_of_trace htrace, ?_⟩
  cases htrace
  exact fun h => absurd (attended_boot.mp h _ rfl) (by decide)

theorem not_always_attended :
    ¬ ∀ (ts : List (Transition System Event)) (s : System),
      lifetimes.Run (.down none) ts s → Attended s := by
  intro halways
  obtain ⟨ts, s, hrun, hopen⟩ := exists_run_of_unlockThenCrash
  exact hopen (halways ts s hrun)

/-- The second start of that run is the one that finds the door open. -/
theorem exists_run_not_startsLocked :
    ∃ ts s, lifetimes.Run (.down none) ts s ∧
      ¬ Machine.EachStep (fun _ t => StartsLocked t) ts := by
  obtain ⟨ts, s, hrun, hopen⟩ := exists_run_of_unlockThenCrash
  refine ⟨ts, s, hrun, fun hstarts => hopen ?_⟩
  exact hrun.throughout_end ((attended_iff_startsLocked hrun).mpr hstarts)

end FacialCamera.Door
