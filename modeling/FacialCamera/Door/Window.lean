import FacialCamera.Core.Machine
import FacialCamera.Door.Operations
import Mathlib.Tactic.Linarith

/-! # The unlock window

Timed runs in which a pending timer fires exactly at its deadline. The law of
the door mentions no timer: it is open for `AUTO_RELOCK_SECS` from the last
order if that order is an unlock. The handlers keep one replaceable timer and
leave it pending after an automatic lock; what relates the two is that no timer
but the current one is ever pending.
-/

namespace FacialCamera.Door

open FacialCamera.Core Backend

inductive Tick where
  | wait (clock : ℚ)
  | perform (o : Operation)
  | fire (i : Nat)

/-- Time does not pass a pending deadline. -/
def timed : Machine Process Tick where
  next b
    | .wait clock =>
        if b.clock ≤ clock ∧ ∀ t ∈ b.relock.started, t.status = .pending → clock ≤ t.deadline then
          some { b with clock }
        else none
    | .perform o => some (o.perform b)
    | .fire i => if b.relock.Due b.clock i then some (b.fire i) else none

structure Fresh (b : Process) : Prop where
  servo : b.servo.locked = true
  flag : b.db.doorLocked = true
  relock : b.relock = ⟨[], none⟩

/-! ## The law -/

def orderOf (t : Transition Process Tick) : Option (Order × ℚ) :=
  match t.label with
  | .perform o => (o.order t.before).map fun order => (order, t.before.clock)
  | _ => none

def lastOrder (ts : List (Transition Process Tick)) : Option (Order × ℚ) :=
  (ts.filterMap orderOf).getLast?

/-- The last order is an unlock whose window contains `clock`. -/
def InWindow (ts : List (Transition Process Tick)) (clock : ℚ) : Prop :=
  ∃ u, lastOrder ts = some (.unlock, u) ∧ u ≤ clock ∧ clock < u + AUTO_RELOCK_SECS

def Settled (b : Process) : Prop := ∀ i, ¬ b.relock.Due b.clock i

theorem lastOrder_snoc (ts : List (Transition Process Tick)) (t : Transition Process Tick) :
    lastOrder (ts ++ [t]) = (orderOf t).or (lastOrder ts) := by
  cases h : orderOf t <;> simp [lastOrder, h]

/-! ## The invariant -/

/-- What the flag and the timers record of the last order. -/
def Records (clock : ℚ) (d : DoorView) : Option (Order × ℚ) → Prop
  | some (.unlock, u) => u ≤ clock ∧
      ((d.flag = false ∧ ∃ i, d.relock.Waiting i (u + AUTO_RELOCK_SECS)) ∨
        (d.flag = true ∧ u + AUTO_RELOCK_SECS ≤ clock))
  | _ => d.flag = true

theorem records_of_not_unlock {clock : ℚ} {d : DoorView} {last : Option (Order × ℚ)}
    (h : ¬ ∃ u, last = some (.unlock, u)) : Records clock d last ↔ d.flag = true := by
  unfold Records
  split
  case h_1 u => exact absurd ⟨u, rfl⟩ h
  case h_2 => rfl

structure Windowed (last : Option (Order × ℚ)) (clock : ℚ) (d : DoorView) : Prop where
  agree : d.servoLocked = d.flag
  single : ∀ i deadline, d.relock.Waiting i deadline → d.relock.current = some i
  ahead : ∀ i deadline, d.relock.Waiting i deadline → clock ≤ deadline
  records : Records clock d last

theorem Fresh.windowed {b : Process} (h : Fresh b) : Windowed none b.clock b.door := by
  have hnone : ∀ i deadline, ¬ b.door.relock.Waiting i deadline := by
    simp [Process.door, h.relock, RelockTimers.Waiting]
  exact ⟨h.servo.trans h.flag.symm, fun i d hw => absurd hw (hnone i d),
    fun i d hw => absurd hw (hnone i d), h.flag⟩

namespace Windowed

variable {last : Option (Order × ℚ)} {clock : ℚ} {d : DoorView}

theorem wait (h : Windowed last clock d) {later : ℚ} (hlater : clock ≤ later)
    (hahead : ∀ i deadline, d.relock.Waiting i deadline → later ≤ deadline) :
    Windowed last later d := by
  refine ⟨h.agree, h.single, hahead, ?_⟩
  have hrecords := h.records
  by_cases hlast : ∃ u, last = some (.unlock, u)
  · obtain ⟨u, rfl⟩ := hlast
    obtain ⟨hu, hstate⟩ := hrecords
    exact ⟨hu.trans hlater, hstate.imp_right fun hover => ⟨hover.1, hover.2.trans hlater⟩⟩
  · rw [records_of_not_unlock hlast] at hrecords ⊢
    exact hrecords

/-- `cancel()` on the current timer leaves none pending. -/
theorem not_waiting_cancelCurrent (h : Windowed last clock d) (i : Nat) (deadline : ℚ) :
    ¬ d.relock.cancelCurrent.Waiting i deadline := by
  rw [RelockTimers.waiting_cancelCurrent]
  rintro ⟨hcurrent, hw⟩
  exact hcurrent (h.single i deadline hw)

theorem opened (h : Windowed last clock d) :
    Windowed (some (.unlock, clock)) clock (d.opened (clock + AUTO_RELOCK_SECS)) := by
  have honly : ∀ i deadline, (d.opened (clock + AUTO_RELOCK_SECS)).relock.Waiting i deadline →
      i = d.relock.cancelCurrent.started.length ∧ deadline = clock + AUTO_RELOCK_SECS := by
    intro i deadline hw
    rcases RelockTimers.waiting_start.mp hw with hnew | hold
    · exact hnew
    · exact absurd hold (h.not_waiting_cancelCurrent i deadline)
  refine ⟨rfl, ?_, ?_, le_rfl, Or.inl ⟨rfl, _, RelockTimers.waiting_start.mpr (Or.inl ⟨rfl, rfl⟩)⟩⟩
  · intro i deadline hw
    rw [(honly i deadline hw).1]
    rfl
  · intro i deadline hw
    have hsecs : (0 : ℚ) ≤ AUTO_RELOCK_SECS := by norm_num [AUTO_RELOCK_SECS]
    rw [(honly i deadline hw).2]
    linarith

theorem closed (h : Windowed last clock d) : Windowed (some (.lock, clock)) clock d.closed :=
  ⟨rfl, fun i deadline hw => absurd hw (h.not_waiting_cancelCurrent i deadline),
    fun i deadline hw => absurd hw (h.not_waiting_cancelCurrent i deadline), rfl⟩

theorem flag_shut (d : DoorView) : d.shut.flag = true := by
  cases hflag : d.flag <;> simp [DoorView.shut, hflag]

theorem relock_shut (d : DoorView) : d.shut.relock = d.relock := by
  cases hflag : d.flag <;> simp [DoorView.shut, hflag]

theorem agree_shut (h : d.servoLocked = d.flag) : d.shut.servoLocked = d.shut.flag := by
  cases hflag : d.flag <;> simp [DoorView.shut, hflag, h]

theorem autoLocked (h : Windowed last clock d) :
    Windowed (some (.autoLock, clock)) clock d.shut := by
  refine ⟨agree_shut h.agree, ?_, ?_, flag_shut d⟩
  · simpa [relock_shut] using h.single
  · simpa [relock_shut] using h.ahead

theorem obey (h : Windowed last clock d) (order : Option Order) :
    Windowed ((order.map fun o => (o, clock)).or last) clock
      (d.obey (clock + AUTO_RELOCK_SECS) order) := by
  cases order with
  | none => exact h
  | some order =>
      cases order with
      | unlock => exact h.opened
      | lock => exact h.closed
      | autoLock => exact h.autoLocked

/-- Only the timer of the last unlock can be due, so it fires when that window is over. -/
theorem fire (h : Windowed last clock d) {i : Nat} {deadline : ℚ}
    (hw : d.relock.Waiting i deadline) (hdue : deadline ≤ clock) :
    Windowed last clock ({ d with relock := d.relock.fire i } : DoorView).shut := by
  refine ⟨agree_shut h.agree, ?_, ?_, ?_⟩
  · intro j e hj
    rw [relock_shut] at hj ⊢
    exact h.single j e (RelockTimers.waiting_fire.mp hj).2
  · intro j e hj
    rw [relock_shut] at hj
    exact h.ahead j e (RelockTimers.waiting_fire.mp hj).2
  · have hrecords := h.records
    by_cases hlast : ∃ u, last = some (.unlock, u)
    swap
    · exact (records_of_not_unlock hlast).mpr (flag_shut _)
    · obtain ⟨u, rfl⟩ := hlast
      obtain ⟨hu, hstate⟩ := hrecords
      refine ⟨hu, Or.inr ⟨flag_shut _, ?_⟩⟩
      rcases hstate with ⟨_, j, hj⟩ | ⟨_, hover⟩
      · have hsame : j = i := by
          have := (h.single j _ hj).symm.trans (h.single i _ hw)
          simpa using this
        subst hsame
        have hdeadline : deadline = u + AUTO_RELOCK_SECS := by
          simpa [RelockTimers.Waiting] using hw.symm.trans hj
        exact hdeadline ▸ hdue
      · exact hover

end Windowed

/-! ## Timed runs -/

theorem windowed_run {b₀ b : Process} {ts : List (Transition Process Tick)} (h₀ : Fresh b₀)
    (hrun : timed.Run b₀ ts b) : Windowed (lastOrder ts) b.clock b.door := by
  induction hrun with
  | nil => exact h₀.windowed
  | @snoc ts b b' tick hprior hnext ih =>
      rw [lastOrder_snoc]
      cases tick with
      | wait clock =>
          simp only [timed, Option.ite_none_right_eq_some, Option.some.injEq] at hnext
          obtain ⟨⟨hclock, hpending⟩, rfl⟩ := hnext
          exact ih.wait hclock fun i deadline hw => hpending _ (List.mem_of_getElem? hw) rfl
      | perform o =>
          cases hnext
          rw [clock_perform, door_perform]
          exact ih.obey (o.order b)
      | fire i =>
          simp only [timed, Option.ite_none_right_eq_some, Option.some.injEq] at hnext
          obtain ⟨⟨deadline, hw, hdue⟩, rfl⟩ := hnext
          rw [clock_fire, door_fire]
          exact ih.fire hw hdue

/-- The door follows its law at every time, and after a lock no timer changes it. -/
structure Lawful (ts : List (Transition Process Tick)) (b : Process) : Prop where
  agree : Agree b
  window : Settled b → (b.db.doorLocked = false ↔ InWindow ts b.clock)
  inert : ∀ i, (¬ ∃ u, lastOrder ts = some (.unlock, u)) →
    (b.fire i).servo.locked = b.servo.locked ∧ (b.fire i).db.doorLocked = b.db.doorLocked

theorem lawful_run {b₀ b : Process} {ts : List (Transition Process Tick)} (h₀ : Fresh b₀)
    (hrun : timed.Run b₀ ts b) : Lawful ts b := by
  have hwindowed := windowed_run h₀ hrun
  have hrecords := hwindowed.records
  refine ⟨hwindowed.agree, ?_, ?_⟩
  · intro hsettled
    constructor
    · intro hopen
      by_cases hlast : ∃ u, lastOrder ts = some (.unlock, u)
      · obtain ⟨u, hlast⟩ := hlast
        rw [hlast] at hrecords
        obtain ⟨hu, ⟨_, i, hw⟩ | ⟨hlocked, _⟩⟩ := hrecords
        · refine ⟨u, hlast, hu, ?_⟩
          by_contra hover
          exact hsettled i ⟨_, hw, not_lt.mp hover⟩
        · simp [Process.door, hopen] at hlocked
      · have hlocked := (records_of_not_unlock hlast).mp hrecords
        simp [Process.door, hopen] at hlocked
    · rintro ⟨u, hlast, hu, hbefore⟩
      rw [hlast] at hrecords
      obtain ⟨_, ⟨hopen, _⟩ | ⟨_, hover⟩⟩ := hrecords
      · exact hopen
      · exact absurd hbefore (not_lt.mpr hover)
  · intro i hlock
    have hflag : b.db.doorLocked = true := (records_of_not_unlock hlock).mp hrecords
    have hdoor := door_fire b i
    have hview : ({ b.door with relock := b.relock.fire i } : DoorView).flag = true := hflag
    rw [DoorView.shut, if_pos hview] at hdoor
    exact ⟨congrArg DoorView.servoLocked hdoor, congrArg DoorView.flag hdoor⟩

theorem fresh_boot : Fresh (Process.boot true none 0) := ⟨rfl, rfl, rfl⟩

/-- Inside the window of an unlock made at time 0. -/
theorem exists_lawful_open_run :
    ∃ ts b, timed.Run (Process.boot true none 0) ts b ∧ b.db.doorLocked = false ∧ b.clock = 5 ∧
      Lawful ts b := by
  have hend : (timed.trace (Process.boot true none 0) [.perform .doorUnlock, .wait 5]).map
      (fun (_, b) => (b.db.doorLocked, b.clock)) = some (false, 5) := by decide +kernel
  obtain ⟨ts, b, hrun, hview⟩ := Machine.exists_run_of_view hend
  obtain ⟨hopen, hclock⟩ := Prod.mk.inj hview
  exact ⟨ts, b, hrun, hopen, hclock, lawful_run fresh_boot hrun⟩

end FacialCamera.Door
