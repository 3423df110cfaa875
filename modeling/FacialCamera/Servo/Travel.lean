import FacialCamera.Door.Agreement
import FacialCamera.Recognition.Live
import FacialCamera.Servo.Spin
import Mathlib.Algebra.BigOperators.Group.List.Basic
import Mathlib.Algebra.BigOperators.Ring.List
import Mathlib.Tactic.Ring

/-! # How far the motor has turned

The servo is continuous and has no end stop, so its position is the sum of all it
was ever driven. Relocking and the automatic lock look at the flag before they
command it; the manual commands and the unlock of a recognition do not, and a
command that repeats the one before it turns the motor once more the same way.
-/

namespace FacialCamera.Servo

open FacialCamera.Core Backend
open Door (Agree Operation Order Verdict verdict motionRuns)
open Recognition (Event Pipeline live)

inductive Beat where
  | event (e : Event)
  | thread (i : Nat)

def moving : Machine Process Beat where
  next b
    | .event e => live.next b e
    | .thread i => (b.servo.turn i).map fun servo => { b with servo }

def hasEnded : Phase → Bool
  | .ended _ => true
  | _ => false

def Idle (s : ServoController) : Prop := ∀ t ∈ s.spins, hasEnded t.phase = true

instance (s : ServoController) : Decidable (Idle s) :=
  inferInstanceAs (Decidable (∀ t ∈ s.spins, _))

/-- Each spin ends before the next command. -/
def Spaced (t : Transition Process Beat) : Prop :=
  t.after.servo.spins.length ≠ t.before.servo.spins.length → Idle t.before.servo

instance (t : Transition Process Beat) : Decidable (Spaced t) :=
  inferInstanceAs (Decidable (_ → _))

/-! ## Travel -/

/-- Towards the open door is positive. -/
def direction (duty : ℚ) : ℤ :=
  if duty = SERVO_UNLOCKED_DUTY then 1 else if duty = SERVO_LOCKED_DUTY then -1 else 0

def drives : Phase → ℤ
  | .driving _ => 1
  | _ => 0

/-- The tick that thread `i` drives. -/
def tickOf (s : ServoController) (i : Nat) : ℤ :=
  match s.spins[i]? with
  | some t => direction t.duty * drives t.phase
  | none => 0

def tick (t : Transition Process Beat) : ℤ :=
  match t.label with
  | .event _ => 0
  | .thread i => tickOf t.after.servo i

/-- The ticks driven to unlock less the ticks driven to lock. -/
def travel (ts : List (Transition Process Beat)) : ℤ := (ts.map tick).sum

/-- Whenever the motor rests it is where the lock state says. -/
def Tracks (ts : List (Transition Process Beat)) (b : Process) : Prop :=
  Idle b.servo → travel ts = if b.servo.locked then 0 else SPIN_TICKS

/-! ## Orders -/

def eventOrder (b : Process) : Event → Option Order
  | .request .doorLock _ => Operation.doorLock.order b
  | .request .doorUnlock _ => Operation.doorUnlock.order b
  | .request .doorbell seen => (Operation.runDoorbellScan seen.sight).order b
  | .motion sight => (Operation.onMotionDetected sight).order b
  | .fire _ => some .autoLock
  | _ => none

/-- A manual lock of a locked door, or a manual unlock or an authorized recognition at an
open one. -/
def Repeats (b : Process) (e : Event) : Prop :=
  (eventOrder b e = some .lock ∧ b.servo.locked = true) ∨
    (eventOrder b e = some .unlock ∧ b.servo.locked = false)

instance (b : Process) (e : Event) : Decidable (Repeats b e) :=
  inferInstanceAs (Decidable (_ ∨ _))

def Alternates (t : Transition Process Beat) : Prop :=
  match t.label with
  | .event e => ¬ Repeats t.before e
  | .thread _ => True

instance (t : Transition Process Beat) : Decidable (Alternates t) := by
  unfold Alternates
  split <;> infer_instance

/-- The servo after an order: an automatic lock commands it only where the flag is open. -/
def obeyed (s : ServoController) (flag : Bool) : Option Order → ServoController
  | some .unlock => s.unlock
  | some .lock => s.lock
  | some .autoLock => if flag then s else s.lock
  | none => s

structure Obeys (order : Option Order) (b b' : Process) : Prop where
  servo : b'.servo = obeyed b.servo b.db.doorLocked order
  agree : Agree b → Agree b'

theorem obeys_conclude (p : Pipeline) (snapshot : Option Base64) (b : Process) (v : Verdict) :
    Obeys (v.order (b.flags .autoLockOnUnknown)) b (p.conclude snapshot b v) := by
  cases v with
  | raises => exact ⟨rfl, id⟩
  | noFace =>
      simp only [Pipeline.conclude]
      split <;> exact ⟨rfl, id⟩
  | authorized name confidence => exact ⟨rfl, fun _ => rfl⟩
  | unknown confidence =>
      have hreported : (p.reported b confidence snapshot).doorLocked = b.db.doorLocked := by
        unfold Pipeline.reported
        dsimp only
        split <;> rfl
      cases hauto : b.flags .autoLockOnUnknown with
      | false =>
          simp only [Pipeline.conclude, Pipeline.refuse, hauto]
          exact ⟨rfl, fun h => h.trans hreported.symm⟩
      | true =>
          cases hflag : b.db.doorLocked with
          | true =>
              simp only [Pipeline.conclude, Pipeline.refuse, hauto, hflag]
              exact ⟨by simp [Verdict.order, obeyed, hflag], fun h => h.trans hreported.symm⟩
          | false =>
              simp only [Pipeline.conclude, Pipeline.refuse, hauto, hflag]
              exact ⟨by simp [Verdict.order, obeyed, hflag], fun _ => rfl⟩

theorem obeys_perform {p : Pipeline} {b : Process} (sight : Sight) (hruns : p.Runs b) :
    Obeys ((verdict b sight).order (b.flags .autoLockOnUnknown)) b (p.perform sight b) := by
  rw [Recognition.perform_eq sight hruns]
  have hobeys := obeys_conclude p (captureSnapshot sight.jpeg) (p.triggered b) (verdict b sight)
  cases p <;> exact ⟨hobeys.servo, hobeys.agree⟩

/-- A call apart from the door leaves servo and flag alone. -/
theorem exec_apart {c : Call} {b b' : Process} {r : Answer c}
    (hc : Recognition.apart c = true) (h : exec c b = some (r, b')) :
    (b'.servo, b'.db.doorLocked) = (b.servo, b.db.doorLocked) := by
  rw [(Door.exec_frame h).servo, Door.exec_flag h]
  cases c <;> first | rfl | cases hc

theorem obeys_none {b b' : Process}
    (h : (b'.servo, b'.db.doorLocked) = (b.servo, b.db.doorLocked)) : Obeys none b b' := by
  obtain ⟨hservo, hflag⟩ := Prod.mk.inj h
  refine ⟨hservo, fun hagree => ?_⟩
  rw [Agree, hservo, hflag]
  exact hagree

theorem obeys_request (a : ApiRequest) (seen : Surroundings) (b : Process) :
    Obeys (eventOrder b (.request a seen)) b ((a.handler seen).forget.run exec b).2 := by
  cases a with
  | doorLock => exact ⟨rfl, fun _ => rfl⟩
  | doorUnlock => exact ⟨rfl, fun _ => rfl⟩
  | doorbell =>
      rw [Recognition.perform_of_doorbell]
      exact obeys_perform (p := .doorbell) seen.sight trivial
  | _ =>
      refine obeys_none ?_
      cases Recognition.kind_request seen _ with
      | enrollment r hr =>
          rw [hr, Enrollment.perform_eq]
          exact congrArg _ (Enrollment.doorLocked_apply b.clock (Enrollment.deed_valid b.db r))
      | apart hcalls =>
          exact hcalls.run_frame (fun b => (b.servo, b.db.doorLocked))
            (fun _ _ _ _ hc h => exec_apart hc h) b

/-- The relock callback locks an open door. -/
theorem obeys_doRelock (b : Process) : Obeys (some .autoLock) b (doRelock.run exec b).2 := by
  cases hflag : b.db.doorLocked with
  | true =>
      have hsame : (doRelock.run exec b).2 = b := by
        simp [doRelock, Program.run_call, exec, Database.getDoorLocked, hflag]
      rw [hsame]
      exact ⟨by simp [obeyed, hflag], id⟩
  | false =>
      have hshut : (doRelock.run exec b).2 =
          { b with servo := b.servo.lock, db := b.db.setDoorLocked true } := by
        simp [doRelock, Program.run_call, exec, Database.getDoorLocked, hflag]
      rw [hshut]
      exact ⟨by simp [obeyed, hflag], fun _ => rfl⟩

/-- Every event does to the servo what its order says, and keeps servo and flag agreed. -/
theorem obeys_event {b b' : Process} {e : Event} (hnext : live.next b e = some b') :
    Obeys (eventOrder b e) b b' := by
  cases Recognition.happens_of_next hnext with
  | wait _ => exact ⟨rfl, id⟩
  | request a seen => exact obeys_request a seen b
  | motion sight =>
      by_cases hruns : motionRuns b
      · rw [eventOrder, Operation.order, if_pos hruns]
        exact obeys_perform (p := .motion) sight hruns
      · rw [eventOrder, Operation.order, if_neg hruns,
          Recognition.perform_motion_of_not_runs b sight hruns]
        exact ⟨rfl, id⟩
  | @fire i _ =>
      have hobeys := obeys_doRelock { b with relock := b.relock.fire i }
      exact ⟨hobeys.servo, hobeys.agree⟩

inductive Moves (b : Process) : Beat → Process → Prop where
  | event {e : Event} {b' : Process} : live.next b e = some b' → Moves b (.event e) b'
  | thread {i : Nat} {servo : ServoController} : Turned b.servo i servo →
      Moves b (.thread i) { b with servo }

theorem moves_of_next {b b' : Process} {beat : Beat} (hnext : moving.next b beat = some b') :
    Moves b beat b' := by
  cases beat with
  | event e => exact .event hnext
  | thread i =>
      obtain ⟨servo, hturn, rfl⟩ := Option.map_eq_some_iff.mp hnext
      exact .thread (turned_of_turn hturn)

/-! ## The distance the threads count -/

def driven : Phase → Nat
  | .looping ticks => ticks
  | .driving ticks => ticks + 1
  | .stopping ticks => ticks
  | .ended ticks => ticks
  | _ => 0

def spun (s : ServoController) : ℤ := (s.spins.map fun t => direction t.duty * driven t.phase).sum

/-- The commands to unlock less the commands to lock. -/
def net (s : ServoController) : ℤ := (s.spins.map fun t => direction t.duty).sum

theorem sum_map_modify {α : Type} (f : α → ℤ) (g : α → α) {l : List α} {i : Nat} {a : α}
    (h : l[i]? = some a) : ((l.modify i g).map f).sum = (l.map f).sum + (f (g a) - f a) := by
  induction l generalizing i with
  | nil => simp at h
  | cons x l ih =>
      cases i with
      | zero =>
          obtain rfl : x = a := by simpa using h
          simp only [List.modify_zero_cons, List.map_cons, List.sum_cons]
          omega
      | succ i =>
          have hrest := ih (i := i) (by simpa using h)
          simp only [List.modify_succ_cons, List.map_cons, List.sum_cons, hrest]
          omega

/-- Only an active thread takes a step; it moves its own program counter and counts the tick
it drives. -/
theorem Turned.moves {s s' : ServoController} {i : Nat} (h : Turned s i s') :
    ∃ q p, s.phase i = some q ∧ hasEnded q = false ∧
      s'.spins = s.spins.modify i (fun t => { t with phase := p }) ∧
      (driven p : ℤ) = driven q + drives p := by
  cases h with
  | exit hphase _ => exact ⟨_, _, hphase, rfl, rfl, rfl⟩
  | acquire hphase _ => exact ⟨_, _, hphase, rfl, rfl, rfl⟩
  | clear hphase => exact ⟨_, _, hphase, rfl, rfl, rfl⟩
  | drive hphase _ _ => exact ⟨_, _, hphase, rfl, rfl, by simp [driven, drives]⟩
  | leave hphase _ => exact ⟨_, _, hphase, rfl, rfl, by simp [driven, drives]⟩
  | tick hphase => exact ⟨_, _, hphase, rfl, rfl, by simp [driven, drives]⟩
  | release hphase => exact ⟨_, _, hphase, rfl, rfl, by simp [driven, drives]⟩

theorem spun_turned {s s' : ServoController} {i : Nat} (h : Turned s i s') :
    spun s' = spun s + tickOf s' i := by
  obtain ⟨q, p, hphase, _, hspins, hticks⟩ := h.moves
  obtain ⟨⟨duty, _⟩, hspin, rfl⟩ := Option.map_eq_some_iff.mp hphase
  have hafter : s'.spins[i]? = some ⟨duty, p⟩ := by simp [hspins, hspin]
  have hsum := sum_map_modify (fun t : Spin => direction t.duty * driven t.phase)
    (fun t => { t with phase := p }) hspin
  rw [tickOf, hafter, spun, hspins, hsum, spun]
  simp only [hticks]
  ring

theorem net_turned {s s' : ServoController} {i : Nat} (h : Turned s i s') : net s' = net s := by
  obtain ⟨q, p, hphase, _, hspins, _⟩ := h.moves
  obtain ⟨t, hspin, _⟩ := Option.map_eq_some_iff.mp hphase
  rw [net, hspins, sum_map_modify _ _ hspin, sub_self, add_zero, net]

theorem locked_turned {s s' : ServoController} {i : Nat} (h : Turned s i s') :
    s'.locked = s.locked := by
  cases h <;> rfl

/-- An order is obeyed by one command or by none. -/
theorem obeyed_cases (s : ServoController) (flag : Bool) (order : Option Order) :
    obeyed s flag order = s ∨
      ∃ locked duty, obeyed s flag order = ({ s with locked } : ServoController).spin duty := by
  cases order with
  | none => exact Or.inl rfl
  | some order =>
      cases order with
      | unlock => exact Or.inr ⟨false, SERVO_UNLOCKED_DUTY, rfl⟩
      | lock => exact Or.inr ⟨true, SERVO_LOCKED_DUTY, rfl⟩
      | autoLock =>
          cases flag
          · exact Or.inr ⟨true, SERVO_LOCKED_DUTY, rfl⟩
          · exact Or.inl rfl

/-- A new spin has driven nothing. -/
theorem spun_obeyed (s : ServoController) (flag : Bool) (order : Option Order) :
    spun (obeyed s flag order) = spun s := by
  rcases obeyed_cases s flag order with hsame | ⟨locked, duty, hspin⟩
  · rw [hsame]
  · simp [hspin, spun, ServoController.spin, driven]

/-- The ticks driven are the ticks counted, under every schedule. -/
theorem travel_run {b₀ b : Process} {ts : List (Transition Process Beat)}
    (hrun : moving.Run b₀ ts b) : travel ts + spun b₀.servo = spun b.servo := by
  induction hrun with
  | nil => simp [travel]
  | @snoc ts b b' beat _ hnext ih =>
      have hsnoc : travel (ts ++ [⟨b, beat, b'⟩]) = travel ts + tick ⟨b, beat, b'⟩ := by
        simp [travel]
      rw [hsnoc]
      cases moves_of_next hnext with
      | event hevent =>
          rw [(obeys_event hevent).servo, spun_obeyed]
          simpa [tick] using ih
      | thread hturn =>
          have hspun := spun_turned hturn
          simp only [tick]
          omega

/-! ## Spaced commands -/

/-- Every spin but the newest has run its full time, and the newest is not overtaken. -/
structure Orderly (s : ServoController) : Prop where
  pwm : s.pwm = true
  mutex : Mutex s
  ahead : ∃ log, Ahead log s
  older : ∀ i, i + 1 < s.spins.length → s.phase i = some (.ended SPIN_TICKS)

theorem orderly_init : Orderly (ServoController.init true) := by
  refine ⟨rfl, mutex_init true, ⟨[], Ahead.of_waits fun n hn => ?_⟩, fun i hi => ?_⟩
  · simp [Newest, ServoController.init] at hn
  · simp [ServoController.init] at hi

namespace Orderly

variable {s s' : ServoController}

theorem turned {i : Nat} (h : Orderly s) (hturn : Turned s i s') : Orderly s' := by
  have hnewest : Newest s i := by
    obtain ⟨q, _, hphase, hactive, _⟩ := hturn.moves
    have hlt : i < s.spins.length := by
      by_contra hge
      rw [(s.phase_eq_none_iff i).mpr (not_lt.mp hge)] at hphase
      cases hphase
    by_contra hold
    have hended := h.older i (by unfold Newest at hold; omega)
    obtain rfl : q = .ended SPIN_TICKS := Option.some.inj (hphase.symm.trans hended)
    cases hactive
  obtain ⟨log, hahead⟩ := h.ahead
  refine ⟨?_, h.mutex.turned hturn, ⟨_, hahead.turned_newest h.mutex h.pwm hturn hnewest⟩, ?_⟩
  · have hpwm := h.pwm
    cases hturn <;> exact hpwm
  · intro j hj
    rw [hturn.length] at hj
    rw [hturn.phase_of_ne (by unfold Newest at hnewest; omega)]
    exact h.older j hj

/-- Once no spin is active all of them have run their full time. -/
theorem full (h : Orderly s) (hidle : Idle s) :
    ∀ t ∈ s.spins, t.phase = .ended SPIN_TICKS := by
  intro t ht
  obtain ⟨i, hi, hspin⟩ := List.getElem_of_mem ht
  have hphase : s.phase i = some t.phase := by simp [ServoController.phase, hi, hspin]
  by_cases hold : i + 1 < s.spins.length
  · exact Option.some.inj (hphase.symm.trans (h.older i hold))
  · have hnewest : Newest s i := by unfold Newest; omega
    obtain ⟨log, hahead⟩ := h.ahead
    have hover := hidle t ht
    cases hended : t.phase with
    | ended ticks =>
        rw [hended] at hphase
        have hrecord : Record log s.cancel i (.ended ticks) := hahead.record i _ hnewest hphase
        rw [hrecord.1]
    | _ => simp [hended, hasEnded] at hover

theorem spin (h : Orderly s) (hidle : Idle s) (locked : Bool) (duty : ℚ) :
    Orderly (({ s with locked } : ServoController).spin duty) := by
  have hmutex : Mutex { s with locked } := ⟨h.mutex.held, h.mutex.single⟩
  refine ⟨h.pwm, hmutex.spin duty, ⟨[], Ahead.spin [] _ duty⟩, fun i hi => ?_⟩
  have hlt : i < s.spins.length := by simpa [ServoController.spin] using hi
  have hended : s.phase i = some (.ended SPIN_TICKS) := by
    simp [ServoController.phase, hlt, h.full hidle _ (List.getElem_mem hlt)]
  exact phase_spin_of_some (s := { s with locked }) hended duty

theorem obey {flag : Bool} {order : Option Order} (h : Orderly s)
    (hspaced : (obeyed s flag order).spins.length ≠ s.spins.length → Idle s) :
    Orderly (obeyed s flag order) := by
  rcases obeyed_cases s flag order with hsame | ⟨locked, duty, hspin⟩
  · rw [hsame]
    exact h
  · rw [hspin] at hspaced ⊢
    exact h.spin (hspaced (by simp [ServoController.spin])) locked duty

/-- At rest the motor is as far as the commands say. -/
theorem spun_eq (h : Orderly s) (hidle : Idle s) : spun s = net s * SPIN_TICKS := by
  have hterms : s.spins.map (fun t => direction t.duty * (driven t.phase : ℤ)) =
      s.spins.map fun t => direction t.duty * (SPIN_TICKS : ℤ) := by
    refine List.map_congr_left fun t ht => ?_
    rw [h.full hidle t ht, driven]
  rw [spun, hterms, List.sum_map_mul_right, net]

end Orderly

/-- Spaced commands keep the spins in order. -/
theorem orderly_run {b₀ b : Process} {ts : List (Transition Process Beat)} (h₀ : Orderly b₀.servo)
    (hrun : moving.Run b₀ ts b) (hspaced : ∀ t ∈ ts, Spaced t) : Orderly b.servo := by
  refine hrun.invariant_where (I := fun b => Orderly b.servo) h₀ (fun b beat b' h hc hnext => ?_)
    hspaced
  cases moves_of_next hnext with
  | event hevent =>
      have hservo := (obeys_event hevent).servo
      simp only [Spaced, hservo] at hc
      rw [hservo]
      exact h.obey hc
  | thread hturn => exact h.turned hturn

/-! ## The motor in its place -/

/-- One command to unlock is ahead exactly if the door is open. -/
def InPlace (s : ServoController) : Prop := net s = if s.locked then 0 else 1

theorem net_lock (s : ServoController) : net s.lock = net s - 1 := by
  have hdirection : direction SERVO_LOCKED_DUTY = -1 := by decide
  simp [net, ServoController.lock, ServoController.spin, hdirection]
  omega

theorem net_unlock (s : ServoController) : net s.unlock = net s + 1 := by
  have hdirection : direction SERVO_UNLOCKED_DUTY = 1 := by decide
  simp [net, ServoController.unlock, ServoController.spin, hdirection]

/-- A command keeps the motor in its place exactly if it repeats none. -/
theorem inPlace_event_iff {b b' : Process} {e : Event} (hagree : Agree b) (h : InPlace b.servo)
    (hnext : live.next b e = some b') : InPlace b'.servo ↔ ¬ Repeats b e := by
  have hflag : b.db.doorLocked = b.servo.locked := hagree.symm
  rw [InPlace, (obeys_event hnext).servo, Repeats, hflag]
  unfold InPlace at h
  cases horder : eventOrder b e with
  | none => exact iff_of_true h (by simp)
  | some order =>
      cases order <;> cases hlocked : b.servo.locked <;>
        simp only [hlocked] at h <;> simp [obeyed, net_lock, net_unlock, h, hlocked]

theorem inPlace_turned {s s' : ServoController} {i : Nat} (h : Turned s i s') :
    InPlace s' ↔ InPlace s := by
  rw [InPlace, net_turned h, locked_turned h, InPlace]

theorem agree_run {b₀ b : Process} {ts : List (Transition Process Beat)} (h₀ : Agree b₀)
    (hrun : moving.Run b₀ ts b) : Agree b := by
  refine hrun.invariant h₀ fun b beat b' h hnext => ?_
  cases moves_of_next hnext with
  | event hevent => exact (obeys_event hevent).agree h
  | thread hturn => exact (locked_turned hturn).trans h

/-- The motor is always in its place exactly if no command repeats the one before it. -/
theorem inPlace_iff_alternates {b₀ b : Process} {ts : List (Transition Process Beat)}
    (hagree : Agree b₀) (h₀ : InPlace b₀.servo) (hrun : moving.Run b₀ ts b) :
    Machine.Throughout (fun _ b => InPlace b.servo) b₀ ts ↔
      Machine.EachStep (fun _ t => Alternates t) ts := by
  refine hrun.throughout_iff h₀ fun us b beat b' hprior h hnext => ?_
  cases moves_of_next hnext with
  | event hevent => exact inPlace_event_iff (agree_run hagree hprior) h hevent
  | thread hturn => exact iff_of_true ((inPlace_turned hturn).mpr h) trivial

/-! ## Whole runs -/

structure Unmoved (b : Process) : Prop where
  servo : b.servo = ServoController.init true
  flag : b.db.doorLocked = true

theorem Unmoved.agree {b : Process} (h : Unmoved b) : Agree b := by
  rw [Agree, h.servo, h.flag]
  rfl

theorem Unmoved.inPlace {b : Process} (h : Unmoved b) : InPlace b.servo := by
  rw [h.servo]
  rfl

/-- At rest the travel is the lock state's exactly if the motor is in its place. -/
theorem tracks_iff_inPlace {b₀ b : Process} {ts : List (Transition Process Beat)}
    (h₀ : Unmoved b₀) (hrun : moving.Run b₀ ts b) (hspaced : ∀ t ∈ ts, Spaced t) :
    Tracks ts b ↔ (Idle b.servo → InPlace b.servo) := by
  refine imp_congr_right fun hidle => ?_
  have horderly : Orderly b.servo := orderly_run (h₀.servo ▸ orderly_init) hrun hspaced
  have htravel : travel ts = net b.servo * SPIN_TICKS := by
    have hstart : spun b₀.servo = 0 := by
      rw [h₀.servo]
      rfl
    have hcounted := travel_run hrun
    rw [horderly.spun_eq hidle, hstart] at hcounted
    omega
  rw [htravel, InPlace]
  cases b.servo.locked <;> simp [SPIN_TICKS]

/-- Between two commands the motor's place stays the same, and each command meets the motor
at rest. -/
theorem inPlace_throughout {b₀ b : Process} {ts : List (Transition Process Beat)}
    (hrun : moving.Run b₀ ts b) (hspaced : ∀ t ∈ ts, Spaced t)
    (hrest : Machine.Throughout (fun _ b => Idle b.servo → InPlace b.servo) b₀ ts)
    (hlast : InPlace b.servo) : Machine.Throughout (fun _ b => InPlace b.servo) b₀ ts := by
  induction hrun with
  | nil =>
      intro us hus
      obtain rfl : us = [] := by simpa using hus
      exact hlast
  | @snoc ts b b' beat hprior hnext ih =>
      have hbefore : Idle b.servo → InPlace b.servo := by
        simpa [hprior.endState_eq] using hrest ts (List.prefix_append _ _)
      have hplace : InPlace b.servo := by
        cases moves_of_next hnext with
        | thread hturn => exact (inPlace_turned hturn).mp hlast
        | @event e _ hevent =>
            have hservo := (obeys_event hevent).servo
            rcases obeyed_cases b.servo b.db.doorLocked (eventOrder b e) with
              hsame | ⟨locked, duty, hspin⟩
            · rw [hservo, hsame] at hlast
              exact hlast
            · refine hbefore (hspaced ⟨b, .event e, b'⟩ (by simp) ?_)
              simp [hservo, hspin, ServoController.spin]
      intro us hus
      rcases List.prefix_concat_iff.mp hus with rfl | hus
      · simpa using hlast
      · have hspaced' : ∀ t ∈ ts, Spaced t := fun t ht => hspaced t (List.mem_append_left _ ht)
        refine ih hspaced' (fun vs hvs => ?_) hplace us hus
        exact hrest vs (hvs.trans (List.prefix_append _ _))

/-- The position follows the lock state through every run without a repeated command, and
of the runs that end at rest through no other. -/
theorem tracks_iff_alternates {b₀ b : Process} {ts : List (Transition Process Beat)}
    (h₀ : Unmoved b₀) (hrun : moving.Run b₀ ts b) (hspaced : ∀ t ∈ ts, Spaced t) :
    (Machine.EachStep (fun _ t => Alternates t) ts → Machine.Throughout Tracks b₀ ts) ∧
      (Idle b.servo → Machine.Throughout Tracks b₀ ts →
        Machine.EachStep (fun _ t => Alternates t) ts) := by
  have hiff := inPlace_iff_alternates h₀.agree h₀.inPlace hrun
  have htracks : ∀ us, us <+: ts → (Tracks us (Machine.endState b₀ us) ↔
      (Idle (Machine.endState b₀ us).servo → InPlace (Machine.endState b₀ us).servo)) := by
    rintro us ⟨vs, rfl⟩
    obtain ⟨mid, hprior, _⟩ := hrun.split
    rw [hprior.endState_eq]
    exact tracks_iff_inPlace h₀ hprior fun t ht => hspaced t (List.mem_append_left _ ht)
  constructor
  · intro halternates us hus
    exact (htracks us hus).mpr fun _ => hiff.mpr halternates us hus
  · intro hidle htracked
    have hrest : Machine.Throughout (fun _ b => Idle b.servo → InPlace b.servo) b₀ ts :=
      fun us hus => (htracks us hus).mp (htracked us hus)
    exact hiff.mp (inPlace_throughout hrun hspaced hrest (hrun.throughout_end hrest hidle))

/-! ## Two commands in a row -/

def dark : Surroundings where
  sight := { frames := fun _ => none, jpeg := none, library := .available fun _ _ => 0 }
  encode := fun _ => .noFace
  sensor := .ok []

/-- Two requests, each with the full spin that follows it. -/
def twoSpins (first second : ApiRequest) : List Beat :=
  .event (.request first dark) :: List.replicate 24 (.thread 0) ++
    .event (.request second dark) :: List.replicate 24 (.thread 1)

theorem unmoved_boot : Unmoved (Process.boot true none 0) := ⟨rfl, rfl⟩

theorem tracks_unlockAndLock :
    ∃ ts b, moving.Run (Process.boot true none 0) ts b ∧ (ts.map tick).countP (· ≠ 0) = 20 ∧
      Machine.Throughout Tracks (Process.boot true none 0) ts := by
  have hend : (moving.trace (Process.boot true none 0) (twoSpins .doorUnlock .doorLock)).map
      (fun (ts, _) => ((ts.map tick).countP (· ≠ 0), decide (∀ t ∈ ts, Spaced t),
        decide (Machine.EachStep (fun _ t => Alternates t) ts))) = some (20, true, true) := by
    decide +kernel
  obtain ⟨ts, b, hrun, hview⟩ := Machine.exists_run_of_view hend
  simp only [Prod.mk.injEq, decide_eq_true_eq] at hview
  obtain ⟨hticks, hspaced, halternates⟩ := hview
  exact ⟨ts, b, hrun, hticks, (tracks_iff_alternates unmoved_boot hrun hspaced).1 halternates⟩

/-- Two unlocks drive the motor two full spins from the locked position. -/
theorem not_always_tracks :
    ¬ ∀ (ts : List (Transition Process Beat)) (b : Process),
      moving.Run (Process.boot true none 0) ts b → (∀ t ∈ ts, Spaced t) → Tracks ts b := by
  intro halways
  have hend : (moving.trace (Process.boot true none 0) (twoSpins .doorUnlock .doorUnlock)).map
      (fun (ts, b) => (travel ts, b.servo.locked, decide (Idle b.servo),
        decide (∀ t ∈ ts, Spaced t))) = some (20, false, true, true) := by decide +kernel
  obtain ⟨ts, b, hrun, hview⟩ := Machine.exists_run_of_view hend
  simp only [Prod.mk.injEq, decide_eq_true_eq] at hview
  obtain ⟨htravel, hopen, hidle, hspaced⟩ := hview
  have htracks := halways ts b hrun hspaced hidle
  rw [htravel, hopen] at htracks
  cases htracks

end FacialCamera.Servo
