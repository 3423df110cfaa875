import Mathlib.Data.Rat.Defs
import Mathlib.Data.List.Basic

/-! # The servo and its spin threads

`ServoController` with the threads that `_spin` starts. A spin's phase is its
program counter in `_do_spin`, at the granularity of the calls on the shared
`_busy` lock, the shared `_cancel` event and the motor.
-/

namespace FacialCamera.Backend

def SERVO_LOCKED_DUTY : ℚ := 5
def SERVO_UNLOCKED_DUTY : ℚ := 10

/-- `SERVO_SPIN_SECS` (5.0) in ticks of 0.5 s. -/
def SPIN_TICKS : Nat := 10

/-- Where a thread is in `_do_spin`; `ticks` counts its completed ticks. -/
inductive Phase where
  | waiting
  | acquired
  | looping (ticks : Nat)
  | driving (ticks : Nat)
  | stopping (ticks : Nat)
  | ended (ticks : Nat)
  deriving DecidableEq

namespace Phase

def inside : Phase → Bool
  | .waiting => false
  | .ended _ => false
  | _ => true

def inLoop : Phase → Bool
  | .looping _ => true
  | .driving _ => true
  | _ => false

end Phase

structure Spin where
  duty : ℚ
  phase : Phase
  deriving DecidableEq

/-- `pwm` says whether the GPIO library gave a motor to drive; `spins` holds every
thread started, oldest command first. -/
structure ServoController where
  locked : Bool
  pwm : Bool
  busy : Bool
  cancel : Bool
  spins : List Spin
  deriving DecidableEq

namespace ServoController

def init (onPi : Bool) : ServoController :=
  { locked := true, pwm := onPi, busy := false, cancel := false, spins := [] }

/-- `_spin`: cancel the current spin and start a thread for the new command. -/
def spin (s : ServoController) (duty : ℚ) : ServoController :=
  { s with cancel := true, spins := s.spins ++ [⟨duty, .waiting⟩] }

def lock (s : ServoController) : ServoController :=
  spin { s with locked := true } SERVO_LOCKED_DUTY

def unlock (s : ServoController) : ServoController :=
  spin { s with locked := false } SERVO_UNLOCKED_DUTY

/-- `cleanup`: the running spin is told to stop and the PWM is switched off. -/
def cleanup (s : ServoController) : ServoController := { s with cancel := true }

def phase (s : ServoController) (i : Nat) : Option Phase := s.spins[i]?.map Spin.phase

def put (s : ServoController) (i : Nat) (phase : Phase) : ServoController :=
  { s with spins := s.spins.modify i fun t => { t with phase } }

/-- The next step of thread `i` in `_do_spin`; `none` where it has to wait or has ended. -/
def turn (s : ServoController) (i : Nat) : Option ServoController :=
  match s.phase i with
  | none => none
  | some .waiting =>
      if s.pwm = false then some (s.put i (.ended 0))
      else if s.busy then none
      else some ({ s with busy := true }.put i .acquired)
  | some .acquired => some ({ s with cancel := false }.put i (.looping 0))
  | some (.looping ticks) =>
      -- the loop condition and the check of the event, up to `ChangeDutyCycle(duty)`
      if ticks < SPIN_TICKS ∧ s.cancel = false then some (s.put i (.driving ticks))
      else some (s.put i (.stopping ticks))
  | some (.driving ticks) => some (s.put i (.looping (ticks + 1)))
  | some (.stopping ticks) => some ({ s with busy := false }.put i (.ended ticks))
  | some (.ended _) => none

@[simp] theorem lock_locked (s : ServoController) : s.lock.locked = true := rfl

@[simp] theorem unlock_locked (s : ServoController) : s.unlock.locked = false := rfl

section Phases

variable (s : ServoController) (i j : Nat)

@[simp] theorem put_cancel (p : Phase) : (s.put i p).cancel = s.cancel := rfl

@[simp] theorem length_put (p : Phase) : (s.put i p).spins.length = s.spins.length := by
  simp [put]

theorem phase_put (p : Phase) :
    (s.put i p).phase j = if i = j then (s.phase j).map fun _ => p else s.phase j := by
  simp only [phase, put, List.getElem?_modify]
  by_cases h : i = j <;> cases s.spins[j]? <;> simp [h]

theorem phase_spin (duty : ℚ) :
    (s.spin duty).phase j = if j = s.spins.length then some .waiting else s.phase j := by
  simp only [phase, spin, List.getElem?_append]
  split
  case isTrue hj => simp [hj.ne]
  case isFalse hj =>
    rw [List.getElem?_singleton]
    by_cases hlast : j = s.spins.length
    · simp [hlast]
    · have hpast : j - s.spins.length ≠ 0 := by omega
      simp [hlast, hpast, List.getElem?_eq_none (Nat.le_of_not_lt hj)]

theorem phase_eq_none_iff : s.phase i = none ↔ s.spins.length ≤ i := by
  simp [phase]

end Phases

end ServoController

end FacialCamera.Backend
