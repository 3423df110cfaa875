import FacialCamera.Backend.Door

/-! # The motion sensor of `hardware.py`

`MotionSensor` keeps the level of the last poll that went through. Its thread
calls `on_motion_detected` on a rising edge. One `try` is around the reading, the
callback and the write of the level, so an exception of either leaves the level
as it was.
-/

namespace FacialCamera.Backend

open FacialCamera.Core

/-- `_last_state`, with `true` for 1. -/
structure MotionSensor where
  lastState : Bool
  deriving DecidableEq

def MotionSensor.init : MotionSensor := ⟨false⟩

/-- What one turn of `_poll_loop` meets: the level that `read` returns, `none` where it
raises, what a callback sees, and the call of the callback that raises, if one does. -/
structure Poll where
  clock : ℚ
  reading : Option Bool
  sight : Sight
  raisesAt : Option Nat

/-- Run `_on_motion`; the result is `none` after an exception. -/
def Poll.callback (p : Poll) (b : Process) : Option Unit × Process :=
  match p.raisesAt with
  | none => (onMotionDetected p.sight).run exec b
  | some n => (onMotionDetected p.sight).runRaising exec n b

/-- One turn of `_poll_loop`. -/
def MotionSensor.pollOnce (sensor : MotionSensor) (p : Poll) (b : Process) :
    MotionSensor × Process :=
  match p.reading with
  | none => (sensor, b)
  | some triggered =>
      if triggered && !sensor.lastState then
        match p.callback b with
        | (none, b') => (sensor, b')
        | (some _, b') => (⟨triggered⟩, b')
      else (⟨triggered⟩, b)

end FacialCamera.Backend
