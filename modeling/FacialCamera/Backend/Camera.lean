import FacialCamera.Backend.Database
import Mathlib.Data.Rat.Floor

/-! # Face encodings and their comparison

What a handler sees of `camera.py`: the outcome of an encoder call is an input,
because the detector is a library, and `compare_face` is the code's own decision
over the distances that the library reports (or over the random draws of the
simulation where the library cannot be imported).
-/

namespace FacialCamera.Backend

/-- What `encode_face_from_image` or `encode_face_from_jpeg` does on one image. -/
inductive EncoderOutcome where
  | raises
  | noFace
  | face (encoding : Encoding) (quality : ℚ)
  deriving DecidableEq

/-- Python's `round(x, 2)`: half to even in the second decimal. -/
def round2 (x : ℚ) : ℚ :=
  let floor := (x * 100).floor
  let rest := x * 100 - floor
  if rest < 1 / 2 then floor / 100
  else if 1 / 2 < rest then (floor + 1) / 100
  else if floor % 2 = 0 then floor / 100
  else (floor + 1) / 100

/-- `face_distance` where the library is importable, else the values that
`random.random()` and `random.choice` answer. -/
inductive FaceLibrary where
  | available (distance : Encoding → Encoding → ℚ)
  | unavailable (random : ℚ) (choice : Nat)

/-- `np.argmin`: the first entry of least distance. -/
def argmin (distance : KnownEntry → ℚ) : KnownEntry → List KnownEntry → KnownEntry
  | best, [] => best
  | best, e :: es => argmin distance (if distance e < distance best then e else best) es

/-- `FaceRecognitionService.compare_face`: the member id, the name and the confidence. -/
def compareFace (library : FaceLibrary) (threshold : ℚ) (unknown : Encoding) :
    List KnownEntry → Option Uuid × Option String × ℚ
  | [] => (none, none, 0)
  | first :: rest =>
      match library with
      | .unavailable random choice =>
          if random < 7 / 10 then
            let entry := (first :: rest).getD (choice % (rest.length + 1)) first
            (some entry.memberId, some entry.name, 85 / 100)
          else (none, none, 0)
      | .available distance =>
          let best := argmin (fun e => distance e.encoding unknown) first rest
          let confidence := round2 (1 - distance best.encoding unknown)
          if threshold ≤ confidence then (some best.memberId, some best.name, confidence)
          else (none, none, confidence)

end FacialCamera.Backend
