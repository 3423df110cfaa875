import FacialCamera.Camera.Capture
import FacialCamera.Core.Delimited

/-! # The MJPEG stream

A stream is a multipart message without lengths: the pictures are told apart by the
boundary line alone. A reader that cuts at the boundary has the pictures exactly if the
boundary occurs in none of them, and has the last one only when the next one begins.
-/

namespace FacialCamera.Camera

open FacialCamera.Core Backend

/-- The line break and the boundary, which belong together in a multipart message. -/
def delimiter : List UInt8 := bytes "\r\n--frame"

def partHeader : List UInt8 := bytes "\r\nContent-Type: image/jpeg\r\n\r\n"

def stripHeader (part : List UInt8) : Option Jpeg :=
  if partHeader <+: part then some (part.drop partHeader.length) else none

/-- The finished parts: after the first delimiter, and before the last one. -/
def readParts (sent : List UInt8) : List (Option Jpeg) :=
  ((pieces delimiter (bytes "\r\n" ++ sent)).drop 1).dropLast.map stripHeader

/-- The delimiter is found neither in the picture nor across its header. -/
def Clean (jpeg : Jpeg) : Prop := ¬ delimiter <:+: partHeader ++ jpeg

instance (jpeg : Jpeg) : Decidable (Clean jpeg) :=
  decidable_of_iff (cut delimiter (partHeader ++ jpeg) = none) cut_eq_none_iff

theorem unbordered_delimiter : Unbordered delimiter := by decide +kernel

def partOf (jpeg : Jpeg) : List UInt8 :=
  bytes "--frame\r\nContent-Type: image/jpeg\r\n\r\n" ++ jpeg ++ bytes "\r\n"

def streamed (jpegs : List Jpeg) : List UInt8 := jpegs.flatMap partOf

theorem streamed_eq (jpegs : List Jpeg) :
    bytes "\r\n" ++ streamed jpegs =
      (jpegs.flatMap fun jpeg => delimiter ++ (partHeader ++ jpeg)) ++ bytes "\r\n" := by
  have hopening : bytes "\r\n" ++ bytes "--frame\r\nContent-Type: image/jpeg\r\n\r\n" =
      delimiter ++ partHeader := by decide +kernel
  induction jpegs with
  | nil => simp [streamed]
  | cons jpeg jpegs ih =>
      have hrest : bytes "\r\n" ++ (partOf jpeg ++ streamed jpegs) =
          delimiter ++ (partHeader ++ jpeg) ++ (bytes "\r\n" ++ streamed jpegs) := by
        rw [← List.append_assoc delimiter, ← hopening]
        simp only [partOf, List.append_assoc]
      rw [streamed, List.flatMap_cons, ← streamed, hrest, ih, List.flatMap_cons]
      simp only [List.append_assoc]

theorem streamed_snoc (jpegs : List Jpeg) (last : Jpeg) :
    bytes "\r\n" ++ streamed (jpegs ++ [last]) =
      joined delimiter []
        (jpegs.map (partHeader ++ ·) ++ [partHeader ++ last ++ bytes "\r\n"]) := by
  rw [streamed_eq, joined, List.nil_append]
  simp [List.flatMap_append, List.flatMap_map, List.append_assoc]

theorem delimiter_ne_nil : delimiter ≠ [] := by decide +kernel

/-- The line break at the end cannot complete a delimiter. -/
theorem clean_finished (jpeg : Jpeg) :
    ¬ delimiter <:+: partHeader ++ jpeg ++ bytes "\r\n" ↔ Clean jpeg := by
  have hbreak : bytes "\r\n" = [13] ++ [10] := by decide +kernel
  have hreturn : delimiter.getLast? ≠ some 13 := by decide +kernel
  have hnewline : delimiter.getLast? ≠ some 10 := by decide +kernel
  rw [hbreak, ← List.append_assoc, infix_concat_of_getLast delimiter_ne_nil hnewline,
    infix_concat_of_getLast delimiter_ne_nil hreturn]
  exact Iff.rfl

@[simp] theorem stripHeader_append (jpeg : Jpeg) :
    stripHeader (partHeader ++ jpeg) = some jpeg := by
  rw [stripHeader, if_pos (List.prefix_append _ _), List.drop_left]

/-- The reader has every picture but the last exactly if the delimiter occurs in none. -/
theorem readParts_streamed (jpegs : List Jpeg) :
    readParts (streamed jpegs) = jpegs.dropLast.map some ↔ ∀ jpeg ∈ jpegs, Clean jpeg := by
  cases jpegs using List.reverseRecOn with
  | nil =>
      have hnone : cut delimiter (bytes "\r\n") = none := by decide +kernel
      simp [readParts, streamed, pieces_of_none hnone]
  | append_singleton jpegs last =>
      let parts := jpegs.map (partHeader ++ ·) ++ [partHeader ++ last ++ bytes "\r\n"]
      have hclean : (∀ part ∈ [] :: parts, ¬ delimiter <:+: part) ↔
          ∀ jpeg ∈ jpegs ++ [last], Clean jpeg := by
        have hnil : ¬ delimiter <:+: [] := by simp [delimiter_ne_nil]
        simp only [parts, List.forall_mem_cons, List.forall_mem_append, List.forall_mem_map,
          List.not_mem_nil, IsEmpty.forall_iff, implies_true, hnil, not_false_eq_true, true_and,
          clean_finished]
        exact Iff.rfl
      rw [readParts, streamed_snoc, ← hclean, List.dropLast_concat]
      constructor
      · intro h
        have hcount := congrArg List.length h
        have hpieces := length_pieces_joined unbordered_delimiter delimiter_ne_nil [] parts
        simp only [parts, List.length_map, List.length_dropLast, List.length_drop,
          List.length_append, List.length_singleton] at hcount hpieces
        refine uncut_of_length_joined unbordered_delimiter delimiter_ne_nil ?_
        simp only [parts, List.length_append, List.length_map, List.length_singleton]
        omega
      · intro h
        rw [(pieces_joined_iff unbordered_delimiter delimiter_ne_nil [] parts).mpr h]
        simp [parts]

/-! ## Every stream -/

/-- The picture of a capture; an empty one is left out. -/
def picture {Image : Type} : Option (Image × Jpeg) → Option Jpeg
  | some (_, byte :: rest) => some (byte :: rest)
  | _ => none

def pictures {Image : Type} (seen : List (Option (Image × Jpeg))) : List Jpeg :=
  seen.filterMap picture

theorem mjpegPart_picture {Image : Type} (capture : Option (Image × Jpeg)) :
    mjpegPart (capture.map Prod.snd) = (picture capture).map partOf := by
  rcases capture with _ | ⟨image, _ | ⟨byte, rest⟩⟩ <;> rfl

theorem streamed_pictures {Image : Type} (seen : List (Option (Image × Jpeg))) :
    (seen.filterMap fun capture => mjpegPart (capture.map Prod.snd)).flatten =
      streamed (pictures seen) := by
  rw [funext mjpegPart_picture, ← List.map_filterMap]
  rfl

structure Readable {Image : Type} (captures : List (Image × Jpeg)) (sent : List UInt8) : Prop where
  pictures : ∃ seen, ReadOff captures seen ∧ sent = streamed (pictures seen) ∧
    (readParts sent = (Camera.pictures seen).dropLast.map some ↔
      ∀ jpeg ∈ Camera.pictures seen, Clean jpeg)

variable {Image : Type} {optics : Optics Image} {backend : Option CameraBackend}
  {ts : List (Transition (CameraService Image) (CameraTurn Image))} {s : CameraService Image}

/-- In every run a stream sends captures in the order they were made, and a reader has them,
up to the one under way, exactly if the delimiter occurs in none. -/
theorem readable_of_run (hrun : (service optics backend).Run CameraService.init ts s)
    {stream : Stream} (hstream : stream ∈ s.streams) : Readable (published ts) stream.sent := by
  obtain ⟨seen, hread, hsent⟩ := (recorded_of_run hrun).streams stream hstream
  rw [streamed_pictures] at hsent
  refine ⟨seen, hread, hsent, ?_⟩
  rw [hsent]
  exact readParts_streamed _

def streamedTurns : List (CameraTurn UInt8) :=
  [.stream, .start, .opened, .streamOn 0] ++ [1, 2].flatMap fun image =>
    [.loop 0 .missing, .loop 0 (.frame image), .loop 0 .missing, .streamOn 0, .streamOn 0,
      .loop 0 .missing]

theorem readable_streamedTurns : ∃ ts s, ∃ stream ∈ s.streams,
    (service plainOptics (some .opencv)).Run CameraService.init ts s ∧
      stream.sent = streamed [[1], [2]] ∧ Readable (published ts) stream.sent := by
  have hend : ((service plainOptics (some .opencv)).trace CameraService.init streamedTurns).map
      (fun (_, s) => s.streams.map Stream.sent) = some [streamed [[1], [2]]] := by
    decide +kernel
  obtain ⟨ts, s, hrun, hstreams⟩ := Machine.exists_run_of_view hend
  obtain ⟨stream, hstream, hsent⟩ := List.mem_map.mp (hstreams ▸ List.mem_singleton_self _)
  exact ⟨ts, s, stream, hstream, hrun, hsent, readable_of_run hrun hstream⟩

end FacialCamera.Camera
