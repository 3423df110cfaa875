import FacialCamera.Recognition.Compare
import Mathlib.Data.List.Basic
import Mathlib.Tactic.Positivity

/-! # From a picture to a face encoding

`encode_face_from_image` and `encode_face_from_jpeg` over the operations of the face
library. Of the faces in a picture the one with the largest box is encoded, the first of
them where several are equally large, and the quality is its share of the picture.
-/

namespace FacialCamera.Recognition

open FacialCamera.Core Backend

/-- `top, right, bottom, left` of `face_locations`. -/
structure FaceBox where
  top : ℤ
  right : ℤ
  bottom : ℤ
  left : ℤ
  deriving DecidableEq

def FaceBox.area (box : FaceBox) : ℤ := (box.bottom - box.top) * (box.right - box.left)

/-- The pictures and what the libraries do with them; `none` where they raise. -/
structure FaceRecognition (Image : Type) where
  height : Image → ℕ
  width : Image → ℕ
  applyClahe : Image → Option Image
  faceLocations : Image → Option (List FaceBox)
  faceEncodings : Image → List FaceBox → Option (List Encoding)
  loadImageFile : Jpeg → Option Image

/-- Whether `FACE_RECOGNITION_AVAILABLE`; without the library an encoding is made up. -/
inductive FacePipeline (Image : Type) where
  | available (library : FaceRecognition Image)
  | unavailable (fake : Encoding)

def argmax (values : List ℤ) : ℕ := (values.max?.map fun largest => values.idxOf largest).getD 0

def bestIdx (locations : List FaceBox) : ℕ :=
  if locations.length > 1 then argmax (locations.map FaceBox.area) else 0

variable {Image : Type}

def encodeFace (library : FaceRecognition Image) (image : Image) (locations : List FaceBox)
    (encodings : List Encoding) : EncoderOutcome :=
  match encodings[bestIdx locations]?, locations[bestIdx locations]? with
  | some encoding, some box =>
      let imgArea := library.height image * library.width image
      if imgArea = 0 then .raises
      else .face encoding (round2 (min 1 ((box.area : ℚ) / imgArea * 10)))
  | _, _ => .raises

def encodeFaceFromImage (pipeline : FacePipeline Image) (image : Image) : EncoderOutcome :=
  match pipeline with
  | .unavailable fake => .face fake (92 / 100)
  | .available library =>
      match library.applyClahe image with
      | none => .raises
      | some image =>
          match library.faceLocations image with
          | none => .raises
          | some [] => .noFace
          | some (first :: rest) =>
              match library.faceEncodings image (first :: rest) with
              | none => .raises
              | some [] => .noFace
              | some (encoding :: others) =>
                  encodeFace library image (first :: rest) (encoding :: others)

def encodeFaceFromJpeg (pipeline : FacePipeline Image) (jpeg : Jpeg) : EncoderOutcome :=
  match pipeline with
  | .unavailable fake => .face fake (92 / 100)
  | .available library =>
      match library.loadImageFile jpeg with
      | none => .raises
      | some image => encodeFaceFromImage pipeline image

/-- What the libraries promise: boxes lie inside their picture, and each box has an encoding. -/
structure FaceRecognition.Documented (library : FaceRecognition Image) : Prop where
  inside : ∀ image locations, library.faceLocations image = some locations → ∀ box ∈ locations,
    0 ≤ box.top ∧ box.top ≤ box.bottom ∧ box.bottom ≤ library.height image ∧
      0 ≤ box.left ∧ box.left ≤ box.right ∧ box.right ≤ library.width image
  each : ∀ image locations encodings, library.faceEncodings image locations = some encodings →
    encodings.length = locations.length

def FacePipeline.Documented : FacePipeline Image → Prop
  | .available library => library.Documented
  | .unavailable _ => True

/-! ## The largest face -/

/-- The first of the largest boxes. -/
structure Foremost (locations : List FaceBox) (i : ℕ) (box : FaceBox) : Prop where
  at_index : locations[i]? = some box
  largest : ∀ other ∈ locations, other.area ≤ box.area
  first : ∀ j < i, ∀ other, locations[j]? = some other → other.area < box.area

theorem argmax_spec {values : List ℤ} (h : values ≠ []) :
    ∃ largest, values[argmax values]? = some largest ∧ (∀ x ∈ values, x ≤ largest) ∧
      ∀ j < argmax values, ∀ x, values[j]? = some x → x < largest := by
  obtain ⟨largest, hmax⟩ := Option.isSome_iff_exists.mp (List.isSome_max?_iff.mpr h)
  obtain ⟨hmem, hle⟩ := List.max?_eq_some_iff.mp hmax
  have hindex : argmax values = values.idxOf largest := by
    rw [argmax, hmax]
    rfl
  have hlt : values.idxOf largest < values.length := List.idxOf_lt_length_of_mem hmem
  rw [hindex]
  refine ⟨largest, ?_, hle, fun j hj x hx => ?_⟩
  · rw [List.getElem?_eq_getElem hlt, List.getElem_idxOf]
  · obtain ⟨hbound, rfl⟩ := List.getElem?_eq_some_iff.mp hx
    refine lt_of_le_of_ne (hle _ (List.getElem_mem hbound)) fun heq => ?_
    have hother : (values[j] == largest) = false := List.not_of_lt_findIdx hj
    simp [heq] at hother

theorem foremost_bestIdx {locations : List FaceBox} (h : locations ≠ []) :
    ∃ box, Foremost locations (bestIdx locations) box := by
  by_cases hmany : locations.length > 1
  · have hindex : bestIdx locations = argmax (locations.map FaceBox.area) := if_pos hmany
    have hareas : locations.map FaceBox.area ≠ [] := by simpa using h
    obtain ⟨largest, hat, hle, hfirst⟩ := argmax_spec hareas
    rw [← hindex] at hat hfirst
    rw [List.getElem?_map] at hat
    obtain ⟨box, hbox, rfl⟩ := Option.map_eq_some_iff.mp hat
    refine ⟨box, hbox, fun other hother => hle _ (List.mem_map_of_mem hother), ?_⟩
    intro j hj other hother
    refine hfirst j hj _ ?_
    rw [List.getElem?_map, hother]
    rfl
  · have hindex : bestIdx locations = 0 := if_neg hmany
    match locations, h with
    | [box], _ =>
        rw [hindex]
        refine ⟨box, rfl, fun other hother => ?_, fun j hj => absurd hj (Nat.not_lt_zero j)⟩
        rw [List.mem_singleton.mp hother]
    | _ :: _ :: _, _ => simp at hmany

/-! ## What an encoder call concludes -/

/-- A quality is a number of hundredths from 0 to 1. -/
structure Quality (quality : ℚ) : Prop where
  nonneg : 0 ≤ quality
  le_one : quality ≤ 1
  hundredths : ∃ n : ℤ, quality = n / 100

/-- The encoding is that of the largest face that the library finds in the picture. -/
structure Encoded (library : FaceRecognition Image) (image : Image) (encoding : Encoding)
    (quality : ℚ) : Prop where
  quality : Quality quality
  face : ∃ enhanced locations encodings i box, library.applyClahe image = some enhanced ∧
    library.faceLocations enhanced = some locations ∧
    library.faceEncodings enhanced locations = some encodings ∧
    Foremost locations i box ∧ encodings[i]? = some encoding

inductive Shown (pipeline : FacePipeline Image) (image : Image) (encoding : Encoding)
    (quality : ℚ) : Prop where
  | found (library : FaceRecognition Image) : pipeline = .available library →
      Encoded library image encoding quality → Shown pipeline image encoding quality
  | madeUp : pipeline = .unavailable encoding → quality = 92 / 100 →
      Shown pipeline image encoding quality

theorem quality_round2 {x : ℚ} (hnonneg : 0 ≤ x) (hle : x ≤ 1) : Quality (round2 x) := by
  have hzero : round2 0 = 0 := by decide +kernel
  have hone : round2 1 = 1 := by decide +kernel
  exact ⟨hzero ▸ round2_mono hnonneg, hone ▸ round2_mono hle, halfEven (x * 100), round2_eq x⟩

theorem quality_fake : Quality (92 / 100) := by
  exact ⟨by norm_num, by norm_num, 92, by norm_num⟩

theorem Shown.quality {pipeline : FacePipeline Image} {image : Image} {encoding : Encoding}
    {quality : ℚ} (h : Shown pipeline image encoding quality) : Quality quality := by
  cases h with
  | found library _ hencoded => exact hencoded.quality
  | madeUp _ hquality => exact hquality ▸ quality_fake

theorem area_nonneg {library : FaceRecognition Image} (hlib : library.Documented) {image : Image}
    {locations : List FaceBox} (hfound : library.faceLocations image = some locations)
    {box : FaceBox} (hbox : box ∈ locations) : 0 ≤ box.area := by
  obtain ⟨_, hvertical, _, _, hhorizontal, _⟩ := hlib.inside image locations hfound box hbox
  exact mul_nonneg (by omega) (by omega)

theorem encodeFace_spec {library : FaceRecognition Image} (hlib : library.Documented)
    {image : Image} {locations : List FaceBox} {encodings : List Encoding} {encoding : Encoding}
    {quality : ℚ} (hfound : library.faceLocations image = some locations)
    (h : encodeFace library image locations encodings = .face encoding quality) :
    Quality quality ∧ ∃ i box, Foremost locations i box ∧ encodings[i]? = some encoding := by
  unfold encodeFace at h
  split at h
  case h_2 => cases h
  case h_1 face box hface hbox =>
    dsimp only at h
    split at h
    case isTrue => cases h
    case isFalse =>
      cases h
      have hmem := List.mem_of_getElem? hbox
      have harea : (0 : ℚ) ≤ box.area := by exact_mod_cast area_nonneg hlib hfound hmem
      have hne : locations ≠ [] := List.ne_nil_of_mem hmem
      obtain ⟨foremost, hforemost⟩ := foremost_bestIdx hne
      refine ⟨quality_round2 (le_min zero_le_one (by positivity)) (min_le_left _ _), ?_⟩
      exact ⟨_, foremost, hforemost, hface⟩

theorem shown_of_image {pipeline : FacePipeline Image} (hpipeline : pipeline.Documented)
    {image : Image} {encoding : Encoding} {quality : ℚ}
    (h : encodeFaceFromImage pipeline image = .face encoding quality) :
    Shown pipeline image encoding quality := by
  unfold encodeFaceFromImage at h
  split at h
  case h_1 fake =>
    cases h
    exact .madeUp rfl rfl
  case h_2 library =>
    split at h
    case h_1 => cases h
    case h_2 enhanced hclahe =>
      split at h
      case h_1 | h_2 => cases h
      case h_3 first rest hfound =>
        split at h
        case h_1 | h_2 => cases h
        case h_3 face others hencodings =>
          obtain ⟨hquality, i, box, hforemost, hface⟩ := encodeFace_spec hpipeline hfound h
          exact .found library rfl
            ⟨hquality, enhanced, _, _, i, box, hclahe, hfound, hencodings, hforemost, hface⟩

theorem shown_of_jpeg {pipeline : FacePipeline Image} (hpipeline : pipeline.Documented)
    {jpeg : Jpeg} {encoding : Encoding} {quality : ℚ}
    (h : encodeFaceFromJpeg pipeline jpeg = .face encoding quality) :
    (pipeline = .unavailable encoding ∧ quality = 92 / 100) ∨
      ∃ library image, pipeline = .available library ∧ library.loadImageFile jpeg = some image ∧
        Encoded library image encoding quality := by
  unfold encodeFaceFromJpeg at h
  split at h
  case h_1 fake =>
    cases h
    exact Or.inl ⟨rfl, rfl⟩
  case h_2 library =>
    split at h
    case h_1 => cases h
    case h_2 image hload =>
      cases shown_of_image hpipeline h with
      | found other hother hencoded =>
          cases hother
          exact Or.inr ⟨library, image, rfl, hload, hencoded⟩
      | madeUp hother _ => cases hother

end FacialCamera.Recognition
