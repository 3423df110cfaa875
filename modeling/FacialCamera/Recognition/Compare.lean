import FacialCamera.Backend.Camera
import FacialCamera.Backend.State
import FacialCamera.Core.Rounding
import Mathlib.Data.List.GetD
import Mathlib.Data.List.MinMax
import Mathlib.Data.List.Perm.Basic

/-! # How `compare_face` decides

With the face library present `compare_face` looks at one entry only, the nearest
one, and compares its rounded score with the threshold. Rounding keeps the order
of scores, so the nearest entry has the best one and the decision is the
disjunction of the decisions entry by entry.
-/

namespace FacialCamera.Recognition

open FacialCamera.Core Backend

section Distance

variable (distance : Encoding → Encoding → ℚ) (threshold : ℚ) (unknown : Encoding)

/-- The confidence that `compare_face` reports where the entry is the nearest one. -/
def score (e : KnownEntry) : ℚ := round2 (1 - distance e.encoding unknown)

def Accepts (known : List KnownEntry) : Prop :=
  (compareFace (.available distance) threshold unknown known).1.isSome = true

def reported (known : List KnownEntry) : ℚ :=
  (compareFace (.available distance) threshold unknown known).2.2

def Nearest (known : List KnownEntry) (e : KnownEntry) : Prop :=
  e ∈ known ∧ ∀ e' ∈ known, distance e.encoding unknown ≤ distance e'.encoding unknown

end Distance

/-! ## Scores -/

theorem round2_eq (x : ℚ) : round2 x = (halfEven (x * 100) : ℚ) / 100 := by
  have hfloor : (x * 100).floor = ⌊x * 100⌋ := rfl
  simp only [round2, halfEven, hfloor, Int.self_sub_floor]
  split_ifs <;> push_cast <;> rfl

theorem round2_mono {x y : ℚ} (h : x ≤ y) : round2 x ≤ round2 y := by
  have hscaled : x * 100 ≤ y * 100 := by linarith
  have hround : (halfEven (x * 100) : ℚ) ≤ (halfEven (y * 100) : ℚ) := by
    exact_mod_cast halfEven_mono hscaled
  rw [round2_eq, round2_eq]
  linarith

variable {distance : Encoding → Encoding → ℚ} {threshold : ℚ} {unknown : Encoding}
  {known : List KnownEntry} {e e' : KnownEntry}

theorem score_le (h : distance e.encoding unknown ≤ distance e'.encoding unknown) :
    score distance unknown e' ≤ score distance unknown e :=
  round2_mono (by linarith)

/-- The nearest entry has the best score. -/
theorem Nearest.score_le (h : Nearest distance unknown known e) (he' : e' ∈ known) :
    score distance unknown e' ≤ score distance unknown e :=
  Recognition.score_le (h.2 e' he')

/-! ## The nearest entry -/

/-- The loop of the model is the library's leftmost minimum. -/
theorem argmin_eq (f : KnownEntry → ℚ) (first : KnownEntry) (rest : List KnownEntry) :
    List.argmin f (first :: rest) = some (argmin f first rest) := by
  have hfold (best : KnownEntry) : rest.foldl (List.argAux fun b c => f b < f c) (some best) =
      some (argmin f best rest) := by
    induction rest generalizing best with
    | nil => rfl
    | cons e rest ih =>
        simp only [List.foldl_cons, List.argAux, argmin]
        split
        · exact ih e
        · exact ih best
  exact hfold first

/-- What `compare_face` answers, by the entry it picks. -/
theorem compareFace_cases (distance : Encoding → Encoding → ℚ) (threshold : ℚ)
    (unknown : Encoding) (known : List KnownEntry) :
    (known = [] ∧ compareFace (.available distance) threshold unknown known = (none, none, 0)) ∨
      ∃ e, Nearest distance unknown known e ∧
        compareFace (.available distance) threshold unknown known =
          if threshold ≤ score distance unknown e then
            (some e.memberId, some e.name, score distance unknown e)
          else (none, none, score distance unknown e) := by
  cases known with
  | nil => exact Or.inl ⟨rfl, rfl⟩
  | cons first rest =>
      let f := fun e : KnownEntry => distance e.encoding unknown
      have hmin : argmin f first rest ∈ List.argmin f (first :: rest) := argmin_eq f first rest
      refine Or.inr ⟨argmin f first rest, ⟨List.argmin_mem hmin, fun e' he' => ?_⟩, rfl⟩
      exact List.le_of_mem_argmin he' hmin

theorem accepts_iff (distance : Encoding → Encoding → ℚ) (threshold : ℚ) (unknown : Encoding)
    (known : List KnownEntry) :
    Accepts distance threshold unknown known ↔
      ∃ e ∈ known, threshold ≤ score distance unknown e := by
  rcases compareFace_cases distance threshold unknown known with ⟨rfl, h⟩ | ⟨e, hnearest, h⟩
  · simp [Accepts, h]
  · have hbest : Accepts distance threshold unknown known ↔
        threshold ≤ score distance unknown e := by
      rw [Accepts, h]
      split_ifs with hpass <;> simp [hpass]
    rw [hbest]
    constructor
    · exact fun hpass => ⟨e, hnearest.1, hpass⟩
    · rintro ⟨e', he', hpass⟩
      exact hpass.trans (hnearest.score_le he')

/-- Where `compare_face` names somebody it answers with a nearest entry. -/
theorem nearest_of_compareFace {m : Option Uuid} {name : Option String} {confidence : ℚ}
    (h : compareFace (.available distance) threshold unknown known = (m, name, confidence))
    (hsome : m.isSome = true ∨ name.isSome = true) :
    ∃ e, Nearest distance unknown known e ∧ m = some e.memberId ∧ name = some e.name ∧
      confidence = score distance unknown e ∧ threshold ≤ confidence := by
  rcases compareFace_cases distance threshold unknown known with ⟨_, hnone⟩ | ⟨e, hnearest, hpick⟩
  · rw [hnone] at h
    cases h
    simp at hsome
  · rw [hpick] at h
    by_cases hpass : threshold ≤ score distance unknown e
    · rw [if_pos hpass] at h
      cases h
      exact ⟨e, hnearest, rfl, rfl, rfl, hpass⟩
    · rw [if_neg hpass] at h
      cases h
      simp at hsome

/-- The reported confidence is the best score, where there is one. -/
theorem reported_spec (distance : Encoding → Encoding → ℚ) (threshold : ℚ) (unknown : Encoding)
    (hne : known ≠ []) :
    (∃ e ∈ known, reported distance threshold unknown known = score distance unknown e) ∧
      ∀ e ∈ known, score distance unknown e ≤ reported distance threshold unknown known := by
  rcases compareFace_cases distance threshold unknown known with ⟨hnil, _⟩ | ⟨e, hnearest, h⟩
  · exact absurd hnil hne
  · have hreported : reported distance threshold unknown known = score distance unknown e := by
      rw [reported, h]
      split_ifs <;> rfl
    rw [hreported]
    exact ⟨⟨e, hnearest.1, rfl⟩, fun e' he' => hnearest.score_le he'⟩

theorem reported_perm {known known' : List KnownEntry} (h : known.Perm known') :
    reported distance threshold unknown known = reported distance threshold unknown known' := by
  by_cases hnil : known = []
  · subst hnil
    rw [h.nil_eq]
  · have hnil' : known' ≠ [] := fun h' => hnil (by simpa [h'] using h)
    obtain ⟨⟨e, he, heq⟩, hbest⟩ := reported_spec distance threshold unknown hnil
    obtain ⟨⟨e', he', heq'⟩, hbest'⟩ := reported_spec distance threshold unknown hnil'
    apply le_antisymm
    · rw [heq]
      exact hbest' e (h.mem_iff.mp he)
    · rw [heq']
      exact hbest e' (h.mem_iff.mpr he')

/-! ## Both modes -/

def drawn (choice : Nat) (known : List KnownEntry) : Option KnownEntry :=
  known[choice % known.length]?

theorem compareFace_simulated (random : ℚ) (choice : Nat) (threshold : ℚ) (unknown : Encoding)
    (known : List KnownEntry) :
    compareFace (.unavailable random choice) threshold unknown known =
      if random < 7 / 10 then
        match drawn choice known with
        | some k => (some k.memberId, some k.name, (85 / 100 : ℚ))
        | none => (none, none, 0)
      else (none, none, 0) := by
  cases known with
  | nil => simp [compareFace, drawn]
  | cons first rest =>
      have hlt : choice % (rest.length + 1) < (first :: rest).length :=
        Nat.mod_lt _ (Nat.succ_pos _)
      have hdrawn : drawn choice (first :: rest) =
          some ((first :: rest).getD (choice % (rest.length + 1)) first) := by
        rw [drawn, List.length_cons, List.getElem?_eq_getElem hlt, List.getD_eq_getElem _ _ hlt]
      rw [hdrawn]
      rfl

/-- With or without the library the answer is an entry's member under the entry's name, or
nobody. -/
theorem compareFace_entry (library : FaceLibrary) (threshold : ℚ) (unknown : Encoding)
    (known : List KnownEntry) :
    (∃ e ∈ known, ∃ confidence, compareFace library threshold unknown known =
      (some e.memberId, some e.name, confidence)) ∨
      ∃ confidence, compareFace library threshold unknown known = (none, none, confidence) := by
  cases library with
  | available distance =>
      rcases compareFace_cases distance threshold unknown known with ⟨_, h⟩ | ⟨e, hnearest, h⟩
      · exact Or.inr ⟨0, h⟩
      · rw [h]
        split
        · exact Or.inl ⟨e, hnearest.1, _, rfl⟩
        · exact Or.inr ⟨_, rfl⟩
  | unavailable random choice =>
      rw [compareFace_simulated]
      split
      case isFalse => exact Or.inr ⟨0, rfl⟩
      case isTrue =>
        cases hdrawn : drawn choice known with
        | none => exact Or.inr ⟨0, rfl⟩
        | some k => exact Or.inl ⟨k, List.mem_of_getElem? hdrawn, _, rfl⟩

/-! ## The threshold -/

/-- `compare_face` returns a member exactly if some entry's rounded score reaches the
threshold, and then one who owns a nearest entry. -/
theorem compareFace_threshold (distance : Encoding → Encoding → ℚ) (threshold : ℚ)
    (unknown : Encoding) (known : List KnownEntry) :
    (Accepts distance threshold unknown known ↔
      ∃ e ∈ known, threshold ≤ round2 (1 - distance e.encoding unknown)) ∧
      ∀ m, (compareFace (.available distance) threshold unknown known).1 = some m →
        ∃ e, Nearest distance unknown known e ∧ e.memberId = m := by
  refine ⟨accepts_iff distance threshold unknown known, fun m hm => ?_⟩
  have hsome : (compareFace (.available distance) threshold unknown known).1.isSome = true := by
    rw [hm]
    rfl
  have hanswer : compareFace (.available distance) threshold unknown known = (_, _, _) := rfl
  obtain ⟨e, hnearest, howner, _⟩ := nearest_of_compareFace hanswer (Or.inl hsome)
  exact ⟨e, hnearest, Option.some.inj (howner.symm.trans hm)⟩

/-- At distance 0.404 the score 0.596 is rounded up to the threshold 0.6. -/
theorem not_always_exact_threshold :
    ¬ ∀ (distance : Encoding → Encoding → ℚ) (threshold : ℚ) (unknown : Encoding)
        (known : List KnownEntry), (∀ e u, 0 ≤ distance e u) → 0 ≤ threshold → threshold ≤ 1 →
        ((Accepts distance threshold unknown known ↔
          ∃ e ∈ known, threshold ≤ 1 - distance e.encoding unknown) ∧
          ∀ m, (compareFace (.available distance) threshold unknown known).1 = some m →
            ∃ e, Nearest distance unknown known e ∧ e.memberId = m) := by
  intro halways
  have hexact := (halways (fun _ _ => 404 / 1000) CONFIDENCE_THRESHOLD [] [⟨[], 0, "Resident"⟩]
    (fun _ _ => by norm_num) (by norm_num [CONFIDENCE_THRESHOLD])
    (by norm_num [CONFIDENCE_THRESHOLD])).1
  have haccepts : Accepts (fun _ _ => 404 / 1000) CONFIDENCE_THRESHOLD []
      [⟨[], 0, "Resident"⟩] := by
    show (compareFace _ _ _ _).1.isSome = true
    decide +kernel
  obtain ⟨e, _, hscore⟩ := hexact.mp haccepts
  norm_num [CONFIDENCE_THRESHOLD] at hscore

/-! ## Entry by entry -/

/-- The decision over a list of entries, from the decisions over its parts. -/
structure DecidesByEntry (distance : Encoding → Encoding → ℚ) (unknown : Encoding) : Prop where
  append : ∀ threshold (A B : List KnownEntry),
    Accepts distance threshold unknown (A ++ B) ↔
      Accepts distance threshold unknown A ∨ Accepts distance threshold unknown B
  perm : ∀ threshold (A B : List KnownEntry), A.Perm B →
    (Accepts distance threshold unknown A ↔ Accepts distance threshold unknown B) ∧
      reported distance threshold unknown A = reported distance threshold unknown B
  raised : ∀ threshold threshold' (A : List KnownEntry), threshold ≤ threshold' →
    Accepts distance threshold' unknown A → Accepts distance threshold unknown A
  named : ∀ threshold (A : List KnownEntry) m name confidence,
    compareFace (.available distance) threshold unknown A = (m, some name, confidence) →
      ∃ e, Nearest distance unknown A e ∧ e.name = name
  added : ∀ threshold (A B : List KnownEntry), A ⊆ B →
    Accepts distance threshold unknown A → Accepts distance threshold unknown B
  alone : ∀ threshold (A : List KnownEntry) (m : Uuid),
    Accepts distance threshold unknown (A.filter fun e => e.memberId = m) →
      Accepts distance threshold unknown A

theorem accepts_of_subset {A B : List KnownEntry} (hsub : A ⊆ B)
    (h : Accepts distance threshold unknown A) : Accepts distance threshold unknown B := by
  obtain ⟨e, he, hpass⟩ := (accepts_iff distance threshold unknown A).mp h
  exact (accepts_iff distance threshold unknown B).mpr ⟨e, hsub he, hpass⟩

theorem decidesByEntry (distance : Encoding → Encoding → ℚ) (unknown : Encoding) :
    DecidesByEntry distance unknown where
  append threshold A B := by
    simp only [accepts_iff, List.mem_append, or_and_right, exists_or]
  perm threshold A B h := by
    refine ⟨?_, reported_perm h⟩
    exact ⟨accepts_of_subset h.subset, accepts_of_subset h.symm.subset⟩
  raised threshold threshold' A hle h := by
    obtain ⟨e, he, hpass⟩ := (accepts_iff distance threshold' unknown A).mp h
    exact (accepts_iff distance threshold unknown A).mpr ⟨e, he, hle.trans hpass⟩
  named threshold A m name confidence h := by
    obtain ⟨e, hnearest, _, hname, _⟩ := nearest_of_compareFace h (Or.inr rfl)
    exact ⟨e, hnearest, (Option.some.inj hname).symm⟩
  added threshold A B hsub h := accepts_of_subset hsub h
  alone threshold A m h := accepts_of_subset (List.filter_subset_self A) h

end FacialCamera.Recognition
