import Mathlib.Data.List.Infix
import Mathlib.Data.List.Basic

/-! # Lists cut at a delimiter

A delimiter without a border, no proper part of which both begins and ends it, cannot
overlap itself. A list that was put together around such a delimiter is cut back into
its parts exactly if the delimiter occurs in none of them.
-/

namespace FacialCamera.Core

variable {α : Type} [DecidableEq α] {d xs ys part rest : List α}

/-- What is before the first occurrence of the delimiter, and what is after it. -/
def cut (d : List α) : List α → Option (List α × List α)
  | [] => if d = [] then some ([], []) else none
  | x :: xs =>
      if d <+: x :: xs then some ([], (x :: xs).drop d.length)
      else (cut d xs).map fun out => (x :: out.1, out.2)

/-- No proper part of the delimiter both begins and ends it. -/
def Unbordered (d : List α) : Prop :=
  ∀ n < d.length, 0 < n → d.take n ≠ d.drop (d.length - n)

instance : Decidable (Unbordered d) := inferInstanceAs (Decidable (∀ n < d.length, _))

/-! ## The first occurrence -/

theorem cut_spec (h : cut d xs = some (part, rest)) : xs = part ++ d ++ rest := by
  induction xs generalizing part with
  | nil =>
      obtain ⟨rfl, rfl, rfl⟩ : d = [] ∧ [] = part ∧ [] = rest := by simpa [cut] using h
      rfl
  | cons x xs ih =>
      by_cases hstart : d <+: x :: xs
      · simp only [cut, if_pos hstart, Option.some.injEq, Prod.mk.injEq] at h
        obtain ⟨rfl, rfl⟩ := h
        simpa using (List.prefix_iff_eq_append.mp hstart).symm
      · simp only [cut, if_neg hstart, Option.map_eq_some_iff] at h
        obtain ⟨⟨p, r⟩, hcut, heq⟩ := h
        cases heq
        exact congrArg (x :: ·) (ih hcut)

theorem cut_eq_none_iff : cut d xs = none ↔ ¬ d <:+: xs := by
  induction xs with
  | nil => simp [cut]
  | cons x xs ih =>
      rw [List.infix_cons_iff, cut]
      split
      case isTrue hstart => simp [hstart]
      case isFalse hstart => simpa [hstart] using ih

/-- The first occurrence is still the first one if more follows. -/
theorem cut_append (h : cut d xs = some (part, rest)) :
    cut d (xs ++ ys) = some (part, rest ++ ys) := by
  induction xs generalizing part with
  | nil =>
      obtain ⟨rfl, rfl, rfl⟩ : d = [] ∧ [] = part ∧ [] = rest := by simpa [cut] using h
      cases ys <;> simp [cut]
  | cons x xs ih =>
      by_cases hstart : d <+: x :: xs
      · simp only [cut, if_pos hstart, Option.some.injEq, Prod.mk.injEq] at h
        obtain ⟨rfl, rfl⟩ := h
        have hlater : d <+: x :: (xs ++ ys) := hstart.trans (List.prefix_append (x :: xs) ys)
        rw [List.cons_append, cut, if_pos hlater, ← List.cons_append,
          List.drop_append_of_le_length hstart.length_le]
      · simp only [cut, if_neg hstart, Option.map_eq_some_iff] at h
        obtain ⟨⟨p, r⟩, hcut, heq⟩ := h
        cases heq
        have hlength : d.length ≤ xs.length := by
          rw [cut_spec hcut]
          simp
          omega
        have hlater : ¬ d <+: x :: (xs ++ ys) := by
          intro hlater
          refine hstart (List.prefix_of_prefix_length_le hlater ?_ ?_)
          · exact List.prefix_append (x :: xs) ys
          · simp only [List.length_cons]
            omega
        simp [cut, hlater, ih hcut]

omit [DecidableEq α] in
/-- A delimiter without a border is not found across the end of a part. -/
theorem not_prefix_append (hd : Unbordered d) (hpart : part ≠ []) (hfree : ¬ d <:+: part) :
    ¬ d <+: part ++ d ++ rest := by
  rintro ⟨tail, htail⟩
  rw [List.append_assoc] at htail
  rcases List.append_eq_append_iff.mp htail with ⟨more, hmore, _⟩ | ⟨more, hmore, hend⟩
  · exact hfree (hmore ▸ (List.prefix_append d more).isInfix)
  · have hmore' : more ≠ [] := by
      rintro rfl
      rw [List.append_nil] at hmore
      exact hfree (hmore ▸ List.infix_rfl)
    have hlength := congrArg List.length hmore
    rw [List.length_append] at hlength
    have hpartLength := List.length_pos_iff.mpr hpart
    refine hd more.length (by omega) (List.length_pos_iff.mpr hmore') ?_
    have htake : d.take more.length = more := by
      have heads := congrArg (List.take more.length) hend
      rwa [List.take_append_of_le_length (by omega), List.take_left] at heads
    have hdrop : d.drop (d.length - more.length) = more := by
      have hfront : d.length - more.length = part.length := by omega
      rw [hfront, hmore, List.drop_left]
    rw [htake, hdrop]

theorem cut_part (hd : Unbordered d) (hfree : ¬ d <:+: part) :
    cut d (part ++ d ++ rest) = some (part, rest) := by
  induction part with
  | nil =>
      cases hcase : d ++ rest with
      | nil => simp_all
      | cons x xs =>
          have hstart : d <+: x :: xs := hcase ▸ List.prefix_append d rest
          rw [List.nil_append, hcase, cut, if_pos hstart, ← hcase, List.drop_left]
  | cons x part ih =>
      have hnot : ¬ d <+: x :: part ++ d ++ rest :=
        not_prefix_append hd (List.cons_ne_nil x part) hfree
      have hrest := ih fun hoccurs => hfree (hoccurs.trans (List.suffix_cons x part).isInfix)
      simp only [List.cons_append] at hnot hrest ⊢
      rw [cut, if_neg hnot, hrest]
      rfl

omit [DecidableEq α] in
/-- An element that does not end the delimiter completes no occurrence. -/
theorem infix_concat_of_getLast {x : α} (hd : d ≠ []) (hx : d.getLast? ≠ some x) :
    d <:+: xs ++ [x] ↔ d <:+: xs := by
  rw [List.infix_concat_iff]
  refine or_iff_right ?_
  rintro ⟨front, hfront⟩
  have hends := congrArg List.getLast? hfront
  rw [List.getLast?_append_of_ne_nil front hd, List.getLast?_concat] at hends
  exact hx hends

/-! ## All occurrences -/

theorem length_rest (hd : d ≠ []) (h : cut d xs = some (part, rest)) :
    rest.length < xs.length := by
  have hlength := congrArg List.length (cut_spec h)
  have hpos := List.length_pos_iff.mpr hd
  simp only [List.length_append] at hlength
  omega

/-- The parts between the occurrences of the delimiter, from left to right. -/
def pieces (d : List α) (xs : List α) : List (List α) :=
  match h : cut d xs with
  | none => [xs]
  | some (part, rest) =>
      if hd : d = [] then [xs]
      else
        have := length_rest hd h
        part :: pieces d rest
termination_by xs.length

theorem pieces_of_none (h : cut d xs = none) : pieces d xs = [xs] := by
  rw [pieces]
  split
  case h_1 => rfl
  case h_2 hcut => cases h.symm.trans hcut

theorem pieces_of_some (hd : d ≠ []) (h : cut d xs = some (part, rest)) :
    pieces d xs = part :: pieces d rest := by
  rw [pieces]
  split
  case h_1 hcut => cases h.symm.trans hcut
  case h_2 hcut =>
      cases h.symm.trans hcut
      rw [dif_neg hd]

/-- What is cut on both sides of an occurrence is cut as a whole. -/
theorem pieces_append (hd : Unbordered d) (hne : d ≠ []) (xs ys : List α) :
    pieces d (xs ++ d ++ ys) = pieces d xs ++ pieces d ys := by
  induction hn : xs.length using Nat.strongRecOn generalizing xs with
  | ind n ih =>
      cases hcut : cut d xs with
      | none =>
          have hpart : cut d (xs ++ d ++ ys) = some (xs, ys) :=
            cut_part hd (cut_eq_none_iff.mp hcut)
          rw [pieces_of_some hne hpart, pieces_of_none hcut, List.singleton_append]
      | some out =>
          obtain ⟨part, rest⟩ := out
          have hshorter : rest.length < n := hn ▸ length_rest hne hcut
          have hlonger : cut d (xs ++ (d ++ ys)) = some (part, rest ++ (d ++ ys)) :=
            cut_append hcut
          rw [← List.append_assoc] at hlonger
          rw [pieces_of_some hne hlonger, pieces_of_some hne hcut, List.cons_append,
            ← List.append_assoc, ih rest.length hshorter rest rfl]

/-- A list is its own only piece exactly if the delimiter does not occur in it. -/
theorem pieces_eq_singleton_iff (hd : d ≠ []) : (pieces d xs).length = 1 ↔ ¬ d <:+: xs := by
  rw [← cut_eq_none_iff]
  cases hcut : cut d xs with
  | none => simp [pieces_of_none hcut]
  | some out =>
      have hrest : pieces d out.2 ≠ [] := by
        cases hnext : cut d out.2 with
        | none => simp [pieces_of_none hnext]
        | some later => simp [pieces_of_some hd hnext]
      simp [pieces_of_some hd hcut, hrest]

theorem length_pieces_pos (hd : d ≠ []) (xs : List α) : 0 < (pieces d xs).length := by
  cases hcut : cut d xs with
  | none => simp [pieces_of_none hcut]
  | some out => simp [pieces_of_some hd hcut]

/-- The parts, each with the delimiter before it. -/
def joined (d : List α) (first : List α) (parts : List (List α)) : List α :=
  first ++ parts.flatMap fun part => d ++ part

theorem pieces_joined (hd : Unbordered d) (hne : d ≠ []) (first : List α)
    (parts : List (List α)) :
    pieces d (joined d first parts) = pieces d first ++ parts.flatMap (pieces d) := by
  induction parts generalizing first with
  | nil => simp [joined]
  | cons part parts ih =>
      have hassoc : joined d first (part :: parts) = first ++ d ++ joined d part parts := by
        simp [joined, List.append_assoc]
      rw [hassoc, pieces_append hd hne, ih, List.flatMap_cons]

theorem length_le_pieces (hd : d ≠ []) (parts : List (List α)) :
    parts.length ≤ (parts.flatMap (pieces d)).length := by
  induction parts with
  | nil => simp
  | cons part parts ih =>
      have hpos := length_pieces_pos hd part
      simp only [List.flatMap_cons, List.length_append, List.length_cons]
      omega

/-- Parts of which none is cut are as many as they were. -/
theorem uncut_of_length (hd : d ≠ []) {parts : List (List α)}
    (h : (parts.flatMap (pieces d)).length = parts.length) : ∀ part ∈ parts, ¬ d <:+: part := by
  induction parts with
  | nil => simp
  | cons part parts ih =>
      have hpos := length_pieces_pos hd part
      have hle := length_le_pieces hd parts
      simp only [List.flatMap_cons, List.length_append, List.length_cons] at h
      intro p hp
      rcases List.mem_cons.mp hp with rfl | hp
      · exact (pieces_eq_singleton_iff hd).mp (by omega)
      · exact ih (by omega) p hp

theorem length_pieces_joined (hd : Unbordered d) (hne : d ≠ []) (first : List α)
    (parts : List (List α)) : parts.length + 1 ≤ (pieces d (joined d first parts)).length := by
  rw [pieces_joined hd hne]
  exact length_le_pieces hne (first :: parts)

/-- No more pieces than parts: none is cut. -/
theorem uncut_of_length_joined (hd : Unbordered d) (hne : d ≠ []) {first : List α}
    {parts : List (List α)} (h : (pieces d (joined d first parts)).length = parts.length + 1) :
    ∀ part ∈ first :: parts, ¬ d <:+: part := by
  rw [pieces_joined hd hne] at h
  exact uncut_of_length hne h

/-- The parts are cut back exactly if the delimiter occurs in none of them. -/
theorem pieces_joined_iff (hd : Unbordered d) (hne : d ≠ []) (first : List α)
    (parts : List (List α)) :
    pieces d (joined d first parts) = first :: parts ↔ ∀ part ∈ first :: parts, ¬ d <:+: part := by
  constructor
  · intro h
    exact uncut_of_length_joined hd hne (congrArg List.length h)
  · intro h
    rw [pieces_joined hd hne, ← List.flatMap_cons]
    have huncut : ∀ part ∈ first :: parts, pieces d part = [part] := fun part hpart =>
      pieces_of_none (cut_eq_none_iff.mpr (h part hpart))
    rw [List.flatMap_congr huncut, List.flatMap_singleton']

end FacialCamera.Core
