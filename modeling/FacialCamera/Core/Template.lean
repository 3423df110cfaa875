import Mathlib.Data.List.Basic

/-! # Templates of paths

A template is a list of segments, some of which are holes. A path is an instance of
it if it has other segments that fit in the place of the holes, and the template's own
everywhere else. Filling and reading the holes are inverse to each other, and two
templates that clash in no position have no instance in common.
-/

namespace FacialCamera.Core.Template

variable {α : Type} [DecidableEq α] (hole fits : α → Bool)

def instanceOf : List α → List α → Bool
  | [], [] => true
  | t :: template, s :: path =>
      (if hole t then fits s else t = s) && instanceOf template path
  | _, _ => false

def arguments : List α → List α → List α
  | t :: template, s :: path =>
      if hole t then s :: arguments template path else arguments template path
  | _, _ => []

def holes (template : List α) : Nat := template.countP hole

/-- The template with its holes filled from the left. -/
def fill : List α → List α → List α
  | [], _ => []
  | t :: template, [] => t :: fill template []
  | t :: template, a :: args =>
      if hole t then a :: fill template args else t :: fill template (a :: args)

/-- The two templates may have an instance in common. -/
def overlap : List α → List α → Bool
  | [], [] => true
  | t :: template, t' :: template' =>
      (match hole t, hole t' with
        | true, true => true
        | true, false => fits t'
        | false, true => fits t
        | false, false => t = t') && overlap template template'
  | _, _ => false

variable {hole fits} {template template' path args : List α}

omit [DecidableEq α] in
theorem fill_nil (template : List α) : fill hole template [] = template := by
  induction template with
  | nil => rfl
  | cons t template ih => rw [fill, ih]

theorem instanceOf_fill (hargs : args.length = holes hole template)
    (hfits : ∀ a ∈ args, fits a = true) :
    instanceOf hole fits template (fill hole template args) = true := by
  induction template generalizing args with
  | nil => rfl
  | cons t template ih =>
      rw [holes, List.countP_cons] at hargs
      cases ht : hole t with
      | true =>
          cases args with
          | nil => simp [ht] at hargs
          | cons a args =>
              have hrest : args.length = holes hole template := by simpa [ht, holes] using hargs
              have hlater := ih hrest fun x hx => hfits x (List.mem_cons_of_mem _ hx)
              simp [fill, instanceOf, ht, hlater, hfits a List.mem_cons_self]
      | false =>
          have hrest : args.length = holes hole template := by simpa [ht, holes] using hargs
          have hlater := ih hrest hfits
          cases args with
          | nil => simp [fill, instanceOf, ht, hlater]
          | cons a args => simp [fill, instanceOf, ht, hlater]

omit [DecidableEq α] in
theorem arguments_fill (hargs : args.length = holes hole template) :
    arguments hole template (fill hole template args) = args := by
  induction template generalizing args with
  | nil => exact (List.length_eq_zero_iff.mp hargs).symm
  | cons t template ih =>
      rw [holes, List.countP_cons] at hargs
      cases ht : hole t with
      | true =>
          cases args with
          | nil => simp [ht] at hargs
          | cons a args =>
              have hrest : args.length = holes hole template := by simpa [ht, holes] using hargs
              simp [fill, arguments, ht, ih hrest]
      | false =>
          have hrest : args.length = holes hole template := by simpa [ht, holes] using hargs
          have hlater := ih hrest
          cases args with
          | nil => simp [fill, arguments, ht, hlater]
          | cons a args => simp [fill, arguments, ht, hlater]

theorem overlap_comm (template template' : List α) :
    overlap hole fits template template' = overlap hole fits template' template := by
  induction template generalizing template' with
  | nil => cases template' <;> rfl
  | cons t template ih =>
      cases template' with
      | nil => rfl
      | cons t' template' =>
          rw [overlap, overlap, ih]
          cases ht : hole t <;> cases ht' : hole t' <;> simp [eq_comm]

/-- Templates with a common instance overlap. -/
theorem overlap_of_instanceOf (h : instanceOf hole fits template path = true)
    (h' : instanceOf hole fits template' path = true) :
    overlap hole fits template template' = true := by
  induction template generalizing template' path with
  | nil =>
      cases path with
      | cons => cases h
      | nil =>
          cases template' with
          | nil => rfl
          | cons => cases h'
  | cons t template ih =>
      cases path with
      | nil => cases h
      | cons s path =>
          cases template' with
          | nil => cases h'
          | cons t' template' =>
              obtain ⟨hhead, htail⟩ := Bool.and_eq_true_iff.mp h
              obtain ⟨hhead', htail'⟩ := Bool.and_eq_true_iff.mp h'
              refine Bool.and_eq_true_iff.mpr ⟨?_, ih htail htail'⟩
              cases ht : hole t <;> cases ht' : hole t' <;> simp_all

end FacialCamera.Core.Template
