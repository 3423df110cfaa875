import Mathlib.Data.List.TakeWhile

/-! # The parts of a URL

`urlsplit` of an absolute URL, from its authority on: tabs and line ends are left out, the
authority ends at the first slash, question mark or hash, and the path at the first question
mark or hash. A text put in front of a path moves the path it is taken for.
-/

namespace FacialCamera.Core

namespace Url

def removed (c : Char) : Bool := c = '\t' || c = '\r' || c = '\n'

def endsPath (c : Char) : Bool := c = '?' || c = '#'

def endsNetloc (c : Char) : Bool := c = '/' || endsPath c

def kept (text : List Char) : List Char := text.filter fun c => !removed c

def netloc (text : List Char) : List Char := (kept text).takeWhile fun c => !endsNetloc c

def tail (text : List Char) : List Char := (kept text).dropWhile fun c => !endsNetloc c

def upToQuery (text : List Char) : List Char := text.takeWhile fun c => !endsPath c

def path (text : List Char) : List Char := upToQuery (tail text)

/-- The path of the text has its end in the text. -/
def Closed (text : List Char) : Prop := ∃ c ∈ tail text, endsPath c = true

instance (text : List Char) : Decidable (Closed text) :=
  decidable_of_iff ((tail text).any endsPath = true) List.any_eq_true

variable {text front : List Char}

theorem takeWhile_append_of_exists {p : Char → Bool} {xs : List Char} (h : ∃ c ∈ xs, p c = false)
    (ys : List Char) : (xs ++ ys).takeWhile p = xs.takeWhile p := by
  induction xs with
  | nil => simp at h
  | cons x xs ih =>
      cases hx : p x with
      | false => simp [hx]
      | true =>
          have hrest : ∃ c ∈ xs, p c = false := by simpa [hx] using h
          simp [hx, ih hrest]

theorem dropWhile_append_of_ne_nil {p : Char → Bool} {xs : List Char} (h : xs.dropWhile p ≠ [])
    (ys : List Char) : (xs ++ ys).dropWhile p = xs.dropWhile p ++ ys := by
  rw [List.dropWhile_append, if_neg (by simpa using h)]

@[simp] theorem kept_append (front text : List Char) :
    kept (front ++ text) = kept front ++ kept text :=
  List.filter_append ..

/-! ## A text in front -/

theorem tail_append (h : tail front ≠ []) (text : List Char) :
    tail (front ++ text) = tail front ++ kept text := by
  rw [tail, kept_append]
  exact dropWhile_append_of_ne_nil h _

theorem tail_ne_nil_of_closed (h : Closed front) : tail front ≠ [] := by
  obtain ⟨c, hc, _⟩ := h
  exact List.ne_nil_of_mem hc

theorem netloc_append (h : tail front ≠ []) (text : List Char) :
    netloc (front ++ text) = netloc front := by
  rw [netloc, kept_append]
  refine takeWhile_append_of_exists ?_ _
  by_contra hnone
  refine h (List.dropWhile_eq_nil_iff.mpr fun c hc => ?_)
  by_contra hc'
  exact hnone ⟨c, hc, by simpa using hc'⟩

theorem netloc_append_of_netloc (h : tail front = []) (text : List Char) :
    netloc (front ++ text) = netloc front ++ netloc text := by
  have hall := List.dropWhile_eq_nil_iff.mp h
  rw [netloc, kept_append, List.takeWhile_append_of_pos hall, netloc,
    List.takeWhile_eq_self_iff.mpr hall, netloc]

/-- A front that is an authority only leaves the path. -/
theorem path_append_of_netloc (h : tail front = []) (text : List Char) :
    path (front ++ text) = path text := by
  have hall := List.dropWhile_eq_nil_iff.mp h
  rw [path, path, tail, kept_append, List.dropWhile_append_of_pos hall]
  rfl

/-- A front in which the path ends hides what follows. -/
theorem path_append_of_closed (h : Closed front) (text : List Char) :
    path (front ++ text) = path front := by
  rw [path, tail_append (tail_ne_nil_of_closed h)]
  refine takeWhile_append_of_exists ?_ _
  obtain ⟨c, hc, hends⟩ := h
  exact ⟨c, hc, by simp [hends]⟩

/-- A front in which the path begins and does not end is put before it. -/
theorem path_append_of_open (h : ¬ Closed front) (hne : tail front ≠ []) (text : List Char) :
    path (front ++ text) = tail front ++ upToQuery (kept text) := by
  have hall : ∀ c ∈ tail front, (!endsPath c) = true := by
    intro c hc
    cases hends : endsPath c with
    | false => rfl
    | true => exact absurd ⟨c, hc, hends⟩ h
  rw [path, tail_append hne, upToQuery, List.takeWhile_append_of_pos hall, upToQuery]

theorem path_of_open (h : ¬ Closed front) : path front = tail front := by
  refine List.takeWhile_eq_self_iff.mpr fun c hc => ?_
  cases hends : endsPath c with
  | false => rfl
  | true => exact absurd ⟨c, hc, hends⟩ h

/-- A query is no part of the path. -/
theorem path_append_query (text query : List Char) : path (text ++ '?' :: query) = path text := by
  have hquery : upToQuery (kept ('?' :: query)) = [] := by
    simp [upToQuery, kept, removed, endsPath]
  by_cases hclosed : Closed text
  · exact path_append_of_closed hclosed _
  · by_cases htail : tail text = []
    · rw [path_append_of_netloc htail, path, path, htail]
      simp [upToQuery, tail, kept, removed, endsNetloc, endsPath]
    · rw [path_append_of_open hclosed htail, hquery, List.append_nil, path_of_open hclosed]

/-- A text that starts with a slash has no authority. -/
theorem tail_slash (text : List Char) : tail ('/' :: text) = '/' :: kept text := by
  simp [tail, kept, removed, endsNetloc]

theorem netloc_slash (text : List Char) : netloc ('/' :: text) = [] := by
  simp [netloc, kept, removed, endsNetloc]

end Url

end FacialCamera.Core
