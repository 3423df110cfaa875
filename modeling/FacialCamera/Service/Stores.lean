import FacialCamera.Core.Holding
import FacialCamera.Core.Percent
import FacialCamera.Backend.Api
import FacialCamera.Enrollment.Requests

/-! # The two member stores of `api.ts`

With `USE_MOCK` the members are a list in the app; without it they are the table of the
Pi. Both are run here on the same calls, each of which takes effect in either store at a
time of its own: in the list when its timer ends, in the table when the Pi handles the
request. What a call has done in a store by then is read off the calls, so the two agree
as soon as every call is through.
-/

namespace FacialCamera.Service

open FacialCamera.Core Backend
open Enrollment (Request Deed perform_eq)

/-! ## Members -/

/-- The face-enrollment fields, with `lastEnrolledAt` as known or not. -/
structure Face where
  faceEnrolled : Bool
  faceProfileVersion : ℕ
  lastEnrolledAt : Bool
  livenessScore : Option ℚ
  deriving DecidableEq

def Face.none : Face := ⟨false, 0, false, Option.none⟩

/-- What is compared of a member: all but the id and the timestamps. -/
structure Fields where
  name : String
  role : String
  face : Face
  deriving DecidableEq

def Fields.unenrolled (f : Fields) : Fields := { f with face := .none }

/-- A `Member` of `mockMembers`; times in milliseconds. -/
structure MockMember where
  id : String
  name : String
  role : String
  addedDate : ℕ
  faceEnrolled : Bool
  faceProfileVersion : ℕ
  lastEnrolledAt : Option ℕ
  livenessScore : Option ℚ
  deriving DecidableEq

def MockMember.entry (m : MockMember) : String × Fields :=
  (m.id, ⟨m.name, m.role,
    ⟨m.faceEnrolled, m.faceProfileVersion, m.lastEnrolledAt.isSome, m.livenessScore⟩⟩)

def rowEntry (r : MemberRow) : Uuid × Fields :=
  (r.id, ⟨r.name, r.role,
    ⟨r.faceEnrolled, r.faceProfileVersion, r.lastEnrolledAt.isSome, r.livenessScore⟩⟩)

/-! ## `USE_MOCK` -/

namespace Mock

def getMembers (mockMembers : List MockMember) : List MockMember := mockMembers

/-- `Date.now().toString()` is the id. -/
def addMember (name role : String) (now : ℕ) (mockMembers : List MockMember) :
    MockMember × List MockMember :=
  let member : MockMember :=
    { id := toString now, name, role, addedDate := now, faceEnrolled := false,
      faceProfileVersion := 0, lastEnrolledAt := none, livenessScore := none }
  (member, mockMembers ++ [member])

def removeMember (id : String) (mockMembers : List MockMember) : List MockMember :=
  mockMembers.filter fun m => m.id ≠ id

def removeMemberFaceTemplate (memberId : String) (mockMembers : List MockMember) :
    List MockMember :=
  mockMembers.map fun m =>
    if m.id ≠ memberId then m
    else { m with
      faceEnrolled := false, faceProfileVersion := 0,
      lastEnrolledAt := none, livenessScore := none }

end Mock

/-! ## The Pi -/

namespace Http

/-- What FastAPI is documented to parse of the query of `POST /members/add`: the name, where
there is one, and the role or its default. -/
def Parses (parse : List Char → Option (String × String)) : Prop :=
  ∀ query name, queryParam query "name" = some name →
    parse query = some (name, (queryParam query "role").getD "Member")

/-- The route of `POST /members/add`; a query that is not parsed is answered without the
handler. -/
def addMemberRoute (parse : List Char → Option (String × String)) (query : List Char) :
    Proc (Reply MemberRow) :=
  match parse query with
  | none => return .error ⟨422, "Field required"⟩
  | some (name, role) => Backend.addMember name role

/-- The query of `addMember`, which sends no role. -/
def addMemberQuery (name : String) : List Char := "name=".toList ++ encodeURIComponent name

def getMembers (b : Process) : List MemberRow := (Backend.getMembers.run exec b).1.getD []

def addMember (parse : List Char → Option (String × String)) (name _role : String) (b : Process) :
    Option (MemberRow × Process) :=
  match (addMemberRoute parse (addMemberQuery name)).run exec b with
  | (some (.ok row), b') => some (row, b')
  | _ => none

def removeMember (id : Uuid) (b : Process) : Process := (Request.removeMember id).perform b

def removeMemberFaceTemplate (memberId : Uuid) (b : Process) : Process :=
  (Request.removeFaceTemplate memberId).perform b

end Http

/-! ## Both at once -/

/-- A call of `api.ts` that names a member by its two ids; `p` tells which one it is. -/
inductive Task where
  | removeMember (p : ℕ) (mockId : String) (piId : Uuid)
  | removeMemberFaceTemplate (p : ℕ) (mockId : String) (piId : Uuid)
  | getMembers
  deriving DecidableEq

/-- The `delay` of a call to the mock. -/
def Task.delay : Task → ℕ
  | .removeMember _ _ _ => 400
  | .removeMemberFaceTemplate _ _ _ => 350
  | .getMembers => 300

def addDelay : ℕ := 600

def Task.inMock (t : Task) (mockMembers : List MockMember) : List MockMember :=
  match t with
  | .removeMember _ id _ => Mock.removeMember id mockMembers
  | .removeMemberFaceTemplate _ id _ => Mock.removeMemberFaceTemplate id mockMembers
  | .getMembers => mockMembers

def Task.onPi (t : Task) (b : Process) : Process :=
  match t with
  | .removeMember _ _ id => Http.removeMember id b
  | .removeMemberFaceTemplate _ _ id => Http.removeMemberFaceTemplate id b
  | .getMembers => b

structure Call where
  task : Task
  askedAt : ℕ
  inMock : Bool
  onPi : Bool
  deriving DecidableEq

/-- A member that was there at the start or that a call to `addMember` adds, with the ids
that the stores have given it so far. -/
structure Person where
  fields : Fields
  askedAt : ℕ
  mockId : Option String
  piId : Option Uuid
  deriving DecidableEq

structure Stores where
  clock : ℕ
  mock : List MockMember
  pi : Process
  people : List Person
  calls : List Call

inductive Job where
  | add (p : ℕ)
  | call (i : ℕ)
  deriving DecidableEq

inductive StoreStep where
  | tick (now : ℕ)
  | addMember (name role : String)
  | removeMember (p : ℕ)
  | removeMemberFaceTemplate (p : ℕ)
  | getMembers
  | timer (job : Job)
  | handled (job : Job) (now : ℚ)
  deriving DecidableEq

namespace Stores

variable (s : Stores)

def ask (task : Task) : Stores :=
  { s with calls := s.calls ++ [⟨task, s.clock, false, false⟩] }

/-- Call a function on a member whose id either store has given. -/
def askFor (p : ℕ) (task : String → Uuid → Task) : Option Stores := do
  let x ← s.people[p]?
  return s.ask (task (← x.mockId) (← x.piId))

def mockAdd (p : ℕ) : Option Stores := do
  let x ← s.people[p]?
  if x.mockId = none ∧ x.askedAt + addDelay ≤ s.clock then
    let (member, mockMembers) := Mock.addMember x.fields.name x.fields.role s.clock s.mock
    return { s with
      mock := mockMembers
      people := s.people.set p { x with mockId := some member.id } }
  else none

def mockCall (i : ℕ) : Option Stores := do
  let c ← s.calls[i]?
  if c.inMock = false ∧ c.askedAt + c.task.delay ≤ s.clock then
    return { s with
      mock := c.task.inMock s.mock
      calls := s.calls.set i { c with inMock := true } }
  else none

def piAdd (parse : List Char → Option (String × String)) (p : ℕ) (now : ℚ) : Option Stores := do
  let x ← s.people[p]?
  if x.piId = none ∧ s.pi.clock ≤ now then
    let (row, pi) ← Http.addMember parse x.fields.name x.fields.role { s.pi with clock := now }
    return { s with pi, people := s.people.set p { x with piId := some row.id } }
  else none

def piCall (i : ℕ) (now : ℚ) : Option Stores := do
  let c ← s.calls[i]?
  if c.onPi = false ∧ s.pi.clock ≤ now then
    return { s with
      pi := c.task.onPi { s.pi with clock := now }
      calls := s.calls.set i { c with onPi := true } }
  else none

end Stores

def stores (parse : List Char → Option (String × String)) : Machine Stores StoreStep where
  next s
    | .tick now => if s.clock ≤ now then some { s with clock := now } else none
    | .addMember name role =>
        some { s with people := s.people ++ [⟨⟨name, role, .none⟩, s.clock, none, none⟩] }
    | .removeMember p => s.askFor p (.removeMember p)
    | .removeMemberFaceTemplate p => s.askFor p (.removeMemberFaceTemplate p)
    | .getMembers => some (s.ask .getMembers)
    | .timer (.add p) => s.mockAdd p
    | .timer (.call i) => s.mockCall i
    | .handled (.add p) now => s.piAdd parse p now
    | .handled (.call i) now => s.piCall i now

/-- The same members in both stores, each known by both of its ids, and no call yet. -/
structure SameStart (s : Stores) : Prop where
  idle : s.calls = []
  both : ∀ x ∈ s.people, x.mockId.isSome = true ∧ x.piId.isSome = true
  mock : (s.people.filterMap fun x => x.mockId.map fun id => (id, x.fields)).Perm
    (s.mock.map MockMember.entry)
  pi : (s.people.filterMap fun x => x.piId.map fun id => (id, x.fields)).Perm
    (s.pi.db.members.rows.map rowEntry)

def Quiet (s : Stores) : Prop :=
  (∀ x ∈ s.people, x.mockId ≠ none ∧ x.piId ≠ none) ∧
    ∀ c ∈ s.calls, c.inMock = true ∧ c.onPi = true

/-- The two services answer `getMembers` alike, up to ids, timestamps and order. -/
def SameMembers (s : Stores) : Prop :=
  ((Mock.getMembers s.mock).map fun m => m.entry.2).Perm
    ((Http.getMembers s.pi).map fun r => (rowEntry r).2)

/-! ## What the calls have done -/

def Task.removes (p : ℕ) : Task → Bool
  | .removeMember q _ _ => q = p
  | _ => false

def Task.clears (p : ℕ) : Task → Bool
  | .removeMemberFaceTemplate q _ _ => q = p
  | _ => false

section Lookups

variable {α β : Type} {xs : List α} {x x' : α} {f : α → Option β} {p q : ℕ} {b : β}

theorem bind_append (hx : f x = none) : (xs ++ [x])[p]?.bind f = xs[p]?.bind f := by
  rcases Nat.lt_trichotomy p xs.length with hp | hp | hp
  · rw [List.getElem?_append_left hp]
  · simp [hp, hx]
  · have hlong : (xs ++ [x])[p]? = none := by simp; omega
    have hshort : xs[p]? = none := by simp; omega
    rw [hlong, hshort]

/-- An element is replaced by one with the same property. -/
theorem bind_set (hx : xs[p]? = some x) (hf : f x' = f x) :
    (xs.set p x')[q]?.bind f = xs[q]?.bind f := by
  by_cases hq : p = q
  · subst hq
    have hlt := (List.getElem?_eq_some_iff.1 hx).1
    rw [List.getElem?_set_self hlt, hx, Option.bind_some, Option.bind_some, hf]
  · rw [List.getElem?_set_ne hq]

/-- What another element had stays. -/
theorem bind_set_of_none (hx : xs[p]? = some x) (hnone : f x = none)
    (hb : xs[q]?.bind f = some b) : (xs.set p x')[q]?.bind f = some b := by
  by_cases hq : p = q
  · subst hq
    rw [hx, Option.bind_some, hnone] at hb
    cases hb
  · rw [List.getElem?_set_ne hq, hb]

/-- What an element has after a replacement, it got there or had before. -/
theorem bind_set_cases (hp : p < xs.length) (hb : (xs.set p x')[q]?.bind f = some b) :
    (q = p ∧ f x' = some b) ∨ (q ≠ p ∧ xs[q]?.bind f = some b) := by
  by_cases hq : q = p
  · subst hq
    rw [List.getElem?_set_self hp, Option.bind_some] at hb
    exact Or.inl ⟨rfl, hb⟩
  · rw [List.getElem?_set_ne (Ne.symm hq)] at hb
    exact Or.inr ⟨hq, hb⟩

/-- Where what the elements have is distinct, it tells the element. -/
theorem eq_of_nodup_filterMap (h : (xs.filterMap f).Nodup) (hp : xs[p]?.bind f = some b)
    (hq : xs[q]?.bind f = some b) : p = q := by
  have hpair := List.pairwise_iff_getElem.1 (List.pairwise_filterMap.1 h)
  obtain ⟨x, hx, hxb⟩ := Option.bind_eq_some_iff.1 hp
  obtain ⟨y, hy, hyb⟩ := Option.bind_eq_some_iff.1 hq
  obtain ⟨hplt, hpx⟩ := List.getElem?_eq_some_iff.1 hx
  obtain ⟨hqlt, hqy⟩ := List.getElem?_eq_some_iff.1 hy
  rw [← hpx] at hxb
  rw [← hqy] at hyb
  rcases Nat.lt_trichotomy p q with hlt | heq | hlt
  · exact absurd rfl (hpair p q hplt hqlt hlt b hxb b hyb)
  · exact heq
  · exact absurd rfl (hpair q p hqlt hplt hlt b hyb b hxb)

end Lookups

section Views

variable {κ : Type}

def shown (removed cleared : Bool) (k : κ) (f : Fields) : Option (κ × Fields) :=
  if removed then none else if cleared then some (k, f.unenrolled) else some (k, f)

theorem shown_or (removed cleared a b : Bool) (k : κ) (f : Fields) :
    shown (removed || a) (cleared || b) k f =
      if a then none
      else if b then (shown removed cleared k f).map fun r => (r.1, r.2.unenrolled)
      else shown removed cleared k f := by
  cases removed <;> cases cleared <;> cases a <;> cases b <;> rfl

variable (id : Person → Option κ) (done : Call → Bool)

/-- What a store holds for a member: `id` is the member's key there, and `done` tells
which calls have taken effect in it. -/
def view (people : List Person) (calls : List Call) (p : ℕ) : Option (κ × Fields) :=
  people[p]?.bind fun x => (id x).bind fun k =>
    shown (calls.any fun c => done c && c.task.removes p)
      (calls.any fun c => done c && c.task.clears p) k x.fields

variable {id done} {people : List Person} {calls : List Call} {i p : ℕ} {x x' : Person}
  {c c' : Call} {k : κ}

theorem view_eq_none (h : people[p]?.bind id = none) : view id done people calls p = none := by
  unfold view
  cases hx : people[p]? with
  | none => rfl
  | some x =>
      rw [hx] at h
      simp only [Option.bind_some] at h ⊢
      rw [h]
      rfl

theorem key_of_view {r : κ × Fields} (h : view id done people calls p = some r) :
    people[p]?.bind id = some r.1 := by
  unfold view at h
  cases hx : people[p]? with
  | none => simp [hx] at h
  | some x =>
      cases hk : id x with
      | none => simp [hx, hk] at h
      | some k =>
          simp only [hx, hk, Option.bind_some] at h ⊢
          unfold shown at h
          split at h
          · cases h
          · split at h <;> cases h <;> rfl

/-- A call that is only asked for shows nowhere. -/
theorem view_ask (h : done c = false) :
    view id done people (calls ++ [c]) p = view id done people calls p := by
  simp [view, List.any_append, h]

theorem view_people_append (h : id x = none) :
    view id done (people ++ [x]) calls p = view id done people calls p :=
  bind_append (by rw [h]; rfl)

/-- A person changes, but not as this store knows it. -/
theorem view_set_other (hx : people[p]? = some x) (hid : id x' = id x)
    (hfields : x'.fields = x.fields) (q : ℕ) :
    view id done (people.set p x') calls q = view id done people calls q :=
  bind_set hx (by rw [hid, hfields])

theorem view_set_ne {q : ℕ} (hq : q ≠ p) :
    view id done (people.set p x') calls q = view id done people calls q := by
  simp only [view, List.getElem?_set_ne (Ne.symm hq)]

/-- No call that took effect can have named a person whose key is new. -/
theorem view_set_self (hx : people[p]? = some x) (hid : id x' = some k)
    (hnamed : ∀ c ∈ calls, c.task.removes p = false ∧ c.task.clears p = false) :
    view id done (people.set p x') calls p = some (k, x'.fields) := by
  have hlt := (List.getElem?_eq_some_iff.1 hx).1
  have hremoves : (calls.any fun c => done c && c.task.removes p) = false := by
    rw [List.any_eq_false]
    intro c hc
    simp [(hnamed c hc).1]
  have hclears : (calls.any fun c => done c && c.task.clears p) = false := by
    rw [List.any_eq_false]
    intro c hc
    simp [(hnamed c hc).2]
  simp only [view, List.getElem?_set_self hlt, Option.bind_some, hid, hremoves, hclears]
  rfl

/-- A call is put in the place of one that satisfies no more. -/
theorem any_set {f : Call → Bool} (hc : calls[i]? = some c) (hle : f c = true → f c' = true) :
    (calls.set i c').any f = (calls.any f || f c') := by
  induction calls generalizing i with
  | nil => cases hc
  | cons head rest ih =>
      cases i with
      | zero =>
          cases hc
          cases hf : f c with
          | false => simp [hf, Bool.or_comm]
          | true => simp [hle hf]
      | succ i =>
          have hrest := ih (i := i) hc
          rw [List.set_cons_succ, List.any_cons, List.any_cons, hrest, Bool.or_assoc]

theorem any_done (hc : calls[i]? = some c) (hdone : done c = false) (hdone' : done c' = true)
    (htask : c'.task = c.task) (g : Task → Bool) :
    ((calls.set i c').any fun c => done c && g c.task) =
      ((calls.any fun c => done c && g c.task) || g c.task) := by
  rw [any_set hc (by simp [hdone])]
  simp [hdone', htask]

theorem any_done_other (hc : calls[i]? = some c) (hdone : done c' = done c)
    (htask : c'.task = c.task) (g : Task → Bool) :
    ((calls.set i c').any fun c => done c && g c.task) =
      calls.any fun c => done c && g c.task := by
  have hmem : c ∈ calls := List.mem_of_getElem? hc
  rw [any_set hc (by simp [hdone, htask]), hdone, htask]
  cases hg : (done c && g c.task) with
  | false => simp
  | true =>
      have hany : (calls.any fun c => done c && g c.task) = true :=
        List.any_eq_true.2 ⟨c, hmem, hg⟩
      simp [hany]

/-- A call takes effect in the other store. -/
theorem view_done_other (hc : calls[i]? = some c) (hdone : done c' = done c)
    (htask : c'.task = c.task) (q : ℕ) :
    view id done people (calls.set i c') q = view id done people calls q := by
  simp only [view, any_done_other hc hdone htask]

/-- A call takes effect in this store. -/
theorem view_done (hc : calls[i]? = some c) (hdone : done c = false) (hdone' : done c' = true)
    (htask : c'.task = c.task) (q : ℕ) :
    view id done people (calls.set i c') q =
      if c.task.removes q then none
      else if c.task.clears q then
        (view id done people calls q).map fun r => (r.1, r.2.unenrolled)
      else view id done people calls q := by
  simp only [view, any_done hc hdone hdone' htask (Task.removes q),
    any_done hc hdone hdone' htask (Task.clears q)]
  cases people[q]? with
  | none => simp
  | some x =>
      cases hk : id x with
      | none => simp [hk]
      | some k => simp only [hk, Option.bind_some, shown_or]

section Effects

variable [DecidableEq κ] {n : ℕ} {rows : List (κ × Fields)}

/-- A removal of a member takes effect: the rows with its key are deleted. -/
theorem holding_removed (h : Holding n (view id done people calls) rows) (hc : calls[i]? = some c)
    (hdone : done c = false) (hdone' : done c' = true) (htask : c'.task = c.task)
    {mockId : String} {piId : Uuid} (hremove : c.task = .removeMember p mockId piId)
    (hkey : people[p]?.bind id = some k)
    (hother : ∀ q, q ≠ p → ∀ r, view id done people calls q = some r → r.1 ≠ k) :
    Holding n (view id done people (calls.set i c')) (rows.filter fun r => decide (r.1 ≠ k)) := by
  have hview : ∀ q, view id done people (calls.set i c') q = _ :=
    view_done hc hdone hdone' htask
  simp only [hremove] at hview
  refine h.delete (p := p) ?_ ?_ hother ?_
  · rw [hview]
    simp [Task.removes]
  · intro r hr
    exact Option.some.inj ((key_of_view hr).symm.trans hkey)
  · intro q hq
    rw [hview]
    simp [Task.removes, Task.clears, Ne.symm hq]

/-- A template removal takes effect: the rows with the member's key lose their face. -/
theorem holding_cleared (h : Holding n (view id done people calls) rows) (hc : calls[i]? = some c)
    (hdone : done c = false) (hdone' : done c' = true) (htask : c'.task = c.task)
    {mockId : String} {piId : Uuid} (hclear : c.task = .removeMemberFaceTemplate p mockId piId)
    (hkey : people[p]?.bind id = some k)
    (hother : ∀ q, q ≠ p → ∀ r, view id done people calls q = some r → r.1 = k →
      r.2.unenrolled = r.2) :
    Holding n (view id done people (calls.set i c'))
      (rows.map fun r => if r.1 = k then (r.1, r.2.unenrolled) else r) := by
  have hview : ∀ q, view id done people (calls.set i c') q = _ :=
    view_done hc hdone hdone' htask
  simp only [hclear] at hview
  refine h.update (p := p) (f := fun r => (r.1, r.2.unenrolled)) ?_ ?_ ?_ ?_
  · rw [hview]
    simp [Task.removes, Task.clears]
  · intro r hr
    exact Option.some.inj ((key_of_view hr).symm.trans hkey)
  · intro q hq r hr hk
    rw [hother q hq r hr hk]
  · intro q hq
    rw [hview]
    simp [Task.removes, Task.clears, Ne.symm hq]

omit [DecidableEq κ] in
theorem holding_read (h : Holding n (view id done people calls) rows) (hc : calls[i]? = some c)
    (hdone : done c = false) (hdone' : done c' = true) (htask : c'.task = c.task)
    (hread : c.task = .getMembers) : Holding n (view id done people (calls.set i c')) rows := by
  refine h.congr fun q => ?_
  rw [view_done hc hdone hdone' htask, hread]
  rfl

end Effects

end Views

def Stores.inMock (s : Stores) : ℕ → Option (String × Fields) :=
  view Person.mockId Call.inMock s.people s.calls

def Stores.onPi (s : Stores) : ℕ → Option (Uuid × Fields) :=
  view Person.piId Call.onPi s.people s.calls

/-! ## What the calls do to the rows -/

theorem entries_removeMember (id : String) (ms : List MockMember) :
    (Mock.removeMember id ms).map MockMember.entry =
      (ms.map MockMember.entry).filter fun r => decide (r.1 ≠ id) := by
  rw [Mock.removeMember, List.filter_map]
  rfl

theorem entries_removeMemberFaceTemplate (id : String) (ms : List MockMember) :
    (Mock.removeMemberFaceTemplate id ms).map MockMember.entry =
      (ms.map MockMember.entry).map fun r => if r.1 = id then (r.1, r.2.unenrolled) else r := by
  rw [Mock.removeMemberFaceTemplate, List.map_map, List.map_map]
  refine List.map_congr_left fun m _ => ?_
  by_cases h : m.id = id <;> simp [MockMember.entry, Fields.unenrolled, Face.none, h]

def entries (b : Process) : List (Uuid × Fields) := b.db.members.rows.map rowEntry

/-- The name goes through the URL unchanged, and the role is the default. -/
theorem addMember_eq {parse : List Char → Option (String × String)} (hparse : Http.Parses parse)
    (name role : String) (b : Process) : Http.addMember parse name role b =
      some (b.db.newMember name "Member" b.clock,
        { b with db := (b.db.addMember name "Member" b.clock).2 }) := by
  have hquery : parseQsl (Http.addMemberQuery name) = [("name", name)] := by
    have hname : ∀ c ∈ "name".toList, c ≠ '&' ∧ c ≠ '=' := by simp
    have hplain : unquotePlus "name".toList = "name" := by decide
    have hsingle := parseQsl_single hname name
    rw [hplain] at hsingle
    exact hsingle
  have hparam : queryParam (Http.addMemberQuery name) "name" = some name := by
    simp [queryParam, hquery]
  have hrole : queryParam (Http.addMemberQuery name) "role" = none := by
    simp [queryParam, hquery]
  have hparsed : parse (Http.addMemberQuery name) = some (name, "Member") := by
    rw [hparse _ name hparam, hrole]
    rfl
  simp [Http.addMember, Http.addMemberRoute, hparsed, Backend.addMember, exec, Program.run_call,
    Database.addMember]

theorem addMember_entries {b b' : Process} {name : String} {now : ℚ}
    (h : b'.db = (b.db.addMember name "Member" now).2) :
    entries b' = entries b ++ [rowEntry (b.db.newMember name "Member" now)] := by
  rw [entries, h]
  exact List.map_append

/-- A request for a member that the table does not have changes nothing. -/
theorem ne_of_mem_entries {m : Uuid} {b : Process} (h : b.db.getMember m = none)
    {r : Uuid × Fields} (hr : r ∈ entries b) : r.1 ≠ m := by
  obtain ⟨row, hrow, rfl⟩ := List.mem_map.1 hr
  intro hid
  exact Table.find?_eq_none_iff.1 h ⟨row, hrow, hid⟩

theorem removeMember_entries (m : Uuid) (b : Process) :
    entries (Http.removeMember m b) = (entries b).filter fun r => decide (r.1 ≠ m) := by
  cases h : b.db.getMember m with
  | none =>
      have hsame : (entries b).filter (fun r => decide (r.1 ≠ m)) = entries b :=
        List.filter_eq_self.2 fun r hr => by simpa using ne_of_mem_entries h hr
      rw [hsame, Http.removeMember, perform_eq]
      simp [Request.deed, Deed.apply, h]
  | some row =>
      have hrows : (Http.removeMember m b).db.members.rows =
          b.db.members.rows.filter fun r => !decide (r.id = m) := by
        rw [Http.removeMember, perform_eq]
        simp [Request.deed, Deed.apply, h, Database.deleteMember, Database.deleteFaceEncodings]
      rw [entries, hrows, entries, List.filter_map]
      refine congrArg (List.map rowEntry) (List.filter_congr fun r _ => ?_)
      rw [← decide_not]
      exact decide_eq_decide.2 Iff.rfl

theorem removeMemberFaceTemplate_entries (m : Uuid) (b : Process) :
    entries (Http.removeMemberFaceTemplate m b) =
      (entries b).map fun r => if r.1 = m then (r.1, r.2.unenrolled) else r := by
  cases h : b.db.getMember m with
  | none =>
      have hid : ∀ r ∈ entries b, (if r.1 = m then (r.1, r.2.unenrolled) else r) = id r :=
        fun r hr => if_neg (ne_of_mem_entries h hr)
      rw [(List.map_congr_left hid).trans (List.map_id _), Http.removeMemberFaceTemplate,
        perform_eq]
      simp [Request.deed, Deed.apply, h]
  | some row =>
      have hrows : (Http.removeMemberFaceTemplate m b).db.members.rows =
          b.db.members.rows.map fun r =>
            if r.id = m then Database.enrolledColumns false none b.clock r else r := by
        rw [Http.removeMemberFaceTemplate, perform_eq]
        simp [Request.deed, Deed.apply, h, Database.updateMemberFaceEnrolled,
          Database.deleteFaceEncodings]
      rw [entries, hrows, entries, List.map_map, List.map_map]
      refine List.map_congr_left fun r _ => ?_
      by_cases hr : r.id = m <;>
        simp [rowEntry, Database.enrolledColumns, Fields.unenrolled, Face.none, hr]

theorem removeMember_uuids (m : Uuid) (b : Process) :
    (Http.removeMember m b).db.uuids = b.db.uuids := by
  cases h : b.db.getMember m <;>
    simp [Http.removeMember, perform_eq, Request.deed, Deed.apply, h,
      Database.deleteMember, Database.deleteFaceEncodings]

theorem removeMemberFaceTemplate_uuids (m : Uuid) (b : Process) :
    (Http.removeMemberFaceTemplate m b).db.uuids = b.db.uuids := by
  cases h : b.db.getMember m <;>
    simp [Http.removeMemberFaceTemplate, perform_eq, Request.deed, Deed.apply, h,
      Database.updateMemberFaceEnrolled, Database.deleteFaceEncodings]

theorem getMembers_perm (b : Process) :
    (Http.getMembers b).Perm b.db.members.rows := by
  have hrun : Http.getMembers b = b.db.getAllMembers := by
    simp [Http.getMembers, Backend.getMembers, exec, Program.run_call]
  rw [hrun]
  exact List.mergeSort_perm _ _

end FacialCamera.Service
