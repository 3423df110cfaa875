import FacialCamera.Service.Stores

/-! # Agreement of the two member stores

The invariant of runs in which every member is added as "Member" and no removal in the
mock hits another member through a shared id: what each store holds is what the calls
that took effect in it leave. Two runs that leave this rule show that both parts of it
are needed.
-/

namespace FacialCamera.Service

open FacialCamera.Core Backend

/-! ## The invariant -/

def Task.named : Task → Option (ℕ × String × Uuid)
  | .removeMember p mockId piId => some (p, mockId, piId)
  | .removeMemberFaceTemplate p mockId piId => some (p, mockId, piId)
  | .getMembers => none

theorem Task.not_removes_of_named_ne {t : Task} {q : ℕ} (h : ∀ r ∈ t.named, r.1 ≠ q) :
    t.removes q = false ∧ t.clears q = false := by
  cases t with
  | removeMember p mockId piId =>
      have hne : p ≠ q := h _ rfl
      simp [Task.removes, Task.clears, hne]
  | removeMemberFaceTemplate p mockId piId =>
      have hne : p ≠ q := h _ rfl
      simp [Task.removes, Task.clears, hne]
  | getMembers => exact ⟨rfl, rfl⟩

/-- The ids of the `p`-th person, as far as they are given. -/
def mockIdOf (people : List Person) (p : ℕ) : Option String := people[p]?.bind Person.mockId

def piIdOf (people : List Person) (p : ℕ) : Option Uuid := people[p]?.bind Person.piId

structure Together (s : Stores) : Prop where
  named : ∀ c ∈ s.calls, ∀ r ∈ c.task.named,
    mockIdOf s.people r.1 = some r.2.1 ∧ piIdOf s.people r.1 = some r.2.2
  added : ∀ x ∈ s.people, x.mockId = none ∨ x.piId = none →
    x.fields = ⟨x.fields.name, "Member", .none⟩
  distinct : ∀ p q m, piIdOf s.people p = some m → piIdOf s.people q = some m → p = q
  drawn : ∀ p m, piIdOf s.people p = some m → m < s.pi.db.uuids
  mock : Holding s.people.length s.inMock (s.mock.map MockMember.entry)
  pi : Holding s.people.length s.onPi (entries s.pi)

/-- No other member that the mock holds has the id. -/
def Stores.OnlyOne (s : Stores) (p : ℕ) (id : String) : Prop :=
  ∀ q, q ≠ p → ∀ r ∈ s.inMock q, r.1 ≠ id

/-- No other member that the mock holds has the id and a face to lose. -/
def Stores.OnlyFace (s : Stores) (p : ℕ) (id : String) : Prop :=
  ∀ q, q ≠ p → ∀ r ∈ s.inMock q, r.1 = id → r.2.unenrolled = r.2

/-- A member is added as "Member", and a removal in the mock takes effect where the id is
that of the one member to lose something by it. -/
def KeepsTogether (t : Transition Stores StoreStep) : Prop :=
  match t.label with
  | .addMember _ role => role = "Member"
  | .timer (.call i) => ∀ c ∈ t.before.calls[i]?,
      match c.task with
      | .removeMember p id _ => t.before.OnlyOne p id
      | .removeMemberFaceTemplate p id _ => t.before.OnlyFace p id
      | .getMembers => True
  | _ => True

/-- The members that the mock holds are among the people. -/
theorem forall_inMock_iff {s : Stores} {P : ℕ → String × Fields → Prop} :
    (∀ q < s.people.length, ∀ r ∈ s.inMock q, P q r) ↔ ∀ q, ∀ r ∈ s.inMock q, P q r := by
  constructor
  · intro h q r hr
    obtain ⟨x, hx, _⟩ := Option.bind_eq_some_iff.1 (key_of_view hr)
    exact h q (List.getElem?_eq_some_iff.1 hx).1 r hr
  · intro h q _
    exact h q

instance (s : Stores) (p : ℕ) (id : String) : Decidable (s.OnlyOne p id) :=
  decidable_of_iff (∀ q < s.people.length, ∀ r ∈ s.inMock q, q ≠ p → r.1 ≠ id)
    (forall_inMock_iff.trans (forall_congr' fun _ =>
      ⟨fun h hq r hr => h r hr hq, fun h r hr hq => h hq r hr⟩))

instance (s : Stores) (p : ℕ) (id : String) : Decidable (s.OnlyFace p id) :=
  decidable_of_iff
    (∀ q < s.people.length, ∀ r ∈ s.inMock q, q ≠ p → r.1 = id → r.2.unenrolled = r.2)
    (forall_inMock_iff.trans (forall_congr' fun _ =>
      ⟨fun h hq r hr => h r hr hq, fun h r hr hq => h hq r hr⟩))

instance (s : Stores) (c : Call) : Decidable (match c.task with
    | .removeMember p id _ => s.OnlyOne p id
    | .removeMemberFaceTemplate p id _ => s.OnlyFace p id
    | .getMembers => True) :=
  match c.task with
  | .removeMember p id _ => inferInstanceAs (Decidable (s.OnlyOne p id))
  | .removeMemberFaceTemplate p id _ => inferInstanceAs (Decidable (s.OnlyFace p id))
  | .getMembers => inferInstanceAs (Decidable True)

instance : DecidablePred KeepsTogether
  | ⟨_, .addMember _ role, _⟩ => inferInstanceAs (Decidable (role = "Member"))
  | ⟨s, .timer (.call i), _⟩ => inferInstanceAs (Decidable (∀ c ∈ s.calls[i]?, _))
  | ⟨_, .tick _, _⟩ | ⟨_, .removeMember _, _⟩ | ⟨_, .removeMemberFaceTemplate _, _⟩
  | ⟨_, .getMembers, _⟩ | ⟨_, .timer (.add _), _⟩ | ⟨_, .handled _ _, _⟩ =>
      inferInstanceAs (Decidable True)

namespace Together

variable {s s' : Stores} {p i : ℕ} {x : Person} {c : Call}
  {parse : List Char → Option (String × String)}

theorem ask (h : Together s) (task : Task)
    (hnamed : ∀ r ∈ task.named,
      mockIdOf s.people r.1 = some r.2.1 ∧ piIdOf s.people r.1 = some r.2.2) :
    Together (s.ask task) where
  named := by
    intro c hc
    rcases List.mem_append.1 hc with hc | hc
    · exact h.named c hc
    · rw [List.mem_singleton.1 hc]
      exact hnamed
  added := h.added
  distinct := h.distinct
  drawn := h.drawn
  mock := h.mock.congr fun q => view_ask rfl
  pi := h.pi.congr fun q => view_ask rfl

theorem askFor (h : Together s) {task : String → Uuid → Task}
    (htask : ∀ id m, (task id m).named = some (p, id, m)) (hs : s.askFor p task = some s') :
    Together s' := by
  simp only [Stores.askFor, Option.bind_eq_bind, Option.bind_eq_some_iff, Option.pure_def,
    Option.some.injEq] at hs
  obtain ⟨x, hx, id, hid, m, hm, rfl⟩ := hs
  refine h.ask _ fun r hr => ?_
  rw [htask id m] at hr
  cases hr
  exact ⟨by simp [mockIdOf, hx, hid], by simp [piIdOf, hx, hm]⟩

theorem tick (h : Together s) (now : ℕ) : Together { s with clock := now } where
  named := h.named
  added := h.added
  distinct := h.distinct
  drawn := h.drawn
  mock := h.mock
  pi := h.pi

theorem addMember (h : Together s) (name : String) :
    Together { s with
      people := s.people ++ [⟨⟨name, "Member", .none⟩, s.clock, none, none⟩] } := by
  have hmock : ∀ p, mockIdOf (s.people ++ [⟨⟨name, "Member", .none⟩, s.clock, none, none⟩]) p =
      mockIdOf s.people p := fun p => bind_append rfl
  have hpi : ∀ p, piIdOf (s.people ++ [⟨⟨name, "Member", .none⟩, s.clock, none, none⟩]) p =
      piIdOf s.people p := fun p => bind_append rfl
  constructor
  case named =>
    intro c hc r hr
    simp only [hmock, hpi]
    exact h.named c hc r hr
  case added =>
    intro x hx hnone
    rcases List.mem_append.1 hx with hx | hx
    · exact h.added x hx hnone
    · rw [List.mem_singleton.1 hx]
  case distinct =>
    simp only [hpi]
    exact h.distinct
  case drawn =>
    simp only [hpi]
    exact h.drawn
  case mock =>
    rw [List.length_append, List.length_singleton]
    refine Holding.succ (h.mock.congr fun q => view_people_append rfl) ?_
    exact view_eq_none (by simp)
  case pi =>
    rw [List.length_append, List.length_singleton]
    refine Holding.succ (h.pi.congr fun q => view_people_append rfl) ?_
    exact view_eq_none (by simp)

/-- A call cannot name a person who lacks an id. -/
theorem not_named (h : Together s) (hx : s.people[p]? = some x)
    (hnone : x.mockId = none ∨ x.piId = none) (hc : c ∈ s.calls) :
    c.task.removes p = false ∧ c.task.clears p = false := by
  refine Task.not_removes_of_named_ne fun r hr hp => ?_
  have hids := h.named c hc r hr
  rw [hp] at hids
  simp only [mockIdOf, piIdOf, hx, Option.bind_some] at hids
  rcases hnone with hnone | hnone
  · rw [hnone] at hids
    cases hids.1
  · rw [hnone] at hids
    cases hids.2

/-- A person gets an id and keeps the fields. -/
theorem added_set {x' : Person} (h : Together s)
    (hfields : x'.fields = ⟨x'.fields.name, "Member", .none⟩) :
    ∀ y ∈ s.people.set p x', y.mockId = none ∨ y.piId = none →
      y.fields = ⟨y.fields.name, "Member", .none⟩ := by
  intro y hy hnone
  rcases List.mem_or_eq_of_mem_set hy with hy | rfl
  · exact h.added y hy hnone
  · exact hfields

theorem mockAdd (h : Together s) (hs : s.mockAdd p = some s') : Together s' := by
  simp only [Stores.mockAdd, Option.bind_eq_bind, Option.bind_eq_some_iff, Option.pure_def,
    Option.ite_none_right_eq_some, Option.some.injEq] at hs
  obtain ⟨x, hx, ⟨hnone, _⟩, rfl⟩ := hs
  have hlt := (List.getElem?_eq_some_iff.1 hx).1
  have hfields := h.added x (List.mem_of_getElem? hx) (Or.inl hnone)
  generalize hx' : ({ x with mockId := _ } : Person) = x'
  have hpiId : x'.piId = x.piId := by rw [← hx']
  have hsame : x'.fields = x.fields := by rw [← hx']
  have hmockId : x'.mockId = some (toString s.clock) := by rw [← hx']; rfl
  constructor
  case named =>
    intro c hc r hr
    have hids := h.named c hc r hr
    exact ⟨bind_set_of_none hx hnone hids.1, (bind_set hx hpiId).trans hids.2⟩
  case added => exact h.added_set (by rw [hsame]; exact hfields)
  case distinct =>
    intro q q' m hq hq'
    exact h.distinct q q' m ((bind_set hx hpiId).symm.trans hq) ((bind_set hx hpiId).symm.trans hq')
  case drawn =>
    intro q m hq
    exact h.drawn q m ((bind_set hx hpiId).symm.trans hq)
  case mock =>
    have hbefore : s.inMock p = none := view_eq_none (by rw [hx, Option.bind_some, hnone])
    have hafter : view Person.mockId Call.inMock (s.people.set p x') s.calls p =
        some (toString s.clock, x'.fields) :=
      view_set_self hx hmockId fun c hc => h.not_named hx (Or.inl hnone) hc
    have hrows := h.mock.insert hlt hbefore hafter fun q hq => view_set_ne hq
    have hlist : (Mock.addMember x.fields.name x.fields.role s.clock s.mock).2.map
        MockMember.entry = s.mock.map MockMember.entry ++ [(toString s.clock, x'.fields)] := by
      rw [hsame, hfields]
      simp [Mock.addMember, MockMember.entry, Face.none]
    rw [List.length_set, hlist]
    exact hrows
  case pi =>
    rw [List.length_set]
    exact h.pi.congr fun q => view_set_other hx hpiId hsame q

/-- The `p`-th person got the id that was drawn for it, or the id was given before. -/
def Given (s : Stores) (p q : ℕ) (m : Uuid) : Prop :=
  (q = p ∧ m = s.pi.db.uuids) ∨ (q ≠ p ∧ piIdOf s.people q = some m)

/-- The drawn id is above every id that was given before. -/
theorem given_unique (h : Together s) {q q' : ℕ} {m : Uuid} (hq : Given s p q m)
    (hq' : Given s p q' m) : q = q' := by
  rcases hq with ⟨hqp, hm⟩ | ⟨_, hold⟩
  · rcases hq' with ⟨hqp', _⟩ | ⟨_, hold'⟩
    · rw [hqp, hqp']
    · exact absurd hm (Nat.ne_of_lt (h.drawn q' m hold'))
  · rcases hq' with ⟨_, hm⟩ | ⟨_, hold'⟩
    · exact absurd hm (Nat.ne_of_lt (h.drawn q m hold))
    · exact h.distinct q q' m hold hold'

theorem given_drawn (h : Together s) {q : ℕ} {m : Uuid} (hq : Given s p q m) :
    m < s.pi.db.uuids + 1 := by
  rcases hq with ⟨_, hm⟩ | ⟨_, hold⟩
  · rw [hm]
    exact Nat.lt_succ_self _
  · exact Nat.lt_succ_of_lt (h.drawn q m hold)

theorem piAdd (hparse : Http.Parses parse) (h : Together s) {now : ℚ}
    (hs : s.piAdd parse p now = some s') : Together s' := by
  simp only [Stores.piAdd, addMember_eq hparse, Option.bind_eq_bind, Option.bind_eq_some_iff,
    Option.pure_def, Option.ite_none_right_eq_some, Option.some.injEq] at hs
  obtain ⟨x, hx, ⟨hnone, _⟩, out, rfl, rfl⟩ := hs
  have hlt := (List.getElem?_eq_some_iff.1 hx).1
  have hfields := h.added x (List.mem_of_getElem? hx) (Or.inr hnone)
  generalize hx' : ({ x with piId := _ } : Person) = x'
  have hmockId : x'.mockId = x.mockId := by rw [← hx']
  have hsame : x'.fields = x.fields := by rw [← hx']
  have hpiId : x'.piId = some s.pi.db.uuids := by rw [← hx']; rfl
  have hgiven : ∀ q m, piIdOf (s.people.set p x') q = some m → Given s p q m := by
    intro q m hq
    rcases bind_set_cases hlt hq with ⟨hp, hm⟩ | hold
    · exact Or.inl ⟨hp, (Option.some.inj (hpiId.symm.trans hm)).symm⟩
    · exact Or.inr hold
  constructor
  case named =>
    intro c hc r hr
    have hids := h.named c hc r hr
    exact ⟨(bind_set hx hmockId).trans hids.1, bind_set_of_none hx hnone hids.2⟩
  case added => exact h.added_set (by rw [hsame]; exact hfields)
  case distinct =>
    intro q q' m hq hq'
    exact h.given_unique (hgiven q m hq) (hgiven q' m hq')
  case drawn =>
    intro q m hq
    exact h.given_drawn (hgiven q m hq)
  case mock =>
    rw [List.length_set]
    exact h.mock.congr fun q => view_set_other hx hmockId hsame q
  case pi =>
    have hbefore : s.onPi p = none := view_eq_none (by rw [hx, Option.bind_some, hnone])
    have hafter : view Person.piId Call.onPi (s.people.set p x') s.calls p =
        some (s.pi.db.uuids, x'.fields) :=
      view_set_self hx hpiId fun c hc => h.not_named hx (Or.inr hnone) hc
    have hrows := h.pi.insert hlt hbefore hafter fun q hq => view_set_ne hq
    have hrow : rowEntry (s.pi.db.newMember x.fields.name "Member" now) =
        (s.pi.db.uuids, x'.fields) := by
      rw [hsame, hfields]
      rfl
    rw [List.length_set, addMember_entries rfl, hrow]
    exact hrows

theorem named_set {c' : Call} (h : Together s) (hc : s.calls[i]? = some c)
    (htask : c'.task = c.task) : ∀ d ∈ s.calls.set i c', ∀ r ∈ d.task.named,
      mockIdOf s.people r.1 = some r.2.1 ∧ piIdOf s.people r.1 = some r.2.2 := by
  intro d hd
  rcases List.mem_or_eq_of_mem_set hd with hd | rfl
  · exact h.named d hd
  · rw [htask]
    exact h.named c (List.mem_of_getElem? hc)

theorem mockCall (h : Together s) (hs : s.mockCall i = some s')
    (hkeeps : KeepsTogether ⟨s, .timer (.call i), s'⟩) : Together s' := by
  simp only [Stores.mockCall, Option.bind_eq_bind, Option.bind_eq_some_iff, Option.pure_def,
    Option.ite_none_right_eq_some, Option.some.injEq] at hs
  obtain ⟨c, hc, ⟨hfalse, _⟩, rfl⟩ := hs
  have halone := hkeeps c hc
  have hids := h.named c (List.mem_of_getElem? hc)
  generalize hc' : ({ c with inMock := true } : Call) = c'
  have htask : c'.task = c.task := by rw [← hc']
  have hdone : c'.inMock = true := by rw [← hc']
  have honPi : c'.onPi = c.onPi := by rw [← hc']
  constructor
  case named => exact h.named_set hc htask
  case added => exact h.added
  case distinct => exact h.distinct
  case drawn => exact h.drawn
  case pi => exact h.pi.congr fun q => view_done_other hc honPi htask q
  case mock =>
    show Holding _ (view _ _ _ _) ((c.task.inMock s.mock).map MockMember.entry)
    cases ht : c.task with
    | removeMember p id m =>
        simp only [ht] at halone
        have hkey := (hids (p, id, m) (by rw [ht]; rfl)).1
        rw [Task.inMock, entries_removeMember]
        exact holding_removed h.mock hc hfalse hdone htask ht hkey halone
    | removeMemberFaceTemplate p id m =>
        simp only [ht] at halone
        have hkey := (hids (p, id, m) (by rw [ht]; rfl)).1
        rw [Task.inMock, entries_removeMemberFaceTemplate]
        exact holding_cleared h.mock hc hfalse hdone htask ht hkey halone
    | getMembers => exact holding_read h.mock hc hfalse hdone htask ht

/-- The Pi never gives an id twice, so a deletion there takes one row. -/
theorem piCall (h : Together s) {now : ℚ} (hs : s.piCall i now = some s') : Together s' := by
  simp only [Stores.piCall, Option.bind_eq_bind, Option.bind_eq_some_iff, Option.pure_def,
    Option.ite_none_right_eq_some, Option.some.injEq] at hs
  obtain ⟨c, hc, ⟨hfalse, _⟩, rfl⟩ := hs
  have hids := h.named c (List.mem_of_getElem? hc)
  have hother : ∀ p m, piIdOf s.people p = some m → ∀ q, q ≠ p → ∀ r, s.onPi q = some r →
      r.1 ≠ m := by
    intro p m hp q hq r hr hrm
    exact hq (h.distinct q p m ((key_of_view hr).trans (by rw [hrm])) hp)
  have huuids : (c.task.onPi { s.pi with clock := now }).db.uuids = s.pi.db.uuids := by
    cases c.task with
    | removeMember p id m => exact removeMember_uuids m _
    | removeMemberFaceTemplate p id m => exact removeMemberFaceTemplate_uuids m _
    | getMembers => rfl
  generalize hc' : ({ c with onPi := true } : Call) = c'
  have htask : c'.task = c.task := by rw [← hc']
  have hdone : c'.onPi = true := by rw [← hc']
  have hinMock : c'.inMock = c.inMock := by rw [← hc']
  constructor
  case named => exact h.named_set hc htask
  case added => exact h.added
  case distinct => exact h.distinct
  case mock => exact h.mock.congr fun q => view_done_other hc hinMock htask q
  case drawn =>
    intro q m hq
    show m < (c.task.onPi { s.pi with clock := now }).db.uuids
    rw [huuids]
    exact h.drawn q m hq
  case pi =>
    show Holding _ (view _ _ _ _) (entries (c.task.onPi { s.pi with clock := now }))
    cases ht : c.task with
    | removeMember p id m =>
        have hkey := (hids (p, id, m) (by rw [ht]; rfl)).2
        rw [Task.onPi, removeMember_entries]
        exact holding_removed h.pi hc hfalse hdone htask ht hkey (hother p m hkey)
    | removeMemberFaceTemplate p id m =>
        have hkey := (hids (p, id, m) (by rw [ht]; rfl)).2
        rw [Task.onPi, removeMemberFaceTemplate_entries]
        exact holding_cleared h.pi hc hfalse hdone htask ht hkey fun q hq r hr hrm =>
          absurd hrm (hother p m hkey q hq r hr)
    | getMembers => exact holding_read h.pi hc hfalse hdone htask ht

theorem step (hparse : Http.Parses parse) (h : Together s) {l : StoreStep}
    (hs : (stores parse).next s l = some s')
    (hkeeps : KeepsTogether ⟨s, l, s'⟩) : Together s' := by
  cases l with
  | tick now =>
      simp only [stores, Option.ite_none_right_eq_some, Option.some.injEq] at hs
      rw [← hs.2]
      exact h.tick now
  | addMember name role =>
      cases hs
      have hrole : role = "Member" := hkeeps
      rw [hrole]
      exact h.addMember name
  | removeMember p =>
      exact h.askFor (fun _ _ => rfl) hs
  | removeMemberFaceTemplate p =>
      exact h.askFor (fun _ _ => rfl) hs
  | getMembers =>
      cases hs
      exact h.ask .getMembers fun _ hr => by cases hr
  | timer job =>
      cases job with
      | add p => exact h.mockAdd hs
      | call i => exact h.mockCall hs hkeeps
  | handled job now =>
      cases job with
      | add p => exact h.piAdd hparse hs
      | call i => exact h.piCall hs

theorem of_start (h : SameStart s) : Together s := by
  have hview : ∀ {κ : Type} (id : Person → Option κ) (done : Call → Bool) (q : ℕ),
      view id done s.people s.calls q =
        s.people[q]?.bind fun x => (id x).map fun k => (k, x.fields) := by
    intro κ id done q
    rw [view, h.idle]
    cases s.people[q]? with
    | none => rfl
    | some x => cases hk : id x <;> simp [hk, shown]
  have hids : (s.people.filterMap Person.piId).Perm (s.pi.db.members.rows.map MemberRow.id) := by
    have hmap := h.pi.map Prod.fst
    rw [List.map_filterMap, List.map_map] at hmap
    simpa [Option.map_map, Function.comp_def, rowEntry] using hmap
  constructor
  case named =>
    intro c hc
    rw [h.idle] at hc
    cases hc
  case added =>
    intro x hx hnone
    have hboth := h.both x hx
    rcases hnone with hnone | hnone <;> simp [hnone] at hboth
  case distinct =>
    intro p q m hp hq
    have hnodup := hids.nodup_iff.2 s.pi.db.members.keys_nodup
    exact eq_of_nodup_filterMap hnodup hp hq
  case drawn =>
    intro p m hp
    obtain ⟨x, hx, hm⟩ := Option.bind_eq_some_iff.1 hp
    have hmem := hids.subset (List.mem_filterMap.2 ⟨x, List.mem_of_getElem? hx, hm⟩)
    obtain ⟨row, hrow, rfl⟩ := List.mem_map.1 hmem
    exact s.pi.db.members_drawn row hrow
  case mock => exact (Holding.of_list h.mock).congr (hview _ _)
  case pi => exact (Holding.of_list h.pi).congr (hview _ _)

/-- When every call is through, both stores hold the same of everybody. -/
theorem sameMembers (h : Together s) (hquiet : Quiet s) : SameMembers s := by
  have hany : ∀ (done : Call → Bool) (g : Task → Bool), (∀ c ∈ s.calls, done c = true) →
      (s.calls.any fun c => done c && g c.task) = s.calls.any fun c => g c.task := by
    intro done g hdone
    rw [Bool.eq_iff_iff, List.any_eq_true, List.any_eq_true]
    exact exists_congr fun c => and_congr_right fun hc => by rw [hdone c hc, Bool.true_and]
  have hsame : ∀ q, (s.inMock q).map Prod.snd = (s.onPi q).map Prod.snd := by
    intro q
    simp only [Stores.inMock, Stores.onPi, view, hany _ _ fun c hc => (hquiet.2 c hc).1,
      hany _ _ fun c hc => (hquiet.2 c hc).2]
    cases hx : s.people[q]? with
    | none => rfl
    | some x =>
        have hids := hquiet.1 x (List.mem_of_getElem? hx)
        obtain ⟨id, hid⟩ := Option.ne_none_iff_exists'.1 hids.1
        obtain ⟨m, hm⟩ := Option.ne_none_iff_exists'.1 hids.2
        simp only [Option.bind_some, hid, hm, shown]
        split
        · rfl
        · split <;> rfl
  have hperm := h.mock.contents_perm h.pi hsame
  rw [entries, List.map_map, List.map_map] at hperm
  exact hperm.trans ((getMembers_perm s.pi).map _).symm

end Together

/-- In a run whose steps all keep the stores together, they agree whenever no call is
under way. -/
theorem sameMembers_of_keepsTogether {parse : List Char → Option (String × String)}
    (hparse : Http.Parses parse) {s₀ s : Stores} {ts : List (Transition Stores StoreStep)}
    (hstart : SameStart s₀) (r : (stores parse).Run s₀ ts s) (hkeeps : ∀ t ∈ ts, KeepsTogether t)
    (hquiet : Quiet s) : SameMembers s := by
  have htogether : Together s := r.invariant_where (C := KeepsTogether)
    (Together.of_start hstart) (fun _ _ _ h hc hnext => h.step hparse hnext hc) hkeeps
  exact htogether.sameMembers hquiet

/-! ## Three runs -/

def unused : Stores := ⟨0, [], Process.boot true none 0, [], []⟩

theorem sameStart_unused : SameStart unused where
  idle := rfl
  both := by simp [unused]
  mock := List.Perm.refl _
  pi := List.Perm.refl _

def plainParse (query : List Char) : Option (String × String) :=
  (queryParam query "name").map fun name => (name, (queryParam query "role").getD "Member")

theorem parses_plainParse : Http.Parses plainParse := fun query name hname => by
  rw [plainParse, hname]
  rfl

instance (s : Stores) : Decidable (Quiet s) := inferInstanceAs (Decidable (_ ∧ _))

def shownNames (s : Stores) : List (String × String) × List (String × String) :=
  (s.mock.map fun m => (m.name, m.role), s.pi.db.members.rows.map fun r => (r.name, r.role))

theorem perm_of_sameMembers {s : Stores} (h : SameMembers s) :
    (shownNames s).1.Perm (shownNames s).2 := by
  have hfields := h.map fun f => (f.name, f.role)
  have hrows := (getMembers_perm s.pi).map fun r => (r.name, r.role)
  rw [List.map_map, List.map_map] at hfields
  exact hfields.trans hrows

theorem sameMembers_after_removal :
    ∃ ts s, (stores plainParse).Run unused ts s ∧ Quiet s ∧ s.people.length = 2 ∧
      SameMembers s := by
  have htrace : (((stores plainParse).trace unused
      [.addMember "Ann" "Member", .addMember "Bob" "Member", .handled (.add 1) 0, .tick 600,
      .timer (.add 0), .handled (.add 0) 1, .tick 601, .timer (.add 1), .removeMember 0,
      .tick 1001, .handled (.call 0) 1, .timer (.call 0)]).map fun out =>
        (decide (Quiet out.2), decide (∀ t ∈ out.1, KeepsTogether t), out.2.people.length)) =
      some (true, true, 2) := by
    decide
  obtain ⟨ts, s, hrun, hview⟩ := Machine.exists_run_of_view htrace
  simp only [Prod.mk.injEq, decide_eq_true_eq] at hview
  obtain ⟨hquiet, hkeeps, hlength⟩ := hview
  exact ⟨ts, s, hrun, hquiet, hlength,
    sameMembers_of_keepsTogether parses_plainParse sameStart_unused hrun hkeeps hquiet⟩

/-- A role is not sent to the Pi. -/
theorem not_always_sameMembers :
    ∃ ts s, SameStart unused ∧ (stores plainParse).Run unused ts s ∧ Quiet s ∧ ¬SameMembers s := by
  have htrace : (((stores plainParse).trace unused
      [.addMember "Ann" "Admin", .tick 600, .timer (.add 0), .handled (.add 0) 1]).map
        fun out => (decide (Quiet out.2), shownNames out.2)) =
      some (true, [("Ann", "Admin")], [("Ann", "Member")]) := by
    decide
  obtain ⟨ts, s, hrun, hview⟩ := Machine.exists_run_of_view htrace
  simp only [Prod.mk.injEq, decide_eq_true_eq] at hview
  obtain ⟨hquiet, hnames⟩ := hview
  refine ⟨ts, s, sameStart_unused, hrun, hquiet, fun hsame => ?_⟩
  have hperm := perm_of_sameMembers hsame
  rw [hnames] at hperm
  exact absurd hperm (by decide)

/-- Two members whose timers end in one millisecond have one id in the mock, where the
removal of one takes both. -/
theorem one_millisecond_breaks :
    ∃ ts s, (stores plainParse).Run unused ts s ∧
      (∀ t ∈ ts, KeepsTogether t ∨ t.label = .timer (.call 0)) ∧ Quiet s ∧ ¬SameMembers s := by
  have htrace : (((stores plainParse).trace unused
      [.addMember "Ann" "Member", .addMember "Bob" "Member", .tick 600, .timer (.add 0),
      .timer (.add 1), .handled (.add 0) 1, .handled (.add 1) 1, .removeMember 0, .tick 1000,
      .timer (.call 0), .handled (.call 0) 2]).map fun out =>
        (decide (∀ t ∈ out.1, KeepsTogether t ∨ t.label = .timer (.call 0)),
          decide (Quiet out.2), shownNames out.2)) =
      some (true, true, [], [("Bob", "Member")]) := by
    decide
  obtain ⟨ts, s, hrun, hview⟩ := Machine.exists_run_of_view htrace
  simp only [Prod.mk.injEq, decide_eq_true_eq] at hview
  obtain ⟨honly, hquiet, hnames⟩ := hview
  refine ⟨ts, s, hrun, honly, hquiet, fun hsame => ?_⟩
  have hperm := perm_of_sameMembers hsame
  rw [hnames] at hperm
  exact absurd hperm (by decide)

end FacialCamera.Service
