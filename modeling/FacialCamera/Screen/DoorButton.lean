import FacialCamera.Recognition.Interleaved

/-! # A button that turns the lock over

A screen displays whether the door is locked, commands the opposite when the
button is pressed, and turns its display over when the command has succeeded.
Status polls and the doorbell set the display meanwhile. Whether it ends on the
commanded state depends on the last value that was set in between.
-/

namespace FacialCamera.Screen

open FacialCamera.Core Backend Recognition

/-- `locked ? await unlockDoor() : await lockDoor()`. -/
def doorCommand (locked : Bool) : ApiRequest := if locked then .doorUnlock else .doorLock

/-- A client with such a button: what it displays, whether a command is under way, the value
displayed at the press of a command, and the values that its other promises set. -/
structure DoorButton {γ ε τ : Type} (C : Client γ ε τ ApiRequest Body) where
  locked : γ → Bool
  toggling : γ → Bool
  pressed : τ → Option Bool
  sets : τ → List Body → Option Bool
  act : ∀ e c out, C.act e c = some out → locked out.1 = locked c ∧
    ((toggling out.1 = toggling c ∧ ∀ new ∈ out.2, pressed new.1 = none) ∨
      (toggling c = false ∧ toggling out.1 = true ∧ ∃ tag, pressed tag = some (locked c) ∧
        out.2 = [(tag, [doorCommand (locked c)])]))
  set : ∀ tag bs c, pressed tag = none →
    locked (C.resolve tag bs c).1 = (sets tag bs).getD (locked c) ∧
      toggling (C.resolve tag bs c).1 = toggling c ∧
      ∀ new ∈ (C.resolve tag bs c).2, pressed new.1 = none
  turn : ∀ tag bs c l, pressed tag = some l →
    locked (C.resolve tag bs c).1 = !locked c ∧ toggling (C.resolve tag bs c).1 = false ∧
      (C.resolve tag bs c).2 = []
  reject : ∀ tag c, locked (C.reject tag c).1 = locked c ∧
    toggling (C.reject tag c).1 = (if (pressed tag).isSome then false else toggling c) ∧
      ∀ new ∈ (C.reject tag c).2, pressed new.1 = none

variable {γ ε τ : Type} {C : Client γ ε τ ApiRequest Body}

abbrev Doorway (γ τ : Type) : Type := Remote γ House τ ApiRequest Body

abbrev DoorwayMove (ε : Type) : Type := Move ε HouseTurn Surroundings

namespace DoorButton

variable (b : DoorButton C) (us : List (Transition (Doorway γ τ) (DoorwayMove ε)))
  (t : Transition (Doorway γ τ) (DoorwayMove ε))

/-- The command that a transition completes: its promise and the value displayed at its
press. -/
def completed : Option (Nat × Bool) :=
  match t.label with
  | .resolve i => t.before.exchanges[i]?.bind fun ex => (b.pressed ex.tag).map fun l => (i, l)
  | _ => none

def applied : Option Bool :=
  (t.before.arrival t.label).bind fun out =>
    if (b.pressed out.1).isSome then none else b.sets out.1 out.2

def appliedSince (i : Nat) : List Bool :=
  (us.filter fun t => i < t.before.exchanges.length).filterMap b.applied

/-- The state of the door right after request `i` was executed. -/
def putOnPi (i : Nat) : Option Bool :=
  (us.filterMap fun t =>
    match t.label with
    | .execute k _ _ => if k = i then some t.after.server.shared.db.doorLocked else none
    | _ => none).getLast?

/-- Right after a command has succeeded the display equals the state that the command put on
the Pi, and the next press commands the opposite. -/
def ShowsCommand : Prop :=
  ∀ i l, b.completed t = some (i, l) →
    putOnPi us i = some (b.locked t.after.client) ∧
      doorCommand (b.locked t.after.client) = doorCommand !l

/-- When a command succeeds, the last value set since its press is the one displayed then. -/
def KeptSincePress : Prop :=
  ∀ i l, b.completed t = some (i, l) → ∀ v ∈ (b.appliedSince us i).getLast?, v = l

instance : Decidable (b.KeptSincePress us t) :=
  match h : b.completed t with
  | none => isTrue (by simp [KeptSincePress, h])
  | some (i, l) =>
      decidable_of_iff (∀ v ∈ (b.appliedSince us i).getLast?.toList, v = l)
        (by simp [KeptSincePress, h])

/-! ## One more transition -/

variable {us t}

theorem appliedSince_snoc {i : Nat} (hi : i < t.before.exchanges.length) :
    b.appliedSince (us ++ [t]) i = b.appliedSince us i ++ (b.applied t).toList := by
  rw [appliedSince, List.filter_append, List.filterMap_append, List.filter_cons_of_pos (by simpa)]
  cases happlied : b.applied t <;> simp [appliedSince, happlied]

theorem appliedSince_snoc_of_none {i : Nat} (h : b.applied t = none) :
    b.appliedSince (us ++ [t]) i = b.appliedSince us i := by
  rw [appliedSince, List.filter_append, List.filterMap_append]
  by_cases hi : i < t.before.exchanges.length <;> simp [appliedSince, hi, h]

theorem getLast?_appliedSince_snoc {i : Nat} (hi : i < t.before.exchanges.length) (l : Bool) :
    (b.appliedSince (us ++ [t]) i).getLast?.getD l =
      (b.applied t).getD ((b.appliedSince us i).getLast?.getD l) := by
  rw [b.appliedSince_snoc hi]
  cases b.applied t <;> simp

theorem putOnPi_snoc_of_execute {i j : Nat} {x : Surroundings}
    {s s' : Doorway γ τ} :
    putOnPi (us ++ [(⟨s, .execute i j x, s'⟩ : Transition (Doorway γ τ) (DoorwayMove ε))]) i =
      some s'.server.shared.db.doorLocked := by
  simp [putOnPi]

theorem putOnPi_snoc_of_ne {i : Nat} (h : ∀ j x, t.label ≠ .execute i j x) :
    putOnPi (us ++ [t]) i = putOnPi us i := by
  obtain ⟨s, m, s'⟩ := t
  cases m with
  | execute k j x =>
      have hne : k ≠ i := fun heq => h j x (heq ▸ rfl)
      simp [putOnPi, hne]
  | _ => simp [putOnPi]

theorem applied_of_resolve {i : Nat} {ex : Exchange τ ApiRequest Body} {bs : List Body}
    {s s' : Doorway γ τ} (hex : s.exchanges[i]? = some ex)
    (hbs : Exchange.results ex.parts = some bs) :
    b.applied (⟨s, .resolve i, s'⟩ : Transition (Doorway γ τ) (DoorwayMove ε)) =
      if (b.pressed ex.tag).isSome then none else b.sets ex.tag bs := by
  simp [applied, Remote.arrival, hex, hbs]

/-- A command leaves the door as it says. -/
theorem doorLocked_execute (seen : Surroundings) (l : Bool) (h : House) :
    (execute seen (doorCommand l) h).2.shared.db.doorLocked = !l := by
  cases l <;> rfl

/-! ## What a history says of the commands -/

/-- Of the commands in `s`: what they sent and put on the Pi, that at most one is open, and
that the display is then the last value set since its press. -/
structure Tracks (us : List (Transition (Doorway γ τ) (DoorwayMove ε))) (s : Doorway γ τ) :
    Prop where
  past : ∀ u ∈ us, u.before.exchanges.length ≤ s.exchanges.length
  sent : ∀ i ex l, s.exchanges[i]? = some ex → b.pressed ex.tag = some l →
    ∃ a, ex.parts = [(doorCommand l, a)] ∧ ∀ body, a = some (some body) →
      putOnPi us i = some !l
  pending : ∀ i ex l, s.exchanges[i]? = some ex → b.pressed ex.tag = some l →
    ex.settled = false → b.toggling s.client = true ∧
      b.locked s.client = (b.appliedSince us i).getLast?.getD l
  single : ∀ (i j : Nat) (ex ex' : Exchange τ ApiRequest Body), s.exchanges[i]? = some ex →
    s.exchanges[j]? = some ex' → (b.pressed ex.tag).isSome → (b.pressed ex'.tag).isSome →
    ex.settled = false → ex'.settled = false → i = j

variable {b} {s s' : Doorway γ τ} {m : DoorwayMove ε}

theorem tracks_idle (c : γ) (h : House) :
    b.Tracks ([] : List (Transition (Doorway γ τ) (DoorwayMove ε))) (.idle c h) := by
  refine ⟨fun u hu => ?_, fun i ex l hex => ?_, fun i ex l hex => ?_, fun i j ex ex' hex => ?_⟩
  · cases hu
  · simp [Remote.idle] at hex
  · simp [Remote.idle] at hex
  · simp [Remote.idle] at hex

theorem Tracks.past_snoc (h : b.Tracks us s)
    (hlength : s.exchanges.length ≤ s'.exchanges.length) :
    ∀ u ∈ us ++ [(⟨s, m, s'⟩ : Transition (Doorway γ τ) (DoorwayMove ε))],
      u.before.exchanges.length ≤ s'.exchanges.length := by
  intro u hu
  rcases List.mem_append.mp hu with hu | hu
  · exact (h.past u hu).trans hlength
  · rw [List.mem_singleton.mp hu]
    exact hlength

/-- A promise that is not there yet has nothing set since. -/
theorem Tracks.appliedSince_new (h : b.Tracks us s) {i : Nat} (hi : s.exchanges.length ≤ i) :
    b.appliedSince us i = [] := by
  have hnone : us.filter (fun t => i < t.before.exchanges.length) = [] := by
    refine List.filter_eq_nil_iff.mpr fun u hu => ?_
    have hpast := h.past u hu
    simp only [decide_eq_true_eq]
    omega
  rw [appliedSince, hnone]
  rfl

theorem tracks_own {server : House} {turn : HouseTurn} (h : b.Tracks us s) :
    b.Tracks (us ++ [⟨s, .own turn, { s with server }⟩]) { s with server } := by
  refine ⟨h.past_snoc (Nat.le_refl _), fun i ex l hex hl => ?_, fun i ex l hex hl hopen => ?_,
    h.single⟩
  · obtain ⟨a, hparts, hput⟩ := h.sent i ex l hex hl
    refine ⟨a, hparts, fun body hbody => ?_⟩
    rw [putOnPi_snoc_of_ne (by simp)]
    exact hput body hbody
  · rw [appliedSince_snoc_of_none b (by rfl)]
    exact h.pending i ex l hex hl hopen

theorem tracks_execute {i j : Nat} {x : Surroundings} {ex : Exchange τ ApiRequest Body}
    {r : ApiRequest} (h : b.Tracks us s) (hex : s.exchanges[i]? = some ex)
    (hpart : ex.parts[j]? = some (r, none)) :
    b.Tracks (us ++ [⟨s, .execute i j x, s.executed i j ex (pi.execute x r s.server)⟩])
      (s.executed i j ex (pi.execute x r s.server)) := by
  refine ⟨h.past_snoc (by simp [Remote.executed]), fun k ex' l hk hl => ?_,
    fun k ex' l hk hl hopen => ?_, fun k k' ex' ex'' hk hk' hl hl' hopen hopen' => ?_⟩
  · rcases Remote.getElem?_executed hk with ⟨rfl, rfl⟩ | ⟨hne, hk⟩
    · obtain ⟨a, hparts, _⟩ := h.sent k ex l hex hl
      rw [hparts] at hpart
      cases j with
      | succ j => cases hpart
      | zero =>
          cases hpart
          refine ⟨_, by rw [hparts]; rfl, fun _ _ => ?_⟩
          rw [putOnPi_snoc_of_execute]
          exact congrArg some (doorLocked_execute x l s.server)
    · obtain ⟨a, hparts, hput⟩ := h.sent k ex' l hk hl
      refine ⟨a, hparts, fun body hbody => ?_⟩
      rw [putOnPi_snoc_of_ne (by simp [Ne.symm hne])]
      exact hput body hbody
  · rw [appliedSince_snoc_of_none b (by rfl)]
    rcases Remote.getElem?_executed hk with ⟨rfl, rfl⟩ | ⟨_, hk⟩
    · exact h.pending k ex l hex hl hopen
    · exact h.pending k ex' l hk hl hopen
  · rcases Remote.getElem?_executed hk with ⟨rfl, rfl⟩ | ⟨_, hold⟩ <;>
      rcases Remote.getElem?_executed hk' with ⟨rfl, rfl⟩ | ⟨_, hold'⟩
    · rfl
    · exact h.single _ _ _ _ hex hold' hl hl' hopen hopen'
    · exact h.single _ _ _ _ hold hex hl hl' hopen hopen'
    · exact h.single _ _ _ _ hold hold' hl hl' hopen hopen'

theorem putOnPi_act {s s' : Doorway γ τ} {e : ε} {i : Nat} :
    putOnPi (us ++ [(⟨s, .act e, s'⟩ : Transition (Doorway γ τ) (DoorwayMove ε))]) i =
      putOnPi us i :=
  putOnPi_snoc_of_ne (by simp)

theorem appliedSince_act {s s' : Doorway γ τ} {e : ε} {i : Nat} :
    b.appliedSince (us ++ [(⟨s, .act e, s'⟩ : Transition (Doorway γ τ) (DoorwayMove ε))]) i =
      b.appliedSince us i :=
  appliedSince_snoc_of_none b rfl

/-- The client goes on and the button is not pressed: the commands stay. -/
theorem tracks_act_quiet {e : ε} {out : γ × List (τ × List ApiRequest)} (h : b.Tracks us s)
    (hlocked : b.locked out.1 = b.locked s.client)
    (htoggling : b.toggling out.1 = b.toggling s.client)
    (hquiet : ∀ new ∈ out.2, b.pressed new.1 = none) :
    b.Tracks (us ++ [⟨s, .act e, s.issue out⟩]) (s.issue out) := by
  have hold {i : Nat} {ex : Exchange τ ApiRequest Body}
      (hex : (s.issue out).exchanges[i]? = some ex) (hl : (b.pressed ex.tag).isSome) :
      s.exchanges[i]? = some ex := by
    rcases Remote.getElem?_issue hex with hex | ⟨_, new, hnew, rfl⟩
    · exact hex
    · simp [Exchange.start, hquiet new hnew] at hl
  refine ⟨h.past_snoc (by simp [Remote.issue]), fun i ex l hex hl => ?_,
    fun i ex l hex hl hopen => ?_,
    fun i j ex ex' hex hex' hl hl' => h.single i j ex ex' (hold hex hl) (hold hex' hl') hl hl'⟩
  · rw [putOnPi_act]
    exact h.sent i ex l (hold hex (by simp [hl])) hl
  · rw [appliedSince_act]
    have hpending := h.pending i ex l (hold hex (by simp [hl])) hl hopen
    exact ⟨htoggling.trans hpending.1, hlocked.trans hpending.2⟩

/-- The button is pressed. It was enabled, so no older command is open. -/
theorem tracks_act_press {e : ε} {out : γ × List (τ × List ApiRequest)} {tag : τ}
    (h : b.Tracks us s) (hlocked : b.locked out.1 = b.locked s.client)
    (hidle : b.toggling s.client = false) (htoggling : b.toggling out.1 = true)
    (htag : b.pressed tag = some (b.locked s.client))
    (hout : out.2 = [(tag, [doorCommand (b.locked s.client)])]) :
    b.Tracks (us ++ [⟨s, .act e, s.issue out⟩]) (s.issue out) := by
  have hnew {i : Nat} {ex : Exchange τ ApiRequest Body}
      (hex : (s.issue out).exchanges[i]? = some ex) (hl : (b.pressed ex.tag).isSome)
      (hopen : ex.settled = false) :
      i = s.exchanges.length ∧ ex = .start tag [doorCommand (b.locked s.client)] := by
    have hlt : i < s.exchanges.length + 1 := by
      have hlength := (List.getElem?_eq_some_iff.mp hex).1
      simpa [Remote.issue, hout] using hlength
    rcases Remote.getElem?_issue hex with hex | ⟨hle, new, hmem, rfl⟩
    · obtain ⟨l, hl⟩ := Option.isSome_iff_exists.mp hl
      have hbusy := (h.pending i ex l hex hl hopen).1
      rw [hidle] at hbusy
      cases hbusy
    · rw [hout] at hmem
      rw [List.mem_singleton.mp hmem]
      exact ⟨by omega, rfl⟩
  refine ⟨h.past_snoc (by simp [Remote.issue]), fun i ex l hex hl => ?_,
    fun i ex l hex hl hopen => ?_, fun i j ex ex' hex hex' hl hl' hopen hopen' => ?_⟩
  · rw [putOnPi_act]
    rcases Remote.getElem?_issue hex with hold | ⟨_, new, hmem, rfl⟩
    · exact h.sent i ex l hold hl
    · rw [hout] at hmem
      cases List.mem_singleton.mp hmem
      cases htag.symm.trans hl
      exact ⟨none, rfl, fun body hbody => by cases hbody⟩
  · obtain ⟨rfl, rfl⟩ := hnew hex (by simp [hl]) hopen
    cases htag.symm.trans hl
    rw [appliedSince_act, h.appliedSince_new (Nat.le_refl _)]
    exact ⟨htoggling, hlocked⟩
  · rw [(hnew hex hl hopen).1, (hnew hex' hl' hopen').1]

/-- The client goes on: its old commands stay, and a new one has been pressed. -/
theorem tracks_act {e : ε} {out : γ × List (τ × List ApiRequest)} (h : b.Tracks us s)
    (hact : C.act e s.client = some out) :
    b.Tracks (us ++ [⟨s, .act e, s.issue out⟩]) (s.issue out) := by
  obtain ⟨hlocked, hquiet | hpressed⟩ := b.act e s.client out hact
  · exact tracks_act_quiet h hlocked hquiet.1 hquiet.2
  · obtain ⟨hidle, htoggling, tag, htag, hout⟩ := hpressed
    exact tracks_act_press h hlocked hidle htoggling htag hout

/-- A promise settles and issues no command; what is left to show is the display of the
commands still open. -/
theorem tracks_settle {i : Nat} {ex : Exchange τ ApiRequest Body}
    {out : γ × List (τ × List ApiRequest)} (h : b.Tracks us s) (hex : s.exchanges[i]? = some ex)
    (hquiet : ∀ new ∈ out.2, b.pressed new.1 = none) (hm : ∀ k j x, m ≠ .execute k j x)
    (hdisplay : ∀ k ex' l, k ≠ i → s.exchanges[k]? = some ex' → b.pressed ex'.tag = some l →
      ex'.settled = false → b.toggling out.1 = true ∧ b.locked out.1 =
        (b.appliedSince (us ++ [⟨s, m, (s.settle i ex).issue out⟩]) k).getLast?.getD l) :
    b.Tracks (us ++ [⟨s, m, (s.settle i ex).issue out⟩]) ((s.settle i ex).issue out) := by
  have hlength : s.exchanges.length ≤ ((s.settle i ex).issue out).exchanges.length := by
    simp [Remote.issue, Remote.settle]
  have hold {k : Nat} {ex' : Exchange τ ApiRequest Body}
      (hk : ((s.settle i ex).issue out).exchanges[k]? = some ex')
      (hl : (b.pressed ex'.tag).isSome) :
      (k = i ∧ ex' = { ex with settled := true }) ∨ (k ≠ i ∧ s.exchanges[k]? = some ex') := by
    rcases Remote.getElem?_issue hk with hk | ⟨_, new, hnew, rfl⟩
    · exact Remote.getElem?_settle hk
    · simp [Exchange.start, hquiet new hnew] at hl
  have hopen' {k : Nat} {ex' : Exchange τ ApiRequest Body}
      (hk : ((s.settle i ex).issue out).exchanges[k]? = some ex')
      (hl : (b.pressed ex'.tag).isSome) (hopen : ex'.settled = false) :
      k ≠ i ∧ s.exchanges[k]? = some ex' := by
    rcases hold hk hl with ⟨_, rfl⟩ | hk
    · cases hopen
    · exact hk
  refine ⟨h.past_snoc hlength, fun k ex' l hk hl => ?_, fun k ex' l hk hl hopen => ?_,
    fun k j ex' ex'' hk hj hl hl' hopen hopenj => ?_⟩
  · rw [putOnPi_snoc_of_ne (hm k)]
    rcases hold hk (by simp [hl]) with ⟨rfl, rfl⟩ | ⟨_, hk⟩
    · exact h.sent k ex l hex hl
    · exact h.sent k ex' l hk hl
  · have hk := hopen' hk (by simp [hl]) hopen
    exact hdisplay k ex' l hk.1 hk.2 hl hopen
  · exact h.single k j ex' ex'' (hopen' hk hl hopen).2 (hopen' hj hl' hopenj).2 hl hl' hopen hopenj

theorem tracks_resolve {i : Nat} {ex : Exchange τ ApiRequest Body} {bs : List Body}
    (h : b.Tracks us s) (hex : s.exchanges[i]? = some ex) (hopen : ex.settled = false)
    (hbs : Exchange.results ex.parts = some bs) :
    b.Tracks (us ++ [⟨s, .resolve i, (s.settle i ex).issue (C.resolve ex.tag bs s.client)⟩])
      ((s.settle i ex).issue (C.resolve ex.tag bs s.client)) := by
  cases hpressed : b.pressed ex.tag with
  | none =>
      have hset := b.set ex.tag bs s.client hpressed
      refine tracks_settle h hex hset.2.2 (by simp) fun k ex' l _ hk hl hopen' => ?_
      have hpending := h.pending k ex' l hk hl hopen'
      have hlt : k < s.exchanges.length := (List.getElem?_eq_some_iff.mp hk).1
      rw [b.getLast?_appliedSince_snoc hlt, b.applied_of_resolve hex hbs, hpressed, ← hpending.2]
      exact ⟨hset.2.1.trans hpending.1, hset.1⟩
  | some l =>
      -- The command was the only open one.
      have hturn := b.turn ex.tag bs s.client l hpressed
      refine tracks_settle h hex (fun new hnew => ?_) (by simp) fun k ex' l' hne hk hl hopen' => ?_
      · rw [hturn.2.2] at hnew
        cases hnew
      · exact absurd (h.single k i ex' ex hk hex (by simp [hl]) (by simp [hpressed]) hopen' hopen)
          hne

theorem tracks_reject {i : Nat} {ex : Exchange τ ApiRequest Body} (h : b.Tracks us s)
    (hex : s.exchanges[i]? = some ex) (hopen : ex.settled = false) :
    b.Tracks (us ++ [⟨s, .reject i, (s.settle i ex).issue (C.reject ex.tag s.client)⟩])
      ((s.settle i ex).issue (C.reject ex.tag s.client)) := by
  have hreject := b.reject ex.tag s.client
  refine tracks_settle h hex hreject.2.2 (by simp) fun k ex' l hne hk hl hopen' => ?_
  have hpending := h.pending k ex' l hk hl hopen'
  rw [appliedSince_snoc_of_none b rfl, ← hpending.2]
  refine ⟨?_, hreject.1⟩
  rw [hreject.2.1]
  cases hpressed : b.pressed ex.tag with
  | none => exact hpending.1
  | some l' =>
      exact absurd (h.single k i ex' ex hk hex (by simp [hl]) (by simp [hpressed]) hopen' hopen) hne

theorem tracks_of_run {c : γ} {h : House} (hrun : (remote C pi).Run (.idle c h) us s) :
    b.Tracks us s := by
  induction hrun with
  | nil => exact tracks_idle c h
  | snoc _ hnext ih =>
      cases Remote.moves_of_next hnext with
      | act hact => exact tracks_act ih hact
      | own _ => exact tracks_own ih
      | execute hex hpart => exact tracks_execute ih hex hpart
      | resolve hex hopen hbs => exact tracks_resolve ih hex hopen hbs
      | reject hex hopen => exact tracks_reject ih hex hopen

/-- The button shows what it commanded exactly if the display was at the answer what it was
at the press. -/
theorem showsCommand_iff {c : γ} {h : House} {ts : List (Transition (Doorway γ τ) (DoorwayMove ε))}
    (hrun : (remote C pi).Run (.idle c h) ts s) :
    Machine.EachStep b.ShowsCommand ts ↔ Machine.EachStep b.KeptSincePress ts := by
  induction hrun with
  | nil => exact iff_of_true (fun us t hus => by simp at hus) fun us t hus => by simp at hus
  | @snoc ts s s' m hts hnext ih =>
      rw [Machine.eachStep_snoc, Machine.eachStep_snoc, ih]
      refine and_congr_right fun _ => forall_congr' fun i => forall_congr' fun l => ?_
      refine imp_congr_right fun hcompleted => ?_
      have htracks : b.Tracks ts s := tracks_of_run hts
      cases Remote.moves_of_next hnext with
      | @resolve k ex bs hex hopen hbs =>
          obtain ⟨ex', hex', hpressed⟩ := Option.bind_eq_some_iff.mp hcompleted
          cases hex.symm.trans hex'
          obtain ⟨_, hl, heq⟩ := Option.map_eq_some_iff.mp hpressed
          cases heq
          obtain ⟨a, hparts, hput⟩ := htracks.sent i ex l hex hl
          have hlast := (htracks.pending i ex l hex hl hopen).2
          have hturned := (b.turn ex.tag bs s.client l hl).1
          have hpart : (doorCommand l, a) ∈ ex.parts := by
            rw [hparts]
            exact List.mem_singleton_self _
          obtain ⟨body, hbody⟩ := Exchange.answered_of_results hbs hpart
          rw [hput body hbody]
          show (some (!l) = some (b.locked (C.resolve ex.tag bs s.client).1) ∧
            doorCommand (b.locked (C.resolve ex.tag bs s.client).1) = doorCommand !l) ↔ _
          rw [hturned, hlast]
          cases (b.appliedSince ts i).getLast? with
          | none => simp
          | some v => cases v <;> cases l <;> simp [doorCommand]
      | _ => cases hcompleted

end DoorButton

end FacialCamera.Screen
