import FacialCamera.Screen.Notifications

/-! # Read marks on the Activity screen

The screen shows the alerts of its last load and sets their marks itself when its
mark requests have succeeded. Marking all requests the unread alerts of the list
at the press, and then marks the list of that later moment. An alert shown as read
is read on the Pi as long as this later list has no other unread alert that the Pi
still counts as unread.
-/

namespace FacialCamera.Screen

open FacialCamera.Core Backend Recognition

structure ActivityScreen where
  alerts : List AlertRow := []
  logs : List LogEntry := []
  initialLoad : Bool := true

/-- What a promise of the screen is for; `all` carries `unreadAlerts`. -/
inductive Activity where
  | load
  | read (alertId : Nat)
  | all (unreadAlerts : List Nat)
  deriving DecidableEq

def Activity.requests : Activity → List ApiRequest
  | .load => [.getAlerts, .getLogs 100]
  | .read alertId => [.markAlertRead alertId]
  | .all unreadAlerts => unreadAlerts.map fun alertId : Nat => .markAlertRead alertId

inductive ActivityPress where
  | load
  | readAlert (alertId : Nat)
  | markAllAlertsRead
  deriving DecidableEq

namespace ActivityScreen

def unreadIds (p : ActivityScreen) : List Nat :=
  (p.alerts.filter fun a => !a.read).map AlertRow.id

/-- `readAlert` goes on for an unread alert whose id is not zero, and the button for all of
them is there while one is unread. -/
def press (p : ActivityScreen) : ActivityPress → Option Activity
  | .load => some .load
  | .readAlert alertId => if alertId ∈ p.unreadIds ∧ alertId ≠ 0 then some (.read alertId) else none
  | .markAllAlertsRead => if p.unreadIds = [] then none else some (.all p.unreadIds)

/-- The end of `load`, `readAlert` and `markAllAlertsRead`. -/
def complete (p : ActivityScreen) : Activity → List Body → ActivityScreen
  | .load, [.alerts rows, .logs entries] => ⟨rows, entries, false⟩
  | .load, _ => p
  | .read alertId, _ => { p with alerts := p.alerts.map (markRow alertId) }
  | .all _, _ => { p with alerts := p.alerts.map fun a => { a with read := true } }

end ActivityScreen

/-- A rejection ends the handler before it sets anything. -/
def activityClient : Client ActivityScreen ActivityPress Activity ApiRequest Body where
  act e p := (p.press e).map fun activity => (p, [(activity, activity.requests)])
  resolve activity answers p := (p.complete activity answers, [])
  reject _ p := (p, [])

abbrev Viewer : Type := Remote ActivityScreen House Activity ApiRequest Body

abbrev ViewerMove : Type := Move ActivityPress HouseTurn Surroundings

def viewing : Machine Viewer ViewerMove := remote activityClient pi

def activityOpened (onPi : Bool) (clock : Timestamp) : Viewer := .idle {} (powerOn onPi clock)

/-! ## Alerts of the Pi -/

def OnPi (h : House) (id : Nat) : Prop := ∃ row ∈ h.shared.db.alerts, row.id = id

def ReadOnPi (h : House) (id : Nat) : Prop :=
  ∃ row ∈ h.shared.db.alerts, row.id = id ∧ row.read = true

instance (h : House) (id : Nat) : Decidable (ReadOnPi h id) :=
  inferInstanceAs (Decidable (∃ row ∈ h.shared.db.alerts, row.id = id ∧ row.read = true))

/-- Every alert displayed as read is marked read on the Pi. -/
def NoneHidden (s : Viewer) : Prop :=
  ∀ a ∈ s.client.alerts, a.read = true → ReadOnPi s.server a.id

def completes (t : Transition Viewer ViewerMove) : Option Activity :=
  (t.before.arrival t.label).map Prod.fst

/-- When a mark-all completes, every unread alert on display was among those it requested or
is read on the Pi. -/
def MarksRequested (_ : List (Transition Viewer ViewerMove)) (t : Transition Viewer ViewerMove) :
    Prop :=
  ∀ unreadAlerts, completes t = some (.all unreadAlerts) →
    ∀ a ∈ t.before.client.alerts, a.read = false → a.id ∉ unreadAlerts →
      ReadOnPi t.before.server a.id

instance (us : List (Transition Viewer ViewerMove)) (t : Transition Viewer ViewerMove) :
    Decidable (MarksRequested us t) :=
  match h : completes t with
  | some (.all unreadAlerts) =>
      decidable_of_iff (∀ a ∈ t.before.client.alerts, a.read = false → a.id ∉ unreadAlerts →
        ReadOnPi t.before.server a.id) (by simp [MarksRequested, h])
  | some .load => isTrue (by simp [MarksRequested, h])
  | some (.read _) => isTrue (by simp [MarksRequested, h])
  | none => isTrue (by simp [MarksRequested, h])

variable {h h' : House} {id : Nat} {s s' : Viewer} {m : ViewerMove}

theorem OnPi.later (hid : OnPi h id) (hcontinues : Proceeds h.shared h'.shared) : OnPi h' id := by
  obtain ⟨row, hrow, rfl⟩ := hid
  obtain ⟨row', hrow', heq, _⟩ := hcontinues.alerts row hrow
  exact ⟨row', hrow', heq⟩

theorem ReadOnPi.later (hid : ReadOnPi h id) (hcontinues : Proceeds h.shared h'.shared) :
    ReadOnPi h' id := by
  obtain ⟨row, hrow, rfl, hread⟩ := hid
  obtain ⟨row', hrow', heq, hkept⟩ := hcontinues.alerts row hrow
  exact ⟨row', hrow', heq, hkept.read hread⟩

theorem Listed.onPi {rows : List AlertRow} (hlisted : Listed rows h) {a : AlertRow}
    (ha : a ∈ rows) : OnPi h a.id := by
  obtain ⟨row, hrow, heq, _⟩ := hlisted.kept a ha
  exact ⟨row, hrow, heq⟩

theorem Listed.readOnPi {rows : List AlertRow} (hlisted : Listed rows h) {a : AlertRow}
    (ha : a ∈ rows) (hread : a.read = true) : ReadOnPi h a.id := by
  obtain ⟨row, hrow, heq, hkept⟩ := hlisted.kept a ha
  exact ⟨row, hrow, heq, hkept.read hread⟩

/-- A mark request that succeeds has marked the rows of its id. -/
theorem alerts_execute_markAlertRead {seen : Surroundings} {alertId : Int} {body : Body}
    (hanswer : (execute seen (.markAlertRead alertId) h).1 = some body) :
    (execute seen (.markAlertRead alertId) h).2.shared.db.alerts =
      h.shared.db.alerts.map (markRow alertId) := by
  unfold execute at hanswer ⊢
  simp only [ApiRequest.handler, answer, Backend.markAlertRead, Db.markAlertRead, issue,
    Program.perform, Program.call_bind, Program.done_bind, Program.pure_eq_done,
    Program.run_call] at hanswer ⊢
  cases hexec : exec (.markAlertRead alertId) h.shared with
  | none =>
      rw [hexec] at hanswer
      cases hanswer
  | some out =>
      simp only [exec, Option.ite_none_right_eq_some, Option.some.injEq] at hexec
      obtain ⟨_, rfl⟩ := hexec
      rfl

theorem readOnPi_execute {seen : Surroundings} {body : Body} (hid : OnPi h id)
    (hanswer : (execute seen (.markAlertRead id) h).1 = some body) :
    ReadOnPi (execute seen (.markAlertRead id) h).2 id := by
  obtain ⟨row, hrow, rfl⟩ := hid
  refine ⟨markRow row.id row, ?_, markRow_id _ _, by simp [markRow]⟩
  rw [alerts_execute_markAlertRead hanswer]
  exact List.mem_map_of_mem hrow

/-! ## What the screen and its promises keep -/

def Sound (h : House) : ApiRequest → Option (Option Body) → Prop
  | .getAlerts, some (some body) => ∃ rows, body = .alerts rows ∧ Listed rows h
  | .markAlertRead alertId, a => ∃ id : Nat, alertId = id ∧ OnPi h id ∧
      ∀ body, a = some (some body) → ReadOnPi h id
  | _, _ => True

def ActivityKept (h : House) (activity : Activity)
    (parts : List (ApiRequest × Option (Option Body))) : Prop :=
  parts.map Prod.fst = activity.requests ∧ ∀ part ∈ parts, Sound h part.1 part.2

def Displays (p : ActivityScreen) (h : House) : Prop :=
  Registered h.shared ∧ ∀ a ∈ p.alerts, OnPi h a.id

theorem Sound.later {r : ApiRequest} {a : Option (Option Body)} (hsound : Sound h r a)
    (hcontinues : Proceeds h.shared h'.shared) : Sound h' r a := by
  unfold Sound at hsound ⊢
  split at hsound
  case h_1 body =>
    obtain ⟨rows, hbody, hlisted⟩ := hsound
    exact ⟨rows, hbody, hlisted.later hcontinues⟩
  case h_2 alertId a =>
    obtain ⟨id, halert, hid, hread⟩ := hsound
    exact ⟨id, halert, hid.later hcontinues, fun body hbody => (hread body hbody).later hcontinues⟩
  case h_3 => trivial

theorem sound_execute {seen : Surroundings} {r : ApiRequest} (hrecorded : Registered h.shared)
    (hsound : Sound h r none) : Sound (execute seen r h).2 r (some (execute seen r h).1) := by
  cases r with
  | getAlerts => exact ⟨_, rfl, listed_getAlerts hrecorded⟩
  | markAlertRead alertId =>
      obtain ⟨id, rfl, hid, _⟩ := hsound
      refine ⟨id, rfl, hid.later (continues_execute seen _ h), fun body hbody => ?_⟩
      exact readOnPi_execute hid (Option.some.inj hbody)
  | _ => trivial

theorem ActivityKept.later {activity : Activity}
    {parts : List (ApiRequest × Option (Option Body))} (hkept : ActivityKept h activity parts)
    (hcontinues : Proceeds h.shared h'.shared) : ActivityKept h' activity parts :=
  ⟨hkept.1, fun part hpart => (hkept.2 part hpart).later hcontinues⟩

theorem Displays.later {p : ActivityScreen} (hdisplays : Displays p h)
    (hcontinues : Proceeds h.shared h'.shared) : Displays p h' :=
  ⟨hcontinues.recorded hdisplays.1, fun a ha => (hdisplays.2 a ha).later hcontinues⟩

theorem mem_unreadIds {p : ActivityScreen} :
    id ∈ p.unreadIds ↔ ∃ a ∈ p.alerts, a.read = false ∧ a.id = id := by
  simp [ActivityScreen.unreadIds, and_assoc]

/-- A mark is requested for a displayed alert. -/
theorem activityKept_press {p : ActivityScreen} (hdisplays : Displays p h) {e : ActivityPress}
    {activity : Activity} (hpress : p.press e = some activity) :
    ActivityKept h activity (activity.requests.map fun r => (r, none)) := by
  have hmark : ∀ id ∈ p.unreadIds, Sound h (.markAlertRead id) none := by
    intro id hid
    obtain ⟨a, ha, _, rfl⟩ := mem_unreadIds.mp hid
    exact ⟨a.id, rfl, hdisplays.2 a ha, fun body hbody => by cases hbody⟩
  refine ⟨by simp [Function.comp_def], fun part hpart => ?_⟩
  obtain ⟨r, hr, rfl⟩ := List.mem_map.mp hpart
  cases e with
  | load =>
      cases hpress
      simp only [Activity.requests, List.mem_cons, List.not_mem_nil, or_false] at hr
      rcases hr with rfl | rfl <;> trivial
  | readAlert alertId =>
      obtain ⟨hshown, hactivity⟩ := Option.ite_none_right_eq_some.mp hpress
      cases hactivity
      rw [List.mem_singleton.mp hr]
      exact hmark alertId hshown.1
  | markAllAlertsRead =>
      obtain ⟨_, hactivity⟩ := Option.ite_none_left_eq_some.mp hpress
      cases hactivity
      obtain ⟨id, hid, rfl⟩ := List.mem_map.mp hr
      exact hmark id hid

/-- A load that completes shows an answer of the alert route. -/
theorem listed_of_load {parts : List (ApiRequest × Option (Option Body))} {answers : List Body}
    {rows : List AlertRow} {entries : List LogEntry} (hkept : ActivityKept h .load parts)
    (hanswers : Exchange.results parts = some answers)
    (hload : answers = [.alerts rows, .logs entries]) : Listed rows h := by
  subst hload
  have hall := Exchange.forall₂_of_results hanswers
  cases hall with
  | @cons part _ rest _ hfirst hrest =>
      have hrequest : part.1 = .getAlerts := (List.cons.inj hkept.1).1
      have hsound := hkept.2 part List.mem_cons_self
      rw [hrequest, hfirst] at hsound
      obtain ⟨_, hbody, hlisted⟩ := hsound
      cases hbody
      exact hlisted

/-- The alerts that a completed promise has marked are read on the Pi. -/
theorem readOnPi_of_answered {activity : Activity}
    {parts : List (ApiRequest × Option (Option Body))} {answers : List Body}
    (hkept : ActivityKept h activity parts) (hanswers : Exchange.results parts = some answers)
    (hid : .markAlertRead (id : Int) ∈ activity.requests) : ReadOnPi h id := by
  rw [← hkept.1] at hid
  obtain ⟨⟨r, a⟩, hpart, rfl⟩ := List.mem_map.mp hid
  obtain ⟨body, rfl⟩ := Exchange.answered_of_results hanswers hpart
  obtain ⟨id', heq, _, hread⟩ := hkept.2 _ hpart
  cases Int.ofNat.inj heq
  exact hread body rfl

theorem displays_complete {p : ActivityScreen} (hdisplays : Displays p h) {activity : Activity}
    {parts : List (ApiRequest × Option (Option Body))} {answers : List Body}
    (hkept : ActivityKept h activity parts) (hanswers : Exchange.results parts = some answers) :
    Displays (p.complete activity answers) h := by
  refine ⟨hdisplays.1, fun a ha => ?_⟩
  unfold ActivityScreen.complete at ha
  split at ha
  case h_1 rows entries => exact (listed_of_load hkept hanswers rfl).onPi ha
  case h_2 => exact hdisplays.2 a ha
  case h_3 alertId _ =>
    obtain ⟨b, hb, rfl⟩ := List.mem_map.mp ha
    rw [markRow_id]
    exact hdisplays.2 b hb
  case h_4 =>
    obtain ⟨b, hb, rfl⟩ := List.mem_map.mp ha
    exact hdisplays.2 b hb

theorem upheld_activity : Remote.Upheld activityClient pi Displays ActivityKept where
  act p h e out hdisplays hact := by
    obtain ⟨activity, hpress, rfl⟩ := Option.map_eq_some_iff.mp hact
    refine ⟨hdisplays, fun new hnew => ?_⟩
    rw [List.mem_singleton.mp hnew]
    exact activityKept_press hdisplays hpress
  own p h turn h' hdisplays hnext :=
    ⟨hdisplays.later (continues_step hnext), fun _ _ hkept => hkept.later (continues_step hnext)⟩
  execute p h seen r hdisplays := by
    have hcontinues := continues_execute seen r h
    refine ⟨hdisplays.later hcontinues, fun activity parts hkept => ⟨hkept.later hcontinues, ?_⟩⟩
    intro j hj
    refine ⟨(Exchange.map_fst_answer _ _ _).trans hkept.1, fun part hpart => ?_⟩
    rcases Exchange.mem_answer hj hpart with rfl | hpart
    · exact sound_execute hdisplays.1 (hkept.2 _ (List.mem_of_getElem? hj))
    · exact (hkept.2 part hpart).later hcontinues
  resolve p h activity parts answers hdisplays hkept hanswers :=
    ⟨displays_complete hdisplays hkept hanswers, fun new hnew => by cases hnew⟩
  reject p h activity parts hdisplays _ := ⟨hdisplays, fun new hnew => by cases hnew⟩

/-! ## What a completed promise does to the display -/

/-- Exactly a mark-all can show an alert as read that the Pi does not have so. -/
theorem noneHidden_complete {p : ActivityScreen} {activity : Activity}
    {parts : List (ApiRequest × Option (Option Body))} {answers : List Body}
    (hkept : ActivityKept h activity parts) (hanswers : Exchange.results parts = some answers)
    (hhonest : ∀ a ∈ p.alerts, a.read = true → ReadOnPi h a.id) :
    (∀ a ∈ (p.complete activity answers).alerts, a.read = true → ReadOnPi h a.id) ↔
      ∀ unreadAlerts, activity = .all unreadAlerts → ∀ a ∈ p.alerts, a.read = false →
        a.id ∉ unreadAlerts → ReadOnPi h a.id := by
  cases activity with
  | load =>
      refine iff_of_true (fun a ha hread => ?_) fun _ heq => by cases heq
      unfold ActivityScreen.complete at ha
      split at ha
      case h_1 rows entries => exact (listed_of_load hkept hanswers rfl).readOnPi ha hread
      case h_2 => exact hhonest a ha hread
      case h_3 heq => cases heq
      case h_4 heq => cases heq
  | read alertId =>
      refine iff_of_true (fun a ha hread => ?_) fun _ heq => by cases heq
      obtain ⟨b, hb, rfl⟩ := List.mem_map.mp ha
      rw [markRow_id]
      by_cases hid : (b.id : Int) = alertId
      · cases Int.ofNat.inj hid
        exact readOnPi_of_answered hkept hanswers (List.mem_singleton_self _)
      · rw [markRow, if_neg hid] at hread
        exact hhonest b hb hread
  | all unreadAlerts =>
      constructor
      · intro hall _ _ a ha _ _
        exact hall { a with read := true } (List.mem_map_of_mem ha) rfl
      · intro hrequested b hb _
        obtain ⟨a, ha, rfl⟩ := List.mem_map.mp hb
        by_cases hcaptured : a.id ∈ unreadAlerts
        · exact readOnPi_of_answered hkept hanswers (List.mem_map_of_mem hcaptured)
        · cases hread : a.read with
          | true => exact hhonest a ha hread
          | false => exact hrequested unreadAlerts rfl a ha hread hcaptured

theorem noneHidden_later {p : ActivityScreen} (hcontinues : Proceeds h.shared h'.shared)
    (hhonest : ∀ a ∈ p.alerts, a.read = true → ReadOnPi h a.id) :
    ∀ a ∈ p.alerts, a.read = true → ReadOnPi h' a.id := fun a ha hread =>
  (hhonest a ha hread).later hcontinues

/-- One move shows a hidden alert exactly if it completes a mark-all with one. -/
theorem noneHidden_step (hholds : Remote.Holds Displays ActivityKept s)
    (hnext : viewing.next s m = some s') (hhonest : NoneHidden s)
    (us : List (Transition Viewer ViewerMove)) :
    NoneHidden s' ↔ MarksRequested us ⟨s, m, s'⟩ := by
  cases Remote.moves_of_next hnext with
  | act hact =>
      obtain ⟨activity, _, rfl⟩ := Option.map_eq_some_iff.mp hact
      exact iff_of_true hhonest fun _ heq => by cases heq
  | own hown =>
      exact iff_of_true (noneHidden_later (continues_step hown) hhonest) fun _ heq => by cases heq
  | @execute i j seen ex r _ _ =>
      exact iff_of_true (noneHidden_later (continues_execute seen r s.server) hhonest)
        fun _ heq => by cases heq
  | reject => exact iff_of_true hhonest fun _ heq => by cases heq
  | @resolve i ex answers hex _ hanswers =>
      have hkept := hholds.promises ex (List.mem_of_getElem? hex)
      have hcompletes (after : Viewer) : completes ⟨s, .resolve i, after⟩ = some ex.tag := by
        simp [completes, Remote.arrival, hex, hanswers]
      refine (noneHidden_complete hkept hanswers hhonest).trans ?_
      simp only [MarksRequested, hcompletes, Option.some.injEq]

/-- The screen never hides an alert if and only if every mark-all that completes has
requested what it marks. -/
theorem noneHidden_iff {onPi : Bool} {clock : Timestamp} {ts : List (Transition Viewer ViewerMove)}
    (hrun : viewing.Run (activityOpened onPi clock) ts s) :
    Machine.Throughout (fun _ s => NoneHidden s) (activityOpened onPi clock) ts ↔
      Machine.EachStep MarksRequested ts := by
  refine hrun.throughout_iff (fun a ha => by cases ha) fun us s m s' hus hhonest hnext => ?_
  have hholds : Remote.Holds Displays ActivityKept s :=
    upheld_activity.run ⟨recorded_boot onPi clock, fun a ha => by cases ha⟩ hus
  exact noneHidden_step hholds hnext hhonest us

def loadMoves (i : Nat) : List ViewerMove :=
  [.act .load, .execute i 0 nobody, .execute i 1 nobody, .resolve i]

/-- All alerts are marked, a load shows a new one, and it is marked too before the marks
return. -/
theorem noneHidden_markAll_readAlert : ∃ ts s, viewing.Run (activityOpened false 0) ts s ∧
    Machine.Throughout (fun _ s => NoneHidden s) (activityOpened false 0) ts ∧
      s.client.alerts.map (fun a => (a.id, a.read)) = [(2, true), (1, true)] := by
  have hend : (viewing.trace (activityOpened false 0)
      (ringMoves ++ loadMoves 0 ++ [.act .markAllAlertsRead] ++ ringMoves ++ loadMoves 2 ++
        [.act (.readAlert 2), .execute 3 0 nobody, .resolve 3, .execute 1 0 nobody,
          .resolve 1])).map (fun (ts, s) =>
        (decide (Machine.EachStep MarksRequested ts),
          s.client.alerts.map fun a => (a.id, a.read))) =
      some (true, [(2, true), (1, true)]) := by
    decide +kernel
  obtain ⟨ts, s, hrun, hview⟩ := Machine.exists_run_of_view hend
  obtain ⟨hsteps, halerts⟩ := Prod.mk.inj hview
  exact ⟨ts, s, hrun, (noneHidden_iff hrun).mpr (of_decide_eq_true hsteps), halerts⟩

/-- The same without the second mark: the new alert is shown as read. -/
theorem not_always_noneHidden :
    ¬ ∀ (ts : List (Transition Viewer ViewerMove)) (s : Viewer),
      viewing.Run (activityOpened false 0) ts s → NoneHidden s := by
  intro halways
  have hend : (viewing.trace (activityOpened false 0)
      (ringMoves ++ loadMoves 0 ++ [.act .markAllAlertsRead] ++ ringMoves ++ loadMoves 2 ++
        [.execute 1 0 nobody, .resolve 1])).map (fun (_, s) =>
        (s.client.alerts, decide (ReadOnPi s.server 2))) =
      some ([⟨2, 0, .doorbellNoFace, true⟩, ⟨1, 0, .doorbellNoFace, true⟩], false) := by
    decide +kernel
  obtain ⟨ts, s, hrun, hview⟩ := Machine.exists_run_of_view hend
  obtain ⟨halerts, hunread⟩ := Prod.mk.inj hview
  have hread := halways ts s hrun ⟨2, 0, .doorbellNoFace, true⟩
    (by rw [halerts]; exact List.mem_cons_self) rfl
  exact of_decide_eq_false hunread hread

end FacialCamera.Screen
