import FacialCamera.Core.Text
import FacialCamera.Screen.Activity

/-! # The timeline of the Activity screen

Alerts and log entries are listed together, sorted by the milliseconds of their
timestamps, newest first. The sort is stable, so a filter shows the answer of its own
route unchanged exactly if the timestamps of this answer agree with its order. They do
where the clock of the Pi is not set back and no row is inserted between the clock
reading of another one and its INSERT.
-/

namespace FacialCamera.Screen

open FacialCamera.Core Backend Recognition

/-! ## Stable sorting -/

section Stable

variable {α : Type} {le : α → α → Bool}

/-- The elements of a kind stay as they are among themselves exactly if they were in order
before the stable sort. -/
theorem filter_mergeSort_iff (htrans : ∀ a b c, le a b → le b c → le a c)
    (htotal : ∀ a b, le a b || le b a) (p : α → Bool) {l : List α} :
    (l.mergeSort le).filter p = l.filter p ↔ (l.filter p).Pairwise fun a b => le a b := by
  constructor
  · intro h
    rw [← h]
    exact (List.pairwise_mergeSort htrans htotal l).sublist List.filter_sublist
  · intro hsorted
    have hsub : (l.filter p).Sublist (l.mergeSort le) :=
      List.sublist_mergeSort htrans htotal hsorted List.filter_sublist
    have hkept : (l.filter p).Sublist ((l.mergeSort le).filter p) := by
      simpa using hsub.filter p
    have hlength := ((List.mergeSort_perm l le).filter p).length_eq
    exact (hkept.eq_of_length hlength.symm).symm

end Stable

/-! ## The items -/

namespace Colors

def accent : String := "#3B82F6"
def green : String := "#34D399"
def red : String := "#F87171"
def amber : String := "#FBBF24"
def textSecondary : String := "#94A3B8"
def textTertiary : String := "#475569"

end Colors

inductive Filter where
  | all
  | alerts
  | access
  deriving DecidableEq

inductive ItemKind where
  | alert
  | log
  deriving DecidableEq

structure ActivityItem where
  id : String
  kind : ItemKind
  timestamp : Timestamp
  title : String
  read : Option Bool := none
  alertId : Option Nat := none
  logId : Option Nat := none
  icon : String
  color : String
  chipLabel : String
  confidence : Option ℚ := none
  hasSnapshot : Option Bool := none
  deriving DecidableEq

structure LogStyle where
  icon : String
  color : String
  chipLabel : String
  deriving DecidableEq

/-- `LOG_STYLES`, which has every type of the log. -/
def logStyle : LogType → LogStyle
  | .authorized => ⟨"checkmark-circle", Colors.green, "Authorized"⟩
  | .unknown => ⟨"alert-circle", Colors.red, "Unknown"⟩
  | .motion => ⟨"walk", Colors.accent, "Motion"⟩
  | .manualLock => ⟨"lock-closed", Colors.textSecondary, "Manual"⟩
  | .doorbell => ⟨"notifications", Colors.amber, "Doorbell"⟩

/-- `fixed2` is the format of the confidence in a label. -/
def alertItem (fixed2 : ℚ → String) (a : AlertRow) : ActivityItem where
  id := "alert-" ++ toString a.id
  kind := .alert
  timestamp := a.timestamp
  title := a.label.text fixed2
  read := some a.read
  alertId := some a.id
  icon := "warning"
  color := if a.read then Colors.textTertiary else Colors.red
  chipLabel := if a.read then "Read" else "Unread"

def logItem (l : LogEntry) : ActivityItem where
  id := "log-" ++ toString l.id
  kind := .log
  timestamp := l.timestamp
  title := if l.name = "" then (logStyle l.type).chipLabel else l.name
  logId := some l.id
  icon := (logStyle l.type).icon
  color := (logStyle l.type).color
  chipLabel := (logStyle l.type).chipLabel
  confidence := l.confidence
  hasSnapshot := some l.hasSnapshot

/-- `getTime` of the parsed text, which keeps whole milliseconds. -/
def getTime (t : Timestamp) : Int := ⌊t * 1000⌋

/-- The comparison does not put `b` before `a`. -/
def inOrder (a b : ActivityItem) : Bool := decide (getTime b.timestamp ≤ getTime a.timestamp)

namespace ActivityScreen

def merged (fixed2 : ℚ → String) (p : ActivityScreen) : List ActivityItem :=
  p.alerts.map (alertItem fixed2) ++ p.logs.map logItem

/-- `merged.sort(...)`, which is stable. -/
def items (fixed2 : ℚ → String) (p : ActivityScreen) : List ActivityItem :=
  (p.merged fixed2).mergeSort inOrder

def filtered (fixed2 : ℚ → String) (p : ActivityScreen) : Filter → List ActivityItem
  | .all => p.items fixed2
  | .alerts => (p.items fixed2).filter fun i => i.kind = .alert
  | .access => (p.items fixed2).filter fun i => i.kind = .log

end ActivityScreen

/-- No row has a later millisecond than the one before. -/
def Descending {α : Type} (timestamp : α → Timestamp) (rows : List α) : Prop :=
  rows.Pairwise fun a b => getTime (timestamp b) ≤ getTime (timestamp a)

structure Distinct (p : ActivityScreen) : Prop where
  alerts : (p.alerts.map AlertRow.id).Nodup
  logs : (p.logs.map LogEntry.id).Nodup

/-- The newest first: ids go down, and no timestamp is later than the one before. -/
def NewestFirst {α : Type} (id : α → Nat) (timestamp : α → Timestamp) (rows : List α) : Prop :=
  rows.Pairwise fun a b => id b < id a ∧ timestamp b ≤ timestamp a

structure Chronological (p : ActivityScreen) : Prop where
  alerts : NewestFirst AlertRow.id AlertRow.timestamp p.alerts
  logs : NewestFirst LogEntry.id LogEntry.timestamp p.logs

/-- What the timeline of a screen shows, whatever its timestamps are. -/
structure Timeline (fixed2 : ℚ → String) (p : ActivityScreen) : Prop where
  complete : (p.items fixed2).Perm (p.merged fixed2)
  newest : (p.items fixed2).Pairwise fun a b => getTime b.timestamp ≤ getTime a.timestamp
  keys : ((p.items fixed2).map ActivityItem.id).Nodup
  alerts : p.filtered fixed2 .alerts = p.alerts.map (alertItem fixed2) ↔
    Descending AlertRow.timestamp p.alerts
  access : p.filtered fixed2 .access = p.logs.map logItem ↔ Descending LogEntry.timestamp p.logs
  tie : ∀ a ∈ p.alerts, ∀ l ∈ p.logs, getTime l.timestamp ≤ getTime a.timestamp →
    [alertItem fixed2 a, logItem l].Sublist (p.items fixed2)

/-! ## Sorted lists -/

variable {fixed2 : ℚ → String} {p : ActivityScreen}

theorem getTime_mono {t t' : Timestamp} (h : t ≤ t') : getTime t ≤ getTime t' :=
  Int.floor_le_floor (by linarith)

theorem inOrder_trans (a b c : ActivityItem) (hab : inOrder a b) (hbc : inOrder b c) :
    inOrder a c := by
  simp only [inOrder, decide_eq_true_eq] at hab hbc ⊢
  exact hbc.trans hab

theorem inOrder_total (a b : ActivityItem) : inOrder a b || inOrder b a := by
  simp only [inOrder, Bool.or_eq_true, decide_eq_true_eq]
  exact le_total _ _

/-- The items of one kind are in order before the sort exactly if the rows are. -/
theorem inOrder_map_iff {α : Type} {timestamp : α → Timestamp} {rows : List α}
    {item : α → ActivityItem} (hitem : ∀ a, (item a).timestamp = timestamp a) :
    ((rows.map item).Pairwise fun a b => inOrder a b) ↔ Descending timestamp rows := by
  simp [List.pairwise_map, inOrder, hitem, Descending]

theorem NewestFirst.descending {α : Type} {id : α → Nat} {timestamp : α → Timestamp}
    {rows : List α} (hrows : NewestFirst id timestamp rows) : Descending timestamp rows :=
  hrows.imp fun hab => getTime_mono hab.2

theorem NewestFirst.nodup {α : Type} {id : α → Nat} {timestamp : α → Timestamp} {rows : List α}
    (hrows : NewestFirst id timestamp rows) : (rows.map id).Nodup :=
  List.pairwise_map.mpr (hrows.imp fun hab => Nat.ne_of_gt hab.1)

theorem Chronological.distinct (hp : Chronological p) : Distinct p :=
  ⟨hp.alerts.nodup, hp.logs.nodup⟩

theorem filter_alerts : (p.merged fixed2).filter (fun i => i.kind = .alert) =
    p.alerts.map (alertItem fixed2) := by
  simp [ActivityScreen.merged, List.filter_map, Function.comp_def, alertItem, logItem]

theorem filter_logs : (p.merged fixed2).filter (fun i => i.kind = .log) = p.logs.map logItem := by
  simp [ActivityScreen.merged, List.filter_map, Function.comp_def, alertItem, logItem]

theorem nodup_keys {α : Type} {id : α → Nat} {rows : List α} {key : α → String} {kind : String}
    (hkey : ∀ a, key a = kind ++ toString (id a)) (hrows : (rows.map id).Nodup) :
    (rows.map key).Nodup := by
  refine List.pairwise_map.mpr ((List.pairwise_map.mp hrows).imp fun {a b} hab heq => hab ?_)
  rw [hkey, hkey] at heq
  exact toString_inj (String.append_right_inj _ |>.mp heq)

theorem keys_merged (hp : Distinct p) :
    ((p.merged fixed2).map ActivityItem.id).Nodup := by
  have halerts : (p.alerts.map fun a => (alertItem fixed2 a).id).Nodup :=
    nodup_keys (fun _ => rfl) hp.alerts
  have hlogs : (p.logs.map fun l => (logItem l).id).Nodup := nodup_keys (fun _ => rfl) hp.logs
  simp only [ActivityScreen.merged, List.map_append, List.map_map, Function.comp_def]
  refine halerts.append hlogs fun key halert hlog => ?_
  obtain ⟨a, _, rfl⟩ := List.mem_map.mp halert
  obtain ⟨l, _, heq⟩ := List.mem_map.mp hlog
  have hfirst := congrArg (fun s => s.toList.head?) heq
  simp [alertItem, logItem] at hfirst

theorem Distinct.timeline (hp : Distinct p) : Timeline fixed2 p where
  complete := List.mergeSort_perm _ _
  newest := by
    have hsorted := List.pairwise_mergeSort inOrder_trans inOrder_total (p.merged fixed2)
    exact hsorted.imp fun {a b} hab => by simpa [inOrder] using hab
  keys := ((List.mergeSort_perm _ _).map ActivityItem.id).nodup_iff.mpr (keys_merged hp)
  alerts := by
    have hstable := filter_mergeSort_iff inOrder_trans inOrder_total (fun i => i.kind = .alert)
      (l := p.merged fixed2)
    rw [filter_alerts] at hstable
    exact hstable.trans (inOrder_map_iff fun _ => rfl)
  access := by
    have hstable := filter_mergeSort_iff inOrder_trans inOrder_total (fun i => i.kind = .log)
      (l := p.merged fixed2)
    rw [filter_logs] at hstable
    exact hstable.trans (inOrder_map_iff fun _ => rfl)
  tie a ha l hl hle := by
    refine List.pair_sublist_mergeSort inOrder_trans inOrder_total ?_ ?_
    · simpa [inOrder, alertItem, logItem] using hle
    · have halert : [alertItem fixed2 a].Sublist (p.alerts.map (alertItem fixed2)) :=
        List.singleton_sublist.mpr (List.mem_map_of_mem ha)
      exact halert.append (List.singleton_sublist.mpr (List.mem_map_of_mem hl))

/-! ## The order of the tables -/

/-- The alerts are in the order of their timestamps too: a row is stamped where it is inserted,
by a clock that never goes back. -/
structure Dated (b : Process) : Prop where
  registered : Registered b
  ordered : b.db.alerts.Pairwise fun r r' => r.timestamp ≤ r'.timestamp
  past : ∀ r ∈ b.db.alerts, r.timestamp ≤ b.clock

theorem dated_boot (onPi : Bool) (clock : Timestamp) : Dated (Process.boot onPi none clock) :=
  ⟨recorded_boot onPi clock, List.Pairwise.nil, fun _ hr => by cases hr⟩

variable {b b' : Process}

theorem Dated.later (h : Dated b) (hdb : b'.db = b.db) (hclock : b.clock ≤ b'.clock) :
    Dated b' := by
  refine ⟨h.registered.later hdb hclock, hdb ▸ h.ordered, fun r hr => ?_⟩
  exact (h.past r (hdb ▸ hr)).trans hclock

@[simp] theorem markRow_timestamp (alertId : Int) (r : AlertRow) :
    (markRow alertId r).timestamp = r.timestamp := (alertKept_markRow alertId r).timestamp

theorem Dated.exec {c : Call} {r : Answer c} (h : Dated b)
    (hexec : Backend.exec c b = some (r, b')) : Dated b' := by
  have hclock := Door.exec_clock hexec
  have hregistered := h.registered.exec hexec
  cases exec_alerts hexec with
  | same heq => exact ⟨hregistered, heq ▸ h.ordered, heq ▸ hclock ▸ h.past⟩
  | added label heq =>
      refine ⟨hregistered, ?_, fun row hrow => ?_⟩
      · rw [heq, List.pairwise_append]
        refine ⟨h.ordered, List.pairwise_singleton _ _, fun old hold new hnew => ?_⟩
        rw [List.mem_singleton.mp hnew]
        exact h.past old hold
      · rw [heq] at hrow
        rw [hclock]
        rcases List.mem_append.mp hrow with hold | hnew
        · exact h.past row hold
        · rw [List.mem_singleton.mp hnew]
  | marked alertId heq =>
      refine ⟨hregistered, ?_, fun row hrow => ?_⟩
      · rw [heq]
        exact List.pairwise_map.mpr (by simpa using h.ordered)
      · rw [heq] at hrow
        obtain ⟨old, hold, rfl⟩ := List.mem_map.mp hrow
        rw [markRow_timestamp, hclock]
        exact h.past old hold

theorem Dated.ready {start : Process} {e : Event} (h : Dated b)
    (hready : e.ready b = some start) : Dated start := by
  cases e <;> simp only [Event.ready, Option.ite_none_right_eq_some, Option.some.injEq] at hready
  case wait clock =>
    obtain ⟨hclock, rfl⟩ := hready
    exact h.later rfl hclock
  case fire i =>
    obtain ⟨_, rfl⟩ := hready
    exact h.later rfl le_rfl
  case request | motion =>
    subst hready
    exact h

theorem Dated.run {α : Type} (h : Dated b) (p : Proc α) : Dated (p.run Backend.exec b).2 :=
  (Program.calls_true p).run_rel (I := Backend.exec) (R := fun b b' => Dated b → Dated b')
    (fun _ => id) (fun _ _ _ hab hbc ha => hbc (hab ha)) (fun _ _ _ _ _ hexec hb => hb.exec hexec)
    b h

variable {h h' : House}

theorem dated_step {turn : HouseTurn} (hdated : Dated h.shared)
    (hnext : interleaved.next h turn = some h') : Dated h'.shared := by
  cases turn with
  | start e =>
      obtain ⟨b, hready, rfl⟩ := Option.map_eq_some_iff.mp hnext
      rw [Pool.spawn_shared]
      exact hdated.ready hready
  | step i =>
      obtain ⟨who, c, k, q, spec⟩ := Pool.stepAt_spec hnext
      rcases spec.result with ⟨_, _, hsame⟩ | ⟨r, hexec, _⟩
      · exact hsame ▸ hdated
      · exact hdated.exec hexec
  | restart onPi clock =>
      obtain ⟨hclock, hboot⟩ := Option.ite_none_right_eq_some.mp hnext
      cases hboot
      exact hdated.later rfl hclock

theorem dated_execute (seen : Surroundings) (r : ApiRequest) (hdated : Dated h.shared) :
    Dated (execute seen r h).2.shared := by
  rw [execute_shared]
  exact hdated.run _

/-! ## What the screen is answered -/

theorem newestFirst_reverse {α : Type} {id : α → Nat} {timestamp : α → Timestamp} {rows : List α}
    (hserial : Serial id rows) (hordered : rows.Pairwise fun r r' => timestamp r ≤ timestamp r') :
    NewestFirst id timestamp rows.reverse := by
  have hids : rows.Pairwise fun r r' => id r < id r' := by
    have hsorted : (rows.map id).Pairwise (· < ·) := by
      rw [hserial]
      exact List.pairwise_lt_range'
    exact List.pairwise_map.mp hsorted
  refine List.pairwise_reverse.mpr ((hids.and hordered).imp fun h => h)

theorem newestFirst_getLogs (hdated : Dated b) (limit : Int) :
    NewestFirst LogEntry.id LogEntry.timestamp (b.db.getLogs limit) := by
  have hall : NewestFirst LogEntry.id LogEntry.timestamp (b.db.logs.reverse.map LogRow.entry) := by
    have hrows := newestFirst_reverse hdated.registered.logs hdated.registered.ordered
    exact List.pairwise_map.mpr hrows
  unfold Database.getLogs
  split
  · exact hall
  · exact hall.sublist (List.take_sublist _ _)

/-- A log request that is answered lists the log. -/
theorem logs_execute {seen : Surroundings} {limit : Int} {body : Body}
    (hanswer : (execute seen (.getLogs limit) h).1 = some body) :
    body = .logs (h.shared.db.getLogs limit) := by
  unfold execute at hanswer
  simp only [ApiRequest.handler, answer, Backend.getLogs, Db.getLogs, issue, Program.perform,
    Program.call_bind, Program.done_bind, Program.pure_eq_done, Program.run_call] at hanswer
  cases hexec : exec (.getLogs limit) h.shared with
  | none =>
      rw [hexec] at hanswer
      cases hanswer
  | some out =>
      rw [hexec] at hanswer
      obtain ⟨_, hout⟩ := Option.ite_none_right_eq_some.mp hexec
      cases hout
      exact (Option.some.inj hanswer).symm

def Ordered : ApiRequest → Option (Option Body) → Prop
  | .getAlerts, some (some body) =>
      ∃ rows, body = .alerts rows ∧ NewestFirst AlertRow.id AlertRow.timestamp rows
  | .getLogs _, some (some body) =>
      ∃ entries, body = .logs entries ∧ NewestFirst LogEntry.id LogEntry.timestamp entries
  | _, _ => True

theorem ordered_execute (seen : Surroundings) (r : ApiRequest) (hdated : Dated h.shared) :
    Ordered r (some (execute seen r h).1) := by
  cases r with
  | getAlerts =>
      exact ⟨_, rfl, newestFirst_reverse hdated.registered.alerts hdated.ordered⟩
  | getLogs limit =>
      cases hanswer : (execute seen (.getLogs limit) h).1 with
      | none => trivial
      | some body => exact ⟨_, logs_execute hanswer, newestFirst_getLogs hdated limit⟩
  | _ => trivial

def AnswersOrdered (_ : House) (activity : Activity)
    (parts : List (ApiRequest × Option (Option Body))) : Prop :=
  parts.map Prod.fst = activity.requests ∧ ∀ part ∈ parts, Ordered part.1 part.2

theorem answersOrdered_start (activity : Activity) :
    AnswersOrdered h activity (activity.requests.map fun r => (r, none)) := by
  refine ⟨by simp [Function.comp_def], fun part hpart => ?_⟩
  obtain ⟨r, _, rfl⟩ := List.mem_map.mp hpart
  cases r <;> trivial

theorem chronological_load {parts : List (ApiRequest × Option (Option Body))}
    {answers : List Body} {rows : List AlertRow} {entries : List LogEntry}
    (hkept : AnswersOrdered h .load parts) (hanswers : Exchange.results parts = some answers)
    (hload : answers = [.alerts rows, .logs entries]) : Chronological ⟨rows, entries, false⟩ := by
  subst hload
  obtain ⟨hrequests, hordered⟩ := hkept
  have hall := Exchange.forall₂_of_results hanswers
  cases hall with
  | @cons first _ rest _ hfirst hrest =>
  cases hrest with
  | @cons second _ _ _ hsecond hnil =>
      cases hnil
      obtain ⟨halerts, hlogs⟩ := List.cons.inj hrequests
      have halertsOrdered := hordered first List.mem_cons_self
      have hlogsOrdered := hordered second (List.mem_cons_of_mem _ List.mem_cons_self)
      rw [halerts, hfirst] at halertsOrdered
      rw [(List.cons.inj hlogs).1, hsecond] at hlogsOrdered
      obtain ⟨_, hrows, halertsFirst⟩ := halertsOrdered
      obtain ⟨_, hentries, hlogsFirst⟩ := hlogsOrdered
      cases hrows
      cases hentries
      exact ⟨halertsFirst, hlogsFirst⟩

/-- A mark changes neither ids nor timestamps. -/
theorem Chronological.mark {f : AlertRow → AlertRow} (hp : Chronological p)
    (hf : ∀ a, (f a).id = a.id ∧ (f a).timestamp = a.timestamp) :
    Chronological { p with alerts := p.alerts.map f } := by
  refine ⟨List.pairwise_map.mpr (hp.alerts.imp fun {a b} hab => ?_), hp.logs⟩
  rw [(hf a).1, (hf a).2, (hf b).1, (hf b).2]
  exact hab

theorem chronological_complete {activity : Activity}
    {parts : List (ApiRequest × Option (Option Body))} {answers : List Body}
    (hp : Chronological p) (hkept : AnswersOrdered h activity parts)
    (hanswers : Exchange.results parts = some answers) :
    Chronological (p.complete activity answers) := by
  unfold ActivityScreen.complete
  split
  case h_1 rows entries => exact chronological_load hkept hanswers rfl
  case h_2 => exact hp
  case h_3 alertId _ => exact hp.mark fun a => ⟨markRow_id _ _, markRow_timestamp _ _⟩
  case h_4 => exact hp.mark fun a => ⟨rfl, rfl⟩

theorem upheld_timeline :
    Remote.Upheld activityClient pi (fun p h => Dated h.shared ∧ Chronological p)
      AnswersOrdered where
  act p h e out hsides hact := by
    obtain ⟨activity, _, rfl⟩ := Option.map_eq_some_iff.mp hact
    refine ⟨hsides, fun new hnew => ?_⟩
    rw [List.mem_singleton.mp hnew]
    exact answersOrdered_start activity
  own p h turn h' hsides hnext := ⟨⟨dated_step hsides.1 hnext, hsides.2⟩, fun _ _ hkept => hkept⟩
  execute p h seen r hsides := by
    refine ⟨⟨dated_execute seen r hsides.1, hsides.2⟩, fun activity parts hkept => ⟨hkept, ?_⟩⟩
    intro j hj
    refine ⟨(Exchange.map_fst_answer _ _ _).trans hkept.1, fun part hpart => ?_⟩
    rcases Exchange.mem_answer hj hpart with rfl | hpart
    · exact ordered_execute seen r hsides.1
    · exact hkept.2 part hpart
  resolve p h activity parts answers hsides hkept hanswers :=
    ⟨⟨hsides.1, chronological_complete hsides.2 hkept hanswers⟩, fun new hnew => by cases hnew⟩
  reject p h activity parts hsides _ := ⟨hsides, fun new hnew => by cases hnew⟩

/-- Whatever the order of presses, answers and failures, and whatever the house does
meanwhile, the timeline lists what was loaded once, newest first. While the clock never goes
back and a row is stamped where it is inserted, the timestamps of each answer agree with its
order, so that each filter shows the answer of its own route. -/
theorem timeline_of_run (fixed2 : ℚ → String) {onPi : Bool} {clock : Timestamp} {s : Viewer}
    {ts : List (Transition Viewer ViewerMove)}
    (hrun : viewing.Run (activityOpened onPi clock) ts s) :
    Timeline fixed2 s.client ∧ Descending AlertRow.timestamp s.client.alerts ∧
      Descending LogEntry.timestamp s.client.logs := by
  have hempty : Chronological {} := ⟨List.Pairwise.nil, List.Pairwise.nil⟩
  have hholds := upheld_timeline.run ⟨dated_boot onPi clock, hempty⟩ hrun
  have hchronological := hholds.sides.2
  exact ⟨hchronological.distinct.timeline, hchronological.alerts.descending,
    hchronological.logs.descending⟩

/-- The doorbell rings twice between and during loads, and an alert is read meanwhile. -/
theorem timeline_rungTwice : ∃ ts s, viewing.Run (activityOpened false 0) ts s ∧
    Timeline (fun _ => "") s.client ∧
      s.client.alerts.map (fun a => (a.id, a.read)) = [(2, false), (1, true)] ∧
        s.client.logs.map LogEntry.id = [2, 1] := by
  have hend : (viewing.trace (activityOpened false 0)
      (ringMoves ++ loadMoves 0 ++ [.act (.readAlert 1), .execute 1 0 nobody] ++ ringMoves ++
        loadMoves 2 ++ [.resolve 1])).map (fun (_, s) =>
        (s.client.alerts.map (fun a => (a.id, a.read)), s.client.logs.map LogEntry.id)) =
      some ([(2, false), (1, true)], [2, 1]) := by
    decide +kernel
  obtain ⟨ts, s, hrun, hview⟩ := Machine.exists_run_of_view hend
  obtain ⟨halerts, hlogs⟩ := Prod.mk.inj hview
  exact ⟨ts, s, hrun, (timeline_of_run _ hrun).1, halerts, hlogs⟩

end FacialCamera.Screen
