import FacialCamera.Recognition.Interleaved

/-! # Alert notifications

`AlertProvider` polls the alerts and vibrates for those it has not seen. Its
answers arrive in any order. The marker it keeps never goes back and no alert is
notified twice; which alerts of an answer are new and still missed is a condition
on the answer and the history before it, whether a poll counts as answered where the
Pi answers it or where its answer arrives.
-/

namespace FacialCamera.Screen

open FacialCamera.Core Backend Recognition

structure AlertProvider where
  unreadCount : Nat := 0
  lastSeenAlertId : Nat := 0
  initialLoad : Bool := true
  deriving DecidableEq

/-- `Math.max` of the ids. -/
def maxId (alerts : List AlertRow) : Nat := (alerts.map AlertRow.id).foldr max 0

namespace AlertProvider

def newAlerts (p : AlertProvider) (alerts : List AlertRow) : List AlertRow :=
  alerts.filter fun a => p.lastSeenAlertId < a.id && !a.read

/-- The rest of `pollAlerts` once `getAlerts` has answered, with the `newAlerts` it vibrates
for. -/
def pollAlerts (p : AlertProvider) (alerts : List AlertRow) : AlertProvider × List AlertRow :=
  let unread := alerts.filter fun a => !a.read
  let p := { p with unreadCount := unread.length }
  if alerts.length > 0 then
    if p.initialLoad then
      ({ p with lastSeenAlertId := maxId alerts, initialLoad := false }, [])
    else if (p.newAlerts alerts).length > 0 then
      ({ p with lastSeenAlertId := maxId alerts }, p.newAlerts alerts)
    else (p, [])
  else (p, [])

end AlertProvider

/-- The polls of the provider; a failed one is caught. -/
def alertClient : Client AlertProvider Unit Unit ApiRequest Body where
  act _ p := some (p, [((), [.getAlerts])])
  resolve _ answers p :=
    match answers with
    | [.alerts rows] => ((p.pollAlerts rows).1, [])
    | _ => (p, [])
  reject _ p := (p, [])

abbrev Watch : Type := Remote AlertProvider House Unit ApiRequest Body

abbrev WatchMove : Type := Move Unit HouseTurn Surroundings

def watching : Machine Watch WatchMove := remote alertClient pi

def opened (onPi : Bool) (clock : Timestamp) : Watch := .idle {} (powerOn onPi clock)

/-! ## Histories of polls -/

variable {us : List (Transition Watch WatchMove)} {t : Transition Watch WatchMove} {a : AlertRow}

def shown (t : Transition Watch WatchMove) : Option (List AlertRow) :=
  match t.before.arrival t.label with
  | some (_, [.alerts rows]) => some rows
  | _ => none

def notified (t : Transition Watch WatchMove) : List AlertRow :=
  match shown t with
  | some rows => (t.before.client.pollAlerts rows).2
  | none => []

def notifiedIds (ts : List (Transition Watch WatchMove)) : List Nat :=
  ts.flatMap fun t => (notified t).map AlertRow.id

/-- A poll is answered where the Pi gives the answer, or where the app receives it. -/
inductive Answering where
  | given
  | received

/-- The number of alerts there are, where the transition answers poll number `i`. -/
def givenBy (t : Transition Watch WatchMove) (i : Nat) : Option Nat :=
  match t.label with
  | .execute j _ _ => if j = i then some t.before.server.shared.db.alerts.length else none
  | _ => none

def givenAt (ts : List (Transition Watch WatchMove)) (i : Nat) : Option Nat :=
  ts.findSome? fun t => givenBy t i

/-- The number of alerts there were when the poll was answered whose answer arrives. -/
def answeredAt (r : Answering) (ts : List (Transition Watch WatchMove))
    (t : Transition Watch WatchMove) : Option Nat :=
  match r with
  | .received => some t.before.server.shared.db.alerts.length
  | .given =>
      match t.label with
      | .resolve i => givenAt ts i
      | _ => none

/-- The alert was created after a successful poll was answered, and so after the first. -/
def NewSince (r : Answering) (ts : List (Transition Watch WatchMove)) (a : AlertRow) : Prop :=
  ∃ t ∈ ts, (shown t).isSome ∧ ∃ n ∈ answeredAt r ts t, n < a.id

def ShownUnread (ts : List (Transition Watch WatchMove)) (a : AlertRow) : Prop :=
  ∃ t ∈ ts, ∃ rows ∈ shown t, a ∈ rows ∧ a.read = false

structure NotifiedOnce (r : Answering) (ts : List (Transition Watch WatchMove)) : Prop where
  forward : ∀ t ∈ ts, t.before.client.lastSeenAlertId ≤ t.after.client.lastSeenAlertId
  once : (notifiedIds ts).Nodup
  complete : ∀ a, ShownUnread ts a → NewSince r ts a → a.id ∈ notifiedIds ts

/-- An answer arrives in time. Where it shows a new alert unread, an alert has been loaded
before, and the marker is behind this one or an earlier answer already showed it unread. And
no alert that was shown unread was created after this poll was answered, unless it was new
already. -/
def ArrivesInTime (r : Answering) (us : List (Transition Watch WatchMove))
    (t : Transition Watch WatchMove) : Prop :=
  ∀ rows ∈ shown t,
    (∀ a ∈ rows, a.read = false → NewSince r us a →
      t.before.client.initialLoad = false ∧
        (t.before.client.lastSeenAlertId < a.id ∨ ∃ a', ShownUnread us a' ∧ a'.id = a.id)) ∧
    ∀ a, ShownUnread us a → (∃ n ∈ answeredAt r us t, n < a.id) → NewSince r us a

section Decide

variable {r : Answering}

instance : Decidable (NewSince r us a) :=
  inferInstanceAs (Decidable (∃ t ∈ us, (shown t).isSome ∧ ∃ n ∈ answeredAt r us t, n < a.id))

instance : Decidable (∃ a', ShownUnread us a' ∧ a'.id = a.id) :=
  decidable_of_iff
    (∃ t ∈ us, ∃ rows ∈ (shown t).toList, ∃ a' ∈ rows, a'.read = false ∧ a'.id = a.id) (by
      simp only [ShownUnread, Option.mem_toList]
      constructor
      · intro ⟨t, ht, rows, hrows, a', ha', hunread, hid⟩
        exact ⟨a', ⟨t, ht, rows, hrows, ha', hunread⟩, hid⟩
      · intro ⟨a', ⟨t, ht, rows, hrows, ha', hunread⟩, hid⟩
        exact ⟨t, ht, rows, hrows, a', ha', hunread, hid⟩)

instance : Decidable
    (∀ a, ShownUnread us a → (∃ n ∈ answeredAt r us t, n < a.id) → NewSince r us a) :=
  decidable_of_iff
    (∀ u ∈ us, ∀ rows ∈ (shown u).toList, ∀ a ∈ rows, a.read = false →
      (∃ n ∈ answeredAt r us t, n < a.id) → NewSince r us a) (by
      simp only [ShownUnread, Option.mem_toList]
      constructor
      · intro h a ⟨u, hu, rows, hrows, ha, hunread⟩
        exact h u hu rows hrows a ha hunread
      · intro h u hu rows hrows a ha hunread
        exact h a ⟨u, hu, rows, hrows, ha, hunread⟩)

instance : Decidable (ArrivesInTime r us t) :=
  decidable_of_iff (∀ rows ∈ (shown t).toList,
    (∀ a ∈ rows, a.read = false → NewSince r us a →
      t.before.client.initialLoad = false ∧
        (t.before.client.lastSeenAlertId < a.id ∨ ∃ a', ShownUnread us a' ∧ a'.id = a.id)) ∧
    ∀ a, ShownUnread us a → (∃ n ∈ answeredAt r us t, n < a.id) → NewSince r us a) (by
    simp only [ArrivesInTime, Option.mem_toList, Option.mem_def])

end Decide

/-! ## One answer -/

namespace AlertProvider

variable {p : AlertProvider} {rows : List AlertRow} {a : AlertRow}

theorem le_maxId (ha : a ∈ rows) : a.id ≤ maxId rows := by
  induction rows with
  | nil => cases ha
  | cons head rest ih =>
      show a.id ≤ max head.id (maxId rest)
      rcases List.mem_cons.mp ha with rfl | ha
      · exact le_max_left _ _
      · exact (ih ha).trans (le_max_right _ _)

inductive Polled (p : AlertProvider) (rows : List AlertRow) : AlertProvider × List AlertRow → Prop
  | empty {p' : AlertProvider} : rows = [] → p'.lastSeenAlertId = p.lastSeenAlertId →
      p'.initialLoad = p.initialLoad → Polled p rows (p', [])
  | first {p' : AlertProvider} : rows ≠ [] → p.initialLoad = true →
      p'.lastSeenAlertId = maxId rows → p'.initialLoad = false → Polled p rows (p', [])
  | fresh {p' : AlertProvider} : p.initialLoad = false → p.newAlerts rows ≠ [] →
      p'.lastSeenAlertId = maxId rows → p'.initialLoad = false →
      Polled p rows (p', p.newAlerts rows)
  | stale {p' : AlertProvider} : p.initialLoad = false → p.newAlerts rows = [] →
      p'.lastSeenAlertId = p.lastSeenAlertId → p'.initialLoad = false → Polled p rows (p', [])

theorem polled (p : AlertProvider) (rows : List AlertRow) : Polled p rows (p.pollAlerts rows) := by
  have hsame : ({ p with unreadCount := (rows.filter fun a => !a.read).length } :
      AlertProvider).newAlerts rows = p.newAlerts rows := rfl
  unfold pollAlerts
  by_cases hrows : rows = []
  · subst hrows
    exact .empty rfl rfl rfl
  · have hlength : rows.length > 0 := List.length_pos_iff.mpr hrows
    simp only [if_pos hlength]
    by_cases hinitial : p.initialLoad = true
    · rw [if_pos hinitial]
      exact .first hrows hinitial rfl rfl
    · have hloaded : p.initialLoad = false := by simpa using hinitial
      rw [if_neg hinitial, hsame]
      by_cases hnew : p.newAlerts rows = []
      · rw [hnew, if_neg (by simp)]
        exact .stale hloaded hnew rfl hloaded
      · rw [if_pos (List.length_pos_iff.mpr hnew)]
        exact .fresh hloaded hnew rfl hloaded

theorem mem_newAlerts :
    a ∈ p.newAlerts rows ↔ a ∈ rows ∧ p.lastSeenAlertId < a.id ∧ a.read = false := by
  simp [newAlerts]

/-- The marker ends at or above every unread alert of the answer. -/
theorem unread_le (ha : a ∈ rows) (hunread : a.read = false) :
    a.id ≤ (p.pollAlerts rows).1.lastSeenAlertId := by
  have hpolled := polled p rows
  generalize p.pollAlerts rows = out at hpolled
  cases hpolled with
  | empty hrows => exact absurd ha (by simp [hrows])
  | first _ _ hmax => exact hmax ▸ le_maxId ha
  | fresh _ _ hmax => exact hmax ▸ le_maxId ha
  | stale _ hnone hsame =>
      have hmarker : a.id ≤ p.lastSeenAlertId := by
        by_contra hbehind
        have hnew : a ∈ p.newAlerts rows := mem_newAlerts.mpr ⟨ha, by omega, hunread⟩
        simp [hnone] at hnew
      exact hmarker.trans hsame.ge

/-- A notified alert is new to the marker. -/
theorem notified_spec (ha : a ∈ (p.pollAlerts rows).2) :
    p.initialLoad = false ∧ a ∈ rows ∧ p.lastSeenAlertId < a.id ∧ a.read = false := by
  have hpolled := polled p rows
  generalize p.pollAlerts rows = out at hpolled ha
  cases hpolled with
  | fresh hloaded => exact ⟨hloaded, mem_newAlerts.mp ha⟩
  | _ => cases ha

/-- After the first load the new alerts are notified. -/
theorem mem_notified (hloaded : p.initialLoad = false) (ha : a ∈ rows)
    (hnew : p.lastSeenAlertId < a.id) (hunread : a.read = false) : a ∈ (p.pollAlerts rows).2 := by
  have hmem : a ∈ p.newAlerts rows := mem_newAlerts.mpr ⟨ha, hnew, hunread⟩
  have hpolled := polled p rows
  generalize p.pollAlerts rows = out at hpolled
  cases hpolled with
  | empty hrows => exact absurd ha (by simp [hrows])
  | first _ hinitial => simp [hinitial] at hloaded
  | fresh => exact hmem
  | stale _ hnone => simp [hnone] at hmem

theorem lastSeen_le (hinitial : p.initialLoad = true → p.lastSeenAlertId = 0) :
    p.lastSeenAlertId ≤ (p.pollAlerts rows).1.lastSeenAlertId := by
  have hpolled := polled p rows
  generalize p.pollAlerts rows = out at hpolled
  cases hpolled with
  | empty _ hsame => exact hsame.ge
  | first _ hfirst => simp [hinitial hfirst]
  | fresh _ hnew hmax =>
      obtain ⟨a, ha⟩ := List.exists_mem_of_ne_nil _ hnew
      have hspec := mem_newAlerts.mp ha
      have hle := le_maxId hspec.1
      simp only [hmax]
      omega
  | stale _ _ hsame => exact hsame.ge

theorem initial_pollAlerts (hinitial : p.initialLoad = true → p.lastSeenAlertId = 0)
    (hstill : (p.pollAlerts rows).1.initialLoad = true) :
    (p.pollAlerts rows).1.lastSeenAlertId = 0 ∧ p.initialLoad = true := by
  have hpolled := polled p rows
  generalize p.pollAlerts rows = out at hpolled hstill
  cases hpolled with
  | empty _ hsame hload =>
      have hbefore : p.initialLoad = true := hload.symm.trans hstill
      exact ⟨hsame.trans (hinitial hbefore), hbefore⟩
  | first _ _ _ hload => simp [hload] at hstill
  | fresh _ _ _ hload => simp [hload] at hstill
  | stale _ _ _ hload => simp [hload] at hstill

theorem nodup_notified (hrows : (rows.map AlertRow.id).Nodup) :
    ((p.pollAlerts rows).2.map AlertRow.id).Nodup := by
  have hpolled := polled p rows
  generalize p.pollAlerts rows = out at hpolled
  cases hpolled with
  | fresh => exact hrows.sublist (List.filter_sublist.map _)
  | _ => exact List.nodup_nil

end AlertProvider

/-! ## The answers of the alert route -/

/-- An answer lists every alert there was: each is still in the table, with its mark kept. -/
structure Listed (rows : List AlertRow) (h : House) : Prop where
  serial : Serial AlertRow.id rows.reverse
  kept : Grows AlertRow.id AlertKept rows h.shared.db.alerts

theorem Listed.later {rows : List AlertRow} {h h' : House} (hlisted : Listed rows h)
    (hcontinues : Proceeds h.shared h'.shared) : Listed rows h' :=
  ⟨hlisted.serial, hlisted.kept.trans AlertKept.trans hcontinues.alerts⟩

theorem listed_getAlerts {h : House} (hrecorded : Registered h.shared) :
    Listed h.shared.db.alerts.reverse h := by
  refine ⟨?_, fun a ha => ⟨a, List.mem_reverse.mp ha, rfl, AlertKept.refl a⟩⟩
  rw [List.reverse_reverse]
  exact hrecorded.alerts

namespace Listed

variable {rows : List AlertRow} {h : House} {a : AlertRow}

theorem nodup (hlisted : Listed rows h) : (rows.map AlertRow.id).Nodup := by
  have hnodup := hlisted.serial.nodup
  rw [List.map_reverse] at hnodup
  exact List.nodup_reverse.mp hnodup

/-- The ids are those of the alerts up to this answer. -/
theorem le_rows (hlisted : Listed rows h) (ha : a ∈ rows) : a.id ≤ rows.length := by
  have hbounds := hlisted.serial.bounds (List.mem_reverse.mpr ha)
  rw [List.length_reverse] at hbounds
  exact hbounds.2

theorem rows_le_maxId (hlisted : Listed rows h) : rows.length ≤ maxId rows := by
  rcases Nat.eq_zero_or_pos rows.length with hempty | hpos
  · rw [hempty]
    exact Nat.zero_le _
  · obtain ⟨last, hlast, hid⟩ := hlisted.serial.exists_number (n := rows.length) hpos
      (List.length_reverse ▸ Nat.le_refl _)
    exact hid ▸ AlertProvider.le_maxId (List.mem_reverse.mp hlast)

theorem le_length (hlisted : Listed rows h) (hrecorded : Registered h.shared) (ha : a ∈ rows) :
    a.id ≤ h.shared.db.alerts.length := by
  obtain ⟨row, hrow, hid, _⟩ := hlisted.kept a ha
  exact hid ▸ (hrecorded.alerts.bounds hrow).2

end Listed

def PollKept (h : House) (_ : Unit) (parts : List (ApiRequest × Option (Option Body))) : Prop :=
  ∃ a, parts = [(.getAlerts, a)] ∧
    ∀ body, a = some (some body) → ∃ rows, body = .alerts rows ∧ Listed rows h

theorem PollKept.later {h h' : House} {parts : List (ApiRequest × Option (Option Body))}
    (hkept : PollKept h () parts) (hcontinues : Proceeds h.shared h'.shared) :
    PollKept h' () parts := by
  obtain ⟨a, hparts, hanswer⟩ := hkept
  refine ⟨a, hparts, fun body hbody => ?_⟩
  obtain ⟨rows, hrows, hlisted⟩ := hanswer body hbody
  exact ⟨rows, hrows, hlisted.later hcontinues⟩

theorem upheld_polls :
    Remote.Upheld alertClient pi (fun _ h => Registered h.shared) PollKept where
  act c h e out hrecorded hact := by
    cases hact
    refine ⟨hrecorded, fun new hnew => ?_⟩
    rw [List.mem_singleton.mp hnew]
    exact ⟨none, rfl, fun body hbody => by cases hbody⟩
  own c h turn h' hrecorded hnext :=
    ⟨(continues_step hnext).recorded hrecorded, fun _ _ hkept => hkept.later (continues_step hnext)⟩
  execute c h seen r hrecorded := by
    have hcontinues := continues_execute seen r h
    refine ⟨hcontinues.recorded hrecorded, fun _ parts hkept => ⟨hkept.later hcontinues, ?_⟩⟩
    intro j hj
    obtain ⟨a, rfl, _⟩ := hkept
    cases j with
    | succ j => cases hj
    | zero =>
        cases hj
        refine ⟨_, rfl, fun body hbody => ?_⟩
        cases hbody
        exact ⟨_, rfl, listed_getAlerts hrecorded⟩
  resolve c h tag parts bs hrecorded _ _ := by
    refine ⟨hrecorded, fun new hnew => ?_⟩
    simp only [alertClient] at hnew
    split at hnew <;> cases hnew
  reject c h tag parts hrecorded _ := ⟨hrecorded, fun new hnew => by cases hnew⟩

/-- An answer that arrives lists alerts of the table. -/
theorem listed_of_shown {onPi : Bool} {clock : Timestamp} {s s' : Watch} {m : WatchMove}
    {us : List (Transition Watch WatchMove)} (hrun : watching.Run (opened onPi clock) us s)
    {rows : List AlertRow} (hshown : shown ⟨s, m, s'⟩ = some rows) :
    Registered s.server.shared ∧ Listed rows s.server := by
  have hholds := upheld_polls.run (recorded_boot onPi clock) hrun
  refine ⟨hholds.sides, ?_⟩
  unfold shown at hshown
  split at hshown
  case h_2 => cases hshown
  case h_1 tag rows' harrival =>
    cases hshown
    obtain ⟨parts, ⟨a, rfl, hanswer⟩, hresults⟩ := hholds.of_arrival harrival
    have hall := Exchange.forall₂_of_results hresults
    cases hall with
    | cons ha _ =>
        obtain ⟨_, hbody, hlisted⟩ := hanswer _ ha
        cases hbody
        exact hlisted

theorem proceeds_step {s s' : Watch} {m : WatchMove} (hnext : watching.next s m = some s') :
    Proceeds s.server.shared s'.server.shared := by
  cases Remote.moves_of_next hnext with
  | act | resolve | reject => exact .refl _
  | own hown => exact continues_step hown
  | execute => exact continues_execute _ _ _

/-- Only an answer changes the provider. -/
theorem client_step {s s' : Watch} {m : WatchMove} (hnext : watching.next s m = some s') :
    s'.client = match shown ⟨s, m, s'⟩ with
      | some rows => (s.client.pollAlerts rows).1
      | none => s.client := by
  cases Remote.moves_of_next hnext with
  | act hact =>
      cases hact
      rfl
  | own => rfl
  | execute => rfl
  | reject => rfl
  | @resolve i ex bs hex _ hbs =>
      have harrival : s.arrival (.resolve i : WatchMove) = some (ex.tag, bs) := by
        simp [Remote.arrival, hex, hbs]
      simp only [shown, harrival]
      show (alertClient.resolve ex.tag bs s.client).1 = _
      -- both sides look for an answer of the same shape
      unfold alertClient
      dsimp only
      split <;> split <;> simp_all

/-! ## Histories -/

theorem notifiedIds_snoc : notifiedIds (us ++ [t]) =
    notifiedIds us ++ (notified t).map AlertRow.id := by
  simp [notifiedIds]

theorem shownUnread_snoc :
    ShownUnread (us ++ [t]) a ↔
      ShownUnread us a ∨ ∃ rows ∈ shown t, a ∈ rows ∧ a.read = false := by
  simp [ShownUnread, or_and_right, exists_or]

/-! ## What the Pi answered -/

section Given

variable {onPi : Bool} {clock : Timestamp} {s s' : Watch} {m : WatchMove} {i : Nat}
  {rows : List AlertRow}

theorem givenAt_snoc : givenAt (us ++ [t]) i = (givenAt us i).or (givenBy t i) := by
  simp [givenAt, List.findSome?_append]

/-- The number of alerts in the answer that a promise has. -/
def listedBy (ex : Exchange Unit ApiRequest Body) : Option Nat :=
  match ex.parts with
  | [(_, some (some (.alerts rows)))] => some rows.length
  | _ => none

/-- A new poll has no answer. -/
theorem bind_listedBy_issue {out : AlertProvider × List (Unit × List ApiRequest)}
    (hnew : ∀ promise ∈ out.2, promise = ((), [.getAlerts])) :
    (s.issue out).exchanges[i]?.bind listedBy = s.exchanges[i]?.bind listedBy := by
  by_cases hi : i < s.exchanges.length
  · rw [Remote.issue, List.getElem?_append_left hi]
  · have hle : s.exchanges.length ≤ i := Nat.le_of_not_lt hi
    rw [Remote.issue, List.getElem?_append_right hle, List.getElem?_eq_none hle]
    refine Option.bind_eq_none_iff.mpr fun ex hex => ?_
    obtain ⟨promise, hpromise, rfl⟩ := List.mem_map.mp (List.mem_of_getElem? hex)
    rw [hnew promise hpromise]
    rfl

theorem bind_listedBy_settle {k : Nat} {ex : Exchange Unit ApiRequest Body}
    (hex : s.exchanges[k]? = some ex) :
    (s.settle k ex).exchanges[i]?.bind listedBy = s.exchanges[i]?.bind listedBy := by
  rw [Remote.settle, List.getElem?_set]
  split
  case isTrue hi =>
    obtain ⟨hk, _⟩ := List.getElem?_eq_some_iff.mp hex
    rw [← hi, if_pos hk, hex]
    rfl
  case isFalse => rfl

/-- The Pi gives a poll all the alerts there are. -/
theorem bind_listedBy_executed {k : Nat} {seen : Surroundings}
    {ex : Exchange Unit ApiRequest Body} (hex : s.exchanges[k]? = some ex)
    (hparts : ex.parts = [(.getAlerts, none)]) :
    (s.executed k 0 ex (pi.execute seen .getAlerts s.server)).exchanges[i]?.bind listedBy =
      (s.exchanges[i]?.bind listedBy).or
        (if k = i then some s.server.shared.db.alerts.length else none) := by
  obtain ⟨hk, _⟩ := List.getElem?_eq_some_iff.mp hex
  rw [Remote.executed, List.getElem?_set]
  by_cases hi : k = i
  · subst hi
    have hopen : listedBy ex = none := by
      simp [listedBy, hparts]
    rw [hex, Option.bind_some, hopen, if_pos rfl, if_pos hk, hparts]
    show some s.server.shared.db.alerts.reverse.length = _
    rw [List.length_reverse, if_pos rfl]
    rfl
  · rw [if_neg hi, if_neg hi]
    exact Option.or_none.symm

/-- A poll that the Pi has answered has all the alerts there were. -/
theorem givenAt_of_run (hrun : watching.Run (opened onPi clock) us s) (i : Nat) :
    givenAt us i = s.exchanges[i]?.bind listedBy := by
  induction hrun with
  | nil => rfl
  | @snoc us s s' m hus hnext ih =>
      have hholds := upheld_polls.run (recorded_boot onPi clock) hus
      rw [givenAt_snoc, ih]
      cases Remote.moves_of_next hnext with
      | act hact =>
          cases hact
          rw [bind_listedBy_issue (by simp)]
          exact Option.or_none
      | own => exact Option.or_none
      | @resolve k ex bs hex =>
          have hnew : ∀ promise ∈ (alertClient.resolve ex.tag bs s.client).2,
              promise = ((), [.getAlerts]) := by
            unfold alertClient
            dsimp only
            split <;> simp
          rw [bind_listedBy_issue hnew, bind_listedBy_settle hex]
          exact Option.or_none
      | reject hex =>
          rw [bind_listedBy_issue (by simp [alertClient]), bind_listedBy_settle hex]
          exact Option.or_none
      | @execute k j x ex r hex hpart =>
          obtain ⟨a, hparts, _⟩ := hholds.promises ex (List.mem_of_getElem? hex)
          rw [hparts] at hpart
          cases j with
          | succ j => cases hpart
          | zero =>
              cases hpart
              exact (bind_listedBy_executed hex hparts).symm

/-- An answer that arrives has all the alerts there were when the Pi gave it. -/
theorem given_of_arrival (hrun : watching.Run (opened onPi clock) us s)
    (hshown : shown ⟨s, m, s'⟩ = some rows) :
    answeredAt .given us ⟨s, m, s'⟩ = some rows.length := by
  have hholds := upheld_polls.run (recorded_boot onPi clock) hrun
  unfold shown at hshown
  split at hshown
  case h_2 => cases hshown
  case h_1 tag rows' harrival =>
    cases hshown
    cases m with
    | resolve i =>
        obtain ⟨ex, hex, hresults⟩ := Option.bind_eq_some_iff.mp harrival
        obtain ⟨bs, hbs, heq⟩ := Option.map_eq_some_iff.mp hresults
        cases heq
        obtain ⟨a, hparts, _⟩ := hholds.promises ex (List.mem_of_getElem? hex)
        rw [hparts] at hbs
        have hall := Exchange.forall₂_of_results hbs
        cases hall with
        | cons ha _ =>
            show givenAt us i = some rows.length
            rw [givenAt_of_run hrun, hex]
            simp only [Option.bind_some, listedBy, hparts, show a = _ from ha]
    | _ => cases harrival

theorem answeredAt_snoc {r : Answering} {n : Nat} {u : Transition Watch WatchMove}
    (h : answeredAt r us u = some n) : answeredAt r (us ++ [t]) u = some n := by
  cases r with
  | received => exact h
  | given =>
      cases hlabel : u.label with
      | resolve i =>
          simp only [answeredAt, hlabel] at h ⊢
          rw [givenAt_snoc, h]
          rfl
      | _ => simp [answeredAt, hlabel] at h

theorem given_of_mem (hrun : watching.Run (opened onPi clock) us s)
    {u : Transition Watch WatchMove} (hu : u ∈ us) (hshown : shown u = some rows) :
    answeredAt .given us u = some rows.length := by
  induction hrun with
  | nil => cases hu
  | snoc hus _ ih =>
      rcases List.mem_append.mp hu with hu | hu
      · exact answeredAt_snoc (ih hu)
      · rw [List.mem_singleton.mp hu] at hshown ⊢
        exact answeredAt_snoc (given_of_arrival hus hshown)

/-- What is shown stays in the table. -/
theorem listed_of_mem (hrun : watching.Run (opened onPi clock) us s)
    {u : Transition Watch WatchMove} (hu : u ∈ us) (hshown : shown u = some rows) :
    Listed rows s.server := by
  induction hrun with
  | nil => cases hu
  | @snoc us s s' m hus hnext ih =>
      have hproceeds := proceeds_step hnext
      rcases List.mem_append.mp hu with hu | hu
      · exact (ih hu).later hproceeds
      · rw [List.mem_singleton.mp hu] at hshown
        exact (listed_of_shown hus hshown).2.later hproceeds

end Given

/-- The number of alerts there were when the poll was answered that has this answer. -/
def Answering.count (r : Answering) (t : Transition Watch WatchMove) (rows : List AlertRow) :
    Nat :=
  match r with
  | .given => rows.length
  | .received => t.before.server.shared.db.alerts.length

theorem answeredAt_of_arrival {onPi : Bool} {clock : Timestamp} {s s' : Watch} {m : WatchMove}
    {rows : List AlertRow} (hrun : watching.Run (opened onPi clock) us s) (r : Answering)
    (hshown : shown ⟨s, m, s'⟩ = some rows) :
    answeredAt r us ⟨s, m, s'⟩ = some (r.count ⟨s, m, s'⟩ rows) := by
  cases r with
  | given => exact given_of_arrival hrun hshown
  | received => rfl

theorem answeredAt_of_mem {onPi : Bool} {clock : Timestamp} {s : Watch}
    (hrun : watching.Run (opened onPi clock) us s) (r : Answering)
    {u : Transition Watch WatchMove} {rows : List AlertRow} (hu : u ∈ us)
    (hshown : shown u = some rows) : answeredAt r us u = some (r.count u rows) := by
  cases r with
  | given => exact given_of_mem hrun hu hshown
  | received => rfl

theorem newSince_iff {onPi : Bool} {clock : Timestamp} {s : Watch} {r : Answering}
    (hrun : watching.Run (opened onPi clock) us s) :
    NewSince r us a ↔ ∃ u ∈ us, ∃ rows ∈ shown u, r.count u rows < a.id := by
  constructor
  · intro ⟨u, hu, hsome, n, hn, hlt⟩
    obtain ⟨rows, hrows⟩ := Option.isSome_iff_exists.mp hsome
    cases (answeredAt_of_mem hrun r hu hrows).symm.trans hn
    exact ⟨u, hu, rows, hrows, hlt⟩
  · intro ⟨u, hu, rows, hrows, hlt⟩
    exact ⟨u, hu, Option.isSome_of_mem hrows, _, answeredAt_of_mem hrun r hu hrows, hlt⟩

/-- What the provider remembers of the history: its marker is at or above every alert it
notified or was shown unread, and before the first alerts it has notified none. -/
structure Remembers (us : List (Transition Watch WatchMove)) (s : Watch) : Prop where
  initial : s.client.initialLoad = true → s.client.lastSeenAlertId = 0
  notified : ∀ id ∈ notifiedIds us, id ≤ s.client.lastSeenAlertId
  shown : ∀ a, ShownUnread us a → a.id ≤ s.client.lastSeenAlertId
  quiet : s.client.initialLoad = true → notifiedIds us = []
  source : ∀ id ∈ notifiedIds us, ∃ a, ShownUnread us a ∧ a.id = id

structure Guarded (us : List (Transition Watch WatchMove)) (s : Watch) : Prop where
  remembers : Remembers us s
  forward : ∀ t ∈ us, t.before.client.lastSeenAlertId ≤ t.after.client.lastSeenAlertId
  once : (notifiedIds us).Nodup

theorem notified_of_quiet (h : shown t = none) : notified t = [] := by
  simp [notified, h]

theorem notifiedIds_snoc_of_quiet (h : shown t = none) :
    notifiedIds (us ++ [t]) = notifiedIds us := by
  rw [notifiedIds_snoc, notified_of_quiet h]
  exact List.append_nil _

theorem notified_of_shown {rows : List AlertRow} (h : shown t = some rows) :
    notified t = (t.before.client.pollAlerts rows).2 := by
  simp [notified, h]

theorem guarded_quiet {s s' : Watch} {m : WatchMove} (h : Guarded us s)
    (hclient : s'.client = s.client) (hquiet : shown ⟨s, m, s'⟩ = none) :
    Guarded (us ++ [⟨s, m, s'⟩]) s' := by
  have hids : notifiedIds (us ++ [⟨s, m, s'⟩]) = notifiedIds us := notifiedIds_snoc_of_quiet hquiet
  have hshown : ∀ a, ShownUnread (us ++ [⟨s, m, s'⟩]) a ↔ ShownUnread us a := fun a => by
    simp [shownUnread_snoc, hquiet]
  refine ⟨⟨?_, ?_, ?_, ?_, ?_⟩, ?_, hids ▸ h.once⟩
  · exact hclient ▸ h.remembers.initial
  · exact hclient ▸ hids ▸ h.remembers.notified
  · intro a ha
    exact hclient ▸ h.remembers.shown a ((hshown a).mp ha)
  · exact hclient ▸ hids ▸ h.remembers.quiet
  · intro id hid
    obtain ⟨a, ha, heq⟩ := h.remembers.source id (hids ▸ hid)
    exact ⟨a, (hshown a).mpr ha, heq⟩
  · intro u hu
    rcases List.mem_append.mp hu with hu | hu
    · exact h.forward u hu
    · rw [List.mem_singleton.mp hu, hclient]

theorem notifiedIds_snoc_of_shown {s s' : Watch} {m : WatchMove} {rows : List AlertRow}
    (hshown : shown ⟨s, m, s'⟩ = some rows) : notifiedIds (us ++ [⟨s, m, s'⟩]) =
      notifiedIds us ++ (s.client.pollAlerts rows).2.map AlertRow.id := by
  rw [notifiedIds_snoc, notified_of_shown hshown]

/-- An answer moves the marker up to every unread alert that it lists. -/
theorem remembers_answer {s s' : Watch} {m : WatchMove} {rows : List AlertRow}
    (h : Remembers us s) (hshown : shown ⟨s, m, s'⟩ = some rows)
    (hclient : s'.client = (s.client.pollAlerts rows).1) :
    Remembers (us ++ [⟨s, m, s'⟩]) s' := by
  have hforward : s.client.lastSeenAlertId ≤ (s.client.pollAlerts rows).1.lastSeenAlertId :=
    AlertProvider.lastSeen_le h.initial
  have hids : notifiedIds (us ++ [⟨s, m, s'⟩]) =
      notifiedIds us ++ (s.client.pollAlerts rows).2.map AlertRow.id :=
    notifiedIds_snoc_of_shown hshown
  constructor
  case initial =>
    intro hstill
    rw [hclient] at hstill ⊢
    exact (AlertProvider.initial_pollAlerts h.initial hstill).1
  case notified =>
    intro id hid
    rw [hids] at hid
    rw [hclient]
    rcases List.mem_append.mp hid with hid | hid
    · exact (h.notified id hid).trans hforward
    · obtain ⟨a, ha, rfl⟩ := List.mem_map.mp hid
      have hspec := AlertProvider.notified_spec ha
      exact AlertProvider.unread_le hspec.2.1 hspec.2.2.2
  case shown =>
    intro a ha
    rw [hclient]
    rcases shownUnread_snoc.mp ha with ha | ⟨rows', hrows', hmem, hunread⟩
    · exact (h.shown a ha).trans hforward
    · cases hshown.symm.trans hrows'
      exact AlertProvider.unread_le hmem hunread
  case quiet =>
    intro hstill
    rw [hclient] at hstill
    have hbefore := (AlertProvider.initial_pollAlerts h.initial hstill).2
    rw [hids, h.quiet hbefore]
    refine List.eq_nil_iff_forall_not_mem.mpr fun id hid => ?_
    obtain ⟨a, ha, _⟩ := List.mem_map.mp hid
    have hloaded := (AlertProvider.notified_spec ha).1
    simp [hbefore] at hloaded
  case source =>
    intro id hid
    rw [hids] at hid
    rcases List.mem_append.mp hid with hid | hid
    · obtain ⟨a, ha, heq⟩ := h.source id hid
      exact ⟨a, shownUnread_snoc.mpr (Or.inl ha), heq⟩
    · obtain ⟨a, ha, rfl⟩ := List.mem_map.mp hid
      have hspec := AlertProvider.notified_spec ha
      exact ⟨a, shownUnread_snoc.mpr (Or.inr ⟨rows, hshown, hspec.2.1, hspec.2.2.2⟩), rfl⟩

theorem guarded_answer {s s' : Watch} {m : WatchMove} {rows : List AlertRow} (h : Guarded us s)
    (hshown : shown ⟨s, m, s'⟩ = some rows) (hlisted : Listed rows s.server)
    (hclient : s'.client = (s.client.pollAlerts rows).1) : Guarded (us ++ [⟨s, m, s'⟩]) s' := by
  refine ⟨remembers_answer h.remembers hshown hclient, ?_, ?_⟩
  · intro u hu
    rcases List.mem_append.mp hu with hu | hu
    · exact h.forward u hu
    · rw [List.mem_singleton.mp hu, hclient]
      exact AlertProvider.lastSeen_le h.remembers.initial
  · rw [notifiedIds_snoc_of_shown hshown]
    refine List.nodup_append.mpr ⟨h.once, AlertProvider.nodup_notified hlisted.nodup, ?_⟩
    intro id hid id' hid' heq
    obtain ⟨a, ha, rfl⟩ := List.mem_map.mp hid'
    -- what is notified now is above the marker, which is above all that was notified before
    have hbehind := (AlertProvider.notified_spec ha).2.2.1
    have hold := h.remembers.notified id hid
    omega

theorem guarded_of_run {onPi : Bool} {clock : Timestamp} {s : Watch}
    (hrun : watching.Run (opened onPi clock) us s) : Guarded us s := by
  induction hrun with
  | nil =>
      refine ⟨⟨fun _ => rfl, ?_, ?_, fun _ => rfl, ?_⟩, ?_, List.nodup_nil⟩
      · intro id hid
        cases hid
      · intro a ⟨u, hu, _⟩
        cases hu
      · intro id hid
        cases hid
      · intro u hu
        cases hu
  | @snoc us s s' m hus hnext ih =>
      have hclient := client_step hnext
      cases hshown : shown ⟨s, m, s'⟩ with
      | none => exact guarded_quiet ih (by rw [hclient, hshown]) hshown
      | some rows =>
          have hlisted := (listed_of_shown hus hshown).2
          exact guarded_answer ih hshown hlisted (by rw [hclient, hshown])

/-- After the first alerts the marker is at or above all that one answer listed, and what is
notified is newer than one of the answers. -/
structure Follows (us : List (Transition Watch WatchMove)) (s : Watch) : Prop where
  loaded : s.client.initialLoad = false →
    ∃ u ∈ us, ∃ rows ∈ shown u, rows.length ≤ s.client.lastSeenAlertId
  notified : ∀ id ∈ notifiedIds us, ∃ u ∈ us, ∃ rows ∈ shown u, rows.length < id

theorem follows_answer {s s' : Watch} {m : WatchMove} {rows : List AlertRow} (h : Follows us s)
    (hremembers : Remembers us s) (hshown : shown ⟨s, m, s'⟩ = some rows)
    (hlisted : Listed rows s.server) (hclient : s'.client = (s.client.pollAlerts rows).1) :
    Follows (us ++ [⟨s, m, s'⟩]) s' := by
  have hforward : s.client.lastSeenAlertId ≤ (s.client.pollAlerts rows).1.lastSeenAlertId :=
    AlertProvider.lastSeen_le hremembers.initial
  constructor
  case loaded =>
    intro hloaded
    rw [hclient] at hloaded ⊢
    cases hbefore : s.client.initialLoad with
    | false =>
        obtain ⟨u, hu, rows', hrows', hle⟩ := h.loaded hbefore
        exact ⟨u, List.mem_append_left _ hu, rows', hrows', hle.trans hforward⟩
    | true =>
        refine ⟨_, List.mem_append_right _ (List.mem_singleton.mpr rfl), rows, hshown, ?_⟩
        have hpolled := AlertProvider.polled s.client rows
        generalize s.client.pollAlerts rows = out at hpolled hloaded
        cases hpolled with
        | empty _ _ hload => simp [hload, hbefore] at hloaded
        | first _ _ hmax => exact hmax ▸ hlisted.rows_le_maxId
        | fresh hload => simp [hload] at hbefore
        | stale hload => simp [hload] at hbefore
  case notified =>
    intro id hid
    rw [notifiedIds_snoc_of_shown hshown] at hid
    rcases List.mem_append.mp hid with hid | hid
    · obtain ⟨u, hu, hrows⟩ := h.notified id hid
      exact ⟨u, List.mem_append_left _ hu, hrows⟩
    · obtain ⟨a, ha, rfl⟩ := List.mem_map.mp hid
      have hspec := AlertProvider.notified_spec ha
      obtain ⟨u, hu, rows', hrows', hle⟩ := h.loaded hspec.1
      exact ⟨u, List.mem_append_left _ hu, rows', hrows', hle.trans_lt hspec.2.2.1⟩

theorem follows_of_run {onPi : Bool} {clock : Timestamp} {s : Watch}
    (hrun : watching.Run (opened onPi clock) us s) : Follows us s := by
  induction hrun with
  | nil => exact ⟨fun h => (by cases h), fun id hid => by cases hid⟩
  | @snoc us s s' m hus hnext ih =>
      have hclient := client_step hnext
      cases hshown : shown ⟨s, m, s'⟩ with
      | none =>
          rw [hshown] at hclient
          constructor
          · intro hloaded
            rw [hclient] at hloaded ⊢
            obtain ⟨u, hu, hrows⟩ := ih.loaded hloaded
            exact ⟨u, List.mem_append_left _ hu, hrows⟩
          · intro id hid
            rw [notifiedIds_snoc_of_quiet hshown] at hid
            obtain ⟨u, hu, hrows⟩ := ih.notified id hid
            exact ⟨u, List.mem_append_left _ hu, hrows⟩
      | some rows =>
          have hlisted := (listed_of_shown hus hshown).2
          exact follows_answer ih (guarded_of_run hus).remembers hshown hlisted
            (by rw [hclient, hshown])

def NoneMissed (r : Answering) (us : List (Transition Watch WatchMove)) : Prop :=
  ∀ a, ShownUnread us a → NewSince r us a → a.id ∈ notifiedIds us

section OneMore

variable {onPi : Bool} {clock : Timestamp} {s s' : Watch} {m : WatchMove} {rows : List AlertRow}
  {r : Answering}

theorem newSince_snoc (hrun : watching.Run (opened onPi clock) us s)
    (hnext : watching.next s m = some s') :
    NewSince r (us ++ [⟨s, m, s'⟩]) a ↔
      NewSince r us a ∨ ∃ rows ∈ shown ⟨s, m, s'⟩, r.count ⟨s, m, s'⟩ rows < a.id := by
  rw [newSince_iff hrun, newSince_iff (hrun.snoc hnext)]
  simp [or_and_right, exists_or]

theorem noneMissed_snoc_quiet (hrun : watching.Run (opened onPi clock) us s)
    (hnext : watching.next s m = some s') (hshown : shown ⟨s, m, s'⟩ = none) :
    NoneMissed r (us ++ [⟨s, m, s'⟩]) ↔ NoneMissed r us ∧ ArrivesInTime r us ⟨s, m, s'⟩ := by
  have hids : notifiedIds (us ++ [⟨s, m, s'⟩]) = notifiedIds us :=
    notifiedIds_snoc_of_quiet hshown
  have htime : ArrivesInTime r us ⟨s, m, s'⟩ := fun rows hrows => by simp [hshown] at hrows
  simp only [NoneMissed, shownUnread_snoc, newSince_snoc hrun hnext, hids, hshown, htime,
    and_true]
  simp

theorem mem_notifiedIds_snoc (hshown : shown ⟨s, m, s'⟩ = some rows) {id : Nat} :
    id ∈ notifiedIds (us ++ [⟨s, m, s'⟩]) ↔ id ∈ notifiedIds us ∨
      ∃ a ∈ (s.client.pollAlerts rows).2, a.id = id := by
  rw [notifiedIds_snoc, notified_of_shown hshown, List.mem_append, List.mem_map]

/-- An alert that was shown before is behind the marker and not notified now. -/
theorem notified_before (hguarded : Guarded us s) (hshown : shown ⟨s, m, s'⟩ = some rows)
    (ha : ShownUnread us a) (hid : a.id ∈ notifiedIds (us ++ [⟨s, m, s'⟩])) :
    a.id ∈ notifiedIds us := by
  rcases (mem_notifiedIds_snoc hshown).mp hid with hid | ⟨a', ha', heq⟩
  · exact hid
  · have hbehind := (AlertProvider.notified_spec ha').2.2.1
    have hseen := hguarded.remembers.shown a ha
    omega

/-- What an answer shows was there when the poll was answered. -/
theorem le_count (hrun : watching.Run (opened onPi clock) us s)
    (hshown : shown ⟨s, m, s'⟩ = some rows) (ha : a ∈ rows) :
    a.id ≤ r.count ⟨s, m, s'⟩ rows := by
  obtain ⟨hrecorded, hlisted⟩ := listed_of_shown hrun hshown
  cases r with
  | given => exact hlisted.le_rows ha
  | received => exact hlisted.le_length hrecorded ha

/-- An alert that was shown and notified is new since an earlier answer. -/
theorem newSince_of_notified (hrun : watching.Run (opened onPi clock) us s)
    (hshown : shown ⟨s, m, s'⟩ = some rows) (ha : ShownUnread us a)
    (hid : a.id ∈ notifiedIds us)
    (hlast : r.count ⟨s, m, s'⟩ rows < a.id) : NewSince r us a := by
  cases r with
  | given =>
      obtain ⟨u, hu, rows', hrows', hlt⟩ := (follows_of_run hrun).notified _ hid
      exact (newSince_iff hrun).mpr ⟨u, hu, rows', hrows', hlt⟩
  | received =>
      -- what was shown earlier is in the table when this answer arrives
      obtain ⟨u, hu, rows', hrows', hmem, _⟩ := ha
      have hthere := (listed_of_mem hrun hu hrows').le_length (listed_of_shown hrun hshown).1 hmem
      exact absurd hlast (Nat.not_lt.mpr hthere)

theorem arrivesInTime_of_snoc (hrun : watching.Run (opened onPi clock) us s)
    (hnext : watching.next s m = some s') (hshown : shown ⟨s, m, s'⟩ = some rows)
    (h : NoneMissed r (us ++ [⟨s, m, s'⟩])) : ArrivesInTime r us ⟨s, m, s'⟩ := by
  have hguarded := guarded_of_run hrun
  intro rows' hrows'
  cases hshown.symm.trans hrows'
  refine ⟨fun a ha hunread hnew => ?_, fun a ha ⟨n, hn, hlast⟩ => ?_⟩
  · have hid := h a (shownUnread_snoc.mpr (Or.inr ⟨rows, hshown, ha, hunread⟩))
      ((newSince_snoc hrun hnext).mpr (Or.inl hnew))
    rcases (mem_notifiedIds_snoc hshown).mp hid with hid | ⟨a', ha', heq⟩
    · refine ⟨?_, Or.inr (hguarded.remembers.source _ hid)⟩
      cases hload : s.client.initialLoad with
      | false => rfl
      | true => simp [hguarded.remembers.quiet hload] at hid
    · have hspec := AlertProvider.notified_spec ha'
      exact ⟨hspec.1, Or.inl (heq ▸ hspec.2.2.1)⟩
  · cases (answeredAt_of_arrival hrun r hshown).symm.trans hn
    have hnew := (newSince_snoc (r := r) hrun hnext).mpr (Or.inr ⟨rows, hshown, hlast⟩)
    have hid := h a (shownUnread_snoc.mpr (Or.inl ha)) hnew
    exact newSince_of_notified hrun hshown ha (notified_before hguarded hshown ha hid) hlast

theorem noneMissed_of_snoc (hrun : watching.Run (opened onPi clock) us s)
    (hnext : watching.next s m = some s') (hshown : shown ⟨s, m, s'⟩ = some rows)
    (h : NoneMissed r (us ++ [⟨s, m, s'⟩])) : NoneMissed r us := by
  intro a ha hnew
  have hid := h a (shownUnread_snoc.mpr (Or.inl ha)) ((newSince_snoc hrun hnext).mpr (Or.inl hnew))
  exact notified_before (guarded_of_run hrun) hshown ha hid

theorem noneMissed_snoc (hrun : watching.Run (opened onPi clock) us s)
    (hnext : watching.next s m = some s') (hshown : shown ⟨s, m, s'⟩ = some rows)
    (h : NoneMissed r us) (htime : ArrivesInTime r us ⟨s, m, s'⟩) :
    NoneMissed r (us ++ [⟨s, m, s'⟩]) := by
  intro a ha hnew
  obtain ⟨hunseen, hovertaken⟩ := htime rows hshown
  rw [mem_notifiedIds_snoc hshown]
  rcases shownUnread_snoc.mp ha with ha | ⟨rows', hrows', hmem, hunread⟩
  · have hearlier : NewSince r us a := by
      rcases (newSince_snoc hrun hnext).mp hnew with hnew | ⟨rows', hrows', hlast⟩
      · exact hnew
      · cases hshown.symm.trans hrows'
        exact hovertaken a ha ⟨_, answeredAt_of_arrival hrun r hshown, hlast⟩
    exact Or.inl (h a ha hearlier)
  · cases hshown.symm.trans hrows'
    have hearlier : NewSince r us a := by
      rcases (newSince_snoc hrun hnext).mp hnew with hnew | ⟨rows', hrows', hlast⟩
      · exact hnew
      · cases hshown.symm.trans hrows'
        exact absurd hlast (Nat.not_lt.mpr (le_count hrun hshown hmem))
    have hintime := hunseen a hmem hunread hearlier
    rcases hintime.2 with hbehind | ⟨a', ha', heq⟩
    · exact Or.inr ⟨a, AlertProvider.mem_notified hintime.1 hmem hbehind hunread, rfl⟩
    · have hnew' : NewSince r us a' := by
        obtain ⟨u, hu, hsome, n, hn, hlt⟩ := hearlier
        exact ⟨u, hu, hsome, n, hn, heq ▸ hlt⟩
      exact Or.inl (heq ▸ h a' ha' hnew')

/-- What one more move has to do for the alerts that it shows. -/
theorem complete_snoc (hrun : watching.Run (opened onPi clock) us s)
    (hnext : watching.next s m = some s') :
    NoneMissed r (us ++ [⟨s, m, s'⟩]) ↔ NoneMissed r us ∧ ArrivesInTime r us ⟨s, m, s'⟩ := by
  cases hshown : shown ⟨s, m, s'⟩ with
  | none => exact noneMissed_snoc_quiet hrun hnext hshown
  | some rows =>
      constructor
      · intro h
        exact ⟨noneMissed_of_snoc hrun hnext hshown h, arrivesInTime_of_snoc hrun hnext hshown h⟩
      · intro ⟨h, htime⟩
        exact noneMissed_snoc hrun hnext hshown h htime

end OneMore

/-- Each new alert is notified exactly once if and only if each arrives in time, whatever is
meant by the first answered poll. -/
theorem notifiedOnce_iff (r : Answering) {onPi : Bool} {clock : Timestamp} {s : Watch}
    {ts : List (Transition Watch WatchMove)} (hrun : watching.Run (opened onPi clock) ts s) :
    NotifiedOnce r ts ↔ Machine.EachStep (ArrivesInTime r) ts := by
  have hguarded := guarded_of_run hrun
  have hcomplete : NoneMissed r ts ↔ Machine.EachStep (ArrivesInTime r) ts := by
    clear hguarded
    induction hrun with
    | nil =>
        refine iff_of_true (fun a ⟨u, hu, _⟩ => by cases hu) fun us t hus => ?_
        simp at hus
    | snoc hus hnext ih => rw [complete_snoc hus hnext, Machine.eachStep_snoc, ih]
  rw [← hcomplete]
  exact ⟨NotifiedOnce.complete, fun h => ⟨hguarded.forward, hguarded.once, h⟩⟩

/-- The doorbell rings without a face, which adds an alert. -/
def ringMoves {ε : Type} : List (Move ε HouseTurn Surroundings) :=
  [.own (.start (.request .doorbell nobody)), .own (.step 0), .own (.step 0)]

def pollMoves (i : Nat) : List WatchMove := [.act (), .execute i 0 nobody, .resolve i]

theorem second_alert_notified_once : ∃ ts s, watching.Run (opened false 0) ts s ∧
    NotifiedOnce .given ts ∧ NotifiedOnce .received ts ∧ notifiedIds ts = [2] := by
  have hend : (watching.trace (opened false 0)
      (ringMoves ++ pollMoves 0 ++ ringMoves ++ pollMoves 1)).map (fun (ts, _) =>
        (decide (Machine.EachStep (ArrivesInTime .given) ts),
          decide (Machine.EachStep (ArrivesInTime .received) ts), notifiedIds ts)) =
      some (true, true, [2]) := by
    decide +kernel
  obtain ⟨ts, s, hrun, hview⟩ := Machine.exists_run_of_view hend
  obtain ⟨hgiven, hrest⟩ := Prod.mk.inj hview
  obtain ⟨hreceived, hids⟩ := Prod.mk.inj hrest
  exact ⟨ts, s, hrun, (notifiedOnce_iff .given hrun).mpr (of_decide_eq_true hgiven),
    (notifiedOnce_iff .received hrun).mpr (of_decide_eq_true hreceived), hids⟩

/-- After an empty first answer the next one is taken for the first load. -/
theorem not_always_notifiedOnce : ∃ ts s, watching.Run (opened false 0) ts s ∧
    ¬ NotifiedOnce .given ts ∧ ¬ NotifiedOnce .received ts := by
  have hend : (watching.trace (opened false 0)
      (pollMoves 0 ++ ringMoves ++ pollMoves 1)).map (fun (ts, _) =>
        (ts.filterMap shown, decide (NewSince .given ts ⟨1, 0, .doorbellNoFace, false⟩),
          decide (NewSince .received ts ⟨1, 0, .doorbellNoFace, false⟩), notifiedIds ts)) =
      some ([[], [⟨1, 0, .doorbellNoFace, false⟩]], true, true, []) := by
    decide +kernel
  obtain ⟨ts, s, hrun, hview⟩ := Machine.exists_run_of_view hend
  obtain ⟨hshown, hrest⟩ := Prod.mk.inj hview
  obtain ⟨hgiven, hrest⟩ := Prod.mk.inj hrest
  obtain ⟨hreceived, hids⟩ := Prod.mk.inj hrest
  have hlast : [⟨1, 0, .doorbellNoFace, false⟩] ∈ ts.filterMap shown := by
    rw [hshown]
    simp
  obtain ⟨t, ht, hrows⟩ := List.mem_filterMap.mp hlast
  have hunread : ShownUnread ts ⟨1, 0, .doorbellNoFace, false⟩ :=
    ⟨t, ht, _, hrows, by simp, rfl⟩
  refine ⟨ts, s, hrun, fun h => ?_, fun h => ?_⟩
  · have hmissed := h.complete _ hunread (of_decide_eq_true hgiven)
    rw [hids] at hmissed
    cases hmissed
  · have hmissed := h.complete _ hunread (of_decide_eq_true hreceived)
    rw [hids] at hmissed
    cases hmissed

end FacialCamera.Screen
