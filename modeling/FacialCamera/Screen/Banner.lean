import FacialCamera.Screen.Dashboard

/-! # The security banner of the Dashboard

The banner counts unread alerts as the Pi does, and as unknown faces of today the
entries of type unknown among the five newest. In every reachable state it is right
exactly where these five and today's agree on the unknown entries.
-/

namespace FacialCamera.Screen

open FacialCamera.Core Backend Recognition

inductive Banner where
  | unreadAlerts (count : Nat)
  | unknownFaces (count : Nat)
  | allClear
  deriving DecidableEq

namespace Banner

def title : Banner → String
  | .unreadAlerts count => toString count ++ " Unread Alert" ++ if count > 1 then "s" else ""
  | .unknownFaces count =>
      toString count ++ " Unknown Face" ++ (if count > 1 then "s" else "") ++ " Detected"
  | .allClear => "All Clear"

/-- The other two titles have a capital letter that this one lacks. -/
theorem title_eq_allClear {b : Banner} : b.title = "All Clear" ↔ b = .allClear := by
  constructor
  · intro htitle
    have habsent : 'U' ∉ b.title.toList := by
      rw [htitle]
      decide
    cases b with
    | allClear => rfl
    | unreadAlerts count => simp [title] at habsent
    | unknownFaces count => simp [title] at habsent
  · intro h
    rw [h]
    rfl

end Banner

namespace Dashboard

def unreadAlerts (p : Dashboard) : Nat := (p.stats.map Stats.unreadAlerts).getD 0

def todayUnknown (p : Dashboard) : Nat := (p.logs.filter fun l => l.type = .unknown).length

/-- The banner, hidden before the first load. -/
def banner (p : Dashboard) : Option Banner :=
  if p.initialLoad then none
  else if p.unreadAlerts > 0 then some (.unreadAlerts p.unreadAlerts)
  else if p.todayUnknown > 0 then some (.unknownFaces p.todayUnknown)
  else some .allClear

/-- The Dashboard after a load that the Pi has answered in the state `h`. -/
def LoadedAt (p : Dashboard) (h : House) : Prop :=
  ∃ before ofBell seen answers, loadRequests.map (fun r => (execute seen r h).1) =
    answers.map some ∧ p = (Dashboard.resolve (.load ofBell) answers before).1

end Dashboard

/-- The entries of type unknown recorded on the current UTC day. -/
def unknownToday (b : Process) : List LogRow :=
  b.db.logs.filter fun r => r.type = .unknown ∧ Database.day r.timestamp = Database.day b.clock

structure BannerRight (p : Dashboard) (b : Process) : Prop where
  clear : (∃ banner ∈ p.banner, banner.title = "All Clear") ↔
    (∀ a ∈ b.db.alerts, a.read = true) ∧ unknownToday b = []
  count : p.todayUnknown = (unknownToday b).length

def newestFive (b : Process) : List LogRow := b.db.logs.reverse.take 5

/-- The unknown entries among the five newest are those of today. -/
structure WindowIsToday (b : Process) : Prop where
  ofToday : ∀ r ∈ newestFive b, r.type = .unknown →
    Database.day r.timestamp = Database.day b.clock
  recent : ∀ r ∈ unknownToday b, r ∈ newestFive b

/-! ## Counting in a window -/

theorem countP_split {α : Type} (p q : α → Bool) (l : List α) :
    l.countP p = l.countP (fun r => p r && q r) + l.countP fun r => p r && !q r := by
  induction l with
  | nil => rfl
  | cons r l ih =>
      simp only [List.countP_cons, ih]
      cases p r <;> cases q r <;> simp <;> omega

section Window

variable {α : Type} {p q : α → Bool} {window rest : List α}

/-- A window counts with `p` what the whole list counts with `p` and `q` if both agree. -/
theorem window_count_of_agree (hwindow : ∀ w ∈ window, p w = true → q w = true)
    (hrest : ∀ r ∈ rest, p r = true → q r = false) :
    window.countP p = (window ++ rest).countP fun r => p r && q r := by
  have hnone : rest.countP (fun r => p r && q r) = 0 := by
    simpa [List.countP_eq_zero] using hrest
  rw [List.countP_append, hnone, Nat.add_zero]
  refine List.countP_congr fun w hw => ?_
  simpa using hwindow w hw

/-- The converse, where what lies behind the window makes all of it satisfy `q`. -/
theorem agree_of_window_count
    (hnewer : ∀ r ∈ rest, p r = true → q r = true → ∀ w ∈ window, q w = true)
    (hcount : window.countP p = (window ++ rest).countP fun r => p r && q r) :
    (∀ w ∈ window, p w = true → q w = true) ∧ ∀ r ∈ rest, p r = true → q r = false := by
  have hwindow : window.countP (fun r => p r && !q r) = 0 ↔
      ∀ w ∈ window, p w = true → q w = true := by
    simp [List.countP_eq_zero]
  have hrest : rest.countP (fun r => p r && q r) = 0 ↔
      ∀ r ∈ rest, p r = true → q r = false := by
    simp [List.countP_eq_zero]
  rw [countP_split p q window, List.countP_append] at hcount
  rw [← hwindow, ← hrest]
  by_cases hzero : rest.countP (fun r => p r && q r) = 0
  · exact ⟨by omega, hzero⟩
  · obtain ⟨r, hr, hpq⟩ := List.countP_pos_iff.mp (Nat.pos_of_ne_zero hzero)
    have hpq := Bool.and_eq_true_iff.mp hpq
    have hsame := hwindow.mpr fun w hw _ => hnewer r hr hpq.1 hpq.2 w hw
    omega

end Window

/-! ## The loaded Dashboard -/

theorem day_mono {t t' : Timestamp} (h : t ≤ t') : Database.day t ≤ Database.day t' := by
  have hquotient : t / 86400 ≤ t' / 86400 := by linarith
  exact Int.floor_mono hquotient

/-- What the banner is computed from. -/
structure LoadedData (p : Dashboard) (b : Process) : Prop where
  initialLoad : p.initialLoad = false
  unreadAlerts : p.unreadAlerts = b.db.alerts.countP fun r => !r.read
  todayUnknown : p.todayUnknown = (newestFive b).countP fun r => decide (r.type = .unknown)

theorem Dashboard.LoadedAt.data {p : Dashboard} {h : House} (hloaded : p.LoadedAt h) :
    LoadedData p h.shared := by
  obtain ⟨before, ofBell, seen, answers, hanswers, rfl⟩ := hloaded
  have hreads : Dashboard.loadRequests.map (fun r => (execute seen r h).1) =
      [.door ⟨h.shared.db.doorLocked⟩, .logs (h.shared.db.getLogs 5),
        .stats (h.shared.db.getStats h.shared.clock)].map some := rfl
  have hbodies := List.map_injective_iff.mpr (Option.some_injective Body)
    (hanswers.symm.trans hreads)
  subst hbodies
  refine ⟨rfl, rfl, ?_⟩
  show ((h.shared.db.getLogs 5).filter _).length = _
  have hlogs : h.shared.db.getLogs 5 = (newestFive h.shared).map LogRow.entry := by
    simp [Database.getLogs, newestFive, List.map_take]
  rw [hlogs, ← List.countP_eq_length_filter, List.countP_map]
  rfl

/-- The banner is clear exactly if both counts are zero. -/
theorem LoadedData.clear_iff {p : Dashboard} {b : Process} (hdata : LoadedData p b) :
    (∃ banner ∈ p.banner, banner.title = "All Clear") ↔
      (∀ a ∈ b.db.alerts, a.read = true) ∧ p.todayUnknown = 0 := by
  have hunread : p.unreadAlerts = 0 ↔ ∀ a ∈ b.db.alerts, a.read = true := by
    rw [hdata.unreadAlerts]
    simp [List.countP_eq_zero]
  rw [← hunread]
  simp only [Dashboard.banner, hdata.initialLoad, Bool.false_eq_true, if_false,
    Banner.title_eq_allClear]
  by_cases hpositive : p.unreadAlerts > 0
  · simp [hpositive, Nat.ne_of_gt hpositive]
  · have hzero : p.unreadAlerts = 0 := by omega
    by_cases hunknown : p.todayUnknown > 0
    · simp [hzero, hunknown, Nat.ne_of_gt hunknown]
    · have hnone : p.todayUnknown = 0 := by omega
      simp [hzero, hnone]

section Today

variable {b : Process}

def olderEntries (b : Process) : List LogRow := b.db.logs.reverse.drop 5

theorem newestFive_append (b : Process) : newestFive b ++ olderEntries b = b.db.logs.reverse :=
  List.take_append_drop 5 _

theorem mem_logs_iff {r : LogRow} : r ∈ b.db.logs ↔ r ∈ newestFive b ∨ r ∈ olderEntries b := by
  rw [← List.mem_append, newestFive_append, List.mem_reverse]

theorem length_unknownToday (b : Process) : (unknownToday b).length =
    (newestFive b ++ olderEntries b).countP (fun r => decide (r.type = .unknown) &&
      decide (Database.day r.timestamp = Database.day b.clock)) := by
  rw [newestFive_append, List.countP_reverse, unknownToday, ← List.countP_eq_length_filter]
  simp only [Bool.decide_and]

/-- No entry is both in the window and behind it. -/
theorem not_mem_olderEntries (hserial : Serial LogRow.id b.db.logs) {r : LogRow}
    (hr : r ∈ newestFive b) : r ∉ olderEntries b := by
  have hnodup := List.nodup_reverse.mpr hserial.nodup.of_map
  rw [← newestFive_append] at hnodup
  exact fun hold => (List.nodup_append.mp hnodup).2.2 r hr r hold rfl

/-- The window counts the unknown entries of today if it agrees with them, in whatever order
the timestamps are. -/
theorem WindowIsToday.count (hserial : Serial LogRow.id b.db.logs) (h : WindowIsToday b) :
    (newestFive b).countP (fun r => decide (r.type = .unknown)) = (unknownToday b).length := by
  rw [length_unknownToday]
  refine window_count_of_agree (fun w hw hunknown => ?_) (fun r hr hunknown => ?_)
  · exact decide_eq_true (h.ofToday w hw (of_decide_eq_true hunknown))
  · refine decide_eq_false fun htoday => ?_
    have hlisted : r ∈ unknownToday b := List.mem_filter.mpr
      ⟨mem_logs_iff.mpr (Or.inr hr), decide_eq_true ⟨of_decide_eq_true hunknown, htoday⟩⟩
    exact not_mem_olderEntries hserial (h.recent r hlisted) hr

theorem windowIsToday_of_count (hrecorded : Registered b)
    (hcount : (newestFive b).countP (fun r => decide (r.type = .unknown)) =
      (unknownToday b).length) : WindowIsToday b := by
  have hordered : ∀ w ∈ newestFive b, ∀ r ∈ olderEntries b, r.timestamp ≤ w.timestamp := by
    have hpairs := List.pairwise_reverse.mpr hrecorded.ordered
    rw [← newestFive_append] at hpairs
    exact fun w hw r hr => (List.pairwise_append.mp hpairs).2.2 w hw r hr
  rw [length_unknownToday] at hcount
  obtain ⟨hwindow, hrest⟩ := agree_of_window_count (fun r hr _ htoday w hw => by
    -- An entry of today lies behind the window, so the window is of today.
    have htoday := of_decide_eq_true htoday
    have hafter := day_mono (hordered w hw r hr)
    have hbefore := day_mono (hrecorded.past w (mem_logs_iff.mpr (Or.inl hw)))
    exact decide_eq_true (by omega)) hcount
  simp only [decide_eq_true_eq, decide_eq_false_iff_not] at hwindow hrest
  refine ⟨hwindow, fun r hr => ?_⟩
  obtain ⟨hlogged, htoday⟩ := List.mem_filter.mp hr
  have htoday := of_decide_eq_true htoday
  rcases mem_logs_iff.mp hlogged with hr | hr
  · exact hr
  · exact absurd htoday.2 (hrest r hr htoday.1)

end Today

theorem LoadedData.bannerRight {p : Dashboard} {b : Process} (hdata : LoadedData p b)
    (hcount : p.todayUnknown = (unknownToday b).length) : BannerRight p b := by
  refine ⟨hdata.clear_iff.trans ?_, hcount⟩
  rw [hcount, List.length_eq_zero_iff]

/-- At any time, and in whatever order the timestamps of the log are, the banner is right
after a load if the unknown entries among the five newest are those of today. -/
theorem bannerRight_of_windowIsToday {h : House} {p : Dashboard} (hloaded : p.LoadedAt h)
    (hserial : Serial LogRow.id h.shared.db.logs) (hwindow : WindowIsToday h.shared) :
    BannerRight p h.shared :=
  hloaded.data.bannerRight (hloaded.data.todayUnknown.trans (hwindow.count hserial))

/-- After a load in a reachable state the banner is right if and only if the unknown entries
among the five newest are those of today. -/
theorem bannerRight_iff {onPi : Bool} {clock : Timestamp} {h : House}
    {ts : List (Transition House HouseTurn)} (hrun : interleaved.Run (powerOn onPi clock) ts h)
    {p : Dashboard} (hloaded : p.LoadedAt h) : BannerRight p h.shared ↔ WindowIsToday h.shared := by
  have hrecorded := recorded_of_run hrun
  constructor
  · intro hright
    exact windowIsToday_of_count hrecorded (hloaded.data.todayUnknown.symm.trans hright.count)
  · exact bannerRight_of_windowIsToday hloaded hrecorded.logs

/-- Event `e` starts a thread that runs to its end after `n` calls. -/
def handled (e : Event) (n : Nat) : List HouseTurn := .start e :: List.replicate n (.step 0)

def stranger : Sight := ⟨fun _ => some (.face [0] 1), none, .available fun _ _ => 1⟩

/-- The alerts of the motion pipeline are switched off, and it sees a stranger. -/
def unannounced : List HouseTurn :=
  handled (.request (.setMotionSettings none (some false)) nobody) 3 ++ handled (.motion stranger) 9

def loadedDashboard (h : House) : Dashboard :=
  (Dashboard.resolve (.load false) [.door ⟨h.shared.db.doorLocked⟩,
    .logs (h.shared.db.getLogs 5), .stats (h.shared.db.getStats h.shared.clock)] {}).1

theorem loadedAt_loadedDashboard (h : House) : (loadedDashboard h).LoadedAt h :=
  ⟨{}, false, nobody, _, rfl, rfl⟩

instance (b : Process) : Decidable (WindowIsToday b) :=
  decidable_of_iff ((∀ r ∈ newestFive b, r.type = .unknown →
      Database.day r.timestamp = Database.day b.clock) ∧ ∀ r ∈ unknownToday b, r ∈ newestFive b)
    ⟨fun h => ⟨h.1, h.2⟩, fun h => ⟨h.1, h.2⟩⟩

theorem bannerRight_stranger : ∃ ts h, interleaved.Run (powerOn false 10) ts h ∧
    BannerRight (loadedDashboard h) h.shared ∧
      (loadedDashboard h).banner = some (.unknownFaces 1) := by
  have hend : (interleaved.trace (powerOn false 10) unannounced).map (fun (_, h) =>
      (decide (WindowIsToday h.shared), (loadedDashboard h).banner)) =
      some (true, some (.unknownFaces 1)) := by
    decide +kernel
  obtain ⟨ts, h, hrun, hview⟩ := Machine.exists_run_of_view hend
  obtain ⟨hwindow, hbanner⟩ := Prod.mk.inj hview
  exact ⟨ts, h, hrun, (bannerRight_iff hrun (loadedAt_loadedDashboard h)).mpr
    (of_decide_eq_true hwindow), hbanner⟩

/-- Five manual entries push the stranger of today out of the window. -/
theorem not_always_bannerRight :
    ¬ ∀ (ts : List (Transition House HouseTurn)) (h : House) (p : Dashboard),
      interleaved.Run (powerOn false 10) ts h → p.LoadedAt h → BannerRight p h.shared := by
  intro halways
  have hend : (interleaved.trace (powerOn false 10)
      (unannounced ++ (List.replicate 5 (handled (.request .doorLock nobody) 4)).flatten)).map
      (fun (_, h) => ((loadedDashboard h).banner, (unknownToday h.shared).length)) =
      some (some .allClear, 1) := by
    decide +kernel
  obtain ⟨ts, h, hrun, hview⟩ := Machine.exists_run_of_view hend
  obtain ⟨hbanner, htoday⟩ := Prod.mk.inj hview
  have hright := halways ts h _ hrun (loadedAt_loadedDashboard h)
  have hnone := (hright.clear.mp ⟨.allClear, hbanner, rfl⟩).2
  simp [hnone] at htoday

end FacialCamera.Screen
