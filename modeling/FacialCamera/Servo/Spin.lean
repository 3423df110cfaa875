import FacialCamera.Core.Machine
import FacialCamera.Backend.Hardware

/-! # Which spin moves the motor

The spin threads of a `ServoController` under every schedule. One `_cancel`
event serves all of them: a command sets it, and the next thread through the
`_busy` lock clears it. While a spin is in its loop nobody else can reach the
clear, so the event stops it; but the lock lets its waiters in in any order, and
a superseded spin that comes in after the newest one finds the event cleared.
-/

namespace FacialCamera.Servo

open FacialCamera.Core Backend

inductive Turn where
  | command (lock : Bool)
  | thread (i : Nat)
  deriving DecidableEq

def spinning : Machine ServoController Turn where
  next s
    | .command true => some s.lock
    | .command false => some s.unlock
    | .thread i => s.turn i

/-- The spin of the newest command. -/
def Newest (s : ServoController) (i : Nat) : Prop := i + 1 = s.spins.length

def NewestWaits (s : ServoController) : Prop := ∀ n, Newest s n → s.phase n = some .waiting

instance (s : ServoController) (i : Nat) : Decidable (Newest s i) :=
  inferInstanceAs (Decidable (_ = _))

instance (s : ServoController) : Decidable (NewestWaits s) :=
  decidable_of_iff (∀ n < s.spins.length, Newest s n → s.phase n = some .waiting)
    ⟨fun h n hn => h n (Nat.lt_of_succ_le (Nat.le_of_eq hn)) hn, fun h n _ => h n⟩

def Inside (s : ServoController) (i : Nat) : Prop := ∃ p ∈ s.phase i, p.inside = true

def InLoop (s : ServoController) (i : Nat) : Prop := ∃ p ∈ s.phase i, p.inLoop = true

/-- The spin that a transition sets the motor's duty for. -/
def drivenBy (t : Transition ServoController Turn) : Option Nat :=
  match t.label with
  | .command _ => none
  | .thread i =>
      match t.after.phase i with
      | some (.driving _) => some i
      | _ => none

/-- The spins that drove the motor, one entry for each tick. -/
def driveLog (ts : List (Transition ServoController Turn)) : List Nat := ts.filterMap drivenBy

/-! ## The step of a thread -/

inductive Turned (s : ServoController) (i : Nat) : ServoController → Prop where
  | exit : s.phase i = some .waiting → s.pwm = false → Turned s i (s.put i (.ended 0))
  | acquire : s.phase i = some .waiting → s.busy = false →
      Turned s i ({ s with busy := true }.put i .acquired)
  | clear : s.phase i = some .acquired → Turned s i ({ s with cancel := false }.put i (.looping 0))
  | drive {ticks : Nat} : s.phase i = some (.looping ticks) → ticks < SPIN_TICKS →
      s.cancel = false → Turned s i (s.put i (.driving ticks))
  | leave {ticks : Nat} : s.phase i = some (.looping ticks) →
      ¬ (ticks < SPIN_TICKS ∧ s.cancel = false) → Turned s i (s.put i (.stopping ticks))
  | tick {ticks : Nat} : s.phase i = some (.driving ticks) →
      Turned s i (s.put i (.looping (ticks + 1)))
  | release {ticks : Nat} : s.phase i = some (.stopping ticks) →
      Turned s i ({ s with busy := false }.put i (.ended ticks))

theorem turned_of_turn {s s' : ServoController} {i : Nat} (h : s.turn i = some s') :
    Turned s i s' := by
  unfold ServoController.turn at h
  split at h
  · cases h
  case h_2 hphase =>
    split at h
    case isTrue hpwm =>
      cases h
      exact .exit hphase hpwm
    case isFalse =>
      split at h
      case isTrue => cases h
      case isFalse hbusy =>
        cases h
        exact .acquire hphase (by simpa using hbusy)
  case h_3 hphase =>
    cases h
    exact .clear hphase
  case h_4 ticks hphase =>
    split at h
    case isTrue hdrive =>
      cases h
      exact .drive hphase hdrive.1 hdrive.2
    case isFalse hleave =>
      cases h
      exact .leave hphase hleave
  case h_5 ticks hphase =>
    cases h
    exact .tick hphase
  case h_6 ticks hphase =>
    cases h
    exact .release hphase
  · cases h

/-! ## Mutual exclusion -/

structure Mutex (s : ServoController) : Prop where
  held : ∀ i, Inside s i → s.busy = true
  single : ∀ i j, Inside s i → Inside s j → i = j

theorem inside_spin {s : ServoController} {duty : ℚ} {i : Nat} :
    Inside (s.spin duty) i ↔ Inside s i := by
  by_cases hi : i = s.spins.length
  · have hnone : s.phase i = none := (s.phase_eq_none_iff i).mpr hi.ge
    simp [Inside, ServoController.phase_spin, hi, Phase.inside, hi ▸ hnone]
  · simp [Inside, ServoController.phase_spin, hi]

/-- A step of thread `i` leaves the phases of the other threads alone. -/
theorem Turned.phase_of_ne {s s' : ServoController} {i j : Nat} (h : Turned s i s')
    (hij : j ≠ i) : s'.phase j = s.phase j := by
  cases h <;> exact (ServoController.phase_put _ i j _).trans (if_neg (Ne.symm hij))

theorem Turned.inside_of_ne {s s' : ServoController} {i j : Nat} (h : Turned s i s')
    (hij : j ≠ i) : Inside s' j ↔ Inside s j := by
  rw [Inside, h.phase_of_ne hij, Inside]

theorem Turned.length {s s' : ServoController} {i : Nat} (h : Turned s i s') :
    s'.spins.length = s.spins.length := by
  cases h <;> exact ServoController.length_put _ i _

theorem not_inside_of_phase {s : ServoController} {i : Nat} {p : Phase} (h : s.phase i = some p)
    (hp : p.inside = false) : ¬ Inside s i := by
  simp [Inside, h, hp]

theorem inside_of_phase {s : ServoController} {i : Nat} {p : Phase} (h : s.phase i = some p)
    (hp : p.inside = true) : Inside s i := ⟨p, h, hp⟩

theorem phase_put_self {s : ServoController} {i : Nat} {p q : Phase} (h : s.phase i = some q) :
    (s.put i p).phase i = some p := by
  simp [ServoController.phase_put, h]

/-- A thread that stays inside its critical section. -/
theorem Mutex.of_inside {s s' : ServoController} (h : Mutex s)
    (hinside : ∀ j, Inside s' j → Inside s j) (hbusy : s'.busy = s.busy) : Mutex s' :=
  ⟨fun j hj => hbusy ▸ h.held j (hinside j hj),
    fun j k hj hk => h.single j k (hinside j hj) (hinside k hk)⟩

theorem Mutex.turned {s s' : ServoController} {i : Nat} (h : Mutex s) (hturn : Turned s i s') :
    Mutex s' := by
  have hothers : ∀ j, Inside s' j → j = i ∨ Inside s j := by
    intro j hj
    by_cases hij : j = i
    · exact Or.inl hij
    · exact Or.inr ((hturn.inside_of_ne hij).mp hj)
  have hstay : Inside s i → s'.busy = s.busy → Mutex s' := by
    intro hi hbusy
    refine h.of_inside (fun j hj => ?_) hbusy
    rcases hothers j hj with rfl | hj
    · exact hi
    · exact hj
  cases hturn with
  | exit hwaiting hpwm =>
      have hout := not_inside_of_phase (phase_put_self (p := .ended 0) hwaiting) rfl
      refine h.of_inside (fun j hj => ?_) rfl
      rcases hothers j hj with rfl | hj
      · exact absurd hj hout
      · exact hj
  | acquire hwaiting hbusy =>
      have honly : ∀ j, Inside ({ s with busy := true }.put i .acquired) j → j = i := by
        intro j hj
        rcases hothers j hj with rfl | hj
        · rfl
        · simp [h.held j hj] at hbusy
      exact ⟨fun _ _ => rfl, fun j k hj hk => (honly j hj).trans (honly k hk).symm⟩
  | clear hphase => exact hstay (inside_of_phase hphase rfl) rfl
  | drive hphase _ _ => exact hstay (inside_of_phase hphase rfl) rfl
  | leave hphase _ => exact hstay (inside_of_phase hphase rfl) rfl
  | tick hphase => exact hstay (inside_of_phase hphase rfl) rfl
  | @release ticks hphase =>
      have hout := not_inside_of_phase
        (phase_put_self (s := { s with busy := false }) (p := .ended ticks) hphase) rfl
      have hnone : ∀ j, ¬ Inside ({ s with busy := false }.put i (.ended ticks)) j := by
        intro j hj
        rcases hothers j hj with rfl | hj'
        · exact hout hj
        · have := h.single j i hj' (inside_of_phase hphase rfl)
          subst this
          exact hout hj
      exact ⟨fun j hj => absurd hj (hnone j), fun j _ hj => absurd hj (hnone j)⟩

theorem Mutex.spin {s : ServoController} (h : Mutex s) (duty : ℚ) : Mutex (s.spin duty) :=
  h.of_inside (fun _ hj => inside_spin.mp hj) rfl

theorem Mutex.step {s s' : ServoController} {turn : Turn} (h : Mutex s)
    (hnext : spinning.next s turn = some s') : Mutex s' := by
  cases turn with
  | command lock =>
      cases lock <;> cases hnext
      · exact Mutex.spin (s := { s with locked := false }) ⟨h.held, h.single⟩ _
      · exact Mutex.spin (s := { s with locked := true }) ⟨h.held, h.single⟩ _
  | thread i => exact h.turned (turned_of_turn hnext)

theorem mutex_init (onPi : Bool) : Mutex (ServoController.init onPi) := by
  constructor <;> simp [Inside, ServoController.init, ServoController.phase]

/-! ## A cancelled spin drives no further tick -/

/-- The thread has been told to stop and has not come to its check, or is past its loop. -/
def Cancelled (s : ServoController) (i : Nat) : Prop :=
  (InLoop s i ∧ s.cancel = true) ∨ ∃ ticks, s.phase i = some (.stopping ticks) ∨
    s.phase i = some (.ended ticks)

theorem phase_spin_of_some {s : ServoController} {i : Nat} {p : Phase} (h : s.phase i = some p)
    (duty : ℚ) : (s.spin duty).phase i = some p := by
  have hi : i ≠ s.spins.length := by
    rintro rfl
    rw [(s.phase_eq_none_iff _).mpr le_rfl] at h
    cases h
  rw [ServoController.phase_spin, if_neg hi, h]

/-- A command cancels the spin that is in its loop. -/
theorem InLoop.cancelled_spin {s : ServoController} {i : Nat} (h : InLoop s i) (duty : ℚ) :
    Cancelled (s.spin duty) i := by
  obtain ⟨p, hp, hloop⟩ := h
  exact Or.inl ⟨⟨p, phase_spin_of_some hp duty, hloop⟩, rfl⟩

theorem Cancelled.spin {s : ServoController} {i : Nat} (h : Cancelled s i) (duty : ℚ) :
    Cancelled (s.spin duty) i := by
  rcases h with ⟨hloop, _⟩ | ⟨ticks, hpast⟩
  · exact hloop.cancelled_spin duty
  · exact Or.inr ⟨ticks, hpast.imp (phase_spin_of_some · duty) (phase_spin_of_some · duty)⟩

theorem InLoop.inside {s : ServoController} {i : Nat} (h : InLoop s i) : Inside s i := by
  obtain ⟨p, hp, hloop⟩ := h
  refine ⟨p, hp, ?_⟩
  cases p <;> simp_all [Phase.inLoop, Phase.inside]

/-- The event is cleared by the thread that holds `_busy`, so by no other one. -/
theorem Cancelled.turned_of_ne {s s' : ServoController} {i j : Nat} (h : Cancelled s i)
    (hmutex : Mutex s) (hturn : Turned s j s') (hij : i ≠ j) : Cancelled s' i := by
  have hphase := hturn.phase_of_ne hij
  rcases h with ⟨hloop, hcancel⟩ | hpast
  · refine Or.inl ⟨by simpa only [InLoop, hphase] using hloop, ?_⟩
    cases hturn with
    | clear hacquired =>
        exact absurd (hmutex.single i j hloop.inside (inside_of_phase hacquired rfl)) hij
    | _ => exact hcancel
  · exact Or.inr (by simpa only [hphase] using hpast)

/-- Its own next step takes a cancelled thread out of the loop. -/
theorem Cancelled.turned_self {s s' : ServoController} {i : Nat} (h : Cancelled s i)
    (hturn : Turned s i s') :
    Cancelled s' i ∧ ∀ ticks, s'.phase i ≠ some (.driving ticks) := by
  cases hturn with
  | exit hwaiting _ => simp [Cancelled, InLoop, hwaiting, Phase.inLoop] at h
  | acquire hwaiting _ => simp [Cancelled, InLoop, hwaiting, Phase.inLoop] at h
  | clear hacquired => simp [Cancelled, InLoop, hacquired, Phase.inLoop] at h
  | drive hlooping _ hcancel => simp [Cancelled, InLoop, hlooping, hcancel] at h
  | leave hlooping _ => simp [Cancelled, phase_put_self hlooping]
  | tick hdriving =>
      have hcancel : s.cancel = true := by
        simpa [Cancelled, InLoop, hdriving, Phase.inLoop] using h
      simp [Cancelled, InLoop, phase_put_self hdriving, Phase.inLoop, hcancel]
  | @release ticks hstopping =>
      have hended := phase_put_self (s := { s with busy := false }) (p := .ended ticks) hstopping
      simp [Cancelled, hended]

theorem Cancelled.step {s s' : ServoController} {i : Nat} {turn : Turn} (h : Cancelled s i)
    (hmutex : Mutex s) (hnext : spinning.next s turn = some s') :
    Cancelled s' i ∧ drivenBy ⟨s, turn, s'⟩ ≠ some i := by
  cases turn with
  | command lock =>
      refine ⟨?_, by simp [drivenBy]⟩
      cases lock <;> cases hnext
      · exact Cancelled.spin (s := { s with locked := false }) h _
      · exact Cancelled.spin (s := { s with locked := true }) h _
  | thread j =>
      have hturn := turned_of_turn hnext
      by_cases hij : i = j
      · subst hij
        obtain ⟨hcancelled, hidle⟩ := h.turned_self hturn
        refine ⟨hcancelled, ?_⟩
        cases hphase : s'.phase i with
        | none => simp [drivenBy, hphase]
        | some p => cases p <;> simp_all [drivenBy]
      · refine ⟨h.turned_of_ne hmutex hturn hij, ?_⟩
        simp only [drivenBy]
        split <;> simp [Ne.symm hij]

theorem Cancelled.run {s s' : ServoController} {i : Nat}
    {ts : List (Transition ServoController Turn)} (h : Cancelled s i) (hmutex : Mutex s)
    (hrun : spinning.Run s ts s') : ∀ t ∈ ts, drivenBy t ≠ some i := by
  suffices (Cancelled s' i ∧ Mutex s') ∧ ∀ t ∈ ts, drivenBy t ≠ some i from this.2
  induction hrun with
  | nil => exact ⟨⟨h, hmutex⟩, by simp⟩
  | snoc hprior hnext ih =>
      obtain ⟨⟨hcancelled, hm⟩, hidle⟩ := ih
      obtain ⟨hafter, hdrive⟩ := hcancelled.step hm hnext
      refine ⟨⟨hafter, hm.step hnext⟩, fun t ht => ?_⟩
      rcases List.mem_append.mp ht with ht | ht
      · exact hidle t ht
      · rw [List.mem_singleton.mp ht]
        exact hdrive

/-! ## The newest spin wins where nothing overtakes it -/

/-- A thread that gets through `_busy` is the newest one, or the newest one still waits. -/
def InOrder (t : Transition ServoController Turn) : Prop :=
  match t.label with
  | .command _ => True
  | .thread i => t.before.phase i = some .waiting → Newest t.before i ∨ NewestWaits t.before

instance (t : Transition ServoController Turn) : Decidable (InOrder t) := by
  unfold InOrder
  split <;> infer_instance

/-- What the newest spin `n` has done, by its phase. -/
def Record (log : List Nat) (cancel : Bool) (n : Nat) : Phase → Prop
  | .waiting => True
  | .acquired => True
  | .looping ticks => cancel = false ∧ ticks ≤ SPIN_TICKS ∧ (0 < ticks → log.getLast? = some n)
  | .driving ticks => cancel = false ∧ ticks < SPIN_TICKS ∧ log.getLast? = some n
  | .stopping ticks => ticks = SPIN_TICKS ∧ log.getLast? = some n
  | .ended ticks => ticks = SPIN_TICKS ∧ log.getLast? = some n

/-- Once the newest spin is past the lock no other thread is inside. -/
structure Ahead (log : List Nat) (s : ServoController) : Prop where
  alone : ∀ n, Newest s n → s.phase n ≠ some .waiting → ∀ i, Inside s i → i = n
  record : ∀ n p, Newest s n → s.phase n = some p → Record log s.cancel n p

theorem Ahead.spin (log : List Nat) (s : ServoController) (duty : ℚ) :
    Ahead log (s.spin duty) := by
  have hwaits : ∀ n, Newest (s.spin duty) n → (s.spin duty).phase n = some .waiting := by
    intro n hn
    have hlast : n = s.spins.length := by simpa [Newest, ServoController.spin] using hn
    simp [ServoController.phase_spin, hlast]
  refine ⟨fun n hn hpast => absurd (hwaits n hn) hpast, fun n p hn hp => ?_⟩
  rw [hwaits n hn] at hp
  cases hp
  trivial

/-- A thread that can move is inside its critical section or is let in. -/
theorem Turned.inside_or_waiting {s s' : ServoController} {i : Nat} (h : Turned s i s')
    (hpwm : s.pwm = true) :
    Inside s i ∨ (s.phase i = some .waiting ∧ s.busy = false) := by
  cases h with
  | exit _ hnone => simp [hpwm] at hnone
  | acquire hwaiting hbusy => exact Or.inr ⟨hwaiting, hbusy⟩
  | clear hphase => exact Or.inl (inside_of_phase hphase rfl)
  | drive hphase _ _ => exact Or.inl (inside_of_phase hphase rfl)
  | leave hphase _ => exact Or.inl (inside_of_phase hphase rfl)
  | tick hphase => exact Or.inl (inside_of_phase hphase rfl)
  | release hphase => exact Or.inl (inside_of_phase hphase rfl)

theorem Ahead.turned_newest {log : List Nat} {s s' : ServoController} {i : Nat}
    (h : Ahead log s) (hmutex : Mutex s) (hpwm : s.pwm = true) (hturn : Turned s i s')
    (hi : Newest s i) : Ahead (log ++ (drivenBy ⟨s, .thread i, s'⟩).toList) s' := by
  have hsame : ∀ n, Newest s' n → n = i := by
    intro n hn
    have hlen := hturn.length
    unfold Newest at hn hi
    omega
  constructor
  · intro n hn _ j hj
    rw [hsame n hn]
    by_contra hji
    have hj := (hturn.inside_of_ne hji).mp hj
    rcases hturn.inside_or_waiting hpwm with hinside | ⟨_, hbusy⟩
    · exact hji (hmutex.single j i hj hinside)
    · simp [hmutex.held j hj] at hbusy
  · intro n p hn hp
    rw [hsame n hn] at hp ⊢
    cases hturn with
    | exit _ hnone => simp [hpwm] at hnone
    | acquire hwaiting hbusy =>
        have hself := phase_put_self (s := { s with busy := true }) (p := .acquired) hwaiting
        rw [hself] at hp
        cases hp
        trivial
    | clear hacquired =>
        have hself := phase_put_self (s := { s with cancel := false }) (p := .looping 0) hacquired
        rw [hself] at hp
        cases hp
        exact ⟨rfl, Nat.zero_le _, fun hpos => absurd hpos (lt_irrefl 0)⟩
    | @drive ticks hlooping hticks hcancel =>
        have hself := phase_put_self (p := .driving ticks) hlooping
        rw [hself] at hp
        cases hp
        exact ⟨hcancel, hticks, by simp [drivenBy, hself]⟩
    | @leave ticks hlooping hstop =>
        have hself := phase_put_self (p := .stopping ticks) hlooping
        have hrecord : Record log s.cancel i (.looping ticks) := h.record i _ hi hlooping
        obtain ⟨hcancel, hle, hlog⟩ := hrecord
        have hticks : ticks = SPIN_TICKS := by
          have hnot : ¬ ticks < SPIN_TICKS := fun hlt => hstop ⟨hlt, hcancel⟩
          omega
        rw [hself] at hp
        cases hp
        refine ⟨hticks, ?_⟩
        simpa [drivenBy, hself] using hlog (by rw [hticks]; decide)
    | @tick ticks hdriving =>
        have hself := phase_put_self (p := .looping (ticks + 1)) hdriving
        have hrecord : Record log s.cancel i (.driving ticks) := h.record i _ hi hdriving
        obtain ⟨hcancel, hlt, hlog⟩ := hrecord
        rw [hself] at hp
        cases hp
        exact ⟨hcancel, hlt, fun _ => by simpa [drivenBy, hself] using hlog⟩
    | @release ticks hstopping =>
        have hself := phase_put_self (s := { s with busy := false }) (p := .ended ticks) hstopping
        have hrecord : Record log s.cancel i (.stopping ticks) := h.record i _ hi hstopping
        obtain ⟨hticks, hlog⟩ := hrecord
        rw [hself] at hp
        cases hp
        exact ⟨hticks, by simpa [drivenBy, hself] using hlog⟩

/-- A superseded thread moves only while the newest one waits. -/
theorem Ahead.turned_older {log : List Nat} {s s' : ServoController} {i : Nat}
    (h : Ahead log s) (hpwm : s.pwm = true) (hturn : Turned s i s') (hi : ¬ Newest s i)
    (horder : s.phase i = some .waiting → Newest s i ∨ NewestWaits s) : NewestWaits s := by
  intro n hn
  have hne : i ≠ n := fun hin => hi (hin ▸ hn)
  by_contra hpast
  rcases hturn.inside_or_waiting hpwm with hinside | ⟨hwaiting, _⟩
  · exact hne (h.alone n hn hpast i hinside)
  · rcases horder hwaiting with hnewest | hwaits
    · exact hi hnewest
    · exact hpast (hwaits n hn)

theorem Ahead.of_waits {log : List Nat} {s : ServoController} (h : NewestWaits s) :
    Ahead log s := by
  refine ⟨fun n hn hpast => absurd (h n hn) hpast, fun n p hn hp => ?_⟩
  rw [h n hn] at hp
  cases hp
  trivial

theorem Ahead.turned {log : List Nat} {s s' : ServoController} {i : Nat} (h : Ahead log s)
    (hmutex : Mutex s) (hpwm : s.pwm = true) (hturn : Turned s i s')
    (horder : s.phase i = some .waiting → Newest s i ∨ NewestWaits s) :
    Ahead (log ++ (drivenBy ⟨s, .thread i, s'⟩).toList) s' := by
  by_cases hi : Newest s i
  · exact h.turned_newest hmutex hpwm hturn hi
  · have hwaits := h.turned_older hpwm hturn hi horder
    refine Ahead.of_waits fun n hn => ?_
    have hn : Newest s n := by simpa [Newest, hturn.length] using hn
    rw [hturn.phase_of_ne fun hni => hi (hni ▸ hn)]
    exact hwaits n hn

/-! ## Every schedule that keeps the order -/

/-- The newest command wins: (a) a command stops the spin that is driving, (b) a
superseded spin drives only while the newest one has not started, (c) once all spins
have ended the newest one drove last and ran its full time. -/
structure NewestWins (ts : List (Transition ServoController Turn)) (s : ServoController) :
    Prop where
  stops : ∀ us v vs lock i, ts = us ++ v :: vs → v.label = .command lock → InLoop v.before i →
    ∀ t ∈ vs, drivenBy t ≠ some i
  yields : ∀ t ∈ ts, ∀ i, drivenBy t = some i → Newest t.before i ∨ NewestWaits t.before
  last : (∀ i p, s.phase i = some p → ∃ ticks, p = .ended ticks) → ∀ n, Newest s n →
    (driveLog ts).getLast? = some n ∧ s.phase n = some (.ended SPIN_TICKS)

/-- Mutual exclusion and the motor, of every schedule. -/
theorem mutex_run {s : ServoController} {ts : List (Transition ServoController Turn)}
    (hrun : spinning.Run (ServoController.init true) ts s) : Mutex s :=
  hrun.invariant (mutex_init true) fun _ _ _ h hnext => h.step hnext

theorem pwm_run {s : ServoController} {ts : List (Transition ServoController Turn)}
    (hrun : spinning.Run (ServoController.init true) ts s) : s.pwm = true := by
  refine hrun.invariant (I := fun s => s.pwm = true) rfl fun s turn s' h hnext => ?_
  cases turn with
  | command lock => cases lock <;> cases hnext <;> exact h
  | thread i => cases turned_of_turn hnext <;> exact h

/-- A running spin that a command finds in its loop drives no tick after it. -/
theorem stops_run {s : ServoController} {us vs : List (Transition ServoController Turn)}
    {v : Transition ServoController Turn} {lock : Bool} {i : Nat}
    (hrun : spinning.Run (ServoController.init true) (us ++ v :: vs) s)
    (hlabel : v.label = .command lock) (hloop : InLoop v.before i) :
    ∀ t ∈ vs, drivenBy t ≠ some i := by
  have hcut : us ++ v :: vs = (us ++ [v]) ++ vs := by simp
  rw [hcut] at hrun
  obtain ⟨mid, hfirst, hrest⟩ := hrun.split
  obtain ⟨hprior, hnext, rfl⟩ := hfirst.snoc_inv
  have hcancelled : Cancelled v.after i := by
    rw [hlabel] at hnext
    cases lock
    · rw [← Option.some.inj hnext]
      exact InLoop.cancelled_spin (s := { v.before with locked := false }) hloop _
    · rw [← Option.some.inj hnext]
      exact InLoop.cancelled_spin (s := { v.before with locked := true }) hloop _
  exact hcancelled.run ((mutex_run hprior).step hnext) hrest

theorem ahead_run {s : ServoController} {ts : List (Transition ServoController Turn)}
    (hrun : spinning.Run (ServoController.init true) ts s) (horder : ∀ t ∈ ts, InOrder t) :
    Ahead (driveLog ts) s := by
  induction hrun with
  | nil =>
      refine Ahead.of_waits fun n hn => ?_
      simp [Newest, ServoController.init] at hn
  | @snoc ts s s' turn hprior hnext ih =>
      have hahead := ih fun t ht => horder t (List.mem_append_left _ ht)
      have hlast : InOrder ⟨s, turn, s'⟩ := horder _ (by simp)
      cases turn with
      | command lock => cases lock <;> cases hnext <;> exact Ahead.spin _ _ _
      | thread i =>
          have hlog : driveLog (ts ++ [⟨s, .thread i, s'⟩]) =
              driveLog ts ++ (drivenBy ⟨s, .thread i, s'⟩).toList := by
            cases hdriven : drivenBy ⟨s, .thread i, s'⟩ <;> simp [driveLog, hdriven]
          rw [hlog]
          exact hahead.turned (mutex_run hprior) (pwm_run hprior) (turned_of_turn hnext) hlast

/-- A thread that drives was in its loop before. -/
theorem inside_of_drivenBy {s s' : ServoController} {turn : Turn} {i : Nat}
    (hnext : spinning.next s turn = some s') (hdriven : drivenBy ⟨s, turn, s'⟩ = some i) :
    Inside s i := by
  cases turn with
  | command lock => cases hdriven
  | thread j =>
      obtain ⟨ticks, rfl, hdriving⟩ : ∃ ticks, j = i ∧ s'.phase j = some (.driving ticks) := by
        simp only [drivenBy] at hdriven
        split at hdriven
        · exact ⟨_, Option.some.inj hdriven, by assumption⟩
        · cases hdriven
      cases turned_of_turn hnext with
      | drive hlooping _ _ => exact inside_of_phase hlooping rfl
      | exit h _ => simp [phase_put_self h] at hdriving
      | acquire h _ => simp [phase_put_self (s := { s with busy := true }) h] at hdriving
      | clear h => simp [phase_put_self (s := { s with cancel := false }) h] at hdriving
      | leave h _ => simp [phase_put_self h] at hdriving
      | tick h => simp [phase_put_self h] at hdriving
      | release h => simp [phase_put_self (s := { s with busy := false }) h] at hdriving

theorem yields_run {s : ServoController} {ts : List (Transition ServoController Turn)}
    (hrun : spinning.Run (ServoController.init true) ts s) (horder : ∀ t ∈ ts, InOrder t) :
    ∀ t ∈ ts, ∀ i, drivenBy t = some i → Newest t.before i ∨ NewestWaits t.before := by
  intro t ht i hdriven
  obtain ⟨us, vs, rfl⟩ := List.append_of_mem ht
  have hcut : us ++ t :: vs = (us ++ [t]) ++ vs := by simp
  rw [hcut] at hrun
  obtain ⟨_, hfirst, _⟩ := hrun.split
  obtain ⟨hprior, hnext, rfl⟩ := hfirst.snoc_inv
  have hahead := ahead_run hprior fun w hw => horder w (List.mem_append_left _ hw)
  by_cases hwaits : NewestWaits t.before
  · exact Or.inr hwaits
  · obtain ⟨n, hn, hpast⟩ : ∃ n, Newest t.before n ∧ t.before.phase n ≠ some .waiting := by
      simpa [NewestWaits] using hwaits
    rw [hahead.alone n hn hpast i (inside_of_drivenBy hnext hdriven)]
    exact Or.inl hn

theorem newestWins_of_inOrder {s : ServoController}
    {ts : List (Transition ServoController Turn)}
    (hrun : spinning.Run (ServoController.init true) ts s) (horder : ∀ t ∈ ts, InOrder t) :
    NewestWins ts s := by
  refine ⟨fun us v vs lock i hts hlabel hloop => stops_run (hts ▸ hrun) hlabel hloop,
    yields_run hrun horder, fun hended n hn => ?_⟩
  have hsome : s.phase n ≠ none := by
    rw [Ne, s.phase_eq_none_iff n]
    unfold Newest at hn
    omega
  obtain ⟨p, hp⟩ := Option.ne_none_iff_exists'.mp hsome
  obtain ⟨ticks, rfl⟩ := hended n p hp
  obtain ⟨rfl, hlog⟩ : Record (driveLog ts) s.cancel n (.ended ticks) :=
    (ahead_run hrun horder).record n _ hn hp
  exact ⟨hlog, hp⟩

theorem Turned.acquired {s s' : ServoController} {i : Nat} (h : Turned s i s')
    (hpwm : s.pwm = true) (hwaiting : s.phase i = some .waiting) :
    s'.phase i = some .acquired := by
  cases h with
  | exit _ hnone => simp [hpwm] at hnone
  | acquire h _ => exact phase_put_self (s := { s with busy := true }) h
  | _ => simp_all

/-- A thread that overtakes the newest one can go on to drive the motor. -/
theorem overtaking_breaks {s : ServoController}
    {ts : List (Transition ServoController Turn)} {t : Transition ServoController Turn}
    (hrun : spinning.Run (ServoController.init true) (ts ++ [t]) s) (horder : ¬ InOrder t) :
    ∃ us s', spinning.Run (ServoController.init true) (ts ++ [t] ++ us) s' ∧
      ¬ NewestWins (ts ++ [t] ++ us) s' := by
  obtain ⟨hprior, hnext, rfl⟩ := hrun.snoc_inv
  obtain ⟨before, turn, after⟩ := t
  cases turn with
  | command lock => exact absurd trivial horder
  | thread i =>
      obtain ⟨hwaiting, hold, n, hn, hpast⟩ : before.phase i = some .waiting ∧
          ¬ Newest before i ∧ ∃ n, Newest before n ∧ before.phase n ≠ some .waiting := by
        simpa [InOrder, NewestWaits] using horder
      have hni : n ≠ i := fun h => hold (h ▸ hn)
      have hacquire := turned_of_turn hnext
      have hacquired : after.phase i = some .acquired :=
        hacquire.acquired (pwm_run hprior) hwaiting
      -- the two steps that follow: clear the event, then drive
      let cleared := { after with cancel := false }.put i (.looping 0)
      have hcleared : cleared.phase i = some (.looping 0) :=
        phase_put_self (s := { after with cancel := false }) hacquired
      have hclear : spinning.next after (.thread i) = some cleared := by
        simp [spinning, ServoController.turn, hacquired, cleared]
      have hdrive : spinning.next cleared (.thread i) = some (cleared.put i (.driving 0)) := by
        have hgo : 0 < SPIN_TICKS ∧ cleared.cancel = false := ⟨by decide, rfl⟩
        simp only [spinning, ServoController.turn, hcleared, if_pos hgo]
      refine ⟨_, _, hrun.append ((Machine.Run.single hclear).snoc hdrive), fun hwins => ?_⟩
      have hdriven : drivenBy ⟨cleared, .thread i, cleared.put i (.driving 0)⟩ = some i := by
        simp [drivenBy, phase_put_self hcleared]
      have hclearing := turned_of_turn (i := i) hclear
      have hlength : cleared.spins.length = before.spins.length :=
        hclearing.length.trans hacquire.length
      rcases hwins.yields _ (by simp) i hdriven with hnewest | hwaits
      · exact hold (by simpa [Newest, hlength] using hnewest)
      · have hphase := hwaits n (by simpa [Newest, hlength] using hn)
        rw [hclearing.phase_of_ne hni, hacquire.phase_of_ne hni] at hphase
        exact hpast hphase

/-! ## Two commands, both ways -/

def inTurn : List Turn :=
  [.command false, .command true] ++ List.replicate 24 (.thread 0) ++ List.replicate 24 (.thread 1)

/-- The second thread is the first through the lock. -/
def overtaken : List Turn :=
  [.command false, .command true] ++ List.replicate 24 (.thread 1) ++ List.replicate 24 (.thread 0)

theorem newestWins_inTurn :
    ∃ ts s, spinning.Run (ServoController.init true) ts s ∧ (driveLog ts).length = 20 ∧
      NewestWins ts s := by
  have hend : (spinning.trace (ServoController.init true) inTurn).map
      (fun (ts, _) => ((driveLog ts).length, decide (∀ t ∈ ts, InOrder t))) = some (20, true) := by
    decide +kernel
  obtain ⟨ts, s, hrun, hview⟩ := Machine.exists_run_of_view hend
  obtain ⟨hlength, horder⟩ := Prod.mk.inj hview
  exact ⟨ts, s, hrun, hlength, newestWins_of_inOrder hrun (of_decide_eq_true horder)⟩

theorem not_always_newestWins :
    ¬ ∀ (ts : List (Transition ServoController Turn)) (s : ServoController),
      spinning.Run (ServoController.init true) ts s → NewestWins ts s := by
  intro halways
  have hend : (spinning.trace (ServoController.init true) overtaken).map
      (fun (ts, s) => ((driveLog ts).getLast?, s.spins)) =
        some (some 0, [⟨SERVO_UNLOCKED_DUTY, .ended 10⟩, ⟨SERVO_LOCKED_DUTY, .ended 10⟩]) := by
    decide +kernel
  obtain ⟨ts, s, hrun, hview⟩ := Machine.exists_run_of_view hend
  obtain ⟨hlog, hspins⟩ := Prod.mk.inj hview
  have hwins := halways ts s hrun
  have hended : ∀ i p, s.phase i = some p → ∃ ticks, p = .ended ticks := by
    intro i p hp
    rw [ServoController.phase, hspins] at hp
    rcases i with _ | _ | i
    · exact ⟨10, by simpa using hp.symm⟩
    · exact ⟨10, by simpa using hp.symm⟩
    · simp at hp
  have hlast := (hwins.last hended 1 (by simp [Newest, hspins])).1
  rw [hlog] at hlast
  cases hlast

end FacialCamera.Servo
