import FacialCamera.Core.Ledger
import FacialCamera.Recognition.Interleaved

/-! # The books of the backend

The entries of the log, the alerts and the unlock commands are written by threads whose
calls fall between each other, and a restart may cut any of them short. Each kind is
paid for by another one that the same run has written before, so the totals stay in
balance in every reachable state.
-/

namespace FacialCamera.Recognition

open FacialCamera.Core Backend

/-! ## What is booked -/

/-- What the books count of a call. -/
inductive Booking where
  | entry (type : LogType) (confidence : Option ℚ)
  | alert (label : AlertLabel)
  | unlock

def booked : Call → Option Booking
  | .addLog type _ confidence _ => some (.entry type confidence)
  | .addAlert label => some (.alert label)
  | .servoUnlock => some .unlock
  | _ => none

def price (f : Booking → Nat) (c : Call) : Nat := (booked c).elim 0 f

def total (f : Booking → Nat) (b : Process) : Nat :=
  (b.db.logs.map fun r => f (.entry r.type r.confidence)).sum +
    (b.db.alerts.map fun r => f (.alert r.label)).sum + openingSpins b * f .unlock

variable {f gain cost : Booking → Nat}

theorem exec_labels {c : Call} {b b' : Process} {r : Answer c} (h : exec c b = some (r, b')) :
    b'.db.alerts.map AlertRow.label = b.db.alerts.map AlertRow.label ++
      match c with
      | .addAlert label => [label]
      | _ => [] := by
  cases c <;> simp only [exec, Option.map_eq_some_iff, Option.ite_none_right_eq_some,
    Option.some.injEq, Prod.mk.injEq] at h
  case createEnrollmentSession m =>
    obtain ⟨⟨row, db⟩, hdb, _, rfl⟩ := h
    simp [(b.db.createEnrollmentSession_spec hdb).alerts]
  case storeFaceEncoding =>
    obtain ⟨db, hdb, _, rfl⟩ := h
    simp [(b.db.storeFaceEncoding_spec hdb).alerts]
  case getLogs | getLogSnapshot =>
    obtain ⟨_, _, rfl⟩ := h
    simp
  case claimMotion =>
    unfold Process.claimMotion at h
    split at h <;> cases h <;> simp
  case markAlertRead =>
    obtain ⟨_, _, rfl⟩ := h
    simp [Database.markAlertRead, Function.comp_def, apply_ite AlertRow.label]
  case addAlert label =>
    obtain ⟨_, rfl⟩ := h
    simp [Database.addAlert]
  all_goals (obtain ⟨_, rfl⟩ := h; exact (List.append_nil _).symm)

/-- A call adds its weight to the books. -/
theorem exec_total {c : Call} {b b' : Process} {r : Answer c} (h : exec c b = some (r, b')) :
    total f b' = total f b + price f c := by
  have hlabels := congrArg (fun labels => (labels.map fun l => f (.alert l)).sum) (exec_labels h)
  have hlogs := congrArg (fun logs => (logs.map fun r => f (.entry r.type r.confidence)).sum)
    (exec_logs h)
  have hspins := exec_openingSpins h
  simp only [List.map_map, Function.comp_def, List.map_append, List.sum_append] at hlabels hlogs
  rw [total, total, hlabels, hlogs, hspins, Nat.add_mul]
  cases c
  case addLog => simp [price, booked, entered]; omega
  case addAlert => simp [price, booked, entered]; omega
  case servoUnlock => simp [price, booked, entered]; omega
  all_goals simp [price, booked, entered]

/-- A new process keeps the tables and has commanded nothing. -/
theorem total_boot (onPi : Bool) (b : Process) (clock : Timestamp) :
    total f (Process.boot onPi (some b.db) clock) + openingSpins b * f .unlock = total f b := by
  simp [total, Process.boot, Database.initDb, openingSpins, ServoController.init]

/-! ## Accounts -/

/-- The event starts a thread on these terms: the weights with which the calls of one are
paid for by the others, and by what the thread is granted. -/
structure Account where
  gain : Booking → Nat
  cost : Booking → Nat
  grant : Event → Nat
  solvent : ∀ e : Event, e.program.Solvent (price gain) (price cost) (grant e)
  kept : gain .unlock = 0

namespace Account

variable (A : Account) {ts : List (Transition House HouseTurn)} {h h' : House}

def granted : HouseTurn → Nat
  | .start e => A.grant e
  | _ => 0

def budget (ts : List (Transition House HouseTurn)) : Nat := (ts.map fun t => A.granted t.label).sum

/-- The threads are covered by the grants and the gains. -/
def Sound (ts : List (Transition House HouseTurn)) (h : House) : Prop :=
  Pool.Covered (price A.gain) (price A.cost) h (A.budget ts + total A.gain h.shared)
    (total A.cost h.shared)

theorem budget_snoc (t : Transition House HouseTurn) :
    A.budget (ts ++ [t]) = A.budget ts + A.granted t.label := by simp [budget]

theorem sound_step {turn : HouseTurn} (hsound : A.Sound ts h)
    (hnext : interleaved.next h turn = some h') : A.Sound (ts ++ [⟨h, turn, h'⟩]) h' := by
  unfold Sound at hsound ⊢
  rw [budget_snoc]
  cases turn with
  | start e =>
      obtain ⟨b, hready, rfl⟩ := Option.map_eq_some_iff.mp hnext
      obtain ⟨hdb, hservo⟩ := ready_same hready
      have hsame (f : Booking → Nat) : total f b = total f h.shared := by
        rw [total, total, openingSpins, openingSpins, hdb, hservo]
      have hready : Pool.Covered (price A.gain) (price A.cost) ({ h with shared := b } : House)
          (A.budget ts + total A.gain h.shared) (total A.cost h.shared) := hsound.shared rfl
      rw [Pool.spawn_shared, hsame, hsame, Nat.add_right_comm]
      exact hready.spawn (A.solvent e)
  | restart onPi clock =>
      obtain ⟨_, hboot⟩ := Option.ite_none_right_eq_some.mp hnext
      cases hboot
      have hgain := total_boot (f := A.gain) onPi h.shared clock
      have hcost := total_boot (f := A.cost) onPi h.shared clock
      have hle := hsound.le
      rw [A.kept] at hgain
      exact Pool.covered_nil _ (by dsimp only at hgain hcost ⊢; omega)
  | step i =>
      obtain ⟨who, c, k, q, spec⟩ := Pool.stepAt_spec hnext
      rcases hsound.step spec with ⟨hsame, hcovered⟩ | ⟨r, hexec, hcovered⟩
      · simpa [granted, hsame] using hcovered
      · simpa [granted, exec_total hexec, Nat.add_assoc] using hcovered

theorem sound_of_run {onPi : Bool} {clock : Timestamp}
    (hrun : interleaved.Run (powerOn onPi clock) ts h) : A.Sound ts h := by
  induction hrun with
  | nil => exact Pool.covered_nil _ (by simp [total, powerOn, Process.boot, Database.initDb,
      Database.fresh, openingSpins, ServoController.init])
  | snoc _ hnext ih => exact A.sound_step ih hnext

/-- In every reachable state an account is in balance. -/
theorem balance_of_run {onPi : Bool} {clock : Timestamp}
    (hrun : interleaved.Run (powerOn onPi clock) ts h) :
    total A.cost h.shared ≤ A.budget ts + total A.gain h.shared := (A.sound_of_run hrun).le

end Account

/-! ## What the handlers can afford -/

/-- A pipeline with these texts can pay for its bookings, whatever it sees. -/
structure Affords (gain cost : Booking → Nat) (type : LogType) (noFace : AlertLabel)
    (unknown : ℚ → AlertLabel) (credit left : Nat) : Prop where
  entry : cost (.entry type none) ≤ credit
  remains : credit - cost (.entry type none) + gain (.entry type none) = left
  noFace : cost (.alert noFace) ≤ left
  authorized : ∀ q, cost (.entry .authorized (some q)) ≤ left ∧
    cost .unlock ≤ left - cost (.entry .authorized (some q)) + gain (.entry .authorized (some q))
  unknown : ∀ q, cost (.entry .unknown (some q)) ≤ left ∧
    cost (.alert (unknown q)) ≤
      left - cost (.entry .unknown (some q)) + gain (.entry .unknown (some q))

section Handlers

attribute [local simp] price booked scheduleRelock

variable {credit left : Nat}

theorem solvent_onMotionDetected (sight : Sight)
    (h : Affords gain cost .motion .motionNoFace .motionUnknown credit left) :
    (onMotionDetected sight).Solvent (price gain) (price cost) credit := by
  cases hgrab : grabFaceEncoding sight.frames with
  | raises => simp [onMotionDetected, hgrab, h.entry]
  | noFace => simp [onMotionDetected, hgrab, h.entry, h.remains, h.noFace]
  | face encoding quality =>
      simp [onMotionDetected, hgrab, h.entry, h.remains]
      intro known threshold
      have hauthorized := h.authorized (compareFace sight.library threshold encoding known).2.2
      have hunknown := h.unknown (compareFace sight.library threshold encoding known).2.2
      cases recognizedName (compareFace sight.library threshold encoding known) with
      | some name => simp [hauthorized]
      | none => simp [hunknown]

theorem solvent_runDoorbellScan (sight : Sight)
    (h : Affords gain cost .doorbell .doorbellNoFace .doorbellUnknown credit left) :
    (runDoorbellScan sight).Solvent (price gain) (price cost) credit := by
  cases hgrab : grabFaceEncoding sight.frames with
  | raises => simp [runDoorbellScan, hgrab, h.entry]
  | noFace => simp [runDoorbellScan, hgrab, h.entry, h.remains, h.noFace]
  | face encoding quality =>
      simp [runDoorbellScan, hgrab, h.entry, h.remains]
      intro known threshold
      have hauthorized := h.authorized (compareFace sight.library threshold encoding known).2.2
      have hunknown := h.unknown (compareFace sight.library threshold encoding known).2.2
      cases recognizedName (compareFace sight.library threshold encoding known) with
      | some name => simp [hauthorized]
      | none => simp [hunknown]

end Handlers

/-! ## The other routes -/

theorem unbooked_of_routine (c : Call) (hc : routine c = true) : booked c = none := by
  cases c <;> first | rfl | cases hc

/-- Three routes book something. -/
theorem unbooked_request (seen : Surroundings) {a : ApiRequest} (hlock : a ≠ .doorLock)
    (hunlock : a ≠ .doorUnlock) (hbell : a ≠ .doorbell) :
    (a.handler seen).forget.Calls fun c => booked c = none :=
  calls_request unbooked_of_routine seen (fun _ _ _ => rfl) hlock hunlock hbell

structure Terms (gain cost : Booking → Nat) (grant : Event → Nat) : Prop where
  motion : ∀ sight, ∃ left,
    Affords gain cost .motion .motionNoFace .motionUnknown (grant (.motion sight)) left
  doorbell : ∀ seen, ∃ left, Affords gain cost .doorbell .doorbellNoFace .doorbellUnknown
    (grant (.request .doorbell seen)) left
  doorLock : cost (.entry .manualLock none) = 0
  doorUnlock : ∀ seen, cost .unlock ≤ grant (.request .doorUnlock seen)

theorem Terms.solvent {grant : Event → Nat} (h : Terms gain cost grant) (e : Event) :
    e.program.Solvent (price gain) (price cost) (grant e) := by
  have hfree {p : Proc Unit} (hp : p.Calls fun c => booked c = none) :
      p.Solvent (price gain) (price cost) (grant e) :=
    Program.Calls.solvent (hp.imp fun c hc => by simp [price, hc])
  cases e with
  | wait clock => trivial
  | fire i =>
      refine hfree ⟨rfl, fun locked => ?_⟩
      cases locked with
      | true => trivial
      | false => exact ⟨rfl, fun _ => ⟨rfl, fun _ => trivial⟩⟩
  | motion sight =>
      obtain ⟨left, hafford⟩ := h.motion sight
      exact solvent_onMotionDetected sight hafford
  | request a seen =>
      by_cases hlock : a = .doorLock
      · subst hlock
        simp [Event.program, ApiRequest.handler, answer, Program.forget, Backend.doorLock, price,
          booked, h.doorLock]
      by_cases hunlock : a = .doorUnlock
      · subst hunlock
        simp [Event.program, ApiRequest.handler, answer, Program.forget, Backend.doorUnlock,
          scheduleRelock, price, booked, h.doorLock, h.doorUnlock seen]
      by_cases hbell : a = .doorbell
      · subst hbell
        obtain ⟨left, hafford⟩ := h.doorbell seen
        have hanswer : (ApiRequest.handler seen .doorbell).Solvent (price gain) (price cost)
            (grant (.request .doorbell seen)) :=
          (solvent_runDoorbellScan seen.sight hafford).bind fun _ => trivial
        exact hanswer.bind fun _ => trivial
      exact hfree (unbooked_request seen hlock hunlock hbell)

/-! ## The balances -/

def isMotion : Event → Bool
  | .motion _ => true
  | _ => false

def isRequest (a : ApiRequest) : Event → Bool
  | .request a' _ => a' = a
  | _ => false

def begins (p : Event → Bool) : HouseTurn → Bool
  | .start e => p e
  | _ => false

@[simp] theorem begins_false (turn : HouseTurn) : begins (fun _ => false) turn = false := by
  cases turn <;> rfl

/-! One booking of a kind weighs one. -/

def entryOf (type : LogType) : Booking → Nat
  | .entry t _ => if t = type then 1 else 0
  | _ => 0

def strangerOf (q : ℚ) : Booking → Nat
  | .entry t confidence => if t = .unknown ∧ confidence = some q then 1 else 0
  | _ => 0

def alertOf (label : AlertLabel) : Booking → Nat
  | .alert l => if l = label then 1 else 0
  | _ => 0

def unlockOf : Booking → Nat
  | .unlock => 1
  | _ => 0

def entries (type : LogType) (b : Process) : Nat := b.db.logs.countP fun r => r.type = type

def alertsOf (label : AlertLabel) (b : Process) : Nat := b.db.alerts.countP fun r => r.label = label

section Totals

variable (b : Process) (g : Booking → Nat)

theorem sum_ite {α : Type} (p : α → Prop) [DecidablePred p] (l : List α) :
    (l.map fun a => if p a then 1 else 0).sum = l.countP fun a => p a := by
  induction l with
  | nil => rfl
  | cons a l ih => by_cases h : p a <;> simp [h, ih, Nat.add_comm]

@[simp] theorem total_zero : total 0 b = 0 := by simp [total]

@[simp] theorem total_add : total (f + g) b = total f b + total g b := by
  simp only [total, Pi.add_apply, List.sum_map_add]
  ring

@[simp] theorem total_entryOf (type : LogType) : total (entryOf type) b = entries type b := by
  simp [total, entryOf, entries, sum_ite]

@[simp] theorem total_strangerOf (q : ℚ) : total (strangerOf q) b =
    b.db.logs.countP fun r => r.type = .unknown ∧ r.confidence = some q := by
  simp [total, strangerOf, sum_ite fun r : LogRow => r.type = .unknown ∧ r.confidence = some q]

@[simp] theorem total_alertOf (label : AlertLabel) :
    total (alertOf label) b = alertsOf label b := by
  simp [total, alertOf, alertsOf, sum_ite]

@[simp] theorem total_unlockOf : total unlockOf b = openingSpins b := by
  simp [total, unlockOf]

end Totals

/-- Threads of a kind are granted one. -/
theorem balance_of_terms {onPi : Bool} {clock : Timestamp} {h : House}
    {ts : List (Transition House HouseTurn)} (p : Event → Bool) (gain cost : Booking → Nat)
    (hterms : Terms gain cost fun e => (p e).toNat) (hkept : gain .unlock = 0)
    (hrun : interleaved.Run (powerOn onPi clock) ts h) :
    total cost h.shared ≤ (ts.countP fun t => begins p t.label) + total gain h.shared := by
  let A : Account := ⟨gain, cost, fun e => (p e).toNat, hterms.solvent, hkept⟩
  have hbudget : A.budget ts = ts.countP fun t => begins p t.label := by
    have hcount := sum_ite (fun t : Transition House HouseTurn => begins p t.label = true) ts
    simp only [Bool.decide_eq_true] at hcount
    rw [Account.budget, ← hcount]
    refine congrArg List.sum (List.map_congr_left fun t _ => ?_)
    cases t.label with
    | start e => cases hp : p e <;> simp [A, Account.granted, begins, hp]
    | _ => rfl
  exact hbudget ▸ A.balance_of_run hrun

structure Balanced (ts : List (Transition House HouseTurn)) (b : Process) : Prop where
  runs : entries .motion b ≤ ts.countP fun t => begins isMotion t.label
  rings : entries .doorbell b ≤ ts.countP fun t => begins (isRequest .doorbell) t.label
  unlocks : openingSpins b ≤
    (ts.countP fun t => begins (isRequest .doorUnlock) t.label) + entries .authorized b
  outcomes : entries .authorized b + entries .unknown b + alertsOf .motionNoFace b +
    alertsOf .doorbellNoFace b ≤ entries .motion b + entries .doorbell b
  motionNoFace : alertsOf .motionNoFace b ≤ entries .motion b
  doorbellNoFace : alertsOf .doorbellNoFace b ≤ entries .doorbell b
  strangers : ∀ q, alertsOf (.motionUnknown q) b + alertsOf (.doorbellUnknown q) b ≤
    b.db.logs.countP fun r => r.type = .unknown ∧ r.confidence = some q

/-- Whatever the order of the calls, and whatever a restart cuts short, the tables are in
balance with each other and with what has been started. -/
theorem balanced_of_run {onPi : Bool} {clock : Timestamp} {h : House}
    {ts : List (Transition House HouseTurn)} (hrun : interleaved.Run (powerOn onPi clock) ts h) :
    Balanced ts h.shared where
  runs := by
    have hterms : Terms 0 (entryOf .motion) fun e => (isMotion e).toNat := by
      constructor
      · exact fun _ => ⟨0, by constructor <;> simp [entryOf, isMotion]⟩
      · exact fun _ => ⟨0, by constructor <;> simp [entryOf, isMotion]⟩
      · rfl
      · exact fun _ => Nat.zero_le _
    simpa using balance_of_terms isMotion 0 (entryOf .motion) hterms rfl hrun
  rings := by
    have hterms : Terms 0 (entryOf .doorbell) fun e => (isRequest .doorbell e).toNat := by
      constructor
      · exact fun _ => ⟨0, by constructor <;> simp [entryOf, isRequest]⟩
      · exact fun _ => ⟨0, by constructor <;> simp [entryOf, isRequest]⟩
      · rfl
      · exact fun _ => Nat.zero_le _
    simpa using balance_of_terms (isRequest .doorbell) 0 (entryOf .doorbell) hterms rfl hrun
  unlocks := by
    have hterms : Terms (entryOf .authorized) unlockOf
        fun e => (isRequest .doorUnlock e).toNat := by
      constructor
      · exact fun _ => ⟨0, by constructor <;> simp [entryOf, unlockOf, isRequest]⟩
      · exact fun _ => ⟨0, by constructor <;> simp [entryOf, unlockOf, isRequest]⟩
      · rfl
      · exact fun _ => by simp [unlockOf, isRequest]
    simpa using balance_of_terms (isRequest .doorUnlock) (entryOf .authorized) unlockOf hterms
      rfl hrun
  outcomes := by
    have hterms : Terms (entryOf .motion + entryOf .doorbell) (entryOf .authorized +
        entryOf .unknown + alertOf .motionNoFace + alertOf .doorbellNoFace)
        fun _ => (false : Bool).toNat := by
      constructor
      · exact fun _ => ⟨1, by constructor <;> simp [entryOf, alertOf]⟩
      · exact fun _ => ⟨1, by constructor <;> simp [entryOf, alertOf]⟩
      · rfl
      · exact fun _ => Nat.zero_le _
    simpa using balance_of_terms (fun _ => false) _ _ hterms rfl hrun
  motionNoFace := by
    have hterms : Terms (entryOf .motion) (alertOf .motionNoFace)
        fun _ => (false : Bool).toNat := by
      constructor
      · exact fun _ => ⟨1, by constructor <;> simp [entryOf, alertOf]⟩
      · exact fun _ => ⟨0, by constructor <;> simp [entryOf, alertOf]⟩
      · rfl
      · exact fun _ => Nat.zero_le _
    simpa using balance_of_terms (fun _ => false) _ _ hterms rfl hrun
  doorbellNoFace := by
    have hterms : Terms (entryOf .doorbell) (alertOf .doorbellNoFace)
        fun _ => (false : Bool).toNat := by
      constructor
      · exact fun _ => ⟨0, by constructor <;> simp [entryOf, alertOf]⟩
      · exact fun _ => ⟨1, by constructor <;> simp [entryOf, alertOf]⟩
      · rfl
      · exact fun _ => Nat.zero_le _
    simpa using balance_of_terms (fun _ => false) _ _ hterms rfl hrun
  strangers q := by
    have hterms : Terms (strangerOf q) (alertOf (.motionUnknown q) + alertOf (.doorbellUnknown q))
        fun _ => (false : Bool).toNat := by
      constructor
      · exact fun _ => ⟨0, by constructor <;> simp [strangerOf, alertOf]⟩
      · exact fun _ => ⟨0, by constructor <;> simp [strangerOf, alertOf]⟩
      · rfl
      · exact fun _ => Nat.zero_le _
    simpa using balance_of_terms (fun _ => false) _ _ hterms rfl hrun

def passerby : Sight := ⟨fun _ => some (.face [0] 1), none, .available fun _ _ => 1⟩

/-- The first run on a passer-by is cut short after its entry, the second one also raises its
alert. -/
def cutShort : List HouseTurn :=
  .start (.motion passerby) :: List.replicate 6 (.step 0) ++ [.restart false 11] ++
    .start (.motion passerby) :: List.replicate 8 (.step 0)

theorem balanced_cutShort : ∃ ts h, interleaved.Run (powerOn false 10) ts h ∧
    (entries .unknown h.shared = 2 ∧ alertsOf (.motionUnknown 0) h.shared = 1) ∧
      Balanced ts h.shared := by
  have hend : (interleaved.trace (powerOn false 10) cutShort).map (fun (_, h) =>
      decide (entries .unknown h.shared = 2 ∧ alertsOf (.motionUnknown 0) h.shared = 1)) =
        some true := by decide +kernel
  obtain ⟨ts, h, hrun, hcounts⟩ := Machine.exists_run_of_view hend
  exact ⟨ts, h, hrun, of_decide_eq_true hcounts, balanced_of_run hrun⟩

end FacialCamera.Recognition
