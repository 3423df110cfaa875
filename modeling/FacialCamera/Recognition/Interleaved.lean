import FacialCamera.Core.Journal
import FacialCamera.Core.Remote
import FacialCamera.Core.Threads
import FacialCamera.Enrollment.Calls
import FacialCamera.Recognition.Live

/-! # The backend with its handlers interleaved

Every request and every motion callback is a thread whose calls may fall between
those of the others; a restart drops the threads and keeps the database. What the
log and the alert table are in every reachable state follows from what one call
does to them. The phone app reaches this backend as the server of a remote client.
-/

namespace FacialCamera.Recognition

open FacialCamera.Core Backend Door

/-- A process with its threads, each under the event that started it. -/
abbrev House : Type := Pool Event Call Answer Process

inductive HouseTurn where
  | start (e : Event)
  | step (i : Nat)
  | restart (onPi : Bool) (clock : Timestamp)

/-- Every order of the calls, with restarts at any time. The clock never goes back, not even
at a restart. -/
def interleaved : Machine House HouseTurn where
  next h
    | .start e => (e.ready h.shared).map fun b => Pool.spawn { h with shared := b } e e.program
    | .step i => h.stepAt exec i
    | .restart onPi clock =>
        if h.shared.clock ≤ clock then some ⟨Process.boot onPi (some h.shared.db) clock, []⟩
        else none

def powerOn (onPi : Bool) (clock : Timestamp) : House := ⟨Process.boot onPi none clock, []⟩

/-! ## What one call does to the log and the alerts -/

/-- What an alert keeps: only its mark can change, and only to read. -/
structure AlertKept (r r' : AlertRow) : Prop where
  timestamp : r'.timestamp = r.timestamp
  label : r'.label = r.label
  read : r.read = true → r'.read = true

theorem AlertKept.refl (r : AlertRow) : AlertKept r r := ⟨rfl, rfl, id⟩

theorem AlertKept.trans (r r' r'' : AlertRow) (h : AlertKept r r') (h' : AlertKept r' r'') :
    AlertKept r r'' :=
  ⟨h'.timestamp.trans h.timestamp, h'.label.trans h.label, fun hread => h'.read (h.read hread)⟩

/-- What `mark_alert_read` does to a row. -/
def markRow (alertId : Int) (r : AlertRow) : AlertRow :=
  if (r.id : Int) = alertId then { r with read := true } else r

@[simp] theorem markRow_id (alertId : Int) (r : AlertRow) : (markRow alertId r).id = r.id := by
  unfold markRow
  split <;> rfl

theorem alertKept_markRow (alertId : Int) (r : AlertRow) : AlertKept r (markRow alertId r) := by
  unfold markRow
  split
  · exact ⟨rfl, rfl, fun _ => rfl⟩
  · exact AlertKept.refl r

inductive AlertsAfter (b b' : Process) : Prop where
  | same : b'.db.alerts = b.db.alerts → AlertsAfter b b'
  | added (label : AlertLabel) : b'.db.alerts = b.db.alerts ++
      [{ id := b.db.alerts.length + 1, timestamp := b.clock, label, read := false }] →
      AlertsAfter b b'
  | marked (alertId : Int) : b'.db.alerts = b.db.alerts.map (markRow alertId) → AlertsAfter b b'

theorem exec_alerts {c : Call} {b b' : Process} {r : Answer c} (h : exec c b = some (r, b')) :
    AlertsAfter b b' := by
  cases c <;> simp only [exec, Option.map_eq_some_iff, Option.ite_none_right_eq_some,
    Option.some.injEq, Prod.mk.injEq] at h
  case createEnrollmentSession m =>
    obtain ⟨⟨row, db⟩, hdb, _, rfl⟩ := h
    exact .same (b.db.createEnrollmentSession_spec hdb).alerts
  case storeFaceEncoding =>
    obtain ⟨db, hdb, _, rfl⟩ := h
    exact .same (b.db.storeFaceEncoding_spec hdb).alerts
  case getLogs | getLogSnapshot =>
    obtain ⟨_, _, rfl⟩ := h
    exact .same rfl
  case claimMotion =>
    unfold Process.claimMotion at h
    split at h <;> cases h <;> exact .same rfl
  case markAlertRead alertId =>
    obtain ⟨_, _, rfl⟩ := h
    exact .marked alertId rfl
  case addAlert label =>
    obtain ⟨_, rfl⟩ := h
    exact .added label rfl
  all_goals (obtain ⟨_, rfl⟩ := h; exact .same rfl)

theorem AlertsAfter.grows {b b' : Process} (h : AlertsAfter b b') :
    Grows AlertRow.id AlertKept b.db.alerts b'.db.alerts := by
  cases h with
  | same heq => exact heq ▸ Grows.refl AlertKept.refl _
  | added label heq => exact heq ▸ Grows.append AlertKept.refl _ _
  | marked alertId heq => exact heq ▸ Grows.map (markRow_id alertId) (alertKept_markRow alertId)

theorem AlertsAfter.numbered {b b' : Process} (h : AlertsAfter b b')
    (hb : Serial AlertRow.id b.db.alerts) : Serial AlertRow.id b'.db.alerts := by
  cases h with
  | same heq => exact heq ▸ hb
  | added label heq => exact heq ▸ hb.snoc rfl
  | marked alertId heq => exact heq ▸ hb.map (markRow_id alertId)

theorem AlertsAfter.length_le {b b' : Process} (h : AlertsAfter b b') :
    b.db.alerts.length ≤ b'.db.alerts.length := by
  cases h with
  | same heq => exact heq ▸ Nat.le_refl _
  | added label heq => simp [heq]
  | marked alertId heq => simp [heq]

/-! ## The tables in every reachable state -/

/-- Both tables are numbered, and the log is in the order of its timestamps, none of them
in the future: an entry is stamped where it is inserted, by a clock that never goes back. -/
structure Registered (b : Process) : Prop where
  logs : Serial LogRow.id b.db.logs
  ordered : b.db.logs.Pairwise fun r r' => r.timestamp ≤ r'.timestamp
  past : ∀ r ∈ b.db.logs, r.timestamp ≤ b.clock
  alerts : Serial AlertRow.id b.db.alerts

theorem recorded_boot (onPi : Bool) (clock : Timestamp) :
    Registered (Process.boot onPi none clock) :=
  ⟨Serial.nil, List.Pairwise.nil, (fun _ hr => by cases hr), Serial.nil⟩

/-- Time passes and the tables stay. -/
theorem Registered.later {b b' : Process} (h : Registered b) (hdb : b'.db = b.db)
    (hclock : b.clock ≤ b'.clock) : Registered b' := by
  refine ⟨hdb ▸ h.logs, hdb ▸ h.ordered, fun r hr => ?_, hdb ▸ h.alerts⟩
  exact (h.past r (hdb ▸ hr)).trans hclock

theorem Registered.exec {c : Call} {b b' : Process} {r : Answer c} (h : Registered b)
    (hexec : Backend.exec c b = some (r, b')) : Registered b' := by
  have hclock := exec_clock hexec
  have halerts := (exec_alerts hexec).numbered h.alerts
  have hlogs := exec_logs hexec
  cases hentered : entered b c with
  | none =>
      have hsame : b'.db.logs = b.db.logs := by simpa [hentered] using hlogs
      exact ⟨hsame ▸ h.logs, hsame ▸ h.ordered, hsame ▸ hclock ▸ h.past, halerts⟩
  | some row =>
      have hrow : row.id = b.db.logs.length + 1 ∧ row.timestamp = b.clock := by
        cases c <;> cases hentered
        exact ⟨rfl, rfl⟩
      have hsnoc : b'.db.logs = b.db.logs ++ [row] := by simpa [hentered] using hlogs
      refine ⟨hsnoc ▸ h.logs.snoc hrow.1, ?_, ?_, halerts⟩
      · rw [hsnoc, List.pairwise_append]
        refine ⟨h.ordered, List.pairwise_singleton _ _, fun old hold new hnew => ?_⟩
        rw [List.mem_singleton.mp hnew, hrow.2]
        exact h.past old hold
      · intro old hold
        rw [hsnoc] at hold
        rw [hclock]
        rcases List.mem_append.mp hold with hold | hold
        · exact h.past old hold
        · rw [List.mem_singleton.mp hold, hrow.2]

/-- What a process passes on to a later one: its tables are recorded where they were, and no
alert is lost or marked unread. -/
structure Proceeds (b b' : Process) : Prop where
  recorded : Registered b → Registered b'
  alerts : Grows AlertRow.id AlertKept b.db.alerts b'.db.alerts
  count : b.db.alerts.length ≤ b'.db.alerts.length

namespace Proceeds

theorem refl (b : Process) : Proceeds b b := ⟨id, Grows.refl AlertKept.refl _, Nat.le_refl _⟩

theorem trans (b b' b'' : Process) (h : Proceeds b b') (h' : Proceeds b' b'') :
    Proceeds b b'' :=
  ⟨fun hb => h'.recorded (h.recorded hb), h.alerts.trans AlertKept.trans h'.alerts,
    h.count.trans h'.count⟩

theorem of_later {b b' : Process} (hdb : b'.db = b.db) (hclock : b.clock ≤ b'.clock) :
    Proceeds b b' :=
  ⟨fun h => h.later hdb hclock, hdb ▸ Grows.refl AlertKept.refl _, hdb ▸ Nat.le_refl _⟩

theorem of_exec {c : Call} {b b' : Process} {r : Answer c} (h : exec c b = some (r, b')) :
    Proceeds b b' :=
  ⟨fun hb => hb.exec h, (exec_alerts h).grows, (exec_alerts h).length_le⟩

theorem of_run {α : Type} (p : Proc α) (b : Process) : Proceeds b (p.run exec b).2 :=
  (Program.calls_true p).run_rel (I := exec) refl trans (fun _ _ _ _ _ h => of_exec h) b

end Proceeds

theorem continues_ready {b start : Process} {e : Event} (hready : e.ready b = some start) :
    Proceeds b start := by
  cases e <;> simp only [Event.ready, Option.ite_none_right_eq_some, Option.some.injEq] at hready
  case wait clock =>
    obtain ⟨hclock, rfl⟩ := hready
    exact .of_later rfl hclock
  case fire i =>
    obtain ⟨_, rfl⟩ := hready
    exact .of_later rfl le_rfl
  case request | motion =>
    subst hready
    exact .refl b

theorem continues_step {h h' : House} {turn : HouseTurn}
    (hnext : interleaved.next h turn = some h') :
    Proceeds h.shared h'.shared := by
  cases turn with
  | start e =>
      obtain ⟨b, hready, rfl⟩ := Option.map_eq_some_iff.mp hnext
      rw [Pool.spawn_shared]
      exact continues_ready hready
  | step i =>
      obtain ⟨who, c, k, q, spec⟩ := Pool.stepAt_spec hnext
      rcases spec.result with ⟨_, _, hsame⟩ | ⟨r, hexec, _⟩
      · exact hsame ▸ .refl h.shared
      · exact .of_exec hexec
  | restart onPi clock =>
      obtain ⟨hclock, hboot⟩ := Option.ite_none_right_eq_some.mp hnext
      cases hboot
      exact .of_later rfl hclock

theorem recorded_of_run {onPi : Bool} {clock : Timestamp} {h : House}
    {ts : List (Transition House HouseTurn)} (hrun : interleaved.Run (powerOn onPi clock) ts h) :
    Registered h.shared :=
  hrun.invariant (I := fun h => Registered h.shared) (recorded_boot onPi clock)
    fun _ _ _ hrec hnext => (continues_step hnext).recorded hrec

/-! ## The snapshots of the log -/

namespace Event

def shot (e : Event) : Option Base64 := e.recognition.bind fun run => captureSnapshot run.2.jpeg

/-- An entry that the event's handler adds has no snapshot or the one it took. -/
def Allows (e : Event) : Call → Prop
  | .addLog _ _ _ snapshot => snapshot = none ∨ snapshot = e.shot
  | _ => True

end Event

theorem allows_of_apart (e : Event) (c : Call) (hc : apart c = true) : e.Allows c := by
  cases c <;> trivial

theorem allows_onMotionDetected (sight : Sight) :
    (onMotionDetected sight).Calls (Event.motion sight).Allows := by
  have htaken : (Event.motion sight).shot = captureSnapshot sight.jpeg := rfl
  cases hgrab : grabFaceEncoding sight.frames with
  | raises => simp [onMotionDetected, hgrab, Event.Allows]
  | noFace => simp [onMotionDetected, hgrab, Event.Allows]
  | face encoding quality =>
      simp [onMotionDetected, hgrab, Event.Allows]
      intro known threshold
      cases recognizedName (compareFace sight.library threshold encoding known) with
      | some name => simp [htaken, Event.Allows, scheduleRelock]
      | none => simp [htaken, Event.Allows]

theorem allows_runDoorbellScan (seen : Surroundings) :
    (runDoorbellScan seen.sight).Calls (Event.request .doorbell seen).Allows := by
  have htaken : (Event.request .doorbell seen).shot = captureSnapshot seen.sight.jpeg := rfl
  cases hgrab : grabFaceEncoding seen.sight.frames with
  | raises => simp [runDoorbellScan, hgrab, Event.Allows]
  | noFace => simp [runDoorbellScan, hgrab, Event.Allows]
  | face encoding quality =>
      simp [runDoorbellScan, hgrab, Event.Allows]
      intro known threshold
      cases recognizedName (compareFace seen.sight.library threshold encoding known) with
      | some name => simp [htaken, Event.Allows, scheduleRelock]
      | none => simp [htaken, Event.Allows]

theorem allows_program (e : Event) : e.program.Calls e.Allows := by
  cases e with
  | wait clock => trivial
  | motion sight => exact allows_onMotionDetected sight
  | fire i => exact calls_doRelock.imp fun c hc => by cases c <;> trivial
  | request a seen =>
      by_cases hlock : a = .doorLock
      · subst hlock
        simp [Event.program, ApiRequest.handler, answer, Program.forget, doorLock, Event.Allows]
      by_cases hunlock : a = .doorUnlock
      · subst hunlock
        simp [Event.program, ApiRequest.handler, answer, Program.forget, doorUnlock,
          scheduleRelock, Event.Allows]
      by_cases hbell : a = .doorbell
      · subst hbell
        exact Program.Calls.forget ((allows_runDoorbellScan seen).bind fun _ => trivial)
      exact (apart_request seen hlock hunlock hbell).imp (allows_of_apart _)

def Faithful (h : House) : Prop := ∀ t ∈ h.threads, t.2.Calls t.1.Allows

theorem faithful_step {h h' : House} {turn : HouseTurn} (hfaithful : Faithful h)
    (hnext : interleaved.next h turn = some h') : Faithful h' := by
  cases turn with
  | start e =>
      obtain ⟨b, _, rfl⟩ := Option.map_eq_some_iff.mp hnext
      intro t ht
      rcases Pool.mem_spawn.mp ht with ht | ⟨rfl, _⟩
      · exact hfaithful t ht
      · exact allows_program e
  | step i =>
      obtain ⟨who, c, k, q, spec⟩ := Pool.stepAt_spec hnext
      have hmover := hfaithful _ (spec.mem_before.mpr (Or.inl rfl))
      intro t ht
      rcases spec.mem_after.mp ht with ⟨rfl, _⟩ | ht
      · rcases spec.result with ⟨_, hfault, _⟩ | ⟨r, _, hgoes⟩
        · exact hfault ▸ trivial
        · exact hgoes ▸ hmover.2 r
      · exact hfaithful t (spec.mem_before.mpr (Or.inr ht))
  | restart onPi clock =>
      obtain ⟨_, hboot⟩ := Option.ite_none_right_eq_some.mp hnext
      cases hboot
      intro t ht
      cases ht

def mover (h : House) : HouseTurn → Option Event
  | .step i => h.threads[i]?.map Prod.fst
  | _ => none

/-- The transition adds the entry, and its recognition run captured the picture. -/
structure Captured (t : Transition House HouseTurn) (row : LogRow) (jpeg : Jpeg) : Prop where
  added : t.after.shared.db.logs = t.before.shared.db.logs ++ [row]
  run : ∃ e p sight, mover t.before t.label = some e ∧ e.recognition = some (p, sight) ∧
    sight.jpeg = some jpeg
  snapshot : row.snapshot = some ⟨jpeg⟩
  visible : jpeg ≠ []

theorem captureSnapshot_eq_some {buffer : Option Jpeg} {taken : Base64}
    (h : captureSnapshot buffer = some taken) :
    buffer = some taken.decoded ∧ taken.decoded ≠ [] := by
  match buffer, h with
  | some (byte :: bytes), h =>
      cases h
      exact ⟨rfl, by simp⟩

/-- A turn leaves the log as it is, or adds an entry whose snapshot it captured. -/
theorem log_step {h h' : House} {turn : HouseTurn} (hfaithful : Faithful h)
    (hnext : interleaved.next h turn = some h') :
    h'.shared.db.logs = h.shared.db.logs ∨ ∃ row,
      h'.shared.db.logs = h.shared.db.logs ++ [row] ∧
        ∀ taken, row.snapshot = some taken → Captured ⟨h, turn, h'⟩ row taken.decoded := by
  cases turn with
  | start e =>
      obtain ⟨b, hready, rfl⟩ := Option.map_eq_some_iff.mp hnext
      rw [Pool.spawn_shared]
      exact Or.inl (congrArg Database.logs (ready_same hready).1)
  | restart onPi clock =>
      obtain ⟨_, hboot⟩ := Option.ite_none_right_eq_some.mp hnext
      cases hboot
      exact Or.inl rfl
  | step i =>
      obtain ⟨who, c, k, q, spec⟩ := Pool.stepAt_spec hnext
      rcases spec.result with ⟨_, _, hsame⟩ | ⟨r, hexec, _⟩
      · exact Or.inl (by rw [hsame])
      · have hallowed := (hfaithful _ (spec.mem_before.mpr (Or.inl rfl))).1
        have hlogs := exec_logs hexec
        cases c with
        | addLog type name confidence snapshot =>
            refine Or.inr ⟨_, hlogs, fun taken htaken => ?_⟩
            have hown : snapshot = who.shot :=
              hallowed.resolve_left fun hnone => by cases hnone.symm.trans htaken
            have hshot : who.shot = some taken := hown.symm.trans htaken
            obtain ⟨⟨p, sight⟩, hrecognition, hcapture⟩ := Option.bind_eq_some_iff.mp hshot
            have hbuffer := captureSnapshot_eq_some hcapture
            refine ⟨hlogs, ⟨who, p, sight, ?_, hrecognition, hbuffer.1⟩, htaken, hbuffer.2⟩
            show Option.map Prod.fst h.threads[i]? = some who
            rw [spec.thread]
            rfl
        | _ => exact Or.inl (hlogs.trans (List.append_nil _))

/-- Every snapshot in the log was captured by the run that added its entry. -/
theorem captured_of_run {onPi : Bool} {clock : Timestamp} {h : House}
    {ts : List (Transition House HouseTurn)} (hrun : interleaved.Run (powerOn onPi clock) ts h) :
    ∀ row ∈ h.shared.db.logs, ∀ taken, row.snapshot = some taken →
      ∃ t ∈ ts, Captured t row taken.decoded := by
  have hfaithful : ∀ {us h}, interleaved.Run (powerOn onPi clock) us h → Faithful h :=
    fun hrun => hrun.invariant (fun t ht => by cases ht)
      fun _ _ _ hfaithful hnext => faithful_step hfaithful hnext
  induction hrun with
  | nil =>
      intro row hrow
      cases hrow
  | @snoc us h h' turn hus hnext ih =>
      have hearlier : ∀ row ∈ h.shared.db.logs, ∀ taken, row.snapshot = some taken →
          ∃ t ∈ us ++ [⟨h, turn, h'⟩], Captured t row taken.decoded := by
        intro row hrow taken htaken
        obtain ⟨t, ht, hcaptured⟩ := ih row hrow taken htaken
        exact ⟨t, List.mem_append_left _ ht, hcaptured⟩
      rcases log_step (hfaithful hus) hnext with hsame | ⟨new, hadded, hnew⟩
      · rw [hsame]
        exact hearlier
      · intro row hrow taken htaken
        rw [hadded] at hrow
        rcases List.mem_append.mp hrow with hrow | hrow
        · exact hearlier row hrow taken htaken
        · rw [List.mem_singleton] at hrow
          subst hrow
          exact ⟨_, List.mem_append_right _ (List.mem_singleton_self _), hnew taken htaken⟩

/-! ## As the server of the app -/

/-- A request of the app, executed without interruption; anything but a handler's result is
a refusal. -/
def execute (seen : Surroundings) (a : ApiRequest) (h : House) : Option Body × House :=
  match (a.handler seen).run exec h.shared with
  | (some (.ok body), b) => (some body, { h with shared := b })
  | (_, b) => (none, { h with shared := b })

def pi : Server House HouseTurn Surroundings ApiRequest Body where
  own := interleaved
  execute := execute

theorem execute_shared (seen : Surroundings) (a : ApiRequest) (h : House) :
    (execute seen a h).2.shared = ((a.handler seen).run exec h.shared).2 := by
  unfold execute
  split
  case h_1 heq => rw [heq]
  case h_2 heq => rw [heq]

theorem continues_execute (seen : Surroundings) (a : ApiRequest) (h : House) :
    Proceeds h.shared (execute seen a h).2.shared := by
  rw [execute_shared]
  exact .of_run _ _

def nobody : Surroundings :=
  ⟨⟨fun _ => none, none, .unavailable 0 0⟩, fun _ => .noFace, .ok []⟩

end FacialCamera.Recognition
