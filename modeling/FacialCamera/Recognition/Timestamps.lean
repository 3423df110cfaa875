import FacialCamera.Core.Calendar
import FacialCamera.Recognition.Interleaved
import Mathlib.Data.Rat.Floor

/-! # Timestamps as the texts they are stored as

`database.py` stores `isoformat() + "Z"` and lets SQLite compare these texts: the
members are ordered by them, and the entries of today are those that begin with its date.
The tables of this development hold numbers instead. For every reading of the clock the
comparisons agree, also where a full second is printed without a fraction.
-/

namespace FacialCamera.Recognition

open FacialCamera.Core Backend

def epoch : Date := ⟨1970, 1, 1⟩

theorem valid_epoch : epoch.Valid := ⟨by decide, by decide, by decide, by decide⟩

/-- What `datetime.utcnow()` answers: whole microseconds, until the end of the year 9999. -/
def Reading (t : Timestamp) : Prop :=
  ∃ n : ℕ, t = n / microsPerSecond ∧ (epoch.later (dayOf n)).year ≤ 9999

def micros (t : Timestamp) : ℕ := ⌊t * microsPerSecond⌋.toNat

/-- `datetime.utcnow().isoformat() + "Z"`. -/
def isoformat (t : Timestamp) : List ℕ := momentText epoch (micros t)

/-- `datetime.utcnow().strftime("%Y-%m-%d")`. -/
def today (t : Timestamp) : List ℕ := (epoch.later (dayOf (micros t))).isoformat

/-- `SELECT * FROM members ORDER BY added_date DESC`. -/
def selectMembers (db : Database) : List MemberRow :=
  db.members.rows.mergeSort fun r r' => isoformat r'.addedDate ≤ isoformat r.addedDate

/-- `SELECT COUNT(*) ... WHERE type = 'authorized' AND timestamp LIKE 'today%'`. -/
def selectTodayEntries (db : Database) (now : Timestamp) : ℕ :=
  db.logs.countP fun r => r.type = .authorized && (today now).isPrefixOf (isoformat r.timestamp)

/-! ## Numbers and texts -/

section Readings

variable {n m : ℕ}

theorem micros_reading (n : ℕ) : micros ((n : ℚ) / microsPerSecond) = n := by
  have hpos : (microsPerSecond : ℚ) ≠ 0 := by simp [microsPerSecond]
  rw [micros, div_mul_cancel₀ _ hpos]
  simp

theorem day_reading (n : ℕ) : Database.day ((n : ℚ) / microsPerSecond) = dayOf n := by
  have hquotient : (n : ℚ) / microsPerSecond / 86400 =
      (n : ℚ) / ((microsPerSecond * secondsPerDay : ℕ) : ℚ) := by
    rw [div_div]
    norm_num [microsPerSecond, secondsPerDay]
  have hfloor := Rat.floor_natCast_div_natCast n (microsPerSecond * secondsPerDay)
  rw [Database.day, hquotient]
  show ⌊(n : ℚ) / ((microsPerSecond * secondsPerDay : ℕ) : ℚ)⌋ = _
  rw [hfloor, dayOf, Nat.div_div_eq_div_mul]
  rfl

theorem den_reading : ((n : ℚ) / microsPerSecond).den = 1 ↔ n % microsPerSecond = 0 := by
  have hpos : (microsPerSecond : ℚ) ≠ 0 := by simp [microsPerSecond]
  constructor
  · intro hden
    have hwhole : ((n : ℚ) / microsPerSecond).num * (microsPerSecond : ℚ) = n := by
      rw [Rat.den_eq_one_iff _ |>.mp hden, div_mul_cancel₀ _ hpos]
    have hdvd : (microsPerSecond : ℤ) ∣ n := ⟨((n : ℚ) / microsPerSecond).num, by
      rw [mul_comm]
      exact_mod_cast hwhole.symm⟩
    exact Nat.mod_eq_zero_of_dvd (Int.natCast_dvd_natCast.mp hdvd)
  · intro hmod
    obtain ⟨k, rfl⟩ := Nat.dvd_of_mod_eq_zero hmod
    rw [Nat.cast_mul, mul_div_cancel_left₀ _ hpos]
    exact Rat.den_natCast k

/-- The order that stands for the order of the texts counts their ranks. -/
theorem textOrder_reading (n : ℕ) :
    Database.textOrder ((n : ℚ) / microsPerSecond) = (rank n + 1 : ℕ) / microsPerSecond := by
  have hpos : (microsPerSecond : ℚ) ≠ 0 := by simp [microsPerSecond]
  have hmod := Nat.mod_lt n (by decide : 0 < microsPerSecond)
  have hdiv := Nat.div_add_mod n microsPerSecond
  unfold Database.textOrder
  by_cases hfull : n % microsPerSecond = 0
  · have hrank : rank n + 1 = n + microsPerSecond := by
      rw [rank, hfull, slot, if_pos rfl]
      simp only [microsPerSecond] at hfull hdiv ⊢
      omega
    rw [if_pos (den_reading.mpr hfull), hrank, Nat.cast_add, add_div, div_self hpos]
  · have hrank : rank n + 1 = n := by
      rw [rank, slot, if_neg hfull]
      simp only [microsPerSecond] at hfull hdiv ⊢
      omega
    rw [if_neg (mt den_reading.mp hfull), hrank]

/-- Up to the later of two readings the year is one that can be printed. -/
theorem exists_last (hn : (epoch.later (dayOf n)).year ≤ 9999)
    (hm : (epoch.later (dayOf m)).year ≤ 9999) :
    ∃ last, dayOf n ≤ last ∧ dayOf m ≤ last ∧ (epoch.later last).year ≤ 9999 := by
  rcases Nat.le_total (dayOf n) (dayOf m) with hle | hle
  · exact ⟨dayOf m, hle, le_rfl, hm⟩
  · exact ⟨dayOf n, le_rfl, hle, hn⟩

end Readings

variable {t t' : Timestamp}

theorem isoformat_le_iff (ht : Reading t) (ht' : Reading t') :
    isoformat t ≤ isoformat t' ↔ Database.textOrder t ≤ Database.textOrder t' := by
  obtain ⟨n, rfl, hn⟩ := ht
  obtain ⟨m, rfl, hm⟩ := ht'
  obtain ⟨last, hnlast, hmlast, hlast⟩ := exists_last hn hm
  have hlt := momentText_lt_iff valid_epoch hlast hmlast hnlast
  have hpos : (0 : ℚ) < microsPerSecond := by simp [microsPerSecond]
  rw [isoformat, isoformat, micros_reading, micros_reading, textOrder_reading, textOrder_reading,
    div_le_div_iff_of_pos_right hpos, Nat.cast_le, ← not_lt, hlt]
  omega

theorem today_prefix_iff (ht : Reading t) (ht' : Reading t') :
    today t <+: isoformat t' ↔ Database.day t' = Database.day t := by
  obtain ⟨n, rfl, hn⟩ := ht
  obtain ⟨m, rfl, hm⟩ := ht'
  obtain ⟨last, hnlast, hmlast, hlast⟩ := exists_last hn hm
  rw [today, isoformat, micros_reading, micros_reading,
    isoformat_prefix_iff valid_epoch hlast hmlast hnlast, day_reading, day_reading]
  exact Int.natCast_inj.symm

/-! ## The timestamps of the tables -/

structure Stamped (P : Timestamp → Prop) (b : Process) : Prop where
  clock : P b.clock
  members : ∀ r ∈ b.db.members.rows, P r.addedDate
  logs : ∀ r ∈ b.db.logs, P r.timestamp

/-- A member has the date of an earlier row, or was added now. -/
theorem addedDate_exec {c : Call} {b b' : Process} {r : Answer c} (h : exec c b = some (r, b')) :
    ∀ row ∈ b'.db.members.rows, row.addedDate = b.clock ∨
      ∃ old ∈ b.db.members.rows, old.addedDate = row.addedDate := by
  have hsame (b' : Process) (heq : b'.db.members = b.db.members) : ∀ row ∈ b'.db.members.rows,
      row.addedDate = b.clock ∨ ∃ old ∈ b.db.members.rows, old.addedDate = row.addedDate :=
    fun row hrow => Or.inr ⟨row, heq ▸ hrow, rfl⟩
  cases c <;> simp only [exec, Option.map_eq_some_iff, Option.ite_none_right_eq_some,
    Option.some.injEq, Prod.mk.injEq] at h
  case createEnrollmentSession m =>
    obtain ⟨⟨row, db⟩, hdb, _, rfl⟩ := h
    exact hsame _ (b.db.createEnrollmentSession_spec hdb).members
  case storeFaceEncoding =>
    obtain ⟨db, hdb, _, rfl⟩ := h
    exact hsame _ (b.db.storeFaceEncoding_spec hdb).members
  case getLogs | getLogSnapshot | markAlertRead =>
    obtain ⟨_, _, rfl⟩ := h
    exact hsame _ rfl
  case claimMotion =>
    unfold Process.claimMotion at h
    split at h <;> cases h <;> exact hsame _ rfl
  case addMember name role =>
    obtain ⟨_, rfl⟩ := h
    intro row hrow
    rcases List.mem_append.mp hrow with hold | hnew
    · exact Or.inr ⟨row, hold, rfl⟩
    · rw [List.mem_singleton.mp hnew]
      exact Or.inl rfl
  case deleteMember m =>
    obtain ⟨_, rfl⟩ := h
    exact fun row hrow => Or.inr ⟨row, (List.mem_filter.mp hrow).1, rfl⟩
  case updateMemberFaceEnrolled m enrolled liveness =>
    obtain ⟨_, rfl⟩ := h
    intro row hrow
    obtain ⟨old, hold, rfl⟩ := List.mem_map.mp hrow
    refine Or.inr ⟨old, hold, ?_⟩
    split
    · unfold Database.enrolledColumns
      split <;> rfl
    · rfl
  all_goals (obtain ⟨_, rfl⟩ := h; exact hsame _ rfl)

namespace Stamped

variable {P : Timestamp → Prop} {b b' : Process}

theorem later (h : Stamped P b) (hdb : b'.db = b.db) (hclock : P b'.clock) : Stamped P b' :=
  ⟨hclock, hdb ▸ h.members, hdb ▸ h.logs⟩

theorem exec {c : Call} {r : Answer c} (h : Stamped P b)
    (hexec : Backend.exec c b = some (r, b')) : Stamped P b' := by
  have hclock := Door.exec_clock hexec
  refine ⟨hclock ▸ h.clock, fun row hrow => ?_, fun row hrow => ?_⟩
  · rcases addedDate_exec hexec row hrow with hnow | ⟨old, hold, heq⟩
    · exact hnow ▸ h.clock
    · exact heq ▸ h.members old hold
  · rw [exec_logs hexec] at hrow
    rcases List.mem_append.mp hrow with hold | hnew
    · exact h.logs row hold
    · rw [Option.mem_toList] at hnew
      cases c <;> cases hnew
      exact h.clock

end Stamped

def ReadsClock (P : Timestamp → Prop) : HouseTurn → Prop
  | .start (.wait clock) => P clock
  | .restart _ clock => P clock
  | _ => True

theorem stamped_step {P : Timestamp → Prop} {h h' : House} {turn : HouseTurn}
    (hstamped : Stamped P h.shared) (hturn : ReadsClock P turn)
    (hnext : interleaved.next h turn = some h') : Stamped P h'.shared := by
  cases turn with
  | start e =>
      obtain ⟨b, hready, rfl⟩ := Option.map_eq_some_iff.mp hnext
      rw [Pool.spawn_shared]
      cases e <;> simp only [Event.ready, Option.ite_none_right_eq_some,
        Option.some.injEq] at hready
      case wait clock =>
        obtain ⟨_, rfl⟩ := hready
        exact hstamped.later rfl hturn
      case fire i =>
        obtain ⟨_, rfl⟩ := hready
        exact hstamped.later rfl hstamped.clock
      case request | motion =>
        subst hready
        exact hstamped
  | step i =>
      obtain ⟨who, c, k, q, spec⟩ := Pool.stepAt_spec hnext
      rcases spec.result with ⟨_, _, hsame⟩ | ⟨r, hexec, _⟩
      · exact hsame ▸ hstamped
      · exact hstamped.exec hexec
  | restart onPi clock =>
      obtain ⟨_, hboot⟩ := Option.ite_none_right_eq_some.mp hnext
      cases hboot
      exact hstamped.later rfl hturn

theorem stamped_of_run {P : Timestamp → Prop} {onPi : Bool} {clock : Timestamp} {h : House}
    {ts : List (Transition House HouseTurn)} (hclock : P clock)
    (hrun : interleaved.Run (powerOn onPi clock) ts h)
    (hturns : ∀ t ∈ ts, ReadsClock P t.label) : Stamped P h.shared :=
  hrun.invariant_where (I := fun h => Stamped P h.shared)
    ⟨hclock, (fun _ hr => by cases hr), fun _ hr => by cases hr⟩
    (fun _ _ _ hstamped hturn hnext => stamped_step hstamped hturn hnext) hturns

/-! ## The queries -/

/-- The queries over the texts answer what the functions over the numbers do. -/
structure TextsAgree (b : Process) : Prop where
  members : selectMembers b.db = b.db.getAllMembers
  today : selectTodayEntries b.db b.clock = (b.db.getStats b.clock).todayEntries

theorem mergeSort_congr {α : Type} {le le' : α → α → Bool} {rows : List α}
    (h : ∀ r ∈ rows, ∀ r' ∈ rows, le r r' = le' r r') : rows.mergeSort le = rows.mergeSort le' := by
  have hsort := List.map_mergeSort (f := id) h
  simpa only [List.map_id] using hsort

theorem Stamped.textsAgree {b : Process} (h : Stamped Reading b) : TextsAgree b := by
  constructor
  · refine mergeSort_congr fun r hr r' hr' => ?_
    exact decide_eq_decide.mpr (isoformat_le_iff (h.members r' hr') (h.members r hr))
  · show b.db.logs.countP _ = (b.db.logs.filter _).countP _
    rw [List.countP_filter]
    refine List.countP_congr fun r hr => ?_
    have hday := today_prefix_iff h.clock (h.logs r hr)
    rw [Bool.and_eq_true, Bool.and_eq_true, List.isPrefixOf_iff_prefix, hday, decide_eq_true_eq,
      decide_eq_true_eq]
    exact and_comm

/-- In every run whose clock readings are those of `utcnow()`, members are listed and entries
of today are counted as SQLite does over the stored texts. -/
theorem textsAgree_of_run {onPi : Bool} {clock : Timestamp} {h : House}
    {ts : List (Transition House HouseTurn)} (hclock : Reading clock)
    (hrun : interleaved.Run (powerOn onPi clock) ts h)
    (hturns : ∀ t ∈ ts, ReadsClock Reading t.label) : TextsAgree h.shared :=
  (stamped_of_run hclock hrun hturns).textsAgree

/-- Two members, the second added half a second after the first. -/
def withinASecond : List HouseTurn :=
  [.start (.request (.addMember "Ana" "Family") nobody), .step 0, .start (.wait (1 / 2)),
    .start (.request (.addMember "Ben" "Guest") nobody), .step 0]

theorem textsAgree_withinASecond : ∃ ts h, interleaved.Run (powerOn false 0) ts h ∧
    h.shared.db.members.rows.map MemberRow.addedDate = [0, 1 / 2] ∧ TextsAgree h.shared := by
  have hend : (interleaved.trace (powerOn false 0) withinASecond).map (fun (_, h) =>
      h.shared.db.members.rows.map MemberRow.addedDate) = some [0, 1 / 2] := by decide +kernel
  obtain ⟨⟨ts, h⟩, htrace, hdates⟩ := Option.map_eq_some_iff.mp hend
  have hzero : Reading 0 := ⟨0, by simp, by decide +kernel⟩
  have hhalf : Reading (1 / 2) := ⟨500000, by norm_num [microsPerSecond], by decide +kernel⟩
  have hturns : ∀ t ∈ ts, ReadsClock Reading t.label := by
    intro t ht
    have hlabel := Machine.labels_of_trace htrace ▸ List.mem_map_of_mem ht
    simp only [withinASecond, List.mem_cons, List.not_mem_nil, or_false] at hlabel
    rcases hlabel with h | h | h | h | h <;> rw [h]
    case inr.inr.inl => exact hhalf
    all_goals trivial
  have hrun := Machine.run_of_trace htrace
  exact ⟨ts, h, hrun, hdates, textsAgree_of_run hzero hrun hturns⟩

/-! ## Newest first -/

/-- A later timestamp whose text is the smaller one: `t` is a full second, which has no
fraction in its text, and `t'` falls within that second. -/
def Overtaken (t t' : Timestamp) : Prop := t.den = 1 ∧ t < t' ∧ t' < t + 1

theorem not_whole_of_between {t t' : Timestamp} (h : Overtaken t t') : t'.den ≠ 1 := by
  obtain ⟨hwhole, hlater, hwithin⟩ := h
  intro hwhole'
  rw [← Rat.den_eq_one_iff _ |>.mp hwhole, ← Rat.den_eq_one_iff _ |>.mp hwhole'] at hlater hwithin
  have hlow : t.num < t'.num := by exact_mod_cast hlater
  have hhigh : t'.num < t.num + 1 := by exact_mod_cast hwithin
  omega

theorem textOrder_lt_of_overtaken {t t' : Timestamp} (h : Overtaken t t') :
    Database.textOrder t' < Database.textOrder t := by
  rw [Database.textOrder, Database.textOrder, if_neg (not_whole_of_between h), if_pos h.1]
  exact h.2.2

/-- An older text is that of an older timestamp, or of an overtaken one. -/
theorem le_of_textOrder_le {t t' : Timestamp} (h : Database.textOrder t' ≤ Database.textOrder t)
    (hkept : ¬ Overtaken t t') : t' ≤ t := by
  by_contra hlater
  rw [not_le] at hlater
  unfold Database.textOrder at h
  by_cases hwhole : t.den = 1 <;> by_cases hwhole' : t'.den = 1
  · rw [if_pos hwhole, if_pos hwhole'] at h
    linarith
  · rw [if_pos hwhole, if_neg hwhole'] at h
    have hnext : t' ≠ t + 1 := by
      rintro rfl
      rw [← Rat.den_eq_one_iff _ |>.mp hwhole] at hwhole'
      exact hwhole' (by exact_mod_cast Rat.den_intCast (t.num + 1))
    exact hkept ⟨hwhole, hlater, lt_of_le_of_ne h hnext⟩
  · rw [if_neg hwhole, if_pos hwhole'] at h
    linarith
  · rw [if_neg hwhole, if_neg hwhole'] at h
    linarith

def Aligned (r r' : MemberRow) : Prop :=
  ¬ Overtaken r.addedDate r'.addedDate ∧ ¬ Overtaken r'.addedDate r.addedDate

instance : Std.Symm Aligned := ⟨fun _ _ h => h.symm⟩

/-- The members are listed newest first exactly where none was added within a second after
one that was added at a full second. -/
theorem newestFirst_iff (db : Database) :
    db.getAllMembers.Pairwise (fun r r' => r'.addedDate ≤ r.addedDate) ↔
      ∀ r ∈ db.members.rows, ∀ r' ∈ db.members.rows, ¬ Overtaken r.addedDate r'.addedDate := by
  have hsorted : db.getAllMembers.Pairwise fun r r' =>
      Database.textOrder r'.addedDate ≤ Database.textOrder r.addedDate := by
    have hpairwise : db.getAllMembers.Pairwise fun r r' =>
        decide (Database.textOrder r'.addedDate ≤ Database.textOrder r.addedDate) = true :=
      List.pairwise_mergeSort
        (fun r r' r'' h h' => decide_eq_true ((of_decide_eq_true h').trans (of_decide_eq_true h)))
        (fun r r' => by simpa using le_total _ _) db.members.rows
    exact hpairwise.imp of_decide_eq_true
  have hmem (r : MemberRow) : r ∈ db.getAllMembers ↔ r ∈ db.members.rows := List.mem_mergeSort
  constructor
  · intro hnewest r hr r' hr' hover
    have hpairs : db.getAllMembers.Pairwise Aligned :=
      (hsorted.and hnewest).imp fun h => ⟨fun hover => not_lt.mpr h.2 hover.2.1,
        fun hover => not_lt.mpr h.1 (textOrder_lt_of_overtaken hover)⟩
    have hself : ∀ x ∈ db.getAllMembers, Aligned x x :=
      fun _ _ => ⟨fun hover => lt_irrefl _ hover.2.1, fun hover => lt_irrefl _ hover.2.1⟩
    exact (hpairs.forall_of_forall hself ((hmem r).mpr hr) ((hmem r').mpr hr')).1 hover
  · intro hkept
    refine hsorted.imp_of_mem fun hr hr' hle => ?_
    exact le_of_textOrder_le hle (hkept _ ((hmem _).mp hr) _ ((hmem _).mp hr'))

end FacialCamera.Recognition
