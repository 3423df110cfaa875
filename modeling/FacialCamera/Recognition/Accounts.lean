import FacialCamera.Recognition.Admission
import FacialCamera.Recognition.Live

/-! # The account of the unlocks

The log only grows, and the unlock commands of an event are the entries that it
adds to announce one: those of recognized members and those of the unlock
button.
-/

namespace FacialCamera.Recognition

open FacialCamera.Core Backend Door

def isAuthorized (r : LogRow) : Bool := r.type = .authorized

def isManualUnlock (r : LogRow) : Bool := r.type = .manualLock ∧ r.name = "Unlocked via app"

def unlockEntries (logs : List LogRow) : Nat :=
  logs.countP isAuthorized + logs.countP isManualUnlock

/-- `AUTOINCREMENT` over a table that nothing deletes from. -/
def Numbered (db : Database) : Prop := db.logs.map LogRow.id = List.range' 1 db.logs.length

def appended (t : Transition Process Event) : List LogRow :=
  t.after.db.logs.drop t.before.db.logs.length

def Backed (db : Database) (name : String) : Prop :=
  ∃ m row, db.getMember m = some row ∧ row.name = name ∧ row.faceEnrolled = true ∧
    Enrollment.stored db m ≠ []

/-! ## The log grows -/

structure Extends (b b' : Process) : Prop where
  logs : b.db.logs <+: b'.db.logs
  numbered : Numbered b.db → Numbered b'.db

theorem Extends.refl (b : Process) : Extends b b := ⟨List.prefix_rfl, id⟩

theorem Extends.trans {b b' b'' : Process} (h : Extends b b') (h' : Extends b' b'') :
    Extends b b'' := ⟨h.logs.trans h'.logs, fun hb => h'.numbered (h.numbered hb)⟩

theorem extends_exec {c : Call} {b b' : Process} {r : Answer c} (h : exec c b = some (r, b')) :
    Extends b b' := by
  have hlogs := exec_logs h
  refine ⟨hlogs ▸ List.prefix_append _ _, fun hnumbered => ?_⟩
  unfold Numbered at hnumbered ⊢
  rw [hlogs, List.map_append, hnumbered, List.length_append]
  cases c
  case addLog => simp [entered, List.range'_concat, Nat.add_comm]
  all_goals simp [entered]

/-! ## One event -/

theorem unlockEntries_append (logs new : List LogRow) :
    unlockEntries (logs ++ new) = unlockEntries logs + unlockEntries new := by
  simp only [unlockEntries, List.countP_append]
  omega

theorem unlockEntries_verdict (p : Pipeline) (b b' : Process) (snapshot : Option Base64)
    (v : Verdict) : unlockEntries (p.trigger b :: (verdictEntry b' snapshot v).toList) =
      (admits v).toNat := by
  cases p <;> cases v <;> rfl

/-- Spins to unlock and entries that announce one grow together. -/
theorem balance_step {b b' : Process} {e : Event} (hnext : live.next b e = some b') :
    openingSpins b' + unlockEntries b.db.logs = openingSpins b + unlockEntries b'.db.logs := by
  cases logged_step hnext with
  | silent hlogs hspins => rw [hlogs, hspins]
  | locked hlogs hspins =>
      have hentry : unlockEntries [manualEntry b "Locked via app"] = 0 := by
        simp [unlockEntries, manualEntry, isAuthorized, isManualUnlock]
      rw [hlogs, hspins, unlockEntries_append, hentry, Nat.add_zero]
  | unlocked hlogs hspins =>
      have hentry : unlockEntries [manualEntry b "Unlocked via app"] = 1 := by
        simp [unlockEntries, manualEntry, isAuthorized, isManualUnlock]
      rw [hlogs, hspins, unlockEntries_append, hentry]
      omega
  | @recognized e p sight _ hruns hrun =>
      rw [hrun, openingSpins_perform sight hruns, logs_perform sight hruns, unlockEntries_append,
        unlockEntries_verdict]
      omega

/-- The unlock commands of an event are the entries that announce them. -/
theorem unlocks_step {b b' : Process} {e : Event} (hnext : live.next b e = some b') :
    ((issued ⟨b, e, b'⟩).countP fun v => v.1 = .servoUnlock) + unlockEntries b.db.logs =
      unlockEntries b'.db.logs := by
  have hbalance := balance_step hnext
  have hissued := issued_unlocks hnext
  omega

/-- A new authorized entry is the one of a recognition run. -/
theorem authorized_step {b b' : Process} {e : Event} (hnext : live.next b e = some b')
    {r : LogRow} (hr : r ∈ appended ⟨b, e, b'⟩) (htype : r.type = .authorized) :
    ∃ p sight confidence, e.recognition = some (p, sight) ∧ p.Runs b ∧
      verdict b sight = .authorized r.name confidence ∧ r.confidence = some confidence := by
  unfold appended at hr
  cases logged_step hnext with
  | silent hlogs _ => simp [hlogs] at hr
  | locked hlogs _ =>
      rw [hlogs, List.drop_left, List.mem_singleton] at hr
      subst hr
      cases htype
  | unlocked hlogs _ =>
      rw [hlogs, List.drop_left, List.mem_singleton] at hr
      subst hr
      cases htype
  | @recognized e p sight hrecognition hruns hrun =>
      rw [hrun, logs_perform sight hruns, List.drop_left] at hr
      rcases List.mem_cons.mp hr with rfl | hr
      · cases p <;> cases htype
      · cases hverdict : verdict b sight with
        | authorized name confidence =>
            obtain rfl := List.mem_singleton.mp (by simpa [hverdict, verdictEntry] using hr)
            exact ⟨p, sight, confidence, hrecognition, hruns, hverdict, rfl⟩
        | unknown confidence =>
            obtain rfl := List.mem_singleton.mp (by simpa [hverdict, verdictEntry] using hr)
            cases htype
        | raises => simp [hverdict, verdictEntry] at hr
        | noFace => simp [hverdict, verdictEntry] at hr

/-! ## The state of the comparison -/

theorem issued_of_recognition {b b' : Process} {e : Event} {p : Pipeline} {sight : Sight}
    (h : e.recognition = some (p, sight)) :
    issued ⟨b, e, b'⟩ = (p.program sight).visits exec b := by
  cases e with
  | wait | fire => cases h
  | motion sight' =>
      cases h
      rfl
  | request a seen =>
      cases a with
      | doorbell =>
          cases h
          show (ApiRequest.handler seen .doorbell).forget.visits exec b = _
          rw [Pipeline.program, Program.forget, Program.visits_map, Program.forget,
            Program.visits_map]
          exact Program.visits_map _ _ b
      | _ => cases h

/-- A run that finds a face compares it in the state after its first entry. -/
theorem compares {p : Pipeline} {b : Process} {sight : Sight} {encoding : Encoding} {quality : ℚ}
    (hruns : p.Runs b) (hface : grabFaceEncoding sight.frames = .face encoding quality) :
    (.getAllFaceEncodings, p.triggered b) ∈ (p.program sight).visits exec b := by
  cases p with
  | doorbell =>
      rw [Pipeline.program, Program.forget, Program.visits_map]
      simp [runDoorbellScan, hface, Program.visits, exec, Pipeline.triggered, Pipeline.announced,
        Pipeline.claimed]
  | motion =>
      have hclaim := Process.claimMotion_of_not_lt hruns.2
      simp [Pipeline.program, onMotionDetected, hface, hruns.1, hclaim, Program.visits, exec,
        Pipeline.triggered, Pipeline.announced, Pipeline.claimed]

theorem backed_step {b b' : Process} {e : Event} (hnext : live.next b e = some b') {r : LogRow}
    (hr : r ∈ appended ⟨b, e, b'⟩) (htype : r.type = .authorized) :
    ∃ s, (.getAllFaceEncodings, s) ∈ issued ⟨b, e, b'⟩ ∧ Backed s.db r.name := by
  obtain ⟨p, sight, confidence, hrecognition, hruns, hverdict, _⟩ := authorized_step hnext hr htype
  obtain ⟨encoding, quality, hface, k, hk, hname, _, _⟩ := verdict_eq_authorized hverdict
  obtain ⟨stored, hstored, row, hrow, henrolled, rfl⟩ := b.db.mem_getAllFaceEncodings.mp hk
  have hbacked : Backed b.db r.name := by
    refine ⟨stored.memberId, row, hrow, hname, henrolled, ?_⟩
    exact List.ne_nil_of_mem (List.mem_filter.mpr ⟨hstored, by simp⟩)
  refine ⟨p.triggered b, ?_, by cases p <;> exact hbacked⟩
  rw [issued_of_recognition hrecognition]
  exact compares hruns hface

end FacialCamera.Recognition
