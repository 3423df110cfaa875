import FacialCamera.Enrollment.History
import Mathlib.Data.Finset.Card

/-! # The life cycle of an enrollment session

The capture endpoints look at a session's status before they write it; completing
and cancelling do not. The version counter of a member is tied to the session
table only through the completions, so both laws break at the same requests.
-/

namespace FacialCamera.Enrollment

open FacialCamera.Core Backend

/-! ## The laws -/

/-- Where the status of a session may go; a final status stays. -/
def mayMove : Status → Status → Bool
  | .capturing, .capturing => true
  | .capturing, .processing => true
  | .capturing, .cancelled => true
  | .processing, .processing => true
  | .processing, .completed => true
  | .processing, .cancelled => true
  | .completed, .completed => true
  | .cancelled, .cancelled => true
  | _, _ => false

theorem mayMove_self (status : Status) : mayMove status status = true := by
  cases status <;> rfl

def MovesLegally (t : Transition Process Arrival) : Prop :=
  ∀ s row row', t.before.db.getEnrollmentSession s = some row →
    t.after.db.getEnrollmentSession s = some row' → mayMove row.status row'.status = true

def keepCompletion (m : Uuid) (acc : List Uuid) (t : Transition Process Arrival) : List Uuid :=
  match deedOf t with
  | .complete m' s _ => if m' = m then acc ++ [s] else acc
  | .removeMember m' => if m' = m then [] else acc
  | .removeTemplate m' => if m' = m then [] else acc
  | _ => acc

/-- The completions of a member's sessions since the last removal of its template. -/
def completions (m : Uuid) (ts : List (Transition Process Arrival)) : List Uuid :=
  ts.foldl (keepCompletion m) []

structure LifeCycle (ts : List (Transition Process Arrival)) (b : Process) : Prop where
  moves : ∀ t ∈ ts, MovesLegally t
  once : ∀ s, ts.countP (completes s) ≤ 1
  version : ∀ m row, b.db.getMember m = some row →
    row.faceProfileVersion = (completions m ts).toFinset.card

/-- A completion finds its session processing, a cancellation finds it not completed. -/
def Deed.InOrder (db : Database) : Deed → Prop
  | .complete _ s _ => ∀ row ∈ db.getEnrollmentSession s, row.status = .processing
  | .cancel _ s => ∀ row ∈ db.getEnrollmentSession s, row.status ≠ .completed
  | _ => True

instance (db : Database) : (d : Deed) → Decidable (d.InOrder db)
  | .complete _ s _ =>
      inferInstanceAs (Decidable (∀ row ∈ db.getEnrollmentSession s, row.status = .processing))
  | .cancel _ s =>
      inferInstanceAs (Decidable (∀ row ∈ db.getEnrollmentSession s, row.status ≠ .completed))
  | .nothing | .addMember _ _ | .removeMember _ | .start _ | .note _ _ | .capture _ _ _ _ _
  | .removeTemplate _ => inferInstanceAs (Decidable True)

def ClosesInOrder (t : Transition Process Arrival) : Prop := (deedOf t).InOrder t.before.db

instance (t : Transition Process Arrival) : Decidable (ClosesInOrder t) :=
  inferInstanceAs (Decidable ((deedOf t).InOrder t.before.db))

/-! ## What every run keeps -/

theorem completions_snoc (m : Uuid) (ts : List (Transition Process Arrival))
    (t : Transition Process Arrival) :
    completions m (ts ++ [t]) = keepCompletion m (completions m ts) t := by
  simp [completions]

structure Register (ts : List (Transition Process Arrival)) (db : Database) : Prop where
  completed : ∀ s row, db.getEnrollmentSession s = some row → row.status = .completed →
    ∃ t ∈ ts, completes s t = true
  processing : ∀ s row, db.getEnrollmentSession s = some row → row.status = .processing →
    3 ≤ row.capturesCount
  logged : ∀ m, ∀ s ∈ completions m ts, ∃ t ∈ ts, completes s t = true
  memberDrawn : ∀ m, completions m ts ≠ [] → m < db.uuids

theorem register_fresh : Register [] Database.fresh := by
  constructor <;> simp [completions, Database.fresh, Database.getEnrollmentSession]

section Step

variable {ts : List (Transition Process Arrival)} {b b' : Process} {a : Arrival}

theorem mem_keepCompletion {m s : Uuid} {acc : List Uuid} {t : Transition Process Arrival}
    (h : s ∈ keepCompletion m acc t) : s ∈ acc ∨ ∃ liveness, deedOf t = .complete m s liveness := by
  unfold keepCompletion at h
  cases hd : deedOf t with
  | complete m' s' liveness =>
      simp only [hd] at h
      split at h
      case isTrue hm =>
        subst hm
        rcases List.mem_append.mp h with h | h
        · exact Or.inl h
        · rw [List.mem_singleton.mp h]
          exact Or.inr ⟨liveness, rfl⟩
      case isFalse => exact Or.inl h
  | removeMember m' | removeTemplate m' =>
      simp only [hd] at h
      split at h
      case isTrue => cases h
      case isFalse => exact Or.inl h
  | _ => exact Or.inl (by simpa [hd] using h)

theorem Register.completed_step (h : Register ts b.db) (hnext : serve.next b a = some b')
    {s : Uuid} {row' : SessionRow} (hrow' : b'.db.getEnrollmentSession s = some row')
    (hstatus : row'.status = .completed) : ∃ t ∈ ts ++ [⟨b, a, b'⟩], completes s t = true := by
  rcases session_step hnext hrow' with ⟨m, _, _, rfl⟩ | ⟨row, hrow, hmoved⟩
  · cases hstatus
  · obtain ⟨_, rfl⟩ := Table.find?_mem hrow
    generalize hd : deedOf ⟨b, a, b'⟩ = d at hmoved
    cases hmoved with
    | kept hsame _ _ =>
        obtain ⟨t, ht, hs⟩ := h.completed _ row hrow (hsame ▸ hstatus)
        exact ⟨t, List.mem_append_left _ ht, hs⟩
    | captured _ hnew =>
        rw [hnew] at hstatus
        split at hstatus <;> cases hstatus
    | completed _ _ => exact ⟨⟨b, a, b'⟩, by simp, completes_iff.mpr ⟨_, _, hd⟩⟩
    | cancelled hnew _ =>
        rw [hnew] at hstatus
        cases hstatus

theorem Register.processing_step (h : Register ts b.db) (hnext : serve.next b a = some b')
    {s : Uuid} {row' : SessionRow} (hrow' : b'.db.getEnrollmentSession s = some row')
    (hstatus : row'.status = .processing) : 3 ≤ row'.capturesCount := by
  rcases session_step hnext hrow' with ⟨m, _, _, rfl⟩ | ⟨row, hrow, hmoved⟩
  · cases hstatus
  · generalize deedOf ⟨b, a, b'⟩ = d at hmoved
    cases hmoved with
    | kept hsame _ hcount => exact hcount ▸ h.processing s row hrow (hsame ▸ hstatus)
    | captured hcount hnew =>
        rw [hnew] at hstatus
        split at hstatus
        case isTrue hthree => omega
        case isFalse => cases hstatus
    | completed hnew _ | cancelled hnew _ =>
        rw [hnew] at hstatus
        cases hstatus

theorem Register.step (h : Register ts b.db) (hnext : serve.next b a = some b') :
    Register (ts ++ [⟨b, a, b'⟩]) b'.db := by
  refine ⟨fun s row => h.completed_step hnext, fun s row => h.processing_step hnext, ?_, ?_⟩
  · intro m s hs
    rw [completions_snoc] at hs
    rcases mem_keepCompletion hs with hs | ⟨liveness, hd⟩
    · obtain ⟨t, ht, hcompletes⟩ := h.logged m s hs
      exact ⟨t, List.mem_append_left _ ht, hcompletes⟩
    · exact ⟨⟨b, a, b'⟩, by simp, completes_iff.mpr ⟨m, liveness, hd⟩⟩
  · intro m hm
    obtain ⟨s, hs⟩ := List.exists_mem_of_ne_nil _ hm
    rw [completions_snoc] at hs
    refine lt_of_lt_of_le ?_ (uuids_le_step hnext)
    rcases mem_keepCompletion hs with hs | ⟨liveness, hd⟩
    · exact h.memberDrawn m (List.ne_nil_of_mem hs)
    · have hown : (Deed.complete m s liveness).Valid b.db := hd ▸ deedOf_valid ⟨b, a, b'⟩
      obtain ⟨session, hsession⟩ := Option.isSome_iff_exists.mp hown
      exact lt_uuids_of_has (has_of_ownSession hsession)

end Step

theorem register_run {onPi : Bool} {clock : ℚ} {b : Process}
    {ts : List (Transition Process Arrival)}
    (hrun : serve.Run (Process.boot onPi none clock) ts b) : Register ts b.db := by
  induction hrun with
  | nil => exact register_fresh
  | snoc _ hnext ih => exact ih.step hnext

/-- Where all moves are legal, a completed session stays completed. -/
theorem completed_of_completes {b₀ b : Process} {ts : List (Transition Process Arrival)}
    (hrun : serve.Run b₀ ts b) (hmoves : ∀ t ∈ ts, MovesLegally t) {s : Uuid} {row : SessionRow}
    (hs : ∃ t ∈ ts, completes s t = true) (hrow : b.db.getEnrollmentSession s = some row) :
    row.status = .completed := by
  induction hrun generalizing row with
  | nil => simp at hs
  | @snoc ts b b' a hprior hnext ih =>
      obtain ⟨t, ht, hcompletes⟩ := hs
      rcases List.mem_append.mp ht with ht | ht
      · have hdrawn := completed_drawn hprior s ⟨t, ht, hcompletes⟩
        obtain ⟨before, hbefore, _⟩ := session_before hnext hdrawn hrow
        have hstatus := ih (fun u hu => hmoves u (List.mem_append_left _ hu)) ⟨t, ht, hcompletes⟩
          hbefore
        have hmove := hmoves ⟨b, a, b'⟩ (by simp) s before row hbefore hrow
        rw [hstatus] at hmove
        cases hafter : row.status <;> simp_all [mayMove]
      · rw [List.mem_singleton.mp ht] at hcompletes
        obtain ⟨m, liveness, hd⟩ := completes_iff.mp hcompletes
        obtain ⟨before, hbefore, rfl⟩ :=
          session_before hnext (lt_uuids_of_completes hcompletes) hrow
        obtain ⟨_, rfl⟩ := Table.find?_mem hbefore
        simp [status_revise, hd, Deed.columnsFor, completedColumns]

/-! ## One step -/

section Exactness

variable {ts : List (Transition Process Arrival)} {b₀ b b' : Process} {a : Arrival}

/-- The requests that neither complete nor cancel move every session as it may. -/
theorem movesLegally_of_other (h : Register ts b.db) (hnext : serve.next b a = some b')
    (hcomplete : ∀ m s liveness, deedOf ⟨b, a, b'⟩ ≠ .complete m s liveness)
    (hcancel : ∀ m s, deedOf ⟨b, a, b'⟩ ≠ .cancel m s) : MovesLegally ⟨b, a, b'⟩ := by
  intro s row row' hrow hrow'
  have hmoved := moved_step hnext hrow hrow'
  obtain ⟨_, rfl⟩ := Table.find?_mem hrow
  generalize hd : deedOf ⟨b, a, b'⟩ = d at hmoved
  cases hmoved with
  | kept hsame _ _ =>
      rw [hsame]
      exact mayMove_self _
  | captured _ hnew =>
      have hopen := (isOpen_of_admitted (deed_eq_capture hd).1 hrow).2
      rw [hnew]
      cases hstatus : row.status with
      | capturing => split <;> rfl
      | processing =>
          have hthree := h.processing _ row hrow hstatus
          rw [if_pos (by omega)]
          rfl
      | completed | cancelled => simp [hstatus, Status.isOpen] at hopen
  | completed _ _ => exact absurd hd (hcomplete _ _ _)
  | cancelled _ _ => exact absurd hd (hcancel _ _)

/-- The session that a completion or a cancellation finds. -/
theorem exists_session_of_own {db : Database} {m s : Uuid} (h : (ownSession db m s).isSome) :
    ∃ row, db.getEnrollmentSession s = some row := by
  obtain ⟨session, hsession⟩ := Option.isSome_iff_exists.mp h
  exact ⟨session, (ownSession_eq_some_iff.mp hsession).1⟩

theorem session_after (hnext : serve.next b a = some b') {s : Uuid} {row : SessionRow}
    (hrow : b.db.getEnrollmentSession s = some row)
    (hkept : (deedOf ⟨b, a, b'⟩).sessionAfter a.clock b.db s =
      (b.db.getEnrollmentSession s).map ((deedOf ⟨b, a, b'⟩).revise a.clock)) :
    b'.db.getEnrollmentSession s = some ((deedOf ⟨b, a, b'⟩).revise a.clock row) := by
  rw [serve_db hnext, session_apply a.clock (deedOf_valid ⟨b, a, b'⟩)]
  exact hkept.trans (by rw [hrow]; rfl)

theorem movesLegally_complete_iff (hnext : serve.next b a = some b') {m s : Uuid} {liveness : ℚ}
    (hd : deedOf ⟨b, a, b'⟩ = .complete m s liveness) :
    MovesLegally ⟨b, a, b'⟩ ↔ ∀ row ∈ b.db.getEnrollmentSession s,
      row.status = .processing ∨ row.status = .completed := by
  constructor
  · intro hmoves row hrow
    have hmove := hmoves s row _ hrow (session_after hnext hrow (by rw [hd]; rfl))
    obtain ⟨_, rfl⟩ := Table.find?_mem hrow
    cases hstatus : row.status <;>
      simp_all [status_revise, Deed.columnsFor, completedColumns, mayMove]
  · intro hclosing s' row row' hrow hrow'
    have hmoved := moved_step hnext hrow hrow'
    obtain ⟨_, rfl⟩ := Table.find?_mem hrow
    rw [hd] at hmoved
    cases hmoved with
    | kept hsame _ _ =>
        rw [hsame]
        exact mayMove_self _
    | completed hnew _ =>
        rw [hnew]
        rcases hclosing row hrow with hstatus | hstatus <;> rw [hstatus] <;> rfl

theorem movesLegally_cancel_iff (hnext : serve.next b a = some b') {m s : Uuid}
    (hd : deedOf ⟨b, a, b'⟩ = .cancel m s) :
    MovesLegally ⟨b, a, b'⟩ ↔ ∀ row ∈ b.db.getEnrollmentSession s, row.status ≠ .completed := by
  constructor
  · intro hmoves row hrow hstatus
    have hmove := hmoves s row _ hrow (session_after hnext hrow (by rw [hd]; rfl))
    obtain ⟨_, rfl⟩ := Table.find?_mem hrow
    simp_all [status_revise, Deed.columnsFor, cancelledColumns, mayMove]
  · intro hclosing s' row row' hrow hrow'
    have hmoved := moved_step hnext hrow hrow'
    obtain ⟨_, rfl⟩ := Table.find?_mem hrow
    rw [hd] at hmoved
    cases hmoved with
    | kept hsame _ _ =>
        rw [hsame]
        exact mayMove_self _
    | cancelled hnew _ =>
        rw [hnew]
        cases hstatus : row.status with
        | completed => exact absurd hstatus (hclosing row hrow)
        | _ => rfl

theorem once_step (h : LifeCycle ts b)
    (hnew : ∀ m s liveness, deedOf ⟨b, a, b'⟩ = .complete m s liveness →
      ¬ ∃ t ∈ ts, completes s t = true) (s : Uuid) :
    List.countP (completes s) (ts ++ [⟨b, a, b'⟩]) ≤ 1 := by
  rw [List.countP_append]
  cases hs : completes s ⟨b, a, b'⟩ with
  | false => simpa [hs] using h.once s
  | true =>
      obtain ⟨m, liveness, hd⟩ := completes_iff.mp hs
      have hfirst := hnew m s liveness hd
      have hzero : ts.countP (completes s) = 0 :=
        List.countP_eq_zero.mpr fun t ht hcompletes => hfirst ⟨t, ht, hcompletes⟩
      simp [hzero, hs]

theorem version_step (hregister : Register ts b.db) (h : LifeCycle ts b)
    (hnext : serve.next b a = some b')
    (hnew : ∀ m s liveness, deedOf ⟨b, a, b'⟩ = .complete m s liveness → s ∉ completions m ts)
    {m : Uuid} {row : MemberRow} (hrow : b'.db.getMember m = some row) :
    row.faceProfileVersion = (completions m (ts ++ [⟨b, a, b'⟩])).toFinset.card := by
  rw [serve_db hnext, getMember_apply a.clock (deedOf_valid ⟨b, a, b'⟩)] at hrow
  rw [completions_snoc, keepCompletion]
  generalize hd : deedOf ⟨b, a, b'⟩ = d at hrow
  cases d with
  | addMember name role =>
      simp only [Deed.memberAfter] at hrow
      split at hrow
      case isTrue hm =>
        have hnone : completions m ts = [] := by
          by_contra hsome
          exact lt_irrefl _ (hm ▸ hregister.memberDrawn m hsome)
        simp [hnone, ← Option.some.inj hrow, Database.newMember]
      case isFalse => exact h.version m row hrow
  | complete m' s liveness =>
      simp only [Deed.memberAfter] at hrow
      split at hrow
      case isTrue hm =>
        subst hm
        obtain ⟨before, hbefore, rfl⟩ := Option.map_eq_some_iff.mp hrow
        have hfresh : s ∉ (completions m' ts).toFinset := by simpa using hnew m' s liveness hd
        simp [Database.enrolledColumns, h.version m' before hbefore, List.toFinset_append,
          Finset.union_comm, Finset.card_insert_of_notMem hfresh]
      case isFalse hm => simpa [hm] using h.version m row hrow
  | removeMember m' =>
      simp only [Deed.memberAfter] at hrow
      split at hrow
      case isTrue => cases hrow
      case isFalse hm => simpa [hm] using h.version m row hrow
  | removeTemplate m' =>
      simp only [Deed.memberAfter] at hrow
      split at hrow
      case isTrue hm =>
        obtain ⟨before, _, rfl⟩ := Option.map_eq_some_iff.mp hrow
        simp [Database.enrolledColumns, hm]
      case isFalse hm => simpa [hm] using h.version m row hrow
  | _ => exact h.version m row hrow

/-- A step whose moves are legal and whose completion, if it is one, is the first. -/
theorem lifeCycle_step (hregister : Register ts b.db) (h : LifeCycle ts b)
    (hnext : serve.next b a = some b') (hmoves : MovesLegally ⟨b, a, b'⟩)
    (hnew : ∀ m s liveness, deedOf ⟨b, a, b'⟩ = .complete m s liveness →
      ¬ ∃ t ∈ ts, completes s t = true) : LifeCycle (ts ++ [⟨b, a, b'⟩]) b' := by
  refine ⟨fun t ht => ?_, once_step h hnew, fun m row hrow => ?_⟩
  · rcases List.mem_append.mp ht with ht | ht
    · exact h.moves t ht
    · rw [List.mem_singleton.mp ht]
      exact hmoves
  · exact version_step hregister h hnext
      (fun m s liveness hd hs => hnew m s liveness hd (hregister.logged m s hs)) hrow

theorem lifeCycle_complete_iff (hrun : serve.Run b₀ ts b) (hregister : Register ts b.db)
    (h : LifeCycle ts b) (hnext : serve.next b a = some b') {m s : Uuid} {liveness : ℚ}
    (hd : deedOf ⟨b, a, b'⟩ = .complete m s liveness) :
    LifeCycle (ts ++ [⟨b, a, b'⟩]) b' ↔
      ∀ row ∈ b.db.getEnrollmentSession s, row.status = .processing := by
  constructor
  · intro hafter row hrow
    have hmoves := (movesLegally_complete_iff hnext hd).mp (hafter.moves ⟨b, a, b'⟩ (by simp))
    refine (hmoves row hrow).resolve_right fun hstatus => ?_
    -- a second completion of the session
    have honce := hafter.once s
    have hbefore : 0 < ts.countP (completes s) :=
      List.countP_pos_iff.mpr (hregister.completed s row hrow hstatus)
    have hthis : completes s ⟨b, a, b'⟩ = true := completes_iff.mpr ⟨m, liveness, hd⟩
    rw [List.countP_append, List.countP_singleton, if_pos hthis] at honce
    omega
  · intro hclosing
    have hown : (Deed.complete m s liveness).Valid b.db := hd ▸ deedOf_valid ⟨b, a, b'⟩
    obtain ⟨row, hrow⟩ := exists_session_of_own hown
    refine lifeCycle_step hregister h hnext ?_ fun m' s' liveness' hd' hcompleted => ?_
    · exact (movesLegally_complete_iff hnext hd).mpr fun r hr => Or.inl (hclosing r hr)
    · obtain ⟨rfl, rfl, rfl⟩ : m = m' ∧ s = s' ∧ liveness = liveness' := by
        simpa using hd.symm.trans hd'
      have hstatus := completed_of_completes hrun h.moves hcompleted hrow
      rw [hclosing row hrow] at hstatus
      cases hstatus

theorem lifeCycle_step_iff (hrun : serve.Run b₀ ts b) (hregister : Register ts b.db)
    (h : LifeCycle ts b) (hnext : serve.next b a = some b') :
    LifeCycle (ts ++ [⟨b, a, b'⟩]) b' ↔ ClosesInOrder ⟨b, a, b'⟩ := by
  cases hd : deedOf ⟨b, a, b'⟩ with
  | complete m s liveness =>
      have hstep := lifeCycle_complete_iff hrun hregister h hnext hd
      simpa only [ClosesInOrder, hd, Deed.InOrder] using hstep
  | cancel m s =>
      simp only [ClosesInOrder, hd, Deed.InOrder]
      rw [← movesLegally_cancel_iff hnext hd]
      exact ⟨fun hafter => hafter.moves _ (by simp), fun hmoves =>
        lifeCycle_step hregister h hnext hmoves (by simp [hd])⟩
  | _ =>
      refine iff_of_true (lifeCycle_step hregister h hnext ?_ (by simp [hd]))
        (by simp [ClosesInOrder, Deed.InOrder, hd])
      exact movesLegally_of_other hregister hnext (by simp [hd]) (by simp [hd])

end Exactness

/-- Every session keeps to its life cycle and every version counts its completions, in
every state of a run, exactly if every session is closed in order. -/
theorem lifeCycle_iff {onPi : Bool} {clock : ℚ} {b : Process}
    {ts : List (Transition Process Arrival)}
    (hrun : serve.Run (Process.boot onPi none clock) ts b) :
    Machine.Throughout LifeCycle (Process.boot onPi none clock) ts ↔
      Machine.EachStep (fun _ t => ClosesInOrder t) ts := by
  refine hrun.throughout_iff ?_ fun us b a b' hprior h hnext =>
    lifeCycle_step_iff hprior (register_run hprior) h hnext
  constructor <;>
    simp [Process.boot, Database.initDb, Database.fresh, Database.getMember]

/-! ## One completion and two -/

theorem lifeCycle_fullEnrollment :
    ∃ ts b, serve.Run (Process.boot true none 0) ts b ∧ completions 0 ts = [1] ∧
      Machine.Throughout LifeCycle (Process.boot true none 0) ts := by
  have hend : (serve.trace (Process.boot true none 0) fullEnrollment).map
      (fun (ts, _) => (completions 0 ts,
        decide (Machine.EachStep (fun _ t => ClosesInOrder t) ts))) = some ([1], true) := by
    decide +kernel
  obtain ⟨ts, b, hrun, hview⟩ := Machine.exists_run_of_view hend
  obtain ⟨hcompletions, hsteps⟩ := Prod.mk.inj hview
  exact ⟨ts, b, hrun, hcompletions, (lifeCycle_iff hrun).mpr (of_decide_eq_true hsteps)⟩

/-- The same session completed a second time. -/
theorem not_always_lifeCycle :
    ¬ ∀ (ts : List (Transition Process Arrival)) (b : Process),
      serve.Run (Process.boot true none 0) ts b → LifeCycle ts b := by
  intro halways
  have hend : (serve.trace (Process.boot true none 0)
      (fullEnrollment ++ [⟨0, .completeEnrollment 0 1⟩])).map
        (fun (ts, _) => ts.countP (completes 1)) = some 2 := by
    decide +kernel
  obtain ⟨ts, b, hrun, hcount⟩ := Machine.exists_run_of_view hend
  have honce := (halways ts b hrun).once 1
  simp only at hcount
  omega

end FacialCamera.Enrollment
