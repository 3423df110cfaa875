import FacialCamera.Enrollment.History

/-! # Which captures the recognizer is given

A row of `face_encodings` carries no session id; the only gate between a capture
and the recognizer is the member's `face_enrolled` flag. The captures of a
member and the fate of the sessions they came through are read off the history,
and compared with what `get_all_face_encodings` offers.
-/

namespace FacialCamera.Enrollment

open FacialCamera.Core Backend

/-! ## The history -/

/-- The captures of a member after one more request, each with its session. -/
def keepCapture (m : Uuid) (acc : List (Uuid × EncodingRow)) (t : Transition Process Arrival) :
    List (Uuid × EncodingRow) :=
  match deedOf t with
  | .capture m' s encoding angle _ =>
      if m' = m then acc ++ [(s, t.before.db.newEncoding m' encoding angle t.label.clock)] else acc
  | .removeMember m' => if m' = m then [] else acc
  | .removeTemplate m' => if m' = m then [] else acc
  | _ => acc

/-- The captures of a member since the last removal of its template. -/
def captures (m : Uuid) (ts : List (Transition Process Arrival)) : List (Uuid × EncodingRow) :=
  ts.foldl (keepCapture m) []

def Finalized (ts : List (Transition Process Arrival)) (s : Uuid) : Prop :=
  (∃ t ∈ ts, completes s t = true) ∧ ¬ ∃ t ∈ ts, cancels s t = true

instance (ts : List (Transition Process Arrival)) (s : Uuid) : Decidable (Finalized ts s) :=
  inferInstanceAs (Decidable (_ ∧ _))

/-- The encodings that a member's finalized sessions captured. -/
def trusted (m : Uuid) (ts : List (Transition Process Arrival)) : List Encoding :=
  ((captures m ts).filter fun c => Finalized ts c.1).map fun c => c.2.encoding

/-- The encodings that `get_all_face_encodings` offers for a member. -/
def offered (db : Database) (m : Uuid) : List Encoding :=
  (db.getAllFaceEncodings.filter fun entry => entry.memberId = m).map KnownEntry.encoding

/-- The recognizer is given the finalized captures of every member and no others. -/
def OffersFinalized (ts : List (Transition Process Arrival)) (b : Process) : Prop :=
  ∀ m, offered b.db m = trusted m ts

/-- The steps that keep finalized and offered captures the same: no capture for an
enrolled member, no first completion over captures of other or cancelled sessions,
no cancellation of a session whose captures are in use. -/
def KeepsFinalized (ts : List (Transition Process Arrival)) (t : Transition Process Arrival) :
    Prop :=
  match deedOf t with
  | .capture m _ _ _ _ => enrolled t.before.db m = false
  | .complete m s _ => enrolled t.before.db m = true ∨
      ∀ c ∈ captures m ts, c.1 = s ∧ ¬ ∃ u ∈ ts, cancels s u = true
  | .cancel m s => enrolled t.before.db m = false ∨ ∀ c ∈ captures m ts, c.1 ≠ s
  | _ => True

instance (ts : List (Transition Process Arrival)) (t : Transition Process Arrival) :
    Decidable (KeepsFinalized ts t) := by
  unfold KeepsFinalized
  split <;> infer_instance

/-! ## Offered encodings are stored ones -/

theorem knownEntry_eq (db : Database) (e : EncodingRow) :
    db.knownEntry? e =
      if enrolled db e.memberId then
        some ⟨e.encoding, e.memberId, ((db.getMember e.memberId).map MemberRow.name).getD ""⟩
      else none := by
  unfold Database.knownEntry? enrolled Database.getMember
  cases db.members.find? e.memberId with
  | none => simp
  | some r => simp

theorem offered_eq (db : Database) (m : Uuid) :
    offered db m = if enrolled db m then (stored db m).map EncodingRow.encoding else [] := by
  unfold offered stored Database.getAllFaceEncodings
  induction db.encodings.rows with
  | nil => simp
  | cons e es ih =>
      rw [List.filterMap_cons, knownEntry_eq]
      by_cases hm : e.memberId = m
      · subst hm
        cases hopen : enrolled db e.memberId <;> simp [hopen] at ih ⊢
        · exact ih
        · exact ih
      · cases hopen : enrolled db e.memberId <;> simpa [hm] using ih

/-! ## What the history records -/

theorem captures_snoc (m : Uuid) (ts : List (Transition Process Arrival))
    (t : Transition Process Arrival) :
    captures m (ts ++ [t]) = keepCapture m (captures m ts) t := by
  simp [captures]

/-- Every entry is an old one or the capture of this request. -/
theorem mem_keepCapture {m : Uuid} {acc : List (Uuid × EncodingRow)}
    {t : Transition Process Arrival} {c : Uuid × EncodingRow} (h : c ∈ keepCapture m acc t) :
    c ∈ acc ∨ ∃ encoding angle columns, deedOf t = .capture m c.1 encoding angle columns := by
  unfold keepCapture at h
  cases hd : deedOf t with
  | capture m' s encoding angle columns =>
      simp only [hd] at h
      split at h
      case isTrue hm =>
        subst hm
        rcases List.mem_append.mp h with h | h
        · exact Or.inl h
        · rw [List.mem_singleton.mp h]
          exact Or.inr ⟨encoding, angle, columns, rfl⟩
      case isFalse => exact Or.inl h
  | removeMember m' | removeTemplate m' =>
      simp only [hd] at h
      split at h
      case isTrue => cases h
      case isFalse => exact Or.inl h
  | _ => exact Or.inl (by simpa [hd] using h)

structure Ledger (ts : List (Transition Process Arrival)) (db : Database) : Prop where
  stored : ∀ m, stored db m = (captures m ts).map Prod.snd
  capturedDrawn : ∀ m, ∀ c ∈ captures m ts, c.1 < db.uuids
  owner : ∀ m, ∀ c ∈ captures m ts, ∀ row ∈ db.getEnrollmentSession c.1, row.memberId = m
  closed : ∀ s, (∃ t ∈ ts, completes s t = true) →
    ∀ row ∈ db.getEnrollmentSession s, row.status.isOpen = false

theorem ledger_fresh : Ledger [] Database.fresh := by
  constructor <;> simp [stored, captures, Database.fresh]

section Step

variable {ts : List (Transition Process Arrival)} {b b' : Process} {a : Arrival}

theorem Ledger.stored_step (h : Ledger ts b.db) (hnext : serve.next b a = some b') (m : Uuid) :
    Enrollment.stored b'.db m = (captures m (ts ++ [⟨b, a, b'⟩])).map Prod.snd := by
  rw [serve_db hnext, stored_apply a.clock (deedOf_valid ⟨b, a, b'⟩), captures_snoc, keepCapture]
  cases deedOf ⟨b, a, b'⟩ with
  | capture m' s encoding angle columns =>
      by_cases hm : m' = m <;> simp [Deed.storedAfter, hm, h.stored]
  | removeMember m' | removeTemplate m' =>
      by_cases hm : m' = m <;> simp [Deed.storedAfter, hm, h.stored]
  | _ => exact h.stored m

theorem Ledger.step (h : Ledger ts b.db) (hnext : serve.next b a = some b')
    (hdrawn : ∀ s, (∃ t ∈ ts, completes s t = true) → s < b.db.uuids) :
    Ledger (ts ++ [⟨b, a, b'⟩]) b'.db := by
  have hcaptured : ∀ m, ∀ c ∈ captures m (ts ++ [⟨b, a, b'⟩]), c.1 < b.db.uuids := by
    intro m c hc
    rw [captures_snoc] at hc
    rcases mem_keepCapture hc with hc | ⟨encoding, angle, columns, hd⟩
    · exact h.capturedDrawn m c hc
    · exact lt_uuids_of_admitted (deed_eq_capture hd).1
  refine ⟨h.stored_step hnext, fun m c hc => (hcaptured m c hc).trans_le (uuids_le_step hnext),
    ?_, ?_⟩
  · intro m c hc row' hrow'
    obtain ⟨row, hrow, rfl⟩ := session_before hnext (hcaptured m c hc) hrow'
    rw [memberId_revise]
    rw [captures_snoc] at hc
    rcases mem_keepCapture hc with hc | ⟨encoding, angle, columns, hd⟩
    · exact h.owner m c hc row hrow
    · exact (isOpen_of_admitted (deed_eq_capture hd).1 hrow).1
  · rintro s ⟨t, ht, hs⟩ row' hrow'
    rcases List.mem_append.mp ht with ht | ht
    · obtain ⟨row, hrow, rfl⟩ := session_before hnext (hdrawn s ⟨t, ht, hs⟩) hrow'
      exact isOpen_revise hrow (h.closed s ⟨t, ht, hs⟩ row hrow)
    · rw [List.mem_singleton.mp ht] at hs
      obtain ⟨row, hrow, rfl⟩ := session_before hnext (lt_uuids_of_completes hs) hrow'
      obtain ⟨m, liveness, hd⟩ := completes_iff.mp hs
      obtain ⟨_, rfl⟩ := Table.find?_mem hrow
      simp [status_revise, hd, Deed.columnsFor, completedColumns, Status.isOpen]

end Step

theorem ledger_run {onPi : Bool} {clock : ℚ} {b : Process}
    {ts : List (Transition Process Arrival)}
    (hrun : serve.Run (Process.boot onPi none clock) ts b) : Ledger ts b.db := by
  induction hrun with
  | nil => exact ledger_fresh
  | snoc hprior hnext ih => exact ih.step hnext (completed_drawn hprior)

/-! ## Offered and finalized captures agree member by member -/

/-- The gate of the member is open exactly for the finalized ones among its captures. -/
def GateFits (ts : List (Transition Process Arrival)) (db : Database) (m : Uuid) : Prop :=
  ∀ c ∈ captures m ts, Finalized ts c.1 ↔ enrolled db m = true

theorem offered_eq_trusted_iff {ts : List (Transition Process Arrival)} {db : Database}
    (h : Ledger ts db) (m : Uuid) : offered db m = trusted m ts ↔ GateFits ts db m := by
  rw [offered_eq, h.stored, List.map_map, trusted, GateFits]
  cases enrolled db m with
  | true =>
      simp only [if_true, iff_true]
      constructor
      · intro heq c hc
        have hlength := congrArg List.length heq
        simp only [List.length_map] at hlength
        simpa using List.length_filter_eq_length_iff.mp hlength.symm c hc
      · intro hall
        rw [List.filter_eq_self.mpr fun c hc => decide_eq_true (hall c hc)]
        rfl
  | false =>
      simp only [Bool.false_eq_true, if_false, iff_false]
      constructor
      · intro heq c hc hfinal
        have hmem : c ∈ (captures m ts).filter fun c => Finalized ts c.1 := by simp [hc, hfinal]
        rw [List.map_eq_nil_iff.mp heq.symm] at hmem
        cases hmem
      · intro hnone
        rw [List.filter_eq_nil_iff.mpr fun c hc => by simpa using hnone c hc]
        rfl

theorem finalized_snoc (ts : List (Transition Process Arrival)) (t : Transition Process Arrival)
    (s : Uuid) :
    Finalized (ts ++ [t]) s ↔
      ((∃ u ∈ ts, completes s u = true) ∨ completes s t = true) ∧
        ¬ ((∃ u ∈ ts, cancels s u = true) ∨ cancels s t = true) := by
  simp [Finalized, or_and_right, exists_or]

/-- A request that neither completes nor cancels the session. -/
theorem finalized_snoc_of_none {ts : List (Transition Process Arrival)}
    {t : Transition Process Arrival} {s : Uuid} (hcomplete : completes s t = false)
    (hcancel : cancels s t = false) : Finalized (ts ++ [t]) s ↔ Finalized ts s := by
  simp [hcomplete, hcancel, Finalized]

section Exactness

variable {ts : List (Transition Process Arrival)} {b b' : Process} {a : Arrival}

/-- A member whose captures, gate and sessions a request does not touch. -/
theorem gateFits_frame {m : Uuid}
    (hcaptures : captures m (ts ++ [⟨b, a, b'⟩]) = captures m ts)
    (hfinal : ∀ c ∈ captures m ts, Finalized (ts ++ [⟨b, a, b'⟩]) c.1 ↔ Finalized ts c.1)
    (hgate : enrolled b'.db m = enrolled b.db m) :
    GateFits (ts ++ [⟨b, a, b'⟩]) b'.db m ↔ GateFits ts b.db m := by
  unfold GateFits
  rw [hcaptures, hgate]
  exact forall₂_congr fun c hc => by rw [hfinal c hc]

theorem not_finalized_of_admitted (h : Ledger ts b.db) {m s : Uuid}
    (hadmitted : Admitted b.db m s) :
    ¬ Finalized ts s := by
  rintro ⟨hcompleted, _⟩
  obtain ⟨session, hsession, hopen⟩ := hadmitted
  have hrow := (ownSession_eq_some_iff.mp hsession).1
  simp [h.closed s hcompleted session hrow] at hopen

/-- The captures through a session of one member are captures of that member. -/
theorem captured_owner (h : Ledger ts b.db) {m m' s : Uuid} (hown : (ownSession b.db m s).isSome)
    {c : Uuid × EncodingRow} (hc : c ∈ captures m' ts) (hs : c.1 = s) : m = m' := by
  obtain ⟨session, hsession⟩ := Option.isSome_iff_exists.mp hown
  obtain ⟨hrow, hmember⟩ := ownSession_eq_some_iff.mp hsession
  exact hmember.symm.trans (h.owner m' c hc session (hs ▸ hrow))

theorem enrolled_step (hnext : serve.next b a = some b') (m : Uuid) :
    enrolled b'.db m = (deedOf ⟨b, a, b'⟩).enrolledAfter b.db m := by
  rw [serve_db hnext, enrolled_apply a.clock (deedOf_valid ⟨b, a, b'⟩)]

/-- Through a member who is not enrolled nothing is offered; the new capture is not
finalized, because its session is open. -/
theorem gateFits_capture_iff (h : Ledger ts b.db) (hfits : ∀ m, GateFits ts b.db m)
    (hnext : serve.next b a = some b') {m s : Uuid} {encoding : Encoding} {angle : String}
    {columns : Option Database.SessionColumns}
    (hd : deedOf ⟨b, a, b'⟩ = .capture m s encoding angle columns) :
    (∀ m', GateFits (ts ++ [⟨b, a, b'⟩]) b'.db m') ↔ enrolled b.db m = false := by
  have hgate : ∀ m', enrolled b'.db m' = enrolled b.db m' := by
    intro m'
    rw [enrolled_step hnext, hd]
    rfl
  have hsame : ∀ s', Finalized (ts ++ [⟨b, a, b'⟩]) s' ↔ Finalized ts s' := fun s' =>
    finalized_snoc_of_none (by simp [completes, hd]) (by simp [cancels, hd])
  have hnew : ¬ Finalized ts s := not_finalized_of_admitted h (deed_eq_capture hd).1
  constructor
  · intro hall
    have hmem : (s, b.db.newEncoding m encoding angle a.clock) ∈
        captures m (ts ++ [⟨b, a, b'⟩]) := by
      simp [captures_snoc, keepCapture, hd]
    have hopen := (not_congr (hall m _ hmem)).mp fun hfinal => hnew ((hsame s).mp hfinal)
    simpa [hgate] using hopen
  · intro hclosed m' c hc
    rw [hsame, hgate]
    rw [captures_snoc, keepCapture, hd] at hc
    simp only at hc
    split at hc
    case isTrue hm =>
      subst hm
      rcases List.mem_append.mp hc with hc | hc
      · exact hfits m c hc
      · rw [List.mem_singleton.mp hc]
        exact iff_of_false hnew (by simp [hclosed])
    case isFalse => exact hfits m' c hc

/-- A completion opens the gate for all captures of its member. -/
theorem gateFits_complete_iff (h : Ledger ts b.db) (hfits : ∀ m, GateFits ts b.db m)
    (hnext : serve.next b a = some b') {m s : Uuid} {liveness : ℚ}
    (hd : deedOf ⟨b, a, b'⟩ = .complete m s liveness) :
    (∀ m', GateFits (ts ++ [⟨b, a, b'⟩]) b'.db m') ↔
      (enrolled b.db m = true ∨
        ∀ c ∈ captures m ts, c.1 = s ∧ ¬ ∃ u ∈ ts, cancels s u = true) := by
  have hown : (Deed.complete m s liveness).Valid b.db := hd ▸ deedOf_valid ⟨b, a, b'⟩
  have hcaptures : ∀ m', captures m' (ts ++ [⟨b, a, b'⟩]) = captures m' ts := fun m' => by
    simp [captures_snoc, keepCapture, hd]
  have hothers : ∀ m', m ≠ m' → GateFits (ts ++ [⟨b, a, b'⟩]) b'.db m' := by
    intro m' hm
    refine (gateFits_frame (hcaptures m') (fun c hc => ?_) ?_).mpr (hfits m')
    · have hs : s ≠ c.1 := fun hs => hm (captured_owner h hown hc hs.symm)
      exact finalized_snoc_of_none (by simp [completes, hd, hs]) (by simp [cancels, hd])
    · simp [enrolled_step hnext, hd, Deed.enrolledAfter, hm]
  have hopened : enrolled b'.db m = true := by
    simp [enrolled_step hnext, hd, Deed.enrolledAfter]
  have hfinal : ∀ s', Finalized (ts ++ [⟨b, a, b'⟩]) s' ↔
      ((∃ u ∈ ts, completes s' u = true) ∨ s = s') ∧ ¬ ∃ u ∈ ts, cancels s' u = true := fun s' => by
    rw [finalized_snoc]
    simp [completes, cancels, hd]
  constructor
  · intro hall
    cases hgate : enrolled b.db m with
    | true => exact Or.inl rfl
    | false =>
        refine Or.inr fun c hc => ?_
        have hunused : ¬ Finalized ts c.1 := by simp [hfits m c hc, hgate]
        have hafter := (hall m c (hcaptures m ▸ hc)).mpr hopened
        obtain ⟨hcompleted | hs, hcancelled⟩ := (hfinal c.1).mp hafter
        · exact absurd ⟨hcompleted, hcancelled⟩ hunused
        · exact ⟨hs.symm, hs ▸ hcancelled⟩
  · intro hkeep m'
    by_cases hm : m = m'
    · subst hm
      intro c hc
      rw [hcaptures] at hc
      refine iff_of_true ((hfinal c.1).mpr ?_) hopened
      rcases hkeep with hgate | hkeep
      · obtain ⟨hcompleted, hcancelled⟩ := (hfits m c hc).mpr hgate
        exact ⟨Or.inl hcompleted, hcancelled⟩
      · obtain ⟨hs, hcancelled⟩ := hkeep c hc
        exact ⟨Or.inr hs.symm, hs ▸ hcancelled⟩
    · exact hothers m' hm

/-- A cancellation takes captures back that an open gate goes on offering. -/
theorem gateFits_cancel_iff (h : Ledger ts b.db) (hfits : ∀ m, GateFits ts b.db m)
    (hnext : serve.next b a = some b') {m s : Uuid}
    (hd : deedOf ⟨b, a, b'⟩ = .cancel m s) :
    (∀ m', GateFits (ts ++ [⟨b, a, b'⟩]) b'.db m') ↔
      (enrolled b.db m = false ∨ ∀ c ∈ captures m ts, c.1 ≠ s) := by
  have hown : (Deed.cancel m s).Valid b.db := hd ▸ deedOf_valid ⟨b, a, b'⟩
  have hcaptures : ∀ m', captures m' (ts ++ [⟨b, a, b'⟩]) = captures m' ts := fun m' => by
    simp [captures_snoc, keepCapture, hd]
  have hgate : ∀ m', enrolled b'.db m' = enrolled b.db m' := by
    intro m'
    rw [enrolled_step hnext, hd]
    rfl
  have hfinal : ∀ s', Finalized (ts ++ [⟨b, a, b'⟩]) s' ↔ Finalized ts s' ∧ s' ≠ s := fun s' => by
    rw [finalized_snoc]
    simp only [completes, cancels, hd, Finalized]
    by_cases hs : s = s'
    · simp [hs]
    · simp [hs, Ne.symm hs]
  constructor
  · intro hall
    cases hopen : enrolled b.db m with
    | false => exact Or.inl rfl
    | true =>
        refine Or.inr fun c hc => ?_
        have hafter := (hall m c (hcaptures m ▸ hc)).mpr (by rw [hgate, hopen])
        exact ((hfinal c.1).mp hafter).2
  · intro hkeep m' c hc
    rw [hcaptures] at hc
    rw [hfinal, hgate, hfits m' c hc]
    refine and_iff_left_of_imp fun hopen hs => ?_
    obtain rfl := captured_owner h hown hc hs
    rcases hkeep with hclosed | hkeep
    · simp [hopen] at hclosed
    · exact hkeep c hc hs

/-- A removal takes the captures away with the gate. -/
theorem gateFits_removed (hfits : ∀ m, GateFits ts b.db m) (hnext : serve.next b a = some b')
    {m : Uuid}
    (hd : deedOf ⟨b, a, b'⟩ = .removeMember m ∨ deedOf ⟨b, a, b'⟩ = .removeTemplate m) (m' : Uuid) :
    GateFits (ts ++ [⟨b, a, b'⟩]) b'.db m' := by
  by_cases hm : m = m'
  · intro c hc
    rcases hd with hd | hd <;> simp [captures_snoc, keepCapture, hd, hm] at hc
  · refine (gateFits_frame ?_ (fun c _ => ?_) ?_).mpr (hfits m')
    · rcases hd with hd | hd <;> simp [captures_snoc, keepCapture, hd, hm]
    · rcases hd with hd | hd <;>
        exact finalized_snoc_of_none (by simp [completes, hd]) (by simp [cancels, hd])
    · rcases hd with hd | hd <;> simp [enrolled_step hnext, hd, Deed.enrolledAfter, hm]

theorem gateFits_step_iff (h : Ledger ts b.db) (hfits : ∀ m, GateFits ts b.db m)
    (hnext : serve.next b a = some b') :
    (∀ m, GateFits (ts ++ [⟨b, a, b'⟩]) b'.db m) ↔ KeepsFinalized ts ⟨b, a, b'⟩ := by
  cases hd : deedOf ⟨b, a, b'⟩ with
  | capture m s encoding angle columns =>
      simpa only [KeepsFinalized, hd] using gateFits_capture_iff h hfits hnext hd
  | complete m s liveness =>
      simpa only [KeepsFinalized, hd] using gateFits_complete_iff h hfits hnext hd
  | cancel m s => simpa only [KeepsFinalized, hd] using gateFits_cancel_iff h hfits hnext hd
  | removeMember m =>
      exact iff_of_true (gateFits_removed hfits hnext (Or.inl hd)) (by simp [KeepsFinalized, hd])
  | removeTemplate m =>
      exact iff_of_true (gateFits_removed hfits hnext (Or.inr hd)) (by simp [KeepsFinalized, hd])
  | nothing | addMember | start | note =>
      refine iff_of_true (fun m => ?_) (by simp [KeepsFinalized, hd])
      refine (gateFits_frame ?_ ?_ ?_).mpr (hfits m)
      · simp [captures_snoc, keepCapture, hd]
      · exact fun c _ => finalized_snoc_of_none (by simp [completes, hd]) (by simp [cancels, hd])
      · simp [enrolled_step hnext, hd, Deed.enrolledAfter]

end Exactness

/-- In every state of a run the recognizer is given the finalized captures and no
others, exactly if every step keeps it so. -/
theorem offersFinalized_iff {onPi : Bool} {clock : ℚ} {b : Process}
    {ts : List (Transition Process Arrival)}
    (hrun : serve.Run (Process.boot onPi none clock) ts b) :
    Machine.Throughout OffersFinalized (Process.boot onPi none clock) ts ↔
      Machine.EachStep KeepsFinalized ts := by
  refine hrun.throughout_iff ?_ fun us b a b' hprior h hnext => ?_
  · intro m
    simp [offered, trusted, captures, Process.boot, Database.initDb, Database.fresh,
      Database.getAllFaceEncodings]
  · have hledger := ledger_run hprior
    have hfits := fun m => (offered_eq_trusted_iff hledger m).mp (h m)
    rw [← gateFits_step_iff hledger hfits hnext]
    exact forall_congr' fun m => offered_eq_trusted_iff (ledger_run (hprior.snoc hnext)) m

/-! ## A capture that is finalized and one that was cancelled -/

def oneCapture : List Arrival :=
  ([.addMember "Resident" "Member", .startEnrollment 0,
    .piCameraCapture 0 1 "front" (some (.face [1] 1)), .completeEnrollment 0 1] :
    List Request).map (Arrival.mk 0)

/-- The capture's session is cancelled, and the next one is completed without a capture. -/
def cancelledCapture : List Arrival :=
  ([.addMember "Resident" "Member", .startEnrollment 0,
    .piCameraCapture 0 1 "front" (some (.face [1] 1)), .cancelEnrollment 0 1,
    .startEnrollment 0, .completeEnrollment 0 3] : List Request).map (Arrival.mk 0)

theorem offersFinalized_oneCapture :
    ∃ ts b, serve.Run (Process.boot true none 0) ts b ∧ offered b.db 0 = [[1]] ∧
      Machine.Throughout OffersFinalized (Process.boot true none 0) ts := by
  have hend : (serve.trace (Process.boot true none 0) oneCapture).map
      (fun (ts, b) => (offered b.db 0, decide (Machine.EachStep KeepsFinalized ts))) =
        some ([[1]], true) := by
    decide +kernel
  obtain ⟨ts, b, hrun, hview⟩ := Machine.exists_run_of_view hend
  obtain ⟨hoffered, hsteps⟩ := Prod.mk.inj hview
  exact ⟨ts, b, hrun, hoffered, (offersFinalized_iff hrun).mpr (of_decide_eq_true hsteps)⟩

theorem not_always_offersFinalized :
    ¬ ∀ (ts : List (Transition Process Arrival)) (b : Process),
      serve.Run (Process.boot true none 0) ts b → OffersFinalized ts b := by
  intro halways
  have hend : (serve.trace (Process.boot true none 0) cancelledCapture).map
      (fun (ts, b) => (offered b.db 0, trusted 0 ts)) = some ([[1]], []) := by
    decide +kernel
  obtain ⟨ts, b, hrun, hview⟩ := Machine.exists_run_of_view hend
  obtain ⟨hoffered, htrusted⟩ := Prod.mk.inj hview
  have hsame := halways ts b hrun 0
  rw [hoffered, htrusted] at hsame
  cases hsame

end FacialCamera.Enrollment
