import FacialCamera.Motion.Polling

/-! # Somebody stays in front of the sensor

A stretch of HIGH polls has one rising edge, its first poll. If that poll comes within
the cooldown of the last run its callback is suppressed, and no later poll of the
stretch calls back again, however long it lasts.
-/

namespace FacialCamera.Motion

open FacialCamera.Core Backend Door

def high (t : Transition Watch WatchMove) : Bool :=
  match t.label with
  | .poll p => p.reading = some true
  | .setMotionSettings _ _ => false

def Polled (t : Transition Watch WatchMove) : Prop :=
  ∃ p level, t.label = .poll p ∧ p.reading = some level ∧ p.raisesAt = none ∧
    grabFaceEncoding p.sight.frames ≠ .raises

/-- `vs` is a maximal stretch of consecutive HIGH polls, after the polls `us`. -/
structure Stretch (ts us vs ws : List (Transition Watch WatchMove)) : Prop where
  split : ts = us ++ vs ++ ws
  nonempty : vs ≠ []
  high : ∀ t ∈ vs, high t = true
  left : ∀ t ∈ us.getLast?, Motion.high t = false
  right : ∀ t ∈ ws.head?, Motion.high t = false

/-- Some poll of the stretch is made a cooldown after the last run before it. -/
def OutlastsCooldown (b₀ : Process) (us vs : List (Transition Watch WatchMove)) : Prop :=
  ∃ vs₁ t vs₂, vs = vs₁ ++ t :: vs₂ ∧ MOTION_COOLDOWN ≤ clockOf t - lastRun b₀ (us ++ vs₁)

/-! ## Callbacks that go through -/

attribute [local simp] Program.run_call exec Database.getDoorLocked scheduleRelock in
/-- Only the encoder makes an undisturbed callback raise. -/
theorem onMotionDetected_completes {sight : Sight} (b : Process)
    (h : grabFaceEncoding sight.frames ≠ .raises) :
    ((onMotionDetected sight).run exec b).1 = some () := by
  cases henabled : b.flags .motionDetectionEnabled with
  | false => simp [onMotionDetected, henabled]
  | true =>
      rcases hclaim : b.claimMotion with ⟨_ | _, b'⟩
      · simp [onMotionDetected, henabled, hclaim]
      cases hgrab : grabFaceEncoding sight.frames with
      | raises => exact absurd hgrab h
      | noFace =>
          cases halerts : b'.flags .motionAlertsEnabled <;>
            simp [onMotionDetected, henabled, hclaim, hgrab, halerts]
      | face encoding quality =>
          cases hname : recognizedName (compareFace sight.library b'.confidenceThreshold encoding
              b'.db.getAllFaceEncodings) with
          | some name => simp [onMotionDetected, henabled, hclaim, hgrab, hname]
          | none =>
              cases halerts : b'.flags .motionAlertsEnabled <;>
                cases hauto : b'.flags .autoLockOnUnknown <;> cases hflag : b'.db.doorLocked <;>
                simp [onMotionDetected, henabled, hclaim, hgrab, hname, halerts, hauto, hflag]

theorem completed?_of_polled {t : Transition Watch WatchMove} (h : Polled t) :
    completed? t = some (high t) := by
  obtain ⟨p, level, hlabel, hreading, hraises, hgrab⟩ := h
  have hcallback : (p.callback (t.before.at p.clock)).1 ≠ none := by
    simp [Poll.callback, hraises, onMotionDetected_completes _ hgrab]
  cases level <;> simp [completed?, high, hlabel, hreading, hcallback]

/-! ## Settings stay as they are -/

theorem flags_callback {p : Poll} (b : Process) (hraises : p.raisesAt = none) :
    (p.callback b).2.flags = b.flags := by
  obtain ⟨rest, heq, hrest⟩ := onMotionDetected_spec p.sight
  have hcalls : (onMotionDetected p.sight).Calls
      fun c => ∀ flag value, c ≠ .writeFlag flag value := by
    rw [heq]
    refine ⟨by simp, fun enabled => ?_⟩
    cases enabled with
    | false => trivial
    | true =>
        refine ⟨by simp, fun claimed => ?_⟩
        cases claimed with
        | false => trivial
        | true => exact hrest.imp fun _ hc => hc.2
  simp only [Poll.callback, hraises]
  exact hcalls.run_frame (I := exec) Process.flags (fun _ _ _ _ hc h => (exec_frame h).flags hc) b

section Runs

variable {b₀ : Process} {w : Watch} {ts : List (Transition Watch WatchMove)}

theorem flags_run (hrun : watching.Run ⟨.init, b₀⟩ ts w) (hpolled : ∀ t ∈ ts, Polled t) :
    w.process.flags = b₀.flags := by
  refine hrun.invariant_where (I := fun w => w.process.flags = b₀.flags) rfl ?_ hpolled
  rintro w l w' h ⟨p, level, rfl, _, hraises, _⟩ hnext
  rw [← h]
  cases (moved_of_next hnext).1 with
  | unread _ _ hafter | level _ _ _ hafter => rw [hafter, Watch.at]
  | edge _ _ hafter => rw [hafter, flags_callback _ hraises, Watch.at]

/-- Where every poll goes through, the level remembered is the last one read. -/
theorem lastCompleted_of_polled (hpolled : ∀ t ∈ ts, Polled t) :
    lastCompleted ts = ts.getLast?.map high := by
  have hlevels : ts.filterMap completed? = ts.map high := by
    rw [← List.filterMap_eq_map]
    exact List.filterMap_congr fun t ht => completed?_of_polled (hpolled t ht)
  rw [lastCompleted, hlevels, List.getLast?_map]

/-- A poll starts a run exactly if it is HIGH after a LOW one and the cooldown is over. -/
theorem startsRun_iff {us : List (Transition Watch WatchMove)} {t : Transition Watch WatchMove}
    (hrun : watching.Run ⟨.init, b₀⟩ (us ++ [t]) w)
    (henabled : b₀.flags .motionDetectionEnabled = true)
    (hpolled : ∀ t' ∈ us ++ [t], Polled t') :
    startsRun t = true ↔ high t = true ∧ (∀ u ∈ us.getLast?, high u = false) ∧
      MOTION_COOLDOWN ≤ clockOf t - lastRun b₀ us := by
  obtain ⟨hprior, hnext, _⟩ := hrun.snoc_inv
  have hearlier : ∀ u ∈ us, Polled u := fun u hu => hpolled u (by simp [hu])
  obtain ⟨p, level, hlabel, hreading, hraises, _⟩ := hpolled t (by simp)
  obtain ⟨before, label, after⟩ := t
  obtain rfl : label = .poll p := hlabel
  have hflags : before.process.flags = b₀.flags := flags_run hprior hearlier
  have hstamp : before.process.lastMotionTime = lastRun b₀ us := lastMotionTime_run hprior
  have hlevel : before.sensor.lastState = (us.getLast?.map high).getD false := by
    rw [← lastCompleted_of_polled hearlier]
    exact lastState_run hprior
  have hlow : before.sensor.lastState = false ↔ ∀ u ∈ us.getLast?, high u = false := by
    rw [hlevel]
    cases us.getLast? <;> simp
  have hclock : clockOf ⟨before, .poll p, after⟩ = p.clock := (moved_of_next hnext).1.clock
  have hclaims : claims p (before.at p.clock) = true ↔
      MOTION_COOLDOWN ≤ p.clock - lastRun b₀ us := by
    rw [claims_iff, motionRuns, not_lt]
    simp [Watch.at, hflags, henabled, hstamp, hraises]
  simp only [startsRun, Watch.callsBack, Bool.and_eq_true, decide_eq_true_eq, high, hlow,
    hclaims, hclock, and_assoc]

/-- A maximal stretch of HIGH polls starts a run exactly if its first poll is made a cooldown
after the last run before it, and then at that poll only. -/
theorem stretch_startsRun_iff {us vs ws : List (Transition Watch WatchMove)}
    {first : Transition Watch WatchMove} (hrun : watching.Run ⟨.init, b₀⟩ ts w)
    (henabled : b₀.flags .motionDetectionEnabled = true) (hpolled : ∀ t ∈ ts, Polled t)
    (hstretch : Stretch ts us (first :: vs) ws) :
    ((∃ t ∈ first :: vs, startsRun t = true) ↔
        MOTION_COOLDOWN ≤ clockOf first - lastRun b₀ us) ∧
      ∀ t ∈ vs, startsRun t = false := by
  have hsplit := hstretch.split
  have hprefix (xs ys : List (Transition Watch WatchMove)) (t : Transition Watch WatchMove)
      (hts : ts = xs ++ [t] ++ ys) : startsRun t = true ↔ high t = true ∧
        (∀ u ∈ xs.getLast?, high u = false) ∧ MOTION_COOLDOWN ≤ clockOf t - lastRun b₀ xs := by
    subst hts
    obtain ⟨mid, hprior, _⟩ := hrun.split
    exact startsRun_iff hprior henabled fun u hu => hpolled u (List.mem_append_left _ hu)
  have hfirst : startsRun first = true ↔ MOTION_COOLDOWN ≤ clockOf first - lastRun b₀ us := by
    have hedge := hprefix us (vs ++ ws) first (by simp [hsplit])
    have hhigh := hstretch.high first (by simp)
    rw [hedge]
    exact ⟨fun h => h.2.2, fun h => ⟨hhigh, hstretch.left, h⟩⟩
  have hlater : ∀ t ∈ vs, startsRun t = false := by
    intro t ht
    obtain ⟨vs₁, vs₂, rfl⟩ := List.append_of_mem ht
    have hedge := hprefix (us ++ first :: vs₁) (vs₂ ++ ws) t (by simp [hsplit])
    rw [← Bool.not_eq_true, hedge]
    rintro ⟨_, hleft, _⟩
    -- the poll before is one of the stretch
    obtain ⟨u, hu, hmem⟩ : ∃ u, (us ++ first :: vs₁).getLast? = some u ∧ u ∈ first :: vs₁ := by
      refine ⟨(first :: vs₁).getLast (by simp), ?_, List.getLast_mem _⟩
      rw [List.getLast?_append, List.getLast?_eq_getLast_of_ne_nil (by simp)]
      rfl
    have hlow := hleft u hu
    have hhigh := hstretch.high u (by
      rcases List.mem_cons.mp hmem with rfl | hmem
      · simp
      · simp [hmem])
    rw [hlow] at hhigh
    cases hhigh
  refine ⟨⟨?_, fun h => ⟨first, by simp, hfirst.mpr h⟩⟩, hlater⟩
  rintro ⟨t, ht, hstarts⟩
  rcases List.mem_cons.mp ht with rfl | ht
  · exact hfirst.mp hstarts
  · rw [hlater t ht] at hstarts
    cases hstarts

end Runs

/-! ## A visitor who comes back -/

/-- The visitor steps aside after the run and stands at the door again a second later. -/
def secondVisit : List WatchMove :=
  [.poll ⟨10, some true, emptyHall, none⟩, .poll ⟨11, some false, emptyHall, none⟩,
    .poll ⟨12, some true, emptyHall, none⟩, .poll ⟨20, some true, emptyHall, none⟩]

theorem polled_secondVisit {t : Transition Watch WatchMove} (h : t.label ∈ secondVisit) :
    Polled t := by
  have hgrab : grabFaceEncoding emptyHall.frames ≠ .raises := by decide
  simp only [secondVisit, List.mem_cons, List.not_mem_nil, or_false] at h
  rcases h with h | h | h | h <;> exact ⟨_, _, h, rfl, rfl, hgrab⟩

/-- The run of that visit, its second stretch apart. -/
theorem exists_secondVisit :
    ∃ us first last w, watching.Run ⟨.init, Process.boot true none 0⟩ (us ++ [first, last]) w ∧
      (∀ t ∈ us ++ [first, last], Polled t) ∧ Stretch (us ++ [first, last]) us [first, last] [] ∧
      lastRun (Process.boot true none 0) us = 10 ∧
      lastRun (Process.boot true none 0) (us ++ [first]) = 10 ∧ clockOf first = 12 ∧
      clockOf last = 20 ∧ startsRun first = false ∧ startsRun last = false := by
  have hend : (watching.trace ⟨.init, Process.boot true none 0⟩ secondVisit).map (fun (ts, _) =>
      ts.map fun t => (high t, startsRun t, clockOf t)) =
      some [(true, true, 10), (false, false, 11), (true, false, 12), (true, false, 20)] := by
    decide +kernel
  obtain ⟨⟨ts, w⟩, htrace, hview⟩ := Option.map_eq_some_iff.mp hend
  have hrun := Machine.run_of_trace htrace
  have hlabels := Machine.labels_of_trace htrace
  have hpolled : ∀ t ∈ ts, Polled t := fun t ht =>
    polled_secondVisit (hlabels ▸ List.mem_map_of_mem ht)
  dsimp only at hview
  obtain ⟨t₁, ts, rfl, h₁, hview⟩ := List.map_eq_cons_iff.mp hview
  obtain ⟨t₂, ts, rfl, h₂, hview⟩ := List.map_eq_cons_iff.mp hview
  obtain ⟨t₃, ts, rfl, h₃, hview⟩ := List.map_eq_cons_iff.mp hview
  obtain ⟨t₄, ts, rfl, h₄, hview⟩ := List.map_eq_cons_iff.mp hview
  obtain rfl := List.map_eq_nil_iff.mp hview
  simp only [Prod.mk.injEq] at h₁ h₂ h₃ h₄
  refine ⟨[t₁, t₂], t₃, t₄, w, hrun, hpolled, ⟨rfl, by simp, ?_, ?_, by simp⟩, ?_, ?_, h₃.2.2,
    h₄.2.2, h₃.2.1, h₄.2.1⟩
  · simp [h₃.1, h₄.1]
  · simp [h₂.1]
  · simp [lastRun, h₁.2.1, h₁.2.2, h₂.2.1]
  · simp [lastRun, h₁.2.1, h₁.2.2, h₂.2.1, h₃.2.1]

theorem stretch_startsRun_secondVisit :
    ∃ ts us first vs ws w, watching.Run ⟨.init, Process.boot true none 0⟩ ts w ∧
      Stretch ts us (first :: vs) ws ∧ ¬ ∃ t ∈ first :: vs, startsRun t = true := by
  obtain ⟨us, first, last, w, hrun, hpolled, hstretch, hlast, _, hclock, _, _, _⟩ :=
    exists_secondVisit
  refine ⟨_, us, first, [last], [], w, hrun, hstretch, fun hstarts => ?_⟩
  have hlate := (stretch_startsRun_iff hrun rfl hpolled hstretch).1.mp hstarts
  rw [hlast, hclock, MOTION_COOLDOWN] at hlate
  norm_num at hlate

theorem not_always_met :
    ¬ ∀ (ts us vs ws : List (Transition Watch WatchMove)) (w : Watch),
      watching.Run ⟨.init, Process.boot true none 0⟩ ts w → (∀ t ∈ ts, Polled t) →
      Stretch ts us vs ws → OutlastsCooldown (Process.boot true none 0) us vs →
      ∃ t ∈ vs, startsRun t = true := by
  intro halways
  obtain ⟨us, first, last, w, hrun, hpolled, hstretch, _, hlast, _, hclock, hfirst, hsecond⟩ :=
    exists_secondVisit
  have houtlasts : OutlastsCooldown (Process.boot true none 0) us [first, last] := by
    refine ⟨[first], last, [], rfl, ?_⟩
    rw [hlast, hclock, MOTION_COOLDOWN]
    norm_num
  obtain ⟨t, ht, hstarts⟩ := halways _ us [first, last] [] w hrun hpolled hstretch houtlasts
  rcases List.mem_cons.mp ht with rfl | ht
  · rw [hfirst] at hstarts
    cases hstarts
  · rw [List.mem_singleton.mp ht, hsecond] at hstarts
    cases hstarts

end FacialCamera.Motion
