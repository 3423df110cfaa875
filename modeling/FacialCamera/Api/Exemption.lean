import FacialCamera.Api.Wire

/-! # What an exempted request can do

A keyless request whose Host header exempts it is handled as one with the key. Which of the
handlers change the state or show something of it then decides whether the request is harmless;
nearly all of them do, for some state.
-/

namespace FacialCamera.Api

open FacialCamera.Core Backend

/-- The call changes some state, or is answered by it. A limit of zero, an id that no row has and
a threshold out of range are answered alike in all states. -/
def Telling : ApiRequest → Prop
  | .health | .cameraStream => False
  | .getLogs limit => limit ≠ 0 ∧ Database.bindable limit = true
  | .getLogSnapshot id | .markAlertRead id => 0 ≤ id ∧ Database.bindable id = true
  | .setConfidence none => False
  | .setConfidence (some threshold) => 0 ≤ threshold ∧ threshold ≤ 1
  | _ => True

inductive Shown (a : ApiRequest) : Prop where
  | changes (seen : Surroundings) (b : Process) (changed : (respond seen a b).2 ≠ b)
  | answers (seen seen' : Surroundings) (b b' : Process) (clock : b.clock = b'.clock)
      (jpeg : seen.sight.jpeg = seen'.sight.jpeg)
      (differs : (respond seen a b).1.content ≠ (respond seen' a b').1.content)

/-! ## The calls that are answered alike -/

theorem harmless_of_const {a : ApiRequest} (response : Response)
    (h : ∀ seen b, respond seen a b = (response, b)) : Harmless fun seen b => respond seen a b := by
  simpa only [h] using Harmless.const response

/-- A handler whose first call raises. -/
theorem respond_raises {c : Call} {k : Answer c → Proc (Reply Body)} {seen : Surroundings}
    {a : ApiRequest} {b : Process} (ha : a.handler seen = .call c k)
    (hraises : exec c b = none) : respond seen a b = (serverError, b) := by
  rw [respond, ha, Program.run_call, hraises]

theorem respond_ok {seen : Surroundings} {a : ApiRequest} {body : Body} {b b' : Process}
    (h : (a.handler seen).run exec b = (some (.ok body), b')) :
    respond seen a b = (⟨200, [], .body body⟩, b') := by
  rw [respond, h]

theorem respond_error {seen : Surroundings} {a : ApiRequest} {e : HTTPException} {b b' : Process}
    (h : (a.handler seen).run exec b = (some (.error e), b')) :
    respond seen a b = (⟨e.status, [], .body (.detail e.detail)⟩, b') := by
  rw [respond, h]

theorem harmless_of_not_telling {a : ApiRequest} (h : ¬ Telling a) :
    Harmless fun seen b => respond seen a b := by
  cases a with
  | health => exact harmless_health
  | cameraStream => exact harmless_cameraStream
  | getLogs limit =>
      by_cases hbind : Database.bindable limit = true
      · have hzero : limit = 0 := by
          by_contra hne
          exact h ⟨hne, hbind⟩
        subst hzero
        exact harmless_of_const ⟨200, [], .body (.logs [])⟩ fun _ _ => rfl
      · exact harmless_of_const serverError fun seen b =>
          respond_raises rfl (if_neg hbind)
  | getLogSnapshot id =>
      by_cases hbind : Database.bindable id = true
      · have hnone (b : Process) : b.db.getLogSnapshot id = none := by
          have hfind : (b.db.logs.find? fun r => (r.id : Int) = id) = none :=
            List.find?_eq_none.mpr fun r _ => by
              have hid : ¬ 0 ≤ id := fun hid => h ⟨hid, hbind⟩
              simp only [decide_eq_true_eq]
              omega
          rw [Database.getLogSnapshot, hfind]
          rfl
        refine harmless_of_const ⟨404, [], .body (.detail "No snapshot for this log entry")⟩
          fun seen b => respond_error (e := ⟨404, "No snapshot for this log entry"⟩) ?_
        simp [ApiRequest.handler, reply, getLogSnapshot, Program.run_call, exec, hbind, hnone,
          Except.map]
      · exact harmless_of_const serverError fun seen b =>
          respond_raises rfl (if_neg hbind)
  | markAlertRead id =>
      by_cases hbind : Database.bindable id = true
      · have hsame (b : Process) : b.db.markAlertRead id = b.db := by
          have hid : ¬ 0 ≤ id := fun hid => h ⟨hid, hbind⟩
          have hother (r : AlertRow) : (r.id : Int) ≠ id := by omega
          simp [Database.markAlertRead, hother]
        refine harmless_of_const ⟨200, [], .body .read⟩ fun seen b => respond_ok ?_
        simp [ApiRequest.handler, answer, markAlertRead, Program.run_call, exec, hbind, hsame]
      · exact harmless_of_const serverError fun seen b =>
          respond_raises rfl (if_neg hbind)
  | setConfidence threshold =>
      refine harmless_of_const
        ⟨400, [], .body (.detail "Threshold must be between 0.0 and 1.0")⟩ fun seen b => ?_
      cases threshold with
      | none => rfl
      | some t =>
          have hrange : ¬ (0 ≤ t ∧ t ≤ 1) := h
          simp [respond, ApiRequest.handler, reply, setConfidence, if_neg hrange, Except.map]
  | _ => exact absurd trivial h

/-! ## Two states -/

def withSession (m s : Uuid) : Database where
  uuids := m + s + 1
  members := Table.empty.insert ⟨m, "Ana", "Owner", 0, false, 0, none, none⟩ (by simp [Table.Has])
  encodings := .empty
  sessions := Table.empty.insert
    ⟨s, m, .cancelled, 15, 0, 0, .created, 0, none, 0⟩ (by simp [Table.Has])
  logs := []
  alerts := []
  doorLocked := true
  encodings_member := by simp
  sessions_member := by simp [Table.Has]
  members_drawn r hr := by
    cases List.mem_singleton.mp hr
    exact Nat.lt_succ_of_le (Nat.le_add_right m s)
  encodings_drawn := by simp
  sessions_drawn r hr := by
    cases List.mem_singleton.mp hr
    exact Nat.lt_succ_of_le (Nat.le_add_left s m)

@[simp] theorem getMember_fresh (m : Uuid) : Database.fresh.getMember m = none := rfl

@[simp] theorem getEnrollmentSession_fresh (s : Uuid) :
    Database.fresh.getEnrollmentSession s = none := rfl

@[simp] theorem getMember_withSession (m s : Uuid) :
    (withSession m s).getMember m = some ⟨m, "Ana", "Owner", 0, false, 0, none, none⟩ := by
  simp [Database.getMember, withSession, Table.find?]

@[simp] theorem getEnrollmentSession_withSession (m s : Uuid) :
    (withSession m s).getEnrollmentSession s =
      some ⟨s, m, .cancelled, 15, 0, 0, .created, 0, none, 0⟩ := by
  simp [Database.getEnrollmentSession, withSession, Table.find?]

def housing (db : Database) : Process := .boot false (some db) 0

@[simp] theorem housing_db (db : Database) : (housing db).db = db := rfl

/-- Two databases are answered differently. -/
theorem shown_of_content {a : ApiRequest} (db db' : Database)
    (h : (respond emptyRoom a (housing db)).1.content ≠
      (respond emptyRoom a (housing db')).1.content) : Shown a :=
  .answers emptyRoom emptyRoom (housing db) (housing db') rfl rfl h

theorem shown_of_view {a : ApiRequest} {α : Type} (view : Process → α) (b : Process)
    (h : view (respond emptyRoom a b).2 ≠ view b) : Shown a :=
  .changes emptyRoom b fun hsame => h (congrArg view hsame)

/-! ## The calls that are not -/

theorem shown_completeEnrollment (m s : Uuid) : Shown (.completeEnrollment m s) := by
  let db := ((withSession m s).updateEnrollmentSession s
    (completedColumns 0)).updateMemberFaceEnrolled m true (some 0) 0
  refine shown_of_content .fresh (withSession m s) ?_
  cases hmember : db.getMember m <;>
    simp only [db] at hmember <;>
    simp [housing, Process.boot, Database.initDb, respond, ApiRequest.handler, reply,
      completeEnrollment, sessionOf, Program.run_call, exec, Except.map, sessionNotFound,
      serverError, hmember]

/-- A session that is over is cancelled again. -/
theorem shown_cancelEnrollment (m s : Uuid) : Shown (.cancelEnrollment m s) := by
  refine shown_of_view (fun b => b.db.sessions.rows.map SessionRow.message)
    (housing (withSession m s)) ?_
  simp only [respond, ApiRequest.handler, reply, cancelEnrollment, sessionOf,
    Db.getEnrollmentSession, Db.updateEnrollmentSession, issue, Program.perform,
    Program.call_bind, Program.done_bind, Program.pure_eq_done, Program.run_call, exec,
    housing_db, getEnrollmentSession_withSession, if_true, Program.run_done, Except.map,
    Database.updateEnrollmentSession]
  simp [withSession, cancelledColumns, Database.SessionColumns.write]

theorem shown_getLogs {limit : Int} (hlimit : limit ≠ 0)
    (hbind : Database.bindable limit = true) : Shown (.getLogs limit) := by
  have hnone : Database.fresh.getLogs limit = [] := by simp [Database.getLogs, Database.fresh]
  have hsome : (Database.fresh.addLog .motion "" none none 0).getLogs limit ≠ [] := by
    simp only [Database.getLogs, Database.addLog, Database.fresh]
    by_cases hall : limit < 0
    · simp [if_pos hall]
    · simp only [if_neg hall, ne_eq, List.take_eq_nil_iff]
      simp
      omega
  refine shown_of_content .fresh (Database.fresh.addLog .motion "" none none 0) ?_
  simpa [respond, ApiRequest.handler, answer, getLogs, Program.run_call, exec, hbind, hnone]
    using hsome.symm

theorem shown_getLogSnapshot {id : Int} (hid : 0 ≤ id) (hbind : Database.bindable id = true) :
    Shown (.getLogSnapshot id) := by
  refine shown_of_content .fresh
    { Database.fresh with logs := [⟨id.toNat, .motion, "", 0, none, some ⟨[0]⟩⟩] } ?_
  simp [respond, ApiRequest.handler, reply, getLogSnapshot, Program.run_call, exec, hbind,
    Database.getLogSnapshot, Database.fresh, Int.toNat_of_nonneg hid, Except.map]

theorem shown_markAlertRead {id : Int} (hid : 0 ≤ id) (hbind : Database.bindable id = true) :
    Shown (.markAlertRead id) := by
  refine shown_of_view (fun b => b.db.alerts.map AlertRow.read) (housing
    { Database.fresh with alerts := [⟨id.toNat, 0, .motionNoFace, false⟩] }) ?_
  simp [respond, ApiRequest.handler, answer, markAlertRead, Program.run_call, exec, hbind,
    Database.markAlertRead, Int.toNat_of_nonneg hid]

theorem shown_setConfidence {t : ℚ} (hrange : 0 ≤ t ∧ t ≤ 1) : Shown (.setConfidence (some t)) := by
  refine shown_of_view Process.confidenceThreshold
    { housing .fresh with confidenceThreshold := t + 1 } ?_
  simp [respond, ApiRequest.handler, reply, setConfidence, if_pos hrange, Program.run_call, exec,
    Except.map]

/-- A flag that is given is written, and the others are shown. -/
theorem shown_setMotionSettings (detection alerts : Option Bool) :
    Shown (.setMotionSettings detection alerts) := by
  cases detection with
  | some value =>
      refine shown_of_view (fun b => b.flags .motionDetectionEnabled)
        { housing .fresh with flags := fun _ => !value } ?_
      cases value <;> rcases alerts with _ | _ | _ <;> decide +kernel
  | none =>
      cases alerts with
      | some value =>
          refine shown_of_view (fun b => b.flags .motionAlertsEnabled)
            { housing .fresh with flags := fun _ => !value } ?_
          cases value <;> decide +kernel
      | none =>
          refine .answers emptyRoom emptyRoom (housing .fresh)
            { housing .fresh with flags := fun _ => false } rfl rfl ?_
          decide +kernel

theorem shown_of_telling {a : ApiRequest} (h : Telling a) : Shown a := by
  cases a with
  | health | cameraStream => cases h
  | doorStatus =>
      exact shown_of_content .fresh (Database.fresh.setDoorLocked false)
        (by decide +kernel)
  | doorLock | doorUnlock =>
      exact shown_of_view (fun b => b.db.logs.length) (housing .fresh) (by decide +kernel)
  | getMembers | getStats =>
      exact shown_of_content .fresh (withSession 0 0) (by decide +kernel)
  | addMember name role =>
      exact shown_of_view (fun b => b.db.uuids) (housing .fresh) (Nat.succ_ne_zero 0)
  | removeMember m =>
      refine shown_of_content .fresh (withSession m 0) ?_
      simp [respond, ApiRequest.handler, reply, removeMember, Program.run_call, exec, Except.map]
  | startEnrollment m =>
      have hmember : (withSession m 0).members.Has m := ⟨_, List.mem_cons_self .., rfl⟩
      refine shown_of_content .fresh (withSession m 0) ?_
      simp [respond, ApiRequest.handler, reply, startEnrollment, Program.run_call, exec,
        Except.map, Database.createEnrollmentSession, hmember]
  | removeFaceTemplate m =>
      refine shown_of_content .fresh (withSession m 0) ?_
      simp [respond, ApiRequest.handler, reply, removeFaceTemplate, Program.run_call, exec,
        Except.map]
  | pollEnrollment m s =>
      refine shown_of_content .fresh (withSession m s) ?_
      simp [respond, ApiRequest.handler, reply, pollEnrollment, sessionOf, Program.run_call, exec,
        Except.map]
  | uploadCapture m s angle image =>
      refine shown_of_content .fresh (withSession m s) ?_
      simp [respond, ApiRequest.handler, reply, uploadCapture, guardCapture, sessionOf,
        Program.run_call, exec, Except.map, Status.isOpen, sessionNotFound]
      decide +kernel
  | uploadCaptureB64 m s body =>
      refine shown_of_content .fresh (withSession m s) ?_
      simp [respond, ApiRequest.handler, reply, uploadCaptureB64, guardCapture, sessionOf,
        Program.run_call, exec, Except.map, Status.isOpen, sessionNotFound]
      decide +kernel
  | piCameraCapture m s angle =>
      refine shown_of_content .fresh (withSession m s) ?_
      simp [respond, ApiRequest.handler, reply, piCameraCapture, guardCapture, sessionOf,
        Program.run_call, exec, Except.map, Status.isOpen, sessionNotFound]
      decide +kernel
  | completeEnrollment m s => exact shown_completeEnrollment m s
  | cancelEnrollment m s => exact shown_cancelEnrollment m s
  | facePipelineHealth =>
      refine .answers emptyRoom
        { emptyRoom with sight := ⟨fun _ => none, none, .available fun _ _ => 0⟩ }
        (housing .fresh) (housing .fresh) rfl rfl ?_
      decide +kernel
  | getLogs limit => exact shown_getLogs h.1 h.2
  | getLogSnapshot id => exact shown_getLogSnapshot h.1 h.2
  | getAlerts =>
      exact shown_of_content .fresh (Database.fresh.addAlert .motionNoFace 0)
        (by decide +kernel)
  | markAlertRead id => exact shown_markAlertRead h.1 h.2
  | setConfidence threshold =>
      cases threshold with
      | none => cases h
      | some t => exact shown_setConfidence h
  | getConfidence =>
      refine .answers emptyRoom emptyRoom (housing .fresh)
        { housing .fresh with confidenceThreshold := 0 } rfl rfl ?_
      decide +kernel
  | setMotionSettings detection alerts => exact shown_setMotionSettings detection alerts
  | getMotionSettings | getAutolock =>
      refine .answers emptyRoom emptyRoom (housing .fresh)
        { housing .fresh with flags := fun _ => false } rfl rfl ?_
      decide +kernel
  | setAutolock enabled =>
      refine shown_of_view (fun b => b.flags .autoLockOnUnknown)
        { housing .fresh with flags := fun _ => !enabled } ?_
      cases enabled <;> decide +kernel
  | doorbell =>
      exact shown_of_view (fun b => b.db.alerts.length) (housing .fresh) (by decide +kernel)
  | debugMotion =>
      refine .answers emptyRoom { emptyRoom with sensor := .error ("", "") } (housing .fresh)
        (housing .fresh) rfl rfl ?_
      decide +kernel

/-! ## What decides -/

variable {lib : Framework} {request : HttpRequest}

/-- An exempting Host header is the front of the URL, and so its path is the path looked at. -/
theorem exempt_of_host (hlib : lib.Documented) {host : String} (hhost : request.host = some host)
    (hexempting : Exempting lib host) : Exempt lib request := by
  have htail := Url.tail_ne_nil_of_closed hexempting.closed
  have hurl : lib.url request = host.toList ++ (request.path.toList ++
      if request.query = "" then [] else '?' :: request.query.toList) := by
    rw [Framework.url, hhost]
    rfl
  refine ⟨String.ofList (Url.path host.toList), ?_, Or.inl hexempting.path⟩
  rw [hlib.urlPath, hurl, Url.netloc_append htail, hexempting.accepted,
    Url.path_append_of_closed hexempting.closed]
  rfl

/-- The request is exempted by its Host header, and is for a handler that tells. -/
def Bypasses (lib : Framework) (request : HttpRequest) : Prop :=
  (∃ host, request.host = some host ∧ Exempting lib host) ∧
    ∃ a, called lib request = some a ∧ Telling a

theorem app_bypassing (hlib : lib.Documented) {a : ApiRequest}
    (hexempt : Exempt lib request) (hcalled : called lib request = some a) (seen : Surroundings)
    (b : Process) : app lib seen request b =
      (lib.addCors request (respond seen a b).1, (respond seen a b).2) := by
  have hmethod : request.method ≠ "OPTIONS" := by
    have hserves := hlib.routed request _ (route_of_called hcalled)
    exact fun hoptions => method_ne_options a (hserves.1.trans hoptions)
  rw [app, hlib.preflight _ hmethod]
  dsimp only
  rw [dispatch_exempt hexempt, callNext_called hcalled]

/-- Without the key a request changes nothing and learns nothing, exactly if it does not bypass
the check. -/
theorem harmless_iff_not_bypasses (hlib : lib.Documented)
    (hcors : lib.KeepsAnswers)
    (hkey : lib.header request "X-API-Key" ≠ some API_KEY) :
    (Harmless fun seen b => app lib seen request b) ↔ ¬ Bypasses lib request := by
  constructor
  · rintro hharmless ⟨⟨host, hhost, hexempting⟩, a, hcalled, htelling⟩
    have happ := app_bypassing hlib (exempt_of_host hlib hhost hexempting) hcalled
    cases shown_of_telling htelling with
    | changes seen b hchanged =>
        have hsame := hharmless.unchanged seen b
        rw [happ] at hsame
        exact hchanged hsame
    | answers seen seen' b b' hclock hjpeg hdiffers =>
        have hsame := congrArg Response.content (hharmless.blind seen seen' b b' hclock hjpeg)
        rw [happ, happ, hcors.content, hcors.content] at hsame
        exact hdiffers hsame
  · intro hbypass
    by_cases hhost : ∃ host, request.host = some host ∧ Exempting lib host
    · refine harmless_app_of_called (fun _ a hcalled => harmless_of_not_telling fun htelling => ?_)
        hkey
      exact hbypass ⟨hhost, a, hcalled, htelling⟩
    · exact harmless_app hlib hkey fun host hsome hexempting => hhost ⟨host, hsome, hexempting⟩

/-- A Host header that reads like a URL of the health check. -/
def unlockThroughHost : HttpRequest where
  method := "POST"
  path := "/door/unlock"
  query := ""
  headers := [("Host", "x/health?")]
  body := []

theorem bypasses_unlockThroughHost :
    Bypasses (plainServer plainCodec) unlockThroughHost ∧
      ¬ Harmless fun seen b => app (plainServer plainCodec) seen unlockThroughHost b := by
  have hexempting : Exempting (plainServer plainCodec) "x/health?" :=
    ⟨by decide +kernel, by decide +kernel, by decide +kernel⟩
  have hbypasses : Bypasses (plainServer plainCodec) unlockThroughHost :=
    ⟨⟨"x/health?", by decide +kernel, hexempting⟩, .doorUnlock, by decide +kernel, trivial⟩
  refine ⟨hbypasses, fun hharmless => ?_⟩
  exact (harmless_iff_not_bypasses (documented_plainServer plainCodec)
    ⟨fun _ _ => rfl, fun _ _ => rfl⟩ (by decide +kernel)).mp hharmless hbypasses

/-- A request without the key opens the door. -/
theorem not_always_harmless : ¬ ∀ request : HttpRequest,
    (plainServer plainCodec).header request "X-API-Key" ≠ some API_KEY →
      Harmless fun seen b => app (plainServer plainCodec) seen request b := by
  intro hall
  have hsame := (hall unlockThroughHost (by decide +kernel)).unchanged emptyRoom (housing .fresh)
  have hopened : (app (plainServer plainCodec) emptyRoom unlockThroughHost
      (housing .fresh)).2.db.doorLocked = false := by decide +kernel
  rw [hsame] at hopened
  cases hopened

end FacialCamera.Api
