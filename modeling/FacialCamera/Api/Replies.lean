import FacialCamera.Api.Wire
import FacialCamera.Core.Json
import FacialCamera.Enrollment.Requests
import FacialCamera.Recognition.Timestamps

/-! # From the handlers back to the app

A handler returns a dictionary that is sent as JSON, and a function of `api.ts` casts what
it has parsed to the type it declares. No cast is wrong: of every reply the app gets the
values that the handler returned, and of every refusal the status.
-/

namespace FacialCamera.Api

open FacialCamera.Core Backend

/-! ## What the handlers write -/

/-- How values are written into replies, and the number that JavaScript has for a numeral. -/
structure Texts extends Codec where
  /-- Of a float. -/
  repr : ℚ → Numeral
  number : Numeral → ℚ
  /-- The format `:.2f`. -/
  fixed2 : ℚ → String
  upper : String → String
  /-- `str` of an angle. -/
  str : Backend.Angle → String

def timestampText (t : Timestamp) : String :=
  String.ofList ((Recognition.isoformat t).map Char.ofNat)

def logTypeText : LogType → String
  | .motion => "motion"
  | .doorbell => "doorbell"
  | .authorized => "authorized"
  | .unknown => "unknown"
  | .manualLock => "manual_lock"

namespace Texts

variable (texts : Texts)

def timeJson (t : Timestamp) : Json := .string (timestampText t)

def floatJson (q : ℚ) : Json := .number (texts.repr q)

def intJson (n : ℕ) : Json := .number (.nat n)

def memberRowToDict (row : MemberRow) : Json :=
  .object [("id", .string (texts.uuid row.id)), ("name", .string row.name),
    ("role", .string row.role), ("addedDate", timeJson row.addedDate),
    ("faceEnrolled", .bool row.faceEnrolled),
    ("faceProfileVersion", intJson row.faceProfileVersion),
    ("lastEnrolledAt", .ofOption timeJson row.lastEnrolledAt),
    ("livenessScore", .ofOption texts.floatJson row.livenessScore)]

def sessionRowToDict (row : SessionRow) : Json :=
  .object [("sessionId", .string (texts.uuid row.sessionId)),
    ("memberId", .string (texts.uuid row.memberId)), ("status", .string row.status.text),
    ("progress", texts.floatJson row.progress), ("qualityScore", texts.floatJson row.qualityScore),
    ("livenessScore", texts.floatJson row.livenessScore),
    ("message", .string (row.message.text texts.upper texts.str)),
    ("startedAt", timeJson row.startedAt), ("completedAt", .ofOption timeJson row.completedAt)]

def logToDict (entry : LogEntry) : Json :=
  .object [("id", intJson entry.id), ("type", .string (logTypeText entry.type)),
    ("name", .string entry.name), ("timestamp", timeJson entry.timestamp),
    ("confidence", .ofOption texts.floatJson entry.confidence),
    ("hasSnapshot", .bool entry.hasSnapshot)]

def alertToDict (row : AlertRow) : Json :=
  .object [("id", intJson row.id), ("timestamp", timeJson row.timestamp),
    ("label", .string (row.label.text texts.fixed2)), ("read", .bool row.read)]

def statsToDict (stats : Stats) : Json :=
  .object [("todayEntries", intJson stats.todayEntries),
    ("unreadAlerts", intJson stats.unreadAlerts), ("memberCount", intJson stats.memberCount),
    ("lastEntry", .object [("name", .ofOption .string stats.lastEntry.name),
      ("timestamp", .ofOption timeJson stats.lastEntry.timestamp)])]

def guidanceToDict (guidance : CaptureGuidance) : Json :=
  .object [("minFrames", intJson guidance.minFrames),
    ("requiredAngles", .array (guidance.requiredAngles.map .string)),
    ("minQualityScore", texts.floatJson guidance.minQualityScore),
    ("minLivenessScore", texts.floatJson guidance.minLivenessScore)]

def templateToDict (template : Template) : Json :=
  .object [("templateId", .string (texts.uuid template.templateId)),
    ("version", intJson template.version), ("enrolledAt", timeJson template.enrolledAt),
    ("encryptedAtRest", .bool template.encryptedAtRest)]

def faceHealthToDict (report : FaceHealth) : Json :=
  .object [("status", .string report.status), ("modelVersion", .string report.modelVersion),
    ("avgInferenceMs", intJson report.avgInferenceMs),
    ("livenessEnabled", .bool report.livenessEnabled), ("updatedAt", timeJson report.updatedAt)]

/-- The dictionary of a doorbell scan; nobody's name is in one that knows no one. -/
def doorbellToDict (result : DoorbellResult) : Json :=
  match result with
  | .noFace => .object [("result", .string result.result), ("message", .string result.message)]
  | .authorized name confidence =>
      .object [("result", .string result.result), ("name", .string name),
        ("confidence", texts.floatJson confidence), ("message", .string result.message)]
  | .unknown confidence =>
      .object [("result", .string result.result), ("confidence", texts.floatJson confidence),
        ("message", .string result.message)]

/-- What a handler returns, where it is written as JSON. -/
def bodyJson? : Body → Option Json
  | .ok timestamp =>
      some (.object [("status", .string "ok"), ("timestamp", timeJson timestamp)])
  | .door status => some (.object [("locked", .bool status.locked)])
  | .members rows => some (.array (rows.map texts.memberRowToDict))
  | .member row => some (texts.memberRowToDict row)
  | .deleted => some (.object [("deleted", .bool true)])
  | .enrollment session guidance =>
      some (.object [("session", texts.sessionRowToDict session),
        ("captureGuidance", texts.guidanceToDict guidance)])
  | .session session =>
      some (.object [("session", .ofOption texts.sessionRowToDict session)])
  | .template member template =>
      some (.object [("member", texts.memberRowToDict member),
        ("template", texts.templateToDict template)])
  | .cancelled => some (.object [("cancelled", .bool true)])
  | .templateRemoved member =>
      some (.object [("member", .ofOption texts.memberRowToDict member),
        ("removedTemplateId", .null)])
  | .faceHealth report => some (faceHealthToDict report)
  | .stream _ => none
  | .logs entries => some (.array (entries.map texts.logToDict))
  | .snapshot _ => none
  | .alerts rows => some (.array (rows.map texts.alertToDict))
  | .read => some (.object [("read", .bool true)])
  | .confidenceThreshold threshold =>
      some (.object [("confidenceThreshold", texts.floatJson threshold)])
  | .motion settings =>
      some (.object [("motionDetection", .bool settings.motionDetection),
        ("motionAlerts", .bool settings.motionAlerts)])
  | .autoLock enabled => some (.object [("autoLockOnUnknown", .bool enabled)])
  | .doorbell result => some (texts.doorbellToDict result)
  | .readings readings =>
      some (.object [("readings", .array (readings.readings.map .bool)),
        ("motion_detection_enabled", .bool readings.motionDetectionEnabled)])
  | .sensorError error traceback =>
      some (.object [("error", .string error), ("traceback", .string traceback)])
  | .stats stats => some (statsToDict stats)
  | .detail text => some (.object [("detail", .string text)])

/-- What is sent as it is: a picture, and the stream up to its first part. -/
def pictureOctets : Body → List UInt8
  | .snapshot jpeg => jpeg
  | .stream part => part.getD []
  | _ => []

def bodyOctets (body : Body) : List UInt8 :=
  match bodyJson? texts body with
  | some j => j.render false
  | none => pictureOctets body

def octets : Content → List UInt8
  | .body body => texts.bodyOctets body
  | .raw data => data

end Texts

/-! ## What the app declares -/

namespace Client

structure Member where
  id : String
  name : String
  role : String
  addedDate : String
  faceEnrolled : Bool
  faceProfileVersion : ℚ
  lastEnrolledAt : Option String
  livenessScore : Option ℚ
  deriving DecidableEq

structure FaceEnrollmentSession where
  sessionId : String
  memberId : String
  status : String
  progress : ℚ
  qualityScore : ℚ
  livenessScore : ℚ
  message : String
  startedAt : String
  completedAt : Option String
  deriving DecidableEq

structure LogEntry where
  id : ℚ
  type : String
  name : String
  timestamp : String
  confidence : Option ℚ
  hasSnapshot : Bool
  deriving DecidableEq

structure Alert where
  id : ℚ
  timestamp : String
  label : String
  read : Bool
  deriving DecidableEq

structure DashboardStats where
  todayEntries : ℚ
  unreadAlerts : ℚ
  memberCount : ℚ
  lastName : Option String
  lastTimestamp : Option String
  deriving DecidableEq

structure DoorbellResult where
  result : String
  name : Option String
  confidence : Option ℚ
  message : String
  deriving DecidableEq

end Client

/-- What a function of `api.ts` resolves to. -/
inductive Resolved where
  | void
  | door (locked : Bool)
  | stats (stats : Client.DashboardStats)
  | members (members : List Client.Member)
  | member (member : Client.Member)
  | session (session : Client.FaceEnrollmentSession)
  | completed (member : Client.Member)
  | logs (entries : List Client.LogEntry)
  | alerts (alerts : List Client.Alert)
  | threshold (threshold : ℚ)
  | motion (detection alerts : Bool)
  | autoLock (enabled : Bool)
  | doorbell (result : Client.DoorbellResult)
  | reachable (online : Bool)
  | picture (data : List UInt8)
  deriving DecidableEq

namespace Texts

variable (texts : Texts)

def asNumber (j : Json) : Option ℚ := j.asNumber.map texts.number

def readMember (j : Json) : Option Client.Member := do
  return { id := ← j.field "id" Json.asString
           name := ← j.field "name" Json.asString
           role := ← j.field "role" Json.asString
           addedDate := ← j.field "addedDate" Json.asString
           faceEnrolled := ← j.field "faceEnrolled" Json.asBool
           faceProfileVersion := ← j.field "faceProfileVersion" texts.asNumber
           lastEnrolledAt := ← j.field "lastEnrolledAt" (Json.orNull Json.asString)
           livenessScore := ← j.field "livenessScore" (Json.orNull texts.asNumber) }

def readSession (j : Json) : Option Client.FaceEnrollmentSession := do
  return { sessionId := ← j.field "sessionId" Json.asString
           memberId := ← j.field "memberId" Json.asString
           status := ← j.field "status"
             (Json.asOneOf ["capturing", "processing", "completed", "failed", "cancelled"])
           progress := ← j.field "progress" texts.asNumber
           qualityScore := ← j.field "qualityScore" texts.asNumber
           livenessScore := ← j.field "livenessScore" texts.asNumber
           message := ← j.field "message" Json.asString
           startedAt := ← j.field "startedAt" Json.asString
           completedAt := ← j.field "completedAt" (Json.orNull Json.asString) }

def readLogEntry (j : Json) : Option Client.LogEntry := do
  return { id := ← j.field "id" texts.asNumber
           type := ← j.field "type"
             (Json.asOneOf ["authorized", "unknown", "motion", "manual_lock", "doorbell"])
           name := ← j.field "name" Json.asString
           timestamp := ← j.field "timestamp" Json.asString
           confidence := ← j.field "confidence" (Json.orNull texts.asNumber)
           hasSnapshot := ← j.field "hasSnapshot" Json.asBool }

def readAlert (j : Json) : Option Client.Alert := do
  return { id := ← j.field "id" texts.asNumber
           timestamp := ← j.field "timestamp" Json.asString
           label := ← j.field "label" Json.asString
           read := ← j.field "read" Json.asBool }

def readStats (j : Json) : Option Client.DashboardStats := do
  let lastEntry ← j.field? "lastEntry"
  return { todayEntries := ← j.field "todayEntries" texts.asNumber
           unreadAlerts := ← j.field "unreadAlerts" texts.asNumber
           memberCount := ← j.field "memberCount" texts.asNumber
           lastName := ← lastEntry.field "name" (Json.orNull Json.asString)
           lastTimestamp := ← lastEntry.field "timestamp" (Json.orNull Json.asString) }

def readDoorbell (j : Json) : Option Client.DoorbellResult := do
  return { result := ← j.field "result" (Json.asOneOf ["authorized", "unknown", "no_face"])
           name := ← j.fieldIfAny "name" Json.asString
           confidence := ← j.fieldIfAny "confidence" texts.asNumber
           message := ← j.field "message" Json.asString }

/-- What a function makes of `res.data`; `none` is a value that is not of the type declared. -/
def readData : ApiCall → Json → Option Resolved
  | .getDoorStatus, j => (j.field "locked" Json.asBool).map .door
  | .getStats, j => (texts.readStats j).map .stats
  | .getMembers, j => (j.asArray texts.readMember).map .members
  | .addMember _ _, j => (texts.readMember j).map .member
  | .startMemberFaceEnrollment _, j | .transferMacbookCaptureToPi _ _ _ _, j
  | .piCameraCapture _ _ _, j =>
      (j.field "session" texts.readSession).map .session
  | .completePiEnrollment _ _, j => (j.field "member" texts.readMember).map .completed
  | .removeMemberFaceTemplate _, j => (j.field "member" texts.readMember).map .member
  | .getLogs _, j => (j.asArray texts.readLogEntry).map .logs
  | .getAlerts, j => (j.asArray texts.readAlert).map .alerts
  | .getConfidenceThreshold, j =>
      (j.field "confidenceThreshold" texts.asNumber).map .threshold
  | .getMotionSettings, j => do
      return .motion (← j.field "motionDetection" Json.asBool)
        (← j.field "motionAlerts" Json.asBool)
  | .getAutoLockSetting, j => (j.field "autoLockOnUnknown" Json.asBool).map .autoLock
  | .pressDoorbell, j => (texts.readDoorbell j).map .doorbell
  | _, _ => none

/-- What a call makes of the octets of an answer that is no error. Most of them parse; an
image takes the octets, and some functions return nothing. -/
def readOctets (call : ApiCall) (octets : List UInt8) : Option Resolved :=
  match call with
  | .getSnapshotUrl _ | .getCameraStreamUrl _ => some (.picture octets)
  | .pingPi => some (.reachable true)
  | .lockDoor | .unlockDoor | .removeMember _ | .markAlertRead _ | .setConfidenceThreshold _
  | .setMotionSettings _ _ | .setAutoLockSetting _ => some .void
  | call => (Json.parse octets).bind (texts.readData call)

end Texts

/-- How a call ends: it resolves, or it throws for the status of the answer, or it resolves
with a value that is not of the type declared. -/
inductive Outcome where
  | resolved (value : Resolved)
  | thrown (status : Nat)
  | mistyped
  deriving DecidableEq

/-- `pingPi` catches what the request throws. -/
def ApiCall.failed (call : ApiCall) (status : Nat) : Outcome :=
  match call with
  | .pingPi => .resolved (.reachable false)
  | _ => .thrown status

/-- A function of `api.ts` with the answer to its request. -/
def ApiCall.settle (texts : Texts) (call : ApiCall) (response : Response) : Outcome :=
  if 200 ≤ response.status ∧ response.status < 300 then
    match texts.readOctets call (texts.octets response.content) with
    | some value => .resolved value
    | none => .mistyped
  else call.failed response.status

/-! ## What the app gets -/

namespace Texts

variable (texts : Texts)

def memberView (row : MemberRow) : Client.Member where
  id := texts.uuid row.id
  name := row.name
  role := row.role
  addedDate := timestampText row.addedDate
  faceEnrolled := row.faceEnrolled
  faceProfileVersion := row.faceProfileVersion
  lastEnrolledAt := row.lastEnrolledAt.map timestampText
  livenessScore := row.livenessScore

def sessionView (row : SessionRow) : Client.FaceEnrollmentSession where
  sessionId := texts.uuid row.sessionId
  memberId := texts.uuid row.memberId
  status := row.status.text
  progress := row.progress
  qualityScore := row.qualityScore
  livenessScore := row.livenessScore
  message := row.message.text texts.upper texts.str
  startedAt := timestampText row.startedAt
  completedAt := row.completedAt.map timestampText

def logView (entry : LogEntry) : Client.LogEntry where
  id := entry.id
  type := logTypeText entry.type
  name := entry.name
  timestamp := timestampText entry.timestamp
  confidence := entry.confidence
  hasSnapshot := entry.hasSnapshot

def alertView (row : AlertRow) : Client.Alert where
  id := row.id
  timestamp := timestampText row.timestamp
  label := row.label.text texts.fixed2
  read := row.read

def statsView (stats : Stats) : Client.DashboardStats where
  todayEntries := stats.todayEntries
  unreadAlerts := stats.unreadAlerts
  memberCount := stats.memberCount
  lastName := stats.lastEntry.name
  lastTimestamp := stats.lastEntry.timestamp.map timestampText

def doorbellView (result : DoorbellResult) : Client.DoorbellResult :=
  match result with
  | .noFace => ⟨result.result, none, none, result.message⟩
  | .authorized name confidence => ⟨result.result, some name, some confidence, result.message⟩
  | .unknown confidence => ⟨result.result, none, some confidence, result.message⟩

/-- The values of a reply that a call is after. -/
def view : ApiCall → Body → Resolved
  | .getDoorStatus, .door status => .door status.locked
  | .getStats, .stats stats => .stats (statsView stats)
  | .getMembers, .members rows => .members (rows.map texts.memberView)
  | .addMember _ _, .member row => .member (texts.memberView row)
  | .startMemberFaceEnrollment _, .enrollment session _ => .session (texts.sessionView session)
  | .transferMacbookCaptureToPi _ _ _ _, .session (some session)
  | .piCameraCapture _ _ _, .session (some session) => .session (texts.sessionView session)
  | .completePiEnrollment _ _, .template member _ => .completed (texts.memberView member)
  | .removeMemberFaceTemplate _, .templateRemoved (some member) =>
      .member (texts.memberView member)
  | .getLogs _, .logs entries => .logs (entries.map logView)
  | .getAlerts, .alerts rows => .alerts (rows.map texts.alertView)
  | .getConfidenceThreshold, .confidenceThreshold threshold => .threshold threshold
  | .getMotionSettings, .motion settings =>
      .motion settings.motionDetection settings.motionAlerts
  | .getAutoLockSetting, .autoLock enabled => .autoLock enabled
  | .pressDoorbell, .doorbell result => .doorbell (doorbellView result)
  | .pingPi, _ => .reachable true
  | .getSnapshotUrl _, .snapshot jpeg => .picture jpeg
  | .getCameraStreamUrl _, .stream part => .picture (part.getD [])
  | _, _ => .void

/-- How a call ends that the handler has answered: `none` is an exception. -/
def outcome (call : ApiCall) : Option (Reply Body) → Outcome
  | some (.ok body) => .resolved (texts.view call body)
  | some (.error e) => call.failed e.status
  | none => call.failed 500

/-! ## Numbers that survive -/

/-- JavaScript has the number that Python has written. -/
def Float (q : ℚ) : Prop := texts.number (texts.repr q) = q

def Int (n : ℕ) : Prop := texts.number (.nat n) = n

structure MemberNumbers (row : MemberRow) : Prop where
  version : texts.Int row.faceProfileVersion
  liveness : ∀ q ∈ row.livenessScore, texts.Float q

structure SessionNumbers (row : SessionRow) : Prop where
  progress : texts.Float row.progress
  quality : texts.Float row.qualityScore
  liveness : texts.Float row.livenessScore

structure LogNumbers (entry : LogEntry) : Prop where
  id : texts.Int entry.id
  confidence : ∀ q ∈ entry.confidence, texts.Float q

structure StatsNumbers (stats : Stats) : Prop where
  today : texts.Int stats.todayEntries
  unread : texts.Int stats.unreadAlerts
  members : texts.Int stats.memberCount

def Numbers : Body → Prop
  | .members rows => ∀ row ∈ rows, texts.MemberNumbers row
  | .member row => texts.MemberNumbers row
  | .enrollment session _ => texts.SessionNumbers session
  | .session session => ∀ row ∈ session, texts.SessionNumbers row
  | .template member _ => texts.MemberNumbers member
  | .templateRemoved member => ∀ row ∈ member, texts.MemberNumbers row
  | .logs entries => ∀ entry ∈ entries, texts.LogNumbers entry
  | .alerts rows => ∀ row ∈ rows, texts.Int row.id
  | .confidenceThreshold threshold => texts.Float threshold
  | .doorbell (.authorized _ confidence) => texts.Float confidence
  | .doorbell (.unknown confidence) => texts.Float confidence
  | .stats stats => texts.StatsNumbers stats
  | _ => True

end Texts

/-! ## No cast is wrong -/

section Reading

variable {texts : Texts}

theorem asNumber_float {q : ℚ} (h : texts.Float q) : texts.asNumber (texts.floatJson q) = some q :=
  congrArg some h

theorem asNumber_int {n : ℕ} (h : texts.Int n) : texts.asNumber (Texts.intJson n) = some (n : ℚ) :=
  congrArg some h

theorem orNull_float {o : Option ℚ} (h : ∀ q ∈ o, texts.Float q) :
    Json.orNull texts.asNumber (.ofOption texts.floatJson o) = some o := by
  rw [Json.orNull_ofOption rfl fun q hq => asNumber_float (h q hq)]
  simp

theorem orNull_time (o : Option Timestamp) :
    Json.orNull Json.asString (.ofOption Texts.timeJson o) = some (o.map timestampText) :=
  Json.orNull_ofOption rfl fun _ _ => rfl

theorem readMember_dict {row : MemberRow} (h : texts.MemberNumbers row) :
    texts.readMember (texts.memberRowToDict row) = some (texts.memberView row) := by
  have hversion := asNumber_int h.version
  have hliveness := orNull_float h.liveness
  have hlast := orNull_time row.lastEnrolledAt
  simp [Texts.readMember, Texts.memberRowToDict, Json.field, Json.field?, Json.lookup, hversion,
    hliveness, hlast, Json.asString, Json.asBool, Texts.timeJson, Texts.memberView]

theorem status_mem (status : Status) :
    status.text ∈ ["capturing", "processing", "completed", "failed", "cancelled"] := by
  cases status <;> simp [Status.text]

theorem logTypeText_mem (type : LogType) :
    logTypeText type ∈ ["authorized", "unknown", "motion", "manual_lock", "doorbell"] := by
  cases type <;> simp [logTypeText]

theorem result_mem (result : DoorbellResult) :
    result.result ∈ ["authorized", "unknown", "no_face"] := by
  cases result <;> simp [DoorbellResult.result]

theorem readSession_dict {row : SessionRow} (h : texts.SessionNumbers row) :
    texts.readSession (texts.sessionRowToDict row) = some (texts.sessionView row) := by
  have hstatus := Json.asOneOf_string (status_mem row.status)
  have hprogress := asNumber_float h.progress
  have hquality := asNumber_float h.quality
  have hliveness := asNumber_float h.liveness
  have hcompleted := orNull_time row.completedAt
  simp [Texts.readSession, Texts.sessionRowToDict, Json.field, Json.field?, Json.lookup, hstatus,
    hprogress, hquality, hliveness, hcompleted, Json.asString, Texts.timeJson, Texts.sessionView]

theorem readLogEntry_dict {entry : LogEntry} (h : texts.LogNumbers entry) :
    texts.readLogEntry (texts.logToDict entry) = some (Texts.logView entry) := by
  have hid := asNumber_int h.id
  have htype := Json.asOneOf_string (logTypeText_mem entry.type)
  have hconfidence := orNull_float h.confidence
  simp [Texts.readLogEntry, Texts.logToDict, Json.field, Json.field?, Json.lookup, hid, htype,
    hconfidence, Json.asString, Json.asBool, Texts.timeJson, Texts.logView]

theorem readAlert_dict {row : AlertRow} (h : texts.Int row.id) :
    texts.readAlert (texts.alertToDict row) = some (texts.alertView row) := by
  have hid := asNumber_int h
  simp [Texts.readAlert, Texts.alertToDict, Json.field, Json.field?, Json.lookup, hid,
    Json.asString, Json.asBool, Texts.timeJson, Texts.alertView]

theorem readStats_dict {stats : Stats} (h : texts.StatsNumbers stats) :
    texts.readStats (Texts.statsToDict stats) = some (Texts.statsView stats) := by
  have htoday := asNumber_int h.today
  have hunread := asNumber_int h.unread
  have hmembers := asNumber_int h.members
  have hname : Json.orNull Json.asString (.ofOption .string stats.lastEntry.name) =
      some stats.lastEntry.name := by
    cases stats.lastEntry.name <;> rfl
  have htime := orNull_time stats.lastEntry.timestamp
  simp [Texts.readStats, Texts.statsToDict, Json.field, Json.field?, Json.lookup, htoday, hunread,
    hmembers, hname, htime, Texts.statsView]

theorem readDoorbell_dict {result : DoorbellResult} (h : texts.Numbers (.doorbell result)) :
    texts.readDoorbell (texts.doorbellToDict result) = some (Texts.doorbellView result) := by
  have hresult := Json.asOneOf_string (result_mem result)
  cases result with
  | noFace =>
      simp [Texts.readDoorbell, Texts.doorbellToDict, Json.field, Json.fieldIfAny, Json.field?,
        Json.lookup, hresult, Json.asString, Texts.doorbellView]
  | authorized name confidence =>
      have hconfidence : texts.asNumber (texts.floatJson confidence) = some confidence :=
        asNumber_float h
      simp [Texts.readDoorbell, Texts.doorbellToDict, Json.field, Json.fieldIfAny, Json.field?,
        Json.lookup, hresult, hconfidence, Json.asString, Texts.doorbellView]
  | unknown confidence =>
      have hconfidence : texts.asNumber (texts.floatJson confidence) = some confidence :=
        asNumber_float h
      simp [Texts.readDoorbell, Texts.doorbellToDict, Json.field, Json.fieldIfAny, Json.field?,
        Json.lookup, hresult, hconfidence, Json.asString, Texts.doorbellView]

end Reading

/-! ## What a handler can answer -/

/-- The kinds of body that the handler of a request returns. -/
def Gives : ApiRequest → Body → Prop
  | .health, body => ∃ timestamp, body = .ok timestamp
  | .doorStatus, body | .doorLock, body | .doorUnlock, body => ∃ status, body = .door status
  | .getMembers, body => ∃ rows, body = .members rows
  | .addMember _ _, body => ∃ row, body = .member row
  | .removeMember _, body => body = .deleted
  | .startEnrollment _, body => ∃ session guidance, body = .enrollment session guidance
  | .pollEnrollment _ _, body => ∃ session, body = .session (some session)
  | .uploadCapture _ _ _ _, body | .uploadCaptureB64 _ _ _, body | .piCameraCapture _ _ _, body =>
      ∃ session, body = .session session
  | .completeEnrollment _ _, body => ∃ member template, body = .template member template
  | .cancelEnrollment _ _, body => body = .cancelled
  | .removeFaceTemplate _, body => ∃ member, body = .templateRemoved member
  | .facePipelineHealth, body => ∃ report, body = .faceHealth report
  | .cameraStream, body => ∃ part, body = .stream part
  | .getLogs _, body => ∃ entries, body = .logs entries
  | .getLogSnapshot _, body => ∃ jpeg, body = .snapshot jpeg
  | .getAlerts, body => ∃ rows, body = .alerts rows
  | .markAlertRead _, body => body = .read
  | .setConfidence _, body | .getConfidence, body =>
      ∃ threshold, body = .confidenceThreshold threshold
  | .setMotionSettings _ _, body | .getMotionSettings, body => ∃ settings, body = .motion settings
  | .setAutolock _, body | .getAutolock, body => ∃ enabled, body = .autoLock enabled
  | .doorbell, body => ∃ result, body = .doorbell result
  | .debugMotion, body => (∃ readings, body = .readings readings) ∨
      ∃ error traceback, body = .sensorError error traceback
  | .getStats, body => ∃ stats, body = .stats stats

def Refused {α : Type} (r : Reply α) : Prop := ∀ e, r = .error e → 400 ≤ e.status ∧ e.status < 600

/-- A reply of the kind of the request, or a refusal. -/
def Proper (a : ApiRequest) (r : Reply Body) : Prop :=
  Refused r ∧ ∀ body, r = .ok body → Gives a body

theorem refused_ok {α : Type} (x : α) : Refused (.ok x : Reply α) := fun e he => by cases he

theorem refused_error {α : Type} {e : HTTPException} (h : 400 ≤ e.status ∧ e.status < 600) :
    Refused (.error e : Reply α) := by
  rintro e' he
  cases he
  exact h

theorem returns_answer {α : Type} {a : ApiRequest} {body : α → Body} (p : Proc α)
    (h : ∀ x, Gives a (body x)) : (answer body p).Returns (Proper a) := by
  refine p.returns_true.bind fun x _ => ?_
  refine ⟨refused_ok _, fun body' hbody => ?_⟩
  cases hbody
  exact h x

theorem returns_reply {α : Type} {a : ApiRequest} {body : α → Body} {p : Proc (Reply α)}
    (hp : p.Returns Refused) (h : ∀ x, Gives a (body x)) :
    (reply body p).Returns (Proper a) := by
  refine hp.bind fun r hr => ?_
  cases r with
  | ok x =>
      refine ⟨refused_ok _, fun body' hbody => ?_⟩
      cases hbody
      exact h x
  | error e =>
      refine ⟨refused_error (hr e rfl), fun body' hbody => ?_⟩
      cases hbody

/-! ### Refusals -/

theorem refused_removeMember (m : Uuid) : (removeMember m).Returns Refused := by
  rintro (_ | member)
  · exact refused_error (by decide)
  · exact fun _ _ => refused_ok _

theorem refused_startEnrollment (m : Uuid) : (startEnrollment m).Returns Refused := by
  rintro (_ | member)
  · exact refused_error (by decide)
  · exact fun _ => refused_ok _

theorem refused_pollEnrollment (m s : Uuid) : (pollEnrollment m s).Returns Refused := by
  refine (sessionOf m s).returns_true.bind fun session _ => ?_
  cases session with
  | none => exact refused_error (by decide)
  | some session => exact refused_ok _

theorem refused_recordCapture (texts : CaptureTexts) (m s : Uuid) (angle : Angle)
    (image : EncoderOutcome) : (recordCapture texts m s angle image).Returns Refused := by
  cases image with
  | raises => trivial
  | noFace => exact fun _ _ => refused_ok _
  | face encoding quality =>
      intro _ captures
      cases hmessage : captureMessage texts (captures.getD 0 + 1) angle with
      | none => simp [Program.bind, hmessage]
      | some message =>
          simp only [Program.pure_eq_done, Program.bind, hmessage]
          exact fun _ _ => refused_ok _

/-- The session check of the capture handlers, in front of the rest. -/
theorem refused_guardCapture {texts : CaptureTexts} {m s : Uuid}
    {rest : Proc (Reply (Option SessionRow))} (hrest : rest.Returns Refused) :
    Program.Returns Refused (do
      match ← guardCapture texts m s with
      | some refusal => return .error refusal
      | none => rest) := by
  refine Program.Returns.bind (P := fun refusal => ∀ e ∈ refusal, 400 ≤ e.status ∧ e.status < 600)
    ?_ fun refusal hrefusal => ?_
  · refine (sessionOf m s).returns_true.bind fun session _ => ?_
    cases session with
    | none => exact fun e he => by cases he; decide
    | some session =>
        show ∀ e ∈ (if session.status.isOpen then none else some _), _
        split
        · exact fun e he => by cases he
        · rintro e he
          cases he
          simp
  · cases refusal with
    | none => exact hrest
    | some refusal => exact refused_error (hrefusal refusal rfl)

theorem refused_uploadCaptureB64 (m s : Uuid) (body : Option CaptureBody) :
    (uploadCaptureB64 m s body).Returns Refused := by
  refine refused_guardCapture fun _ => ?_
  unfold recordBody
  split
  · trivial
  · exact refused_recordCapture _ _ _ _ _
  · exact refused_error (by decide)

theorem refused_piCameraCapture (m s : Uuid) (angle : String) (frame : Option EncoderOutcome) :
    (piCameraCapture m s angle frame).Returns Refused := by
  refine refused_guardCapture ?_
  cases frame with
  | none => exact refused_error (by decide)
  | some image => exact refused_recordCapture _ _ _ _ _

theorem refused_completeEnrollment (m s : Uuid) : (completeEnrollment m s).Returns Refused := by
  refine (sessionOf m s).returns_true.bind fun session _ => ?_
  cases session with
  | none => exact refused_error (by decide)
  | some session =>
      rintro now - - (_ | member) templateId
      · trivial
      · exact refused_ok _

theorem refused_cancelEnrollment (m s : Uuid) : (cancelEnrollment m s).Returns Refused := by
  refine (sessionOf m s).returns_true.bind fun session _ => ?_
  cases session with
  | none => exact refused_ok _
  | some session => exact fun _ => refused_ok _

theorem refused_removeFaceTemplate (m : Uuid) : (removeFaceTemplate m).Returns Refused := by
  rintro (_ | member)
  · exact refused_error (by decide)
  · exact fun _ _ _ => refused_ok _

theorem refused_getLogSnapshot (logId : Int) : (getLogSnapshot logId).Returns Refused := by
  intro snapshot
  rcases snapshot with _ | ⟨_ | ⟨byte, rest⟩⟩
  · exact refused_error (by decide)
  · exact refused_error (by decide)
  · exact refused_ok _

theorem refused_setConfidence (threshold : Option ℚ) :
    (setConfidence threshold).Returns Refused := by
  cases threshold with
  | none => exact refused_error (by decide)
  | some threshold =>
      unfold setConfidence
      dsimp only
      split
      · exact fun _ => refused_ok _
      · exact refused_error (by decide)

/-- Whatever the handler meets, it replies in the kind of the request, or refuses. -/
theorem proper_handler (seen : Surroundings) (a : ApiRequest) :
    (a.handler seen).Returns (Proper a) := by
  cases a with
  | health => exact returns_answer _ fun _ => ⟨_, rfl⟩
  | doorStatus => exact returns_answer _ fun _ => ⟨_, rfl⟩
  | doorLock => exact returns_answer _ fun _ => ⟨_, rfl⟩
  | doorUnlock => exact returns_answer _ fun _ => ⟨_, rfl⟩
  | getMembers => exact returns_answer _ fun _ => ⟨_, rfl⟩
  | addMember name role => exact returns_reply (fun _ => refused_ok _) fun _ => ⟨_, rfl⟩
  | removeMember m => exact returns_reply (refused_removeMember m) fun _ => rfl
  | startEnrollment m => exact returns_reply (refused_startEnrollment m) fun _ => ⟨_, _, rfl⟩
  | pollEnrollment m s => exact returns_reply (refused_pollEnrollment m s) fun _ => ⟨_, rfl⟩
  | uploadCapture m s angle image =>
      exact returns_reply (refused_guardCapture fun _ => refused_recordCapture _ _ _ _ _)
        fun _ => ⟨_, rfl⟩
  | completeEnrollment m s =>
      exact returns_reply (refused_completeEnrollment m s) fun _ => ⟨_, _, rfl⟩
  | cancelEnrollment m s => exact returns_reply (refused_cancelEnrollment m s) fun _ => rfl
  | uploadCaptureB64 m s body =>
      exact returns_reply (refused_uploadCaptureB64 m s _) fun _ => ⟨_, rfl⟩
  | piCameraCapture m s angle =>
      exact returns_reply (refused_piCameraCapture m s angle _) fun _ => ⟨_, rfl⟩
  | removeFaceTemplate m => exact returns_reply (refused_removeFaceTemplate m) fun _ => ⟨_, rfl⟩
  | facePipelineHealth => exact returns_answer _ fun _ => ⟨_, rfl⟩
  | cameraStream =>
      refine ⟨refused_ok _, fun body hbody => ?_⟩
      cases hbody
      exact ⟨_, rfl⟩
  | getLogs limit => exact returns_answer _ fun _ => ⟨_, rfl⟩
  | getLogSnapshot logId => exact returns_reply (refused_getLogSnapshot logId) fun _ => ⟨_, rfl⟩
  | getAlerts => exact returns_answer _ fun _ => ⟨_, rfl⟩
  | markAlertRead alertId => exact returns_answer _ fun _ => rfl
  | setConfidence threshold =>
      exact returns_reply (refused_setConfidence threshold) fun _ => ⟨_, rfl⟩
  | getConfidence => exact returns_answer _ fun _ => ⟨_, rfl⟩
  | setMotionSettings detection alerts => exact returns_answer _ fun _ => ⟨_, rfl⟩
  | getMotionSettings => exact returns_answer _ fun _ => ⟨_, rfl⟩
  | setAutolock enabled => exact returns_answer _ fun _ => ⟨_, rfl⟩
  | getAutolock => exact returns_answer _ fun _ => ⟨_, rfl⟩
  | doorbell => exact returns_answer _ fun _ => ⟨_, rfl⟩
  | debugMotion =>
      refine returns_answer _ fun r => ?_
      cases r with
      | error raised => exact Or.inr ⟨_, _, rfl⟩
      | ok readings => exact Or.inl ⟨_, rfl⟩
  | getStats => exact returns_answer _ fun _ => ⟨_, rfl⟩

/-! ## The row that a reply promises -/

/-- A session and a member that are sent are there. -/
def Found : Body → Prop
  | .session session => session ≠ none
  | .templateRemoved member => member ≠ none
  | _ => True

theorem found_update {db : Database} {s : Uuid} (hs : db.sessions.Has s)
    (columns : Database.SessionColumns) :
    (db.updateEnrollmentSession s columns).getEnrollmentSession s ≠ none := by
  have hkept : (db.updateEnrollmentSession s columns).sessions.Has s :=
    (Table.has_update db.sessions s s columns.write fun _ => rfl).mpr hs
  exact mt Table.find?_eq_none_iff.mp (not_not.mpr hkept)

/-- The session is still there when a capture ends. -/
theorem found_recordCapture {b : Process} {texts : CaptureTexts} {m s : Uuid} {angle : Angle}
    {image : EncoderOutcome} {session : Option SessionRow} (hs : b.db.sessions.Has s)
    (h : ((recordCapture texts m s angle image).run exec b).1 = some (.ok session)) :
    session ≠ none := by
  cases image with
  | raises => simp [recordCapture] at h
  | noFace =>
      simp [recordCapture, Program.run_call, exec] at h
      exact h ▸ found_update hs _
  | face encoding quality =>
      cases hdb : b.db.storeFaceEncoding m encoding angle b.clock with
      | none => simp [recordCapture, Program.run_call, exec, hdb] at h
      | some db =>
          have hkept : db.sessions.Has s := by
            rw [(b.db.storeFaceEncoding_spec hdb).sessions]
            exact hs
          cases hmessage : captureMessage texts ((db.selectCapturesCount s).getD 0 + 1) angle with
          | none => simp [recordCapture, Program.run_call, exec, hdb, hmessage] at h
          | some message =>
              simp [recordCapture, Program.run_call, exec, hdb, hmessage] at h
              exact h ▸ found_update hkept _

theorem found_recordBody {b : Process} {m s : Uuid} {body : Option CaptureBody}
    {session : Option SessionRow} (hs : b.db.sessions.Has s)
    (h : ((recordBody m s body).run exec b).1 = some (.ok session)) : session ≠ none := by
  match body with
  | some ⟨some angle, some image⟩ => exact found_recordCapture hs h
  | none | some ⟨none, _⟩ | some ⟨some _, none⟩ => simp [recordBody] at h

/-- Behind the guard there is the session. -/
theorem found_guarded {b : Process} {texts : CaptureTexts} {m s : Uuid}
    {k : Option HTTPException → Proc (Reply (Option SessionRow))}
    {session : Option SessionRow} (hrefuse : ∀ e, k (some e) = .done (.error e))
    (hrest : b.db.sessions.Has s → ((k none).run exec b).1 = some (.ok session) → session ≠ none)
    (h : ((guardCapture texts m s >>= k).run exec b).1 = some (.ok session)) :
    session ≠ none := by
  rw [Program.run_bind, Enrollment.run_guardCapture] at h
  cases hrefusal : Enrollment.refusal b.db texts m s with
  | some e => simp [hrefusal, hrefuse] at h
  | none =>
      obtain ⟨row, hrow, _⟩ := (Enrollment.refusal_eq_none_iff b.db texts m s).mp hrefusal
      obtain ⟨hrow, _⟩ := Option.filter_eq_some_iff.mp hrow
      rw [hrefusal] at h
      exact hrest (Table.has_iff_find?.mpr ⟨row, hrow⟩) h

/-- The member is still there when its encodings are deleted. -/
theorem found_removeFaceTemplate {b : Process} {m : Uuid} {member : Option MemberRow}
    (h : ((removeFaceTemplate m).run exec b).1 = some (.ok member)) : member ≠ none := by
  cases hrow : b.db.getMember m with
  | none => simp [removeFaceTemplate, Program.run_call, exec, hrow] at h
  | some row =>
      have hkept : ((b.db.deleteFaceEncodings m).updateMemberFaceEnrolled m false none
          b.clock).members.Has m :=
        (Table.has_update b.db.members m m _ (by simp)).mpr (Table.has_iff_find?.mpr ⟨row, hrow⟩)
      simp [removeFaceTemplate, Program.run_call, exec, hrow] at h
      exact h ▸ mt Table.find?_eq_none_iff.mp (not_not.mpr hkept)

theorem reply_eq_ok {α : Type} {body : α → Body} {p : Proc (Reply α)} {b : Process} {out : Body}
    (h : ((reply body p).run exec b).1 = some (.ok out)) :
    ∃ x, (p.run exec b).1 = some (.ok x) ∧ body x = out := by
  rw [reply, Program.run_bind] at h
  rcases hrun : p.run exec b with ⟨_ | ⟨_ | x⟩, b'⟩
  · simp [hrun] at h
  · simp [hrun, Except.map] at h
  · simp only [hrun, Except.map, Program.pure_eq_done, Program.run_done, Option.some.injEq,
      Except.ok.injEq] at h
    exact ⟨x, rfl, h⟩

/-- What a handler answers with is there. -/
theorem found_handler {seen : Surroundings} {a : ApiRequest} {b : Process} {body : Body}
    (h : ((a.handler seen).run exec b).1 = some (.ok body)) : Found body := by
  have hgives := ((proper_handler seen a).run h).2 body rfl
  cases body with
  | session session =>
      cases a with
      | pollEnrollment m s =>
          obtain ⟨row, hrow⟩ := hgives
          cases hrow
          exact Option.some_ne_none row
      | uploadCapture m s angle image =>
          obtain ⟨_, hanswer, hbody⟩ := reply_eq_ok h
          cases hbody
          exact found_guarded (fun _ => rfl) (fun hs h => found_recordCapture hs h) hanswer
      | uploadCaptureB64 m s body =>
          obtain ⟨_, hanswer, hbody⟩ := reply_eq_ok h
          cases hbody
          exact found_guarded (fun _ => rfl) (fun hs h => found_recordBody hs h) hanswer
      | piCameraCapture m s angle =>
          obtain ⟨_, hanswer, hbody⟩ := reply_eq_ok h
          cases hbody
          refine found_guarded (fun _ => rfl) (fun hs h => ?_) hanswer
          cases hframe : seen.sight.frames 0 with
          | none => simp [hframe] at h
          | some image =>
              rw [hframe] at h
              exact found_recordCapture hs h
      | _ => simp [Gives] at hgives
  | templateRemoved member =>
      cases a with
      | removeFaceTemplate m =>
          obtain ⟨_, hanswer, hbody⟩ := reply_eq_ok h
          cases hbody
          exact found_removeFaceTemplate hanswer
      | _ => simp [Gives] at hgives
  | _ => trivial

/-! ## The round trip -/

variable {texts : Texts} {call : ApiCall} {body : Body}

/-- Parsing undoes what FastAPI writes. -/
theorem parse_bodyOctets {j : Json} (h : texts.bodyJson? body = some j) :
    Json.parse (texts.bodyOctets body) = some j := by
  rw [Texts.bodyOctets, h]
  exact Json.parse_render false j

/-- Most calls parse the octets that they get. -/
theorem readOctets_json {j : Json}
    (hparses : ∀ octets, texts.readOctets call octets =
      (Json.parse octets).bind (texts.readData call))
    (h : texts.bodyJson? body = some j) :
    texts.readOctets call (texts.bodyOctets body) = texts.readData call j := by
  rw [hparses, parse_bodyOctets h]
  rfl

/-- Of a reply in the kind of its request a call gets the values. -/
theorem readOctets_body (hgives : Gives call.request body) (hfound : Found body)
    (hnumbers : texts.Numbers body) :
    texts.readOctets call (texts.bodyOctets body) = some (texts.view call body) := by
  cases call with
  | getDoorStatus =>
      obtain ⟨status, rfl⟩ := hgives
      rw [readOctets_json (fun _ => rfl) rfl]
      simp [Texts.readData, Json.field, Json.field?, Json.lookup, Json.asBool, Texts.view]
  | getStats =>
      obtain ⟨stats, rfl⟩ := hgives
      rw [readOctets_json (fun _ => rfl) rfl]
      simp [Texts.readData, readStats_dict hnumbers, Texts.view]
  | getMembers =>
      obtain ⟨rows, rfl⟩ := hgives
      have hrows := Json.asArray_map fun row hrow => readMember_dict (hnumbers row hrow)
      rw [readOctets_json (fun _ => rfl) rfl]
      simp [Texts.readData, hrows, Texts.view]
  | addMember name role =>
      obtain ⟨row, rfl⟩ := hgives
      rw [readOctets_json (fun _ => rfl) rfl]
      simp [Texts.readData, readMember_dict hnumbers, Texts.view]
  | startMemberFaceEnrollment m =>
      obtain ⟨session, guidance, rfl⟩ := hgives
      have hsession : texts.readSession (texts.sessionRowToDict session) = _ :=
        readSession_dict hnumbers
      rw [readOctets_json (fun _ => rfl) rfl]
      simp [Texts.readData, Json.field, Json.field?, Json.lookup, hsession, Texts.view]
  | transferMacbookCaptureToPi m s angle image =>
      obtain ⟨session, rfl⟩ := hgives
      obtain ⟨row, rfl⟩ := Option.ne_none_iff_exists'.mp hfound
      have hsession := readSession_dict (hnumbers row rfl)
      rw [readOctets_json (fun _ => rfl) rfl]
      simp [Texts.readData, Json.field, Json.field?, Json.lookup, Json.ofOption, hsession,
        Texts.view]
  | piCameraCapture m s angle =>
      obtain ⟨session, rfl⟩ := hgives
      obtain ⟨row, rfl⟩ := Option.ne_none_iff_exists'.mp hfound
      have hsession := readSession_dict (hnumbers row rfl)
      rw [readOctets_json (fun _ => rfl) rfl]
      simp [Texts.readData, Json.field, Json.field?, Json.lookup, Json.ofOption, hsession,
        Texts.view]
  | completePiEnrollment m s =>
      obtain ⟨member, template, rfl⟩ := hgives
      have hmember : texts.readMember (texts.memberRowToDict member) = _ :=
        readMember_dict hnumbers
      rw [readOctets_json (fun _ => rfl) rfl]
      simp [Texts.readData, Json.field, Json.field?, Json.lookup, hmember, Texts.view]
  | removeMemberFaceTemplate m =>
      obtain ⟨member, rfl⟩ := hgives
      obtain ⟨row, rfl⟩ := Option.ne_none_iff_exists'.mp hfound
      have hmember := readMember_dict (hnumbers row rfl)
      rw [readOctets_json (fun _ => rfl) rfl]
      simp [Texts.readData, Json.field, Json.field?, Json.lookup, Json.ofOption, hmember,
        Texts.view]
  | getLogs limit =>
      obtain ⟨entries, rfl⟩ := hgives
      have hentries := Json.asArray_map fun entry hentry =>
        readLogEntry_dict (hnumbers entry hentry)
      rw [readOctets_json (fun _ => rfl) rfl]
      simp [Texts.readData, hentries, Texts.view]
  | getAlerts =>
      obtain ⟨rows, rfl⟩ := hgives
      have hrows := Json.asArray_map fun row hrow => readAlert_dict (hnumbers row hrow)
      rw [readOctets_json (fun _ => rfl) rfl]
      simp [Texts.readData, hrows, Texts.view]
  | getConfidenceThreshold =>
      obtain ⟨threshold, rfl⟩ := hgives
      have hthreshold : texts.asNumber (texts.floatJson threshold) = some threshold :=
        asNumber_float hnumbers
      rw [readOctets_json (fun _ => rfl) rfl]
      simp [Texts.readData, Json.field, Json.field?, Json.lookup, hthreshold, Texts.view]
  | getMotionSettings =>
      obtain ⟨settings, rfl⟩ := hgives
      rw [readOctets_json (fun _ => rfl) rfl]
      simp [Texts.readData, Json.field, Json.field?, Json.lookup, Json.asBool, Texts.view]
  | getAutoLockSetting =>
      obtain ⟨enabled, rfl⟩ := hgives
      rw [readOctets_json (fun _ => rfl) rfl]
      simp [Texts.readData, Json.field, Json.field?, Json.lookup, Json.asBool, Texts.view]
  | pressDoorbell =>
      obtain ⟨result, rfl⟩ := hgives
      rw [readOctets_json (fun _ => rfl) rfl]
      simp [Texts.readData, readDoorbell_dict hnumbers, Texts.view]
  | getSnapshotUrl logId =>
      obtain ⟨jpeg, rfl⟩ := hgives
      rfl
  | getCameraStreamUrl timestamp =>
      obtain ⟨part, rfl⟩ := hgives
      rfl
  | lockDoor | unlockDoor | removeMember _ | markAlertRead _ | setConfidenceThreshold _
  | setMotionSettings _ _ | setAutoLockSetting _ | pingPi => rfl

/-- A refusal is thrown, and so is an exception. -/
theorem settle_error {response : Response} (h : 400 ≤ response.status) :
    call.settle texts response = call.failed response.status := by
  rw [ApiCall.settle, if_neg (by omega)]

/-- What becomes of the answer of a handler. -/
theorem settle_respond (seen : Surroundings) (b : Process)
    (hnumbers : ∀ body, ((call.request.handler seen).run exec b).1 = some (.ok body) →
      texts.Numbers body) :
    call.settle texts (respond seen call.request b).1 =
      texts.outcome call ((call.request.handler seen).run exec b).1 := by
  have hproper := proper_handler seen call.request
  unfold respond
  cases hrun : (call.request.handler seen).run exec b with
  | mk r b' =>
      have hfirst : ((call.request.handler seen).run exec b).1 = r := by rw [hrun]
      cases r with
      | none =>
          show call.settle texts ⟨500, _, _⟩ = _
          exact settle_error (show 400 ≤ 500 by decide)
      | some r =>
          have hr := hproper.run hfirst
          cases r with
          | error e => exact settle_error (hr.1 e rfl).1
          | ok body =>
              have hread := readOctets_body (hr.2 body rfl) (found_handler hfirst)
                (hnumbers body hfirst)
              show (if 200 ≤ 200 ∧ 200 < 300 then
                match texts.readOctets call (texts.bodyOctets body) with
                | some value => Outcome.resolved value
                | none => .mistyped else _) = _
              rw [if_pos (by decide), hread]
              rfl

variable {lib : Framework} {platform : List (String × String)}

theorem settle_addCors (hcors : lib.KeepsAnswers) (request : HttpRequest) (response : Response) :
    call.settle texts (lib.addCors request response) = call.settle texts response := by
  rw [ApiCall.settle, ApiCall.settle, hcors.status, hcors.content]

/-- Of every call that the app makes, with whatever key and whatever state the Pi is in, the
function of `api.ts` resolves to the values that its handler returns in that state, in the type
that it declares, or it throws for the status that the handler refuses with. -/
theorem answered (key : String) (hlib : lib.Documented) (hroutes : lib.Routes texts.toCodec)
    (hcors : lib.KeepsAnswers) (hcodec : texts.toCodec.Documented)
    (hplatform : Ordinary platform) (hsent : call.Sent) (seen : Surroundings) (b : Process)
    (hnumbers : ∀ body, ((call.request.handler seen).run exec b).1 = some (.ok body) →
      texts.Numbers body) :
    call.settle texts (app lib seen (call.http texts.toCodec platform key) b).1 =
      if call.Admitted texts.toCodec key then
        texts.outcome call ((call.request.handler seen).run exec b).1
      else call.failed 403 := by
  rw [app_call hlib, dispatch_call hlib hroutes hcodec hplatform hsent]
  by_cases hadmitted : call.Admitted texts.toCodec key
  · rw [if_pos hadmitted, if_pos hadmitted]
    show call.settle texts (lib.addCors _ (respond seen call.request b).1) = _
    rw [settle_addCors hcors, settle_respond seen b hnumbers]
  · rw [if_neg hadmitted, if_neg hadmitted]
    show call.settle texts (lib.addCors _ ⟨403, _, _⟩) = _
    rw [settle_addCors hcors]
    exact settle_error (by decide)

def plainTexts : Texts where
  toCodec := plainCodec
  repr q :=
    if h : isNumber (hundredths (q * 100).floor.toNat).toList = true then ⟨_, h⟩ else .nat 0
  number n :=
    let (whole, digits) := (n.text.takeWhile Char.isDigit, (n.text.dropWhile Char.isDigit).tail)
    Nat.ofDigitChars 10 (whole ++ digits) 0 / 10 ^ digits.length
  fixed2 _ := ""
  upper := String.toUpper
  str angle := (angle.stored?).getD ""

theorem answered_addGuest :
    addGuest.settle plainTexts (app (plainServer plainCodec) emptyRoom
        (addGuest.http plainCodec [("accept", "*/*")] API_KEY) (.boot false none 0)).1 =
      .resolved (.member ⟨"0", "Guest Ana & Bo+1 Co+1", "Member", "1970-01-01T00:00:00Z",
        false, 0, none, none⟩) := by
  have hplatform : Ordinary [("accept", "*/*")] := by decide +kernel
  have hsent : addGuest.Sent := trivial
  have hadmitted : addGuest.Admitted plainCodec API_KEY := Or.inr ⟨rfl, rfl⟩
  have hanswered :
      addGuest.settle plainTexts (app (plainServer plainCodec) emptyRoom
        (addGuest.http plainCodec [("accept", "*/*")] API_KEY) (.boot false none 0)).1 =
          if addGuest.Admitted plainCodec API_KEY then
            plainTexts.outcome addGuest
              ((addGuest.request.handler emptyRoom).run exec (.boot false none 0)).1
          else addGuest.failed 403 :=
    answered API_KEY (documented_plainServer plainCodec) (routes_plainServer plainCodec)
      ⟨fun _ _ => rfl, fun _ _ => rfl⟩ documented_plainCodec hplatform hsent emptyRoom
      (.boot false none 0) fun body hbody => by
        cases hbody
        refine ⟨?_, fun q hq => by cases hq⟩
        show plainTexts.number (.nat 0) = ((0 : ℕ) : ℚ)
        decide +kernel
  rw [if_pos hadmitted] at hanswered
  exact hanswered.trans (by decide +kernel)

end FacialCamera.Api
