import FacialCamera.Core.Table
import Mathlib.Data.Rat.Defs

/-! # The SQLite layer

The tables of `init_db` and the functions of `database.py` over them. A value of
`Database` carries what SQLite enforces: primary keys (in `Table`), the two
`REFERENCES members(id)` columns, and that `uuid4` only returns values it has
not returned before. A function answers `none` where its statement raises.
-/

namespace FacialCamera.Backend

open FacialCamera.Core

/-- The values of `uuid4`, numbered in the order they are drawn. -/
abbrev Uuid := Nat

/-- A clock reading; `isoformat() + "Z"` prints it. -/
abbrev Timestamp := ℚ

/-- The 128 numbers that `pickle.dumps` stores and `pickle.loads` returns. -/
abbrev Encoding := List ℚ

abbrev Jpeg := List UInt8

/-- A base64 text, by the bytes it decodes to. -/
structure Base64 where
  decoded : Jpeg
  deriving DecidableEq

inductive Status where
  | capturing
  | processing
  | completed
  | cancelled
  deriving DecidableEq

def Status.text : Status → String
  | .capturing => "capturing"
  | .processing => "processing"
  | .completed => "completed"
  | .cancelled => "cancelled"

def Status.isOpen : Status → Bool
  | .capturing => true
  | .processing => true
  | .completed => false
  | .cancelled => false

/-- An angle as a request gives it. Multipart and query angles are texts; a JSON body can
also carry `true` or a number, whose text SQLite stores and which has no `upper()`, NaN,
which is bound as NULL, and what SQLite cannot bind: an array, an object or an integer
from 2^63 on or below -2^63. -/
inductive Angle where
  | text (s : String)
  | scalar (stored : String)
  | nan
  | compound
  deriving DecidableEq

/-- What is stored in a column that is TEXT and NOT NULL, `none` where the INSERT raises. -/
def Angle.stored? : Angle → Option String
  | .text s => some s
  | .scalar stored => some stored
  | .nan => none
  | .compound => none

inductive Message where
  | created
  | uploadNoFace (angle : Angle)
  | uploadCaptured (angle : String)
  | uploadAllCaptured
  | cameraNoFace (angle : Angle)
  | cameraCaptured (angle : String)
  | cameraAllCaptured
  | completed
  | cancelled
  deriving DecidableEq

/-- The text of a message; `upper` is Python's `str.upper`, `str` `str` its `str`. -/
def Message.text (upper : String → String) (str : Angle → String) : Message → String
  | .created => "Center your face and look into the camera."
  | .uploadNoFace angle => "No face detected in " ++ str angle ++ " capture. Try again."
  | .uploadCaptured angle => upper angle ++ " angle captured. Capture the next angle."
  | .uploadAllCaptured => "All angles captured. Finalizing secure template..."
  | .cameraNoFace angle =>
      "No face detected for " ++ str angle ++ ". Position yourself in front of the camera."
  | .cameraCaptured angle => upper angle ++ " captured! Move to the next angle."
  | .cameraAllCaptured => "All angles captured. Ready to finalize."
  | .completed => "Face template generated successfully."
  | .cancelled => "Enrollment cancelled."

structure MemberRow where
  id : Uuid
  name : String
  role : String
  addedDate : Timestamp
  faceEnrolled : Bool := false
  faceProfileVersion : Nat := 0
  lastEnrolledAt : Option Timestamp := none
  livenessScore : Option ℚ := none
  deriving DecidableEq

structure EncodingRow where
  id : Uuid
  memberId : Uuid
  encoding : Encoding
  angle : String
  createdAt : Timestamp
  deriving DecidableEq

structure SessionRow where
  sessionId : Uuid
  memberId : Uuid
  status : Status := .capturing
  progress : ℚ := 0
  qualityScore : ℚ := 0
  livenessScore : ℚ := 0
  message : Message
  startedAt : Timestamp
  completedAt : Option Timestamp := none
  capturesCount : Nat := 0
  deriving DecidableEq

inductive LogType where
  | motion
  | doorbell
  | authorized
  | unknown
  | manualLock
  deriving DecidableEq

structure LogRow where
  id : Nat
  type : LogType
  name : String
  timestamp : Timestamp
  confidence : Option ℚ
  snapshot : Option Base64
  deriving DecidableEq

/-- The labels passed to `add_alert`; the two with a confidence print it with `:.2f`. -/
inductive AlertLabel where
  | motionNoFace
  | motionUnknown (confidence : ℚ)
  | doorbellNoFace
  | doorbellUnknown (confidence : ℚ)
  deriving DecidableEq

/-- The text of a label; `fixed2` is the format `:.2f`. -/
def AlertLabel.text (fixed2 : ℚ → String) : AlertLabel → String
  | .motionNoFace => "Motion detected but no face found"
  | .motionUnknown confidence =>
      "Unknown person detected (confidence=" ++ fixed2 confidence ++ ")"
  | .doorbellNoFace => "Doorbell pressed but no face found"
  | .doorbellUnknown confidence =>
      "Unknown person at doorbell (confidence=" ++ fixed2 confidence ++ ")"

structure AlertRow where
  id : Nat
  timestamp : Timestamp
  label : AlertLabel
  read : Bool
  deriving DecidableEq

structure LogEntry where
  id : Nat
  type : LogType
  name : String
  timestamp : Timestamp
  confidence : Option ℚ
  hasSnapshot : Bool
  deriving DecidableEq

def LogRow.entry (r : LogRow) : LogEntry :=
  { id := r.id, type := r.type, name := r.name, timestamp := r.timestamp,
    confidence := r.confidence, hasSnapshot := r.snapshot.isSome }

/-- The `lastEntry` of `get_stats`, both `None` where nobody has been let in yet. -/
structure LastEntry where
  name : Option String
  timestamp : Option Timestamp
  deriving DecidableEq

structure Stats where
  todayEntries : Nat
  unreadAlerts : Nat
  memberCount : Nat
  lastEntry : LastEntry
  deriving DecidableEq

structure KnownEntry where
  encoding : Encoding
  memberId : Uuid
  name : String
  deriving DecidableEq

/-- `doorlock.db` after `init_db`. `uuids` counts the values drawn from `uuid4`. -/
structure Database where
  uuids : Nat
  members : Table MemberRow Uuid MemberRow.id
  encodings : Table EncodingRow Uuid EncodingRow.id
  sessions : Table SessionRow Uuid SessionRow.sessionId
  logs : List LogRow
  alerts : List AlertRow
  doorLocked : Bool
  encodings_member : ∀ e ∈ encodings.rows, members.Has e.memberId
  sessions_member : ∀ r ∈ sessions.rows, members.Has r.memberId
  members_drawn : ∀ r ∈ members.rows, r.id < uuids
  encodings_drawn : ∀ e ∈ encodings.rows, e.id < uuids
  sessions_drawn : ∀ r ∈ sessions.rows, r.sessionId < uuids

namespace Database

/-- The database that `init_db` creates where there is no file: the door is locked. -/
def fresh : Database where
  uuids := 0
  members := .empty
  encodings := .empty
  sessions := .empty
  logs := []
  alerts := []
  doorLocked := true
  encodings_member := by simp
  sessions_member := by simp
  members_drawn := by simp
  encodings_drawn := by simp
  sessions_drawn := by simp

/-- `init_db`: every statement is `IF NOT EXISTS` or `OR IGNORE`, so the tables of
an existing file, the door row included, are kept. -/
def initDb : Option Database → Database
  | none => fresh
  | some db => db

variable (db : Database)

theorem member_fresh : ¬ db.members.Has db.uuids := fun ⟨r, hr, h⟩ =>
  Nat.ne_of_lt (db.members_drawn r hr) h

theorem encoding_fresh : ¬ db.encodings.Has db.uuids := fun ⟨e, he, h⟩ =>
  Nat.ne_of_lt (db.encodings_drawn e he) h

theorem session_fresh : ¬ db.sessions.Has db.uuids := fun ⟨r, hr, h⟩ =>
  Nat.ne_of_lt (db.sessions_drawn r hr) h

/-! ## Door helpers -/

def getDoorLocked : Bool := db.doorLocked

def setDoorLocked (locked : Bool) : Database := { db with doorLocked := locked }

/-! ## Member helpers -/

def getMember (memberId : Uuid) : Option MemberRow := db.members.find? memberId

def newMember (name role : String) (now : Timestamp) : MemberRow :=
  { id := db.uuids, name, role, addedDate := now }

def addMember (name role : String) (now : Timestamp) : MemberRow × Database :=
  (db.newMember name role now,
    { db with
      uuids := db.uuids + 1
      members := db.members.insert (db.newMember name role now) db.member_fresh
      encodings_member := fun e he =>
        (Table.has_insert _ _ _ _).mpr (Or.inl (db.encodings_member e he))
      sessions_member := fun r hr =>
        (Table.has_insert _ _ _ _).mpr (Or.inl (db.sessions_member r hr))
      members_drawn := by
        intro r hr
        rcases List.mem_append.mp hr with hr | hr
        · exact Nat.lt_succ_of_lt (db.members_drawn r hr)
        · simp only [List.mem_singleton] at hr
          subst hr
          exact Nat.lt_succ_self _
      encodings_drawn := fun e he => Nat.lt_succ_of_lt (db.encodings_drawn e he)
      sessions_drawn := fun r hr => Nat.lt_succ_of_lt (db.sessions_drawn r hr) })

/-- `ON DELETE CASCADE` drops the encodings and the sessions of the member too. -/
def deleteMember (memberId : Uuid) : Database :=
  { db with
    members := db.members.deleteWhere fun r => r.id = memberId
    encodings := db.encodings.deleteWhere fun e => e.memberId = memberId
    sessions := db.sessions.deleteWhere fun r => r.memberId = memberId
    encodings_member := by
      intro e he
      obtain ⟨he, hne⟩ := List.mem_filter.mp he
      obtain ⟨r, hr, hid⟩ := db.encodings_member e he
      have hkeep : r.id ≠ memberId := by simpa [hid] using hne
      exact ⟨r, List.mem_filter.mpr ⟨hr, by simpa using hkeep⟩, hid⟩
    sessions_member := by
      intro s hs
      obtain ⟨hs, hne⟩ := List.mem_filter.mp hs
      obtain ⟨r, hr, hid⟩ := db.sessions_member s hs
      have hkeep : r.id ≠ memberId := by simpa [hid] using hne
      exact ⟨r, List.mem_filter.mpr ⟨hr, by simpa using hkeep⟩, hid⟩
    members_drawn := fun r hr => db.members_drawn r (List.mem_filter.mp hr).1
    encodings_drawn := fun e he => db.encodings_drawn e (List.mem_filter.mp he).1
    sessions_drawn := fun r hr => db.sessions_drawn r (List.mem_filter.mp hr).1 }

/-- The columns `update_member_face_enrolled` writes: the version counts up when the
face is enrolled and starts again at 0 when it is removed. -/
def enrolledColumns (enrolled : Bool) (liveness : Option ℚ) (now : Timestamp)
    (r : MemberRow) : MemberRow :=
  if enrolled then
    { r with
      faceEnrolled := true
      faceProfileVersion := r.faceProfileVersion + 1
      lastEnrolledAt := some now
      livenessScore := liveness }
  else
    { r with
      faceEnrolled := false
      faceProfileVersion := 0
      lastEnrolledAt := none
      livenessScore := none }

@[simp] theorem enrolledColumns_id (enrolled : Bool) (liveness : Option ℚ) (now : Timestamp)
    (r : MemberRow) : (enrolledColumns enrolled liveness now r).id = r.id := by
  unfold enrolledColumns
  split <;> rfl

def updateMemberFaceEnrolled (memberId : Uuid) (enrolled : Bool) (liveness : Option ℚ)
    (now : Timestamp) : Database :=
  { db with
    members := db.members.update memberId (enrolledColumns enrolled liveness now) (by simp)
    encodings_member := fun e he => (Table.has_update _ _ _ _ _).mpr (db.encodings_member e he)
    sessions_member := fun r hr => (Table.has_update _ _ _ _ _).mpr (db.sessions_member r hr)
    members_drawn := by
      intro r hr
      obtain ⟨row, hrow, rfl⟩ := List.mem_map.mp hr
      have h := db.members_drawn row hrow
      split <;> simpa using h }

/-! ## Enrollment session helpers -/

def newSession (memberId : Uuid) (now : Timestamp) : SessionRow :=
  { sessionId := db.uuids, memberId, status := .capturing, progress := 15, qualityScore := 0,
    livenessScore := 0, message := .created, startedAt := now }

/-- Raises where the member does not exist. -/
def createEnrollmentSession (memberId : Uuid) (now : Timestamp) :
    Option (SessionRow × Database) :=
  if hm : db.members.Has memberId then
    some (db.newSession memberId now,
      { db with
        uuids := db.uuids + 1
        sessions := db.sessions.insert (db.newSession memberId now) db.session_fresh
        sessions_member := by
          intro r hr
          rcases List.mem_append.mp hr with hr | hr
          · exact db.sessions_member r hr
          · simp only [List.mem_singleton] at hr
            subst hr
            exact hm
        members_drawn := fun r hr => Nat.lt_succ_of_lt (db.members_drawn r hr)
        encodings_drawn := fun e he => Nat.lt_succ_of_lt (db.encodings_drawn e he)
        sessions_drawn := by
          intro r hr
          rcases List.mem_append.mp hr with hr | hr
          · exact Nat.lt_succ_of_lt (db.sessions_drawn r hr)
          · simp only [List.mem_singleton] at hr
            subst hr
            exact Nat.lt_succ_self _ })
  else none

def getEnrollmentSession (sessionId : Uuid) : Option SessionRow := db.sessions.find? sessionId

/-- The keyword arguments of `update_enrollment_session`. -/
structure SessionColumns where
  status : Option Status := none
  progress : Option ℚ := none
  qualityScore : Option ℚ := none
  livenessScore : Option ℚ := none
  message : Option Message := none
  completedAt : Option Timestamp := none
  capturesCount : Option Nat := none
  deriving DecidableEq

def SessionColumns.write (u : SessionColumns) (r : SessionRow) : SessionRow :=
  { r with
    status := u.status.getD r.status
    progress := u.progress.getD r.progress
    qualityScore := u.qualityScore.getD r.qualityScore
    livenessScore := u.livenessScore.getD r.livenessScore
    message := u.message.getD r.message
    completedAt := u.completedAt.or r.completedAt
    capturesCount := u.capturesCount.getD r.capturesCount }

@[simp] theorem SessionColumns.write_sessionId (u : SessionColumns) (r : SessionRow) :
    (u.write r).sessionId = r.sessionId := rfl

@[simp] theorem SessionColumns.write_memberId (u : SessionColumns) (r : SessionRow) :
    (u.write r).memberId = r.memberId := rfl

def updateEnrollmentSession (sessionId : Uuid) (u : SessionColumns) : Database :=
  { db with
    sessions := db.sessions.update sessionId u.write (by simp)
    sessions_member := by
      intro r hr
      obtain ⟨row, hrow, rfl⟩ := List.mem_map.mp hr
      have h := db.sessions_member row hrow
      split <;> simpa using h
    sessions_drawn := by
      intro r hr
      obtain ⟨row, hrow, rfl⟩ := List.mem_map.mp hr
      have h := db.sessions_drawn row hrow
      split <;> simpa using h }

/-- The inline `SELECT captures_count` of the capture endpoints. -/
def selectCapturesCount (sessionId : Uuid) : Option Nat :=
  (db.sessions.find? sessionId).map SessionRow.capturesCount

/-! ## Face encoding helpers -/

def newEncoding (memberId : Uuid) (encoding : Encoding) (angle : String) (now : Timestamp) :
    EncodingRow :=
  { id := db.uuids, memberId, encoding, angle, createdAt := now }

/-- Raises where the angle is not stored or the member does not exist. The connection that it
then leaves open is taken to be closed at once. -/
def storeFaceEncoding (memberId : Uuid) (encoding : Encoding) (angle : Angle)
    (now : Timestamp) : Option Database :=
  match angle.stored? with
  | none => none
  | some stored =>
      if hm : db.members.Has memberId then
        some { db with
          uuids := db.uuids + 1
          encodings :=
            db.encodings.insert (db.newEncoding memberId encoding stored now) db.encoding_fresh
          encodings_member := by
            intro e he
            rcases List.mem_append.mp he with he | he
            · exact db.encodings_member e he
            · simp only [List.mem_singleton] at he
              subst he
              exact hm
          members_drawn := fun r hr => Nat.lt_succ_of_lt (db.members_drawn r hr)
          encodings_drawn := by
            intro e he
            rcases List.mem_append.mp he with he | he
            · exact Nat.lt_succ_of_lt (db.encodings_drawn e he)
            · simp only [List.mem_singleton] at he
              subst he
              exact Nat.lt_succ_self _
          sessions_drawn := fun r hr => Nat.lt_succ_of_lt (db.sessions_drawn r hr) }
      else none

/-- The join with `members` and its gate `face_enrolled = 1`, for one encoding. -/
def knownEntry? (e : EncodingRow) : Option KnownEntry :=
  match db.members.find? e.memberId with
  | some m =>
      if m.faceEnrolled then some { encoding := e.encoding, memberId := e.memberId, name := m.name }
      else none
  | none => none

def getAllFaceEncodings : List KnownEntry := db.encodings.rows.filterMap db.knownEntry?

def deleteFaceEncodings (memberId : Uuid) : Database :=
  { db with
    encodings := db.encodings.deleteWhere fun e => e.memberId = memberId
    encodings_member := fun e he => db.encodings_member e (List.mem_filter.mp he).1
    encodings_drawn := fun e he => db.encodings_drawn e (List.mem_filter.mp he).1 }

/-- A `uuid4` that is handed out and stored nowhere. -/
def drawUuid : Uuid × Database :=
  (db.uuids,
    { db with
      uuids := db.uuids + 1
      members_drawn := fun r hr => Nat.lt_succ_of_lt (db.members_drawn r hr)
      encodings_drawn := fun e he => Nat.lt_succ_of_lt (db.encodings_drawn e he)
      sessions_drawn := fun r hr => Nat.lt_succ_of_lt (db.sessions_drawn r hr) })

/-! ## Log and alert helpers -/

/-- `AUTOINCREMENT` ids of a table no statement deletes from. -/
def addLog (type : LogType) (name : String) (confidence : Option ℚ) (snapshot : Option Base64)
    (now : Timestamp) : Database :=
  { db with
    logs := db.logs ++
      [{ id := db.logs.length + 1, type, name, timestamp := now, confidence, snapshot }] }

def addAlert (label : AlertLabel) (now : Timestamp) : Database :=
  { db with
    alerts := db.alerts ++
      [{ id := db.alerts.length + 1, timestamp := now, label, read := false }] }

/-- The integers that SQLite can bind; a larger one raises. -/
def bindable (n : Int) : Bool := -0x8000000000000000 ≤ n ∧ n < 0x8000000000000000

/-- `ORDER BY id DESC LIMIT ?`, where a negative limit is none. -/
def getLogs (limit : Int) : List LogEntry :=
  let newest := db.logs.reverse.map LogRow.entry
  if limit < 0 then newest else newest.take limit.toNat

def getLogSnapshot (logId : Int) : Option Base64 :=
  (db.logs.find? fun r => (r.id : Int) = logId).bind LogRow.snapshot

def getAlerts : List AlertRow := db.alerts.reverse

def markAlertRead (alertId : Int) : Database :=
  { db with
    alerts := db.alerts.map fun r => if (r.id : Int) = alertId then { r with read := true } else r }

/-! ## Lists and counts -/

/-- The text of a timestamp is ordered by this: a full second is printed without a
fraction, and its `Z` comes after the point of one. -/
def textOrder (t : Timestamp) : ℚ := if t.den = 1 then t + 1 else t

def getAllMembers : List MemberRow :=
  db.members.rows.mergeSort fun r r' => textOrder r'.addedDate ≤ textOrder r.addedDate

/-- The day that a timestamp's text begins with. -/
def day (t : Timestamp) : Int := (t / 86400).floor

def getStats (now : Timestamp) : Stats :=
  let authorized := db.logs.filter fun r => r.type = .authorized
  { todayEntries := authorized.countP fun r => day r.timestamp = day now
    unreadAlerts := db.alerts.countP fun r => !r.read
    memberCount := db.members.rows.length
    lastEntry := ⟨authorized.getLast?.map LogRow.name, authorized.getLast?.map LogRow.timestamp⟩ }

/-! ## What a write leaves alone -/

structure Tables where
  members : List MemberRow
  encodings : List EncodingRow
  sessions : List SessionRow
  deriving DecidableEq

def tables : Tables := ⟨db.members.rows, db.encodings.rows, db.sessions.rows⟩

/-- Everything but the encodings and the `uuid4` count is kept by a stored encoding. -/
structure EncodingStored (m : Uuid) (encoding : Encoding) (angle : Angle) (now : Timestamp)
    (db' : Database) : Prop where
  member : db.members.Has m
  encodings : ∃ stored, angle.stored? = some stored ∧
    db'.encodings.rows = db.encodings.rows ++ [db.newEncoding m encoding stored now]
  uuids : db'.uuids = db.uuids + 1
  members : db'.members = db.members
  sessions : db'.sessions = db.sessions
  logs : db'.logs = db.logs
  alerts : db'.alerts = db.alerts
  doorLocked : db'.doorLocked = db.doorLocked

theorem storeFaceEncoding_spec {m : Uuid} {encoding : Encoding} {angle : Angle}
    {now : Timestamp} {db' : Database}
    (h : db.storeFaceEncoding m encoding angle now = some db') :
    db.EncodingStored m encoding angle now db' := by
  unfold storeFaceEncoding at h
  cases ha : angle.stored? with
  | none => simp [ha] at h
  | some stored =>
      simp only [ha] at h
      split at h
      next hm =>
        cases h
        exact ⟨hm, ⟨stored, ha, rfl⟩, rfl, rfl, rfl, rfl, rfl, rfl⟩
      next => cases h

theorem storeFaceEncoding_eq_none_iff {m : Uuid} {encoding : Encoding} {angle : Angle}
    {now : Timestamp} :
    db.storeFaceEncoding m encoding angle now = none ↔
      angle.stored? = none ∨ ¬ db.members.Has m := by
  unfold storeFaceEncoding
  cases ha : angle.stored? with
  | none => simp
  | some stored =>
      by_cases hm : db.members.Has m <;> simp [hm]

structure SessionCreated (m : Uuid) (now : Timestamp) (row : SessionRow) (db' : Database) :
    Prop where
  member : db.members.Has m
  row : row = db.newSession m now
  sessions : db'.sessions.rows = db.sessions.rows ++ [db.newSession m now]
  uuids : db'.uuids = db.uuids + 1
  members : db'.members = db.members
  encodings : db'.encodings = db.encodings
  logs : db'.logs = db.logs
  alerts : db'.alerts = db.alerts
  doorLocked : db'.doorLocked = db.doorLocked

theorem createEnrollmentSession_spec {m : Uuid} {now : Timestamp} {row : SessionRow}
    {db' : Database} (h : db.createEnrollmentSession m now = some (row, db')) :
    db.SessionCreated m now row db' := by
  unfold createEnrollmentSession at h
  split at h
  next hm =>
    cases h
    exact ⟨hm, rfl, rfl, rfl, rfl, rfl, rfl, rfl, rfl⟩
  next => cases h

/-! ## Lookups after a write -/

theorem getMember_addMember (name role : String) (now : Timestamp) (m : Uuid) :
    (db.addMember name role now).2.getMember m =
      if db.uuids = m then some (db.newMember name role now) else db.getMember m :=
  Table.find?_insert db.members (db.newMember name role now) db.member_fresh m

theorem getMember_deleteMember (m m' : Uuid) :
    (db.deleteMember m).getMember m' = if m = m' then none else db.getMember m' := by
  refine (Table.find?_deleteWhere db.members _ m').trans ?_
  cases h : db.members.find? m' with
  | none => simp [getMember, h]
  | some r =>
      obtain ⟨_, rfl⟩ := Table.find?_mem h
      by_cases hm : r.id = m
      · simp [Option.filter, hm]
      · simp [Option.filter, hm, Ne.symm hm, getMember, h]

theorem getMember_updateMemberFaceEnrolled (m m' : Uuid) (enrolled : Bool)
    (liveness : Option ℚ) (now : Timestamp) :
    (db.updateMemberFaceEnrolled m enrolled liveness now).getMember m' =
      if m = m' then (db.getMember m').map (enrolledColumns enrolled liveness now)
      else db.getMember m' :=
  Table.find?_update db.members m m' (enrolledColumns enrolled liveness now) (by simp)

theorem getEnrollmentSession_updateEnrollmentSession (s s' : Uuid) (u : SessionColumns) :
    (db.updateEnrollmentSession s u).getEnrollmentSession s' =
      if s = s' then (db.getEnrollmentSession s').map u.write
      else db.getEnrollmentSession s' :=
  Table.find?_update db.sessions s s' u.write (by simp)

theorem getEnrollmentSession_deleteMember (m s : Uuid) :
    (db.deleteMember m).getEnrollmentSession s =
      (db.getEnrollmentSession s).filter fun r => r.memberId ≠ m := by
  refine (Table.find?_deleteWhere db.sessions _ s).trans ?_
  simp [getEnrollmentSession]

theorem SessionCreated.getEnrollmentSession {m : Uuid} {now : Timestamp} {row : SessionRow}
    {db' : Database} (h : db.SessionCreated m now row db') (s : Uuid) :
    db'.getEnrollmentSession s =
      if db.uuids = s then some (db.newSession m now) else db.getEnrollmentSession s :=
  Table.find?_of_rows_append h.sessions s

/-- What the recognizer knows: the stored encodings of enrolled members. -/
theorem mem_getAllFaceEncodings {k : KnownEntry} :
    k ∈ db.getAllFaceEncodings ↔ ∃ e ∈ db.encodings.rows, ∃ row,
      db.getMember e.memberId = some row ∧ row.faceEnrolled = true ∧
        k = ⟨e.encoding, e.memberId, row.name⟩ := by
  have hentry (e : EncodingRow) : db.knownEntry? e = some k ↔
      ∃ row, db.getMember e.memberId = some row ∧ row.faceEnrolled = true ∧
        k = ⟨e.encoding, e.memberId, row.name⟩ := by
    unfold knownEntry? getMember
    cases db.members.find? e.memberId with
    | none => simp
    | some row =>
        simp only [Option.ite_none_right_eq_some, Option.some.injEq, exists_eq_left']
        exact and_congr_right fun _ => eq_comm
  simp only [getAllFaceEncodings, List.mem_filterMap, hentry]

/-! ## What a log or an alert leaves alone -/

@[simp] theorem addLog_doorLocked (type : LogType) (name : String) (confidence : Option ℚ)
    (snapshot : Option Base64) (now : Timestamp) :
    (db.addLog type name confidence snapshot now).doorLocked = db.doorLocked := rfl

@[simp] theorem addAlert_doorLocked (label : AlertLabel) (now : Timestamp) :
    (db.addAlert label now).doorLocked = db.doorLocked := rfl

@[simp] theorem setDoorLocked_doorLocked (locked : Bool) :
    (db.setDoorLocked locked).doorLocked = locked := rfl

@[simp] theorem addLog_getAllFaceEncodings (type : LogType) (name : String)
    (confidence : Option ℚ) (snapshot : Option Base64) (now : Timestamp) :
    (db.addLog type name confidence snapshot now).getAllFaceEncodings =
      db.getAllFaceEncodings := rfl

end Database

end FacialCamera.Backend
