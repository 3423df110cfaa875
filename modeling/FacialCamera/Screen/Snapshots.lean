import FacialCamera.Api.Wire
import FacialCamera.Recognition.Interleaved

/-! # Snapshots on the Activity screen

The screen offers a snapshot for every entry that the log advertises one for, and
loads it with an `Image` of its own, outside the API client that knows the key. The
endpoint has every advertised snapshot, and the key check never lets the image's
request through to it.
-/

namespace FacialCamera.Screen

open FacialCamera.Core Backend Recognition Api

def snapshotPath (logId : Nat) : String := "/logs/" ++ toString logId ++ "/snapshot"

def getSnapshotUrl (baseURL : String) (logId : Nat) : String := baseURL ++ snapshotPath logId

/-- What a URL has behind the base URL. -/
def pathOf (baseURL uri : String) : String :=
  String.ofList (uri.toList.drop baseURL.toList.length)

/-- The request of `<Image source={{ uri: snapshotUri }}>`: the app gives it no headers, so it
carries those of the platform. -/
def imageRequest (platform : List (String × String)) (baseURL : String) (logId : Nat) :
    HttpRequest :=
  ⟨"GET", pathOf baseURL (getSnapshotUrl baseURL logId), "", platform, []⟩

/-- The advertised snapshot of an entry is seen, and the endpoint has none where none is
advertised. -/
structure SnapshotSeen (lib : Framework) (seen : Surroundings) (platform : List (String × String))
    (baseURL : String) (ts : List (Transition House HouseTurn)) (h : House) (entry : LogEntry) :
    Prop where
  shown : entry.hasSnapshot = true → ∃ row jpeg, row.entry = entry ∧
    (∃ t ∈ ts, Captured t row jpeg) ∧
    (app lib seen (imageRequest platform baseURL entry.id) h.shared).1.status = 200 ∧
    (app lib seen (imageRequest platform baseURL entry.id) h.shared).1.content =
      .body (.snapshot jpeg)
  missing : entry.hasSnapshot = false →
    (respond seen (.getLogSnapshot entry.id) h.shared).1.status = 404

variable {lib : Framework} {seen : Surroundings} {platform : List (String × String)}
  {baseURL : String} {h : House} {entry : LogEntry}

/-! ## The key check -/

theorem snapshotPath_not_public (logId : Nat) : snapshotPath logId ∉ PUBLIC_PATHS := by
  intro hpublic
  have hsame : ∃ p ∈ PUBLIC_PATHS, (snapshotPath logId).toList = p.toList :=
    ⟨_, hpublic, rfl⟩
  simp [PUBLIC_PATHS, snapshotPath] at hsame

/-- The image loads the URL of the snapshot. -/
theorem imageRequest_eq (logId : Nat) : imageRequest platform baseURL logId =
    (ApiCall.getSnapshotUrl logId).http plainCodec platform API_KEY := by
  have hpath : pathOf baseURL (getSnapshotUrl baseURL logId) = snapshotPath logId := by
    simp [pathOf, getSnapshotUrl]
  rw [imageRequest, hpath]
  rfl

/-- The image's request is refused whatever the backend holds. -/
theorem status_imageRequest (hlib : lib.Documented) (hcors : lib.KeepsAnswers)
    (hplatform : Ordinary platform) (logId : Nat) (b : Process) :
    (app lib seen (imageRequest platform baseURL logId) b).1.status = 403 := by
  have hpath : lib.urlPath ((ApiCall.getSnapshotUrl logId).http plainCodec platform API_KEY) =
      some (snapshotPath logId) :=
    urlPath_call hlib documented_plainCodec hplatform
  have hkey : lib.header ((ApiCall.getSnapshotUrl logId).http plainCodec platform API_KEY)
      "X-API-Key" = none :=
    header_call hlib hplatform
  have hchecked : ¬ (snapshotPath logId ∈ PUBLIC_PATHS ∨
      ((ApiCall.getSnapshotUrl logId).http plainCodec platform API_KEY).method = "OPTIONS") :=
    not_or.mpr ⟨snapshotPath_not_public logId, by simp [ApiCall.http, ApiCall.method]⟩
  have hrefused : dispatch lib seen
      ((ApiCall.getSnapshotUrl logId).http plainCodec platform API_KEY) b =
        (⟨403, [], .body (.detail "Invalid or missing API key")⟩, b) := by
    rw [dispatch, hpath]
    dsimp only
    rw [if_neg hchecked, if_pos (by simp [hkey])]
  rw [imageRequest_eq, app_call hlib, hrefused]
  exact hcors.status _ _

/-! ## The endpoint -/

/-- The endpoint by what the database has. -/
theorem respond_getLogSnapshot (logId : Int) (b : Process) :
    (respond seen (.getLogSnapshot logId) b).1 =
      if Database.bindable logId then
        match b.db.getLogSnapshot logId with
        | some ⟨byte :: rest⟩ => ⟨200, [], .body (.snapshot (byte :: rest))⟩
        | _ => ⟨404, [], .body (.detail "No snapshot for this log entry")⟩
      else serverError := by
  simp only [respond, ApiRequest.handler, reply, Backend.getLogSnapshot, Db.getLogSnapshot, issue,
    Program.perform, Program.call_bind, Program.done_bind, Program.run_call, exec]
  by_cases hbind : Database.bindable logId = true
  · rw [if_pos hbind, if_pos hbind]
    rcases b.db.getLogSnapshot logId with _ | ⟨_ | ⟨byte, rest⟩⟩ <;> rfl
  · rw [if_neg hbind, if_neg hbind]

/-- A row is found under its number. -/
theorem getLogSnapshot_of_mem {b : Process} (hrecorded : Registered b) {row : LogRow}
    (hrow : row ∈ b.db.logs) : b.db.getLogSnapshot row.id = row.snapshot := by
  have hfound : b.db.logs.find? (fun r => decide ((r.id : Int) = row.id)) = some row := by
    cases hfind : b.db.logs.find? fun r => decide ((r.id : Int) = row.id) with
    | none =>
        have hmissing := List.find?_eq_none.mp hfind row hrow
        simp at hmissing
    | some r =>
        have hid : r.id = row.id := by simpa using List.find?_some hfind
        have hmem := List.mem_of_find?_eq_some hfind
        rw [hrecorded.logs.unique hmem hrow hid]
  rw [Database.getLogSnapshot, hfound]
  rfl

/-- The endpoint answers an advertised snapshot with what was captured for its entry. -/
theorem respond_captured {onPi : Bool} {clock : Timestamp} {ts : List (Transition House HouseTurn)}
    (hrun : interleaved.Run (powerOn onPi clock) ts h) {row : LogRow}
    (hrow : row ∈ h.shared.db.logs) (hbind : Database.bindable row.id = true)
    (hsnapshot : row.entry.hasSnapshot = true) : ∃ jpeg, (∃ t ∈ ts, Captured t row jpeg) ∧
      (respond seen (.getLogSnapshot row.id) h.shared).1 =
        ⟨200, [], .body (.snapshot jpeg)⟩ := by
  obtain ⟨taken, htaken⟩ := Option.isSome_iff_exists.mp hsnapshot
  obtain ⟨t, ht, hcaptured⟩ := captured_of_run hrun row hrow taken htaken
  refine ⟨taken.decoded, ⟨t, ht, hcaptured⟩, ?_⟩
  rw [respond_getLogSnapshot, if_pos hbind, getLogSnapshot_of_mem (recorded_of_run hrun) hrow,
    htaken]
  obtain ⟨_ | ⟨byte, rest⟩⟩ := taken
  · exact absurd rfl hcaptured.visible
  · rfl

theorem mem_of_getLogs {db : Database} {limit : Int} (hentry : entry ∈ db.getLogs limit) :
    ∃ row ∈ db.logs, row.entry = entry := by
  have hlisted : entry ∈ db.logs.reverse.map LogRow.entry := by
    unfold Database.getLogs at hentry
    split at hentry
    · exact hentry
    · exact List.mem_of_mem_take hentry
  simpa using List.mem_map.mp hlisted

/-- What the screen advertises is seen exactly where there is nothing to see. -/
theorem snapshotSeen_iff (hlib : lib.Documented) (hcors : lib.KeepsAnswers)
    (hplatform : Ordinary platform) {onPi : Bool} {clock : Timestamp}
    {ts : List (Transition House HouseTurn)}
    (hrun : interleaved.Run (powerOn onPi clock) ts h) {limit : Int}
    (hentry : entry ∈ h.shared.db.getLogs limit) :
    SnapshotSeen lib seen platform baseURL ts h entry ↔
      entry.hasSnapshot = false ∧ Database.bindable entry.id = true := by
  obtain ⟨row, hrow, rfl⟩ := mem_of_getLogs hentry
  constructor
  · intro hseen
    cases hsnapshot : row.entry.hasSnapshot with
    | true =>
        obtain ⟨_, _, _, _, hstatus, _⟩ := hseen.shown hsnapshot
        rw [status_imageRequest hlib hcors hplatform] at hstatus
        cases hstatus
    | false =>
        refine ⟨rfl, ?_⟩
        by_contra hbind
        have hstatus := hseen.missing hsnapshot
        rw [respond_getLogSnapshot, if_neg hbind] at hstatus
        cases hstatus
  · intro ⟨hnone, hbind⟩
    refine ⟨fun hsnapshot => by simp [hnone] at hsnapshot, fun _ => ?_⟩
    have hmissing : row.snapshot = none := by simpa [LogRow.entry] using hnone
    have hlookup : h.shared.db.getLogSnapshot row.entry.id = none :=
      (getLogSnapshot_of_mem (recorded_of_run hrun) hrow).trans hmissing
    rw [respond_getLogSnapshot, if_pos hbind, hlookup]

/-! ## A snapshot that is not seen -/

def pictured : Sight := ⟨fun _ => some (.face [0] 1), some [255], .available fun _ _ => 1⟩

/-- The motion pipeline logs the motion and, with a snapshot, the stranger. -/
def picturedMoves : List HouseTurn := .start (.motion pictured) :: List.replicate 9 (.step 0)

def imageHeaders : List (String × String) := [("Accept", "image/*"), ("Host", "172.20.10.4:8000")]

def piBase : String := "http://172.20.10.4:8000"

/-- The entry of the motion has no snapshot and is answered 404. -/
theorem snapshotSeen_motion : ∃ ts h, interleaved.Run (powerOn false 10) ts h ∧
    SnapshotSeen (plainServer plainCodec) nobody imageHeaders piBase ts h
      ⟨1, .motion, "", 10, none, false⟩ := by
  have hend : (interleaved.trace (powerOn false 10) picturedMoves).map (fun (_, h) =>
      decide (⟨1, .motion, "", 10, none, false⟩ ∈ h.shared.db.getLogs 100)) = some true := by
    decide +kernel
  obtain ⟨ts, h, hrun, hentry⟩ := Machine.exists_run_of_view hend
  exact ⟨ts, h, hrun, (snapshotSeen_iff (documented_plainServer plainCodec)
    ⟨fun _ _ => rfl, fun _ _ => rfl⟩ (by decide +kernel) hrun
    (of_decide_eq_true hentry)).mpr ⟨rfl, by decide +kernel⟩⟩

/-- The picture of the stranger is advertised and refused. -/
theorem not_always_snapshotSeen :
    ¬ ∀ (ts : List (Transition House HouseTurn)) (h : House) (entry : LogEntry),
      interleaved.Run (powerOn false 10) ts h → entry ∈ h.shared.db.getLogs 100 →
        SnapshotSeen (plainServer plainCodec) nobody imageHeaders piBase ts h entry := by
  intro halways
  have hend : (interleaved.trace (powerOn false 10) picturedMoves).map (fun (_, h) =>
      (decide (⟨2, .unknown, "Unknown person", 10, some 0, true⟩ ∈ h.shared.db.getLogs 100),
        (app (plainServer plainCodec) nobody (imageRequest imageHeaders piBase 2)
          h.shared).1.status)) = some (true, 403) := by
    decide +kernel
  obtain ⟨ts, h, hrun, hview⟩ := Machine.exists_run_of_view hend
  obtain ⟨hentry, hrefused⟩ := Prod.mk.inj hview
  obtain ⟨_, _, _, _, hstatus, _⟩ := (halways ts h _ hrun (of_decide_eq_true hentry)).shown rfl
  cases hrefused.symm.trans hstatus

end FacialCamera.Screen
