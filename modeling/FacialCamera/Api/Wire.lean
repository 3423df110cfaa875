import FacialCamera.Api.Middleware
import FacialCamera.Core.Percent
import FacialCamera.Core.Template
import FacialCamera.Macbook.Server
import Mathlib.Data.List.Pairwise

/-! # From the functions of `api.ts` to the handlers

A function of `api.ts` writes its arguments into a path, a query and a body; FastAPI
chooses a route by the path and reads them back. No path and method are served by two
routes, so the order of the decorators does not matter, and each function reaches the
handler it means with the arguments it was given.
-/

namespace FacialCamera.Api

open FacialCamera.Core Backend

/-! ## The registered routes -/

/-- What a handler's parameters are read from: the segments that stand for the braces of the
path, the query and the body. -/
structure Arguments where
  path : List String
  query : List Char
  body : List UInt8

/-- How values are written into requests by the app, and read by the server. -/
structure Codec where
  /-- `str(uuid.uuid4())`. -/
  uuid : Uuid → String
  /-- `{ angle, imageBase64 }` as JSON. -/
  json : Macbook.Angle → Jpeg → List UInt8
  readUuid : String → Uuid
  readInt : String → Option Int
  readFloat : String → Option (Option ℚ)
  readBool : String → Option Bool
  readJson : List UInt8 → Option ImageBody
  readForm : List UInt8 → Option (String × Jpeg)

namespace Arguments

variable (codec : Codec) (args : Arguments)

def uuidAt (i : Nat) : Uuid := codec.readUuid (args.path.getD i "")

def intAt (i : Nat) : Option Int := codec.readInt (args.path.getD i "")

/-- A parameter with a default is not read where the query has no text for it. -/
def optional {α : Type} (name : String) (read : String → Option α) : Option (Option α) :=
  match queryParam args.query name with
  | none => some none
  | some text => (read text).map some

def required {α : Type} (name : String) (read : String → Option α) : Option α :=
  (queryParam args.query name).bind read

end Arguments

/-- A decorator, and the parameters of the function below it; `none` is a validation error. -/
structure Endpoint where
  route : Route
  read : Arguments → Option ApiRequest

/-- The handlers of `main.py` from the first to the last. -/
def endpoints (codec : Codec) : List Endpoint :=
  [⟨⟨"GET", "/health"⟩, fun _ => some .health⟩,
    ⟨⟨"GET", "/door/status"⟩, fun _ => some .doorStatus⟩,
    ⟨⟨"POST", "/door/lock"⟩, fun _ => some .doorLock⟩,
    ⟨⟨"POST", "/door/unlock"⟩, fun _ => some .doorUnlock⟩,
    ⟨⟨"GET", "/members"⟩, fun _ => some .getMembers⟩,
    ⟨⟨"POST", "/members/add"⟩, fun args => do
      let name ← args.required "name" some
      let role ← args.optional "role" some
      return .addMember name (role.getD "Member")⟩,
    ⟨⟨"DELETE", "/members/{member_id}"⟩, fun args => some (.removeMember (args.uuidAt codec 0))⟩,
    ⟨⟨"POST", "/members/{member_id}/face/enrollment/start"⟩, fun args =>
      some (.startEnrollment (args.uuidAt codec 0))⟩,
    ⟨⟨"GET", "/members/{member_id}/face/enrollment/{session_id}"⟩, fun args =>
      some (.pollEnrollment (args.uuidAt codec 0) (args.uuidAt codec 1))⟩,
    ⟨⟨"POST", "/members/{member_id}/face/enrollment/{session_id}/capture"⟩, fun args => do
      let (angle, image) ← codec.readForm args.body
      return .uploadCapture (args.uuidAt codec 0) (args.uuidAt codec 1) angle image⟩,
    ⟨⟨"POST", "/members/{member_id}/face/enrollment/{session_id}/complete"⟩, fun args =>
      some (.completeEnrollment (args.uuidAt codec 0) (args.uuidAt codec 1))⟩,
    ⟨⟨"DELETE", "/members/{member_id}/face/enrollment/{session_id}"⟩, fun args =>
      some (.cancelEnrollment (args.uuidAt codec 0) (args.uuidAt codec 1))⟩,
    ⟨⟨"POST", "/members/{member_id}/face/enrollment/{session_id}/capture-b64"⟩, fun args =>
      some (.uploadCaptureB64 (args.uuidAt codec 0) (args.uuidAt codec 1)
        (codec.readJson args.body))⟩,
    ⟨⟨"POST", "/members/{member_id}/face/enrollment/{session_id}/pi-capture"⟩, fun args => do
      let angle ← args.required "angle" some
      return .piCameraCapture (args.uuidAt codec 0) (args.uuidAt codec 1) angle⟩,
    ⟨⟨"POST", "/members/{member_id}/face/template/remove"⟩, fun args =>
      some (.removeFaceTemplate (args.uuidAt codec 0))⟩,
    ⟨⟨"GET", "/face/health"⟩, fun _ => some .facePipelineHealth⟩,
    ⟨⟨"GET", "/camera/stream"⟩, fun _ => some .cameraStream⟩,
    ⟨⟨"GET", "/logs"⟩, fun args => do
      let limit ← args.optional "limit" codec.readInt
      return .getLogs (limit.getD 50)⟩,
    ⟨⟨"GET", "/logs/{log_id}/snapshot"⟩, fun args => (args.intAt codec 0).map .getLogSnapshot⟩,
    ⟨⟨"GET", "/alerts"⟩, fun _ => some .getAlerts⟩,
    ⟨⟨"POST", "/alerts/{alert_id}/read"⟩, fun args => (args.intAt codec 0).map .markAlertRead⟩,
    ⟨⟨"POST", "/settings/confidence"⟩, fun args =>
      (args.required "threshold" codec.readFloat).map .setConfidence⟩,
    ⟨⟨"GET", "/settings/confidence"⟩, fun _ => some .getConfidence⟩,
    ⟨⟨"POST", "/settings/motion"⟩, fun args => do
      let detection ← args.optional "detection" codec.readBool
      let alerts ← args.optional "alerts" codec.readBool
      return .setMotionSettings detection alerts⟩,
    ⟨⟨"GET", "/settings/motion"⟩, fun _ => some .getMotionSettings⟩,
    ⟨⟨"POST", "/settings/autolock"⟩, fun args =>
      (args.required "enabled" codec.readBool).map .setAutolock⟩,
    ⟨⟨"GET", "/settings/autolock"⟩, fun _ => some .getAutolock⟩,
    ⟨⟨"POST", "/doorbell"⟩, fun _ => some .doorbell⟩,
    ⟨⟨"GET", "/debug/motion"⟩, fun _ => some .debugMotion⟩,
    ⟨⟨"GET", "/stats"⟩, fun _ => some .getStats⟩]

def routes (codec : Codec) : List Route := (endpoints codec).map Endpoint.route

/-- The routes of a list that serve a request; the server takes the first. -/
def serving (routes : List Route) (method path : String) : List Route :=
  routes.filter fun route => Serves route method path

def isHole (segment : List Char) : Bool := segment.head? = some '{'

def pathArguments (route : Route) (path : String) : List String :=
  (Template.arguments isHole (segments route.path) (segments path)).map String.ofList

/-- What FastAPI is documented to do with the decorators: the first route that serves a request
is chosen, and its function is called with what is read of the request. -/
structure Framework.Routes (lib : Framework) (codec : Codec) : Prop where
  routed : ∀ request,
    lib.routed request = (serving (routes codec) request.method request.path).head?
  read : ∀ request, ∀ endpoint ∈ endpoints codec, ∀ a,
    endpoint.read ⟨pathArguments endpoint.route request.path, request.query.toList,
      request.body⟩ = some a →
    ∀ h : a.route = endpoint.route, lib.arguments request endpoint.route = .ok ⟨a, h⟩

/-! ## One route for a request -/

def isText (segment : List Char) : Bool := !segment.isEmpty

theorem segmentsMatch_eq (template path : List (List Char)) :
    segmentsMatch template path = Template.instanceOf isHole isText template path := by
  induction template generalizing path with
  | nil => cases path <;> rfl
  | cons t template ih =>
      cases path with
      | nil => rfl
      | cons s path =>
          rw [segmentsMatch, Template.instanceOf, ih]
          simp [isHole, isText]

theorem routes_congr (codec codec' : Codec) : routes codec = routes codec' := rfl

def silent : Codec :=
  ⟨fun _ => "", fun _ _ => [], fun _ => 0, fun _ => none, fun _ => none, fun _ => none,
    fun _ => none, fun _ => none⟩

/-- Routes of one method have templates that do not overlap. -/
def Apart (route route' : Route) : Prop :=
  route.method = route'.method →
    Template.overlap isHole isText (segments route.path) (segments route'.path) = false

instance (route route' : Route) : Decidable (Apart route route') :=
  inferInstanceAs (Decidable (_ → _))

instance : Std.Symm Apart where
  symm _ _ h hmethod := (Template.overlap_comm _ _).trans (h hmethod.symm)

theorem routes_apart : (routes silent).Pairwise Apart := by
  decide +kernel

theorem serves_unique {codec : Codec} {route route' : Route} {method path : String}
    (hroute : route ∈ routes codec) (hroute' : route' ∈ routes codec)
    (h : Serves route method path) (h' : Serves route' method path) : route = route' := by
  rw [routes_congr codec silent] at hroute hroute'
  have hmatch := h.2
  have hmatch' := h'.2
  rw [segmentsMatch_eq] at hmatch hmatch'
  have hoverlap := Template.overlap_of_instanceOf hmatch hmatch'
  by_contra hne
  have hapart := routes_apart.forall hroute hroute' hne (h.1.trans h'.1.symm)
  rw [hapart] at hoverlap
  cases hoverlap

theorem nodup_routes (codec : Codec) : (routes codec).Nodup := by
  rw [routes_congr codec silent]
  decide +kernel

/-- Whatever the method and the path, and in whatever order the decorators stand, one route
serves the request at most, and the server chooses the same. -/
theorem routed_perm (codec : Codec) (method path : String) {order : List Route}
    (horder : order.Perm (routes codec)) :
    (serving order method path).length ≤ 1 ∧
      (serving order method path).head? = (serving (routes codec) method path).head? := by
  have hperm : (serving order method path).Perm (serving (routes codec) method path) :=
    horder.filter _
  have hsame : ∀ route ∈ serving (routes codec) method path,
      ∀ route' ∈ serving (routes codec) method path, route = route' := by
    intro route hroute route' hroute'
    obtain ⟨hmem, hserves⟩ := List.mem_filter.mp hroute
    obtain ⟨hmem', hserves'⟩ := List.mem_filter.mp hroute'
    exact serves_unique hmem hmem' (of_decide_eq_true hserves) (of_decide_eq_true hserves')
  have hnodup : (serving (routes codec) method path).Nodup := (nodup_routes codec).filter _
  cases hserving : serving (routes codec) method path with
  | nil =>
      rw [hserving] at hperm
      simp [hperm.eq_nil]
  | cons first rest =>
      rw [hserving] at hperm hsame hnodup
      have hrest : rest = [] := by
        refine List.eq_nil_iff_forall_not_mem.mpr fun other hother => ?_
        have hfirst := hsame first List.mem_cons_self other (List.mem_cons_of_mem _ hother)
        exact (List.nodup_cons.mp hnodup).1 (hfirst ▸ hother)
      subst hrest
      simp [List.perm_singleton.mp hperm]

theorem routed_perm_reverse :
    (serving (routes silent).reverse "GET" "/logs/7/snapshot").length ≤ 1 ∧
      (serving (routes silent).reverse "GET" "/logs/7/snapshot").head? =
        (serving (routes silent) "GET" "/logs/7/snapshot").head? :=
  routed_perm silent "GET" "/logs/7/snapshot" (List.reverse_perm _)

/-! ## The calls of the app -/

/-- The functions of `api.ts` and `config.ts` that lead to a request to the Pi, the last two by
an image or a page that loads their URL, with the arguments that the screens call them with: ids
that the Pi has given out, one of the three angles, row ids, whole limits and whole percents. -/
inductive ApiCall where
  | getDoorStatus
  | lockDoor
  | unlockDoor
  | getStats
  | getMembers
  | addMember (name role : String)
  | removeMember (id : Uuid)
  | startMemberFaceEnrollment (memberId : Uuid)
  | transferMacbookCaptureToPi (memberId sessionId : Uuid) (angle : Macbook.Angle) (image : Jpeg)
  | piCameraCapture (memberId sessionId : Uuid) (angle : Macbook.Angle)
  | completePiEnrollment (memberId sessionId : Uuid)
  | removeMemberFaceTemplate (memberId : Uuid)
  | getLogs (limit : Nat)
  | getAlerts
  | markAlertRead (id : Nat)
  | setConfidenceThreshold (percent : Nat)
  | getConfidenceThreshold
  | getMotionSettings
  | setMotionSettings (detection alerts : Option Bool)
  | getAutoLockSetting
  | setAutoLockSetting (enabled : Bool)
  | pressDoorbell
  | pingPi
  | getSnapshotUrl (logId : Nat)
  | getCameraStreamUrl (timestamp : Nat)
  deriving DecidableEq

/-- The text of `percent / 100`, up to one. -/
def hundredths (percent : Nat) : String :=
  if percent % 100 = 0 then toString (percent / 100)
  else if percent % 10 = 0 then "0." ++ toString (percent / 10)
  else if percent < 10 then "0.0" ++ toString percent
  else "0." ++ toString percent

namespace ApiCall

def method : ApiCall → String
  | getDoorStatus | getStats | getMembers | getLogs _ | getAlerts | getConfidenceThreshold
  | getMotionSettings | getAutoLockSetting | pingPi | getSnapshotUrl _
  | getCameraStreamUrl _ => "GET"
  | removeMember _ => "DELETE"
  | _ => "POST"

def path (codec : Codec) : ApiCall → String
  | getDoorStatus => "/door/status"
  | lockDoor => "/door/lock"
  | unlockDoor => "/door/unlock"
  | getStats => "/stats"
  | getMembers => "/members"
  | addMember _ _ => "/members/add"
  | removeMember id => "/members/" ++ codec.uuid id
  | startMemberFaceEnrollment memberId =>
      "/members/" ++ codec.uuid memberId ++ "/face/enrollment/start"
  | transferMacbookCaptureToPi memberId sessionId _ _ =>
      "/members/" ++ codec.uuid memberId ++ "/face/enrollment/" ++ codec.uuid sessionId ++
        "/capture-b64"
  | piCameraCapture memberId sessionId _ =>
      "/members/" ++ codec.uuid memberId ++ "/face/enrollment/" ++ codec.uuid sessionId ++
        "/pi-capture"
  | completePiEnrollment memberId sessionId =>
      "/members/" ++ codec.uuid memberId ++ "/face/enrollment/" ++ codec.uuid sessionId ++
        "/complete"
  | removeMemberFaceTemplate memberId =>
      "/members/" ++ codec.uuid memberId ++ "/face/template/remove"
  | getLogs _ => "/logs"
  | getAlerts => "/alerts"
  | markAlertRead id => "/alerts/" ++ toString id ++ "/read"
  | setConfidenceThreshold _ | getConfidenceThreshold => "/settings/confidence"
  | getMotionSettings | setMotionSettings _ _ => "/settings/motion"
  | getAutoLockSetting | setAutoLockSetting _ => "/settings/autolock"
  | pressDoorbell => "/doorbell"
  | pingPi => "/health"
  | getSnapshotUrl logId => "/logs/" ++ toString logId ++ "/snapshot"
  | getCameraStreamUrl _ => "/camera/stream"

def field (name : String) (value : List Char) : List Char := name.toList ++ '=' :: value

/-- `URLSearchParams.toString` of the parameters that were set. -/
def searchParams (detection alerts : Option Bool) : List Char :=
  ['&'].intercalate
    ((detection.toList.map fun value => field "detection" (toString value).toList) ++
      alerts.toList.map fun value => field "alerts" (toString value).toList)

def query : ApiCall → List Char
  | addMember name _ => field "name" (encodeURIComponent name)
  | piCameraCapture _ _ angle => field "angle" (encodeURIComponent angle.text)
  | getLogs limit => field "limit" (toString limit).toList
  | setConfidenceThreshold percent => field "threshold" (hundredths percent).toList
  | setMotionSettings detection alerts => searchParams detection alerts
  | setAutoLockSetting enabled => field "enabled" (toString enabled).toList
  | getCameraStreamUrl timestamp => field "t" (encodeURIComponent (toString timestamp))
  | _ => []

def body (codec : Codec) : ApiCall → List UInt8
  | transferMacbookCaptureToPi _ _ angle image => codec.json angle image
  | _ => []

/-- `getApiClient` sets the header; an image and a page have none of the app's. -/
def keyed : ApiCall → Bool
  | getSnapshotUrl _ | getCameraStreamUrl _ => false
  | _ => true

/-- The request that arrives, with the headers that the platform adds. -/
def http (codec : Codec) (platform : List (String × String)) (key : String) (call : ApiCall) :
    HttpRequest where
  method := call.method
  path := call.path codec
  query := String.ofList call.query
  headers := if call.keyed then ("X-API-Key", key) :: platform else platform
  body := call.body codec

/-- The handler that a call is meant for, with its arguments; the role is not sent. -/
def request : ApiCall → ApiRequest
  | getDoorStatus => .doorStatus
  | lockDoor => .doorLock
  | unlockDoor => .doorUnlock
  | getStats => .getStats
  | getMembers => .getMembers
  | addMember name _ => .addMember name "Member"
  | removeMember id => .removeMember id
  | startMemberFaceEnrollment memberId => .startEnrollment memberId
  | transferMacbookCaptureToPi memberId sessionId angle image =>
      .uploadCaptureB64 memberId sessionId
        (some ⟨some (.text angle.text), if image = [] then none else some (some image)⟩)
  | piCameraCapture memberId sessionId angle => .piCameraCapture memberId sessionId angle.text
  | completePiEnrollment memberId sessionId => .completeEnrollment memberId sessionId
  | removeMemberFaceTemplate memberId => .removeFaceTemplate memberId
  | getLogs limit => .getLogs limit
  | getAlerts => .getAlerts
  | markAlertRead id => .markAlertRead id
  | setConfidenceThreshold percent => .setConfidence (some (percent / 100))
  | getConfidenceThreshold => .getConfidence
  | getMotionSettings => .getMotionSettings
  | setMotionSettings detection alerts => .setMotionSettings detection alerts
  | getAutoLockSetting => .getAutolock
  | setAutoLockSetting enabled => .setAutolock enabled
  | pressDoorbell => .doorbell
  | pingPi => .health
  | getSnapshotUrl logId => .getLogSnapshot logId
  | getCameraStreamUrl _ => .cameraStream

/-- The slider stays below one hundred. -/
def Sent : ApiCall → Prop
  | setConfidenceThreshold percent => percent ≤ 100
  | _ => True

def places (codec : Codec) : ApiCall → List String
  | removeMember id => [codec.uuid id]
  | startMemberFaceEnrollment memberId | removeMemberFaceTemplate memberId =>
      [codec.uuid memberId]
  | transferMacbookCaptureToPi memberId sessionId _ _ | piCameraCapture memberId sessionId _
  | completePiEnrollment memberId sessionId => [codec.uuid memberId, codec.uuid sessionId]
  | markAlertRead id | getSnapshotUrl id => [toString id]
  | _ => []

end ApiCall

/-- What is documented of the texts: an id is a segment of a path, and what is written is read
back. -/
structure Codec.Documented (codec : Codec) : Prop where
  uuid : ∀ u, codec.uuid u ≠ "" ∧ Plain (codec.uuid u)
  readUuid : ∀ u, codec.readUuid (codec.uuid u) = u
  readInt : ∀ n : Nat, codec.readInt (toString n) = some n
  readFloat : ∀ percent ≤ 100, codec.readFloat (hundredths percent) =
    some (some ((percent : ℚ) / 100))
  readBool : ∀ value : Bool, codec.readBool (toString value) = some value
  readJson : ∀ angle image, codec.readJson (codec.json angle image) =
    some ⟨some (.text angle.text), if image = [] then none else some (some image)⟩

/-! ## The way of a call -/

variable {codec : Codec} {lib : Framework}

theorem splitOn_place {pre place post : List Char} (hplace : '/' ∉ place) :
    (pre ++ '/' :: (place ++ '/' :: post)).splitOn '/' =
      pre.splitOn '/' ++ place :: post.splitOn '/' := by
  rw [List.splitOn_append_cons_self, List.splitOn_append_cons_self_of_not_mem hplace]

theorem splitOn_last {pre place : List Char} (hplace : '/' ∉ place) :
    (pre ++ '/' :: place).splitOn '/' = pre.splitOn '/' ++ [place] := by
  rw [List.splitOn_append_cons_self, List.splitOn_eq_singleton hplace]

theorem slash_notMem {text : String} (h : Plain text) : '/' ∉ text.toList := fun hslash => by
  cases h _ hslash

theorem toString_plain (n : Nat) : toString n ≠ "" ∧ Plain (toString n) := by
  have hdigits : (toString n).toList = Nat.toDigits 10 n := by simp
  constructor
  · intro h
    rw [h] at hdigits
    exact Nat.toDigits_ne_nil hdigits.symm
  · rw [Plain, hdigits]
    intro c hc
    have hdigit := Nat.isDigit_of_mem_toDigits (by decide) (by decide) hc
    simp [isHostChar, Char.isAlphanum, hdigit]

theorem places_plain (hcodec : codec.Documented) {call : ApiCall} {place : String}
    (hplace : place ∈ call.places codec) : place ≠ "" ∧ Plain place := by
  cases call <;> simp only [ApiCall.places, List.mem_cons, List.not_mem_nil, or_false] at hplace
  case transferMacbookCaptureToPi | piCameraCapture | completePiEnrollment =>
    rcases hplace with rfl | rfl <;> exact hcodec.uuid _
  case markAlertRead | getSnapshotUrl =>
    subst hplace
    exact toString_plain _
  all_goals
    subst hplace
    exact hcodec.uuid _

/-- A path with one place, and with two, cut at its slashes. -/
theorem segments_place {path place : String} {pre post : List Char} (hplace : '/' ∉ place.toList)
    (htext : path.toList = pre ++ '/' :: (place.toList ++ '/' :: post)) :
    segments path = pre.splitOn '/' ++ place.toList :: post.splitOn '/' := by
  rw [segments, htext, splitOn_place hplace]

theorem segments_places {path place place' : String} {pre middle post : List Char}
    (hplace : '/' ∉ place.toList) (hplace' : '/' ∉ place'.toList)
    (htext : path.toList = pre ++ '/' :: (place.toList ++ '/' :: (middle ++ '/' ::
      (place'.toList ++ '/' :: post)))) :
    segments path = pre.splitOn '/' ++ place.toList ::
      (middle.splitOn '/' ++ place'.toList :: post.splitOn '/') := by
  rw [segments, htext, splitOn_place hplace, splitOn_place hplace']

/-- The path of a call is the path of its handler with the places filled. -/
theorem segments_path (hcodec : codec.Documented) (call : ApiCall) :
    segments (call.path codec) = Template.fill isHole (segments call.request.route.path)
      ((call.places codec).map String.toList) := by
  cases call with
  | removeMember id =>
      have htext : (ApiCall.path codec (.removeMember id)).toList =
          "/members".toList ++ '/' :: (codec.uuid id).toList := by
        simp [ApiCall.path]
      rw [segments, htext, splitOn_last (slash_notMem (hcodec.uuid id).2)]
      simp [ApiCall.places, ApiCall.request, ApiRequest.route, segments, Template.fill, isHole,
        List.splitOn_cons_eq_if_modifyHead]
  | startMemberFaceEnrollment m =>
      have hcut := segments_place (slash_notMem (hcodec.uuid m).2)
        (show (ApiCall.path codec (.startMemberFaceEnrollment m)).toList = "/members".toList ++
          '/' :: ((codec.uuid m).toList ++ '/' :: "face/enrollment/start".toList) by
          simp [ApiCall.path])
      rw [hcut]
      simp [ApiCall.places, ApiCall.request, ApiRequest.route, segments, Template.fill, isHole,
        List.splitOn_cons_eq_if_modifyHead]
  | removeMemberFaceTemplate m =>
      have hcut := segments_place (slash_notMem (hcodec.uuid m).2)
        (show (ApiCall.path codec (.removeMemberFaceTemplate m)).toList = "/members".toList ++
          '/' :: ((codec.uuid m).toList ++ '/' :: "face/template/remove".toList) by
          simp [ApiCall.path])
      rw [hcut]
      simp [ApiCall.places, ApiCall.request, ApiRequest.route, segments, Template.fill, isHole,
        List.splitOn_cons_eq_if_modifyHead]
  | transferMacbookCaptureToPi m s angle image =>
      have hcut := segments_places (slash_notMem (hcodec.uuid m).2) (slash_notMem (hcodec.uuid s).2)
        (show (ApiCall.path codec (.transferMacbookCaptureToPi m s angle image)).toList =
          "/members".toList ++ '/' :: ((codec.uuid m).toList ++ '/' :: ("face/enrollment".toList ++
            '/' :: ((codec.uuid s).toList ++ '/' :: "capture-b64".toList))) by
          simp [ApiCall.path])
      rw [hcut]
      simp [ApiCall.places, ApiCall.request, ApiRequest.route, segments, Template.fill, isHole,
        List.splitOn_cons_eq_if_modifyHead]
  | piCameraCapture m s angle =>
      have hcut := segments_places (slash_notMem (hcodec.uuid m).2) (slash_notMem (hcodec.uuid s).2)
        (show (ApiCall.path codec (.piCameraCapture m s angle)).toList =
          "/members".toList ++ '/' :: ((codec.uuid m).toList ++ '/' :: ("face/enrollment".toList ++
            '/' :: ((codec.uuid s).toList ++ '/' :: "pi-capture".toList))) by
          simp [ApiCall.path])
      rw [hcut]
      simp [ApiCall.places, ApiCall.request, ApiRequest.route, segments, Template.fill, isHole,
        List.splitOn_cons_eq_if_modifyHead]
  | completePiEnrollment m s =>
      have hcut := segments_places (slash_notMem (hcodec.uuid m).2) (slash_notMem (hcodec.uuid s).2)
        (show (ApiCall.path codec (.completePiEnrollment m s)).toList =
          "/members".toList ++ '/' :: ((codec.uuid m).toList ++ '/' :: ("face/enrollment".toList ++
            '/' :: ((codec.uuid s).toList ++ '/' :: "complete".toList))) by
          simp [ApiCall.path])
      rw [hcut]
      simp [ApiCall.places, ApiCall.request, ApiRequest.route, segments, Template.fill, isHole,
        List.splitOn_cons_eq_if_modifyHead]
  | markAlertRead id =>
      have hcut := segments_place (slash_notMem (toString_plain id).2)
        (show (ApiCall.path codec (.markAlertRead id)).toList = "/alerts".toList ++
          '/' :: ((toString id).toList ++ '/' :: "read".toList) by
          simp [ApiCall.path])
      rw [hcut]
      simp [ApiCall.places, ApiCall.request, ApiRequest.route, segments, Template.fill, isHole,
        List.splitOn_cons_eq_if_modifyHead]
  | getSnapshotUrl id =>
      have hcut := segments_place (slash_notMem (toString_plain id).2)
        (show (ApiCall.path codec (.getSnapshotUrl id)).toList = "/logs".toList ++
          '/' :: ((toString id).toList ++ '/' :: "snapshot".toList) by
          simp [ApiCall.path])
      rw [hcut]
      simp [ApiCall.places, ApiCall.request, ApiRequest.route, segments, Template.fill, isHole,
        List.splitOn_cons_eq_if_modifyHead]
  | _ => exact (Template.fill_nil _).symm

theorem length_places (call : ApiCall) :
    ((call.places codec).map String.toList).length =
      Template.holes isHole (segments call.request.route.path) := by
  cases call <;> simp [ApiCall.places, ApiCall.request, ApiRequest.route, segments,
    Template.holes, isHole, List.splitOn_cons_eq_if_modifyHead]

theorem serves_call (hcodec : codec.Documented) (call : ApiCall) :
    Serves call.request.route call.method (call.path codec) := by
  refine ⟨by cases call <;> rfl, ?_⟩
  rw [segmentsMatch_eq, segments_path hcodec]
  refine Template.instanceOf_fill (length_places call) fun segment hsegment => ?_
  obtain ⟨place, hplace, rfl⟩ := List.mem_map.mp hsegment
  simpa [isText] using (places_plain hcodec hplace).1

theorem pathArguments_call (hcodec : codec.Documented) (call : ApiCall) :
    pathArguments call.request.route (call.path codec) = call.places codec := by
  rw [pathArguments, segments_path hcodec, Template.arguments_fill (length_places call)]
  simp [Function.comp_def]

/-! ## What is read from the query -/

theorem unreserved_digit {c : Char} (h : c.isDigit = true) : unreserved c = true := by
  simp only [Char.isDigit, Bool.and_eq_true, decide_eq_true_eq] at h
  simp only [unreserved, decide_eq_true_eq]
  exact Or.inr (Or.inr (Or.inl h))

theorem unreserved_toString (n : Nat) : ∀ c ∈ (toString n).toList, unreserved c = true := by
  intro c hc
  have hdigits : (toString n).toList = Nat.toDigits 10 n := by simp
  rw [hdigits] at hc
  exact unreserved_digit (Nat.isDigit_of_mem_toDigits (by decide) (by decide) hc)

theorem unreserved_hundredths : ∀ percent ≤ 100, ∀ c ∈ (hundredths percent).toList,
    unreserved c = true := by
  have hall : ∀ percent ≤ 100, (hundredths percent).toList.all unreserved = true := by
    decide +kernel
  exact fun percent hle => List.all_eq_true.mp (hall percent hle)

theorem unreserved_bool (value : Bool) : ∀ c ∈ (toString value).toList, unreserved c = true := by
  refine List.all_eq_true.mp ?_
  cases value <;> decide +kernel

def ApiCall.fields : ApiCall → List (String × String)
  | .addMember name _ => [("name", name)]
  | .piCameraCapture _ _ angle => [("angle", angle.text)]
  | .getLogs limit => [("limit", toString limit)]
  | .setConfidenceThreshold percent => [("threshold", hundredths percent)]
  | .setMotionSettings detection alerts =>
      (detection.toList.map fun value => ("detection", toString value)) ++
        alerts.toList.map fun value => ("alerts", toString value)
  | .setAutoLockSetting enabled => [("enabled", toString enabled)]
  | .getCameraStreamUrl timestamp => [("t", toString timestamp)]
  | _ => []

/-- A value that needs no encoding is a field too. -/
theorem field_plain (name : String) {value : String}
    (hvalue : ∀ c ∈ value.toList, unreserved c = true) :
    ApiCall.field name value.toList = encodeField name.toList value := by
  rw [ApiCall.field, encodeField, encodeURIComponent_plain hvalue]

theorem query_fields {call : ApiCall} (hsent : call.Sent) :
    call.query = ['&'].intercalate
      (call.fields.map fun field => encodeField field.1.toList field.2) := by
  cases call with
  | addMember | piCameraCapture | getCameraStreamUrl => exact List.intercalate_singleton.symm
  | getLogs limit =>
      exact (field_plain "limit" (unreserved_toString limit)).trans
        List.intercalate_singleton.symm
  | setConfidenceThreshold percent =>
      exact (field_plain "threshold" (unreserved_hundredths percent hsent)).trans
        List.intercalate_singleton.symm
  | setMotionSettings detection alerts =>
      simp only [ApiCall.query, ApiCall.searchParams, ApiCall.fields, List.map_append,
        List.map_map, Function.comp_def, field_plain _ (unreserved_bool _)]
  | setAutoLockSetting enabled =>
      exact (field_plain "enabled" (unreserved_bool enabled)).trans
        List.intercalate_singleton.symm
  | _ => rfl

theorem fields_plain (call : ApiCall) :
    ∀ field ∈ call.fields, (∀ c ∈ field.1.toList, c ≠ '&' ∧ c ≠ '=') ∧
      unquotePlus field.1.toList = field.1 := by
  have hnames : ∀ name ∈ ["name", "angle", "limit", "threshold", "detection", "alerts", "enabled",
      "t"], (name.toList.all fun c => c ≠ '&' ∧ c ≠ '=') = true ∧
        unquotePlus name.toList = name := by
    decide +kernel
  intro field hfield
  suffices hname : field.1 ∈ ["name", "angle", "limit", "threshold", "detection", "alerts",
      "enabled", "t"] by
    have hkept := hnames field.1 hname
    exact ⟨fun c hc => of_decide_eq_true (List.all_eq_true.mp hkept.1 c hc), hkept.2⟩
  cases call <;> simp only [ApiCall.fields, List.mem_cons, List.not_mem_nil, or_false,
    List.mem_append, List.mem_map] at hfield
  case setMotionSettings =>
    rcases hfield with ⟨_, _, rfl⟩ | ⟨_, _, rfl⟩ <;> simp
  all_goals
    subst hfield
    simp

theorem queryParam_call {call : ApiCall} (hsent : call.Sent) (name : String) :
    queryParam (String.ofList call.query).toList name =
      ((call.fields.filter fun field => field.1 = name).getLast?).map Prod.snd := by
  have hfields := fields_plain call
  have hread : parseQsl call.query = call.fields := by
    have hnames : ∀ field ∈ call.fields.map fun field => (field.1.toList, field.2),
        ∀ c ∈ field.1, c ≠ '&' ∧ c ≠ '=' := by
      intro field hfield
      obtain ⟨pair, hpair, rfl⟩ := List.mem_map.mp hfield
      exact (hfields pair hpair).1
    have hparse := parseQsl_fields hnames
    rw [List.map_map, List.map_map] at hparse
    rw [query_fields hsent]
    refine hparse.trans ((List.map_congr_left fun field hfield => ?_).trans (List.map_id _))
    exact Prod.ext (hfields field hfield).2 rfl
  rw [String.toList_ofList, queryParam, hread]

/-! ## The handler of a call -/

def ApiCall.arguments (codec : Codec) (call : ApiCall) : Arguments :=
  ⟨call.places codec, (String.ofList call.query).toList, call.body codec⟩

/-- Endpoint number `i` has the route of the call and reads its arguments. -/
def ReadAt (codec : Codec) (call : ApiCall) (i : Nat) : Prop :=
  ∃ endpoint, (endpoints codec)[i]? = some endpoint ∧ endpoint.route = call.request.route ∧
    endpoint.read (call.arguments codec) = some call.request

theorem required_call {α : Type} {call : ApiCall} (hsent : call.Sent) {name value : String}
    (hfield : call.fields = [(name, value)]) (read : String → Option α) :
    (call.arguments codec).required name read = read value := by
  rw [Arguments.required, ApiCall.arguments, queryParam_call hsent, hfield]
  simp

theorem optional_call {α : Type} {call : ApiCall} (hsent : call.Sent) (name : String)
    (read : String → Option α) :
    (call.arguments codec).optional name read =
      match ((call.fields.filter fun field => field.1 = name).getLast?).map Prod.snd with
      | none => some none
      | some text => (read text).map some := by
  rw [Arguments.optional, ApiCall.arguments, queryParam_call hsent]

/-- An id in the place number `i` is read back. -/
theorem uuidAt_call (hcodec : codec.Documented) {args : Arguments} {i : Nat} {id : Uuid}
    (hplace : args.path.getD i "" = codec.uuid id) : args.uuidAt codec i = id := by
  rw [Arguments.uuidAt, hplace, hcodec.readUuid]

theorem intAt_call (hcodec : codec.Documented) {args : Arguments} {i n : Nat}
    (hplace : args.path.getD i "" = toString n) : args.intAt codec i = some n := by
  rw [Arguments.intAt, hplace, hcodec.readInt]

/-- Each call has an endpoint that reads what it wrote. -/
theorem read_call (hcodec : codec.Documented) {call : ApiCall} (hsent : call.Sent) :
    ∃ i, ReadAt codec call i := by
  cases call with
  | getDoorStatus => exact ⟨1, _, rfl, rfl, rfl⟩
  | lockDoor => exact ⟨2, _, rfl, rfl, rfl⟩
  | unlockDoor => exact ⟨3, _, rfl, rfl, rfl⟩
  | getMembers => exact ⟨4, _, rfl, rfl, rfl⟩
  | addMember name role =>
      refine ⟨5, _, rfl, rfl, ?_⟩
      simp [required_call hsent rfl, optional_call hsent, ApiCall.fields, ApiCall.request]
  | removeMember id =>
      have hid : (ApiCall.arguments codec (.removeMember id)).uuidAt codec 0 = id :=
        uuidAt_call hcodec rfl
      refine ⟨6, _, rfl, rfl, ?_⟩
      simp [hid, ApiCall.request]
  | startMemberFaceEnrollment m =>
      have hm : (ApiCall.arguments codec (.startMemberFaceEnrollment m)).uuidAt codec 0 = m :=
        uuidAt_call hcodec rfl
      refine ⟨7, _, rfl, rfl, ?_⟩
      simp [hm, ApiCall.request]
  | completePiEnrollment m s =>
      have hm : (ApiCall.arguments codec (.completePiEnrollment m s)).uuidAt codec 0 = m :=
        uuidAt_call hcodec rfl
      have hs : (ApiCall.arguments codec (.completePiEnrollment m s)).uuidAt codec 1 = s :=
        uuidAt_call hcodec rfl
      refine ⟨10, _, rfl, rfl, ?_⟩
      simp [hm, hs, ApiCall.request]
  | transferMacbookCaptureToPi m s angle image =>
      let args := ApiCall.arguments codec (.transferMacbookCaptureToPi m s angle image)
      have hm : args.uuidAt codec 0 = m := uuidAt_call hcodec rfl
      have hs : args.uuidAt codec 1 = s := uuidAt_call hcodec rfl
      have hbody := hcodec.readJson angle image
      refine ⟨12, _, rfl, rfl, ?_⟩
      show some (ApiRequest.uploadCaptureB64 (args.uuidAt codec 0) (args.uuidAt codec 1)
        (codec.readJson (codec.json angle image))) = _
      rw [hm, hs, hbody]
      rfl
  | piCameraCapture m s angle =>
      have hm : (ApiCall.arguments codec (.piCameraCapture m s angle)).uuidAt codec 0 = m :=
        uuidAt_call hcodec rfl
      have hs : (ApiCall.arguments codec (.piCameraCapture m s angle)).uuidAt codec 1 = s :=
        uuidAt_call hcodec rfl
      refine ⟨13, _, rfl, rfl, ?_⟩
      simp [hm, hs, required_call hsent rfl, ApiCall.request]
  | removeMemberFaceTemplate m =>
      have hm : (ApiCall.arguments codec (.removeMemberFaceTemplate m)).uuidAt codec 0 = m :=
        uuidAt_call hcodec rfl
      refine ⟨14, _, rfl, rfl, ?_⟩
      simp [hm, ApiCall.request]
  | getCameraStreamUrl timestamp => exact ⟨16, _, rfl, rfl, rfl⟩
  | getLogs limit =>
      have hlimit : codec.readInt limit.repr = some (limit : Int) := hcodec.readInt limit
      refine ⟨17, _, rfl, rfl, ?_⟩
      simp [optional_call hsent, ApiCall.fields, hlimit, ApiCall.request]
  | getSnapshotUrl logId =>
      have hid : (ApiCall.arguments codec (.getSnapshotUrl logId)).intAt codec 0 = some logId :=
        intAt_call hcodec rfl
      refine ⟨18, _, rfl, rfl, ?_⟩
      simp [hid, ApiCall.request]
  | getAlerts => exact ⟨19, _, rfl, rfl, rfl⟩
  | markAlertRead id =>
      have hid : (ApiCall.arguments codec (.markAlertRead id)).intAt codec 0 = some id :=
        intAt_call hcodec rfl
      refine ⟨20, _, rfl, rfl, ?_⟩
      simp [hid, ApiCall.request]
  | setConfidenceThreshold percent =>
      refine ⟨21, _, rfl, rfl, ?_⟩
      simp [required_call hsent rfl, hcodec.readFloat percent hsent, ApiCall.request]
  | getConfidenceThreshold => exact ⟨22, _, rfl, rfl, rfl⟩
  | setMotionSettings detection alerts =>
      refine ⟨23, _, rfl, rfl, ?_⟩
      cases detection <;> cases alerts <;>
        simp [optional_call hsent, ApiCall.fields, hcodec.readBool, ApiCall.request]
  | getMotionSettings => exact ⟨24, _, rfl, rfl, rfl⟩
  | setAutoLockSetting enabled =>
      refine ⟨25, _, rfl, rfl, ?_⟩
      simp [required_call hsent rfl, hcodec.readBool, ApiCall.request]
  | getAutoLockSetting => exact ⟨26, _, rfl, rfl, rfl⟩
  | pressDoorbell => exact ⟨27, _, rfl, rfl, rfl⟩
  | getStats => exact ⟨29, _, rfl, rfl, rfl⟩
  | pingPi => exact ⟨0, _, rfl, rfl, rfl⟩

variable {platform : List (String × String)} {key : String} {call : ApiCall}

theorem route_mem (hcodec : codec.Documented) (hsent : call.Sent) :
    call.request.route ∈ routes codec := by
  obtain ⟨i, endpoint, hat, hroute, _⟩ := read_call hcodec hsent
  exact hroute ▸ List.mem_map_of_mem (List.mem_of_getElem? hat)

theorem routed_of_serves (hroutes : lib.Routes codec) {request : HttpRequest} {route : Route}
    (hmem : route ∈ routes codec) (hserves : Serves route request.method request.path) :
    lib.routed request = some route := by
  rw [hroutes.routed]
  cases hserving : serving (routes codec) request.method request.path with
  | nil =>
      have hnone := List.filter_eq_nil_iff.mp hserving _ hmem
      exact absurd (decide_eq_true hserves) hnone
  | cons first rest =>
      have hfirst : first ∈ serving (routes codec) request.method request.path :=
        hserving ▸ List.mem_cons_self
      obtain ⟨hmem', hserves'⟩ := List.mem_filter.mp hfirst
      exact congrArg some (serves_unique hmem' hmem (of_decide_eq_true hserves') hserves)

theorem arguments_call (hroutes : lib.Routes codec) (hcodec : codec.Documented)
    (hsent : call.Sent) :
    lib.arguments (call.http codec platform key) call.request.route = .ok ⟨call.request, rfl⟩ := by
  obtain ⟨i, endpoint, hat, hroute, hread⟩ := read_call hcodec hsent
  have hargs : (⟨pathArguments endpoint.route (call.path codec),
      (String.ofList call.query).toList, call.body codec⟩ : Arguments) = call.arguments codec := by
    rw [hroute, pathArguments_call hcodec, ApiCall.arguments]
  have hok := hroutes.read (call.http codec platform key) endpoint (List.mem_of_getElem? hat)
    call.request (by rw [← hread, ← hargs]; rfl)
  clear hargs hread
  obtain ⟨route, read⟩ := endpoint
  cases hroute
  exact hok rfl

theorem callNext_call (hroutes : lib.Routes codec) (hcodec : codec.Documented)
    (hsent : call.Sent) (seen : Surroundings) (b : Process) :
    callNext lib seen (call.http codec platform key) b = respond seen call.request b := by
  have hrouted : lib.routed (call.http codec platform key) = some call.request.route :=
    routed_of_serves hroutes (route_mem hcodec hsent) (serves_call hcodec call)
  rw [callNext, hrouted]
  dsimp only
  rw [arguments_call hroutes hcodec hsent]

/-- The headers that the platform adds: none of them is the key, and the Host is that of an
address. -/
structure Ordinary (platform : List (String × String)) : Prop where
  keyless : ∀ field ∈ platform, field.1.toLower ≠ "x-api-key"
  host : ∀ field ∈ platform, field.1.toLower = "host" → Plain field.2

instance (platform : List (String × String)) : Decidable (Ordinary platform) :=
  decidable_of_iff ((∀ field ∈ platform, field.1.toLower ≠ "x-api-key") ∧
      ∀ field ∈ platform, field.1.toLower = "host" → Plain field.2)
    ⟨fun h => ⟨h.1, h.2⟩, fun h => ⟨h.keyless, h.host⟩⟩

def ApiCall.Admitted (codec : Codec) (key : String) (call : ApiCall) : Prop :=
  call.path codec ∈ PUBLIC_PATHS ∨ call.keyed = true ∧ key = API_KEY

instance (codec : Codec) (key : String) (call : ApiCall) : Decidable (call.Admitted codec key) :=
  inferInstanceAs (Decidable (_ ∨ _))

theorem header_call (hlib : lib.Documented) (hplatform : Ordinary platform) :
    lib.header (call.http codec platform key) "X-API-Key" =
      if call.keyed = true then some key else none := by
  have hname : "X-API-Key".toLower = "x-api-key" := by decide +kernel
  have hnone : (platform.find? fun field => field.1.toLower = "x-api-key") = none :=
    List.find?_eq_none.mpr fun field hfield => by simpa using hplatform.keyless field hfield
  rw [hlib.header, HttpRequest.find, ApiCall.http, hname]
  cases call.keyed with
  | true => simp [hname]
  | false => simp [hnone]

def PathText (text : String) : Prop := ∀ c ∈ text.toList, isHostChar c = true ∨ c = '/'

instance (text : String) : Decidable (PathText text) :=
  decidable_of_iff (text.toList.all (fun c => isHostChar c || c = '/') = true)
    (by simp [PathText])

theorem PathText.append {text text' : String} (h : PathText text) (h' : PathText text') :
    PathText (text ++ text') := by
  intro c hc
  rw [String.toList_append] at hc
  exact (List.mem_append.mp hc).elim (h c) (h' c)

theorem pathText_plain {text : String} (h : Plain text) : PathText text := fun c hc =>
  Or.inl (h c hc)

theorem pathText_call (hcodec : codec.Documented) (call : ApiCall) :
    PathText (call.path codec) := by
  have huuid (u : Uuid) : PathText (codec.uuid u) := pathText_plain (hcodec.uuid u).2
  have hnumber (n : Nat) : PathText (toString n) := pathText_plain (toString_plain n).2
  cases call with
  | removeMember id => exact .append (by decide +kernel) (huuid id)
  | startMemberFaceEnrollment m | removeMemberFaceTemplate m =>
      exact .append (.append (by decide +kernel) (huuid m)) (by decide +kernel)
  | transferMacbookCaptureToPi m s | piCameraCapture m s | completePiEnrollment m s =>
      exact .append (.append (.append (.append (by decide +kernel) (huuid m)) (by decide +kernel))
        (huuid s)) (by decide +kernel)
  | markAlertRead id | getSnapshotUrl id =>
      exact .append (.append (by decide +kernel) (hnumber id)) (by decide +kernel)
  | _ =>
      simp only [ApiCall.path]
      decide +kernel

theorem PathText.kept {text : String} (h : PathText text) :
    Url.kept text.toList = text.toList ∧ Url.upToQuery text.toList = text.toList := by
  constructor
  · refine List.filter_eq_self.mpr fun c hc => ?_
    by_contra hremoved
    simp only [Url.removed, Bool.not_eq_true, Bool.not_eq_false', Bool.or_eq_true,
      decide_eq_true_eq] at hremoved
    rcases h c hc with hchar | rfl
    · rcases hremoved with (rfl | rfl) | rfl <;> cases hchar
    · simp at hremoved
  · refine List.takeWhile_eq_self_iff.mpr fun c hc => ?_
    by_contra hends
    simp only [Url.endsPath, Bool.not_eq_true, Bool.not_eq_false', Bool.or_eq_true,
      decide_eq_true_eq] at hends
    rcases h c hc with hchar | rfl
    · rcases hends with rfl | rfl <;> cases hchar
    · simp at hends

theorem host_call (hlib : lib.Documented) (hplatform : Ordinary platform) :
    Plain ((call.http codec platform key).host.getD lib.server) := by
  cases hhost : (call.http codec platform key).host with
  | none => exact hlib.server
  | some host =>
      rw [HttpRequest.host, HttpRequest.find, Option.map_eq_some_iff] at hhost
      obtain ⟨field, hfind, rfl⟩ := hhost
      have hname : field.1.toLower = "host" := by
        have hfound := List.find?_some hfind
        rw [decide_eq_true_eq] at hfound
        exact hfound.trans (by decide +kernel)
      have hmem : field = ("X-API-Key", key) ∨ field ∈ platform := by
        have hfield := List.mem_of_find?_eq_some hfind
        rw [ApiCall.http] at hfield
        cases hkeyed : call.keyed with
        | true => simpa [hkeyed] using hfield
        | false => exact Or.inr (by simpa [hkeyed] using hfield)
      rcases hmem with rfl | hadded
      · exact absurd hname (show "X-API-Key".toLower ≠ "host" by decide +kernel)
      · exact hplatform.host field hadded hname

/-- The path of the URL is the path of the call. -/
theorem urlPath_call (hlib : lib.Documented) (hcodec : codec.Documented)
    (hplatform : Ordinary platform) :
    lib.urlPath (call.http codec platform key) = some (call.path codec) := by
  have hplain : Plain ((call.http codec platform key).host.getD lib.server) :=
    host_call hlib hplatform
  have hserves := serves_call hcodec call
  obtain ⟨rest, hslash, _⟩ := path_of_serves hserves
  obtain ⟨hkept, hupTo⟩ := (pathText_call hcodec call).kept
  have hpath : Url.path (lib.url (call.http codec platform key)) = (call.path codec).toList := by
    rw [path_url, Url.path_append_of_netloc (host_plain hplain).1]
    exact (path_of_slash hserves).trans (by rw [hkept, hupTo])
  have hnetloc : Url.netloc (lib.url (call.http codec platform key)) =
      ((call.http codec platform key).host.getD lib.server).toList := by
    have hurl : ∃ more, lib.url (call.http codec platform key) =
        ((call.http codec platform key).host.getD lib.server).toList ++ '/' :: more :=
      ⟨_, by rw [Framework.url, show (call.http codec platform key).path = call.path codec from rfl,
        hslash]; rfl⟩
    obtain ⟨more, hurl⟩ := hurl
    rw [hurl, Url.netloc_append_of_netloc (host_plain hplain).1, Url.netloc_slash,
      List.append_nil, (host_plain hplain).2]
  rw [hlib.urlPath, hnetloc, hlib.accepts _ hplain, hpath, String.ofList_toList]
  rfl

/-- The key check lets a call through to its handler, or answers it. -/
theorem dispatch_call (hlib : lib.Documented) (hroutes : lib.Routes codec)
    (hcodec : codec.Documented) (hplatform : Ordinary platform) (hsent : call.Sent)
    (seen : Surroundings) (b : Process) :
    dispatch lib seen (call.http codec platform key) b =
      if call.Admitted codec key then respond seen call.request b
      else (⟨403, [], .body (.detail "Invalid or missing API key")⟩, b) := by
  have hmethod : (call.http codec platform key).method ≠ "OPTIONS" := by
    cases call <;> simp [ApiCall.http, ApiCall.method]
  have hheader : lib.header (call.http codec platform key) "X-API-Key" = _ :=
    header_call hlib hplatform
  rw [dispatch, urlPath_call hlib hcodec hplatform, hheader,
    callNext_call hroutes hcodec hsent]
  dsimp only
  by_cases hpublic : call.path codec ∈ PUBLIC_PATHS
  · have hadmitted : call.Admitted codec key := Or.inl hpublic
    rw [if_pos (Or.inl hpublic), if_pos hadmitted]
  · rw [if_neg (not_or.mpr ⟨hpublic, hmethod⟩)]
    by_cases hkey : call.keyed = true ∧ key = API_KEY
    · have hadmitted : call.Admitted codec key := Or.inr hkey
      rw [if_neg (by simp [hkey.1, hkey.2]), if_pos hadmitted]
    · have hadmitted : ¬ call.Admitted codec key := not_or.mpr ⟨hpublic, hkey⟩
      have hfound : (if call.keyed = true then some key else none) ≠ some API_KEY := by
        intro hfound
        obtain ⟨hkeyed, hsame⟩ := Option.ite_none_right_eq_some.mp hfound
        exact hkey ⟨hkeyed, Option.some.inj hsame⟩
      rw [if_pos hfound, if_neg hadmitted]

/-- No call is a preflight. -/
theorem app_call (hlib : lib.Documented) (seen : Surroundings) (b : Process) :
    app lib seen (call.http codec platform key) b =
      let (response, b') := dispatch lib seen (call.http codec platform key) b
      (lib.addCors (call.http codec platform key) response, b') := by
  have hmethod : (call.http codec platform key).method ≠ "OPTIONS" := by
    cases call <;> simp [ApiCall.http, ApiCall.method]
  rw [app, hlib.preflight _ hmethod]

def plainCodec : Codec where
  uuid u := toString u
  json angle image := (match angle with | .front => 0 | .left => 1 | .right => 2) :: image
  readUuid t := Nat.ofDigitChars 10 t.toList 0
  readInt t := some (Nat.ofDigitChars 10 t.toList 0 : Nat)
  readFloat t :=
    let (whole, digits) := (t.toList.takeWhile Char.isDigit, (t.toList.dropWhile Char.isDigit).tail)
    some (some (Nat.ofDigitChars 10 (whole ++ digits) 0 / 10 ^ digits.length))
  readBool t := if t = "true" then some true else if t = "false" then some false else none
  readJson
    | tag :: image =>
        let angle : Macbook.Angle := if tag = 0 then .front else if tag = 1 then .left else .right
        some ⟨some (.text angle.text), if image = [] then none else some (some image)⟩
    | [] => none
  readForm _ := none

theorem documented_plainCodec : plainCodec.Documented where
  uuid := toString_plain
  readUuid u := by simp [plainCodec]
  readInt n := by simp [plainCodec]
  readFloat := by decide +kernel
  readBool value := by cases value <;> decide +kernel
  readJson angle image := by cases angle <;> rfl

/-- The endpoint that the route of a call finds. -/
theorem find_endpoint {endpoint : Endpoint} (hmem : endpoint ∈ endpoints codec) :
    ((endpoints codec).find? fun e => e.route = endpoint.route) = some endpoint := by
  cases hfind : (endpoints codec).find? fun e => e.route = endpoint.route with
  | none =>
      have hnone := List.find?_eq_none.mp hfind endpoint hmem
      simp at hnone
  | some found =>
      have hroute : found.route = endpoint.route := by simpa using List.find?_some hfind
      exact congrArg some (List.inj_on_of_nodup_map (nodup_routes codec)
        (List.mem_of_find?_eq_some hfind) hmem hroute)

def plainServer (codec : Codec) : Framework where
  server := "172.20.10.4:8000"
  refuses host := host.contains '[' != host.contains ']'
  urlPath request :=
    let url := (request.host.getD "172.20.10.4:8000").toList ++ (request.path.toList ++
      if request.query = "" then [] else '?' :: request.query.toList)
    if (Url.netloc url).contains '[' != (Url.netloc url).contains ']' then none
    else some (String.ofList (Url.path url))
  header := HttpRequest.find
  preflight _ := none
  addCors _ response := response
  routed request := (serving (routes codec) request.method request.path).head?
  arguments request route :=
    match (endpoints codec).find? fun endpoint => endpoint.route = route with
    | none => .error ⟨404, [], .body (.detail "Not Found")⟩
    | some endpoint =>
        match endpoint.read ⟨pathArguments route request.path, request.query.toList,
            request.body⟩ with
        | none => .error ⟨422, [], .raw []⟩
        | some a => if h : a.route = route then .ok ⟨a, h⟩ else .error ⟨422, [], .raw []⟩
  unrouted _ := ⟨404, [], .body (.detail "Not Found")⟩

theorem documented_plainServer (codec : Codec) : (plainServer codec).Documented where
  urlPath _ := rfl
  server := show Plain "172.20.10.4:8000" by decide +kernel
  accepts host hplain := by
    have hnone (c : Char) (hc : isHostChar c = false) : c ∉ host.toList := by
      intro hmem
      rw [hplain c hmem] at hc
      cases hc
    simp [plainServer, hnone '[' (by decide), hnone ']' (by decide)]
  header _ _ := rfl
  preflight _ _ := rfl
  routed request route h := by
    have hmem := List.mem_of_mem_head? h
    exact of_decide_eq_true (List.mem_filter.mp hmem).2

theorem routes_plainServer (codec : Codec) : (plainServer codec).Routes codec where
  routed _ := rfl
  read request endpoint hmem a hread h := by
    simp [plainServer, find_endpoint hmem, hread, h]

def emptyRoom : Surroundings :=
  ⟨⟨fun _ => none, none, .unavailable 0 0⟩, fun _ => .noFace, .ok []⟩

def addGuest : ApiCall := .addMember "Guest Ana & Bo+1 Co+1" "Owner"

end FacialCamera.Api
