import FacialCamera.Backend.Door
import FacialCamera.Backend.Enrollment

/-! # The routes of `main.py`

Every registered route with its handler. The door and enrollment handlers have
modules of their own; the ones that only read a table or a setting are here. What
a handler looks at outside the process (camera, detector, sensor) is an input.
-/

namespace FacialCamera.Backend

open FacialCamera.Core

/-- What a handler sees of camera, detector and sensor. `sensor` is five readings, or the
exception that `debug_motion` reports with its traceback. -/
structure Surroundings where
  sight : Sight
  encode : Jpeg → EncoderOutcome
  sensor : Except (String × String) (List Bool)

/-! ## Health and stream -/

/-- The timestamp beside the status "ok". -/
def health : Proc Timestamp := issue .now

structure FaceHealth where
  status : String
  modelVersion : String := "dlib-face-recognition-v1"
  avgInferenceMs : Nat := 120
  livenessEnabled : Bool := true
  updatedAt : Timestamp
  deriving DecidableEq

/-- `FACE_RECOGNITION_AVAILABLE`. -/
def FaceLibrary.isAvailable : FaceLibrary → Bool
  | .available _ => true
  | .unavailable _ _ => false

def facePipelineHealth (library : FaceLibrary) : Proc FaceHealth := do
  return { status := if library.isAvailable then "healthy" else "degraded",
           updatedAt := ← issue .now }

def bytes (text : String) : List UInt8 := text.toUTF8.toList

def mjpegPart : Option Jpeg → Option (List UInt8)
  | some (byte :: rest) =>
      some (bytes "--frame\r\nContent-Type: image/jpeg\r\n\r\n" ++ (byte :: rest) ++ bytes "\r\n")
  | _ => none

/-! ## Lists, logs and alerts -/

def getMembers : Proc (List MemberRow) := Db.getAllMembers

def getLogs (limit : Int) : Proc (List LogEntry) := Db.getLogs limit

def getLogSnapshot (logId : Int) : Proc (Reply Jpeg) := do
  match ← Db.getLogSnapshot logId with
  | some ⟨byte :: rest⟩ => return .ok (byte :: rest)
  | _ => return .error ⟨404, "No snapshot for this log entry"⟩

def getAlerts : Proc (List AlertRow) := Db.getAlerts

def markAlertRead (alertId : Int) : Proc Unit := Db.markAlertRead alertId

def getStats : Proc Stats := Db.getStats

/-! ## Settings -/

/-- `none` is a float that is no number, or an infinite one. -/
def setConfidence (threshold : Option ℚ) : Proc (Reply ℚ) :=
  match threshold with
  | none => return .error ⟨400, "Threshold must be between 0.0 and 1.0"⟩
  | some threshold =>
      if 0 ≤ threshold ∧ threshold ≤ 1 then do
        issue (.writeThreshold threshold)
        return .ok threshold
      else return .error ⟨400, "Threshold must be between 0.0 and 1.0"⟩

def getConfidence : Proc ℚ := issue .readThreshold

def getMotionSettings : Proc MotionSettings := do
  return ⟨← readFlag .motionDetectionEnabled, ← readFlag .motionAlertsEnabled⟩

def getAutolock : Proc Bool := readFlag .autoLockOnUnknown

structure MotionReadings where
  readings : List Bool
  motionDetectionEnabled : Bool
  deriving DecidableEq

def debugMotion (sensor : Except (String × String) (List Bool)) :
    Proc (Except (String × String) MotionReadings) :=
  match sensor with
  | .error raised => return .error raised
  | .ok readings => do return .ok ⟨readings, ← readFlag .motionDetectionEnabled⟩

/-! ## Requests -/

/-- The fields of a base64 capture as the request gives them: `none` is a falsy value,
`some none` an image that `b64decode` refuses. -/
structure ImageBody where
  angle : Option Angle
  image : Option (Option Jpeg)
  deriving DecidableEq

/-- The body with the encoder's outcome in the place of the image. -/
def ImageBody.encoded (encode : Jpeg → EncoderOutcome) (body : ImageBody) : CaptureBody where
  angle := body.angle
  image := body.image.map fun
    | none => .raises
    | some jpeg => encode jpeg

/-- A call of a route handler with the arguments that FastAPI has parsed. -/
inductive ApiRequest where
  | health
  | doorStatus
  | doorLock
  | doorUnlock
  | getMembers
  | addMember (name role : String)
  | removeMember (m : Uuid)
  | startEnrollment (m : Uuid)
  | pollEnrollment (m s : Uuid)
  | uploadCapture (m s : Uuid) (angle : String) (image : Jpeg)
  | completeEnrollment (m s : Uuid)
  | cancelEnrollment (m s : Uuid)
  | uploadCaptureB64 (m s : Uuid) (body : Option ImageBody)
  | piCameraCapture (m s : Uuid) (angle : String)
  | removeFaceTemplate (m : Uuid)
  | facePipelineHealth
  | cameraStream
  | getLogs (limit : Int)
  | getLogSnapshot (logId : Int)
  | getAlerts
  | markAlertRead (alertId : Int)
  | setConfidence (threshold : Option ℚ)
  | getConfidence
  | setMotionSettings (detection alerts : Option Bool)
  | getMotionSettings
  | setAutolock (enabled : Bool)
  | getAutolock
  | doorbell
  | debugMotion
  | getStats
  deriving DecidableEq

/-- What a handler returns, by the JSON it is written as. -/
inductive Body where
  | ok (timestamp : Timestamp)
  | door (status : DoorStatus)
  | members (rows : List MemberRow)
  | member (row : MemberRow)
  | deleted
  | enrollment (session : SessionRow) (guidance : CaptureGuidance)
  | session (session : Option SessionRow)
  | template (member : MemberRow) (template : Template)
  | cancelled
  | templateRemoved (member : Option MemberRow)
  | faceHealth (report : FaceHealth)
  | stream (part : Option (List UInt8))
  | logs (entries : List LogEntry)
  | snapshot (jpeg : Jpeg)
  | alerts (rows : List AlertRow)
  | read
  | confidenceThreshold (threshold : ℚ)
  | motion (settings : MotionSettings)
  | autoLock (enabled : Bool)
  | doorbell (result : DoorbellResult)
  | readings (readings : MotionReadings)
  | sensorError (error traceback : String)
  | stats (stats : Stats)
  | detail (text : String)
  deriving DecidableEq

/-- A handler that raises no `HTTPException`. -/
def answer {α : Type} (body : α → Body) (p : Proc α) : Proc (Reply Body) := do
  return .ok (body (← p))

def reply {α : Type} (body : α → Body) (p : Proc (Reply α)) : Proc (Reply Body) := do
  return (← p).map body

def ApiRequest.handler (seen : Surroundings) : ApiRequest → Proc (Reply Body)
  | .health => answer .ok Backend.health
  | .doorStatus => answer .door Backend.doorStatus
  | .doorLock => answer .door Backend.doorLock
  | .doorUnlock => answer .door Backend.doorUnlock
  | .getMembers => answer .members Backend.getMembers
  | .addMember name role => reply .member (Backend.addMember name role)
  | .removeMember m => reply (fun _ => .deleted) (Backend.removeMember m)
  | .startEnrollment m =>
      reply (fun out => .enrollment out.1 out.2) (Backend.startEnrollment m)
  | .pollEnrollment m s => reply (fun row => .session (some row)) (Backend.pollEnrollment m s)
  | .uploadCapture m s angle image =>
      reply .session (Backend.uploadCapture m s angle (seen.encode image))
  | .completeEnrollment m s =>
      reply (fun out => .template out.1 out.2) (Backend.completeEnrollment m s)
  | .cancelEnrollment m s => reply (fun _ => .cancelled) (Backend.cancelEnrollment m s)
  | .uploadCaptureB64 m s body =>
      reply .session
        (Backend.uploadCaptureB64 m s (body.map fun body => body.encoded seen.encode))
  | .piCameraCapture m s angle =>
      reply .session (Backend.piCameraCapture m s angle (seen.sight.frames 0))
  | .removeFaceTemplate m => reply .templateRemoved (Backend.removeFaceTemplate m)
  | .facePipelineHealth => answer .faceHealth (Backend.facePipelineHealth seen.sight.library)
  | .cameraStream => return .ok (.stream (mjpegPart seen.sight.jpeg))
  | .getLogs limit => answer .logs (Backend.getLogs limit)
  | .getLogSnapshot logId => reply .snapshot (Backend.getLogSnapshot logId)
  | .getAlerts => answer .alerts Backend.getAlerts
  | .markAlertRead alertId => answer (fun _ => .read) (Backend.markAlertRead alertId)
  | .setConfidence threshold => reply .confidenceThreshold (Backend.setConfidence threshold)
  | .getConfidence => answer .confidenceThreshold Backend.getConfidence
  | .setMotionSettings detection alerts =>
      answer .motion (Backend.setMotionSettings detection alerts)
  | .getMotionSettings => answer .motion Backend.getMotionSettings
  | .setAutolock enabled => answer .autoLock (Backend.setAutolock enabled)
  | .getAutolock => answer .autoLock Backend.getAutolock
  | .doorbell => answer .doorbell (Backend.runDoorbellScan seen.sight)
  | .debugMotion =>
      answer (fun
        | .ok readings => .readings readings
        | .error (error, traceback) => .sensorError error traceback)
        (Backend.debugMotion seen.sensor)
  | .getStats => answer .stats Backend.getStats

/-! ## The route table -/

structure Route where
  method : String
  path : String
  deriving DecidableEq

def ApiRequest.route : ApiRequest → Route
  | .health => ⟨"GET", "/health"⟩
  | .doorStatus => ⟨"GET", "/door/status"⟩
  | .doorLock => ⟨"POST", "/door/lock"⟩
  | .doorUnlock => ⟨"POST", "/door/unlock"⟩
  | .getMembers => ⟨"GET", "/members"⟩
  | .addMember _ _ => ⟨"POST", "/members/add"⟩
  | .removeMember _ => ⟨"DELETE", "/members/{member_id}"⟩
  | .startEnrollment _ => ⟨"POST", "/members/{member_id}/face/enrollment/start"⟩
  | .pollEnrollment _ _ => ⟨"GET", "/members/{member_id}/face/enrollment/{session_id}"⟩
  | .uploadCapture _ _ _ _ =>
      ⟨"POST", "/members/{member_id}/face/enrollment/{session_id}/capture"⟩
  | .completeEnrollment _ _ =>
      ⟨"POST", "/members/{member_id}/face/enrollment/{session_id}/complete"⟩
  | .cancelEnrollment _ _ => ⟨"DELETE", "/members/{member_id}/face/enrollment/{session_id}"⟩
  | .uploadCaptureB64 _ _ _ =>
      ⟨"POST", "/members/{member_id}/face/enrollment/{session_id}/capture-b64"⟩
  | .piCameraCapture _ _ _ =>
      ⟨"POST", "/members/{member_id}/face/enrollment/{session_id}/pi-capture"⟩
  | .removeFaceTemplate _ => ⟨"POST", "/members/{member_id}/face/template/remove"⟩
  | .facePipelineHealth => ⟨"GET", "/face/health"⟩
  | .cameraStream => ⟨"GET", "/camera/stream"⟩
  | .getLogs _ => ⟨"GET", "/logs"⟩
  | .getLogSnapshot _ => ⟨"GET", "/logs/{log_id}/snapshot"⟩
  | .getAlerts => ⟨"GET", "/alerts"⟩
  | .markAlertRead _ => ⟨"POST", "/alerts/{alert_id}/read"⟩
  | .setConfidence _ => ⟨"POST", "/settings/confidence"⟩
  | .getConfidence => ⟨"GET", "/settings/confidence"⟩
  | .setMotionSettings _ _ => ⟨"POST", "/settings/motion"⟩
  | .getMotionSettings => ⟨"GET", "/settings/motion"⟩
  | .setAutolock _ => ⟨"POST", "/settings/autolock"⟩
  | .getAutolock => ⟨"GET", "/settings/autolock"⟩
  | .doorbell => ⟨"POST", "/doorbell"⟩
  | .debugMotion => ⟨"GET", "/debug/motion"⟩
  | .getStats => ⟨"GET", "/stats"⟩

end FacialCamera.Backend
