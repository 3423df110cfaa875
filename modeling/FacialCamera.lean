import FacialCamera.Core.Base64
import FacialCamera.Core.Calendar
import FacialCamera.Core.Delimited
import FacialCamera.Core.Evidence
import FacialCamera.Core.Holding
import FacialCamera.Core.Journal
import FacialCamera.Core.Json
import FacialCamera.Core.Ledger
import FacialCamera.Core.Locks
import FacialCamera.Core.Machine
import FacialCamera.Core.Percent
import FacialCamera.Core.Program
import FacialCamera.Core.Register
import FacialCamera.Core.Remote
import FacialCamera.Core.Rounding
import FacialCamera.Core.Table
import FacialCamera.Core.Template
import FacialCamera.Core.Text
import FacialCamera.Core.Threads
import FacialCamera.Core.Url
import FacialCamera.Backend.Database
import FacialCamera.Backend.Camera
import FacialCamera.Backend.Hardware
import FacialCamera.Backend.State
import FacialCamera.Backend.Door
import FacialCamera.Backend.Sensor
import FacialCamera.Backend.Enrollment
import FacialCamera.Backend.Api
import FacialCamera.Backend.Locks
import FacialCamera.Api.Middleware
import FacialCamera.Door.Operations
import FacialCamera.Door.Agreement
import FacialCamera.Door.Failure
import FacialCamera.Door.Restart
import FacialCamera.Door.Window
import FacialCamera.Servo.Spin
import FacialCamera.Enrollment.Requests
import FacialCamera.Enrollment.Calls
import FacialCamera.Enrollment.History
import FacialCamera.Enrollment.Captured
import FacialCamera.Enrollment.Finalized
import FacialCamera.Enrollment.LifeCycle
import FacialCamera.Enrollment.Segments
import FacialCamera.Enrollment.ClosedSessions
import FacialCamera.Enrollment.Removal
import FacialCamera.Enrollment.Deletion
import FacialCamera.Enrollment.Failure
import FacialCamera.Enrollment.Endpoints
import FacialCamera.Enrollment.Counts
import FacialCamera.Enrollment.Frame
import FacialCamera.Macbook.Server
import FacialCamera.Macbook.Clients
import FacialCamera.Macbook.Provenance
import FacialCamera.Macbook.Worker
import FacialCamera.Macbook.Handlers
import FacialCamera.Macbook.Consistency
import FacialCamera.Recognition.Compare
import FacialCamera.Recognition.Pipelines
import FacialCamera.Recognition.Admission
import FacialCamera.Recognition.Live
import FacialCamera.Recognition.Interleaved
import FacialCamera.Recognition.Timestamps
import FacialCamera.Recognition.Encoder
import FacialCamera.Recognition.Templates
import FacialCamera.Recognition.Accounts
import FacialCamera.Recognition.Leaks
import FacialCamera.Recognition.Balance
import FacialCamera.Recognition.Settings
import FacialCamera.Recognition.Locks
import FacialCamera.Api.Wire
import FacialCamera.Api.Exemption
import FacialCamera.Api.Intrusion
import FacialCamera.Api.Replies
import FacialCamera.Api.Pictures
import FacialCamera.Recognition.Threshold
import FacialCamera.Recognition.Equivalence
import FacialCamera.Motion.Polling
import FacialCamera.Motion.Presence
import FacialCamera.Servo.Travel
import FacialCamera.Camera.Capture
import FacialCamera.Camera.Stream
import FacialCamera.Screen.Members
import FacialCamera.Screen.Answers
import FacialCamera.Screen.Finalizing
import FacialCamera.Screen.Ending
import FacialCamera.Screen.Notifications
import FacialCamera.Screen.Activity
import FacialCamera.Screen.Timeline
import FacialCamera.Screen.DoorButton
import FacialCamera.Screen.Dashboard
import FacialCamera.Screen.Banner
import FacialCamera.Screen.Snapshots
import FacialCamera.Screen.Settings
import FacialCamera.Service.Connection
import FacialCamera.Service.Stores
import FacialCamera.Service.Together
