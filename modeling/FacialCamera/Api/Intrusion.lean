import FacialCamera.Api.Wire
import FacialCamera.Core.Evidence
import FacialCamera.Door.Agreement
import FacialCamera.Recognition.Compare
import FacialCamera.Recognition.Interleaved

/-! # Who can open the door

The backend as it is exposed: requests come in over HTTP through the application,
the sensor's callbacks and the relock timers start inside. Whatever the order of the
calls, the door is opened only after an unlock request with the key or with a Host
header that exempts it, or by a recognition run whose own frame matched an entry that
the database held while the run was under way.
-/

namespace FacialCamera.Api

open FacialCamera.Core Backend Recognition

/-! ## What the application lets through -/

def Passes (lib : Framework) (request : HttpRequest) : Prop :=
  Exempt lib request ∨
    lib.urlPath request ≠ none ∧ lib.header request "X-API-Key" = some API_KEY

instance (lib : Framework) (request : HttpRequest) : Decidable (Passes lib request) :=
  inferInstanceAs (Decidable (_ ∨ _))

/-- The call of a handler that a request leads to; `none` where it is answered without one. -/
def admitted (lib : Framework) (request : HttpRequest) : Option ApiRequest :=
  match lib.preflight request with
  | some _ => none
  | none => if Passes lib request then called lib request else none

variable {lib : Framework} {request : HttpRequest} {a : ApiRequest}

theorem callNext_run (seen : Surroundings) (b : Process) :
    (callNext lib seen request b).2 =
      (called lib request).elim b fun a => ((a.handler seen).run exec b).2 := by
  cases hcalled : called lib request with
  | none =>
      obtain ⟨response, hanswer⟩ := callNext_not_called hcalled
      rw [hanswer]
      rfl
  | some a =>
      exact (congrArg Prod.snd (callNext_called hcalled seen b)).trans (respond_snd seen a b)

/-- A request runs the handler it is admitted to and changes nothing else. -/
theorem app_admitted (seen : Surroundings) (b : Process) :
    (app lib seen request b).2 =
      (admitted lib request).elim b fun a => ((a.handler seen).run exec b).2 := by
  unfold app admitted
  cases lib.preflight request with
  | some response => rfl
  | none =>
      show (dispatch lib seen request b).2 = _
      by_cases hexempt : Exempt lib request
      · rw [dispatch_exempt hexempt, if_pos (show Passes lib request from Or.inl hexempt)]
        exact callNext_run seen b
      by_cases hkey : lib.header request "X-API-Key" = some API_KEY
      · cases hurl : lib.urlPath request with
        | none =>
            have hpasses : ¬ Passes lib request := fun h => h.elim hexempt fun h => h.1 hurl
            rw [if_neg hpasses, dispatch, hurl]
            rfl
        | some path =>
            have hpasses : Passes lib request := Or.inr ⟨by simp [hurl], hkey⟩
            have hchecked : ¬ (path ∈ PUBLIC_PATHS ∨ request.method = "OPTIONS") := fun h =>
              hexempt ⟨path, hurl, h⟩
            simp only [dispatch, hurl, if_neg hchecked, if_neg (not_not.mpr hkey), if_pos hpasses]
            exact callNext_run seen b
      · have hpasses : ¬ Passes lib request := fun h => h.elim hexempt fun h => hkey h.2
        obtain ⟨response, hchecked⟩ := dispatch_checked hexempt hkey
        rw [if_neg hpasses, hchecked]
        rfl

inductive Turn where
  | http (request : HttpRequest) (seen : Surroundings)
  | motion (sight : Sight)
  | fire (i : Nat)
  | wait (clock : Timestamp)
  | step (i : Nat)
  | restart (onPi : Bool) (clock : Timestamp)

def Turn.starts (lib : Framework) : Turn → Option Event
  | .http request seen => (admitted lib request).map fun a => .request a seen
  | .motion sight => some (.motion sight)
  | .fire i => some (.fire i)
  | .wait clock => some (.wait clock)
  | _ => none

/-- The frame matches somebody by what the run has heard. -/
def Names (sight : Sight) (heard : List (Answered Call Answer)) : Prop :=
  ∃ encoding quality known threshold name,
    grabFaceEncoding sight.frames = .face encoding quality ∧
    ⟨.getAllFaceEncodings, known⟩ ∈ heard ∧ ⟨.readThreshold, threshold⟩ ∈ heard ∧
    recognizedName (compareFace sight.library threshold encoding known) = some name

theorem Names.mono {sight : Sight} {heard later : List (Answered Call Answer)}
    (h : Names sight heard) (hle : heard <+: later) : Names sight later := by
  obtain ⟨encoding, quality, known, threshold, name, hgrab, hknown, hthreshold, hname⟩ := h
  exact ⟨encoding, quality, known, threshold, name, hgrab, hle.subset hknown,
    hle.subset hthreshold, hname⟩

variable {ts : List (Transition House Turn)}

/-- The history has started a thread of the event, and has been through these states since. -/
def Since (lib : Framework) (ts : List (Transition House Turn)) (e : Event)
    (Past : Process → Prop) : Prop :=
  ∃ us t vs, ts = us ++ t :: vs ∧ t.label.starts lib = some e ∧
    Past = fun b => ∃ u ∈ vs, u.before.shared = b

end FacialCamera.Api
