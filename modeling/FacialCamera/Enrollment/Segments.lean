import FacialCamera.Enrollment.Calls

/-! # Requests that wait for their body

The two upload handlers `await` between the guard and the capture. The event loop
runs other requests in the meantime, so a handler is one segment up to its
`await` and one after it, and a suspended handler is resumed at any later time.
-/

namespace FacialCamera.Enrollment

open FacialCamera.Core Backend

/-- A handler at its `await`; `ticket` counts the requests received before it. -/
structure Waiting where
  ticket : Nat
  request : Request
  rest : Proc Unit

structure Desk where
  process : Process
  arrivals : Nat
  waiting : List Waiting

inductive DeskMove where
  | arrive (a : Arrival)
  | resume (i : Nat) (clock : ℚ)

def Desk.receive (d : Desk) (r : Request) :
    Program.Segment Call Answer Unit Process → Desk
  | .ended _ b => { d with process := b, arrivals := d.arrivals + 1 }
  | .suspended rest b =>
      ⟨b, d.arrivals + 1, d.waiting ++ [⟨d.arrivals, r, rest⟩]⟩

def Desk.settle (d : Desk) (i : Nat) (w : Waiting) :
    Program.Segment Call Answer Unit Process → Desk
  | .ended _ b => { d with process := b, waiting := d.waiting.eraseIdx i }
  | .suspended rest b => { d with process := b, waiting := d.waiting.set i { w with rest } }

/-- Every interleaving of the segments of any number of requests. -/
def desk : Machine Desk DeskMove where
  next d
    | .arrive a =>
        if d.process.clock ≤ a.clock then
          some (d.receive a.request
            (a.request.program.segment exec Call.awaits { d.process with clock := a.clock }))
        else none
    | .resume i clock =>
        match d.waiting[i]? with
        | none => none
        | some w =>
            if d.process.clock ≤ clock then
              some (d.settle i w (w.rest.resume exec Call.awaits { d.process with clock }))
            else none

/-! ## The two segments of a request -/

def Request.landing : Request → Proc Unit
  | .uploadCapture m s angle image => (recordCapture uploadTexts m s (.text angle) image).forget
  | .uploadCaptureB64 m s body => (recordBody m s body).forget
  | _ => .done ()

def Request.landingDeed (db : Database) : Request → Deed
  | .uploadCapture m s angle image => captureDeed db uploadTexts m s (.text angle) image
  | .uploadCaptureB64 m s body => bodyDeed db m s body
  | _ => .nothing

def Request.arrivalDeed (db : Database) (r : Request) : Deed :=
  if r.upload?.isSome then .nothing else r.deed db

theorem awaits_of_desk (c : Call) (hc : deskCall c = true) : c.awaits = false := by
  cases c <;> first | rfl | cases hc

theorem calls_landing (r : Request) : r.landing.Calls fun c => c.awaits = false := by
  cases r with
  | uploadCapture m s angle image =>
      exact (calls_recordCapture awaits_of_desk uploadTexts m s (.text angle) image).forget
  | uploadCaptureB64 m s body => exact (calls_recordBody awaits_of_desk m s body).forget
  | _ => trivial

/-- The suspended rest of an upload: its body is read, and then it lands. -/
def Request.awaiting (r : Request) : Proc Unit := .call .readBody fun _ => r.landing

variable (b : Process)

/-- The segment of a handler that does not wait is the whole request. -/
theorem segment_program {r : Request} (h : r.upload? = none) :
    ∃ result, r.program.segment exec Call.awaits b =
      .ended result { b with db := (r.arrivalDeed b.db).apply b.clock b.db } := by
  refine ⟨(r.program.run exec b).1, ?_⟩
  rw [Program.segment_eq_run (calls_program awaits_of_desk (Or.inl h)), ← Request.perform,
    perform_eq]
  simp [Request.arrivalDeed, h]

/-- The first segment of an upload ends at the guard or waits for the body. -/
theorem segment_upload {r : Request} {m s : Uuid} (h : r.upload? = some (m, s)) :
    (Admitted b.db m s ∧
        r.program.segment exec Call.awaits b = .suspended r.awaiting b) ∨
      ∃ result, r.program.segment exec Call.awaits b = .ended result b := by
  cases r with
  | uploadCapture m' s' angle image =>
      obtain ⟨rfl, rfl⟩ : m' = m ∧ s' = s := by simpa [Request.upload?] using h
      rw [Request.program, uploadCapture, Program.forget, Program.bind_assoc,
        Program.segment_bind (calls_guardCapture awaits_of_desk uploadTexts m' s'),
        run_guardCapture]
      cases hrefused : refusal b.db uploadTexts m' s' with
      | none => exact Or.inl ⟨(refusal_eq_none_iff _ _ _ _).mp hrefused, rfl⟩
      | some e => exact Or.inr ⟨some (), rfl⟩
  | uploadCaptureB64 m' s' body =>
      obtain ⟨rfl, rfl⟩ : m' = m ∧ s' = s := by simpa [Request.upload?] using h
      rw [Request.program, uploadCaptureB64, Program.forget, Program.bind_assoc,
        Program.segment_bind (calls_guardCapture awaits_of_desk uploadTexts m' s'),
        run_guardCapture]
      cases hrefused : refusal b.db uploadTexts m' s' with
      | none => exact Or.inl ⟨(refusal_eq_none_iff _ _ _ _).mp hrefused, rfl⟩
      | some e => exact Or.inr ⟨some (), rfl⟩
  | _ => cases h

/-- The second segment of an upload runs to its end. -/
theorem resume_awaiting (r : Request) :
    ∃ result, r.awaiting.resume exec Call.awaits b =
      .ended result { b with db := (r.landingDeed b.db).apply b.clock b.db } := by
  refine ⟨(r.landing.run exec b).1, ?_⟩
  have hrun : (r.landing.run exec b).2 =
      { b with db := (r.landingDeed b.db).apply b.clock b.db } := by
    cases r with
    | uploadCapture m s angle image =>
        have hrecord := run_recordCapture b uploadTexts m s (.text angle) image
        exact (Program.run_forget _ b).trans hrecord
    | uploadCaptureB64 m s body =>
        have hrecord := run_recordBody b m s body
        exact (Program.run_forget _ b).trans hrecord
    | _ => rfl
  rw [← hrun]
  exact Program.segment_eq_run (calls_landing r) b

/-! ## One move -/

def DeskMove.clock : DeskMove → ℚ
  | .arrive a => a.clock
  | .resume _ clock => clock

def DeskMove.request (d : Desk) : DeskMove → Option Request
  | .arrive a => some a.request
  | .resume i _ => d.waiting[i]?.map Waiting.request

def DeskMove.deed (d : Desk) : DeskMove → Deed
  | .arrive a => a.request.arrivalDeed d.process.db
  | .resume i _ => (d.waiting[i]?.map fun w => w.request.landingDeed d.process.db).getD .nothing

def Desk.Suspended (d : Desk) : Prop :=
  ∀ w ∈ d.waiting, w.rest = w.request.awaiting ∧ w.request.upload?.isSome = true

inductive Moves (d d' : Desk) : DeskMove → Prop where
  | handled {a : Arrival} : d'.waiting = d.waiting → d'.arrivals = d.arrivals + 1 →
      Moves d d' (.arrive a)
  | suspended {a : Arrival} {m s : Uuid} : a.request.upload? = some (m, s) →
      Admitted d.process.db m s →
      d'.waiting = d.waiting ++ [⟨d.arrivals, a.request, a.request.awaiting⟩] →
      d'.arrivals = d.arrivals + 1 → Moves d d' (.arrive a)
  | landed {i : Nat} {clock : ℚ} {w : Waiting} : d.waiting[i]? = some w →
      d'.waiting = d.waiting.eraseIdx i → d'.arrivals = d.arrivals → Moves d d' (.resume i clock)

/-- A move does to the process what its segment's deed does to the tables, and moves the
waiting handlers so. -/
theorem desk_process {d d' : Desk} {l : DeskMove} (hsuspended : d.Suspended)
    (hnext : desk.next d l = some d') :
    d'.process = { d.process with
        clock := l.clock, db := (l.deed d).apply l.clock d.process.db } ∧ Moves d d' l := by
  cases l with
  | arrive a =>
      simp only [desk, Option.ite_none_right_eq_some, Option.some.injEq] at hnext
      obtain ⟨_, rfl⟩ := hnext
      let b : Process := { d.process with clock := a.clock }
      cases hupload : a.request.upload? with
      | none =>
          obtain ⟨result, hsegment⟩ := segment_program b hupload
          rw [hsegment]
          exact ⟨rfl, .handled rfl rfl⟩
      | some target =>
          have hdeed : (DeskMove.arrive a).deed d = .nothing := by
            simp [DeskMove.deed, Request.arrivalDeed, hupload]
          rw [hdeed]
          rcases segment_upload b hupload with ⟨hadmitted, hsegment⟩ | ⟨result, hsegment⟩
          · rw [hsegment]
            exact ⟨rfl, .suspended hupload hadmitted rfl rfl⟩
          · rw [hsegment]
            exact ⟨rfl, .handled rfl rfl⟩
  | resume i clock =>
      simp only [desk] at hnext
      cases hw : d.waiting[i]? with
      | none => simp [hw] at hnext
      | some w =>
          simp only [hw, Option.ite_none_right_eq_some, Option.some.injEq] at hnext
          obtain ⟨_, rfl⟩ := hnext
          let b : Process := { d.process with clock }
          obtain ⟨result, hresume⟩ := resume_awaiting b w.request
          rw [(hsuspended w (List.mem_of_getElem? hw)).1, hresume]
          exact ⟨by simp [Desk.settle, DeskMove.deed, DeskMove.clock, hw, b], .landed hw rfl rfl⟩

/-- A move writes what its segment's deed writes and moves the waiting handlers so. -/
theorem desk_spec {d d' : Desk} {l : DeskMove} (hsuspended : d.Suspended)
    (hnext : desk.next d l = some d') :
    d'.process.db = (l.deed d).apply l.clock d.process.db ∧ Moves d d' l :=
  (desk_process hsuspended hnext).imp_left (congrArg Process.db)

theorem Moves.mem_waiting {d d' : Desk} {l : DeskMove} (h : Moves d d' l) {w : Waiting}
    (hw : w ∈ d'.waiting) : w ∈ d.waiting ∨
      ∃ a m s, l = .arrive a ∧ a.request.upload? = some (m, s) ∧ Admitted d.process.db m s ∧
        w = ⟨d.arrivals, a.request, a.request.awaiting⟩ ∧ d'.arrivals = d.arrivals + 1 := by
  cases h with
  | handled hsame _ => exact Or.inl (hsame ▸ hw)
  | suspended hupload hadmitted hnew hcount =>
      rw [hnew, List.mem_append, List.mem_singleton] at hw
      exact hw.imp_right fun hw => ⟨_, _, _, rfl, hupload, hadmitted, hw, hcount⟩
  | landed _ hfewer _ => exact Or.inl (List.mem_of_mem_eraseIdx (hfewer ▸ hw))

theorem Moves.arrivals_le {d d' : Desk} {l : DeskMove} (h : Moves d d' l) :
    d.arrivals ≤ d'.arrivals := by
  cases h <;> omega

theorem Desk.Suspended.step {d d' : Desk} {l : DeskMove} (h : d.Suspended)
    (hnext : desk.next d l = some d') : d'.Suspended := by
  intro w hw
  rcases (desk_spec h hnext).2.mem_waiting hw with hw | ⟨a, m, s, _, hupload, _, rfl, _⟩
  · exact h w hw
  · exact ⟨rfl, by simp [hupload]⟩

theorem suspended_run {b : Process} {d : Desk} {ts : List (Transition Desk DeskMove)}
    (hrun : desk.Run ⟨b, 0, []⟩ ts d) : d.Suspended :=
  hrun.invariant (by simp [Desk.Suspended]) fun _ _ _ h hnext => h.step hnext

/-! ## The deeds of segments -/

theorem landingDeed_valid (db : Database) (r : Request) : (r.landingDeed db).Valid db := by
  cases r with
  | uploadCapture m s angle image => exact captureDeed_valid db uploadTexts m s (.text angle) image
  | uploadCaptureB64 m s body => exact bodyDeed_valid db m s body
  | _ => trivial

theorem DeskMove.deed_valid (d : Desk) (l : DeskMove) : (l.deed d).Valid d.process.db := by
  cases l with
  | arrive a =>
      simp only [DeskMove.deed, Request.arrivalDeed]
      split
      · trivial
      · exact Enrollment.deed_valid d.process.db a.request
  | resume i clock =>
      cases hw : d.waiting[i]? with
      | none => simp [DeskMove.deed, hw, Deed.Valid]
      | some w => simpa [DeskMove.deed, hw] using landingDeed_valid d.process.db w.request

theorem landingDeed_eq_capture {db : Database} {r : Request} {m s : Uuid} {encoding : Encoding}
    {stored : String} {columns : Option Database.SessionColumns}
    (h : r.landingDeed db = .capture m s encoding stored columns) :
    r.upload? = some (m, s) ∧ Captures db m s columns := by
  cases r with
  | uploadCapture m' s' angle image =>
      obtain ⟨rfl, rfl, hcaptures⟩ := captureDeed_eq_capture h
      exact ⟨rfl, hcaptures⟩
  | uploadCaptureB64 m' s' body =>
      obtain ⟨rfl, rfl, hcaptures⟩ := bodyDeed_eq_capture h
      exact ⟨rfl, hcaptures⟩
  | _ => cases h

end FacialCamera.Enrollment
