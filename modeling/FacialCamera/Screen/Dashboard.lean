import FacialCamera.Screen.DoorButton
import FacialCamera.Screen.Notifications

/-! # The Dashboard and Camera screens

Both load the state of the Pi every few seconds and have the door button; the
Dashboard also rings the doorbell and then loads again. `pingPi` takes part in
their `Promise.all`, never rejects and sets nothing but the online mark, so it is
left out.
-/

namespace FacialCamera.Screen

open FacialCamera.Core Backend Recognition

/-! ## Dashboard -/

structure Dashboard where
  locked : Bool := true
  toggling : Bool := false
  ringing : Bool := false
  logs : List LogEntry := []
  stats : Option Stats := none
  initialLoad : Bool := true

/-- What a promise of the Dashboard is for: a load, of the doorbell's handler or not, the
command of the button with the value displayed at its press, or the doorbell. -/
inductive DashboardTask where
  | load (ofBell : Bool)
  | toggle (locked : Bool)
  | bell

inductive DashboardPress where
  | load
  | toggleDoor
  | handleDoorbell

namespace Dashboard

def loadRequests : List ApiRequest := [.doorStatus, .getLogs 5, .getStats]

/-- The end of a successful `load`. -/
def load (p : Dashboard) (status : DoorStatus) (entries : List LogEntry) (dashStats : Stats) :
    Dashboard :=
  { p with locked := status.locked, logs := entries, stats := some dashStats, initialLoad := false }

/-- `finally { setRinging(false); }` once the load of the doorbell's handler is over. -/
def rung (p : Dashboard) (ofBell : Bool) : Dashboard :=
  { p with ringing := if ofBell then false else p.ringing }

def act : DashboardPress → Dashboard → Option (Dashboard × List (DashboardTask × List ApiRequest))
  | .load, p => some (p, [(.load false, loadRequests)])
  | .toggleDoor, p =>
      if p.toggling then none
      else some ({ p with toggling := true }, [(.toggle p.locked, [doorCommand p.locked])])
  | .handleDoorbell, p =>
      if p.ringing then none else some ({ p with ringing := true }, [(.bell, [.doorbell])])

def resolve : DashboardTask → List Body → Dashboard →
    Dashboard × List (DashboardTask × List ApiRequest)
  | .load ofBell, [.door status, .logs entries, .stats dashStats], p =>
      ((p.load status entries dashStats).rung ofBell, [])
  | .load ofBell, _, p => (p.rung ofBell, [])
  | .toggle _, _, p => ({ p with locked := !p.locked, toggling := false }, [])
  | .bell, [.doorbell (.authorized _ _)], p =>
      ({ p with locked := false }, [(.load true, loadRequests)])
  | .bell, _, p => (p, [(.load true, loadRequests)])

def reject : DashboardTask → Dashboard → Dashboard × List (DashboardTask × List ApiRequest)
  | .load ofBell, p => ({ p with initialLoad := false }.rung ofBell, [])
  | .toggle _, p => ({ p with toggling := false }, [])
  | .bell, p => ({ p with ringing := false }, [])

end Dashboard

def dashboard : Client Dashboard DashboardPress DashboardTask ApiRequest Body where
  act := Dashboard.act
  resolve := Dashboard.resolve
  reject := Dashboard.reject

/-! ## Camera -/

structure LiveCamera where
  locked : Bool := true
  toggling : Bool := false
  lastEvent : Option LogEntry := none

inductive CameraTask where
  | loadStatus
  | toggle (locked : Bool)

inductive CameraPress where
  | loadStatus
  | toggleDoor

namespace LiveCamera

def relevant (l : LogEntry) : Bool := l.type = .authorized || l.type = .unknown || l.type = .motion

def act : CameraPress → LiveCamera → Option (LiveCamera × List (CameraTask × List ApiRequest))
  | .loadStatus, p => some (p, [(.loadStatus, [.doorStatus, .getLogs 10])])
  | .toggleDoor, p =>
      if p.toggling then none
      else some ({ p with toggling := true }, [(.toggle p.locked, [doorCommand p.locked])])

def resolve : CameraTask → List Body → LiveCamera → LiveCamera × List (CameraTask × List ApiRequest)
  | .loadStatus, [.door status, .logs entries], p =>
      ({ p with locked := status.locked, lastEvent := entries.find? relevant }, [])
  | .loadStatus, _, p => (p, [])
  | .toggle _, _, p => ({ p with locked := !p.locked, toggling := false }, [])

def reject : CameraTask → LiveCamera → LiveCamera × List (CameraTask × List ApiRequest)
  | .loadStatus, p => (p, [])
  | .toggle _, p => ({ p with toggling := false }, [])

end LiveCamera

def liveCamera : Client LiveCamera CameraPress CameraTask ApiRequest Body where
  act := LiveCamera.act
  resolve := LiveCamera.resolve
  reject := LiveCamera.reject

/-! ## Their door buttons -/

def dashboardButton : DoorButton dashboard where
  locked p := p.locked
  toggling p := p.toggling
  pressed
    | .toggle locked => some locked
    | _ => none
  sets
    | .load _, [.door status, .logs _, .stats _] => some status.locked
    | .bell, [.doorbell (.authorized _ _)] => some false
    | _, _ => none
  act e p out hact := by
    cases e with
    | load =>
        cases hact
        exact ⟨rfl, Or.inl ⟨rfl, by simp⟩⟩
    | toggleDoor =>
        obtain ⟨hidle, hout⟩ := Option.ite_none_left_eq_some.mp hact
        cases hout
        exact ⟨rfl, Or.inr ⟨by simpa using hidle, rfl, _, rfl, rfl⟩⟩
    | handleDoorbell =>
        obtain ⟨_, hout⟩ := Option.ite_none_left_eq_some.mp hact
        cases hout
        exact ⟨rfl, Or.inl ⟨rfl, by simp⟩⟩
  set tag bs p hpressed := by
    cases tag with
    | toggle => cases hpressed
    | load ofBell =>
        show (Dashboard.resolve (.load ofBell) bs p).1.locked = _ ∧
          (Dashboard.resolve (.load ofBell) bs p).1.toggling = _ ∧
            ∀ new ∈ (Dashboard.resolve (.load ofBell) bs p).2, _
        unfold Dashboard.resolve
        split <;> simp_all [Dashboard.rung, Dashboard.load]
    | bell =>
        show (Dashboard.resolve .bell bs p).1.locked = _ ∧
          (Dashboard.resolve .bell bs p).1.toggling = _ ∧
            ∀ new ∈ (Dashboard.resolve .bell bs p).2, _
        unfold Dashboard.resolve
        split <;> simp_all
  turn tag bs p l hpressed := by
    cases tag with
    | toggle => exact ⟨rfl, rfl, rfl⟩
    | _ => cases hpressed
  reject tag p := by
    cases tag <;> exact ⟨rfl, rfl, fun _ hnew => by cases hnew⟩

def liveCameraButton : DoorButton liveCamera where
  locked p := p.locked
  toggling p := p.toggling
  pressed
    | .toggle locked => some locked
    | .loadStatus => none
  sets
    | .loadStatus, [.door status, .logs _] => some status.locked
    | _, _ => none
  act e p out hact := by
    cases e with
    | loadStatus =>
        cases hact
        exact ⟨rfl, Or.inl ⟨rfl, by simp⟩⟩
    | toggleDoor =>
        obtain ⟨hidle, hout⟩ := Option.ite_none_left_eq_some.mp hact
        cases hout
        exact ⟨rfl, Or.inr ⟨by simpa using hidle, rfl, _, rfl, rfl⟩⟩
  set tag bs p hpressed := by
    cases tag with
    | toggle => cases hpressed
    | loadStatus =>
        show (LiveCamera.resolve .loadStatus bs p).1.locked = _ ∧
          (LiveCamera.resolve .loadStatus bs p).1.toggling = _ ∧
            ∀ new ∈ (LiveCamera.resolve .loadStatus bs p).2, _
        unfold LiveCamera.resolve
        split <;> simp_all
  turn tag bs p l hpressed := by
    cases tag with
    | toggle => exact ⟨rfl, rfl, rfl⟩
    | loadStatus => cases hpressed
  reject tag p := by
    cases tag <;> exact ⟨rfl, rfl, fun _ hnew => by cases hnew⟩

/-! ## What the button shows -/

abbrev DashboardRun (onPi : Bool) (clock : Timestamp) :=
  (remote dashboard pi).Run (.idle {} (powerOn onPi clock))

abbrev CameraRun (onPi : Bool) (clock : Timestamp) :=
  (remote liveCamera pi).Run (.idle {} (powerOn onPi clock))

/-- On both screens the lock button shows what it commanded exactly if the last value that a
status poll or the doorbell has set since its press is the one displayed then. -/
theorem button_shows_command_iff (onPi : Bool) (clock : Timestamp) :
    (∀ ts s, DashboardRun onPi clock ts s →
      (Machine.EachStep dashboardButton.ShowsCommand ts ↔
        Machine.EachStep dashboardButton.KeptSincePress ts)) ∧
    (∀ ts s, CameraRun onPi clock ts s →
      (Machine.EachStep liveCameraButton.ShowsCommand ts ↔
        Machine.EachStep liveCameraButton.KeptSincePress ts)) := by
  constructor
  · intro ts s hrun
    exact dashboardButton.showsCommand_iff hrun
  · intro ts s hrun
    exact liveCameraButton.showsCommand_iff hrun

def dashboardLoad (i : Nat) : List (DoorwayMove DashboardPress) :=
  [.act .load, .execute i 0 nobody, .execute i 1 nobody, .execute i 2 nobody, .resolve i]

/-- Loads around a press leave the button right. -/
theorem dashboard_shows_unlock : ∃ ts s, DashboardRun false 0 ts s ∧
    Machine.EachStep dashboardButton.ShowsCommand ts ∧
      (s.client.locked, s.server.shared.db.doorLocked) = (false, false) := by
  have hend : ((remote dashboard pi).trace (.idle {} (powerOn false 0))
      (dashboardLoad 0 ++ [.act .toggleDoor, .execute 1 0 nobody, .resolve 1] ++
        dashboardLoad 2)).map (fun (ts, s) =>
        (decide (Machine.EachStep dashboardButton.KeptSincePress ts),
          (s.client.locked, s.server.shared.db.doorLocked))) = some (true, (false, false)) := by
    decide +kernel
  obtain ⟨ts, s, hrun, hview⟩ := Machine.exists_run_of_view hend
  obtain ⟨hsteps, hdoor⟩ := Prod.mk.inj hview
  have hshows := ((button_shows_command_iff false 0).1 ts s hrun).mpr (of_decide_eq_true hsteps)
  exact ⟨ts, s, hrun, hshows, hdoor⟩

/-- A load that is answered between the unlock and its answer turns the display back. -/
theorem not_always_shows_command :
    ¬ ∀ (ts : List (Transition (Doorway Dashboard DashboardTask) (DoorwayMove DashboardPress)))
      (s : Doorway Dashboard DashboardTask), DashboardRun false 0 ts s →
        Machine.EachStep dashboardButton.ShowsCommand ts := by
  intro halways
  have hend : ((remote dashboard pi).trace (.idle {} (powerOn false 0))
      ([.act .toggleDoor, .execute 0 0 nobody] ++ dashboardLoad 1 ++ [.resolve 0])).map
      (fun (ts, _) => ts.getLast?.map fun t => (dashboardButton.completed t,
        DoorButton.putOnPi ts.dropLast 0, dashboardButton.locked t.after.client)) =
      some (some (some (0, true), some false, true)) := by
    decide +kernel
  obtain ⟨ts, s, hrun, hview⟩ := Machine.exists_run_of_view hend
  obtain ⟨t, hlast, hview⟩ := Option.map_eq_some_iff.mp hview
  obtain ⟨hcompleted, hrest⟩ := Prod.mk.inj hview
  obtain ⟨hput, hlocked⟩ := Prod.mk.inj hrest
  obtain ⟨us, rfl⟩ := List.getLast?_eq_some_iff.mp hlast
  rw [List.dropLast_concat] at hput
  have hshows := (halways _ s hrun us t List.prefix_rfl 0 true hcompleted).1
  rw [hput, hlocked] at hshows
  cases hshows

end FacialCamera.Screen
