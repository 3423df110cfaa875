import FacialCamera.Recognition.Interleaved
import Mathlib.Data.List.Perm.Basic

/-! # Opening the Settings screen

The effect of the mount reads the flags from the Pi, then the phone's own copies,
which win, and then sets `prefsReady`; three more effects write back what the
switches show. The connection fields, which it reads first, play no part in this.
Opening the screen leaves the Pi alone exactly where every copy that is written, or
shown, already agrees with it.
-/

namespace FacialCamera.Screen

open FacialCamera.Core Backend Recognition

/-- A request is answered, is executed without its answer arriving in time, or fails before. -/
inductive Delivery where
  | answered
  | timedOut
  | failed
  deriving DecidableEq

/-- What the network and the phone's storage do during the mount. The three write requests
reach the Pi in any order. -/
structure Mounting where
  ping : Delivery
  confidence : Delivery
  motion : Delivery
  autoLock : Delivery
  readable : Flag → Bool
  saved : Flag → Bool
  write : Flag → Delivery
  order : List Flag
  order_perm : order.Perm [.autoLockOnUnknown, .motionDetectionEnabled, .motionAlertsEnabled]

structure SettingsScreen where
  threshold : ℤ := 60
  switches : Flag → Bool := fun _ => true
  piOnline : Option Bool := none
  prefsReady : Bool := false

def storageKey : Flag → String
  | .autoLockOnUnknown => "@settings_auto_lock"
  | .motionDetectionEnabled => "@live_camera_motion_detection"
  | .motionAlertsEnabled => "@live_camera_motion_alerts"

abbrev AsyncStorage : Type := String → Option String

def call (o : Delivery) (a : ApiRequest) (h : House) : Option Body × House :=
  match o with
  | .answered => execute nobody a h
  | .timedOut => (none, (execute nobody a h).2)
  | .failed => (none, h)

/-- `String(value)`. -/
def boolText (value : Bool) : String := if value then "true" else "false"

def writeRequest (value : Bool) : Flag → ApiRequest
  | .autoLockOnUnknown => .setAutolock value
  | .motionDetectionEnabled => .setMotionSettings (some value) none
  | .motionAlertsEnabled => .setMotionSettings none (some value)

namespace SettingsScreen

/-- `Math.round(remote * 100)`. -/
def setThreshold (p : SettingsScreen) (remote : ℚ) : SettingsScreen :=
  { p with threshold := (remote * 100 + 1 / 2).floor }

def setMotion (p : SettingsScreen) (motion : MotionSettings) : SettingsScreen :=
  { p with switches := fun
    | .motionDetectionEnabled => motion.motionDetection
    | .motionAlertsEnabled => motion.motionAlerts
    | .autoLockOnUnknown => p.switches .autoLockOnUnknown }

def setAutoLock (p : SettingsScreen) (remoteAutoLock : Bool) : SettingsScreen :=
  { p with switches := Function.update p.switches .autoLockOnUnknown remoteAutoLock }

/-- The reads of the `if (online)` block, each with its own `catch`. -/
def readRemote (p : SettingsScreen) (o : Mounting) (h : House) : SettingsScreen × House :=
  let (confidence, h) := call o.confidence .getConfidence h
  let p := match confidence with
    | some (.confidenceThreshold remote) => p.setThreshold remote
    | _ => p
  let (motion, h) := call o.motion .getMotionSettings h
  let p := match motion with
    | some (.motion motion) => p.setMotion motion
    | _ => p
  let (autoLock, h) := call o.autoLock .getAutolock h
  let p := match autoLock with
    | some (.autoLock remote) => p.setAutoLock remote
    | _ => p
  (p, h)

/-- The stored copies replace what is there. -/
def readStored (p : SettingsScreen) (stored : AsyncStorage) : SettingsScreen :=
  { p with
    switches := fun flag =>
      match stored (storageKey flag) with
      | some text => text = "true"
      | none => p.switches flag
    prefsReady := true }

/-- The mount's own effect; it ends early where an item of the storage cannot be read. -/
def mountEffect (o : Mounting) (stored : AsyncStorage) (h : House) : SettingsScreen × House :=
  let (pong, h) := call o.ping .health h
  let p : SettingsScreen := { piOnline := some pong.isSome }
  let (p, h) := if pong.isSome then p.readRemote o h else (p, h)
  if o.readable .autoLockOnUnknown && o.readable .motionDetectionEnabled &&
      o.readable .motionAlertsEnabled then
    (p.readStored stored, h)
  else (p, h)

/-- The request of the effect of one switch. -/
def writeBack (p : SettingsScreen) (o : Mounting) (h : House) (flag : Flag) : House :=
  (call (o.write flag) (writeRequest (p.switches flag) flag) h).2

def store (p : SettingsScreen) (o : Mounting) (stored : AsyncStorage) : AsyncStorage := fun key =>
  match [Flag.autoLockOnUnknown, .motionDetectionEnabled, .motionAlertsEnabled].find? fun flag =>
      storageKey flag = key ∧ o.saved flag = true with
  | some flag => some (boolText (p.switches flag))
  | none => stored key

def mount (o : Mounting) (stored : AsyncStorage) (h : House) :
    SettingsScreen × AsyncStorage × House :=
  let (p, h) := mountEffect o stored h
  if p.prefsReady then (p, p.store o stored, o.order.foldl (p.writeBack o) h) else (p, stored, h)

end SettingsScreen

/-! ## Looking changes nothing -/

namespace Mounting

variable (o : Mounting)

def StorageReads : Prop := ∀ flag, o.readable flag = true

def read : Flag → Delivery
  | .autoLockOnUnknown => o.autoLock
  | _ => o.motion

def Reads (flag : Flag) : Prop := o.ping = .answered ∧ o.read flag = .answered

instance (flag : Flag) : Decidable (o.Reads flag) := inferInstanceAs (Decidable (_ ∧ _))

structure ReadsAll : Prop where
  ping : o.ping = .answered
  confidence : o.confidence = .answered
  motion : o.motion = .answered
  autoLock : o.autoLock = .answered
  storage : o.StorageReads

end Mounting

/-- The Pi's flags are as before, and after reads that all succeeded the switches show them. -/
structure LooksOnly (o : Mounting) (stored : AsyncStorage) (h : House) : Prop where
  unchanged : (SettingsScreen.mount o stored h).2.2.shared.flags = h.shared.flags
  shown : o.ReadsAll → (SettingsScreen.mount o stored h).1.switches = h.shared.flags

/-- Where the storage can be read: a stored copy that is written to the Pi or shown after
reads that all succeeded is the Pi's value, and a flag without a copy that is written
without having been read has its default there. -/
structure CopiesAgree (o : Mounting) (stored : AsyncStorage) (h : House) : Prop where
  copied : o.StorageReads → ∀ flag text, stored (storageKey flag) = some text →
    o.write flag ≠ .failed ∨ o.ReadsAll → decide (text = "true") = h.shared.flags flag
  unset : o.StorageReads → ∀ flag, stored (storageKey flag) = none → o.write flag ≠ .failed →
    ¬ o.Reads flag → h.shared.flags flag = true

/-! ## Reads and writes at the Pi -/

theorem call_read {o : Delivery} {a : ApiRequest} {h : House} {body : Body}
    (hread : execute nobody a h = (some body, h)) :
    call o a h = (if o = .answered then some body else none, h) := by
  cases o <;> simp [call, hread]

theorem flags_call_write (o : Delivery) (value : Bool) (flag : Flag) (h : House) :
    (call o (writeRequest value flag) h).2.shared.flags =
      if o = .failed then h.shared.flags else Function.update h.shared.flags flag value := by
  cases o <;> cases flag <;> rfl

namespace SettingsScreen

variable {o : Mounting} {stored : AsyncStorage} {h : House}

/-- What a switch is set to by the mount. -/
def pushed (o : Mounting) (stored : AsyncStorage) (h : House) (flag : Flag) : Bool :=
  match stored (storageKey flag) with
  | some text => text = "true"
  | none => if o.Reads flag then h.shared.flags flag else true

theorem readRemote_spec (p : SettingsScreen) (o : Mounting) (h : House) :
    (p.readRemote o h).2 = h ∧ (p.readRemote o h).1.prefsReady = p.prefsReady ∧
      ∀ flag, (p.readRemote o h).1.switches flag =
        if o.read flag = .answered then h.shared.flags flag else p.switches flag := by
  have hconfidence := call_read (o := o.confidence) (a := .getConfidence) (h := h) rfl
  have hmotion := call_read (o := o.motion) (a := .getMotionSettings) (h := h) rfl
  have hautoLock := call_read (o := o.autoLock) (a := .getAutolock) (h := h) rfl
  simp only [readRemote, hconfidence, hmotion, hautoLock]
  refine ⟨trivial, ?_, fun flag => ?_⟩
  · cases o.confidence <;> cases o.motion <;> cases o.autoLock <;> rfl
  · cases flag <;> cases o.confidence <;> cases hm : o.motion <;> cases hl : o.autoLock <;>
      simp [Mounting.read, hm, hl, setMotion, setAutoLock, setThreshold]

theorem storageReads_iff : o.StorageReads ↔ (o.readable .autoLockOnUnknown &&
    o.readable .motionDetectionEnabled && o.readable .motionAlertsEnabled) = true := by
  simp only [Bool.and_eq_true]
  constructor
  · intro hreads
    exact ⟨⟨hreads _, hreads _⟩, hreads _⟩
  · intro ⟨⟨hautoLock, hdetection⟩, halerts⟩ flag
    cases flag <;> assumption

instance : Decidable o.StorageReads := decidable_of_iff _ storageReads_iff.symm

theorem mountEffect_spec (o : Mounting) (stored : AsyncStorage) (h : House) :
    (mountEffect o stored h).2 = h ∧
      ((mountEffect o stored h).1.prefsReady = true ↔ o.StorageReads) ∧
      (o.StorageReads → (mountEffect o stored h).1.switches = pushed o stored h) := by
  have hping := call_read (o := o.ping) (a := .health) (h := h) rfl
  -- What the Pi has said before the storage is read.
  obtain ⟨p, hp, hready, hremote⟩ : ∃ p : SettingsScreen, mountEffect o stored h =
      (if o.readable .autoLockOnUnknown && o.readable .motionDetectionEnabled &&
        o.readable .motionAlertsEnabled then (p.readStored stored, h) else (p, h)) ∧
      p.prefsReady = false ∧
      ∀ flag, p.switches flag = if o.Reads flag then h.shared.flags flag else true := by
    by_cases hanswered : o.ping = .answered
    · have hspec := readRemote_spec { piOnline := some true } o h
      refine ⟨({ piOnline := some true : SettingsScreen }.readRemote o h).1, ?_, hspec.2.1,
        fun flag => ?_⟩
      · simp only [mountEffect, hping, if_pos hanswered, Option.isSome_some, if_true, hspec.1]
      · rw [hspec.2.2 flag]
        simp [Mounting.Reads, hanswered]
    · refine ⟨{ piOnline := some false }, ?_, rfl, fun flag => ?_⟩
      · simp only [mountEffect, hping, if_neg hanswered, Option.isSome_none, Bool.false_eq_true,
          if_false]
      · simp [Mounting.Reads, hanswered]
  rw [hp, storageReads_iff]
  by_cases hreads : (o.readable .autoLockOnUnknown && o.readable .motionDetectionEnabled &&
      o.readable .motionAlertsEnabled) = true
  · rw [if_pos hreads]
    refine ⟨rfl, iff_of_true rfl hreads, fun _ => funext fun flag => ?_⟩
    simp only [readStored, pushed, hremote]
  · rw [if_neg hreads]
    exact ⟨rfl, by simp [hready, hreads], fun hall => absurd hall hreads⟩

/-- A flag has what its request has written, if one reached the Pi. -/
theorem flags_writeBack (p : SettingsScreen) (o : Mounting) (h : House) (order : List Flag)
    (flag : Flag) : (order.foldl (p.writeBack o) h).shared.flags flag =
      if flag ∈ order ∧ o.write flag ≠ .failed then p.switches flag else h.shared.flags flag := by
  induction order generalizing h with
  | nil => simp
  | cons head rest ih =>
      have hhead : (p.writeBack o h head).shared.flags = if o.write head = .failed then
          h.shared.flags else Function.update h.shared.flags head (p.switches head) :=
        flags_call_write _ _ _ _
      rw [List.foldl_cons, ih, hhead]
      by_cases hrest : flag ∈ rest ∧ o.write flag ≠ .failed
      · rw [if_pos hrest, if_pos ⟨List.mem_cons_of_mem _ hrest.1, hrest.2⟩]
      · rw [if_neg hrest]
        by_cases hflag : flag = head
        · subst hflag
          by_cases hfailed : o.write flag = .failed <;> simp [hfailed]
        · have hsame : (flag ∈ head :: rest ∧ o.write flag ≠ .failed) ↔
              (flag ∈ rest ∧ o.write flag ≠ .failed) := by
            simp [hflag]
          rw [if_neg (hsame.not.mpr hrest)]
          by_cases hfailed : o.write head = .failed <;> simp [hfailed, hflag]

theorem mem_order (o : Mounting) (flag : Flag) : flag ∈ o.order := by
  rw [o.order_perm.mem_iff]
  cases flag <;> simp

/-- What the mount does to the flags and shows. -/
theorem mount_spec (o : Mounting) (stored : AsyncStorage) (h : House) :
    (∀ flag, (mount o stored h).2.2.shared.flags flag =
      if o.StorageReads ∧ o.write flag ≠ .failed then pushed o stored h flag
      else h.shared.flags flag) ∧
    (o.StorageReads → (mount o stored h).1.switches = pushed o stored h) := by
  have heffect := mountEffect_spec o stored h
  have hmount : mount o stored h =
      if (mountEffect o stored h).1.prefsReady then
        ((mountEffect o stored h).1, (mountEffect o stored h).1.store o stored,
          o.order.foldl ((mountEffect o stored h).1.writeBack o) (mountEffect o stored h).2)
      else ((mountEffect o stored h).1, stored, (mountEffect o stored h).2) := rfl
  rw [hmount]
  by_cases hready : (mountEffect o stored h).1.prefsReady = true
  · have hreads := heffect.2.1.mp hready
    rw [if_pos hready]
    refine ⟨fun flag => ?_, fun _ => heffect.2.2 hreads⟩
    simp only [flags_writeBack, mem_order, true_and, hreads, heffect.1, heffect.2.2 hreads]
  · have hunread : ¬ o.StorageReads := fun hreads => hready (heffect.2.1.mpr hreads)
    rw [if_neg hready]
    refine ⟨fun flag => ?_, fun hreads => absurd hreads hunread⟩
    simp only [hunread, false_and, if_false, heffect.1]

end SettingsScreen

variable {o : Mounting} {stored : AsyncStorage} {h : House}

/-- The values that are written or shown, in the terms of what was stored and read. -/
theorem copiesAgree_iff : CopiesAgree o stored h ↔ (o.StorageReads → ∀ flag,
    o.write flag ≠ .failed ∨ o.ReadsAll →
      SettingsScreen.pushed o stored h flag = h.shared.flags flag) := by
  have hall (flag : Flag) (hreads : o.ReadsAll) : o.Reads flag := by
    refine ⟨hreads.ping, ?_⟩
    cases flag
    · exact hreads.motion
    · exact hreads.motion
    · exact hreads.autoLock
  constructor
  · intro hagree hstorage flag hpushed
    unfold SettingsScreen.pushed
    cases hcopy : stored (storageKey flag) with
    | some text => exact hagree.copied hstorage flag text hcopy hpushed
    | none =>
        dsimp only
        by_cases hread : o.Reads flag
        · rw [if_pos hread]
        · rw [if_neg hread]
          have hwritten := hpushed.resolve_right fun hreads => hread (hall flag hreads)
          exact (hagree.unset hstorage flag hcopy hwritten hread).symm
  · intro hpushed
    constructor
    · intro hstorage flag text hcopy hwritten
      have hvalue := hpushed hstorage flag hwritten
      rwa [SettingsScreen.pushed, hcopy] at hvalue
    · intro hstorage flag hcopy hwritten hread
      have hvalue := hpushed hstorage flag (Or.inl hwritten)
      rw [SettingsScreen.pushed, hcopy] at hvalue
      dsimp only at hvalue
      rw [if_neg hread] at hvalue
      exact hvalue.symm

/-- Opening the screen changes nothing and shows the Pi's values if and only if the copies
agree with the Pi. -/
theorem looksOnly_iff : LooksOnly o stored h ↔ CopiesAgree o stored h := by
  have hmount := SettingsScreen.mount_spec o stored h
  rw [copiesAgree_iff]
  constructor
  · intro hlooks hstorage flag hpushed
    rcases hpushed with hwritten | hreads
    · have hflag := congrFun hlooks.unchanged flag
      rwa [hmount.1 flag, if_pos ⟨hstorage, hwritten⟩] at hflag
    · exact congrFun ((hmount.2 hstorage).symm.trans (hlooks.shown hreads)) flag
  · intro hpushed
    constructor
    · funext flag
      rw [hmount.1 flag]
      by_cases hwritten : o.StorageReads ∧ o.write flag ≠ .failed
      · rw [if_pos hwritten]
        exact hpushed hwritten.1 flag (Or.inl hwritten.2)
      · rw [if_neg hwritten]
    · intro hreads
      rw [hmount.2 hreads.storage]
      exact funext fun flag => hpushed hreads.storage flag (Or.inr hreads)

def allSucceed : Mounting :=
  ⟨.answered, .answered, .answered, .answered, fun _ => true, fun _ => true, fun _ => .answered,
    [.autoLockOnUnknown, .motionDetectionEnabled, .motionAlertsEnabled], .refl _⟩

/-- The phone remembers the automatic lock as switched off, and the Pi has it on. -/
theorem not_always_looksOnly :
    ¬ ∀ (o : Mounting) (stored : AsyncStorage) (h : House), LooksOnly o stored h := by
  intro halways
  have hlooks := halways allSucceed
    (fun key => if key = "@settings_auto_lock" then some "false" else none) (powerOn false 0)
  have hflag := congrFun hlooks.unchanged .autoLockOnUnknown
  revert hflag
  decide +kernel

end FacialCamera.Screen
