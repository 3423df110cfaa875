import FacialCamera.Core.Text

/-! # The connection settings

`config.ts` keeps the Pi's address and port in the phone's storage, and the Settings
screen saves them. What the code takes for an IPv4 address is four dot-separated runs
of digits of value at most 255, so an octet may begin with zeros; and the two writes go
side by side, so one may be made and the other refused.
-/

namespace FacialCamera.Service

open FacialCamera.Core

/-! ## `config.ts` -/

/-- The code units that `trim` takes from the ends: white space and line terminators. -/
def isSpace (c : UInt16) : Bool :=
  let n := c.toNat
  (9 ≤ n && n ≤ 13) || n == 0x20 || n == 0xA0 || n == 0x1680 || (0x2000 ≤ n && n ≤ 0x200A) ||
    n == 0x2028 || n == 0x2029 || n == 0x202F || n == 0x205F || n == 0x3000 || n == 0xFEFF

def trim (s : Text) : Text := strip isSpace s

def dot : UInt16 := 46

def number (part : Text) : Option ℕ := toDouble (numeralValue part)

def isValidIPv4 (ip : Text) : Bool :=
  let parts := (trim ip).splitOn dot
  parts.length == 4 && parts.all fun part =>
    isNumeral part && (number part).any fun n => decide (0 ≤ n) && decide (n ≤ 255)

/-- `Number` trims its argument as `trim` does. -/
def isValidPort (port : Text) : Bool :=
  isNumeral (trim port) &&
    (number (trim port)).any fun n => decide (1 ≤ n) && decide (n ≤ 65535)

structure PiConnectionSettings where
  ip : Text
  port : Text
  deriving DecidableEq

/-- What the phone stores under `PI_IP_KEY`, `PI_PORT_KEY` and `API_KEY_STORAGE_KEY`. -/
structure Stored where
  ip : Option Text
  port : Option Text
  apiKey : Option Text
  deriving DecidableEq

/-- `DEFAULT_PI_IP` and `DEFAULT_PI_PORT`, which `DEFAULT_PI_BASE_URL` is made of. -/
def parseDefaultPiSettings : PiConnectionSettings := ⟨text "172.20.10.4", text "8000"⟩

/-- `value?.trim() || fallback`. -/
def trimmedOr (fallback : Text) (value : Option Text) : Text :=
  match value with
  | none => fallback
  | some s => if trim s = [] then fallback else trim s

/-- `readable`: both items are read. -/
def getPiConnectionSettings (readable : Bool) (s : Stored) : PiConnectionSettings :=
  let defaults := parseDefaultPiSettings
  if readable then ⟨trimmedOr defaults.ip s.ip, trimmedOr defaults.port s.port⟩
  else defaults

def getEffectivePiBaseUrl (readable : Bool) (s : Stored) : Text :=
  let settings := getPiConnectionSettings readable s
  text "http://" ++ settings.ip ++ text ":" ++ settings.port

/-- Why `setPiConnectionSettings` rejects: a check, or a write of the storage. -/
inductive Rejection where
  | ip
  | port
  | storage (message : String)
  deriving DecidableEq

def Rejection.message : Rejection → String
  | .ip => "Please enter a valid IPv4 address (example: 192.168.1.100)."
  | .port => "Please enter a valid port between 1 and 65535."
  | .storage message => message

/-- The outcomes of the two writes; `message` is that of the first to fail. -/
structure Writes where
  ip : Bool
  port : Bool
  message : String

def setPiConnectionSettings (ip port : Text) (w : Writes) (s : Stored) :
    Except Rejection Unit × Stored :=
  let cleanIp := trim ip
  let cleanPort := trim port
  if !isValidIPv4 cleanIp then (.error .ip, s)
  else if !isValidPort cleanPort then (.error .port, s)
  else
    -- `Promise.all` starts both writes, and neither waits for the other
    (if w.ip && w.port then .ok () else .error (.storage w.message),
      { s with
        ip := if w.ip then some cleanIp else s.ip
        port := if w.port then some cleanPort else s.port })

def setApiKey (key : Text) (written : Except String Unit) (s : Stored) :
    Except Rejection Unit × Stored :=
  match written with
  | .ok () => (.ok (), { s with apiKey := some (trim key) })
  | .error message => (.error (.storage message), s)

structure ConnectionForm where
  ip : Text
  port : Text
  apiKeyValue : Text
  editing : Bool
  connError : Option String
  piOnline : Option Bool

def saveConnection (w : Writes) (keyWritten : Except String Unit) (online : Bool)
    (p : ConnectionForm) (s : Stored) : ConnectionForm × Stored :=
  let p := { p with connError := none }
  match setPiConnectionSettings p.ip p.port w s with
  | (.error err, s) => ({ p with connError := some err.message }, s)
  | (.ok (), s) =>
    match setApiKey p.apiKeyValue keyWritten s with
    | (.error err, s) => ({ p with connError := some err.message }, s)
    | (.ok (), s) => ({ p with editing := false, piOnline := some online }, s)

/-! ## Addresses and ports -/

/-- Four octets, each the numeral of a number up to 255, with dots between them. -/
def IsIPv4 (s : Text) : Prop :=
  ∃ octets : List ℕ, octets.length = 4 ∧ (∀ n ∈ octets, n ≤ 255) ∧
    s = [dot].intercalate (octets.map numeral)

/-- The numeral of a number from 1 to 65535, perhaps with zeros before it. -/
def IsPort (s : Text) : Prop :=
  ∃ zeros n : ℕ, 1 ≤ n ∧ n ≤ 65535 ∧ s = List.replicate zeros 48 ++ numeral n

def octetTexts (ip : Text) : List Text := (trim ip).splitOn dot

/-- No octet begins with a zero that its value does not need. -/
def PlainOctets (ip : Text) : Prop := ∀ part ∈ octetTexts ip, Plain part

instance (ip : Text) : Decidable (PlainOctets ip) := inferInstanceAs (Decidable (∀ _ ∈ _, _))

@[simp] theorem trim_trim (s : Text) : trim (trim s) = trim s := strip_strip isSpace s

@[simp] theorem isValidIPv4_trim (ip : Text) : isValidIPv4 (trim ip) = isValidIPv4 ip := by
  simp [isValidIPv4]

@[simp] theorem isValidPort_trim (port : Text) : isValidPort (trim port) = isValidPort port := by
  simp [isValidPort]

theorem isValidIPv4_iff (ip : Text) :
    isValidIPv4 ip = true ↔ (octetTexts ip).length = 4 ∧
      ∀ part ∈ octetTexts ip, isNumeral part = true ∧ numeralValue part ≤ 255 := by
  have hwithin : ∀ part : Text,
      ((number part).any fun n => decide (0 ≤ n) && decide (n ≤ 255)) = true ↔
        numeralValue part ≤ 255 := by
    intro part
    have h := toDouble_within (numeralValue part) 0 255 (by decide)
    simpa only [number, Nat.zero_le, true_and] using h
  simp only [isValidIPv4, Bool.and_eq_true, beq_iff_eq, List.all_eq_true, hwithin, octetTexts]

theorem isValidPort_iff (port : Text) :
    isValidPort port = true ↔ isNumeral (trim port) = true ∧
      1 ≤ numeralValue (trim port) ∧ numeralValue (trim port) ≤ 65535 := by
  have h := toDouble_within (numeralValue (trim port)) 1 65535 (by decide)
  simp only [isValidPort, Bool.and_eq_true, number] at h ⊢
  rw [h]

theorem dot_not_mem_numeral (n : ℕ) : dot ∉ numeral n := by
  intro h
  have hdigit := ((isNumeral_iff _).1 (isNumeral_numeral n)).2 dot h
  exact absurd hdigit (by decide)

/-- An address is a text that the check accepts and that has no leading zeros. -/
theorem isIPv4_trim_iff (ip : Text) :
    IsIPv4 (trim ip) ↔ isValidIPv4 ip = true ∧ PlainOctets ip := by
  rw [isValidIPv4_iff]
  constructor
  · intro ⟨octets, hlength, hbound, hip⟩
    have hne : octets.map numeral ≠ [] := by
      intro hnil
      have hzero := congrArg List.length hnil
      simp [hlength] at hzero
    have hparts : octetTexts ip = octets.map numeral := by
      rw [octetTexts, hip]
      apply List.splitOn_intercalate
      · intro part hpart
        obtain ⟨n, _, rfl⟩ := List.mem_map.1 hpart
        exact dot_not_mem_numeral n
      · exact hne
    rw [PlainOctets, hparts]
    constructor
    · constructor
      · rw [List.length_map, hlength]
      · intro part hpart
        obtain ⟨n, hn, rfl⟩ := List.mem_map.1 hpart
        rw [numeralValue_numeral]
        exact ⟨isNumeral_numeral n, hbound n hn⟩
    · intro part hpart
      obtain ⟨n, _, rfl⟩ := List.mem_map.1 hpart
      exact plain_numeral n
  · intro ⟨⟨hlength, hparts⟩, hplain⟩
    have hback : ((octetTexts ip).map numeralValue).map numeral = octetTexts ip := by
      rw [List.map_map]
      have hid : ∀ part ∈ octetTexts ip, (numeral ∘ numeralValue) part = part := fun part h =>
        numeral_numeralValue (hparts part h).1 (hplain part h)
      exact (List.map_congr_left hid).trans (List.map_id _)
    have hbound : ∀ n ∈ (octetTexts ip).map numeralValue, n ≤ 255 := by
      intro n hn
      obtain ⟨part, hpart, rfl⟩ := List.mem_map.1 hn
      exact (hparts part hpart).2
    have hjoin : trim ip = [dot].intercalate (octetTexts ip) :=
      (List.intercalate_splitOn dot).symm
    exact ⟨(octetTexts ip).map numeralValue, by rw [List.length_map, hlength], hbound,
      by rw [hback, ← hjoin]⟩

theorem isPort_trim_iff (port : Text) : IsPort (trim port) ↔ isValidPort port = true := by
  rw [isValidPort_iff]
  constructor
  · intro ⟨zeros, n, hlow, hhigh, hport⟩
    have hvalue : numeralValue (trim port) = n := by
      rw [hport, numeralValue_zeros, numeralValue_numeral]
    constructor
    · rw [isNumeral_iff_zeros, hvalue]
      exact ⟨zeros, hport⟩
    · rw [hvalue]
      exact ⟨hlow, hhigh⟩
  · intro ⟨hnumeral, hlow, hhigh⟩
    obtain ⟨zeros, hzeros⟩ := (isNumeral_iff_zeros _).1 hnumeral
    exact ⟨zeros, numeralValue (trim port), hlow, hhigh, hzeros⟩

theorem trim_ne_nil_of_isValidIPv4 {ip : Text} (h : isValidIPv4 ip = true) : trim ip ≠ [] := by
  intro hnil
  have hlength := ((isValidIPv4_iff ip).1 h).1
  simp [octetTexts, hnil] at hlength

theorem trim_ne_nil_of_isValidPort {port : Text} (h : isValidPort port = true) :
    trim port ≠ [] := by
  intro hnil
  have hnumeral := ((isValidPort_iff port).1 h).1
  rw [hnil] at hnumeral
  exact absurd hnumeral (by decide)

/-! ## Storing a pair -/

def PassesChecks (r : Except Rejection Unit) : Prop := r ≠ .error .ip ∧ r ≠ .error .port

/-- A pair is rejected and the stored one is as it was, or it is stored trimmed and the
URL is made of it. -/
def StoredWhole (ip port : Text) (w : Writes) (s : Stored) : Prop :=
  let r := setPiConnectionSettings ip port w s
  (r.1 ≠ .ok () ∧ r.2.ip = s.ip ∧ r.2.port = s.port) ∨
    (r.1 = .ok () ∧ r.2.ip = some (trim ip) ∧ r.2.port = some (trim port) ∧
      getEffectivePiBaseUrl true r.2 = text "http://" ++ trim ip ++ text ":" ++ trim port)

/-- Pairs are stored whole, and those accepted are an address and a port. -/
def MeansWhatItSays (ip port : Text) (w : Writes) (s : Stored) : Prop :=
  StoredWhole ip port w s ∧
    (PassesChecks (setPiConnectionSettings ip port w s).1 ↔ IsIPv4 (trim ip) ∧ IsPort (trim port))

/-- The two writes come to both or to neither: they have one outcome, or the only one
that is made writes what was there. -/
def WrittenTogether (ip port : Text) (w : Writes) (s : Stored) : Prop :=
  w.ip = w.port ∨ (w.ip = true ∧ s.ip = some (trim ip)) ∨
    (w.port = true ∧ s.port = some (trim port))

theorem setPiConnectionSettings_refused {ip port : Text} (w : Writes) (s : Stored)
    (h : ¬(isValidIPv4 ip = true ∧ isValidPort port = true)) :
    ¬PassesChecks (setPiConnectionSettings ip port w s).1 ∧
      (setPiConnectionSettings ip port w s).1 ≠ .ok () ∧
      (setPiConnectionSettings ip port w s).2 = s := by
  by_cases hip : isValidIPv4 ip = true
  · have hport : isValidPort port = false := by simpa [hip] using h
    simp [setPiConnectionSettings, PassesChecks, hip, hport]
  · simp only [Bool.not_eq_true] at hip
    simp [setPiConnectionSettings, PassesChecks, hip]

theorem setPiConnectionSettings_valid {ip port : Text} (w : Writes) (s : Stored)
    (hip : isValidIPv4 ip = true) (hport : isValidPort port = true) :
    setPiConnectionSettings ip port w s =
      (if w.ip && w.port then .ok () else .error (.storage w.message),
        { s with
          ip := if w.ip then some (trim ip) else s.ip
          port := if w.port then some (trim port) else s.port }) := by
  simp [setPiConnectionSettings, hip, hport]

theorem passesChecks_valid {ip port : Text} (w : Writes) (s : Stored)
    (hip : isValidIPv4 ip = true) (hport : isValidPort port = true) :
    PassesChecks (setPiConnectionSettings ip port w s).1 := by
  rw [setPiConnectionSettings_valid w s hip hport]
  cases hw : (w.ip && w.port) <;> simp [PassesChecks]

theorem getEffectivePiBaseUrl_stored {ip port : Text} {s : Stored}
    (hip : isValidIPv4 ip = true) (hport : isValidPort port = true)
    (hsip : s.ip = some (trim ip)) (hsport : s.port = some (trim port)) :
    getEffectivePiBaseUrl true s = text "http://" ++ trim ip ++ text ":" ++ trim port := by
  simp [getEffectivePiBaseUrl, getPiConnectionSettings, trimmedOr, hsip, hsport,
    trim_ne_nil_of_isValidIPv4 hip, trim_ne_nil_of_isValidPort hport]

theorem storedWhole_valid_iff {ip port : Text} (w : Writes) (s : Stored)
    (hip : isValidIPv4 ip = true) (hport : isValidPort port = true) :
    StoredWhole ip port w s ↔ WrittenTogether ip port w s := by
  have hurl := fun s => getEffectivePiBaseUrl_stored (s := s) hip hport
  unfold StoredWhole WrittenTogether
  rw [setPiConnectionSettings_valid w s hip hport]
  cases hwip : w.ip <;> cases hwport : w.port
  · simp
  · simp [eq_comm]
  · simp [eq_comm]
  · simp [hurl]

theorem storedWhole_refused {ip port : Text} (w : Writes) (s : Stored)
    (h : ¬(isValidIPv4 ip = true ∧ isValidPort port = true)) : StoredWhole ip port w s := by
  obtain ⟨_, herror, hstored⟩ := setPiConnectionSettings_refused w s h
  left
  rw [hstored]
  exact ⟨herror, rfl, rfl⟩

/-- A pair means what it says exactly where an accepted address has no leading zeros and
its two writes come to both or to neither. -/
theorem meansWhatItSays_iff (ip port : Text) (w : Writes) (s : Stored) :
    MeansWhatItSays ip port w s ↔
      (isValidIPv4 ip = true → isValidPort port = true →
        PlainOctets ip ∧ WrittenTogether ip port w s) := by
  unfold MeansWhatItSays
  rw [isIPv4_trim_iff, isPort_trim_iff]
  by_cases h : isValidIPv4 ip = true ∧ isValidPort port = true
  · obtain ⟨hip, hport⟩ := h
    have haccepted := passesChecks_valid w s hip hport
    rw [storedWhole_valid_iff w s hip hport]
    simp only [haccepted, hip, hport, true_and, and_true, true_iff, true_implies]
    exact and_comm
  · have hwhole := storedWhole_refused w s h
    obtain ⟨hrefused, _, _⟩ := setPiConnectionSettings_refused w s h
    constructor
    · intro _ hip hport
      exact absurd ⟨hip, hport⟩ h
    · intro _
      refine ⟨hwhole, ?_⟩
      constructor
      · intro haccepted
        exact absurd haccepted hrefused
      · intro hspec
        exact absurd ⟨hspec.1.1, hspec.2⟩ h

/-- An address that is read as 192.168.1.8 where a leading zero means octal is stored. -/
theorem not_always_meansWhatItSays :
    ¬MeansWhatItSays (text "192.168.1.010") (text "8000") ⟨true, true, ""⟩
      ⟨none, none, none⟩ := by
  intro ⟨_, haccepts⟩
  have hip : isValidIPv4 (text "192.168.1.010") = true := by
    rw [isValidIPv4_iff]
    decide
  have hport : isValidPort (text "8000") = true := by
    rw [isValidPort_iff]
    decide
  have hspec := haccepts.1 (passesChecks_valid _ _ hip hport)
  have hplain := ((isIPv4_trim_iff _).1 hspec.1).2
  exact absurd hplain (by decide)

/-- A rejection leaves the form open, with the message of what was wrong. -/
theorem saveConnection_rejected (w : Writes) (keyWritten : Except String Unit) (online : Bool)
    (p : ConnectionForm) (s : Stored) {err : Rejection}
    (h : (setPiConnectionSettings p.ip p.port w s).1 = .error err) :
    saveConnection w keyWritten online p s =
      ({ p with connError := some err.message }, (setPiConnectionSettings p.ip p.port w s).2) := by
  unfold saveConnection
  cases hset : setPiConnectionSettings p.ip p.port w s with
  | mk result stored =>
      rw [hset] at h
      simp only at h
      subst h
      simp [hset]

end FacialCamera.Service
