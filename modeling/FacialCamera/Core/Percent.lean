import Mathlib.Data.Char
import Mathlib.Data.List.Basic
import Mathlib.Tactic.Common

/-! # Percent-encoded text

UTF-8 octet by octet, `encodeURIComponent`, and the way a query string is read back.
Octets are natural numbers. What the encoder writes, the reader reads.
-/

namespace FacialCamera.Core

namespace Utf8

def encodePoint (n : ℕ) : List ℕ :=
  if n < 0x80 then [n]
  else if n < 0x800 then [0xC0 + n / 64, 0x80 + n % 64]
  else if n < 0x10000 then [0xE0 + n / 4096, 0x80 + n / 64 % 64, 0x80 + n % 64]
  else [0xF0 + n / 262144, 0x80 + n / 4096 % 64, 0x80 + n / 64 % 64, 0x80 + n % 64]

def encodeChar (c : Char) : List ℕ := encodePoint c.toNat

/-- Inside a character: how many octets are owed, the range of the next one, and the bits
of the code point so far. -/
structure Pending where
  needed : ℕ
  low : ℕ
  high : ℕ
  point : ℕ

def replacement : Char := Char.ofNat 0xFFFD

def begin (b : ℕ) : List Char × Option Pending :=
  if b < 0x80 then ([Char.ofNat b], none)
  else if 0xC2 ≤ b ∧ b ≤ 0xDF then ([], some ⟨1, 0x80, 0xBF, b - 0xC0⟩)
  else if 0xE0 ≤ b ∧ b ≤ 0xEF then
    ([], some ⟨2, if b = 0xE0 then 0xA0 else 0x80, if b = 0xED then 0x9F else 0xBF, b - 0xE0⟩)
  else if 0xF0 ≤ b ∧ b ≤ 0xF4 then
    ([], some ⟨3, if b = 0xF0 then 0x90 else 0x80, if b = 0xF4 then 0x8F else 0xBF, b - 0xF0⟩)
  else ([replacement], none)

/-- The characters that an octet completes, and what stays pending. An octet that does not
continue the character begins another, after a replacement for the broken one. -/
def step (q : Option Pending) (b : ℕ) : List Char × Option Pending :=
  match q with
  | none => begin b
  | some p =>
      if p.low ≤ b ∧ b ≤ p.high then
        if p.needed = 1 then ([Char.ofNat (p.point * 64 + (b - 0x80))], none)
        else ([], some ⟨p.needed - 1, 0x80, 0xBF, p.point * 64 + (b - 0x80)⟩)
      else (replacement :: (begin b).1, (begin b).2)

def decode : Option Pending → List ℕ → List Char
  | none, [] => []
  | some _, [] => [replacement]
  | q, b :: bs => (step q b).1 ++ decode (step q b).2 bs

theorem decode_begin {b : ℕ} {p : Pending} (h : begin b = ([], some p)) (bs : List ℕ) :
    decode none (b :: bs) = decode (some p) bs := by
  rw [decode, step, h, List.nil_append]

theorem decode_more {p : Pending} {b : ℕ} (h : p.low ≤ b ∧ b ≤ p.high) (hneeded : p.needed ≠ 1)
    (bs : List ℕ) :
    decode (some p) (b :: bs) =
      decode (some ⟨p.needed - 1, 0x80, 0xBF, p.point * 64 + (b - 0x80)⟩) bs := by
  rw [decode]
  simp only [step, if_pos h, if_neg hneeded, List.nil_append]

theorem decode_last {p : Pending} {b : ℕ} (h : p.low ≤ b ∧ b ≤ p.high) (hneeded : p.needed = 1)
    (bs : List ℕ) :
    decode (some p) (b :: bs) = Char.ofNat (p.point * 64 + (b - 0x80)) :: decode none bs := by
  rw [decode]
  simp only [step, if_pos h, if_pos hneeded, List.singleton_append]

section Reading

variable {n : ℕ} (bs : List ℕ)

theorem decode_one (h : n < 0x80) : decode none (n :: bs) = Char.ofNat n :: decode none bs := by
  rw [decode]
  simp only [step, begin, if_pos h, List.singleton_append]

theorem decode_two (h : 0x80 ≤ n) (h' : n < 0x800) :
    decode none ((0xC0 + n / 64) :: (0x80 + n % 64) :: bs) = Char.ofNat n :: decode none bs := by
  have hbegin : begin (0xC0 + n / 64) = ([], some ⟨1, 0x80, 0xBF, n / 64⟩) := by
    rw [begin, if_neg (by omega), if_pos (by omega), Nat.add_sub_cancel_left]
  have hpoint : n / 64 * 64 + (0x80 + n % 64 - 0x80) = n := by omega
  rw [decode_begin hbegin, decode_last (by simp only; omega) rfl, hpoint]

/-- The second octet tells a short encoding and a surrogate from a character. -/
theorem decode_three (h : 0x800 ≤ n) (h' : n < 0xD800 ∨ 0xDFFF < n) (h'' : n < 0x10000) :
    decode none ((0xE0 + n / 4096) :: (0x80 + n / 64 % 64) :: (0x80 + n % 64) :: bs) =
      Char.ofNat n :: decode none bs := by
  have hbegin : begin (0xE0 + n / 4096) =
      ([], some ⟨2, if 0xE0 + n / 4096 = 0xE0 then 0xA0 else 0x80,
        if 0xE0 + n / 4096 = 0xED then 0x9F else 0xBF, n / 4096⟩) := by
    rw [begin, if_neg (by omega), if_neg (by omega), if_pos (by omega), Nat.add_sub_cancel_left]
  have hpoint : (n / 4096 * 64 + (0x80 + n / 64 % 64 - 0x80)) * 64 + (0x80 + n % 64 - 0x80) =
      n := by
    omega
  rw [decode_begin hbegin, decode_more (by simp only; split <;> split <;> omega) (by simp),
    decode_last (by simp only; omega) rfl, hpoint]

theorem decode_four (h : 0x10000 ≤ n) (h' : n < 0x110000) :
    decode none ((0xF0 + n / 262144) :: (0x80 + n / 4096 % 64) :: (0x80 + n / 64 % 64) ::
      (0x80 + n % 64) :: bs) = Char.ofNat n :: decode none bs := by
  have hbegin : begin (0xF0 + n / 262144) =
      ([], some ⟨3, if 0xF0 + n / 262144 = 0xF0 then 0x90 else 0x80,
        if 0xF0 + n / 262144 = 0xF4 then 0x8F else 0xBF, n / 262144⟩) := by
    rw [begin, if_neg (by omega), if_neg (by omega), if_neg (by omega), if_pos (by omega),
      Nat.add_sub_cancel_left]
  have hpoint : ((n / 262144 * 64 + (0x80 + n / 4096 % 64 - 0x80)) * 64 +
      (0x80 + n / 64 % 64 - 0x80)) * 64 + (0x80 + n % 64 - 0x80) = n := by
    omega
  rw [decode_begin hbegin, decode_more (by simp only; split <;> split <;> omega) (by simp),
    decode_more (by simp only; omega) (by simp), decode_last (by simp only; omega) rfl, hpoint]

end Reading

/-- A character is read back from its octets, whatever follows. -/
theorem decode_encodeChar (c : Char) (bs : List ℕ) :
    decode none (encodeChar c ++ bs) = c :: decode none bs := by
  have hvalid : c.toNat < 0xD800 ∨ (0xDFFF < c.toNat ∧ c.toNat < 0x110000) := c.valid
  have hchar : Char.ofNat c.toNat = c := Char.ofNat_toNat c
  unfold encodeChar encodePoint
  split
  · rename_i h
    exact (decode_one bs h).trans (by rw [hchar])
  · split
    · rename_i h h'
      exact (decode_two bs (by omega) h').trans (by rw [hchar])
    · split
      · rename_i h h' h''
        exact (decode_three bs (by omega) (by omega) h'').trans (by rw [hchar])
      · rename_i h h' h''
        exact (decode_four bs (by omega) (by omega)).trans (by rw [hchar])

theorem lt_of_mem_encodeChar {c : Char} {b : ℕ} (h : b ∈ encodeChar c) : b < 256 := by
  have hvalid : c.toNat < 0xD800 ∨ (0xDFFF < c.toNat ∧ c.toNat < 0x110000) := c.valid
  unfold encodeChar encodePoint at h
  split at h
  · simp only [List.mem_singleton] at h
    omega
  · split at h
    · simp only [List.mem_cons, List.not_mem_nil, or_false] at h
      omega
    · split at h
      · simp only [List.mem_cons, List.not_mem_nil, or_false] at h
        omega
      · simp only [List.mem_cons, List.not_mem_nil, or_false] at h
        omega

end Utf8

/-! ## Percent-encoding -/

def hexDigits : List Char := "0123456789ABCDEF".toList

def hexDigit (d : ℕ) : Char := hexDigits.getD d '0'

def hexValue (c : Char) : Option ℕ :=
  if '0' ≤ c ∧ c ≤ '9' then some (c.toNat - 48)
  else if 'A' ≤ c ∧ c ≤ 'F' then some (c.toNat - 55)
  else if 'a' ≤ c ∧ c ≤ 'f' then some (c.toNat - 87)
  else none

def percent (b : ℕ) : List Char := ['%', hexDigit (b / 16), hexDigit (b % 16)]

/-- The characters that `encodeURIComponent` leaves as they are. -/
def unreserved (c : Char) : Bool :=
  ('A' ≤ c ∧ c ≤ 'Z') ∨ ('a' ≤ c ∧ c ≤ 'z') ∨ ('0' ≤ c ∧ c ≤ '9') ∨ c ∈ "-_.!~*'()".toList

def encodeURIComponent (s : String) : List Char :=
  s.toList.flatMap fun c =>
    if unreserved c then [c] else (Utf8.encodeChar c).flatMap percent

/-- The octets of percent-encoded text; a `%` with no two digits after it stands for
itself. -/
def unquoteToBytes : List Char → List ℕ
  | '%' :: a :: b :: rest =>
      match hexValue a, hexValue b with
      | some high, some low => (16 * high + low) :: unquoteToBytes rest
      | _, _ => '%'.toNat :: unquoteToBytes (a :: b :: rest)
  | c :: rest => c.toNat :: unquoteToBytes rest
  | [] => []

def unquote (text : List Char) : String := String.ofList (Utf8.decode none (unquoteToBytes text))

theorem hexDigit_spec {d : ℕ} (h : d < 16) :
    hexValue (hexDigit d) = some d ∧ unreserved (hexDigit d) = true := by
  have hall : ∀ d < 16, hexValue (hexDigit d) = some d ∧ unreserved (hexDigit d) = true := by
    decide
  exact hall d h

theorem unquoteToBytes_percent {b : ℕ} (h : b < 256) (rest : List Char) :
    unquoteToBytes (percent b ++ rest) = b :: unquoteToBytes rest := by
  have hhigh := (hexDigit_spec (d := b / 16) (by omega)).1
  have hlow := (hexDigit_spec (d := b % 16) (by omega)).1
  have hb : 16 * (b / 16) + b % 16 = b := by omega
  show unquoteToBytes ('%' :: hexDigit (b / 16) :: hexDigit (b % 16) :: rest) = _
  rw [unquoteToBytes, hhigh, hlow]
  simp only [hb]

theorem unquoteToBytes_octets {bs : List ℕ} (h : ∀ b ∈ bs, b < 256) (rest : List Char) :
    unquoteToBytes (bs.flatMap percent ++ rest) = bs ++ unquoteToBytes rest := by
  induction bs with
  | nil => rfl
  | cons b bs ih =>
      have hb : b < 256 := h b (by simp)
      have hbs : ∀ b ∈ bs, b < 256 := fun b hmem => h b (by simp [hmem])
      rw [List.flatMap_cons, List.append_assoc, unquoteToBytes_percent hb, ih hbs, List.cons_append]

/-- An unreserved character is ASCII and none of those that a query string is read by. -/
theorem unreserved_plain {c : Char} (h : unreserved c = true) :
    c.toNat < 0x80 ∧ c ≠ '%' ∧ c ≠ '&' ∧ c ≠ '+' := by
  have hne : ∀ d : Char, unreserved d = false → c ≠ d := by
    intro d hd hc
    rw [hc, hd] at h
    cases h
  have hascii : c.toNat < 0x80 := by
    simp only [unreserved, decide_eq_true_eq] at h
    rcases h with h | h | h | h
    · have hle : c.toNat ≤ 'Z'.toNat := h.2
      exact Nat.lt_of_le_of_lt hle (by decide)
    · have hle : c.toNat ≤ 'z'.toNat := h.2
      exact Nat.lt_of_le_of_lt hle (by decide)
    · have hle : c.toNat ≤ '9'.toNat := h.2
      exact Nat.lt_of_le_of_lt hle (by decide)
    · have hmarks : ("-_.!~*'()".toList.all fun c => decide (c.toNat < 0x80)) = true := by decide
      exact of_decide_eq_true (List.all_eq_true.1 hmarks c h)
  exact ⟨hascii, hne '%' (by decide), hne '&' (by decide), hne '+' (by decide)⟩

theorem unquoteToBytes_unreserved {c : Char} (h : unreserved c = true) (rest : List Char) :
    unquoteToBytes (c :: rest) = Utf8.encodeChar c ++ unquoteToBytes rest := by
  obtain ⟨hascii, hpercent, _⟩ := unreserved_plain h
  rw [unquoteToBytes, Utf8.encodeChar, Utf8.encodePoint, if_pos hascii, List.singleton_append]
  intro a b rest' hc _
  exact hpercent hc

theorem unquoteToBytes_encode (cs : List Char) :
    unquoteToBytes (cs.flatMap fun c =>
      if unreserved c then [c] else (Utf8.encodeChar c).flatMap percent) =
      cs.flatMap Utf8.encodeChar := by
  induction cs with
  | nil => rfl
  | cons c cs ih =>
      rw [List.flatMap_cons, List.flatMap_cons]
      cases hc : unreserved c with
      | true =>
          rw [if_pos rfl, List.singleton_append, unquoteToBytes_unreserved hc, ih]
      | false =>
          rw [if_neg Bool.false_ne_true,
            unquoteToBytes_octets (fun b hb => Utf8.lt_of_mem_encodeChar hb), ih]

theorem decode_flatMap_encodeChar (cs : List Char) :
    Utf8.decode none (cs.flatMap Utf8.encodeChar) = cs := by
  induction cs with
  | nil => rfl
  | cons c cs ih => rw [List.flatMap_cons, Utf8.decode_encodeChar, ih]

/-- What is encoded is read back. -/
theorem unquote_encodeURIComponent (s : String) : unquote (encodeURIComponent s) = s := by
  rw [unquote, encodeURIComponent, unquoteToBytes_encode, decode_flatMap_encodeChar,
    String.ofList_toList]

/-! ## Query strings

A query string is ASCII; an octet above 127 comes only percent-encoded.
-/

/-- `name_value.split('=', 1)` of a field, blank where there is no `=`. -/
def splitField (field : List Char) : List Char × List Char :=
  (field.takeWhile (· ≠ '='), (field.dropWhile (· ≠ '=')).drop 1)

/-- Reading a name or a value: `+` is a blank, and stays one only if it was not encoded. -/
def unquotePlus (text : List Char) : String :=
  unquote (text.map fun c => if c = '+' then ' ' else c)

/-- `parse_qsl` with `keep_blank_values`. -/
def parseQsl (query : List Char) : List (String × String) :=
  ((query.splitOn '&').filter fun field => !field.isEmpty).map fun field =>
    (unquotePlus (splitField field).1, unquotePlus (splitField field).2)

/-- The value of a query parameter, the last one where there are several. -/
def queryParam (query : List Char) (name : String) : Option String :=
  (((parseQsl query).filter fun p => p.1 = name).getLast?).map Prod.snd

theorem mem_encodeURIComponent {s : String} {c : Char} (h : c ∈ encodeURIComponent s) :
    c = '%' ∨ unreserved c = true := by
  simp only [encodeURIComponent, List.mem_flatMap] at h
  obtain ⟨d, _, hc⟩ := h
  cases hd : unreserved d with
  | true =>
      rw [hd, if_pos rfl, List.mem_singleton] at hc
      exact .inr (hc ▸ hd)
  | false =>
      rw [hd, if_neg Bool.false_ne_true, List.mem_flatMap] at hc
      obtain ⟨b, hb, hc⟩ := hc
      have hbyte := Utf8.lt_of_mem_encodeChar hb
      simp only [percent, List.mem_cons, List.not_mem_nil, or_false] at hc
      rcases hc with rfl | rfl | rfl
      · exact .inl rfl
      · exact .inr (hexDigit_spec (by omega)).2
      · exact .inr (hexDigit_spec (by omega)).2

theorem not_mem_encodeURIComponent (s : String) :
    '&' ∉ encodeURIComponent s ∧ '+' ∉ encodeURIComponent s := by
  constructor
  · intro h
    rcases mem_encodeURIComponent h with hc | hc
    · exact absurd hc (by decide)
    · exact (unreserved_plain hc).2.2.1 rfl
  · intro h
    rcases mem_encodeURIComponent h with hc | hc
    · exact absurd hc (by decide)
    · exact (unreserved_plain hc).2.2.2 rfl

theorem unquotePlus_encodeURIComponent (s : String) : unquotePlus (encodeURIComponent s) = s := by
  have hplus := (not_mem_encodeURIComponent s).2
  have hsame : (encodeURIComponent s).map (fun c => if c = '+' then ' ' else c) =
      encodeURIComponent s := by
    have hid : ∀ c ∈ encodeURIComponent s, (if c = '+' then ' ' else c) = id c := by
      intro c hc
      have hc' : c ≠ '+' := by
        intro h
        rw [h] at hc
        exact hplus hc
      exact if_neg hc'
    exact (List.map_congr_left hid).trans (List.map_id _)
  rw [unquotePlus, hsame, unquote_encodeURIComponent]

theorem splitField_encoded {name : List Char} (hname : ∀ c ∈ name, c ≠ '&' ∧ c ≠ '=')
    (s : String) :
    splitField (name ++ '=' :: encodeURIComponent s) = (name, encodeURIComponent s) := by
  have hnames : ∀ c ∈ name, decide (c ≠ '=') = true := fun c hc => by simpa using (hname c hc).2
  have htake : (name ++ '=' :: encodeURIComponent s).takeWhile (fun c => decide (c ≠ '=')) =
      name := by
    rw [List.takeWhile_append_of_pos hnames]
    simp
  have hdrop : (name ++ '=' :: encodeURIComponent s).dropWhile (fun c => decide (c ≠ '=')) =
      '=' :: encodeURIComponent s := by
    rw [List.dropWhile_append_of_pos hnames]
    simp
  rw [splitField, htake, hdrop, List.drop_one, List.tail_cons]

/-- A query of one encoded value has that value under its name and nothing else. -/
theorem parseQsl_single {name : List Char} (hname : ∀ c ∈ name, c ≠ '&' ∧ c ≠ '=') (s : String) :
    parseQsl (name ++ '=' :: encodeURIComponent s) = [(unquotePlus name, s)] := by
  have hamp : '&' ∉ name ++ '=' :: encodeURIComponent s := by
    simp only [List.mem_append, List.mem_cons, not_or]
    exact ⟨fun h => (hname _ h).1 rfl, by decide, (not_mem_encodeURIComponent s).1⟩
  have hsplit := splitField_encoded hname s
  rw [parseQsl, List.splitOn_eq_singleton hamp]
  simp [hsplit, unquotePlus_encodeURIComponent]

/-- Text of unreserved characters is left as it is. -/
theorem encodeURIComponent_plain {s : String} (h : ∀ c ∈ s.toList, unreserved c = true) :
    encodeURIComponent s = s.toList := by
  rw [encodeURIComponent]
  generalize s.toList = cs at h ⊢
  induction cs with
  | nil => rfl
  | cons c cs ih =>
      have hrest := ih fun d hd => h d (List.mem_cons_of_mem _ hd)
      rw [List.flatMap_cons, if_pos (h c List.mem_cons_self), hrest, List.singleton_append]

def encodeField (name : List Char) (value : String) : List Char :=
  name ++ '=' :: encodeURIComponent value

/-- Several fields are read back one by one. -/
theorem parseQsl_fields {fields : List (List Char × String)}
    (hnames : ∀ field ∈ fields, ∀ c ∈ field.1, c ≠ '&' ∧ c ≠ '=') :
    parseQsl (['&'].intercalate (fields.map fun field => encodeField field.1 field.2)) =
      fields.map fun field => (unquotePlus field.1, field.2) := by
  cases fields with
  | nil => rfl
  | cons first rest =>
      have hsplit : (['&'].intercalate ((first :: rest).map fun field =>
          encodeField field.1 field.2)).splitOn '&' =
          (first :: rest).map fun field => encodeField field.1 field.2 := by
        refine List.splitOn_intercalate '&' (fun field hfield => ?_) (by simp)
        obtain ⟨pair, hpair, rfl⟩ := List.mem_map.mp hfield
        simp only [encodeField, List.mem_append, List.mem_cons, not_or]
        exact ⟨fun h => (hnames pair hpair _ h).1 rfl, by decide,
          (not_mem_encodeURIComponent pair.2).1⟩
      have hfilled : ∀ pair : List Char × String, (encodeField pair.1 pair.2).isEmpty = false := by
        intro pair
        simp [encodeField]
      have heach : ∀ field ∈ first :: rest,
          (unquotePlus (splitField (encodeField field.1 field.2)).1,
            unquotePlus (splitField (encodeField field.1 field.2)).2) =
          (unquotePlus field.1, field.2) := by
        intro field hfield
        rw [encodeField, splitField_encoded (hnames field hfield), unquotePlus_encodeURIComponent]
      rw [parseQsl, hsplit, List.filter_eq_self.mpr, List.map_map]
      · exact List.map_congr_left heach
      · intro field hfield
        obtain ⟨pair, _, rfl⟩ := List.mem_map.mp hfield
        simp [hfilled]

end FacialCamera.Core
