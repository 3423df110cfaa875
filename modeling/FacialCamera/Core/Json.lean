import FacialCamera.Core.Percent
import Mathlib.Data.List.TakeWhile
import Mathlib.Data.Nat.Digits.Defs

/-! # JSON texts

The compact text of a value, as `JSON.stringify` and `json.dumps` without blanks write it,
and a reader of the whole grammar. Numbers keep their texts. What the writer writes, the
reader reads, whatever comes after it, and so do readers of single fields.
-/

namespace FacialCamera.Core

/-! ## Numbers -/

inductive NumberState where
  | start
  | minus
  | zero
  | whole
  | point
  | fraction
  | exponent
  | sign
  | power
  deriving DecidableEq

namespace NumberState

def digit (zeroDigit : Bool) : NumberState → Option NumberState
  | start | minus => some (if zeroDigit then zero else whole)
  | zero => none
  | whole => some whole
  | point | fraction => some fraction
  | exponent | sign | power => some power

def step (s : NumberState) (c : Char) : Option NumberState :=
  if c.isDigit then s.digit (c = '0')
  else
    match s with
    | start => if c = '-' then some minus else none
    | zero | whole =>
        if c = '.' then some point else if c = 'e' ∨ c = 'E' then some exponent else none
    | fraction => if c = 'e' ∨ c = 'E' then some exponent else none
    | exponent => if c = '-' ∨ c = '+' then some sign else none
    | _ => none

def accepts : NumberState → Bool
  | zero | whole | fraction | power => true
  | _ => false

def run : NumberState → List Char → Option NumberState
  | s, [] => some s
  | s, c :: cs => (s.step c).bind fun s => s.run cs

end NumberState

def isNumber (text : List Char) : Bool := (NumberState.start.run text).any NumberState.accepts

def isNumeric (c : Char) : Bool := c.isDigit || c ∈ ['-', '+', '.', 'e', 'E']

theorem isNumeric_of_step {s s' : NumberState} {c : Char} (h : s.step c = some s') :
    isNumeric c = true := by
  unfold NumberState.step at h
  unfold isNumeric
  by_cases hdigit : c.isDigit = true
  · simp [hdigit]
  · rw [if_neg hdigit] at h
    cases s <;> simp only [Option.ite_none_right_eq_some] at h <;> grind

theorem isNumeric_of_run {s s' : NumberState} {text : List Char} (h : s.run text = some s') :
    ∀ c ∈ text, isNumeric c = true := by
  induction text generalizing s with
  | nil => simp
  | cons c cs ih =>
      obtain ⟨mid, hstep, hrun⟩ := Option.bind_eq_some_iff.mp h
      intro c' hc'
      rcases List.mem_cons.mp hc' with rfl | hc'
      · exact isNumeric_of_step hstep
      · exact ih hrun c' hc'

theorem run_append {s : NumberState} (text rest : List Char) :
    s.run (text ++ rest) = (s.run text).bind fun s => s.run rest := by
  induction text generalizing s with
  | nil => rfl
  | cons c cs ih =>
      rw [List.cons_append, NumberState.run, NumberState.run, Option.bind_assoc]
      exact Option.bind_congr fun mid _ => ih

structure Numeral where
  text : List Char
  valid : isNumber text = true
  deriving DecidableEq

namespace Numeral

theorem numeric (n : Numeral) : ∀ c ∈ n.text, isNumeric c = true := by
  have hvalid := n.valid
  unfold isNumber at hvalid
  cases hrun : NumberState.start.run n.text with
  | none => simp [hrun] at hvalid
  | some s => exact isNumeric_of_run hrun

theorem text_ne_nil (n : Numeral) : n.text ≠ [] := by
  intro hnil
  have hvalid := n.valid
  rw [hnil] at hvalid
  cases hvalid

end Numeral

/-! ### Natural numbers -/

theorem isDigit_digitChar {d : ℕ} (h : d < 10) :
    (Nat.digitChar d).isDigit = true ∧ (Nat.digitChar d = '0' ↔ d = 0) := by
  have hall : ∀ d < 10, (Nat.digitChar d).isDigit = true ∧ (Nat.digitChar d = '0' ↔ d = 0) := by
    decide
  exact hall d h

/-- From the left a positive number begins with a digit that is not zero. -/
theorem run_toDigits {n : ℕ} (h : 0 < n) :
    NumberState.start.run (Nat.toDigits 10 n) = some .whole := by
  induction n using Nat.strongRecOn with
  | ind n ih =>
      have hdigit := isDigit_digitChar (Nat.mod_lt n (by omega : 0 < 10))
      rcases Nat.lt_or_ge n 10 with hsmall | hlarge
      · rw [Nat.mod_eq_of_lt hsmall] at hdigit
        rw [Nat.toDigits_of_lt_base hsmall]
        simp [NumberState.run, NumberState.step, NumberState.digit, hdigit.1, hdigit.2]
        omega
      · rw [Nat.toDigits_of_base_le (by omega) hlarge, run_append,
          ih (n / 10) (by omega) (by omega)]
        simp [NumberState.run, NumberState.step, NumberState.digit, hdigit.1]

theorem isNumber_toDigits (n : ℕ) : isNumber (Nat.toDigits 10 n) = true := by
  rcases Nat.eq_zero_or_pos n with rfl | hpos
  · decide
  · rw [isNumber, run_toDigits hpos]
    rfl

def Numeral.nat (n : ℕ) : Numeral := ⟨Nat.toDigits 10 n, isNumber_toDigits n⟩

/-! ## Strings -/

/-- What a backslash in front of a letter stands for. -/
def unescape (c : Char) : Option Char :=
  if c = '"' ∨ c = '\\' ∨ c = '/' then some c
  else if c = 'b' then some '\x08'
  else if c = 'f' then some '\x0c'
  else if c = 'n' then some '\n'
  else if c = 'r' then some '\r'
  else if c = 't' then some '\t'
  else none

def codeDigits (n : ℕ) : List Char :=
  [Nat.digitChar (n / 4096), Nat.digitChar (n / 256 % 16), Nat.digitChar (n / 16 % 16),
    Nat.digitChar (n % 16)]

def codeEscape (n : ℕ) : List Char := '\\' :: 'u' :: codeDigits n

/-- A character by one code unit, or by two. -/
def codeText (n : ℕ) : List Char :=
  if n < 0x10000 then codeEscape n
  else codeEscape (0xD800 + (n - 0x10000) / 0x400) ++ codeEscape (0xDC00 + (n - 0x10000) % 0x400)

/-- A character of a string. A control character without an escape of its own is written by
its code, with `ensure_ascii` any character outside ASCII too. -/
def escape (ascii : Bool) (c : Char) : List Char :=
  if c = '"' then ['\\', '"']
  else if c = '\\' then ['\\', '\\']
  else if c = '\x08' then ['\\', 'b']
  else if c = '\x0c' then ['\\', 'f']
  else if c = '\n' then ['\\', 'n']
  else if c = '\r' then ['\\', 'r']
  else if c = '\t' then ['\\', 't']
  else if c.toNat < 32 ∨ (ascii = true ∧ 127 ≤ c.toNat) then codeText c.toNat
  else [c]

def hexFour : List Char → Option (ℕ × List Char)
  | a :: b :: c :: d :: rest => do
      let a ← hexValue a
      let b ← hexValue b
      let c ← hexValue c
      let d ← hexValue d
      return (((a * 16 + b) * 16 + c) * 16 + d, rest)
  | _ => none

/-- The second half of a character above the first plane. -/
def lowSurrogate (high : ℕ) : List Char → Option (Char × List Char)
  | '\\' :: 'u' :: rest => do
      let (low, rest) ← hexFour rest
      if 0xDC00 ≤ low ∧ low < 0xE000 then
        return (Char.ofNat (0x10000 + (high - 0xD800) * 0x400 + (low - 0xDC00)), rest)
      else none
  | _ => none

/-- A code, behind `\\u`. Halves of a character on their own are not read, since a string
has none. -/
def codeUnit (cs : List Char) : Option (Char × List Char) := do
  let (code, rest) ← hexFour cs
  if 0xD800 ≤ code ∧ code < 0xDC00 then lowSurrogate code rest
  else if 0xDC00 ≤ code ∧ code < 0xE000 then none
  else return (Char.ofNat code, rest)

def readChar : List Char → Option (Char × List Char)
  | [] => none
  | c :: rest =>
      if c = '\\' then
        match rest with
        | [] => none
        | e :: rest => if e = 'u' then codeUnit rest else (unescape e).map fun c => (c, rest)
      else if c.toNat < 32 then none
      else some (c, rest)

/-- From behind the opening quote to behind the closing one. -/
def readString : ℕ → List Char → Option (List Char × List Char)
  | 0, _ => none
  | fuel + 1, cs =>
      if cs.head? = some '"' then some ([], cs.tail)
      else do
        let (c, rest) ← readChar cs
        let (text, rest) ← readString fuel rest
        return (c :: text, rest)

theorem hexValue_digitChar {d : ℕ} (h : d < 16) : hexValue (Nat.digitChar d) = some d := by
  have hall : ∀ d < 16, hexValue (Nat.digitChar d) = some d := by decide
  exact hall d h

theorem hexFour_digitChar {a b c d : ℕ} (ha : a < 16) (hb : b < 16) (hc : c < 16) (hd : d < 16)
    (rest : List Char) :
    hexFour (Nat.digitChar a :: Nat.digitChar b :: Nat.digitChar c :: Nat.digitChar d :: rest) =
      some (((a * 16 + b) * 16 + c) * 16 + d, rest) := by
  rw [hexFour, hexValue_digitChar ha, hexValue_digitChar hb, hexValue_digitChar hc,
    hexValue_digitChar hd]
  rfl

theorem hexFour_codeDigits {n : ℕ} (h : n < 0x10000) (rest : List Char) :
    hexFour (codeDigits n ++ rest) = some (n, rest) := by
  have hcode : ((n / 4096 * 16 + n / 256 % 16) * 16 + n / 16 % 16) * 16 + n % 16 = n := by omega
  have hread := hexFour_digitChar (a := n / 4096) (b := n / 256 % 16) (c := n / 16 % 16)
    (d := n % 16) (by omega) (by omega) (by omega) (by omega) rest
  rw [hcode] at hread
  exact hread

theorem codeUnit_plane {n : ℕ} (h : n < 0xD800 ∨ 0xDFFF < n) (h' : n < 0x10000)
    (rest : List Char) : codeUnit (codeDigits n ++ rest) = some (Char.ofNat n, rest) := by
  have hhigh : ¬ (0xD800 ≤ n ∧ n < 0xDC00) := by omega
  have hlow : ¬ (0xDC00 ≤ n ∧ n < 0xE000) := by omega
  rw [codeUnit, hexFour_codeDigits h', Option.bind_eq_bind, Option.bind_some]
  dsimp only
  rw [if_neg hhigh, if_neg hlow]
  rfl

theorem codeUnit_halves {high low : ℕ} (hhigh : 0xD800 ≤ high ∧ high < 0xDC00)
    (hlow : 0xDC00 ≤ low ∧ low < 0xE000) (rest : List Char) :
    codeUnit (codeDigits high ++ (codeEscape low ++ rest)) =
      some (Char.ofNat (0x10000 + (high - 0xD800) * 0x400 + (low - 0xDC00)), rest) := by
  have hread := hexFour_codeDigits (n := low) (by omega) rest
  rw [codeUnit, hexFour_codeDigits (by omega), Option.bind_eq_bind, Option.bind_some]
  dsimp only
  rw [if_pos hhigh, codeEscape, List.cons_append, List.cons_append, lowSurrogate, hread,
    Option.bind_eq_bind, Option.bind_some]
  dsimp only
  rw [if_pos hlow]
  rfl

/-- A character by its code, or by the two halves of it. -/
theorem codeUnit_char (c : Char) (rest : List Char) :
    ∃ text, codeText c.toNat = '\\' :: 'u' :: text ∧ codeUnit (text ++ rest) = some (c, rest) := by
  have hvalid : c.toNat < 0xD800 ∨ (0xDFFF < c.toNat ∧ c.toNat < 0x110000) := c.valid
  by_cases hplane : c.toNat < 0x10000
  · have hread := codeUnit_plane (by omega) hplane rest
    rw [Char.ofNat_toNat] at hread
    exact ⟨_, if_pos hplane, hread⟩
  · obtain ⟨high, hhigh⟩ : ∃ high, high = 0xD800 + (c.toNat - 0x10000) / 0x400 := ⟨_, rfl⟩
    obtain ⟨low, hlow⟩ : ∃ low, low = 0xDC00 + (c.toNat - 0x10000) % 0x400 := ⟨_, rfl⟩
    have hcode : 0x10000 + (high - 0xD800) * 0x400 + (low - 0xDC00) = c.toNat := by omega
    have hread := codeUnit_halves (by omega : 0xD800 ≤ high ∧ high < 0xDC00)
      (by omega : 0xDC00 ≤ low ∧ low < 0xE000) rest
    rw [hcode, Char.ofNat_toNat] at hread
    refine ⟨codeDigits high ++ codeEscape low, ?_, by rw [List.append_assoc, hread]⟩
    rw [codeText, if_neg hplane, ← hhigh, ← hlow, codeEscape, List.cons_append, List.cons_append]

variable {ascii : Bool}

/-- A character is read back, with any rest after it. -/
theorem readChar_escape (c : Char) (rest : List Char) :
    (escape ascii c ++ rest).head? ≠ some '"' ∧
      readChar (escape ascii c ++ rest) = some (c, rest) := by
  unfold escape
  by_cases hquote : c = '"'
  · subst hquote
    simp [readChar, unescape]
  rw [if_neg hquote]
  by_cases hslash : c = '\\'
  · subst hslash
    simp [readChar, unescape]
  rw [if_neg hslash]
  by_cases hb : c = '\x08'
  · simp [readChar, unescape, hb]
  by_cases hf : c = '\x0c'
  · simp [readChar, unescape, hf]
  by_cases hn : c = '\n'
  · simp [readChar, unescape, hn]
  by_cases hr : c = '\r'
  · simp [readChar, unescape, hr]
  by_cases ht : c = '\t'
  · simp [readChar, unescape, ht]
  rw [if_neg hb, if_neg hf, if_neg hn, if_neg hr, if_neg ht]
  by_cases hcode : c.toNat < 32 ∨ (ascii = true ∧ 127 ≤ c.toNat)
  · obtain ⟨text, htext, hread⟩ := codeUnit_char c rest
    rw [if_pos hcode, htext]
    simp [readChar, hread]
  · have hcontrol : ¬ c.toNat < 32 := fun h => hcode (Or.inl h)
    rw [if_neg hcode]
    simp [readChar, hquote, hslash, hcontrol]

def quote (ascii : Bool) (text : List Char) : List Char :=
  text.flatMap (escape ascii) ++ ['"']

theorem readString_quote {text : List Char} {fuel : ℕ} (h : text.length < fuel)
    (rest : List Char) : readString fuel (quote ascii text ++ rest) = some (text, rest) := by
  induction text generalizing fuel with
  | nil =>
      obtain ⟨fuel, rfl⟩ := Nat.exists_eq_succ_of_ne_zero (Nat.ne_of_gt h)
      simp [readString, quote]
  | cons c text ih =>
      obtain ⟨fuel, rfl⟩ := Nat.exists_eq_succ_of_ne_zero (Nat.ne_of_gt (Nat.zero_lt_of_lt h))
      have htext : quote ascii (c :: text) ++ rest =
          escape ascii c ++ (quote ascii text ++ rest) := by
        simp [quote, List.append_assoc]
      obtain ⟨hhead, hread⟩ := readChar_escape c (quote ascii text ++ rest)
      have hrest := ih (Nat.lt_of_succ_lt_succ h)
      rw [htext, readString, if_neg hhead, hread]
      simp [hrest]

/-! ## Values -/

inductive Json where
  | null
  | bool (value : Bool)
  | number (value : Numeral)
  | string (text : String)
  | array (items : List Json)
  | object (fields : List (String × Json))

namespace Json

mutual

def dumps (ascii : Bool) : Json → List Char
  | null => ['n', 'u', 'l', 'l']
  | bool value => if value then ['t', 'r', 'u', 'e'] else ['f', 'a', 'l', 's', 'e']
  | number value => value.text
  | string text => '"' :: quote ascii text.toList
  | array [] => ['[', ']']
  | array (item :: rest) => '[' :: (dumps ascii item ++ dumpItems ascii rest)
  | object [] => ['\x7b', '\x7d']
  | object ((name, value) :: rest) =>
      '\x7b' :: '"' ::
        (quote ascii name.toList ++ ':' :: (dumps ascii value ++ dumpFields ascii rest))

def dumpItems (ascii : Bool) : List Json → List Char
  | [] => [']']
  | item :: rest => ',' :: (dumps ascii item ++ dumpItems ascii rest)

def dumpFields (ascii : Bool) : List (String × Json) → List Char
  | [] => ['\x7d']
  | (name, value) :: rest =>
      ',' :: '"' :: (quote ascii name.toList ++ ':' :: (dumps ascii value ++ dumpFields ascii rest))

end

def isSpace (c : Char) : Bool := c ∈ [' ', '\t', '\n', '\r']

def skipSpace (cs : List Char) : List Char := cs.dropWhile isSpace

/-- A value that is no string, array or object. -/
def readWord : List Char → Option (Json × List Char)
  | 'n' :: 'u' :: 'l' :: 'l' :: rest => some (null, rest)
  | 't' :: 'r' :: 'u' :: 'e' :: rest => some (bool true, rest)
  | 'f' :: 'a' :: 'l' :: 's' :: 'e' :: rest => some (bool false, rest)
  | cs =>
      if h : isNumber (cs.takeWhile isNumeric) = true then
        some (number ⟨_, h⟩, cs.dropWhile isNumeric)
      else none

mutual

def readValue : ℕ → List Char → Option (Json × List Char)
  | 0, _ => none
  | fuel + 1, cs =>
      match skipSpace cs with
      | [] => none
      | c :: rest =>
          if c = '"' then
            (readString fuel rest).map fun (text, rest) => (string (String.ofList text), rest)
          else if c = '[' then
            if (skipSpace rest).head? = some ']' then some (array [], (skipSpace rest).tail)
            else (readItems fuel rest).map fun (items, rest) => (array items, rest)
          else if c = '\x7b' then
            if (skipSpace rest).head? = some '\x7d' then some (object [], (skipSpace rest).tail)
            else (readFields fuel rest).map fun (fields, rest) => (object fields, rest)
          else readWord (c :: rest)

/-- From an item to behind the closing bracket. -/
def readItems : ℕ → List Char → Option (List Json × List Char)
  | 0, _ => none
  | fuel + 1, cs => do
      let (item, rest) ← readValue fuel cs
      if (skipSpace rest).head? = some ',' then
        let (items, rest) ← readItems fuel (skipSpace rest).tail
        return (item :: items, rest)
      else if (skipSpace rest).head? = some ']' then return ([item], (skipSpace rest).tail)
      else none

/-- From the name of a field to behind the closing brace. -/
def readFields : ℕ → List Char → Option (List (String × Json) × List Char)
  | 0, _ => none
  | fuel + 1, cs =>
      if (skipSpace cs).head? = some '"' then do
        let (name, rest) ← readString fuel (skipSpace cs).tail
        if (skipSpace rest).head? = some ':' then
          let (value, rest) ← readValue fuel (skipSpace rest).tail
          if (skipSpace rest).head? = some ',' then
            let (fields, rest) ← readFields fuel (skipSpace rest).tail
            return ((String.ofList name, value) :: fields, rest)
          else if (skipSpace rest).head? = some '\x7d' then
            return ([(String.ofList name, value)], (skipSpace rest).tail)
          else none
        else none
      else none

end

/-- `JSON.parse`, and `json.loads`. -/
def loads (text : List Char) : Option Json := do
  let (value, rest) ← readValue (text.length + 1) text
  if skipSpace rest = [] then return value else none

/-! ## What is written is read -/

/-- Nothing that follows belongs to a number. -/
def Ends (rest : List Char) : Prop := ∀ c ∈ rest.head?, isNumeric c = false

theorem skipSpace_cons {c : Char} {cs : List Char} (h : isSpace c = false) :
    skipSpace (c :: cs) = c :: cs := by
  rw [skipSpace, List.dropWhile_cons_of_neg (by simp [h])]

/-- Before a number nothing is skipped, and no other value begins as one. -/
theorem plain_of_isNumeric {c : Char} (h : isNumeric c = true) :
    isSpace c = false ∧ c ≠ '"' ∧ c ≠ '[' ∧ c ≠ '\x7b' ∧ c ≠ ']' ∧ c ≠ '\x7d' ∧
      c ≠ 'n' ∧ c ≠ 't' ∧ c ≠ 'f' := by
  refine ⟨?_, ?_, ?_, ?_, ?_, ?_, ?_, ?_, ?_⟩
  · by_contra hspace
    simp only [isSpace, List.mem_cons, List.not_mem_nil, or_false, Bool.not_eq_false,
      decide_eq_true_eq] at hspace
    rcases hspace with rfl | rfl | rfl | rfl <;> cases h
  all_goals
    rintro rfl
    cases h

/-- A written value begins with a character that is neither a blank nor a closing one. -/
theorem dumps_head (ascii : Bool) (j : Json) : ∃ c cs, dumps ascii j = c :: cs ∧ isSpace c = false ∧
    c ≠ ']' ∧ c ≠ '\x7d' := by
  cases j with
  | null => exact ⟨_, _, rfl, by decide⟩
  | bool value => cases value <;> exact ⟨_, _, rfl, by decide⟩
  | string text => exact ⟨_, _, by rw [dumps], by decide⟩
  | number value =>
      obtain ⟨c, cs, htext⟩ := List.exists_cons_of_ne_nil value.text_ne_nil
      have hplain := plain_of_isNumeric (value.numeric c (by rw [htext]; exact List.mem_cons_self))
      exact ⟨c, cs, by rw [dumps, htext], hplain.1, hplain.2.2.2.2.1, hplain.2.2.2.2.2.1⟩
  | array items => cases items <;> exact ⟨_, _, by rw [dumps], by decide⟩
  | object fields => cases fields <;> exact ⟨_, _, by rw [dumps], by decide⟩

theorem skipSpace_dumps (j : Json) (rest : List Char) :
    skipSpace (dumps ascii j ++ rest) = dumps ascii j ++ rest := by
  obtain ⟨c, cs, htext, hspace, _⟩ := dumps_head ascii j
  rw [htext, List.cons_append, skipSpace_cons hspace]

theorem readWord_number (n : Numeral) {rest : List Char} (h : Ends rest) :
    readWord (n.text ++ rest) = some (number n, rest) := by
  have htake : (n.text ++ rest).takeWhile isNumeric = n.text := by
    rw [List.takeWhile_append_of_pos n.numeric]
    cases rest with
    | nil => simp
    | cons c cs => simp [h c rfl]
  have hdrop : (n.text ++ rest).dropWhile isNumeric = rest := by
    rw [List.dropWhile_append_of_pos n.numeric]
    cases rest with
    | nil => rfl
    | cons c cs => rw [List.dropWhile_cons_of_neg (by simp [h c rfl])]
  obtain ⟨c, cs, htext⟩ := List.exists_cons_of_ne_nil n.text_ne_nil
  have hplain := plain_of_isNumeric (n.numeric c (by rw [htext]; exact List.mem_cons_self))
  obtain ⟨_, _, _, _, _, _, hn, ht, hf⟩ := hplain
  unfold readWord
  split
  case h_1 heq => simp_all
  case h_2 heq => simp_all
  case h_3 heq => simp_all
  case h_4 =>
    have hvalid : isNumber ((n.text ++ rest).takeWhile isNumeric) = true := by
      rw [htake]
      exact n.valid
    rw [dif_pos hvalid]
    simp only [htake, hdrop]

theorem ends_dumpItems (items : List Json) (rest : List Char) :
    Ends (dumpItems ascii items ++ rest) := by
  intro c hc
  cases items <;> rw [dumpItems] at hc <;> cases hc <;> decide

theorem ends_dumpFields (fields : List (String × Json)) (rest : List Char) :
    Ends (dumpFields ascii fields ++ rest) := by
  intro c hc
  cases fields <;> rw [dumpFields] at hc <;> cases hc <;> decide

/-- With the fuel, what is written is read. -/
structure ReadsBack (ascii : Bool) (fuel : ℕ) : Prop where
  value : ∀ j rest, (dumps ascii j).length < fuel → Ends rest →
    readValue fuel (dumps ascii j ++ rest) = some (j, rest)
  items : ∀ item items rest, (dumps ascii item ++ dumpItems ascii items).length < fuel →
    readItems fuel (dumps ascii item ++ (dumpItems ascii items ++ rest)) =
      some (item :: items, rest)
  fields : ∀ name value fields rest,
    (quote ascii name.toList ++ ':' :: (dumps ascii value ++ dumpFields ascii fields)).length + 1 <
      fuel →
    readFields fuel ('"' :: (quote ascii name.toList ++ ':' ::
      (dumps ascii value ++ (dumpFields ascii fields ++ rest)))) =
        some ((name, value) :: fields, rest)

variable {fuel : ℕ}

theorem head_dumps_ne (ascii : Bool) (j : Json) (rest : List Char) :
    (dumps ascii j ++ rest).head? ≠ some ']' ∧ (dumps ascii j ++ rest).head? ≠ some '\x7d' := by
  obtain ⟨c, cs, htext, _, hbracket, hbrace⟩ := dumps_head ascii j
  simp [htext, hbracket, hbrace]

theorem length_lt_quote (ascii : Bool) (text : List Char) :
    text.length < (quote ascii text).length := by
  have hescape (c : Char) : 0 < (escape ascii c).length := by
    unfold escape codeText codeEscape
    split_ifs <;> simp
  induction text with
  | nil => simp [quote]
  | cons c text ih =>
      have hc := hescape c
      simp only [quote, List.flatMap_cons, List.length_append, List.length_cons] at ih ⊢
      omega

theorem ReadsBack.value_succ (h : ReadsBack ascii fuel) (j : Json) {rest : List Char}
    (hfuel : (dumps ascii j).length < fuel + 1) (hends : Ends rest) :
    readValue (fuel + 1) (dumps ascii j ++ rest) = some (j, rest) := by
  rw [readValue, skipSpace_dumps]
  cases j with
  | null => rfl
  | bool value => cases value <;> rfl
  | number n =>
      have hword := readWord_number n hends
      obtain ⟨c, cs, htext⟩ := List.exists_cons_of_ne_nil n.text_ne_nil
      have hplain := plain_of_isNumeric (n.numeric c (by rw [htext]; exact List.mem_cons_self))
      rw [htext, List.cons_append] at hword
      simp only [dumps, htext, List.cons_append, hplain.2.1, hplain.2.2.1, hplain.2.2.2.1, if_false,
        hword]
  | string text =>
      have hquote := length_lt_quote ascii text.toList
      have hlength : text.toList.length < fuel := by
        simp only [dumps, List.length_cons] at hfuel
        omega
      simp only [dumps, List.cons_append, if_true, readString_quote hlength, Option.map_some,
        String.ofList_toList]
  | array items =>
      cases items with
      | nil => simp [dumps, skipSpace, isSpace]
      | cons item items =>
          have hitems := h.items item items rest (by
            simp only [dumps, List.length_cons] at hfuel
            omega)
          have hhead := (head_dumps_ne ascii item (dumpItems ascii items ++ rest)).1
          simp only [dumps, List.cons_append, List.append_assoc, Char.reduceEq, if_false, if_true,
            skipSpace_dumps, if_neg hhead, hitems, Option.map_some]
  | object fields =>
      cases fields with
      | nil => simp [dumps, skipSpace, isSpace]
      | cons field fields =>
          obtain ⟨name, value⟩ := field
          have hfields := h.fields name value fields rest (by
            simp only [dumps, List.length_cons] at hfuel
            omega)
          simp [dumps, skipSpace, isSpace, hfields]

theorem ReadsBack.items_succ (h : ReadsBack ascii fuel) (item : Json) (items : List Json)
    (rest : List Char) (hfuel : (dumps ascii item ++ dumpItems ascii items).length < fuel + 1) :
    readItems (fuel + 1) (dumps ascii item ++ (dumpItems ascii items ++ rest)) =
      some (item :: items, rest) := by
  rw [List.length_append] at hfuel
  have hvalue := h.value item (dumpItems ascii items ++ rest) (by
    cases items <;> simp only [dumpItems, List.length_cons] at hfuel <;> omega)
    (ends_dumpItems items rest)
  rw [readItems, hvalue]
  cases items with
  | nil => simp [dumpItems, skipSpace, isSpace]
  | cons next items =>
      have hrest := h.items next items rest (by
        simp only [dumpItems, List.length_cons] at hfuel
        omega)
      simp [dumpItems, skipSpace, isSpace, List.append_assoc, hrest]

theorem ReadsBack.fields_succ (h : ReadsBack ascii fuel) (name : String) (value : Json)
    (fields : List (String × Json)) (rest : List Char)
    (hfuel : (quote ascii name.toList ++
      ':' :: (dumps ascii value ++ dumpFields ascii fields)).length + 1 < fuel + 1) :
    readFields (fuel + 1) ('"' :: (quote ascii name.toList ++ ':' ::
      (dumps ascii value ++ (dumpFields ascii fields ++ rest)))) =
        some ((name, value) :: fields, rest) := by
  have hquote := length_lt_quote ascii name.toList
  rw [List.length_append, List.length_cons, List.length_append] at hfuel
  have hname : readString fuel (quote ascii name.toList ++
      ':' :: (dumps ascii value ++ (dumpFields ascii fields ++ rest))) =
        some (name.toList, ':' :: (dumps ascii value ++ (dumpFields ascii fields ++ rest))) :=
    readString_quote (by omega) _
  have hvalue := h.value value (dumpFields ascii fields ++ rest) (by omega)
    (ends_dumpFields fields rest)
  rw [readFields, skipSpace_cons (by decide)]
  simp only [List.head?_cons, if_true, List.tail_cons, hname, Option.bind_eq_bind,
    Option.bind_some, skipSpace_cons (c := ':') (by decide), hvalue]
  cases fields with
  | nil => simp [dumpFields, skipSpace, isSpace]
  | cons next fields =>
      obtain ⟨next, value'⟩ := next
      have hrest := h.fields next value' fields rest (by
        simp only [dumpFields, List.length_cons] at hfuel
        omega)
      simp [dumpFields, skipSpace, isSpace, List.append_assoc, hrest]

theorem readsBack (ascii : Bool) (fuel : ℕ) : ReadsBack ascii fuel := by
  induction fuel with
  | zero =>
      constructor
      · exact fun j rest hfuel => absurd hfuel (Nat.not_lt_zero _)
      · exact fun item items rest hfuel => absurd hfuel (Nat.not_lt_zero _)
      · exact fun name value fields rest hfuel => absurd hfuel (Nat.not_lt_zero _)
  | succ fuel ih =>
      constructor
      · exact fun j rest hfuel hends => ih.value_succ j hfuel hends
      · exact fun item items rest hfuel => ih.items_succ item items rest hfuel
      · exact fun name value fields rest hfuel => ih.fields_succ name value fields rest hfuel

theorem isNumeric_of_isSpace {c : Char} (h : isSpace c = true) : isNumeric c = false := by
  cases hnumeric : isNumeric c with
  | false => rfl
  | true => exact absurd h (by simp [(plain_of_isNumeric hnumeric).1])

/-- Reading undoes writing, blanks after the value or not. -/
theorem loads_dumps (ascii : Bool) (j : Json) {rest : List Char}
    (hrest : ∀ c ∈ rest, isSpace c = true) : loads (dumps ascii j ++ rest) = some j := by
  have hends : Ends rest := fun c hc => isNumeric_of_isSpace (hrest c (List.mem_of_mem_head? hc))
  have hskip : skipSpace rest = [] := List.dropWhile_eq_nil_iff.mpr hrest
  have hread := (readsBack ascii ((dumps ascii j ++ rest).length + 1)).value j rest
    (by rw [List.length_append]; omega) hends
  rw [loads, hread, Option.bind_eq_bind, Option.bind_some]
  dsimp only
  rw [if_pos hskip]
  rfl

/-! ## The octets of a text -/

def toOctets (text : List Char) : List UInt8 := (text.flatMap Utf8.encodeChar).map UInt8.ofNat

def render (ascii : Bool) (j : Json) : List UInt8 := toOctets (dumps ascii j)

/-- `JSON.parse` of the text that a browser makes of the octets. -/
def parse (octets : List UInt8) : Option Json :=
  loads (Utf8.decode none (octets.map UInt8.toNat))

/-- `json.loads` of the octets, which have to be UTF-8. -/
def parseStrict (octets : List UInt8) : Option Json :=
  let text := Utf8.decode none (octets.map UInt8.toNat)
  if toOctets text = octets then loads text else none

theorem decode_toOctets (text : List Char) :
    Utf8.decode none ((toOctets text).map UInt8.toNat) = text := by
  have hoctets : (toOctets text).map UInt8.toNat = text.flatMap Utf8.encodeChar := by
    rw [toOctets, List.map_map]
    refine (List.map_congr_left fun b hb => ?_).trans (List.map_id _)
    obtain ⟨c, _, hb⟩ := List.mem_flatMap.mp hb
    exact UInt8.toNat_ofNat_of_lt' (Utf8.lt_of_mem_encodeChar hb)
  rw [hoctets, decode_flatMap_encodeChar]

theorem parse_toOctets (ascii : Bool) (j : Json) {rest : List Char}
    (hrest : ∀ c ∈ rest, isSpace c = true) :
    parse (toOctets (dumps ascii j ++ rest)) = some j := by
  rw [parse, decode_toOctets, loads_dumps ascii j hrest]

theorem parse_render (ascii : Bool) (j : Json) : parse (render ascii j) = some j := by
  rw [render, parse, decode_toOctets]
  simpa using loads_dumps ascii j (by simp : ∀ c ∈ ([] : List Char), isSpace c = true)

theorem parseStrict_render (ascii : Bool) (j : Json) : parseStrict (render ascii j) = some j := by
  have htext := decode_toOctets (dumps ascii j)
  rw [parseStrict, render, htext, if_pos rfl]
  simpa using loads_dumps ascii j (by simp : ∀ c ∈ ([] : List Char), isSpace c = true)

/-! ## Reading a value -/

variable {α β : Type}

/-- The value under a name; of several the last counts. -/
def lookup (name : String) : List (String × Json) → Option Json
  | [] => none
  | (other, value) :: fields => (lookup name fields).or (if other = name then some value else none)

def field? (name : String) : Json → Option Json
  | object fields => lookup name fields
  | _ => none

def field (name : String) (read : Json → Option α) (j : Json) : Option α :=
  (j.field? name).bind read

def fieldIfAny (name : String) (read : Json → Option α) (j : Json) : Option (Option α) :=
  match j.field? name with
  | none => some none
  | some value => (read value).map some

def asBool : Json → Option Bool
  | bool value => some value
  | _ => none

def asNumber : Json → Option Numeral
  | number value => some value
  | _ => none

def asString : Json → Option String
  | string text => some text
  | _ => none

def asOneOf (texts : List String) (j : Json) : Option String :=
  j.asString.filter fun text => text ∈ texts

def asArray (read : Json → Option α) : Json → Option (List α)
  | array items => items.mapM read
  | _ => none

def orNull (read : Json → Option α) : Json → Option (Option α)
  | null => some none
  | j => (read j).map some

/-- `None` is written as `null`. -/
def ofOption (write : α → Json) : Option α → Json
  | none => null
  | some a => write a

theorem asOneOf_string {texts : List String} {text : String} (h : text ∈ texts) :
    asOneOf texts (string text) = some text := by
  simp [asOneOf, asString, Option.filter, h]

theorem asArray_map {read : Json → Option β} {write : α → Json} {f : α → β} {as : List α}
    (h : ∀ a ∈ as, read (write a) = some (f a)) :
    asArray read (array (as.map write)) = some (as.map f) := by
  show List.mapM read (as.map write) = _
  induction as with
  | nil => rfl
  | cons a as ih =>
      rw [List.map_cons, List.mapM_cons, h a List.mem_cons_self,
        ih fun b hb => h b (List.mem_cons_of_mem _ hb)]
      rfl

theorem orNull_of_ne {read : Json → Option α} {j : Json} (h : j ≠ null) :
    orNull read j = (read j).map some := by
  cases j with
  | null => exact absurd rfl h
  | _ => rfl

theorem orNull_ofOption {read : Json → Option β} {write : α → Json} {f : α → β} {o : Option α}
    (hnull : read null = none) (h : ∀ a ∈ o, read (write a) = some (f a)) :
    orNull read (ofOption write o) = some (o.map f) := by
  cases o with
  | none => rfl
  | some a =>
      have ha := h a rfl
      have hne : write a ≠ null := by
        intro heq
        rw [heq, hnull] at ha
        cases ha
      rw [ofOption, orNull_of_ne hne, ha]
      rfl

end Json

end FacialCamera.Core
