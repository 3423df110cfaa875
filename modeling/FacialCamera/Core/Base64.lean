import Mathlib.Data.List.Basic
import Mathlib.Tactic.Common

/-! # Base64

The encoding with padding, and the tolerant reader of `b64decode`: characters outside the
alphabet are passed over, and the padding that completes a group ends the text. Octets are
natural numbers.
-/

namespace FacialCamera.Core.Base64

def alphabet : List Char :=
  "ABCDEFGHIJKLMNOPQRSTUVWXYZabcdefghijklmnopqrstuvwxyz0123456789+/".toList

def symbol (v : ℕ) : Char := alphabet.getD v 'A'

def sextet (c : Char) : Option ℕ :=
  if 'A' ≤ c ∧ c ≤ 'Z' then some (c.toNat - 65)
  else if 'a' ≤ c ∧ c ≤ 'z' then some (c.toNat - 71)
  else if '0' ≤ c ∧ c ≤ '9' then some (c.toNat + 4)
  else if c = '+' then some 62
  else if c = '/' then some 63
  else none

def encode : List ℕ → List Char
  | [] => []
  | [a] => [symbol (a / 4), symbol (a % 4 * 16), '=', '=']
  | [a, b] => [symbol (a / 4), symbol (a % 4 * 16 + b / 16), symbol (b % 16 * 4), '=']
  | a :: b :: c :: rest =>
      symbol (a / 4) :: symbol (a % 4 * 16 + b / 16) :: symbol (b % 16 * 4 + c / 64) ::
        symbol (c % 64) :: encode rest

/-- Where the reader is: the characters of the group so far, the bits that wait for the next
one, and the padding since the last. -/
structure Reader where
  quad : ℕ := 0
  left : ℕ := 0
  pads : ℕ := 0
  deriving DecidableEq

namespace Reader

/-- After a character of the alphabet: the octet that it completes, and the next state. -/
def take (r : Reader) (v : ℕ) : Option ℕ × Reader :=
  if r.quad = 0 then (none, ⟨1, v, 0⟩)
  else if r.quad = 1 then (some (r.left * 4 + v / 16), ⟨2, v % 16, 0⟩)
  else if r.quad = 2 then (some (r.left * 16 + v / 4), ⟨3, v % 4, 0⟩)
  else (some (r.left * 64 + v), ⟨0, 0, 0⟩)

/-- `binascii.a2b_base64`; `none` where it raises. -/
def read : Reader → List Char → Option (List ℕ)
  | r, [] => if r.quad = 0 then some [] else none
  | r, c :: cs =>
      if c = '=' then
        if 2 ≤ r.quad then
          if 4 ≤ r.quad + (r.pads + 1) then some [] else read { r with pads := r.pads + 1 } cs
        else read r cs
      else
        match sextet c with
        | none => read r cs
        | some v => (read (r.take v).2 cs).map fun octets => (r.take v).1.toList ++ octets

end Reader

/-- `b64decode` of the text; `none` where it raises, as it does on a character that is not
ASCII. -/
def decode (text : List Char) : Option (List ℕ) :=
  if text.all fun c => c.toNat < 128 then ({} : Reader).read text else none

/-! ## Decoding undoes encoding -/

theorem symbol_spec {v : ℕ} (h : v < 64) :
    symbol v ≠ '=' ∧ sextet (symbol v) = some v ∧ (symbol v).toNat < 128 := by
  have hall : ∀ v < 64, symbol v ≠ '=' ∧ sextet (symbol v) = some v ∧ (symbol v).toNat < 128 := by
    decide +kernel
  exact hall v h

theorem read_symbol (r : Reader) {v : ℕ} (h : v < 64) (cs : List Char) :
    r.read (symbol v :: cs) =
      ((r.take v).2.read cs).map fun octets => (r.take v).1.toList ++ octets := by
  obtain ⟨hpad, hvalue, _⟩ := symbol_spec h
  rw [Reader.read, if_neg hpad, hvalue]

/-- A whole group, before any rest. -/
theorem read_group {a b c : ℕ} (ha : a < 256) (hb : b < 256) (hc : c < 256) (cs : List Char) :
    ({} : Reader).read (symbol (a / 4) :: symbol (a % 4 * 16 + b / 16) ::
      symbol (b % 16 * 4 + c / 64) :: symbol (c % 64) :: cs) =
        (({} : Reader).read cs).map fun octets => a :: b :: c :: octets := by
  have hfirst : a / 4 * 4 + (a % 4 * 16 + b / 16) / 16 = a := by omega
  have hsecond : b / 16 % 16 * 16 + (b % 16 * 4 + c / 64) / 4 = b := by omega
  have hthird : c / 64 % 4 * 64 + c % 64 = c := by omega
  rw [read_symbol _ (by omega), read_symbol _ (by omega), read_symbol _ (by omega),
    read_symbol _ (by omega)]
  simp [Reader.take, hfirst, hsecond, hthird, Function.comp_def]

theorem read_encode {octets : List ℕ} (h : ∀ b ∈ octets, b < 256) :
    ({} : Reader).read (encode octets) = some octets := by
  induction octets using encode.induct with
  | case1 => rfl
  | case2 a =>
      have ha := h a (by simp)
      have hfirst : a / 4 * 4 + a % 4 = a := by omega
      rw [encode, read_symbol _ (by omega), read_symbol _ (by omega)]
      simp [Reader.take, Reader.read, hfirst]
  | case3 a b =>
      have ha := h a (by simp)
      have hb := h b (by simp)
      have hfirst : a / 4 * 4 + (a % 4 * 16 + b / 16) / 16 = a := by omega
      have hsecond : b / 16 % 16 * 16 + b % 16 = b := by omega
      rw [encode, read_symbol _ (by omega), read_symbol _ (by omega), read_symbol _ (by omega)]
      simp [Reader.take, Reader.read, hfirst, hsecond]
  | case4 a b c rest ih =>
      have hrest := ih fun x hx => h x (by simp [hx])
      rw [encode, read_group (h a (by simp)) (h b (by simp)) (h c (by simp)), hrest]
      rfl

theorem mem_encode {octets : List ℕ} (h : ∀ b ∈ octets, b < 256) {c : Char}
    (hc : c ∈ encode octets) : c = '=' ∨ ∃ v < 64, c = symbol v := by
  induction octets using encode.induct with
  | case1 => cases hc
  | case2 a =>
      have ha := h a (by simp)
      simp only [encode, List.mem_cons, List.not_mem_nil, or_false] at hc
      rcases hc with rfl | rfl | rfl | rfl
      · exact Or.inr ⟨_, by omega, rfl⟩
      · exact Or.inr ⟨_, by omega, rfl⟩
      · exact Or.inl rfl
      · exact Or.inl rfl
  | case3 a b =>
      have ha := h a (by simp)
      have hb := h b (by simp)
      simp only [encode, List.mem_cons, List.not_mem_nil, or_false] at hc
      rcases hc with rfl | rfl | rfl | rfl
      · exact Or.inr ⟨_, by omega, rfl⟩
      · exact Or.inr ⟨_, by omega, rfl⟩
      · exact Or.inr ⟨_, by omega, rfl⟩
      · exact Or.inl rfl
  | case4 a b x rest ih =>
      have ha := h a (by simp)
      have hb := h b (by simp)
      have hx := h x (by simp)
      simp only [encode, List.mem_cons] at hc
      rcases hc with rfl | rfl | rfl | rfl | hc
      · exact Or.inr ⟨_, by omega, rfl⟩
      · exact Or.inr ⟨_, by omega, rfl⟩
      · exact Or.inr ⟨_, by omega, rfl⟩
      · exact Or.inr ⟨_, by omega, rfl⟩
      · exact ih (fun y hy => h y (by simp [hy])) hc

theorem ascii_encode {octets : List ℕ} (h : ∀ b ∈ octets, b < 256) :
    ∀ c ∈ encode octets, c.toNat < 128 := by
  intro c hc
  rcases mem_encode h hc with rfl | ⟨v, hv, rfl⟩
  · decide
  · exact (symbol_spec hv).2.2

theorem decode_encode {octets : List ℕ} (h : ∀ b ∈ octets, b < 256) :
    decode (encode octets) = some octets := by
  have hascii : (encode octets).all (fun c => c.toNat < 128) = true :=
    List.all_eq_true.mpr fun c hc => decide_eq_true (ascii_encode h c hc)
  rw [decode, if_pos hascii, read_encode h]

end FacialCamera.Core.Base64
