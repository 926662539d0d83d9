/-
  File:      Anjay/Lib/Json.lean
  Subject:   Reading JSON strings (RFC 8259) from UTF-8 text, into the UTF-8 bytes of the string.

  * `decodeString`: the string that a text between quotation marks denotes.
  * `stringBody_unescaped`, `stringBody_escape`, `stringBody_unit`: what the three kinds of characters of a text
    contribute.
-/
import Mathlib.Data.List.Basic

namespace Anjay.Lib.Json

/-! ## 1. Characters -/

def quote : UInt8 := 0x22
def backslash : UInt8 := 0x5C
def letterU : UInt8 := 0x75

/-- The character behind a backslash, and what the two denote. -/
def unescape (b : UInt8) : Option UInt8 :=
  if b = quote then some quote
  else if b = backslash then some backslash
  else if b = 0x2F then some 0x2F
  else if b = 0x62 then some 0x08
  else if b = 0x66 then some 0x0C
  else if b = 0x6E then some 0x0A
  else if b = 0x72 then some 0x0D
  else if b = 0x74 then some 0x09
  else none

/-- A hexadecimal digit. -/
def hexDigit (b : UInt8) : Option Nat :=
  if 0x30 ≤ b ∧ b ≤ 0x39 then some (b.toNat - 0x30)
  else if 0x41 ≤ b ∧ b ≤ 0x46 then some (b.toNat - 0x37)
  else if 0x61 ≤ b ∧ b ≤ 0x66 then some (b.toNat - 0x57)
  else none

/-- The code unit that four hexadecimal digits spell. -/
def codeUnit (a b c d : UInt8) : Option Nat := do
  let a ← hexDigit a
  let b ← hexDigit b
  let c ← hexDigit c
  let d ← hexDigit d
  some (((a * 16 + b) * 16 + c) * 16 + d)

/-- The first and the second half of a surrogate pair. -/
def isHigh (u : Nat) : Bool := decide (0xD800 ≤ u ∧ u < 0xDC00)
def isLow (u : Nat) : Bool := decide (0xDC00 ≤ u ∧ u < 0xE000)

/-- The UTF-8 encoding of a code point. -/
def codePointBytes (n : Nat) : List UInt8 := String.utf8EncodeChar (Char.ofNat n)

/-- `front`, before what was read. -/
def prepend (front : List UInt8) (r : List UInt8 × List UInt8) : List UInt8 × List UInt8 := (front ++ r.1, r.2)

/-! ## 2. Strings -/

/-- The rest of a string behind its first quotation mark: what it denotes, and the text behind it. -/
def stringBody : List UInt8 → Option (List UInt8 × List UInt8)
  | [] => none
  | c :: rest =>
      if c = quote then some ([], rest)
      else if c = backslash then
        match rest with
        | [] => none
        | e :: rest =>
            if e = letterU then
              match rest with
              | h₁ :: h₂ :: h₃ :: h₄ :: rest =>
                  match codeUnit h₁ h₂ h₃ h₄ with
                  | none => none
                  | some u =>
                      if isHigh u then
                        match rest with
                        | b :: e :: l₁ :: l₂ :: l₃ :: l₄ :: rest =>
                            match codeUnit l₁ l₂ l₃ l₄ with
                            | none => none
                            | some l =>
                                if b = backslash ∧ e = letterU ∧ isLow l then
                                  (stringBody rest).map
                                    (prepend (codePointBytes (0x10000 + (u - 0xD800) * 0x400 + (l - 0xDC00))))
                                else none
                        | _ => none
                      else if isLow u then none
                      else (stringBody rest).map (prepend (codePointBytes u))
              | _ => none
            else
              match unescape e with
              | none => none
              | some b => (stringBody rest).map (prepend [b])
      else if c < 0x20 then none
      else (stringBody rest).map (prepend [c])

/-- **The string that a text denotes**; a text that is no JSON string denotes none. -/
def decodeString : List UInt8 → Option (List UInt8)
  | [] => none
  | c :: rest =>
      if c = quote then
        match stringBody rest with
        | some (s, []) => some s
        | _ => none
      else none

theorem stringBody_quote (rest : List UInt8) : stringBody (quote :: rest) = some ([], rest) := by
  rw [stringBody.eq_def]
  exact if_pos rfl

/-- A character that stands for itself. -/
theorem stringBody_unescaped {c : UInt8} (rest : List UInt8) (hquote : c ≠ quote) (hbackslash : c ≠ backslash)
    (hcontrol : ¬c < 0x20) : stringBody (c :: rest) = (stringBody rest).map (prepend [c]) := by
  rw [stringBody.eq_def]
  dsimp only
  rw [if_neg hquote, if_neg hbackslash, if_neg hcontrol]

theorem backslash_ne_quote : backslash ≠ quote := by decide

/-- A character behind a backslash. -/
theorem stringBody_escape {e b : UInt8} (rest : List UInt8) (hu : e ≠ letterU) (he : unescape e = some b) :
    stringBody (backslash :: e :: rest) = (stringBody rest).map (prepend [b]) := by
  rw [stringBody.eq_def]
  dsimp only
  rw [if_neg backslash_ne_quote, if_pos rfl, if_neg hu, he]

/-- A code unit that is no surrogate. -/
theorem stringBody_unit {h₁ h₂ h₃ h₄ : UInt8} {u : Nat} (rest : List UInt8) (hunit : codeUnit h₁ h₂ h₃ h₄ = some u)
    (hsurrogate : u < 0xD800) :
    stringBody (backslash :: letterU :: h₁ :: h₂ :: h₃ :: h₄ :: rest) =
      (stringBody rest).map (prepend (codePointBytes u)) := by
  have hhigh : isHigh u = false := decide_eq_false fun h => absurd h.1 (Nat.not_le.mpr hsurrogate)
  have hlow : isLow u = false := decide_eq_false fun h => by omega
  rw [stringBody.eq_def]
  dsimp only
  rw [if_neg backslash_ne_quote, if_pos rfl, if_pos rfl, hunit]
  dsimp only
  rw [hhigh, hlow, if_neg Bool.false_ne_true, if_neg Bool.false_ne_true]

/-! ## 3. Code points of one byte -/

theorem toNat_ofNat {n : Nat} (h : n < 0xD800) : (Char.ofNat n).val.toNat = n := by
  have hvalid : n.isValidChar := Or.inl h
  rw [Char.ofNat, dif_pos hvalid]
  rfl

/-- Up to 127 a code point is encoded as itself. -/
theorem codePointBytes_ascii {b : UInt8} (h : b < 0x80) : codePointBytes b.toNat = [b] := by
  have hb : b.toNat < 0x80 := UInt8.lt_iff_toNat_lt.mp h
  have hchar : (Char.ofNat b.toNat).val.toNat = b.toNat := toNat_ofNat (by omega)
  unfold codePointBytes String.utf8EncodeChar
  rw [hchar]
  dsimp only
  rw [if_pos (by omega), UInt8.ofNat_toNat]

/-- From 128 on a byte, taken for a code point, is encoded as two. -/
theorem codePointBytes_length {b : UInt8} (h : ¬b < 0x80) : (codePointBytes b.toNat).length = 2 := by
  have hb : ¬b.toNat < 0x80 := fun hlt => h (UInt8.lt_iff_toNat_lt.mpr hlt)
  have hbound : b.toNat < 256 := b.toNat_lt
  have hchar : (Char.ofNat b.toNat).val.toNat = b.toNat := toNat_ofNat (by omega)
  unfold codePointBytes String.utf8EncodeChar
  rw [hchar]
  dsimp only
  rw [if_neg (by omega), if_pos (by omega)]
  rfl

end Anjay.Lib.Json
