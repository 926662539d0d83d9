/-
  File:      Anjay/Lib/Base64.lean
  Subject:   The base64 text of bytes (RFC 4648), with padding.

  * `encode`, `decode`: three bytes are four characters; the last group may be padded.
  * `decode_encode`: **decoding the text of some bytes gives them back.**
  * `encode_append`: whole groups can be encoded on their own.
-/
import Mathlib.Data.List.Basic

namespace Anjay.Lib.Base64

/-! ## 1. Characters -/

def pad : UInt8 := 0x3D

/-- The character of a number below 64. -/
def charOf (n : Nat) : UInt8 :=
  if n < 26 then UInt8.ofNat (0x41 + n)
  else if n < 52 then UInt8.ofNat (0x61 + (n - 26))
  else if n < 62 then UInt8.ofNat (0x30 + (n - 52))
  else if n = 62 then 0x2B
  else 0x2F

/-- The number of a character. -/
def valueOf (c : UInt8) : Option Nat :=
  if 0x41 ≤ c ∧ c ≤ 0x5A then some (c.toNat - 0x41)
  else if 0x61 ≤ c ∧ c ≤ 0x7A then some (c.toNat - 0x61 + 26)
  else if 0x30 ≤ c ∧ c ≤ 0x39 then some (c.toNat - 0x30 + 52)
  else if c = 0x2B then some 62
  else if c = 0x2F then some 63
  else none

theorem valueOf_charOf : ∀ n < 64, valueOf (charOf n) = some n := by decide +kernel

theorem charOf_ne_pad : ∀ n < 64, charOf n ≠ pad := by decide +kernel

/-- The characters of a base64 text. -/
def isChar (c : UInt8) : Bool := (valueOf c).isSome || c == pad

theorem isChar_charOf {n : Nat} (h : n < 64) : isChar (charOf n) = true := by
  unfold isChar
  rw [valueOf_charOf n h]
  rfl

/-! ## 2. Encoding and decoding -/

/-- The text of some bytes. -/
def encode : List UInt8 → List UInt8
  | [] => []
  | [a] => [charOf (a.toNat / 4), charOf (a.toNat % 4 * 16), pad, pad]
  | [a, b] => [charOf (a.toNat / 4), charOf (a.toNat % 4 * 16 + b.toNat / 16), charOf (b.toNat % 16 * 4), pad]
  | a :: b :: c :: rest =>
      charOf (a.toNat / 4) :: charOf (a.toNat % 4 * 16 + b.toNat / 16) :: charOf (b.toNat % 16 * 4 + c.toNat / 64) ::
        charOf (c.toNat % 64) :: encode rest

/-- The bytes of the last group, where its last character is a pad. -/
def decodePadded (p q r : UInt8) : Option (List UInt8) := do
  let p ← valueOf p
  let q ← valueOf q
  if r = pad then some [UInt8.ofNat (p * 4 + q / 16)]
  else
    let r ← valueOf r
    some [UInt8.ofNat (p * 4 + q / 16), UInt8.ofNat (q % 16 * 16 + r / 4)]

/-- The bytes of a whole group. -/
def decodeGroup (p q r s : UInt8) : Option (List UInt8) := do
  let p ← valueOf p
  let q ← valueOf q
  let r ← valueOf r
  let s ← valueOf s
  some [UInt8.ofNat (p * 4 + q / 16), UInt8.ofNat (q % 16 * 16 + r / 4), UInt8.ofNat (r % 4 * 64 + s)]

/-- The bytes that a text denotes. -/
def decode : List UInt8 → Option (List UInt8)
  | [] => some []
  | p :: q :: r :: s :: rest =>
      if s = pad then if rest.isEmpty then decodePadded p q r else none
      else
        match decodeGroup p q r s, decode rest with
        | some front, some back => some (front ++ back)
        | _, _ => none
  | _ => none

/-! ## 3. The text and its bytes -/

theorem ofNat_eq {b : UInt8} {n : Nat} (h : n = b.toNat) : UInt8.ofNat n = b := by
  rw [h, UInt8.ofNat_toNat]

theorem decodeGroup_encode (a b c : UInt8) :
    decodeGroup (charOf (a.toNat / 4)) (charOf (a.toNat % 4 * 16 + b.toNat / 16))
      (charOf (b.toNat % 16 * 4 + c.toNat / 64)) (charOf (c.toNat % 64)) = some [a, b, c] := by
  have ha : a.toNat < 256 := a.toNat_lt
  have hb : b.toNat < 256 := b.toNat_lt
  have hc : c.toNat < 256 := c.toNat_lt
  have h1 := valueOf_charOf (a.toNat / 4) (by omega)
  have h2 := valueOf_charOf (a.toNat % 4 * 16 + b.toNat / 16) (by omega)
  have h3 := valueOf_charOf (b.toNat % 16 * 4 + c.toNat / 64) (by omega)
  have h4 := valueOf_charOf (c.toNat % 64) (by omega)
  have e1 : UInt8.ofNat (a.toNat / 4 * 4 + (a.toNat % 4 * 16 + b.toNat / 16) / 16) = a := ofNat_eq (by omega)
  have e2 : UInt8.ofNat ((a.toNat % 4 * 16 + b.toNat / 16) % 16 * 16 + (b.toNat % 16 * 4 + c.toNat / 64) / 4) = b :=
    ofNat_eq (by omega)
  have e3 : UInt8.ofNat ((b.toNat % 16 * 4 + c.toNat / 64) % 4 * 64 + c.toNat % 64) = c := ofNat_eq (by omega)
  unfold decodeGroup
  rw [h1, h2, h3, h4]
  show some [_, _, _] = _
  rw [e1, e2, e3]

theorem decodePadded_two (a b : UInt8) :
    decodePadded (charOf (a.toNat / 4)) (charOf (a.toNat % 4 * 16 + b.toNat / 16)) (charOf (b.toNat % 16 * 4)) =
      some [a, b] := by
  have ha : a.toNat < 256 := a.toNat_lt
  have hb : b.toNat < 256 := b.toNat_lt
  have h1 := valueOf_charOf (a.toNat / 4) (by omega)
  have h2 := valueOf_charOf (a.toNat % 4 * 16 + b.toNat / 16) (by omega)
  have h3 := valueOf_charOf (b.toNat % 16 * 4) (by omega)
  have e1 : UInt8.ofNat (a.toNat / 4 * 4 + (a.toNat % 4 * 16 + b.toNat / 16) / 16) = a := ofNat_eq (by omega)
  have e2 : UInt8.ofNat ((a.toNat % 4 * 16 + b.toNat / 16) % 16 * 16 + b.toNat % 16 * 4 / 4) = b :=
    ofNat_eq (by omega)
  unfold decodePadded
  rw [h1, h2]
  show (if charOf (b.toNat % 16 * 4) = pad then _ else _) = _
  rw [if_neg (charOf_ne_pad _ (by omega)), h3]
  show some [_, _] = _
  rw [e1, e2]

theorem decodePadded_one (a : UInt8) :
    decodePadded (charOf (a.toNat / 4)) (charOf (a.toNat % 4 * 16)) pad = some [a] := by
  have ha : a.toNat < 256 := a.toNat_lt
  have h1 := valueOf_charOf (a.toNat / 4) (by omega)
  have h2 := valueOf_charOf (a.toNat % 4 * 16) (by omega)
  have e1 : UInt8.ofNat (a.toNat / 4 * 4 + a.toNat % 4 * 16 / 16) = a := ofNat_eq (by omega)
  unfold decodePadded
  rw [h1, h2]
  show some [_] = _
  rw [e1]

/-- **Decoding the text of some bytes gives them back.** -/
theorem decode_encode : ∀ bs : List UInt8, decode (encode bs) = some bs
  | [] => rfl
  | [a] => decodePadded_one a
  | [a, b] => decodePadded_two a b
  | a :: b :: c :: rest => by
      have hlast := charOf_ne_pad (c.toNat % 64) (by omega)
      show (if charOf (c.toNat % 64) = pad then _ else _) = _
      rw [if_neg hlast, decodeGroup_encode, decode_encode rest]
      rfl

/-- **Whole groups are encoded on their own.** -/
theorem encode_append : ∀ (front back : List UInt8), front.length % 3 = 0 →
    encode (front ++ back) = encode front ++ encode back
  | [], _, _ => rfl
  | [_], _, h => by simp at h
  | [_, _], _, h => by simp at h
  | a :: b :: c :: rest, back, h => by
      have hrest : rest.length % 3 = 0 := by
        rw [List.length_cons, List.length_cons, List.length_cons] at h
        omega
      show charOf _ :: charOf _ :: charOf _ :: charOf _ :: encode (rest ++ back) = _
      rw [encode_append rest back hrest]
      rfl

theorem isChar_encode : ∀ (bs : List UInt8), ∀ c ∈ encode bs, isChar c = true
  | [], _, hc => nomatch hc
  | [a], x, hx => by
      have ha : a.toNat < 256 := a.toNat_lt
      have hall : ∀ c ∈ encode [a], isChar c = true :=
        List.forall_mem_cons.mpr ⟨isChar_charOf (by omega), List.forall_mem_cons.mpr ⟨isChar_charOf (by omega),
          List.forall_mem_cons.mpr ⟨rfl, List.forall_mem_singleton.mpr rfl⟩⟩⟩
      exact hall x hx
  | [a, b], x, hx => by
      have ha : a.toNat < 256 := a.toNat_lt
      have hb : b.toNat < 256 := b.toNat_lt
      have hall : ∀ c ∈ encode [a, b], isChar c = true :=
        List.forall_mem_cons.mpr ⟨isChar_charOf (by omega), List.forall_mem_cons.mpr ⟨isChar_charOf (by omega),
          List.forall_mem_cons.mpr ⟨isChar_charOf (by omega), List.forall_mem_singleton.mpr rfl⟩⟩⟩
      exact hall x hx
  | a :: b :: c :: rest, x, hx => by
      have ha : a.toNat < 256 := a.toNat_lt
      have hb : b.toNat < 256 := b.toNat_lt
      have hc : c.toNat < 256 := c.toNat_lt
      have hall : ∀ y ∈ encode (a :: b :: c :: rest), isChar y = true :=
        List.forall_mem_cons.mpr ⟨isChar_charOf (by omega), List.forall_mem_cons.mpr ⟨isChar_charOf (by omega),
          List.forall_mem_cons.mpr ⟨isChar_charOf (by omega), List.forall_mem_cons.mpr ⟨isChar_charOf (by omega),
            isChar_encode rest⟩⟩⟩⟩
      exact hall x hx

end Anjay.Lib.Base64
