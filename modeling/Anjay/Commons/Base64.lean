/-
  File:      Anjay/Commons/Base64.lean
  Subject:   The base64 functions of avs_commons (`avs_base64.c`) with their configuration.

  * `base64Encoded_append`: whole groups are encoded on their own, with padding and without.
  * `strictLoop_cons`: what the strict decoder does with one character.
  * `decodeStrict_group`: **four characters are decoded as a group of the notation, but for a NUL at the first or the
    second place, where the decoder stops and finds nothing wrong.**
-/
import Anjay.Commons.Parse
import Anjay.Lib.Base64

namespace Anjay.Commons

open Lib Text

/-! ## 1. Configuration -/

/-- `avs_base64_config_t`; the padding character 0 stands for none. -/
structure Base64Config where
  alphabet : List UInt8
  paddingChar : UInt8
  allowWhitespace : Bool
  requirePadding : Bool
  deriving DecidableEq, Repr

/-- AVS_BASE64_CHARS. -/
def base64Chars : List UInt8 :=
  [0x41, 0x42, 0x43, 0x44, 0x45, 0x46, 0x47, 0x48, 0x49, 0x4A, 0x4B, 0x4C, 0x4D, 0x4E, 0x4F, 0x50,
    0x51, 0x52, 0x53, 0x54, 0x55, 0x56, 0x57, 0x58, 0x59, 0x5A, 0x61, 0x62, 0x63, 0x64, 0x65, 0x66,
    0x67, 0x68, 0x69, 0x6A, 0x6B, 0x6C, 0x6D, 0x6E, 0x6F, 0x70, 0x71, 0x72, 0x73, 0x74, 0x75, 0x76,
    0x77, 0x78, 0x79, 0x7A, 0x30, 0x31, 0x32, 0x33, 0x34, 0x35, 0x36, 0x37, 0x38, 0x39, 0x2B, 0x2F]

/-- AVS_BASE64_DEFAULT_STRICT_CONFIG. -/
def defaultStrictConfig : Base64Config := ⟨base64Chars, 0x3D, false, true⟩

/-! ## 2. Encoding -/

/-- `avs_base64_encoded_size`, with room for a NUL. -/
def base64EncodedSize (inputLength : Nat) : Nat := inputLength / 3 * 4 + (if inputLength % 3 = 0 then 0 else 4) + 1

/-- `avs_base64_encoded_size_without_padding`, with room for a NUL. -/
def base64EncodedSizeWithoutPadding (inputLength : Nat) : Nat :=
  inputLength / 3 * 4 + (if inputLength % 3 = 0 then 0 else inputLength % 3 + 1) + 1

/-- How much room the text of some bytes needs. -/
def encodedSize (config : Base64Config) (inputLength : Nat) : Nat :=
  if config.paddingChar ≠ 0 then base64EncodedSize inputLength else base64EncodedSizeWithoutPadding inputLength

/-- The loop of `avs_base64_encode_custom` at the index `i`, with what it writes for the rest behind it. -/
def base64EncodeLoop (alphabet : List UInt8) : Nat → Nat → List UInt8 → List UInt8
  | i, sh, [] =>
      if i % 3 = 1 then [alphabet.getD (sh * 16) 0] else if i % 3 = 2 then [alphabet.getD (sh * 4) 0] else []
  | i, sh, num :: input =>
      if i % 3 = 0 then alphabet.getD (num.toNat / 4) 0 :: base64EncodeLoop alphabet (i + 1) (num.toNat % 4) input
      else if i % 3 = 1 then
        alphabet.getD (sh * 16 + num.toNat / 16) 0 :: base64EncodeLoop alphabet (i + 1) (num.toNat % 16) input
      else
        alphabet.getD (sh * 4 + num.toNat / 64) 0 :: alphabet.getD (num.toNat % 64) 0 ::
          base64EncodeLoop alphabet (i + 1) sh input

/-- The loop over the padding. -/
def withPadding (config : Base64Config) (out : List UInt8) : List UInt8 :=
  if config.paddingChar ≠ 0 then out ++ List.replicate ((4 - out.length % 4) % 4) config.paddingChar else out

/-- The text of some bytes. -/
def base64Encoded (config : Base64Config) (input : List UInt8) : List UInt8 :=
  withPadding config (base64EncodeLoop config.alphabet 0 0 input)

/-- `avs_base64_encode_custom`. -/
def base64EncodeCustom (config : Base64Config) (outLength : Nat) (input : List UInt8) : Option (List UInt8) :=
  if outLength < encodedSize config input.length then none else some (base64Encoded config input)

section Groups

variable (alphabet : List UInt8) {i : Nat} (hi : i % 3 = 0) (sh : Nat) (a b c : UInt8)

include hi

theorem base64EncodeLoop_nil : base64EncodeLoop alphabet i sh [] = [] := by
  rw [base64EncodeLoop, if_neg (by omega), if_neg (by omega)]

theorem base64EncodeLoop_one : base64EncodeLoop alphabet i sh [a] =
    [alphabet.getD (a.toNat / 4) 0, alphabet.getD (a.toNat % 4 * 16) 0] := by
  rw [base64EncodeLoop, if_pos hi, base64EncodeLoop, if_pos (by omega)]

theorem base64EncodeLoop_two : base64EncodeLoop alphabet i sh [a, b] =
    [alphabet.getD (a.toNat / 4) 0, alphabet.getD (a.toNat % 4 * 16 + b.toNat / 16) 0,
      alphabet.getD (b.toNat % 16 * 4) 0] := by
  rw [base64EncodeLoop, if_pos hi, base64EncodeLoop, if_neg (by omega), if_pos (by omega), base64EncodeLoop,
    if_neg (by omega), if_pos (by omega)]

theorem base64EncodeLoop_three (input : List UInt8) : base64EncodeLoop alphabet i sh (a :: b :: c :: input) =
    alphabet.getD (a.toNat / 4) 0 :: alphabet.getD (a.toNat % 4 * 16 + b.toNat / 16) 0 ::
      alphabet.getD (b.toNat % 16 * 4 + c.toNat / 64) 0 :: alphabet.getD (c.toNat % 64) 0 ::
        base64EncodeLoop alphabet (i + 1 + 1 + 1) (b.toNat % 16) input := by
  rw [base64EncodeLoop, if_pos hi, base64EncodeLoop, if_neg (by omega), if_pos (by omega), base64EncodeLoop,
    if_neg (by omega), if_neg (by omega)]

end Groups

/-- The loop looks at the place in the group only. -/
theorem base64EncodeLoop_start (alphabet : List UInt8) : ∀ (input : List UInt8) {i : Nat} (sh : Nat), i % 3 = 0 →
    base64EncodeLoop alphabet i sh input = base64EncodeLoop alphabet 0 0 input
  | [], i, sh, hi => by rw [base64EncodeLoop_nil alphabet hi, base64EncodeLoop_nil alphabet rfl]
  | [a], i, sh, hi => by rw [base64EncodeLoop_one alphabet hi, base64EncodeLoop_one alphabet rfl]
  | [a, b], i, sh, hi => by rw [base64EncodeLoop_two alphabet hi, base64EncodeLoop_two alphabet rfl]
  | a :: b :: c :: input, i, sh, hi => by
      have hnext : (i + 1 + 1 + 1) % 3 = 0 := by omega
      have hfirst : (0 + 1 + 1 + 1) % 3 = 0 := rfl
      rw [base64EncodeLoop_three alphabet hi, base64EncodeLoop_three alphabet rfl,
        base64EncodeLoop_start alphabet input _ hnext, base64EncodeLoop_start alphabet input _ hfirst]

/-- Padding stands behind the last group. -/
theorem withPadding_group (config : Base64Config) (p q r s : UInt8) (out : List UInt8) :
    withPadding config (p :: q :: r :: s :: out) = p :: q :: r :: s :: withPadding config out := by
  unfold withPadding
  split
  · have hlength : (p :: q :: r :: s :: out).length % 4 = out.length % 4 := by
      simp only [List.length_cons]
      omega
    rw [hlength]
    rfl
  · rfl

theorem base64Encoded_nil (config : Base64Config) : base64Encoded config [] = [] := by
  unfold base64Encoded withPadding
  rw [base64EncodeLoop_nil _ rfl]
  split <;> simp

theorem base64Encoded_group (config : Base64Config) (a b c : UInt8) (input : List UInt8) :
    base64Encoded config (a :: b :: c :: input) =
      config.alphabet.getD (a.toNat / 4) 0 :: config.alphabet.getD (a.toNat % 4 * 16 + b.toNat / 16) 0 ::
        config.alphabet.getD (b.toNat % 16 * 4 + c.toNat / 64) 0 :: config.alphabet.getD (c.toNat % 64) 0 ::
          base64Encoded config input := by
  have hnext : (0 + 1 + 1 + 1) % 3 = 0 := rfl
  unfold base64Encoded
  rw [base64EncodeLoop_three _ rfl, base64EncodeLoop_start _ input _ hnext, withPadding_group]

/-- **Whole groups are encoded on their own.** -/
theorem base64Encoded_append (config : Base64Config) : ∀ (front back : List UInt8), front.length % 3 = 0 →
    base64Encoded config (front ++ back) = base64Encoded config front ++ base64Encoded config back
  | [], back, _ => by rw [base64Encoded_nil, List.nil_append, List.nil_append]
  | [_], _, h => by simp at h
  | [_, _], _, h => by simp at h
  | a :: b :: c :: front, back, h => by
      have hfront : front.length % 3 = 0 := by
        simp only [List.length_cons] at h
        omega
      rw [List.cons_append, List.cons_append, List.cons_append, base64Encoded_group, base64Encoded_group,
        base64Encoded_append config front back hfront]
      rfl

/-- **The sizes are those of the text, with a NUL.** -/
theorem length_base64Encoded (config : Base64Config) : ∀ input : List UInt8,
    (base64Encoded config input).length + 1 = encodedSize config input.length
  | [] => by
      rw [base64Encoded_nil]
      unfold encodedSize
      split <;> rfl
  | [a] => by
      unfold encodedSize base64Encoded withPadding
      rw [base64EncodeLoop_one _ rfl]
      split <;> simp [base64EncodedSize, base64EncodedSizeWithoutPadding]
  | [a, b] => by
      unfold encodedSize base64Encoded withPadding
      rw [base64EncodeLoop_two _ rfl]
      split <;> simp [base64EncodedSize, base64EncodedSizeWithoutPadding]
  | a :: b :: c :: input => by
      have ih := length_base64Encoded config input
      have hsize : encodedSize config (input.length + 1 + 1 + 1) = encodedSize config input.length + 4 := by
        unfold encodedSize base64EncodedSize base64EncodedSizeWithoutPadding
        have hdiv : (input.length + 1 + 1 + 1) / 3 = input.length / 3 + 1 := by omega
        have hmod : (input.length + 1 + 1 + 1) % 3 = input.length % 3 := by omega
        rw [hdiv, hmod]
        split
        · omega
        · omega
      rw [base64Encoded_group]
      simp only [List.length_cons]
      omega

theorem encodedSize_mono (config : Base64Config) {m n : Nat} (h : m ≤ n) : encodedSize config m ≤ encodedSize config n := by
  unfold encodedSize base64EncodedSize base64EncodedSizeWithoutPadding
  split
  · split <;> split <;> omega
  · split <;> split <;> omega

/-! ## 3. Decoding -/

/-- The loop of `avs_base64_decode_custom` over the text, with its variables; the number of bytes in `out` is
    `out_length`. The text ends at its first NUL. -/
def base64DecodeLoop (config : Base64Config) (outSize accumulator bits padding : Nat) (out : List UInt8) :
    List UInt8 → Option (List UInt8 × Nat)
  | [] => some (out, padding)
  | ch :: rest =>
      if ch = 0 then some (out, padding)
      else if outSize ≤ out.length then none
      else if isSpace ch then
        if config.allowWhitespace then base64DecodeLoop config outSize accumulator bits padding out rest else none
      else if ch = config.paddingChar then
        if config.requirePadding then
          if 2 < padding + 1 then none
          else base64DecodeLoop config outSize accumulator bits (padding + 1) out rest
        else base64DecodeLoop config outSize accumulator bits padding out rest
      else if padding ≠ 0 then none
      else
        match config.alphabet.idxOf? ch with
        | none => none
        | some value =>
            if 8 ≤ bits + 6 then
              base64DecodeLoop config outSize ((accumulator * 64 + value) % 4294967296) (bits + 6 - 8) padding
                (out ++ [UInt8.ofNat ((accumulator * 64 + value) % 4294967296 / 2 ^ (bits + 6 - 8))]) rest
            else
              base64DecodeLoop config outSize ((accumulator * 64 + value) % 4294967296) (bits + 6) padding out rest

/-- `avs_base64_decode_custom`. -/
def base64DecodeCustom (config : Base64Config) (outSize : Nat) (text : List UInt8) : Option (List UInt8) :=
  match base64DecodeLoop config outSize 0 0 0 [] text with
  | none => none
  | some (out, padding) =>
      if config.paddingChar ≠ 0 ∧ config.requirePadding = true ∧ padding ≠ (3 - out.length % 3) % 3 then none
      else some out

/-- `avs_base64_decode_strict`. -/
def base64DecodeStrict (outSize : Nat) (text : List UInt8) : Option (List UInt8) :=
  base64DecodeCustom defaultStrictConfig outSize text

/-! ## 4. One character -/

/-- White space, the padding and NUL are no characters of the alphabet. -/
theorem valueOf_other (c : UInt8) : (isSpace c = true → c ≠ Base64.pad ∧ Base64.valueOf c = none) ∧
    Base64.valueOf Base64.pad = none ∧ Base64.valueOf 0 = none ∧
    ∀ v, Base64.valueOf c = some v → v < 64 ∧ Base64.charOf v = c := by
  have hall : ∀ n : Fin 256, (isSpace (UInt8.ofNat n.val) = true →
      UInt8.ofNat n.val ≠ Base64.pad ∧ Base64.valueOf (UInt8.ofNat n.val) = none) ∧
      (Base64.valueOf (UInt8.ofNat n.val)).all
        (fun v => decide (v < 64) && decide (Base64.charOf v = UInt8.ofNat n.val)) = true := by
    decide +kernel
  have hc := hall ⟨c.toNat, c.toNat_lt⟩
  rw [UInt8.ofNat_toNat] at hc
  refine ⟨hc.1, by decide, by decide, fun v hv => ?_⟩
  have hbound := hc.2
  rw [hv] at hbound
  obtain ⟨hlt, hchar⟩ := Bool.and_eq_true_iff.mp hbound
  exact ⟨of_decide_eq_true hlt, of_decide_eq_true hchar⟩

theorem base64Chars_eq : base64Chars = (List.range 64).map Base64.charOf := by decide +kernel

/-- The place of a character in the table is its number. -/
theorem idxOf_base64Chars (c : UInt8) : base64Chars.idxOf? c = Base64.valueOf c := by
  cases hidx : base64Chars.idxOf? c with
  | none =>
      cases hvalue : Base64.valueOf c with
      | none => rfl
      | some v =>
          obtain ⟨hlt, hchar⟩ := (valueOf_other c).2.2.2 v hvalue
          refine absurd ?_ (List.idxOf?_eq_none_iff.mp hidx)
          rw [base64Chars_eq]
          exact List.mem_map.mpr ⟨v, List.mem_range.mpr hlt, hchar⟩
  | some i =>
      obtain ⟨hlt, heq, -⟩ := List.findIdx?_eq_some_iff_getElem.mp hidx
      have hget : base64Chars[i] = Base64.charOf i := by simp [base64Chars_eq]
      rw [hget] at heq
      rw [← eq_of_beq heq]
      exact (Base64.valueOf_charOf i hlt).symm

/-- The loop of the strict decoder, with the table as a function. -/
def strictLoop (outSize accumulator bits padding : Nat) (out : List UInt8) : List UInt8 → Option (List UInt8 × Nat) :=
  base64DecodeLoop defaultStrictConfig outSize accumulator bits padding out

theorem strictLoop_cons (outSize accumulator bits padding : Nat) (out : List UInt8) (ch : UInt8) (rest : List UInt8) :
    strictLoop outSize accumulator bits padding out (ch :: rest) =
      if ch = 0 then some (out, padding)
      else if outSize ≤ out.length then none
      else if ch = Base64.pad then
        if 2 ≤ padding then none else strictLoop outSize accumulator bits (padding + 1) out rest
      else if padding ≠ 0 then none
      else
        match Base64.valueOf ch with
        | none => none
        | some value =>
            if 2 ≤ bits then
              strictLoop outSize ((accumulator * 64 + value) % 4294967296) (bits - 2) padding
                (out ++ [UInt8.ofNat ((accumulator * 64 + value) % 4294967296 / 2 ^ (bits - 2))]) rest
            else strictLoop outSize ((accumulator * 64 + value) % 4294967296) (bits + 6) padding out rest := by
  unfold strictLoop
  rw [base64DecodeLoop]
  have hpad : defaultStrictConfig.paddingChar = Base64.pad := rfl
  have hchars : defaultStrictConfig.alphabet = base64Chars := rfl
  have hwhite : defaultStrictConfig.allowWhitespace = false := rfl
  have hrequire : defaultStrictConfig.requirePadding = true := rfl
  rw [hpad, hchars, hwhite, hrequire, idxOf_base64Chars]
  by_cases hnul : ch = 0
  · rw [if_pos hnul, if_pos hnul]
  rw [if_neg hnul, if_neg hnul]
  by_cases hfull : outSize ≤ out.length
  · rw [if_pos hfull, if_pos hfull]
  rw [if_neg hfull, if_neg hfull]
  by_cases hspace : isSpace ch = true
  · obtain ⟨hne, hvalue⟩ := (valueOf_other ch).1 hspace
    rw [if_pos hspace, if_neg hne, hvalue, if_neg Bool.false_ne_true]
    split <;> rfl
  rw [if_neg hspace, if_pos rfl]
  by_cases hpad : ch = Base64.pad
  · rw [if_pos hpad, if_pos hpad]
    by_cases htwo : 2 ≤ padding
    · rw [if_pos htwo, if_pos (by omega)]
    · rw [if_neg htwo, if_neg (by omega)]
  rw [if_neg hpad, if_neg hpad]
  by_cases hzero : padding ≠ 0
  · rw [if_pos hzero, if_pos hzero]
  rw [if_neg hzero, if_neg hzero]
  cases Base64.valueOf ch with
  | none => rfl
  | some value =>
      dsimp only
      by_cases hbits : 2 ≤ bits
      · rw [if_pos hbits, if_pos (by omega), show bits + 6 - 8 = bits - 2 by omega]
      · rw [if_neg hbits, if_neg (by omega)]

/-- A character of the alphabet. -/
theorem strictLoop_char {outSize accumulator bits value : Nat} {out : List UInt8} {ch : UInt8} {rest : List UInt8}
    (hroom : out.length < outSize) (hvalue : Base64.valueOf ch = some value) :
    strictLoop outSize accumulator bits 0 out (ch :: rest) =
      if 2 ≤ bits then
        strictLoop outSize ((accumulator * 64 + value) % 4294967296) (bits - 2) 0
          (out ++ [UInt8.ofNat ((accumulator * 64 + value) % 4294967296 / 2 ^ (bits - 2))]) rest
      else strictLoop outSize ((accumulator * 64 + value) % 4294967296) (bits + 6) 0 out rest := by
  have hnul : ch ≠ 0 := by
    rintro rfl
    rw [(valueOf_other 0).2.2.1] at hvalue
    cases hvalue
  have hpad : ch ≠ Base64.pad := by
    rintro rfl
    rw [(valueOf_other 0).2.1] at hvalue
    cases hvalue
  rw [strictLoop_cons, if_neg hnul, if_neg (by omega), if_neg hpad, if_neg (fun h => h rfl), hvalue]

/-- A character that stands for nothing. -/
theorem strictLoop_bad {outSize accumulator bits padding : Nat} {out : List UInt8} {ch : UInt8} {rest : List UInt8}
    (hnul : ch ≠ 0) (hpad : ch ≠ Base64.pad) (hvalue : Base64.valueOf ch = none) :
    strictLoop outSize accumulator bits padding out (ch :: rest) = none := by
  rw [strictLoop_cons, if_neg hnul, if_neg hpad, hvalue]
  split
  · rfl
  split <;> rfl

/-- Behind the padding there may be padding or a NUL only. -/
theorem strictLoop_padded {outSize accumulator bits padding : Nat} {out : List UInt8} {ch : UInt8} {rest : List UInt8}
    (hpadding : padding ≠ 0) (hnul : ch ≠ 0) (hpad : ch ≠ Base64.pad) :
    strictLoop outSize accumulator bits padding out (ch :: rest) = none := by
  rw [strictLoop_cons, if_neg hnul, if_neg hpad, if_pos hpadding]
  split <;> rfl

theorem strictLoop_pad {outSize accumulator bits padding : Nat} {out : List UInt8} {rest : List UInt8}
    (hroom : out.length < outSize) :
    strictLoop outSize accumulator bits padding out (Base64.pad :: rest) =
      if 2 ≤ padding then none else strictLoop outSize accumulator bits (padding + 1) out rest := by
  rw [strictLoop_cons, if_neg (by decide), if_neg (by omega), if_pos rfl]

theorem strictLoop_nul (outSize accumulator bits padding : Nat) (out rest : List UInt8) :
    strictLoop outSize accumulator bits padding out (0 :: rest) = some (out, padding) := by
  rw [strictLoop_cons, if_pos rfl]

/-! ## 5. A group -/

theorem decodeStrict_eq (outSize : Nat) (text : List UInt8) :
    base64DecodeStrict outSize text =
      match strictLoop outSize 0 0 0 [] text with
      | none => none
      | some (out, padding) => if padding ≠ (3 - out.length % 3) % 3 then none else some out := by
  unfold base64DecodeStrict base64DecodeCustom strictLoop
  cases base64DecodeLoop defaultStrictConfig outSize 0 0 0 [] text with
  | none => rfl
  | some result =>
      obtain ⟨out, padding⟩ := result
      dsimp only
      by_cases h : padding ≠ (3 - out.length % 3) % 3
      · rw [if_pos h, if_pos ⟨by decide, rfl, h⟩]
      · rw [if_neg h, if_neg fun hall => h hall.2.2]

theorem ofNat_congr {m n : Nat} (h : m % 256 = n % 256) : UInt8.ofNat m = UInt8.ofNat n := by
  apply UInt8.toNat_inj.mp
  rw [UInt8.toNat_ofNat', UInt8.toNat_ofNat']
  exact h

/-- The decoder stops at a NUL; in front of it there is less than a byte. -/
def Skipped (p q : UInt8) : Bool := p == 0 || ((Base64.valueOf p).isSome && q == 0)

/-- The kinds of a character. -/
theorem char_cases (c : UInt8) :
    c = 0 ∨ c = Base64.pad ∨ (c ≠ 0 ∧ c ≠ Base64.pad ∧ Base64.valueOf c = none) ∨
      ∃ v, Base64.valueOf c = some v ∧ c ≠ 0 ∧ c ≠ Base64.pad ∧ v < 64 := by
  by_cases hnul : c = 0
  · exact Or.inl hnul
  by_cases hpad : c = Base64.pad
  · exact Or.inr (Or.inl hpad)
  cases hvalue : Base64.valueOf c with
  | none => exact Or.inr (Or.inr (Or.inl ⟨hnul, hpad, rfl⟩))
  | some v => exact Or.inr (Or.inr (Or.inr ⟨v, rfl, hnul, hpad, ((valueOf_other c).2.2.2 v hvalue).1⟩))

/-- What the notation makes of four characters, the last group of a text among them. -/
def groupValue (p q r s : UInt8) : Option (List UInt8) :=
  if s = Base64.pad then Base64.decodePadded p q r else Base64.decodeGroup p q r s

/-- No group has a character that stands for nothing, or padding, at its first or second place. -/
theorem groupValue_none {p q : UInt8} (h : Base64.valueOf p = none ∨ Base64.valueOf q = none) (r s : UInt8) :
    groupValue p q r s = none := by
  unfold groupValue Base64.decodePadded Base64.decodeGroup
  cases hp : Base64.valueOf p with
  | none => split <;> rfl
  | some a =>
      rcases h with h | h
      · rw [hp] at h
        cases h
      · rw [h]
        split <;> rfl

/-- Nor at its third place a character that stands for nothing. -/
theorem groupValue_third (p q : UInt8) {r : UInt8} (hpad : r ≠ Base64.pad) (h : Base64.valueOf r = none) (s : UInt8) :
    groupValue p q r s = none := by
  unfold groupValue Base64.decodePadded Base64.decodeGroup
  simp only [h, hpad, ↓reduceIte]
  cases Base64.valueOf p with
  | none => split <;> rfl
  | some a =>
      cases Base64.valueOf q with
      | none => split <;> rfl
      | some b => split <;> rfl

/-- After padding at the first or second place nothing is decoded. -/
theorem strictLoop_early (accumulator bits : Nat) {rest : List UInt8} (hrest : rest.length ≤ 3) :
    ∀ result, strictLoop 3 accumulator bits 1 [] rest = some result → result.1 = [] ∧ result.2 ≠ 0 := by
  intro result h
  cases rest with
  | nil =>
      cases h
      exact ⟨rfl, by decide⟩
  | cons q rest =>
      rcases char_cases q with rfl | rfl | ⟨hq0, hqp, -⟩ | ⟨-, -, hq0, hqp, -⟩
      · rw [strictLoop_nul] at h
        cases h
        exact ⟨rfl, by decide⟩
      · rw [strictLoop_pad (by decide), if_neg (by decide)] at h
        cases rest with
        | nil =>
            cases h
            exact ⟨rfl, by decide⟩
        | cons r rest =>
            rcases char_cases r with rfl | rfl | ⟨hr0, hrp, -⟩ | ⟨-, -, hr0, hrp, -⟩
            · rw [strictLoop_nul] at h
              cases h
              exact ⟨rfl, by decide⟩
            · rw [strictLoop_pad (by decide), if_pos (by decide)] at h
              cases h
            · rw [strictLoop_padded (by decide) hr0 hrp] at h
              cases h
            · rw [strictLoop_padded (by decide) hr0 hrp] at h
              cases h
      · rw [strictLoop_padded (by decide) hq0 hqp] at h
        cases h
      · rw [strictLoop_padded (by decide) hq0 hqp] at h
        cases h

/-- The last two characters of a group, behind two of the alphabet. -/
theorem decodeStrict_chars {p q : UInt8} {a b : Nat} (hp : Base64.valueOf p = some a) (hq : Base64.valueOf q = some b)
    (ha : a < 64) (hb : b < 64) (r s : UInt8) : base64DecodeStrict 3 [p, q, r, s] = groupValue p q r s := by
  have hx : UInt8.ofNat ((a * 64 + b) / 2 ^ 4) = UInt8.ofNat (a * 4 + b / 16) := ofNat_congr (by omega)
  have htwo : strictLoop 3 0 0 0 [] [p, q, r, s] = strictLoop 3 (a * 64 + b) 4 0 [UInt8.ofNat (a * 4 + b / 16)] [r, s] := by
    rw [strictLoop_char (by decide) hp, if_neg (by decide), strictLoop_char (by decide) hq, if_pos (by decide),
      show (((0 * 64 + a) % 4294967296 * 64 + b) % 4294967296) = a * 64 + b by omega]
    exact congrArg (fun x => strictLoop 3 (a * 64 + b) 4 0 [x] [r, s]) hx
  rw [decodeStrict_eq, htwo]
  have hnul : Base64.valueOf 0 = none := by decide
  have hpad : Base64.valueOf Base64.pad = none := by decide
  rcases char_cases r with rfl | rfl | ⟨hr0, hrp, hr⟩ | ⟨c, hr, hr0, hrp, hc⟩
  · rw [strictLoop_nul, groupValue_third p q (by decide) hnul]
    rfl
  · unfold groupValue Base64.decodePadded Base64.decodeGroup
    rw [strictLoop_pad (by simp), if_neg (by decide), hp, hq, hpad]
    rcases char_cases s with rfl | rfl | ⟨hs0, hsp, hs⟩ | ⟨d, hs, hs0, hsp, hd⟩
    · rw [strictLoop_nul]
      rfl
    · rw [strictLoop_pad (by simp), if_neg (by decide)]
      rfl
    · rw [strictLoop_bad hs0 hsp hs, if_neg hsp]
      rfl
    · rw [strictLoop_padded (by decide) hs0 hsp, if_neg hsp]
      rfl
  · rw [strictLoop_bad hr0 hrp hr, groupValue_third p q hrp hr]
  · have hy : UInt8.ofNat (((a * 64 + b) * 64 + c) / 2 ^ 2) = UInt8.ofNat (b % 16 * 16 + c / 4) :=
      ofNat_congr (by omega)
    have hthree : strictLoop 3 (a * 64 + b) 4 0 [UInt8.ofNat (a * 4 + b / 16)] [r, s] =
        strictLoop 3 ((a * 64 + b) * 64 + c) 2 0 [UInt8.ofNat (a * 4 + b / 16), UInt8.ofNat (b % 16 * 16 + c / 4)] [s] := by
      rw [strictLoop_char (by simp) hr, if_pos (by decide),
        show (((a * 64 + b) * 64 + c) % 4294967296) = (a * 64 + b) * 64 + c by omega]
      exact congrArg (fun y => strictLoop 3 ((a * 64 + b) * 64 + c) 2 0 [UInt8.ofNat (a * 4 + b / 16), y] [s]) hy
    unfold groupValue Base64.decodePadded Base64.decodeGroup
    rw [hthree, hp, hq, hr]
    rcases char_cases s with rfl | rfl | ⟨hs0, hsp, hs⟩ | ⟨d, hs, hs0, hsp, hd⟩
    · rw [strictLoop_nul, hnul]
      rfl
    · rw [strictLoop_pad (by simp), if_neg (by decide), if_pos rfl]
      show some _ = if r = Base64.pad then _ else _
      rw [if_neg hrp]
      rfl
    · rw [strictLoop_bad hs0 hsp hs, if_neg hsp, hs]
      rfl
    · have hz : UInt8.ofNat ((((a * 64 + b) * 64 + c) * 64 + d) % 4294967296 / 2 ^ 0) = UInt8.ofNat (c % 4 * 64 + d) :=
        ofNat_congr (by omega)
      rw [strictLoop_char (by simp) hs, if_pos (by decide), if_neg hsp, hs, hz]
      exact if_neg (by simp)

/-- **Four characters are decoded as a group of the notation, but for a NUL at the first or the second place, where
    the decoder stops and finds nothing wrong.** -/
theorem decodeStrict_group (p q r s : UInt8) :
    base64DecodeStrict 3 [p, q, r, s] = if Skipped p q then some [] else groupValue p q r s := by
  have hearly (accumulator bits : Nat) {rest : List UInt8} (hrest : rest.length ≤ 3) :
      (match strictLoop 3 accumulator bits 1 [] rest with
        | none => none
        | some (out, padding) => if padding ≠ (3 - out.length % 3) % 3 then none else some out) = none := by
    cases hloop : strictLoop 3 accumulator bits 1 [] rest with
    | none => rfl
    | some result =>
        obtain ⟨hout, hpadding⟩ := strictLoop_early accumulator bits hrest result hloop
        obtain ⟨out, padding⟩ := result
        obtain rfl : out = [] := hout
        exact if_pos hpadding
  rcases char_cases p with rfl | rfl | ⟨hp0, hpp, hp⟩ | ⟨a, hp, hp0, hpp, ha⟩
  · rw [decodeStrict_eq, strictLoop_nul]
    rfl
  · have hskip : Skipped Base64.pad q = false := by
      unfold Skipped
      rw [(valueOf_other 0).2.1]
      rfl
    rw [decodeStrict_eq, hskip, strictLoop_pad (by decide), if_neg (by decide), groupValue_none (Or.inl (by decide))]
    exact hearly 0 0 (by simp)
  · have hskip : Skipped p q = false := by
      unfold Skipped
      rw [hp, beq_eq_false_iff_ne.mpr hp0]
      rfl
    rw [decodeStrict_eq, hskip, strictLoop_bad hp0 hpp hp, groupValue_none (Or.inl hp)]
    rfl
  have hskip : Skipped p q = (q == 0) := by
    unfold Skipped
    rw [hp, beq_eq_false_iff_ne.mpr hp0]
    rfl
  have hone : strictLoop 3 0 0 0 [] [p, q, r, s] = strictLoop 3 a 6 0 [] [q, r, s] := by
    rw [strictLoop_char (by decide) hp, if_neg (by decide), show (0 * 64 + a) % 4294967296 = a by omega]
  rcases char_cases q with rfl | rfl | ⟨hq0, hqp, hq⟩ | ⟨b, hq, hq0, hqp, hb⟩
  · rw [decodeStrict_eq, hone, strictLoop_nul, hskip]
    rfl
  · rw [decodeStrict_eq, hone, hskip, strictLoop_pad (by decide), if_neg (by decide),
      groupValue_none (Or.inr (by decide))]
    exact hearly a 6 (by simp)
  · rw [decodeStrict_eq, hone, hskip, strictLoop_bad hq0 hqp hq, groupValue_none (Or.inr hq)]
    exact (if_neg (by simpa using hq0)).symm
  · rw [hskip, if_neg (by simpa using hq0), decodeStrict_chars hp hq ha hb]

end Anjay.Commons
