/-
  File:      Anjay/Io/Json/Quoted.lean
  Subject:   The strings of the JSON output (`write_quoted_string` of `anjay_json_encoder.c`).

  * `decodeString_quoted`: a JSON parser reads the written text as the string in which every byte of the value is
    a character.
  * `writeQuotedString_decodes_iff`: so it reads the value back iff the value is ASCII.
-/
import Anjay.Io.Stream
import Anjay.Lib.Json

namespace Anjay.Json

open Lib.Json

/-! ## 1. The text of a string -/

/-- A digit as `%x` prints it. -/
def hexChar (n : Nat) : UInt8 := if n < 10 then UInt8.ofNat (0x30 + n) else UInt8.ofNat (0x57 + n)

/-- What is written for a byte of the value, but for the backslash in front of some. -/
def charText (b : UInt8) : List UInt8 :=
  if 0x20 ≤ b ∧ b < 127 then [b]
  else if b = 0x08 then [backslash, 0x62]
  else if b = 0x0C then [backslash, 0x66]
  else if b = 0x0A then [backslash, 0x6E]
  else if b = 0x0D then [backslash, 0x72]
  else if b = 0x09 then [backslash, 0x74]
  else [backslash, letterU, 0x30, 0x30, hexChar (b.toNat / 16 % 16), hexChar (b.toNat % 16)]

/-- The backslash in front of a byte of the value. -/
def charPrefix (b : UInt8) : List UInt8 := if b = backslash ∨ b = quote then [backslash] else []

/-- The body of the loop of `write_quoted_string`. -/
def writeChar (stream : OutStream) (b : UInt8) : Bool × OutStream :=
  match stream.write (charPrefix b) with
  | (false, stream) => (false, stream)
  | (true, stream) => stream.write (charText b)

/-- The loop of `write_quoted_string`. -/
def writeChars (stream : OutStream) : List UInt8 → Bool × OutStream
  | [] => (true, stream)
  | b :: bs =>
      match writeChar stream b with
      | (false, stream) => (false, stream)
      | (true, stream) => writeChars stream bs

/-- `write_quoted_string`. -/
def writeQuotedString (stream : OutStream) (value : List UInt8) : Int × OutStream :=
  match stream.write [quote] with
  | (false, stream) => (-1, stream)
  | (true, stream) =>
      match writeChars stream value with
      | (false, stream) => (-1, stream)
      | (true, stream) =>
          match stream.write [quote] with
          | (false, stream) => (-1, stream)
          | (true, stream) => (0, stream)

/-- The text of a byte of the value. -/
def escaped (b : UInt8) : List UInt8 := charPrefix b ++ charText b

/-- The text of a value. -/
def quoted (value : List UInt8) : List UInt8 := quote :: (value.flatMap escaped ++ [quote])

theorem writeChar_ok {stream stream' : OutStream} {b : UInt8} (h : writeChar stream b = (true, stream')) :
    stream' = stream.push (escaped b) := by
  unfold writeChar at h
  cases hwrite : stream.write (charPrefix b) with
  | mk ok stream₁ =>
      rw [hwrite] at h
      cases ok with
      | false => cases h
      | true =>
          rw [OutStream.write_ok h, OutStream.write_ok hwrite, OutStream.push_push]
          rfl

theorem writeChars_ok {stream' : OutStream} : ∀ {bs : List UInt8} {stream : OutStream},
    writeChars stream bs = (true, stream') → stream' = stream.push (bs.flatMap escaped)
  | [], _, h => by
      cases h
      exact (OutStream.push_nil _).symm
  | b :: _, stream, h => by
      unfold writeChars at h
      cases hwrite : writeChar stream b with
      | mk ok stream₁ =>
          rw [hwrite] at h
          cases ok with
          | false => cases h
          | true =>
              rw [writeChars_ok h, writeChar_ok hwrite, OutStream.push_push]
              rfl

/-- **If every write succeeds, the text of the value is what is written.** -/
theorem writeQuotedString_ok {stream stream' : OutStream} {value : List UInt8}
    (h : writeQuotedString stream value = (0, stream')) : stream' = stream.push (quoted value) := by
  unfold writeQuotedString at h
  cases h1 : stream.write [quote] with
  | mk ok stream₁ =>
      rw [h1] at h
      cases ok with
      | false => cases h
      | true =>
          cases h2 : writeChars stream₁ value with
          | mk ok stream₂ =>
              dsimp only at h
              rw [h2] at h
              cases ok with
              | false => cases h
              | true =>
                  cases h3 : stream₂.write [quote] with
                  | mk ok stream₃ =>
                      dsimp only at h
                      rw [h3] at h
                      cases ok with
                      | false => cases h
                      | true =>
                          cases h
                          rw [OutStream.write_ok h3, writeChars_ok h2, OutStream.write_ok h1, OutStream.push_push,
                            OutStream.push_push]
                          rfl

/-! ## 2. What a parser reads -/

theorem hexDigit_hexChar : ∀ n < 16, hexDigit (hexChar n) = some n := by decide +kernel

theorem codeUnit_byte (b : UInt8) :
    codeUnit 0x30 0x30 (hexChar (b.toNat / 16 % 16)) (hexChar (b.toNat % 16)) = some b.toNat := by
  have hzero : hexDigit 0x30 = some 0 := by decide
  have hbound : b.toNat < 256 := b.toNat_lt
  unfold codeUnit
  rw [hzero, hexDigit_hexChar _ (Nat.mod_lt _ (by decide)), hexDigit_hexChar _ (Nat.mod_lt _ (by decide))]
  show some (((0 * 16 + 0) * 16 + b.toNat / 16 % 16) * 16 + b.toNat % 16) = some b.toNat
  have hvalue : ((0 * 16 + 0) * 16 + b.toNat / 16 % 16) * 16 + b.toNat % 16 = b.toNat := by omega
  rw [hvalue]

/-- A byte with an escape of two characters. -/
theorem stringBody_short {e b : UInt8} (rest : List UInt8) (hu : e ≠ letterU) (he : unescape e = some b)
    (hb : b < 0x80) :
    stringBody ([backslash, e] ++ rest) = (stringBody rest).map (prepend (codePointBytes b.toNat)) := by
  rw [codePointBytes_ascii hb]
  exact stringBody_escape rest hu he

/-- **A byte of the value is read as the character with its number.** -/
theorem stringBody_escaped (b : UInt8) (rest : List UInt8) :
    stringBody (escaped b ++ rest) = (stringBody rest).map (prepend (codePointBytes b.toNat)) := by
  unfold escaped charPrefix charText
  by_cases hquote : b = quote
  · subst hquote
    exact stringBody_short rest (by decide) (by decide) (by decide)
  by_cases hbackslash : b = backslash
  · subst hbackslash
    exact stringBody_short rest (by decide) (by decide) (by decide)
  rw [if_neg (not_or.mpr ⟨hbackslash, hquote⟩), List.nil_append]
  by_cases hprintable : 0x20 ≤ b ∧ b < 127
  · have hascii : b < 0x80 := UInt8.lt_trans hprintable.2 (by decide)
    rw [if_pos hprintable, codePointBytes_ascii hascii]
    exact stringBody_unescaped rest hquote hbackslash (UInt8.not_lt.mpr hprintable.1)
  rw [if_neg hprintable]
  by_cases h : b = 0x08
  · subst h
    exact stringBody_short rest (by decide) (by decide) (by decide)
  rw [if_neg h]
  by_cases h : b = 0x0C
  · subst h
    exact stringBody_short rest (by decide) (by decide) (by decide)
  rw [if_neg h]
  by_cases h : b = 0x0A
  · subst h
    exact stringBody_short rest (by decide) (by decide) (by decide)
  rw [if_neg h]
  by_cases h : b = 0x0D
  · subst h
    exact stringBody_short rest (by decide) (by decide) (by decide)
  rw [if_neg h]
  by_cases h : b = 0x09
  · subst h
    exact stringBody_short rest (by decide) (by decide) (by decide)
  rw [if_neg h]
  have hbound : b.toNat < 256 := b.toNat_lt
  exact stringBody_unit rest (codeUnit_byte b) (by omega)

/-- The value as a parser reads it: each byte taken for a character. -/
def bytewise (value : List UInt8) : List UInt8 := value.flatMap fun b => codePointBytes b.toNat

theorem stringBody_quoted : ∀ value : List UInt8,
    stringBody (value.flatMap escaped ++ [quote]) = some (bytewise value, [])
  | [] => stringBody_quote []
  | b :: bs => by
      rw [List.flatMap_cons, List.append_assoc, stringBody_escaped, stringBody_quoted bs]
      rfl

/-- **The text is a JSON string; it denotes the value with each byte taken for a character.** -/
theorem decodeString_quoted (value : List UInt8) : decodeString (quoted value) = some (bytewise value) := by
  unfold quoted decodeString
  dsimp only
  rw [if_pos rfl, stringBody_quoted]

theorem length_le_bytewise : ∀ value : List UInt8, value.length ≤ (bytewise value).length
  | [] => Nat.le_refl 0
  | b :: bs => by
      have ih := length_le_bytewise bs
      have hlen : 1 ≤ (codePointBytes b.toNat).length := by
        by_cases h : b < 0x80
        · rw [codePointBytes_ascii h]
          exact Nat.le_refl 1
        · rw [codePointBytes_length h]
          decide
      unfold bytewise at ih ⊢
      rw [List.flatMap_cons, List.length_append, List.length_cons]
      omega

theorem bytewise_eq_iff : ∀ value : List UInt8, bytewise value = value ↔ ∀ b ∈ value, b < 0x80
  | [] => ⟨fun _ _ hb => absurd hb List.not_mem_nil, fun _ => rfl⟩
  | b :: bs => by
      have hcons : bytewise (b :: bs) = codePointBytes b.toNat ++ bytewise bs := List.flatMap_cons
      rw [hcons, List.forall_mem_cons]
      by_cases h : b < 0x80
      · rw [codePointBytes_ascii h, List.singleton_append, List.cons.injEq, bytewise_eq_iff bs]
        exact ⟨fun ⟨_, hbs⟩ => ⟨h, hbs⟩, fun ⟨_, hbs⟩ => ⟨rfl, hbs⟩⟩
      · refine ⟨fun heq => ?_, fun hall => absurd hall.1 h⟩
        have hlen := congrArg List.length heq
        have hle := length_le_bytewise bs
        rw [List.length_append, codePointBytes_length h, List.length_cons] at hlen
        omega

/-! ## 3. Strings of characters -/

/-- A C string that holds valid UTF-8. -/
structure Utf8String where
  chars : List Char
  noNul : ∀ c ∈ chars, c.toNat ≠ 0

/-- The bytes of the string. -/
def Utf8String.bytes (s : Utf8String) : List UInt8 := s.chars.flatMap String.utf8EncodeChar

/-- The string only has ASCII characters. -/
def Utf8String.Ascii (s : Utf8String) : Prop := ∀ c ∈ s.chars, c.toNat < 0x80

theorem ofNat_not_ascii {n : Nat} (h : 0x80 ≤ n) (hn : n < 256) : ¬UInt8.ofNat n < 0x80 := by
  rw [UInt8.lt_iff_toNat_lt, UInt8.toNat_ofNat_of_lt' hn]
  exact Nat.not_lt.mpr h

theorem utf8EncodeChar_ascii_iff (c : Char) : (∀ b ∈ String.utf8EncodeChar c, b < 0x80) ↔ c.toNat < 0x80 := by
  unfold String.utf8EncodeChar
  dsimp only
  by_cases h1 : c.val.toNat ≤ 0x7F
  · rw [if_pos h1]
    refine ⟨fun _ => Nat.lt_succ_of_le h1, fun _ b hb => ?_⟩
    have hbound : c.val.toNat < UInt8.size := Nat.lt_of_le_of_lt h1 (by decide)
    rw [List.mem_singleton.mp hb, UInt8.lt_iff_toNat_lt, UInt8.toNat_ofNat_of_lt' hbound]
    exact Nat.lt_succ_of_le h1
  have hlarge : ¬c.toNat < 0x80 := fun h => h1 (Nat.le_of_lt_succ h)
  rw [if_neg h1]
  -- the first byte of a longer encoding is none of ASCII
  by_cases h2 : c.val.toNat ≤ 0x7FF
  · rw [if_pos h2]
    exact ⟨fun h => absurd (h _ List.mem_cons_self) (ofNat_not_ascii (by omega) (by omega)), fun h => absurd h hlarge⟩
  rw [if_neg h2]
  by_cases h3 : c.val.toNat ≤ 0xFFFF
  · rw [if_pos h3]
    exact ⟨fun h => absurd (h _ List.mem_cons_self) (ofNat_not_ascii (by omega) (by omega)), fun h => absurd h hlarge⟩
  rw [if_neg h3]
  exact ⟨fun h => absurd (h _ List.mem_cons_self) (ofNat_not_ascii (by omega) (by omega)), fun h => absurd h hlarge⟩

theorem Utf8String.bytes_ascii_iff (s : Utf8String) : (∀ b ∈ s.bytes, b < 0x80) ↔ s.Ascii := by
  refine ⟨fun h c hc => ?_, fun h b hb => ?_⟩
  · exact (utf8EncodeChar_ascii_iff c).mp fun b hb => h b (List.mem_flatMap.mpr ⟨c, hc, hb⟩)
  · obtain ⟨c, hc, hb⟩ := List.mem_flatMap.mp hb
    exact (utf8EncodeChar_ascii_iff c).mpr (h c hc) b hb

/-- **A JSON parser decodes the text of a string to exactly that string iff the string is ASCII.** -/
theorem writeQuotedString_decodes_iff (value : Utf8String) (stream stream' : OutStream)
    (h : writeQuotedString stream value.bytes = (0, stream')) :
    (∃ text, stream'.written = stream.written ++ text ∧ decodeString text = some value.bytes) ↔ value.Ascii := by
  have hwritten : stream'.written = stream.written ++ quoted value.bytes := by
    rw [writeQuotedString_ok h, OutStream.push_written]
  rw [hwritten, ← value.bytes_ascii_iff, ← bytewise_eq_iff]
  refine ⟨fun ⟨text, htext, hdecode⟩ => ?_, fun heq => ⟨_, rfl, ?_⟩⟩
  · rw [← List.append_cancel_left htext, decodeString_quoted] at hdecode
    exact Option.some.inj hdecode
  · rw [decodeString_quoted, heq]

theorem noNul_singleton {a : Char} (ha : a.toNat ≠ 0) : ∀ c ∈ [a], c.toNat ≠ 0 :=
  List.forall_mem_singleton.mpr ha

/-- The letter a, a quotation mark, a backslash, a line feed and the control character 1. -/
def escapedChars : List Char := ['a', '"', '\\', '\n', Char.ofNat 1]

theorem noNul_escapedChars : ∀ c ∈ escapedChars, c.toNat ≠ 0 := by simp [escapedChars]

theorem ascii_escapedChars : ∀ c ∈ escapedChars, c.toNat < 0x80 := by simp [escapedChars]

theorem noNul_accented : (Char.ofNat 0xE9).toNat ≠ 0 := by decide

/-- A string in which only the letter is written as it is. -/
def escapedText : Utf8String := ⟨escapedChars, noNul_escapedChars⟩

/-- The letter e with an acute accent, U+00E9. -/
def accentedE : Utf8String := ⟨[Char.ofNat 0xE9], noNul_singleton noNul_accented⟩

/-- A stream that takes everything. -/
def freshStream : OutStream := ⟨[], none⟩

theorem writeQuotedString_escaped : ∃ text, (freshStream.push (quoted escapedText.bytes)).written =
    freshStream.written ++ text ∧ decodeString text = some escapedText.bytes :=
  (writeQuotedString_decodes_iff escapedText freshStream (freshStream.push (quoted escapedText.bytes))
    (by decide +kernel)).mpr ascii_escapedChars

/-- An accented letter comes back as two others. -/
theorem writeQuotedString_accented : ¬∀ (value : Utf8String) (stream stream' : OutStream),
    writeQuotedString stream value.bytes = (0, stream') →
      ∃ text, stream'.written = stream.written ++ text ∧ decodeString text = some value.bytes := by
  intro h
  obtain ⟨text, htext, hdecode⟩ := h accentedE freshStream (freshStream.push (quoted accentedE.bytes))
    (by decide +kernel)
  have hother : decodeString (quoted accentedE.bytes) = some [0xC3, 0x83, 0xC2, 0xA9] := by decide +kernel
  have hvalue : accentedE.bytes = [0xC3, 0xA9] := by decide +kernel
  rw [OutStream.push_written] at htext
  rw [← List.append_cancel_left htext, hother, hvalue] at hdecode
  exact absurd hdecode (by decide)

end Anjay.Json
