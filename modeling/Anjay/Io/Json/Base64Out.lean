/-
  File:      Anjay/Io/Json/Base64Out.lean
  Subject:   Byte strings of the JSON output (`anjay_base64_out.c`, and `avs_base64_encode_custom` of avs_commons with
             AVS_BASE64_DEFAULT_STRICT_CONFIG).

  * `base64EncodeCustom_eq`: the encoder writes the base64 text.
  * `Base64Ctx.Holds`: after some pieces, the whole groups of three bytes are written and the rest is cached;
    `Holds.append`: another piece keeps it so.
  * `Holds.close`: **a byte string with all the bytes declared ends as its base64 text; a shorter one loses what is
    cached.**
-/
import Anjay.Io.Stream
import Anjay.Lib.Base64

namespace Anjay.Json

open Lib

/-! ## 1. The encoder -/

/-- AVS_BASE64_CHARS. -/
def base64Chars : List UInt8 :=
  [0x41, 0x42, 0x43, 0x44, 0x45, 0x46, 0x47, 0x48, 0x49, 0x4A, 0x4B, 0x4C, 0x4D, 0x4E, 0x4F, 0x50,
    0x51, 0x52, 0x53, 0x54, 0x55, 0x56, 0x57, 0x58, 0x59, 0x5A, 0x61, 0x62, 0x63, 0x64, 0x65, 0x66,
    0x67, 0x68, 0x69, 0x6A, 0x6B, 0x6C, 0x6D, 0x6E, 0x6F, 0x70, 0x71, 0x72, 0x73, 0x74, 0x75, 0x76,
    0x77, 0x78, 0x79, 0x7A, 0x30, 0x31, 0x32, 0x33, 0x34, 0x35, 0x36, 0x37, 0x38, 0x39, 0x2B, 0x2F]

/-- `config.alphabet[n]`. -/
def alphabet (n : Nat) : UInt8 := base64Chars.getD n 0

/-- The loop of `avs_base64_encode_custom` at the index `i`, with what it writes for the rest behind it. -/
def encodeLoop : Nat → Nat → List UInt8 → List UInt8
  | i, sh, [] => if i % 3 = 1 then [alphabet (sh * 16)] else if i % 3 = 2 then [alphabet (sh * 4)] else []
  | i, sh, num :: input =>
      if i % 3 = 0 then alphabet (num.toNat / 4) :: encodeLoop (i + 1) (num.toNat % 4) input
      else if i % 3 = 1 then alphabet (sh * 16 + num.toNat / 16) :: encodeLoop (i + 1) (num.toNat % 16) input
      else alphabet (sh * 4 + num.toNat / 64) :: alphabet (num.toNat % 64) :: encodeLoop (i + 1) sh input

/-- The loop over the padding. -/
def padded (out : List UInt8) : List UInt8 := out ++ List.replicate ((4 - out.length % 4) % 4) Base64.pad

/-- `avs_base64_encode_custom`, with a buffer of `avs_base64_encoded_size` bytes. -/
def base64EncodeCustom (input : List UInt8) : List UInt8 := padded (encodeLoop 0 0 input)

theorem alphabet_eq : ∀ n < 64, alphabet n = Base64.charOf n := by decide +kernel

theorem padded_cons (a b c d : UInt8) (out : List UInt8) : padded (a :: b :: c :: d :: out) = a :: b :: c :: d :: padded out := by
  unfold padded
  have hlength : (4 - (a :: b :: c :: d :: out).length % 4) % 4 = (4 - out.length % 4) % 4 := by
    simp only [List.length_cons]
    omega
  rw [hlength]
  rfl

theorem padded_encodeLoop : ∀ (input : List UInt8) (i sh : Nat), i % 3 = 0 →
    padded (encodeLoop i sh input) = Base64.encode input
  | [], i, sh, hi => by
      rw [encodeLoop, if_neg (by omega), if_neg (by omega)]
      rfl
  | [a], i, sh, hi => by
      have ha : a.toNat < 256 := a.toNat_lt
      rw [encodeLoop, if_pos hi, encodeLoop, if_pos (by omega), alphabet_eq _ (by omega), alphabet_eq _ (by omega)]
      rfl
  | [a, b], i, sh, hi => by
      have ha : a.toNat < 256 := a.toNat_lt
      have hb : b.toNat < 256 := b.toNat_lt
      rw [encodeLoop, if_pos hi, encodeLoop, if_neg (by omega), if_pos (by omega), encodeLoop, if_neg (by omega),
        if_pos (by omega), alphabet_eq _ (by omega), alphabet_eq _ (by omega), alphabet_eq _ (by omega)]
      rfl
  | a :: b :: c :: input, i, sh, hi => by
      have ha : a.toNat < 256 := a.toNat_lt
      have hb : b.toNat < 256 := b.toNat_lt
      have hc : c.toNat < 256 := c.toNat_lt
      rw [encodeLoop, if_pos hi, encodeLoop, if_neg (by omega), if_pos (by omega), encodeLoop, if_neg (by omega),
        if_neg (by omega), padded_cons, padded_encodeLoop input (i + 3) _ (by omega), alphabet_eq _ (by omega),
        alphabet_eq _ (by omega), alphabet_eq _ (by omega), alphabet_eq _ (by omega)]
      rfl

/-- **The encoder writes the base64 text.** -/
theorem base64EncodeCustom_eq (input : List UInt8) : base64EncodeCustom input = Base64.encode input :=
  padded_encodeLoop input 0 0 rfl

/-! ## 2. The context of a byte string -/

/-- `base64_ret_bytes_ctx_t`, without the stream: the bytes in `bytes_cached`, and `num_bytes_left`. -/
structure Base64Ctx where
  bytesCached : List UInt8
  numBytesLeft : Nat

/-- TEXT_CHUNK_SIZE. -/
def textChunkSize : Nat := 192

/-- `_anjay_base64_ret_bytes_ctx_new`. -/
def base64RetBytesCtxNew (length : Nat) : Base64Ctx := ⟨[], length⟩

/-- `base64_ret_encode_and_write`. -/
def base64RetEncodeAndWrite (stream : OutStream) (buffer : List UInt8) : Int × OutStream :=
  if buffer.isEmpty then (0, stream)
  else
    match stream.write (base64EncodeCustom buffer) with
    | (true, stream) => (0, stream)
    | (false, stream) => (-1, stream)

/-- How many bytes go into the next chunk. -/
def newBytesWritten (c : Base64Ctx) (data : List UInt8) : Nat := min (textChunkSize - c.bytesCached.length) data.length

/-- The loop of `base64_ret_bytes_flush` over the bytes to write. -/
def base64RetBytesFlush : Nat → Base64Ctx → OutStream → List UInt8 → Int × Base64Ctx × OutStream
  | 0, c, stream, _ => (0, c, stream)
  | fuel + 1, c, stream, data =>
      if data.isEmpty then (0, c, stream)
      else
        match base64RetEncodeAndWrite stream (c.bytesCached ++ data.take (newBytesWritten c data)) with
        | (retval, stream) =>
            if retval = 0 then
              base64RetBytesFlush fuel ⟨[], c.numBytesLeft - newBytesWritten c data⟩ stream
                (data.drop (newBytesWritten c data))
            else (retval, c, stream)

/-- How many bytes `base64_ret_bytes_append` keeps for later. -/
def bytesToStore (c : Base64Ctx) (data : List UInt8) : Nat :=
  if data.length + c.bytesCached.length < 3 then data.length else (c.bytesCached.length + data.length) % 3

/-- `base64_ret_bytes_append`. -/
def base64RetBytesAppend (c : Base64Ctx) (stream : OutStream) (data : List UInt8) : Int × Base64Ctx × OutStream :=
  if c.numBytesLeft < data.length then (-1, c, stream)
  else
    match base64RetBytesFlush data.length c stream (data.take (data.length - bytesToStore c data)) with
    | (retval, c', stream) =>
        if retval = 0 then
          (0, ⟨c'.bytesCached ++ data.drop (data.length - bytesToStore c data), c'.numBytesLeft - bytesToStore c data⟩,
            stream)
        else (retval, c', stream)

/-- `_anjay_base64_ret_bytes_ctx_close`. -/
def base64RetBytesCtxClose (c : Base64Ctx) (stream : OutStream) : Int × OutStream :=
  if c.numBytesLeft ≠ 0 then (0, stream) else base64RetEncodeAndWrite stream c.bytesCached

/-! ## 3. What is written -/

theorem encodeAndWrite_ok {stream stream' : OutStream} {buffer : List UInt8}
    (h : base64RetEncodeAndWrite stream buffer = (0, stream')) : stream' = stream.push (Base64.encode buffer) := by
  unfold base64RetEncodeAndWrite at h
  cases buffer with
  | nil =>
      cases h
      exact (OutStream.push_nil _).symm
  | cons b bs =>
      rw [if_neg (by simp), base64EncodeCustom_eq] at h
      cases hwrite : stream.write (Base64.encode (b :: bs)) with
      | mk ok stream₁ =>
          rw [hwrite] at h
          cases ok with
          | false => cases h
          | true =>
              cases h
              exact OutStream.write_ok hwrite

/-- **Flushing bytes that make up whole groups with those in the cache writes all of them.** -/
theorem flush_ok : ∀ {fuel : Nat} {c c' : Base64Ctx} {stream stream' : OutStream} {data : List UInt8},
    data.length ≤ fuel → c.bytesCached.length ≤ 2 → (c.bytesCached.length + data.length) % 3 = 0 → data ≠ [] →
    base64RetBytesFlush fuel c stream data = (0, c', stream') →
    c' = ⟨[], c.numBytesLeft - data.length⟩ ∧ stream' = stream.push (Base64.encode (c.bytesCached ++ data))
  | 0, _, _, _, _, data, hfuel, _, _, hne, _ => absurd (List.length_eq_zero_iff.mp (Nat.le_zero.mp hfuel)) hne
  | fuel + 1, c, c', stream, stream', data, hfuel, hcached, hmod, hne, h => by
      have hpos : 0 < data.length := List.length_pos_iff.mpr hne
      unfold base64RetBytesFlush at h
      rw [if_neg (by simpa using hne)] at h
      cases hwrite : base64RetEncodeAndWrite stream (c.bytesCached ++ data.take (newBytesWritten c data)) with
      | mk retval stream₁ =>
          rw [hwrite] at h
          dsimp only at h
          by_cases hzero : retval = 0
          · subst hzero
            have hwritten := encodeAndWrite_ok hwrite
            rw [if_pos rfl] at h
            by_cases hall : data.length ≤ textChunkSize - c.bytesCached.length
            · -- one chunk takes them all
              have hnew : newBytesWritten c data = data.length := Nat.min_eq_right hall
              rw [hnew, List.take_length] at hwritten
              rw [hnew, List.drop_length] at h
              have hdone : base64RetBytesFlush fuel ⟨[], c.numBytesLeft - data.length⟩ stream₁ [] =
                  (0, ⟨[], c.numBytesLeft - data.length⟩, stream₁) := by
                cases fuel <;> rfl
              rw [hdone] at h
              cases h
              exact ⟨rfl, hwritten⟩
            · -- a full chunk, and the rest behind it
              have hnew : newBytesWritten c data = textChunkSize - c.bytesCached.length :=
                Nat.min_eq_left (Nat.le_of_not_le hall)
              have hsize : textChunkSize = 192 := rfl
              rw [hnew] at hwritten h
              have hlength : (data.drop (textChunkSize - c.bytesCached.length)).length =
                  data.length - (textChunkSize - c.bytesCached.length) := List.length_drop
              have hchunk : (c.bytesCached ++ data.take (textChunkSize - c.bytesCached.length)).length = 192 := by
                rw [List.length_append, List.length_take]
                omega
              have hmod' : (0 + (data.drop (textChunkSize - c.bytesCached.length)).length) % 3 = 0 := by
                rw [hlength]
                omega
              have hne' : data.drop (textChunkSize - c.bytesCached.length) ≠ [] := fun hnil => by
                rw [hnil, List.length_nil] at hlength
                omega
              have hempty : ([] : List UInt8).length ≤ 2 := by decide
              obtain ⟨hc', hstream'⟩ := @flush_ok fuel ⟨[], _⟩ c' stream₁ stream' _ (by omega) hempty hmod' hne' h
              refine ⟨?_, ?_⟩
              · rw [hc', hlength]
                show Base64Ctx.mk [] (_ - _ - _) = _
                congr 1
                omega
              · rw [hstream', hwritten, OutStream.push_push, List.nil_append,
                  ← Base64.encode_append _ _ (by rw [hchunk]), List.append_assoc, List.take_append_drop]
          · rw [if_neg hzero] at h
            cases h
            exact absurd rfl hzero

/-- After the pieces `data` of a byte string of `declared` bytes, begun with the stream `start`: whole groups are
    written, the rest is cached. -/
structure Base64Ctx.Holds (c : Base64Ctx) (declared : Nat) (start stream : OutStream) (data : List UInt8) : Prop where
  cached : c.bytesCached = data.drop (data.length / 3 * 3)
  stream : stream = start.push (Base64.encode (data.take (data.length / 3 * 3)))
  left : c.numBytesLeft + data.length = declared

theorem Base64Ctx.Holds.new (declared : Nat) (start : OutStream) :
    (base64RetBytesCtxNew declared).Holds declared start start [] where
  cached := rfl
  stream := (OutStream.push_nil _).symm
  left := rfl

/-- How two pieces are split into whole groups and a rest, where the rest of the first begins the second. -/
theorem split_groups (front cached : List UInt8) (hfront : front.length % 3 = 0) (hcached : cached.length ≤ 2) :
    (front ++ cached).take ((front ++ cached).length / 3 * 3) = front ∧
      (front ++ cached).drop ((front ++ cached).length / 3 * 3) = cached := by
  have hlength : (front ++ cached).length / 3 * 3 = front.length := by
    rw [List.length_append]
    omega
  rw [hlength]
  exact ⟨List.take_left, List.drop_left⟩

/-- **Another piece.** -/
theorem Base64Ctx.Holds.append {c c' : Base64Ctx} {declared : Nat} {start stream stream' : OutStream}
    {data piece : List UInt8} (h : c.Holds declared start stream data)
    (happend : base64RetBytesAppend c stream piece = (0, c', stream')) :
    c'.Holds declared start stream' (data ++ piece) := by
  have hlen : c.bytesCached.length = data.length % 3 := by
    rw [h.cached, List.length_drop]
    omega
  have hfrontLen : (data.take (data.length / 3 * 3)).length % 3 = 0 := by
    rw [List.length_take]
    omega
  have hdata : data = data.take (data.length / 3 * 3) ++ c.bytesCached := by
    rw [h.cached, List.take_append_drop]
  have hleft := h.left
  unfold base64RetBytesAppend at happend
  split at happend
  · cases happend
  · rename_i henough
    by_cases hsmall : piece.length + c.bytesCached.length < 3
    · -- everything is kept for later
      have hstore : bytesToStore c piece = piece.length := if_pos hsmall
      have hflush : base64RetBytesFlush piece.length c stream [] = (0, c, stream) := by
        cases piece.length <;> rfl
      rw [hstore, Nat.sub_self, List.take_zero, List.drop_zero, hflush] at happend
      cases happend
      obtain ⟨htake, hdrop⟩ := split_groups (data.take (data.length / 3 * 3)) (c.bytesCached ++ piece) hfrontLen
        (by rw [List.length_append]; omega)
      have hall : data.take (data.length / 3 * 3) ++ (c.bytesCached ++ piece) = data ++ piece := by
        rw [← List.append_assoc, ← hdata]
      rw [hall] at htake hdrop
      exact ⟨hdrop.symm, by rw [htake]; exact h.stream, by
        show c.numBytesLeft - piece.length + (data ++ piece).length = declared
        rw [List.length_append]
        omega⟩
    · -- whole groups are written
      have hstore : bytesToStore c piece = (c.bytesCached.length + piece.length) % 3 := if_neg hsmall
      obtain ⟨n, hn⟩ : ∃ n, n = piece.length - bytesToStore c piece := ⟨_, rfl⟩
      rw [← hn] at happend
      have hnle : n ≤ piece.length := by omega
      have htakeLen : (piece.take n).length = n := by
        rw [List.length_take]
        omega
      have hne : piece.take n ≠ [] := fun hnil => by
        rw [hnil, List.length_nil] at htakeLen
        omega
      cases hflush : base64RetBytesFlush piece.length c stream (piece.take n) with
      | mk retval rest =>
          obtain ⟨c₁, stream₁⟩ := rest
          rw [hflush] at happend
          dsimp only at happend
          by_cases hzero : retval = 0
          · subst hzero
            rw [if_pos rfl] at happend
            obtain ⟨hc₁, hstream₁⟩ := flush_ok (by omega) (by omega) (by rw [htakeLen]; omega) hne hflush
            cases happend
            rw [hc₁]
            obtain ⟨htake, hdrop⟩ := split_groups
              (data.take (data.length / 3 * 3) ++ (c.bytesCached ++ piece.take n)) (piece.drop n)
              (by rw [List.length_append, List.length_append, htakeLen]; omega)
              (by rw [List.length_drop]; omega)
            have hall : data.take (data.length / 3 * 3) ++ (c.bytesCached ++ piece.take n) ++ piece.drop n =
                data ++ piece := by
              rw [← List.append_assoc, ← hdata, List.append_assoc, List.take_append_drop]
            rw [hall] at htake hdrop
            refine ⟨hdrop.symm, ?_, ?_⟩
            · rw [htake, hstream₁, h.stream, OutStream.push_push, Base64.encode_append _ _ hfrontLen]
            · show c.numBytesLeft - (piece.take n).length - bytesToStore c piece + (data ++ piece).length = declared
              rw [htakeLen, List.length_append]
              omega
          · rw [if_neg hzero] at happend
            cases happend
            exact absurd rfl hzero

/-- The text that a byte string ends up as. -/
def returnedText (declared : Nat) (data : List UInt8) : List UInt8 :=
  if data.length = declared then Base64.encode data else Base64.encode (data.take (data.length / 3 * 3))

/-- **A byte string with all the bytes declared ends as its base64 text, and a shorter one without what is cached.** -/
theorem Base64Ctx.Holds.close {c : Base64Ctx} {declared : Nat} {start stream stream' : OutStream} {data : List UInt8}
    (h : c.Holds declared start stream data) (hclose : base64RetBytesCtxClose c stream = (0, stream')) :
    stream' = start.push (returnedText declared data) := by
  have hleft := h.left
  unfold base64RetBytesCtxClose at hclose
  unfold returnedText
  by_cases hzero : c.numBytesLeft = 0
  · rw [if_neg (fun hne => hne hzero)] at hclose
    have hfront : (data.take (data.length / 3 * 3)).length % 3 = 0 := by
      rw [List.length_take]
      omega
    rw [encodeAndWrite_ok hclose, h.stream, OutStream.push_push, if_pos (by omega), h.cached,
      ← Base64.encode_append _ _ hfront, List.take_append_drop]
  · rw [if_pos hzero] at hclose
    cases hclose
    rw [if_neg (by omega)]
    exact h.stream

theorem isChar_returnedText (declared : Nat) (data : List UInt8) :
    ∀ c ∈ returnedText declared data, Base64.isChar c = true := by
  unfold returnedText
  split
  · exact Base64.isChar_encode _
  · exact Base64.isChar_encode _

end Anjay.Json
