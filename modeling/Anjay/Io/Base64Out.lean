/-
  File:      Anjay/Io/Base64Out.lean
  Subject:   The byte context of the text formats (`anjay_base64_out.c`), for any configuration.

  * `Holds`: after some pieces, the whole groups of three bytes are written and the rest is cached.
  * `flush_eq`, `Holds.append`, `Holds.close`: a piece that fits keeps it so; what the close makes of it.
  * `Meets`, `meets_iff`: **the pieces end as the text of the whole in one go; an end before the last byte goes
    unnoticed.**
  * `json_append`, `json_close`: the context of the JSON output is this one, with the strict configuration.
-/
import Anjay.Commons.Base64
import Anjay.Io.Json.Base64Out

namespace Anjay.Io

open Commons

/-! ## 1. The context -/

/-- `base64_ret_bytes_ctx_t`, without the stream: the bytes in `bytes_cached`, and `num_bytes_left`. -/
structure Base64RetBytesCtx where
  config : Base64Config
  bytesCached : List UInt8
  numBytesLeft : Nat
  deriving DecidableEq, Repr

/-- TEXT_CHUNK_SIZE. -/
def textChunkSize : Nat := 3 * 64

/-- `_anjay_base64_ret_bytes_ctx_new`. -/
def base64RetBytesCtxNew (config : Base64Config) (length : Nat) : Base64RetBytesCtx := ⟨config, [], length⟩

/-- `base64_ret_encode_and_write`. -/
def base64RetEncodeAndWrite (config : Base64Config) (stream : OutStream) (buffer : List UInt8) : Int × OutStream :=
  if buffer.isEmpty then (0, stream)
  else
    match base64EncodeCustom config (encodedSize config buffer.length) buffer with
    | none => (-1, stream)
    | some encoded => stream.writeCode (encoded.take (encodedSize config buffer.length - 1))

/-- How many bytes go into the next chunk. -/
def newBytesWritten (c : Base64RetBytesCtx) (data : List UInt8) : Nat :=
  min (textChunkSize - c.bytesCached.length) data.length

/-- The loop of `base64_ret_bytes_flush` over the bytes to write. A pass takes at least one of them, so that the fuel is
    never used up. -/
def base64RetBytesFlush : Nat → Base64RetBytesCtx → OutStream → List UInt8 → Int × Base64RetBytesCtx × OutStream
  | 0, c, stream, _ => (0, c, stream)
  | fuel + 1, c, stream, data =>
      if data.isEmpty then (0, c, stream)
      else
        match base64RetEncodeAndWrite c.config stream (c.bytesCached ++ data.take (newBytesWritten c data)) with
        | (retval, stream) =>
            if retval = 0 then
              base64RetBytesFlush fuel ⟨c.config, [], c.numBytesLeft - newBytesWritten c data⟩ stream
                (data.drop (newBytesWritten c data))
            else (retval, c, stream)

/-- How many bytes `base64_ret_bytes_append` keeps for later. -/
def bytesToStore (c : Base64RetBytesCtx) (data : List UInt8) : Nat :=
  if data.length + c.bytesCached.length < 3 then data.length else (c.bytesCached.length + data.length) % 3

/-- `base64_ret_bytes_append`. -/
def base64RetBytesAppend (c : Base64RetBytesCtx) (stream : OutStream) (data : List UInt8) :
    Int × Base64RetBytesCtx × OutStream :=
  if c.numBytesLeft < data.length then (-1, c, stream)
  else
    match base64RetBytesFlush data.length c stream (data.take (data.length - bytesToStore c data)) with
    | (retval, flushed, stream) =>
        if retval = 0 then
          (0, ⟨flushed.config, flushed.bytesCached ++ data.drop (data.length - bytesToStore c data),
            flushed.numBytesLeft - bytesToStore c data⟩, stream)
        else (retval, flushed, stream)

/-- `_anjay_base64_ret_bytes_ctx_close`. -/
def base64RetBytesCtxClose (c : Base64RetBytesCtx) (stream : OutStream) : Int × OutStream :=
  if c.numBytesLeft ≠ 0 then (0, stream) else base64RetEncodeAndWrite c.config stream c.bytesCached

/-! ## 2. Writing -/

/-- The buffer has room for the text, all of which is written. -/
theorem encodeAndWrite_eq (config : Base64Config) (stream : OutStream) (buffer : List UInt8) :
    base64RetEncodeAndWrite config stream buffer =
      if buffer.isEmpty then (0, stream) else stream.writeCode (base64Encoded config buffer) := by
  have hsize := length_base64Encoded config buffer
  have hall : (base64Encoded config buffer).take (encodedSize config buffer.length - 1) = base64Encoded config buffer :=
    List.take_of_length_le (by omega)
  unfold base64RetEncodeAndWrite base64EncodeCustom
  rw [if_neg (Nat.lt_irrefl _)]
  dsimp only
  rw [hall]

theorem encodeAndWrite_fits {config : Base64Config} {stream : OutStream} {buffer : List UInt8}
    (h : stream.Fits (base64Encoded config buffer).length) :
    base64RetEncodeAndWrite config stream buffer = (0, stream.push (base64Encoded config buffer)) := by
  rw [encodeAndWrite_eq]
  cases buffer with
  | nil => rw [base64Encoded_nil, OutStream.push_nil, if_pos (show ([] : List UInt8).isEmpty = true from rfl)]
  | cons b bs =>
      rw [if_neg (by simp), OutStream.writeCode, OutStream.write_of_fits h]
      rfl

/-- **Flushing bytes that make up whole groups with those in the cache writes all of them.** -/
theorem flush_eq : ∀ {fuel : Nat} {c : Base64RetBytesCtx} {stream : OutStream} {data : List UInt8},
    data.length ≤ fuel → c.bytesCached.length ≤ 2 → (c.bytesCached.length + data.length) % 3 = 0 → data ≠ [] →
    stream.Fits (base64Encoded c.config (c.bytesCached ++ data)).length →
    base64RetBytesFlush fuel c stream data =
      (0, ⟨c.config, [], c.numBytesLeft - data.length⟩, stream.push (base64Encoded c.config (c.bytesCached ++ data)))
  | 0, _, _, data, hfuel, _, _, hne, _ => absurd (List.length_eq_zero_iff.mp (Nat.le_zero.mp hfuel)) hne
  | fuel + 1, c, stream, data, hfuel, hcached, hmod, hne, hfits => by
      have hpos : 0 < data.length := List.length_pos_iff.mpr hne
      have hsize : textChunkSize = 192 := rfl
      rw [base64RetBytesFlush, if_neg (by simpa using hne)]
      by_cases hall : data.length ≤ textChunkSize - c.bytesCached.length
      · -- one chunk takes them all
        have hnew : newBytesWritten c data = data.length := Nat.min_eq_right hall
        rw [hnew, List.take_length, List.drop_length, encodeAndWrite_fits hfits]
        dsimp only
        rw [if_pos rfl]
        cases fuel <;> rfl
      · -- a full chunk, and the rest behind it
        have hnew : newBytesWritten c data = textChunkSize - c.bytesCached.length :=
          Nat.min_eq_left (Nat.le_of_not_le hall)
        obtain ⟨n, hn⟩ : ∃ n, n = textChunkSize - c.bytesCached.length := ⟨_, rfl⟩
        have hchunk : (c.bytesCached ++ data.take n).length = 192 := by
          rw [List.length_append, List.length_take]
          omega
        have hsplit : base64Encoded c.config (c.bytesCached ++ data) =
            base64Encoded c.config (c.bytesCached ++ data.take n) ++ base64Encoded c.config (data.drop n) := by
          rw [← base64Encoded_append c.config _ _ (by rw [hchunk]), List.append_assoc, List.take_append_drop]
        have hdrop : (data.drop n).length = data.length - n := List.length_drop
        have hneDrop : data.drop n ≠ [] := fun hnil => by
          rw [hnil, List.length_nil] at hdrop
          omega
        rw [hsplit, List.length_append] at hfits
        rw [hnew, ← hn, encodeAndWrite_fits (OutStream.fits_mono hfits (Nat.le_add_right _ _))]
        dsimp only
        have hempty : ([] : List UInt8).length ≤ 2 := by decide
        have hmod' : (([] : List UInt8).length + (data.drop n).length) % 3 = 0 := by
          rw [List.length_nil, hdrop]
          omega
        rw [if_pos rfl, @flush_eq fuel ⟨c.config, [], c.numBytesLeft - n⟩ _ (data.drop n) (by omega) hempty hmod' hneDrop
          (OutStream.fits_push hfits)]
        rw [OutStream.push_push, List.nil_append, ← hsplit]
        have hleft : c.numBytesLeft - n - (data.drop n).length = c.numBytesLeft - data.length := by omega
        show (0, Base64RetBytesCtx.mk c.config [] (c.numBytesLeft - n - (data.drop n).length), _) = _
        rw [hleft]

/-! ## 3. Pieces -/

/-- After the pieces `data` of a byte string of `declared` bytes, begun with the stream `start`: whole groups are
    written, the rest is cached. -/
structure Holds (config : Base64Config) (declared : Nat) (start : OutStream) (data : List UInt8)
    (c : Base64RetBytesCtx) (stream : OutStream) : Prop where
  sameConfig : c.config = config
  cached : c.bytesCached = data.drop (data.length / 3 * 3)
  written : stream = start.push (base64Encoded config (data.take (data.length / 3 * 3)))
  left : c.numBytesLeft + data.length = declared

theorem Holds.new (config : Base64Config) (declared : Nat) (start : OutStream) :
    Holds config declared start [] (base64RetBytesCtxNew config declared) start where
  sameConfig := rfl
  cached := rfl
  written := by
    rw [List.take_nil, base64Encoded_nil, OutStream.push_nil]
  left := rfl

/-- The stream has room for the text of `declared` bytes. -/
def RoomFor (config : Base64Config) (declared : Nat) (start : OutStream) : Prop :=
  start.Fits (encodedSize config declared - 1)

theorem RoomFor.fits {config : Base64Config} {declared : Nat} {start : OutStream} (h : RoomFor config declared start)
    {bytes : List UInt8} (hlength : bytes.length ≤ declared) : start.Fits (base64Encoded config bytes).length := by
  have hsize := length_base64Encoded config bytes
  have hmono := encodedSize_mono config hlength
  exact OutStream.fits_mono h (by omega)

/-- **A piece that would exceed what was declared is refused, and nothing changes.** -/
theorem Holds.refuse {config : Base64Config} {declared : Nat} {start stream : OutStream} {data piece : List UInt8}
    {c : Base64RetBytesCtx} (h : Holds config declared start data c stream)
    (hexceeds : declared < data.length + piece.length) : base64RetBytesAppend c stream piece = (-1, c, stream) := by
  have hleft := h.left
  rw [base64RetBytesAppend, if_pos (by omega)]

/-- **A piece that fits.** -/
theorem Holds.append {config : Base64Config} {declared : Nat} {start stream : OutStream} {data piece : List UInt8}
    {c : Base64RetBytesCtx} (h : Holds config declared start data c stream) (hroom : RoomFor config declared start)
    (hfits : data.length + piece.length ≤ declared) :
    ∃ c' stream', base64RetBytesAppend c stream piece = (0, c', stream') ∧
      Holds config declared start (data ++ piece) c' stream' := by
  have hlen : c.bytesCached.length = data.length % 3 := by
    rw [h.cached, List.length_drop]
    omega
  have hfrontLen : (data.take (data.length / 3 * 3)).length % 3 = 0 := by
    rw [List.length_take]
    omega
  have hdata : data = data.take (data.length / 3 * 3) ++ c.bytesCached := by
    rw [h.cached, List.take_append_drop]
  have hleft := h.left
  unfold base64RetBytesAppend
  rw [if_neg (by omega)]
  by_cases hsmall : piece.length + c.bytesCached.length < 3
  · -- everything is kept for later
    have hstore : bytesToStore c piece = piece.length := if_pos hsmall
    have hflush : base64RetBytesFlush piece.length c stream [] = (0, c, stream) := by
      cases piece.length <;> rfl
    rw [hstore, Nat.sub_self, List.take_zero, List.drop_zero, hflush]
    dsimp only
    rw [if_pos rfl]
    obtain ⟨htake, hdrop⟩ := Json.split_groups (data.take (data.length / 3 * 3)) (c.bytesCached ++ piece) hfrontLen
      (by rw [List.length_append]; omega)
    have hall : data.take (data.length / 3 * 3) ++ (c.bytesCached ++ piece) = data ++ piece := by
      rw [← List.append_assoc, ← hdata]
    rw [hall] at htake hdrop
    refine ⟨_, _, rfl, h.sameConfig, hdrop.symm, ?_, ?_⟩
    · rw [htake]
      exact h.written
    · show c.numBytesLeft - piece.length + (data ++ piece).length = declared
      rw [List.length_append]
      omega
  · -- whole groups are written
    have hstore : bytesToStore c piece = (c.bytesCached.length + piece.length) % 3 := if_neg hsmall
    obtain ⟨n, hn⟩ : ∃ n, n = piece.length - bytesToStore c piece := ⟨_, rfl⟩
    rw [← hn]
    have hnle : n ≤ piece.length := by omega
    have htakeLen : (piece.take n).length = n := by
      rw [List.length_take]
      omega
    have hne : piece.take n ≠ [] := fun hnil => by
      rw [hnil, List.length_nil] at htakeLen
      omega
    have hwritten : base64Encoded config (data.take (data.length / 3 * 3) ++ (c.bytesCached ++ piece.take n)) =
        base64Encoded config (data.take (data.length / 3 * 3)) ++ base64Encoded config (c.bytesCached ++ piece.take n) :=
      base64Encoded_append config _ _ hfrontLen
    have hwhole := hroom.fits (by
      rw [List.length_append, List.length_append, htakeLen, List.length_take]
      omega : (data.take (data.length / 3 * 3) ++ (c.bytesCached ++ piece.take n)).length ≤ declared)
    rw [hwritten, List.length_append] at hwhole
    have hstream : stream.Fits (base64Encoded c.config (c.bytesCached ++ piece.take n)).length := by
      rw [h.written, h.sameConfig]
      exact OutStream.fits_push hwhole
    rw [flush_eq (by omega) (by omega) (by rw [htakeLen]; omega) hne hstream]
    dsimp only
    rw [if_pos rfl]
    obtain ⟨htake, hdrop⟩ := Json.split_groups
      (data.take (data.length / 3 * 3) ++ (c.bytesCached ++ piece.take n)) (piece.drop n)
      (by rw [List.length_append, List.length_append, htakeLen]; omega)
      (by rw [List.length_drop]; omega)
    have hall : data.take (data.length / 3 * 3) ++ (c.bytesCached ++ piece.take n) ++ piece.drop n = data ++ piece := by
      rw [← List.append_assoc, ← hdata, List.append_assoc, List.take_append_drop]
    rw [hall] at htake hdrop
    refine ⟨_, _, rfl, h.sameConfig, hdrop.symm, ?_, ?_⟩
    · rw [htake, hwritten, h.written, h.sameConfig, OutStream.push_push]
    · show c.numBytesLeft - (piece.take n).length - bytesToStore c piece + (data ++ piece).length = declared
      rw [htakeLen, List.length_append]
      omega

/-- **The close writes what is cached, if all bytes are there**; else it does nothing, and says that all is well. -/
theorem Holds.close {config : Base64Config} {declared : Nat} {start stream : OutStream} {data : List UInt8}
    {c : Base64RetBytesCtx} (h : Holds config declared start data c stream) (hroom : RoomFor config declared start) :
    base64RetBytesCtxClose c stream =
      if data.length = declared then (0, start.push (base64Encoded config data)) else (0, stream) := by
  have hleft := h.left
  unfold base64RetBytesCtxClose
  by_cases hall : data.length = declared
  · have hfront : (data.take (data.length / 3 * 3)).length % 3 = 0 := by
      rw [List.length_take]
      omega
    have hdata : base64Encoded config data =
        base64Encoded config (data.take (data.length / 3 * 3)) ++ base64Encoded config c.bytesCached := by
      rw [h.cached, ← base64Encoded_append config _ _ hfront, List.take_append_drop]
    have hwhole := hroom.fits (Nat.le_of_eq hall)
    rw [hdata, List.length_append] at hwhole
    rw [if_neg (fun hne => hne (by omega)), if_pos hall, h.sameConfig, h.written,
      encodeAndWrite_fits (OutStream.fits_push hwhole), OutStream.push_push, ← hdata]
  · rw [if_pos (by omega), if_neg hall]

/-! ## 4. A byte string in pieces -/

/-- The context and the stream after some pieces, whatever the calls return. -/
def appendAll (c : Base64RetBytesCtx) (stream : OutStream) : List (List UInt8) → Base64RetBytesCtx × OutStream
  | [] => (c, stream)
  | piece :: pieces =>
      match base64RetBytesAppend c stream piece with
      | (_, c, stream) => appendAll c stream pieces

/-- What a byte string of `declared` bytes has after another piece, if that still fits. -/
def takenPiece (declared : Nat) (data piece : List UInt8) : List UInt8 :=
  if data.length + piece.length ≤ declared then data ++ piece else data

/-- What a byte string of `declared` bytes has of some pieces. -/
def takenPieces (declared : Nat) (pieces : List (List UInt8)) : List UInt8 := pieces.foldl (takenPiece declared) []

theorem length_takenPieces (declared : Nat) (pieces : List (List UInt8)) :
    (takenPieces declared pieces).length ≤ declared := by
  have hfold : ∀ (pieces : List (List UInt8)) (data : List UInt8), data.length ≤ declared →
      (pieces.foldl (takenPiece declared) data).length ≤ declared := by
    intro pieces
    induction pieces with
    | nil => exact fun _ h => h
    | cons piece pieces ih =>
        intro data hdata
        refine ih _ ?_
        unfold takenPiece
        split
        · next hfits => rwa [List.length_append]
        · exact hdata
  exact hfold pieces [] (Nat.zero_le _)

/-- **The run of the pieces**: what fits is taken. -/
theorem Holds.appendAll {config : Base64Config} {declared : Nat} {start : OutStream}
    (hroom : RoomFor config declared start) (pieces : List (List UInt8)) : ∀ {data : List UInt8} {c : Base64RetBytesCtx}
    {stream : OutStream}, Holds config declared start data c stream →
    Holds config declared start (pieces.foldl (takenPiece declared) data) (appendAll c stream pieces).1
      (appendAll c stream pieces).2 := by
  induction pieces with
  | nil => exact fun h => h
  | cons piece pieces ih =>
      intro data c stream h
      unfold Io.appendAll
      rw [List.foldl_cons]
      by_cases hfits : data.length + piece.length ≤ declared
      · obtain ⟨c', stream', happend, hnext⟩ := h.append hroom hfits
        have htaken : takenPiece declared data piece = data ++ piece := if_pos hfits
        rw [happend, htaken]
        exact ih hnext
      · have htaken : takenPiece declared data piece = data := if_neg hfits
        rw [h.refuse (Nat.lt_of_not_le hfits), htaken]
        exact ih h

/-- The context and the stream before the last of some pieces. -/
theorem holds_pieces {config : Base64Config} {declared : Nat} {start : OutStream} (hroom : RoomFor config declared start)
    (pieces : List (List UInt8)) :
    Holds config declared start (takenPieces declared pieces)
      (appendAll (base64RetBytesCtxNew config declared) start pieces).1
      (appendAll (base64RetBytesCtxNew config declared) start pieces).2 :=
  (Holds.new config declared start).appendAll hroom pieces

/-- What the pieces of a byte string of `declared` bytes should come to: those that fit are accepted, those that would
    exceed it are refused and write nothing; the close ends it with the text of the whole, or reports that bytes are
    missing. -/
structure Meets (config : Base64Config) (declared : Nat) (start : OutStream) (pieces : List (List UInt8)) : Prop where
  accepted : ∀ before piece after, pieces = before ++ piece :: after →
    (takenPieces declared before).length + piece.length ≤ declared →
    (base64RetBytesAppend (appendAll (base64RetBytesCtxNew config declared) start before).1
      (appendAll (base64RetBytesCtxNew config declared) start before).2 piece).1 = 0
  refused : ∀ before piece after, pieces = before ++ piece :: after →
    declared < (takenPieces declared before).length + piece.length →
    base64RetBytesAppend (appendAll (base64RetBytesCtxNew config declared) start before).1
      (appendAll (base64RetBytesCtxNew config declared) start before).2 piece =
        (-1, appendAll (base64RetBytesCtxNew config declared) start before)
  whole : (takenPieces declared pieces).length = declared →
    base64RetBytesCtxClose (appendAll (base64RetBytesCtxNew config declared) start pieces).1
      (appendAll (base64RetBytesCtxNew config declared) start pieces).2 =
        (0, start.push (base64Encoded config (takenPieces declared pieces)))
  short : (takenPieces declared pieces).length < declared →
    (base64RetBytesCtxClose (appendAll (base64RetBytesCtxNew config declared) start pieces).1
      (appendAll (base64RetBytesCtxNew config declared) start pieces).2).1 ≠ 0

/-- **The pieces end as the text of the whole in one go; that bytes are missing is not reported.** -/
theorem meets_iff {config : Base64Config} {declared : Nat} {start : OutStream} (hroom : RoomFor config declared start)
    (pieces : List (List UInt8)) :
    Meets config declared start pieces ↔ (takenPieces declared pieces).length = declared := by
  have hclose := (holds_pieces hroom pieces).close hroom
  constructor
  · intro h
    by_contra hne
    refine h.short (Nat.lt_of_le_of_ne (length_takenPieces declared pieces) hne) ?_
    rw [hclose, if_neg hne]
  · intro hall
    refine ⟨fun before piece after _ hfits => ?_, fun before piece after _ hexceeds => ?_, fun _ => ?_, fun hless => ?_⟩
    · obtain ⟨c', stream', happend, -⟩ := (holds_pieces hroom before).append hroom hfits
      rw [happend]
    · exact (holds_pieces hroom before).refuse hexceeds
    · rw [hclose, if_pos hall]
    · exact absurd hall (Nat.ne_of_lt hless)

/-! ## 5. The byte strings of the JSON output -/

/-- The context of the JSON output, as one with the strict configuration. -/
def ofJson (c : Json.Base64Ctx) : Base64RetBytesCtx := ⟨defaultStrictConfig, c.bytesCached, c.numBytesLeft⟩

theorem json_encodeLoop (input : List UInt8) : ∀ i sh,
    base64EncodeLoop defaultStrictConfig.alphabet i sh input = Json.encodeLoop i sh input := by
  induction input with
  | nil => exact fun i sh => rfl
  | cons num input ih =>
      intro i sh
      rw [base64EncodeLoop, Json.encodeLoop, ih, ih, ih]
      rfl

/-- **The encoder of the JSON output is the strict one.** -/
theorem json_encoded (input : List UInt8) : base64Encoded defaultStrictConfig input = Json.base64EncodeCustom input := by
  unfold base64Encoded Json.base64EncodeCustom withPadding Json.padded
  rw [json_encodeLoop, if_pos (by decide)]
  rfl

theorem json_encodeAndWrite (stream : OutStream) (buffer : List UInt8) :
    base64RetEncodeAndWrite defaultStrictConfig stream buffer = Json.base64RetEncodeAndWrite stream buffer := by
  rw [encodeAndWrite_eq, json_encoded]
  unfold Json.base64RetEncodeAndWrite OutStream.writeCode
  cases stream.write (Json.base64EncodeCustom buffer) with
  | mk ok stream₁ => cases ok <;> rfl

theorem json_flush (fuel : Nat) : ∀ (c : Json.Base64Ctx) (stream : OutStream) (data : List UInt8),
    base64RetBytesFlush fuel (ofJson c) stream data =
      ((Json.base64RetBytesFlush fuel c stream data).1, ofJson (Json.base64RetBytesFlush fuel c stream data).2.1,
        (Json.base64RetBytesFlush fuel c stream data).2.2) := by
  induction fuel with
  | zero => exact fun _ _ _ => rfl
  | succ fuel ih =>
      intro c stream data
      have hnew : newBytesWritten (ofJson c) data = Json.newBytesWritten c data := rfl
      rw [base64RetBytesFlush, Json.base64RetBytesFlush, hnew]
      by_cases hdata : data.isEmpty = true
      · rw [if_pos hdata, if_pos hdata]
      rw [if_neg hdata, if_neg hdata]
      have hwrite := json_encodeAndWrite stream (c.bytesCached ++ data.take (Json.newBytesWritten c data))
      have hconfig : (ofJson c).config = defaultStrictConfig := rfl
      have hcached : (ofJson c).bytesCached = c.bytesCached := rfl
      rw [hconfig, hcached, hwrite]
      cases Json.base64RetEncodeAndWrite stream (c.bytesCached ++ data.take (Json.newBytesWritten c data)) with
      | mk retval stream₁ =>
          dsimp only
          by_cases hzero : retval = 0
          · rw [if_pos hzero, if_pos hzero]
            exact ih ⟨[], c.numBytesLeft - Json.newBytesWritten c data⟩ stream₁ _
          · rw [if_neg hzero, if_neg hzero]

/-- **A piece is appended as in the JSON output.** -/
theorem json_append (c : Json.Base64Ctx) (stream : OutStream) (data : List UInt8) :
    base64RetBytesAppend (ofJson c) stream data =
      ((Json.base64RetBytesAppend c stream data).1, ofJson (Json.base64RetBytesAppend c stream data).2.1,
        (Json.base64RetBytesAppend c stream data).2.2) := by
  have hstore : bytesToStore (ofJson c) data = Json.bytesToStore c data := rfl
  have hleft : (ofJson c).numBytesLeft = c.numBytesLeft := rfl
  unfold base64RetBytesAppend Json.base64RetBytesAppend
  rw [hstore, hleft, json_flush]
  by_cases hexceeds : c.numBytesLeft < data.length
  · rw [if_pos hexceeds, if_pos hexceeds]
  rw [if_neg hexceeds, if_neg hexceeds]
  cases Json.base64RetBytesFlush data.length c stream (data.take (data.length - Json.bytesToStore c data)) with
  | mk retval rest =>
      obtain ⟨c₁, stream₁⟩ := rest
      dsimp only
      by_cases hzero : retval = 0
      · rw [if_pos hzero, if_pos hzero]
        rfl
      · rw [if_neg hzero, if_neg hzero]

/-- **The close is that of the JSON output.** -/
theorem json_close (c : Json.Base64Ctx) (stream : OutStream) :
    base64RetBytesCtxClose (ofJson c) stream = Json.base64RetBytesCtxClose c stream := by
  unfold base64RetBytesCtxClose Json.base64RetBytesCtxClose
  show (if c.numBytesLeft ≠ 0 then _ else base64RetEncodeAndWrite defaultStrictConfig stream c.bytesCached) = _
  rw [json_encodeAndWrite]

end Anjay.Io
