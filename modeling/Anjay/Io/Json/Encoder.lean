/-
  File:      Anjay/Io/Json/Encoder.lean
  Subject:   The LwM2M JSON encoder (`anjay_json_encoder.c`).

  * `JsonEncoder`: the level of nesting, the flag for the separator, and the byte string under way.
  * `elementBegin_ok`, `encodePair_ok`, `bytesBegin_ok`, `bytesEnd_ok`, `elementEnd_ok`: what each call writes, and the
    state it leaves, if every write succeeds.
-/
import Anjay.Commons.Parse
import Anjay.Io.Json.Base64Out
import Anjay.Io.Json.Quoted
import Anjay.Lib.JsonReader

namespace Anjay.Json

open Lib Lib.Json Text

/-! ## 1. The calls -/

/-- `(retval = f(ctx)) || (retval = g(ctx))`. -/
def andThen {σ : Type} (r : Int × σ) (g : σ → Int × σ) : Int × σ := if r.1 = 0 then g r.2 else r

theorem andThen_ok {σ : Type} {r : Int × σ} {g : σ → Int × σ} {s' : σ} (h : andThen r g = (0, s')) :
    r.1 = 0 ∧ g r.2 = (0, s') := by
  unfold andThen at h
  split at h
  · exact ⟨by assumption, h⟩
  · rename_i hne
    exact absurd (congrArg Prod.fst h) hne

theorem eq_zero_snd {σ : Type} {r : Int × σ} (h : r.1 = 0) : r = (0, r.2) := Prod.ext h rfl

/-- `senml_like_data_type_t`. -/
inductive DataType
  | dataBasename
  | dataName
  | dataValue
  | dataString
  | dataBool
  | dataOpaque
  | dataTime
  | dataObjlnk
  deriving DecidableEq, Repr

/-- The key that `encode_key` writes, without its quotation marks and the colon. -/
def DataType.key : DataType → List UInt8
  | .dataBasename => [0x62, 0x6E]
  | .dataName => [0x6E]
  | .dataValue => [0x76]
  | .dataString => [0x73, 0x76]
  | .dataOpaque => [0x73, 0x76]
  | .dataBool => [0x62, 0x76]
  | .dataTime => [0x74]
  | .dataObjlnk => [0x6F, 0x76]

/-- What `encode_key` writes. -/
def DataType.keyText (type : DataType) : List UInt8 := quote :: (type.key ++ [quote, colon])

/-- `json_encoder_t` of the LwM2M JSON encoder; `bytes` is the context of a byte string under way. -/
structure JsonEncoder where
  stream : OutStream
  bytes : Option Base64Ctx
  level : Nat
  needsSeparator : Bool

namespace JsonEncoder

/-- `avs_stream_write` to the stream of the encoder. -/
def write (data : List UInt8) (ctx : JsonEncoder) : Int × JsonEncoder :=
  match ctx.stream.write data with
  | (true, stream) => (0, { ctx with stream := stream })
  | (false, stream) => (-1, { ctx with stream := stream })

/-- `write_quoted_string` to the stream of the encoder. -/
def writeQuoted (value : List UInt8) (ctx : JsonEncoder) : Int × JsonEncoder :=
  ((writeQuotedString ctx.stream value).1, { ctx with stream := (writeQuotedString ctx.stream value).2 })

/-- `maybe_write_separator`. -/
def maybeWriteSeparator (ctx : JsonEncoder) : Int × JsonEncoder :=
  if ctx.needsSeparator then write [comma] { ctx with needsSeparator := false } else (0, ctx)

/-- `encode_key`. -/
def encodeKey (type : DataType) (ctx : JsonEncoder) : Int × JsonEncoder := ctx.write type.keyText

/-- `begin_pair`; JSON_CONTEXT_LEVEL_MAP is 1. -/
def beginPair (type : DataType) (ctx : JsonEncoder) : Int × JsonEncoder :=
  let result := if ctx.level = 1 then andThen ctx.maybeWriteSeparator (encodeKey type) else (-1, ctx)
  (result.1, { result.2 with needsSeparator := true })

/-- `maybe_write_name`. -/
def maybeWriteName (name : Option (List UInt8)) (ctx : JsonEncoder) : Int × JsonEncoder :=
  match name with
  | none => (0, ctx)
  | some name => andThen (ctx.beginPair .dataName) (writeQuoted name)

/-- `nested_context_push`. -/
def nestedContextPush (ctx : JsonEncoder) : JsonEncoder := { ctx with level := ctx.level + 1 }

/-- `nested_context_pop`. -/
def nestedContextPop (ctx : JsonEncoder) : JsonEncoder := { ctx with level := ctx.level - 1 }

/-- `element_begin`; there is no time. -/
def elementBegin (name : Option (List UInt8)) (ctx : JsonEncoder) : Int × JsonEncoder :=
  andThen (andThen ctx.nestedContextPush.maybeWriteSeparator (write [openBrace])) (maybeWriteName name)

/-- A number as AVS_INT64_AS_STRING prints it. -/
def intText (value : Int) : List UInt8 := if value < 0 then minus :: decimal value.natAbs else decimal value.natAbs

/-- `encode_int`. -/
def encodeInt (value : Int) (ctx : JsonEncoder) : Int × JsonEncoder :=
  andThen (ctx.beginPair .dataValue) (write (intText value))

/-- `encode_bool`. -/
def encodeBool (value : Bool) (ctx : JsonEncoder) : Int × JsonEncoder :=
  andThen (ctx.beginPair .dataBool) (write (if value then wordTrue else wordFalse))

/-- `encode_objlnk`. -/
def encodeObjlnk (value : List UInt8) (ctx : JsonEncoder) : Int × JsonEncoder :=
  andThen (ctx.beginPair .dataObjlnk) (writeQuoted value)

/-- `element_end`. -/
def elementEnd (ctx : JsonEncoder) : Int × JsonEncoder :=
  write [closeBrace] { ctx.nestedContextPop with needsSeparator := true }

/-- `bytes_begin`. -/
def bytesBegin (size : Nat) (ctx : JsonEncoder) : Int × JsonEncoder :=
  let started := { ctx.nestedContextPush with bytes := some (base64RetBytesCtxNew size) }
  let result := andThen (andThen started.maybeWriteSeparator (encodeKey .dataOpaque)) (write [quote])
  if result.1 = 0 then result else (-1, { result.2 with bytes := none })

/-- `bytes_append`; without a context there is nothing to append to. -/
def bytesAppend (data : List UInt8) (ctx : JsonEncoder) : Int × JsonEncoder :=
  match ctx.bytes with
  | none => (-1, ctx)
  | some bytes =>
      ((base64RetBytesAppend bytes ctx.stream data).1,
        { ctx with
          bytes := some (base64RetBytesAppend bytes ctx.stream data).2.1
          stream := (base64RetBytesAppend bytes ctx.stream data).2.2 })

/-- The closing of the byte string in `bytes_end`. -/
def bytesClose (ctx : JsonEncoder) : Int × JsonEncoder :=
  match ctx.bytes with
  | none => (-1, ctx)
  | some bytes =>
      ((base64RetBytesCtxClose bytes ctx.stream).1, { ctx with stream := (base64RetBytesCtxClose bytes ctx.stream).2 })

/-- `bytes_end`. -/
def bytesEnd (ctx : JsonEncoder) : Int × JsonEncoder :=
  let result := andThen ctx.bytesClose (write [quote])
  (if result.1 = 0 then 0 else -1, { result.2.nestedContextPop with bytes := none })

/-- `encoder_cleanup`; JSON_CONTEXT_LEVEL_ARRAY is 0. -/
def encoderCleanup (ctx : JsonEncoder) : Int × OutStream :=
  if ctx.level = 0 then ((ctx.write [closeBracket, closeBrace]).1, (ctx.write [closeBracket, closeBrace]).2.stream)
  else (-1, ctx.stream)

/-- What `write_lwm2m_json_response_preamble` writes. -/
def preamble (basename : Option (List UInt8)) : List UInt8 :=
  openBrace :: ((match basename with
    | none => []
    | some basename => DataType.dataBasename.keyText ++ quote :: (basename ++ [quote, comma])) ++
      [quote, 0x65, quote, colon, openBracket])

end JsonEncoder

/-- `_anjay_lwm2m_json_encoder_new`, with memory for the context. -/
def lwm2mJsonEncoderNew (stream : OutStream) (basename : Option (List UInt8)) : Option JsonEncoder :=
  match JsonEncoder.write (JsonEncoder.preamble basename) ⟨stream, none, 0, false⟩ with
  | (retval, ctx) => if retval = 0 then some ctx else none

/-! ## 2. What they write -/

namespace JsonEncoder

variable {ctx ctx' : JsonEncoder}

/-- More text on the stream. -/
def push (text : List UInt8) (ctx : JsonEncoder) : JsonEncoder := { ctx with stream := ctx.stream.push text }

theorem push_push (a b : List UInt8) (ctx : JsonEncoder) : (ctx.push a).push b = ctx.push (a ++ b) := by
  unfold push
  rw [OutStream.push_push]

theorem write_ok {data : List UInt8} (h : ctx.write data = (0, ctx')) : ctx' = ctx.push data := by
  unfold write at h
  cases hwrite : ctx.stream.write data with
  | mk ok stream =>
      rw [hwrite] at h
      cases ok with
      | false => cases h
      | true =>
          cases h
          rw [OutStream.write_ok hwrite]
          rfl

theorem writeQuoted_ok {value : List UInt8} (h : ctx.writeQuoted value = (0, ctx')) : ctx' = ctx.push (quoted value) := by
  unfold writeQuoted at h
  cases hwrite : writeQuotedString ctx.stream value with
  | mk retval stream =>
      rw [hwrite] at h
      obtain ⟨hretval, hctx⟩ := Prod.mk.inj h
      dsimp only at hretval
      subst hretval
      rw [← hctx, writeQuotedString_ok hwrite]
      rfl

/-- The separator, if one is needed. -/
def separator (needed : Bool) : List UInt8 := if needed then [comma] else []

theorem maybeWriteSeparator_ok (h : ctx.maybeWriteSeparator = (0, ctx')) :
    ctx' = ({ ctx with needsSeparator := false } : JsonEncoder).push (separator ctx.needsSeparator) := by
  unfold maybeWriteSeparator at h
  cases hneeded : ctx.needsSeparator with
  | true =>
      rw [hneeded, if_pos rfl] at h
      exact write_ok h
  | false =>
      rw [hneeded, if_neg Bool.false_ne_true] at h
      cases h
      obtain ⟨stream, bytes, level, needs⟩ := ctx
      cases hneeded
      show _ = (⟨stream.push [], bytes, level, false⟩ : JsonEncoder)
      rw [OutStream.push_nil]

theorem beginPair_ok {type : DataType} (h : ctx.beginPair type = (0, ctx')) :
    ctx.level = 1 ∧ ctx' = ({ ctx with needsSeparator := true } : JsonEncoder).push
      (separator ctx.needsSeparator ++ type.keyText) := by
  unfold beginPair at h
  by_cases hlevel : ctx.level = 1
  · rw [if_pos hlevel] at h
    obtain ⟨hzero, hctx⟩ := Prod.mk.inj h
    obtain ⟨hsep, hkey⟩ := andThen_ok (eq_zero_snd hzero)
    have hwritten := write_ok hkey
    rw [maybeWriteSeparator_ok (eq_zero_snd hsep), push_push] at hwritten
    refine ⟨hlevel, ?_⟩
    rw [← hctx, hwritten]
    rfl
  · rw [if_neg hlevel] at h
    cases h

/-- A pair whose value is written at once. -/
theorem encodePair_ok {type : DataType} {data : List UInt8}
    (h : andThen (ctx.beginPair type) (write data) = (0, ctx')) :
    ctx.level = 1 ∧ ctx' = ({ ctx with needsSeparator := true } : JsonEncoder).push
      (separator ctx.needsSeparator ++ type.keyText ++ data) := by
  obtain ⟨hzero, hwrite⟩ := andThen_ok h
  obtain ⟨hlevel, hpair⟩ := beginPair_ok (eq_zero_snd hzero)
  refine ⟨hlevel, ?_⟩
  rw [write_ok hwrite, hpair, push_push]

/-- A pair whose value is a string. -/
theorem encodeQuoted_ok {type : DataType} {value : List UInt8}
    (h : andThen (ctx.beginPair type) (writeQuoted value) = (0, ctx')) :
    ctx.level = 1 ∧ ctx' = ({ ctx with needsSeparator := true } : JsonEncoder).push
      (separator ctx.needsSeparator ++ type.keyText ++ quoted value) := by
  obtain ⟨hzero, hwrite⟩ := andThen_ok h
  obtain ⟨hlevel, hpair⟩ := beginPair_ok (eq_zero_snd hzero)
  refine ⟨hlevel, ?_⟩
  rw [writeQuoted_ok hwrite, hpair, push_push]

/-- The pair of a name. -/
def namePair : Option (List UInt8) → List UInt8
  | none => []
  | some name => DataType.dataName.keyText ++ quoted name

/-- **An element begins** on the level of the array: its brace, and its name if it has one. -/
theorem elementBegin_ok {name : Option (List UInt8)} (h : ctx.elementBegin name = (0, ctx')) (hlevel : ctx.level = 0) :
    ctx' = ({ ctx with level := 1, needsSeparator := name.isSome } : JsonEncoder).push
      (separator ctx.needsSeparator ++ openBrace :: namePair name) := by
  obtain ⟨hzero, hname⟩ := andThen_ok h
  obtain ⟨hsep, hbrace⟩ := andThen_ok (eq_zero_snd hzero)
  have hbrace := write_ok hbrace
  rw [maybeWriteSeparator_ok (eq_zero_snd hsep), push_push] at hbrace
  have hpush : ({ ctx.nestedContextPush with needsSeparator := false } : JsonEncoder) =
      { ctx with level := 1, needsSeparator := false } := by
    unfold nestedContextPush
    rw [hlevel]
  rw [hbrace, hpush] at hname
  cases name with
  | none =>
      cases hname
      rfl
  | some name =>
      obtain ⟨_, hpair⟩ := encodeQuoted_ok hname
      rw [hpair]
      show (push _ { ctx with level := 1, needsSeparator := true }).push _ = _
      rw [push_push, List.append_assoc]
      rfl

theorem elementEnd_ok (h : ctx.elementEnd = (0, ctx')) (hlevel : ctx.level = 1) :
    ctx' = ({ ctx with level := 0, needsSeparator := true } : JsonEncoder).push [closeBrace] := by
  rw [write_ok h]
  show JsonEncoder.mk _ _ (ctx.level - 1) _ = _
  rw [hlevel]
  rfl

/-- **A byte string begins.** -/
theorem bytesBegin_ok {size : Nat} (h : ctx.bytesBegin size = (0, ctx')) :
    ctx' = ({ ctx with level := ctx.level + 1, needsSeparator := false, bytes := some (base64RetBytesCtxNew size) } :
      JsonEncoder).push (separator ctx.needsSeparator ++ DataType.dataOpaque.keyText ++ [quote]) := by
  unfold bytesBegin at h
  dsimp only at h
  split at h
  · obtain ⟨hzero, hquote⟩ := andThen_ok h
    obtain ⟨hsep, hkey⟩ := andThen_ok (eq_zero_snd hzero)
    rw [write_ok hquote, write_ok hkey, maybeWriteSeparator_ok (eq_zero_snd hsep), push_push, push_push,
      ← List.append_assoc]
    rfl
  · cases h

theorem bytesAppend_ok {bytes : Base64Ctx} {data : List UInt8} (hbytes : ctx.bytes = some bytes)
    (h : ctx.bytesAppend data = (0, ctx')) :
    ∃ bytes' stream', base64RetBytesAppend bytes ctx.stream data = (0, bytes', stream') ∧
      ctx' = { ctx with bytes := some bytes', stream := stream' } := by
  unfold bytesAppend at h
  rw [hbytes] at h
  obtain ⟨hzero, hctx⟩ := Prod.mk.inj h
  exact ⟨_, _, Prod.ext hzero rfl, hctx.symm⟩

/-- **A byte string ends**, closed with what `_anjay_base64_ret_bytes_ctx_close` leaves. -/
theorem bytesEnd_ok {bytes : Base64Ctx} (hbytes : ctx.bytes = some bytes) (h : ctx.bytesEnd = (0, ctx')) :
    ∃ stream', base64RetBytesCtxClose bytes ctx.stream = (0, stream') ∧
      ctx' = { ctx with level := ctx.level - 1, bytes := none, stream := stream'.push [quote] } := by
  unfold bytesEnd at h
  dsimp only at h
  obtain ⟨hretval, hctx⟩ := Prod.mk.inj h
  have hzero : (andThen ctx.bytesClose (write [quote])).1 = 0 := by
    by_contra hne
    rw [if_neg hne] at hretval
    exact absurd hretval (by decide)
  obtain ⟨hclose, hquote⟩ := andThen_ok (eq_zero_snd hzero)
  have hquote := write_ok hquote
  rw [hquote] at hctx
  unfold bytesClose at hclose hctx
  rw [hbytes] at hclose hctx
  exact ⟨_, Prod.ext hclose rfl, hctx.symm⟩

theorem encoderCleanup_ok {stream' : OutStream} (h : ctx.encoderCleanup = (0, stream')) :
    ctx.level = 0 ∧ stream' = ctx.stream.push [closeBracket, closeBrace] := by
  unfold encoderCleanup at h
  split at h
  · obtain ⟨hzero, hstream⟩ := Prod.mk.inj h
    rw [write_ok (eq_zero_snd hzero)] at hstream
    exact ⟨by assumption, hstream.symm⟩
  · cases h

theorem lwm2mJsonEncoderNew_ok {stream : OutStream} {basename : Option (List UInt8)}
    (h : lwm2mJsonEncoderNew stream basename = some ctx) : ctx = ⟨stream.push (preamble basename), none, 0, false⟩ := by
  unfold lwm2mJsonEncoderNew at h
  cases hwrite : write (preamble basename) ⟨stream, none, 0, false⟩ with
  | mk retval ctx₁ =>
      rw [hwrite] at h
      dsimp only at h
      split at h
      · rename_i hzero
        subst hzero
        exact Option.some.inj h ▸ write_ok hwrite
      · cases h

end JsonEncoder

end Anjay.Json
