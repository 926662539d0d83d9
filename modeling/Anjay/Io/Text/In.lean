/-
  File:      Anjay/Io/Text/In.lean
  Subject:   The plain-text input context (`anjay_text.c`, decoding part): state and readers.

  * `getSomeBytes`: byte strings, as base64 text in groups of four characters; up to three decoded bytes are kept
    between the calls.
  * `getString`, `getInteger`, `getBool`, `getObjlnk`: the text itself, and what is parsed from it.
-/
import Anjay.Commons.Base64
import Anjay.Commons.Basic
import Anjay.Commons.Integer
import Anjay.Io.Input

namespace Anjay.PlainText

open Commons Text
open Tlv (SomeBytes)

/-! ## 1. State -/

/-- `text_in_t`: `bytesCached` are the first `num_bytes_cached` bytes of `bytes_cached`. The request URI is left out:
    the readers do not look at it. -/
structure TextIn where
  stream : List UInt8
  bytesMode : Bool
  bytesCached : List UInt8
  msgFinished : Bool
  deriving DecidableEq, Repr

/-- `_anjay_input_text_create`. -/
def inputTextCreate (stream : List UInt8) : TextIn := ⟨stream, false, [], false⟩

/-! ## 2. Byte strings -/

/-- `has_valid_padding`, as a condition: padding stands at the end of the message only. -/
def hasValidPadding (buffer : List UInt8) (msgFinished : Bool) : Bool :=
  !(buffer.getLast? == some 0x3D && !msgFinished)

/-- `text_get_some_bytes_cache_flush`: what goes into the buffer. -/
def flushed (ctx : TextIn) (bufSize : Nat) : List UInt8 := ctx.bytesCached.take bufSize

/-- `text_get_some_bytes_cache_flush`: what stays in the cache. -/
def cacheFlush (ctx : TextIn) (bufSize : Nat) : TextIn := { ctx with bytesCached := ctx.bytesCached.drop bufSize }

/-- The end of `text_get_some_bytes`. -/
def someBytesEnd (ctx : TextIn) (streamMsgFinished : Bool) (acc : List UInt8) : SomeBytes × TextIn :=
  (⟨0, acc, streamMsgFinished && ctx.bytesCached.isEmpty⟩, { ctx with msgFinished := streamMsgFinished })

/-- The loop of `text_get_some_bytes`; `acc` is what stands in the buffer, `bufSize` the room behind it. A pass that
    goes on has taken four characters off the stream, so that the fuel is never used up. -/
def getSomeBytesLoop : Nat → TextIn → Nat → Bool → List UInt8 → SomeBytes × TextIn
  | 0, ctx, _, _, _ => (⟨errInternal, [], false⟩, ctx)
  | fuel + 1, ctx, bufSize, streamMsgFinished, acc =>
      if bufSize = 0 then someBytesEnd ctx streamMsgFinished acc
      else
        match streamRead 4 ctx.stream with
        | (encoded, streamMsgFinished, rest) =>
            if encoded.length % 4 ≠ 0 then (⟨errBadRequest, [], false⟩, { ctx with stream := rest })
            else if !hasValidPadding encoded streamMsgFinished then
              (⟨errBadRequest, [], false⟩, { ctx with stream := rest })
            else
              match base64DecodeStrict 3 encoded with
              | none => (⟨errBadRequest, [], false⟩, { ctx with stream := rest })
              | some decoded =>
                  let ctx := { ctx with stream := rest, bytesCached := decoded }
                  let acc := acc ++ flushed ctx bufSize
                  let left := bufSize - (flushed ctx bufSize).length
                  let ctx := cacheFlush ctx bufSize
                  if streamMsgFinished then someBytesEnd ctx true acc
                  else getSomeBytesLoop fuel ctx left false acc

/-- `text_get_some_bytes`. -/
def getSomeBytes (ctx : TextIn) (bufSize : Nat) : SomeBytes × TextIn :=
  let ctx := { ctx with bytesMode := true }
  getSomeBytesLoop (ctx.stream.length + 2) (cacheFlush ctx bufSize) (bufSize - (flushed ctx bufSize).length) false
    (flushed ctx bufSize)

/-! ## 3. Text -/

/-- The loop of `text_get_string`; `acc` is what stands in the buffer, `left` the room behind it. -/
def getStringLoop : Nat → TextIn → Nat → List UInt8 → (Int × List UInt8) × TextIn
  | 0, ctx, _, _ => ((errInternal, []), ctx)
  | fuel + 1, ctx, left, acc =>
      match streamRead left ctx.stream with
      | (bytes, finished, rest) =>
          let ctx := { ctx with stream := rest, msgFinished := finished }
          if !finished && decide (0 < left - bytes.length) then
            getStringLoop fuel ctx (left - bytes.length) (acc ++ bytes)
          else ((if finished then 0 else bufferTooShort, acc ++ bytes), ctx)

/-- `text_get_string`: the code, and the bytes in front of the NUL that is written behind them. -/
def getString (ctx : TextIn) (bufSize : Nat) : (Int × List UInt8) × TextIn :=
  if ctx.bytesMode then ((-1, []), ctx) else getStringLoop (bufSize + 1) ctx (bufSize - 1) []

/-- TEXT_IN_VTABLE. -/
def textInVtable : Io.InputVtable TextIn := ⟨getSomeBytes, getString⟩

/-- `map_get_string_error`. -/
def mapGetStringError (retval : Int) : Int := if retval = bufferTooShort then errBadRequest else retval

/-- AVS_INT_STR_BUF_SIZE(long long). -/
def intStrBufSize : Nat := (24 * 8 - 3) / 10 + 3

/-- MAX_OBJLNK_STRING_SIZE. -/
def maxObjlnkStringSize : Nat := 12

/-- `text_get_integer`. -/
def getInteger (ctx : TextIn) : Except Int Int × TextIn :=
  match Io.getString textInVtable ctx intStrBufSize with
  | ((retval, buf), ctx) =>
      if retval ≠ 0 then (.error (mapGetStringError retval), ctx)
      else
        match safeStrtoll (CString.ofBytes buf).bytes with
        | some value => (.ok value, ctx)
        | none => (.error errBadRequest, ctx)

/-- `text_get_bool`. -/
def getBool (ctx : TextIn) : Except Int Bool × TextIn :=
  match getInteger ctx with
  | (.error retval, ctx) => (.error retval, ctx)
  | (.ok value, ctx) =>
      if value = 0 then (.ok false, ctx)
      else if value = 1 then (.ok true, ctx)
      else (.error errBadRequest, ctx)

/-- What is in front of the first colon and behind it. -/
def splitColon (text : List UInt8) : Option (List UInt8 × List UInt8) :=
  if 0x3A ∈ text then some (text.takeWhile (· != 0x3A), (text.dropWhile (· != 0x3A)).tail) else none

/-- `_anjay_io_parse_objlnk`. -/
def parseObjlnk (text : List UInt8) : Option (Id × Id) :=
  match splitColon text with
  | none => none
  | some (front, back) =>
      match safeStrtoll front, safeStrtoll back with
      | some oid, some iid =>
          if oid < 0 ∨ 65535 < oid ∨ iid < 0 ∨ 65535 < iid then none
          else some (Fin.ofNat _ oid.toNat, Fin.ofNat _ iid.toNat)
      | _, _ => none

/-- `text_get_objlnk`. -/
def getObjlnk (ctx : TextIn) : Except Int (Id × Id) × TextIn :=
  match Io.getString textInVtable ctx maxObjlnkStringSize with
  | ((retval, buf), ctx) =>
      if retval ≠ 0 then (.error (mapGetStringError retval), ctx)
      else
        match parseObjlnk (CString.ofBytes buf).bytes with
        | some link => (.ok link, ctx)
        | none => (.error errBadRequest, ctx)

end Anjay.PlainText
