/-
  File:      Anjay/Io/Text/Out.lean
  Subject:   The plain-text output context (`anjay_text.c`, encoding part).

  * `textRetInteger`, `textRetBool`, `textRetObjlnk`: one value as text; `textRet_written`: what is in the stream then.
  * `textRetBytesBegin`, `textRetClose`: a byte string through a byte context, ended by the close.
  * `retBytes_meets_iff`: **byte strings in pieces end as the text of the whole, in every text format; that bytes are
    missing is not reported, by the context or by the close of the plain-text output.**
-/
import Anjay.Commons.Basic
import Anjay.Dm.Path
import Anjay.Io.Base64Out
import Anjay.Io.Json.Encoder

namespace Anjay.PlainText

open Commons Io Text

/-! ## 1. State -/

/-- `text_out_state_t`. -/
inductive TextOutState
  | initial
  | pathSet
  | finished
  deriving DecidableEq, Repr

/-- `text_out_t`. -/
structure TextOut where
  bytes : Option Base64RetBytesCtx
  stream : OutStream
  state : TextOutState
  deriving DecidableEq, Repr

/-- `_anjay_output_text_create`. -/
def outputTextCreate (stream : OutStream) : TextOut := ⟨none, stream, .initial⟩

/-- ANJAY_OUTCTXERR_FORMAT_MISMATCH and ANJAY_OUTCTXERR_ANJAY_RET_NOT_CALLED. -/
def outctxerrFormatMismatch : Int := -0xCE0
def outctxerrAnjayRetNotCalled : Int := -0xCE2

/-! ## 2. Calls -/

/-- What `text_ret_string`, `text_ret_integer` and `text_ret_objlnk` have in common. -/
def retText (ctx : TextOut) (text : List UInt8) : Int × TextOut :=
  if ctx.bytes.isSome then (-1, ctx)
  else if ctx.state = .pathSet then
    match ctx.stream.write text with
    | (true, stream) => (0, { ctx with stream := stream, state := .finished })
    | (false, stream) => (-1, { ctx with stream := stream })
  else (-1, ctx)

/-- `text_ret_string`. -/
def textRetString (ctx : TextOut) (value : CString) : Int × TextOut := retText ctx value.bytes

/-- `text_ret_integer`. -/
def textRetInteger (ctx : TextOut) (value : BitVec 64) : Int × TextOut := retText ctx (Json.JsonEncoder.intText value.toInt)

/-- `text_ret_bool`. -/
def textRetBool (ctx : TextOut) (value : Bool) : Int × TextOut := textRetInteger ctx (if value then 1 else 0)

/-- `"%" PRIu16 ":%" PRIu16`. -/
def objlnkText (oid iid : Id) : List UInt8 := decimal oid.val ++ 0x3A :: decimal iid.val

/-- `text_ret_objlnk`. -/
def textRetObjlnk (ctx : TextOut) (oid iid : Id) : Int × TextOut := retText ctx (objlnkText oid iid)

/-- `text_ret_bytes_begin`; `allocated` tells whether the byte context can be allocated. -/
def textRetBytesBegin (ctx : TextOut) (allocated : Bool) (length : Nat) : Int × TextOut :=
  if ctx.bytes.isSome ∨ ctx.state ≠ .pathSet then (-1, ctx)
  else if allocated then (0, { ctx with bytes := some (base64RetBytesCtxNew defaultStrictConfig length) })
  else (-1, ctx)

/-- `anjay_ret_bytes_append` on the byte context that `text_ret_bytes_begin` gave out. -/
def textBytesAppend (ctx : TextOut) (data : List UInt8) : Int × TextOut :=
  match ctx.bytes with
  | none => (-1, ctx)
  | some c =>
      match base64RetBytesAppend c ctx.stream data with
      | (retval, c, stream) => (retval, { ctx with bytes := some c, stream := stream })

/-- `text_set_path`. -/
def textSetPath (ctx : TextOut) (path : UriPath) : Int × TextOut :=
  if ctx.state = .pathSet then (-1, ctx)
  else if ctx.state ≠ .initial ∨ ctx.bytes.isSome ∨ path.has .rid = false then (outctxerrFormatMismatch, ctx)
  else (0, { ctx with state := .pathSet })

/-- `text_clear_path`. -/
def textClearPath (ctx : TextOut) : Int × TextOut :=
  if ctx.state ≠ .pathSet ∨ ctx.bytes.isSome then (-1, ctx) else (0, { ctx with state := .initial })

/-- `text_ret_close`. -/
def textRetClose (ctx : TextOut) : Int × TextOut :=
  match ctx.bytes with
  | some c =>
      match base64RetBytesCtxClose c ctx.stream with
      | (result, stream) => (result, { ctx with bytes := none, stream := stream })
  | none => if ctx.state ≠ .finished then (outctxerrAnjayRetNotCalled, ctx) else (0, ctx)

/-! ## 3. Values -/

/-- The context for the one value of a request, its path set. -/
def readyFor (stream : OutStream) : TextOut := ⟨none, stream, .pathSet⟩

theorem textSetPath_ready (stream : OutStream) {path : UriPath} (h : path.has .rid = true) :
    textSetPath (outputTextCreate stream) path = (0, readyFor stream) := by
  unfold textSetPath outputTextCreate
  dsimp only
  rw [if_neg (by decide), if_neg (by simp [h])]
  rfl

/-- **A value whose text has room is what is written.** -/
theorem textRet_written {stream : OutStream} {text : List UInt8} (h : stream.Fits text.length) :
    retText (readyFor stream) text = (0, ⟨none, stream.push text, .finished⟩) := by
  unfold retText readyFor
  dsimp only
  rw [if_neg (by decide), if_pos rfl, OutStream.write_of_fits h]

/-! ## 4. Byte strings -/

/-- The context after some pieces, whatever the calls return. -/
def textAppendAll (ctx : TextOut) (pieces : List (List UInt8)) : TextOut :=
  pieces.foldl (fun ctx piece => (textBytesAppend ctx piece).2) ctx

theorem textAppendAll_some (c : Base64RetBytesCtx) (stream : OutStream) (state : TextOutState)
    (pieces : List (List UInt8)) :
    textAppendAll ⟨some c, stream, state⟩ pieces =
      ⟨some (appendAll c stream pieces).1, (appendAll c stream pieces).2, state⟩ := by
  induction pieces generalizing c stream with
  | nil => rfl
  | cons piece pieces ih => exact ih _ _

/-- What the pieces of a byte string of `declared` bytes should come to in the plain-text output, where its context is
    begun and closed: the text of the whole, or an error that reports that bytes are missing. -/
structure TextMeets (declared : Nat) (start : OutStream) (pieces : List (List UInt8)) : Prop where
  whole : (takenPieces declared pieces).length = declared →
    textRetClose (textAppendAll (textRetBytesBegin (readyFor start) true declared).2 pieces) =
      (0, ⟨none, start.push (base64Encoded defaultStrictConfig (takenPieces declared pieces)), .pathSet⟩)
  short : (takenPieces declared pieces).length < declared →
    (textRetClose (textAppendAll (textRetBytesBegin (readyFor start) true declared).2 pieces)).1 ≠ 0

/-- The close hands on what the close of the byte context says. -/
theorem textRetClose_pieces {declared : Nat} {start : OutStream} (hroom : RoomFor defaultStrictConfig declared start)
    (pieces : List (List UInt8)) :
    textRetClose (textAppendAll (textRetBytesBegin (readyFor start) true declared).2 pieces) =
      (0, ⟨none, if (takenPieces declared pieces).length = declared then
          start.push (base64Encoded defaultStrictConfig (takenPieces declared pieces))
        else (appendAll (base64RetBytesCtxNew defaultStrictConfig declared) start pieces).2, .pathSet⟩) := by
  have hclose := (holds_pieces hroom pieces).close hroom
  have hbegin : (textRetBytesBegin (readyFor start) true declared).2 =
      ⟨some (base64RetBytesCtxNew defaultStrictConfig declared), start, .pathSet⟩ := rfl
  rw [hbegin, textAppendAll_some]
  unfold textRetClose
  dsimp only
  rw [hclose]
  split
  · rfl
  · rfl

/-- **Byte strings in pieces end as the text of the whole, in every text format; that bytes are missing is not reported,
    by the context or by the close of the plain-text output.** -/
theorem retBytes_meets_iff (config : Base64Config) (declared : Nat) {start : OutStream} (pieces : List (List UInt8))
    (hroom : RoomFor config declared start) (htext : RoomFor defaultStrictConfig declared start) :
    (Meets config declared start pieces ↔ (takenPieces declared pieces).length = declared) ∧
      (TextMeets declared start pieces ↔ (takenPieces declared pieces).length = declared) := by
  have hclose := textRetClose_pieces htext pieces
  refine ⟨meets_iff hroom pieces, fun h => ?_, fun hall => ⟨fun _ => ?_, fun hless => ?_⟩⟩
  · by_contra hne
    refine h.short (Nat.lt_of_le_of_ne (length_takenPieces declared pieces) hne) ?_
    rw [hclose]
  · rw [hclose, if_pos hall]
  · exact absurd hall (Nat.ne_of_lt hless)

/-- Two pieces, without padding and with it. -/
theorem retBytes_meets_two :
    (Meets ⟨base64Chars, 0, false, false⟩ 3 ⟨[], none⟩ [[0x41], [0x42, 0x43]] ↔
        (takenPieces 3 [[0x41], [0x42, 0x43]]).length = 3) ∧
      (TextMeets 3 ⟨[], none⟩ [[0x41], [0x42, 0x43]] ↔ (takenPieces 3 [[0x41], [0x42, 0x43]]).length = 3) :=
  retBytes_meets_iff ⟨base64Chars, 0, false, false⟩ 3 [[0x41], [0x42, 0x43]] (OutStream.fits_of_unbounded rfl _)
    (OutStream.fits_of_unbounded rfl _)

/-- Three bytes declared, and one appended. -/
theorem retBytes_short_not_meets : ¬Meets defaultStrictConfig 3 ⟨[], none⟩ [[0x41]] := by
  intro h
  exact h.short (by decide) (by decide +kernel)

end Anjay.PlainText
