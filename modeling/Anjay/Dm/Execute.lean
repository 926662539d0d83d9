/-
  File:      Anjay/Dm/Execute.lean
  Subject:   The reader of Execute arguments (`anjay_dm_execute.c`), character by character, and the
             two functions a `resource_execute` handler calls.
-/
import Mathlib.Order.Basic

namespace Anjay.Execute

/-! ## 1. Characters -/

/-- `EOF` of the C library. -/
def eof : Int := -1

/-- A byte converted from `char` to `int`; whether `char` is signed is up to the platform. -/
def charToInt (signedChar : Bool) (b : UInt8) : Int :=
  if signedChar && decide (128 ≤ b.toNat) then (b.toNat : Int) - 256 else b.toNat

/-- `is_arg_separator`. -/
def isArgSeparator (byte : Int) : Bool := byte == 0x2C

/-- `is_value_delimiter`. -/
def isValueDelimiter (byte : Int) : Bool := byte == 0x27

/-- `is_value_assignment`. -/
def isValueAssignment (byte : Int) : Bool := byte == 0x3D

/-- `is_value`. -/
def isValue (byte : Int) : Bool :=
  byte == 0x21 || (decide (0x23 ≤ byte) && decide (byte ≤ 0x26)) ||
    (decide (0x28 ≤ byte) && decide (byte ≤ 0x5B)) || (decide (0x5D ≤ byte) && decide (byte ≤ 0x7E))

/-- `isdigit`. -/
def isDigit (byte : Int) : Bool := decide (0x30 ≤ byte) && decide (byte ≤ 0x39)

/-! ## 2. The context -/

/-- `anjay_execute_state_t`. -/
inductive ExecuteState
  | readArgument
  | readValue
  | finishedReadingArgument
  | eof
  | error
  deriving DecidableEq, Repr

/-- `anjay_execute_ctx_t`; of the payload stream, the bytes that are left. -/
structure ExecuteCtx where
  payloadStream : List UInt8
  state : ExecuteState
  arg : Int
  argHasValue : Bool
  deriving DecidableEq, Repr

/-- `_anjay_execute_ctx_create`. -/
def executeCtxCreate (payload : List UInt8) : ExecuteCtx := ⟨payload, .readArgument, -1, false⟩

/-- `ANJAY_ERR_BAD_REQUEST`, `ANJAY_EXECUTE_GET_ARG_END`, `ANJAY_BUFFER_TOO_SHORT`. -/
def errBadRequest : Int := -0x80
def executeGetArgEnd : Int := 1
def bufferTooShort : Int := 1

/-! ## 3. Reading -/

section Reading

variable (signedChar : Bool)

/-- `get_next_char`. -/
def getNextChar (ctx : ExecuteCtx) : Int × ExecuteCtx :=
  match ctx.payloadStream with
  | [] => (eof, ctx)
  | b :: rest => (charToInt signedChar b, { ctx with payloadStream := rest })

/-- `peek_next_char`. -/
def peekNextChar (ctx : ExecuteCtx) : Int :=
  match ctx.payloadStream with
  | [] => eof
  | b :: _ => charToInt signedChar b

/-- `expect_separator_or_eof`. -/
def expectSeparatorOrEof (ch : Int) : ExecuteState :=
  if isArgSeparator ch then .finishedReadingArgument
  else if ch = eof then .eof
  else .error

/-- `state_read_value`. -/
def stateReadValue (ctx : ExecuteCtx) (ch : Int) : ExecuteState × ExecuteCtx :=
  if isValue ch then (.readValue, ctx)
  else if isValueDelimiter ch then
    let (ch, ctx) := getNextChar signedChar ctx
    (expectSeparatorOrEof ch, ctx)
  else (.error, ctx)

/-- `expect_value`. -/
def expectValue (ch : Int) : ExecuteState := if isValueDelimiter ch then .readValue else .error

/-- `expect_separator_or_assignment_or_eof`. -/
def expectSeparatorOrAssignmentOrEof (ctx : ExecuteCtx) (ch : Int) : ExecuteState × ExecuteCtx :=
  if isArgSeparator ch then (.finishedReadingArgument, { ctx with argHasValue := false })
  else if isValueAssignment ch then
    let (ch, ctx) := getNextChar signedChar { ctx with argHasValue := true }
    (expectValue ch, ctx)
  else if ch = eof then (.eof, ctx)
  else (.error, ctx)

/-- `state_read_argument`; `none` is its assertion. -/
def stateReadArgument (ctx : ExecuteCtx) (ch : Int) : Option (ExecuteState × ExecuteCtx) :=
  if ¬(ch = eof ∨ 0 ≤ ch ∧ ch ≤ 255) then none
  else if isDigit ch then
    let (ch, ctx) := getNextChar signedChar { ctx with arg := ch - 0x30 }
    some (expectSeparatorOrAssignmentOrEof signedChar ctx ch)
  else if ch = eof then some (.eof, ctx)
  else some (.error, ctx)

/-- The loop of `try_reading_next_arg`. -/
def readArgumentLoop : Nat → ExecuteCtx → Int → Option ExecuteCtx
  | 0, ctx, _ => some ctx
  | fuel + 1, ctx, nextChar =>
      match stateReadArgument signedChar ctx nextChar with
      | none => none
      | some (state, ctx) =>
          let ctx := { ctx with state := state }
          if ctx.state ≠ .readArgument then some ctx
          else
            let (nextChar, ctx) := getNextChar signedChar ctx
            readArgumentLoop fuel ctx nextChar

/-- `try_reading_next_arg`. -/
def tryReadingNextArg (ctx : ExecuteCtx) : Option (Int × ExecuteCtx) :=
  if ctx.state = .error then some (-1, ctx)
  else
    let (nextChar, ctx) := getNextChar signedChar { ctx with arg := -1, argHasValue := false }
    if ctx.state = .finishedReadingArgument ∧ nextChar = eof then some (-1, ctx)
    else
      match readArgumentLoop signedChar (ctx.payloadStream.length + 1) ctx nextChar with
      | none => none
      | some ctx =>
          if ctx.arg = -1 ∧ ctx.state = .eof then some (executeGetArgEnd, ctx)
          else if ctx.arg = -1 ∨ ctx.state = .error then some (-1, ctx)
          else some (0, ctx)

/-- The loop of `anjay_execute_get_arg_value`, with room for so many bytes more; `value_finished` is
    the flag before it. -/
def valueLoop : Nat → ExecuteCtx → List UInt8 → Bool → List UInt8 × Bool × ExecuteCtx
  | 0, ctx, bytes, valueFinished => (bytes, valueFinished, ctx)
  | room + 1, ctx, bytes, _ =>
      let (ch, ctx) := getNextChar signedChar ctx
      let (state, ctx) := stateReadValue signedChar ctx ch
      let ctx := { ctx with state := state }
      if ctx.state = .readValue then
        valueLoop room ctx (bytes ++ [UInt8.ofNat ch.toNat]) (isValueDelimiter (peekNextChar signedChar ctx))
      else (bytes, true, ctx)

/-- `anjay_execute_get_arg_value`: the code returned and the bytes read. -/
def executeGetArgValue (ctx : ExecuteCtx) (bufSize : Nat) : Int × List UInt8 × ExecuteCtx :=
  if ctx.state = .readValue ∧ bufSize < 2 then (-1, [], ctx)
  else
    let (bytes, valueFinished, ctx) :=
      if ctx.state = .readValue then valueLoop signedChar (bufSize - 1) ctx [] true else ([], true, ctx)
    if ctx.state = .error then (errBadRequest, bytes, ctx)
    else if valueFinished then (0, bytes, ctx)
    else (bufferTooShort, bytes, ctx)

/-- The loop of `skip_value`. -/
def skipLoop : Nat → ExecuteCtx → Int × ExecuteCtx
  | 0, ctx => (bufferTooShort, ctx)
  | fuel + 1, ctx =>
      let (ret, _, ctx) := executeGetArgValue signedChar ctx 64
      if ret = bufferTooShort then skipLoop fuel ctx else (ret, ctx)

/-- `skip_value`. -/
def skipValue (ctx : ExecuteCtx) : Int × ExecuteCtx :=
  if ctx.state = .readValue then skipLoop signedChar (ctx.payloadStream.length + 1) ctx else (0, ctx)

/-- `anjay_execute_get_next_arg`: the code returned, and `*out_arg`, `*out_has_value` when they are
    set; `none` where an assertion fails. -/
def executeGetNextArg (ctx : ExecuteCtx) : Option (Int × Option (Int × Bool) × ExecuteCtx) :=
  let (ret, ctx) := skipValue signedChar ctx
  if ret ≠ 0 then some (errBadRequest, none, ctx)
  else if ctx.state = .eof then some (executeGetArgEnd, some (-1, false), ctx)
  else
    match tryReadingNextArg signedChar ctx with
    | none => none
    | some (result, ctx) =>
        if result < 0 then some (errBadRequest, none, ctx)
        else some (result, some (ctx.arg, ctx.argHasValue), ctx)

end Reading

/-! ## 4. Sequences of calls -/

/-- A call of one of the two functions, with a buffer of two bytes or more. -/
inductive Op
  | nextArg
  | argValue (bufSize : { n : Nat // 2 ≤ n })

def Op.isNextArg : Op → Bool
  | nextArg => true
  | argValue _ => false

/-- What a call gives: the codes and values that it returns, or the client aborts in it. -/
inductive Outcome
  | nextArg (result : Int) (out : Option (Int × Bool))
  | argValue (result : Int) (bytes : List UInt8)
  | aborted
  deriving DecidableEq, Repr

/-- An error is returned. -/
def Outcome.IsError : Outcome → Prop
  | nextArg result _ | argValue result _ => result < 0
  | aborted => False

def Outcome.bytes : Outcome → List UInt8
  | nextArg _ _ | aborted => []
  | argValue _ bytes => bytes

/-- Nothing more is to come: the end of the arguments is reported, or the client aborts. -/
def Outcome.Stops : Outcome → Prop
  | nextArg result _ => result = executeGetArgEnd
  | argValue _ _ => False
  | aborted => True

def step (signedChar : Bool) (ctx : ExecuteCtx) : Op → Option (Outcome × ExecuteCtx)
  | .nextArg =>
      match executeGetNextArg signedChar ctx with
      | none => none
      | some (result, out, ctx) => some (.nextArg result out, ctx)
  | .argValue bufSize =>
      let (result, bytes, ctx) := executeGetArgValue signedChar ctx bufSize
      some (.argValue result bytes, ctx)

/-- The outcomes of a sequence of calls; there is none behind an abort. -/
def run (signedChar : Bool) : List Op → ExecuteCtx → List Outcome
  | [], _ => []
  | op :: ops, ctx =>
      match step signedChar ctx op with
      | none => [.aborted]
      | some (outcome, ctx) => outcome :: run signedChar ops ctx

end Anjay.Execute
