/-
  File:      Anjay/Io/Tlv/In.lean
  Subject:   The TLV input context (`anjay_tlv_in.c`): state, operations and typed getters.

  The loops carry fuel. A pass of the loop of `tlv_get_path` takes a header of at least two bytes off
  the stream and a pass of a value loop takes bytes of the value, so the fuel given at the calls is
  never used up (`getPathLoop_fuel`, `readToEndLoop_fuel`).
-/
import Anjay.Io.Tlv.Header

namespace Anjay.Tlv

open Lib

/-! ## 1. State -/

/-- `tlv_entry_t` of the input context: an entry that has been opened and not yet left. -/
structure InEntry where
  type : IdType
  length : Nat
  bytesRead : Nat
  deriving DecidableEq, Repr

/-- `tlv_in_t`. The head of `entries` is the innermost open entry. -/
structure TlvIn where
  stream : List UInt8
  uriPath : UriPath
  hasPath : Bool
  isArray : Bool
  currentPath : UriPath
  currentPathLen : Nat
  entries : List InEntry
  finished : Bool
  deriving DecidableEq, Repr

/-- `_anjay_input_tlv_create`. -/
def inputTlvCreate (stream : List UInt8) (requestUri : Option UriPath) : TlvIn :=
  { stream := stream
    uriPath := requestUri.getD .root
    hasPath := false
    isArray := false
    currentPath := requestUri.getD .root
    currentPathLen := 0
    entries := []
    finished := false }

/-! ## 2. Paths -/

/-- The outputs of `get_id`: `out_type`, `out_id`, `out_has_value` and `out_bytes_read`. -/
structure GetId where
  type : IdType
  id : Id
  hasValue : Bool
  headerLen : Nat
  deriving DecidableEq, Repr

/-- `tlv_entry_push`: a zeroed list node. -/
def TlvIn.entryPush (ctx : TlvIn) : TlvIn :=
  { ctx with entries := ⟨.oid, 0, 0⟩ :: ctx.entries }

/-- `tlv_entry_pop`. -/
def TlvIn.entryPop (ctx : TlvIn) : TlvIn :=
  { ctx with entries := ctx.entries.tail }

/-- The end of `get_id`, once the length is known: it fills in the pushed entry. -/
def getIdFinish (ctx : TlvIn) (typefield : UInt8) (id length : Nat) : Except Int GetId × TlvIn :=
  let type := convertIdType typefield
  let tlvType := tlvTypeFromTypefield typefield
  (.ok { type := type
         id := Fin.ofNat _ id
         hasValue := length = 0 ∨ tlvType = .riid ∨ tlvType = .rid
         headerLen := 1 + idLength typefield + lengthLength typefield },
    { ctx with entries := ⟨type, length, 0⟩ :: ctx.entries.tail })

/-- `get_id`. The array flag is written as soon as the first byte is there; a header that is cut off
    leaves nothing in the stream. -/
def getId (ctx : TlvIn) : Except Int GetId × TlvIn :=
  match ctx.stream with
  | [] => (.error getPathEnd, ctx)
  | typefield :: s =>
      let ctx := { ctx with isArray := decide (tlvTypeFromTypefield typefield = TlvIdType.ridArray) }
      match readShortened s (idLength typefield) with
      | none => (.error (-1), { ctx with stream := [] })
      | some (id, s) =>
          if lengthLength typefield = 0 then
            getIdFinish { ctx with stream := s } typefield id (typefield.toNat &&& 7)
          else
            match readShortened s (lengthLength typefield) with
            | none => (.error (-1), { ctx with stream := [] })
            | some (length, s) => getIdFinish { ctx with stream := s } typefield id length

/-- How the loop of `tlv_get_path` is left: by a `return`, or by `break` or its condition with the
    given `result`. -/
inductive LoopExit
  | ret (code : Int)
  | brk (result : Int)
  deriving DecidableEq, Repr

/-- `parent->bytes_read += in->entries->length + header_len`, when there is a parent. -/
def TlvIn.chargeParent (ctx : TlvIn) (headerLen : Nat) : TlvIn :=
  match ctx.entries with
  | e :: p :: es =>
      { ctx with entries := e :: { p with bytesRead := p.bytesRead + (e.length + headerLen) } :: es }
  | _ => ctx

/-- `parent->bytes_read > parent->length`. -/
def TlvIn.parentOverrun (ctx : TlvIn) : Bool :=
  match ctx.entries with
  | _ :: p :: _ => p.bytesRead > p.length
  | _ => false

/-- The loop of `tlv_get_path`. -/
def getPathLoop : Nat → TlvIn → LoopExit × TlvIn
  | 0, ctx => (.ret errInternal, ctx)
  | fuel + 1, ctx =>
      match getId ctx.entryPush with
      | (.error e, ctx) => (.brk e, ctx)
      | (.ok h, ctx) =>
          if h.id = idInvalid then (.ret errBadRequest, ctx)
          else
            let ctx := ctx.chargeParent h.headerLen
            if ctx.parentOverrun then (.ret errBadRequest, ctx)
            else
              let ctx := { ctx with
                currentPath := ctx.currentPath.setId h.type h.id
                currentPathLen := h.type.toNat + 1 }
              if ctx.currentPath.outsideBase ctx.uriPath then (.ret errBadRequest, ctx)
              else if h.hasValue then (.brk 0, ctx)
              else getPathLoop fuel ctx

/-- `tlv_get_path`. -/
def getPath (ctx : TlvIn) : Except Int (UriPath × Bool) × TlvIn :=
  if ctx.finished then (.error getPathEnd, ctx)
  else if ctx.hasPath then (.ok (ctx.currentPath, ctx.isArray), ctx)
  else
    match getPathLoop (ctx.stream.length + 1) ctx with
    | (.ret code, ctx) => (.error code, ctx)
    | (.brk result, ctx) =>
        let ctx := { ctx with hasPath := true }
        if result = 0 then (.ok (ctx.currentPath, ctx.isArray), ctx) else (.error result, ctx)

/-! ## 3. Values -/

/-- What `tlv_get_some_bytes` hands back: its return code, the bytes read and
    `*out_message_finished`. -/
structure SomeBytes where
  code : Int
  bytes : List UInt8
  finished : Bool
  deriving DecidableEq, Repr

/-- The part of `tlv_get_some_bytes` after a path is there. -/
def readSomeBytes (ctx : TlvIn) (bufSize : Nat) : SomeBytes × TlvIn :=
  match ctx.entries with
  | [] => (⟨-1, [], false⟩, ctx)
  | e :: es =>
      let bufSize := min bufSize (e.length - e.bytesRead)
      let (bytes, streamFinished, rest) := streamRead bufSize ctx.stream
      let e := { e with bytesRead := e.bytesRead + bytes.length }
      let ctx := { ctx with stream := rest, entries := e :: es, finished := streamFinished }
      if e.bytesRead ≠ e.length ∧ streamFinished then (⟨errBadRequest, bytes, false⟩, ctx)
      else (⟨0, bytes, e.bytesRead = e.length⟩, ctx)

/-- `tlv_get_some_bytes`. -/
def getSomeBytes (ctx : TlvIn) (bufSize : Nat) : SomeBytes × TlvIn :=
  if ctx.hasPath then readSomeBytes ctx bufSize
  else
    match getPath ctx with
    | (.error e, ctx) => if e = getPathEnd then (⟨0, [], true⟩, ctx) else (⟨e, [], false⟩, ctx)
    | (.ok _, ctx) => readSomeBytes ctx bufSize

/-- The loop of `tlv_read_to_end`; `acc` is what stands in the buffer, `left` the room behind it. -/
def readToEndLoop : Nat → TlvIn → Nat → List UInt8 → (Int × List UInt8) × TlvIn
  | 0, ctx, _, _ => ((errInternal, []), ctx)
  | fuel + 1, ctx, left, acc =>
      match getSomeBytes ctx left with
      | (r, ctx) =>
          if r.code ≠ 0 then ((r.code, []), ctx)
          else if r.finished then ((0, acc ++ r.bytes), ctx)
          else if left - r.bytes.length = 0 then ((bufferTooShort, acc ++ r.bytes), ctx)
          else readToEndLoop fuel ctx (left - r.bytes.length) (acc ++ r.bytes)

/-- `tlv_read_to_end`. -/
def readToEnd (ctx : TlvIn) (bufSize : Nat) : (Int × List UInt8) × TlvIn :=
  readToEndLoop (bufSize + 1) ctx bufSize []

/-- `!ctx->entries || ctx->entries->bytes_read`. -/
def TlvIn.valueStarted (ctx : TlvIn) : Bool :=
  match ctx.entries with
  | [] => true
  | e :: _ => e.bytesRead ≠ 0

/-- `tlv_read_whole_entry`. -/
def readWholeEntry (ctx : TlvIn) (bufSize : Nat) : (Int × List UInt8) × TlvIn :=
  if ctx.hasPath then
    if ctx.valueStarted then ((-1, []), ctx) else readToEnd ctx bufSize
  else
    match getPath ctx with
    | (.error e, ctx) => if e = getPathEnd then ((0, []), ctx) else ((e, []), ctx)
    | (.ok _, ctx) => if ctx.valueStarted then ((-1, []), ctx) else readToEnd ctx bufSize

/-- `tlv_get_string`: the return code and the bytes in front of the terminating null byte. -/
def getString (ctx : TlvIn) (bufSize : Nat) : (Int × List UInt8) × TlvIn :=
  readToEnd ctx (bufSize - 1)

/-- `avs_is_power_of_2`. -/
def isPowerOf2 (n : Nat) : Bool := 0 < n ∧ n &&& (n - 1) = 0

/-- The value loop of `tlv_get_integer`: a shift of the 64-bit pattern, then the next byte. -/
def integerOfBytes (bytes : List UInt8) : Int :=
  bytes.foldl (fun acc b => (acc * 256).bmod (2 ^ 64) + (b.toNat : Int)) (signOf bytes)

/-- `tlv_get_integer`. -/
def getInteger (ctx : TlvIn) : Except Int Int × TlvIn :=
  match readWholeEntry ctx 8 with
  | ((code, bytes), ctx) =>
      if code ≠ 0 then (.error code, ctx)
      else if isPowerOf2 bytes.length then (.ok (integerOfBytes bytes), ctx)
      else (.error errBadRequest, ctx)

/-- `tlv_get_bool`. -/
def getBool (ctx : TlvIn) : Except Int Bool × TlvIn :=
  match readWholeEntry ctx 1 with
  | ((code, bytes), ctx) =>
      if code = bufferTooShort ∨ bytes.length ≠ 1 then (.error errBadRequest, ctx)
      else if code ≠ 0 then (.error code, ctx)
      else if bytes = [0] then (.ok false, ctx)
      else if bytes = [1] then (.ok true, ctx)
      else (.error errBadRequest, ctx)

/-- `tlv_get_objlnk`. -/
def getObjlnk (ctx : TlvIn) : Except Int (Id × Id) × TlvIn :=
  match readWholeEntry ctx 4 with
  | ((code, bytes), ctx) =>
      if code = bufferTooShort ∨ bytes.length ≠ 4 then (.error errBadRequest, ctx)
      else if code ≠ 0 then (.error code, ctx)
      else (.ok (Fin.ofNat _ (beNat (bytes.take 2)), Fin.ofNat _ (beNat (bytes.drop 2))), ctx)

/-! ## 4. The next entry -/

/-- The loop of `tlv_next_entry` that skips the rest of a value in pieces of 64 bytes. -/
def skipLoop : Nat → TlvIn → Int × TlvIn
  | 0, ctx => (errInternal, ctx)
  | fuel + 1, ctx =>
      match getSomeBytes ctx 64 with
      | (r, ctx) =>
          if r.code ≠ 0 then (r.code, ctx)
          else if r.finished then (0, ctx)
          else skipLoop fuel ctx

/-- The loop of `tlv_next_entry` that leaves every entry that is read to its end, and takes its id
    out of the current path. -/
def popLoop (entries : List InEntry) (path : UriPath) (len : Nat) : List InEntry × UriPath × Nat :=
  match entries with
  | [] => ([], path, len)
  | e :: es =>
      if e.length = e.bytesRead then popLoop es (path.setId e.type idInvalid) e.type.toNat
      else (e :: es, path, len)

/-- `tlv_next_entry`. -/
def nextEntry (ctx : TlvIn) : Int × TlvIn :=
  if ctx.hasPath then
    match ctx.entries with
    | [] => (-1, ctx)
    | e :: _ =>
        match skipLoop (e.length + 1) ctx with
        | (code, ctx) =>
            if code ≠ 0 then (code, ctx)
            else
              match popLoop ctx.entries ctx.currentPath ctx.currentPathLen with
              | (entries, path, len) =>
                  (0, { ctx with
                    hasPath := false, isArray := false
                    entries := entries, currentPath := path, currentPathLen := len })
  else (0, ctx)

/-- `anjay_get_bytes` on a TLV context: `tlv_get_some_bytes` until the value or the buffer ends. -/
def getBytesLoop : Nat → TlvIn → Nat → List UInt8 → SomeBytes × TlvIn
  | 0, ctx, _, acc => (⟨errInternal, acc, false⟩, ctx)
  | fuel + 1, ctx, left, acc =>
      match getSomeBytes ctx left with
      | (r, ctx) =>
          if r.code ≠ 0 ∨ r.finished ∨ left - r.bytes.length = 0 then
            (⟨r.code, acc ++ r.bytes, r.finished⟩, ctx)
          else getBytesLoop fuel ctx (left - r.bytes.length) (acc ++ r.bytes)

/-- `anjay_get_bytes`. -/
def getBytes (ctx : TlvIn) (bufSize : Nat) : SomeBytes × TlvIn :=
  getBytesLoop (bufSize + 1) ctx bufSize []

end Anjay.Tlv
