/-
  File:      Anjay/Io/Tlv/Out.lean
  Subject:   The TLV output context (`anjay_tlv_out.c`): its levels and its operations.

  An operation answers `none` where the C code aborts on an assertion or writes through a pointer
  into memory that has been freed; otherwise it answers the return code and the new context.
  Memory allocation always succeeds.
-/
import Anjay.Io.Tlv.Header
import Mathlib.Data.List.ModifyLast
import Mathlib.Logic.Function.Basic

namespace Anjay.Tlv

open Lib

/-! ## 1. State -/

/-- `tlv_out_level_id_t`. -/
inductive OutLevel
  | iid
  | rid
  | riid
  deriving DecidableEq, Repr

namespace OutLevel

/-- The numerical value of the enumeration constant. -/
def toNat : OutLevel → Nat
  | iid => 0
  | rid => 1
  | riid => 2

/-- The indices of `ctx->levels`, in order. -/
def all : List OutLevel := [iid, rid, riid]

/-- The levels `i` with `lo <= i` and `i < hi`, in the order a `for` loop visits them. -/
def between (lo hi : OutLevel) : List OutLevel :=
  all.filter fun i => lo.toNat ≤ i.toNat ∧ i.toNat < hi.toNat

/-- `(tlv_out_level_id_t) (level + 1)`, within the array. -/
def next? : OutLevel → Option OutLevel
  | iid => some rid
  | rid => some riid
  | riid => none

/-- `(tlv_out_level_id_t) (level - 1)`, for a level that is not the first one. -/
def pred : OutLevel → OutLevel
  | iid => iid
  | rid => iid
  | riid => rid

/-- `AVS_MAX` of two levels. -/
def max (a b : OutLevel) : OutLevel := if a.toNat < b.toNat then b else a

/-- `LEVEL_MAPPING` of `id_from_path`: the id of a path that belongs to a level. -/
def idType : OutLevel → IdType
  | iid => .iid
  | rid => .rid
  | riid => .riid

end OutLevel

/-- `tlv_entry_t` of the output context: a buffered entry; `data_length` is the length of `data`. -/
structure OutEntry where
  type : TlvIdType
  id : Id
  data : List UInt8
  deriving DecidableEq, Repr

/-- Where the bytes context of a level writes: nowhere yet, into the stream, into the last entry of
    the level, or into an entry that has been freed since. -/
inductive BytesTarget
  | unset
  | streamed
  | buffered
  | dangling
  deriving DecidableEq, Repr

/-- `tlv_out_level_t`, with its `bytes_ctx`. -/
structure Level where
  entries : List OutEntry
  nextId : Id
  target : BytesTarget
  bytesLeft : Nat
  deriving DecidableEq, Repr

/-- `tlv_out_t`; `error` is the field of the base context. -/
structure TlvOut where
  error : Int
  stream : OutStream
  rootPath : UriPath
  levels : OutLevel → Level
  level : OutLevel

/-- `root_level`. A path of length zero does not reach it (`_anjay_output_tlv_create` asserts an
    Object id). -/
def rootLevel (root : UriPath) : OutLevel :=
  match root.length with
  | 1 => .iid
  | 2 => .rid
  | 3 => .rid
  | _ => .riid

namespace TlvOut

/-- `current_level`. -/
def current (ctx : TlvOut) : Level := ctx.levels ctx.level

/-- Replace the contents of one level. -/
def setLevel (ctx : TlvOut) (l : OutLevel) (lv : Level) : TlvOut :=
  { ctx with levels := Function.update ctx.levels l lv }

end TlvOut

/-- `_anjay_output_tlv_create`; the context comes zeroed from `avs_calloc`. -/
def outputTlvCreate (stream : OutStream) (uri : UriPath) : Option TlvOut :=
  if uri.has .oid then
    let zero : Level := ⟨[], 0, .unset, 0⟩
    some { error := 0
           stream := stream
           rootPath := uri
           levels := Function.update (fun _ => zero) (rootLevel uri) { zero with nextId := idInvalid }
           level := rootLevel uri }
  else none

/-! ## 2. Entries and their bytes -/

/-- `current_level_value_type`: it aborts when no id is set or on the Instance level. -/
def currentLevelValueType (ctx : TlvOut) : Option TlvIdType :=
  if ctx.current.nextId = idInvalid then none
  else
    match ctx.level with
    | .rid => some .rid
    | .riid => some .riid
    | .iid => none

/-- `write_entry`. -/
def writeEntry (stream : OutStream) (e : OutEntry) : Bool × OutStream :=
  match writeHeader stream e.type e.id e.data.length with
  | (false, stream) => (false, stream)
  | (true, stream) => stream.write e.data

/-- `add_entry`, with `add_buffered_entry`: whether there is a bytes context for the new entry. It is
    the one of the current level. -/
def addEntry (ctx : TlvOut) (type : TlvIdType) (length : Nat) : Bool × TlvOut :=
  let lv := ctx.current
  if length > tlvMaxLength ∨ lv.bytesLeft ≠ 0 then (false, ctx)
  else if (rootLevel ctx.rootPath).toNat < ctx.level.toNat then
    (true, ctx.setLevel ctx.level
      { entries := lv.entries ++ [⟨type, lv.nextId, List.replicate length 0⟩]
        nextId := idInvalid
        target := .buffered
        bytesLeft := length })
  else
    match writeHeader ctx.stream type lv.nextId length with
    | (true, stream) =>
        (true, { ctx with stream := stream }.setLevel ctx.level
          { lv with nextId := idInvalid, target := .streamed, bytesLeft := length })
    | (false, stream) =>
        (false, { ctx with stream := stream }.setLevel ctx.level { lv with nextId := idInvalid })

/-- `memcpy` of `data` into the entry, `left` bytes before its end. -/
def OutEntry.splice (left : Nat) (data : List UInt8) (e : OutEntry) : OutEntry :=
  { e with data :=
      e.data.take (e.data.length - left) ++ data ++ e.data.drop (e.data.length - left + data.length) }

/-- `anjay_ret_bytes_append` on the bytes context of level `h`, that is `streamed_bytes_append` or
    `buffered_bytes_append`. -/
def bytesAppend (ctx : TlvOut) (h : OutLevel) (data : List UInt8) : Option (Int × TlvOut) :=
  let lv := ctx.levels h
  match lv.target with
  | .unset => none
  | .streamed =>
      if data.length = 0 then some (0, ctx)
      else if data.length > lv.bytesLeft then some (-1, ctx)
      else
        match ctx.stream.write data with
        | (false, stream) => some (-1, { ctx with stream := stream })
        | (true, stream) =>
            some (0, { ctx with stream := stream }.setLevel h
              { lv with bytesLeft := lv.bytesLeft - data.length })
  | .buffered =>
      if data.length = 0 then some (0, ctx)
      else if data.length > lv.bytesLeft then some (-1, ctx)
      else
        some (0, ctx.setLevel h
          { lv with
            entries := lv.entries.modifyLast (OutEntry.splice lv.bytesLeft data)
            bytesLeft := lv.bytesLeft - data.length })
  | .dangling =>
      if data.length = 0 then some (0, ctx)
      else if data.length > lv.bytesLeft then some (-1, ctx)
      else none

/-- `tlv_ret_bytes`. -/
def tlvRetBytes (ctx : TlvOut) (length : Nat) : Option (Int × TlvOut) :=
  match currentLevelValueType ctx with
  | none => none
  | some type =>
      match addEntry ctx type length with
      | (true, ctx) => some (0, ctx)
      | (false, ctx) => some (-1, ctx)

/-- The error of an operation is kept in the base context (`_anjay_update_ret`). -/
def keepError (r : Option (Int × TlvOut)) : Option (Int × TlvOut) :=
  r.map fun r => (r.1, { r.2 with error := updateRet r.2.error r.1 })

/-- `anjay_ret_bytes_begin`, with `_anjay_output_bytes_begin`; the bytes context is the one of the
    current level. -/
def retBytesBegin (ctx : TlvOut) (length : Nat) : Option (Int × TlvOut) :=
  keepError (tlvRetBytes ctx length)

/-- `anjay_ret_bytes`. -/
def retBytes (ctx : TlvOut) (data : List UInt8) : Option (Int × TlvOut) :=
  match retBytesBegin ctx data.length with
  | none => none
  | some (code, ctx) => if code = 0 then bytesAppend ctx ctx.level data else some (-1, ctx)

/-! ## 3. Typed values -/

/-- `tlv_ret_string`; the value has no null byte. -/
def tlvRetString (ctx : TlvOut) (value : List UInt8) : Option (Int × TlvOut) := retBytes ctx value

/-- `tlv_ret_i8`. -/
def tlvRetI8 (ctx : TlvOut) (value : Int) : Option (Int × TlvOut) :=
  retBytes ctx (beBytes 1 (value % 256 ^ 1).toNat)

/-- `DEF_IRET`: a value that is its own cast to the type of `half` bytes goes there. -/
def iret (half : Nat) (retHalf : TlvOut → Int → Option (Int × TlvOut)) (bytes : Nat) (ctx : TlvOut)
    (value : Int) : Option (Int × TlvOut) :=
  if value = value.bmod (256 ^ half) then retHalf ctx value
  else retBytes ctx (beBytes bytes (value % 256 ^ bytes).toNat)

/-- `DEF_IRET(8, 16)`, `DEF_IRET(16, 32)` and `DEF_IRET(32, 64)`. -/
def tlvRetI16 : TlvOut → Int → Option (Int × TlvOut) := iret 1 tlvRetI8 2
def tlvRetI32 : TlvOut → Int → Option (Int × TlvOut) := iret 2 tlvRetI16 4
def tlvRetI64 : TlvOut → Int → Option (Int × TlvOut) := iret 4 tlvRetI32 8

/-- `tlv_ret_bool`. -/
def tlvRetBool (ctx : TlvOut) (value : Bool) : Option (Int × TlvOut) :=
  tlvRetI8 ctx (if value then 1 else 0)

/-- `tlv_ret_objlnk`. -/
def tlvRetObjlnk (ctx : TlvOut) (oid iid : Id) : Option (Int × TlvOut) :=
  retBytes ctx (beBytes 4 ((oid.val <<< 16) ||| iid.val))

/-- `tlv_ret_double`: `narrow` gives the bits of the `float` a value is equal to, if there is one. -/
def tlvRetDouble (narrow : BitVec 64 → Option (BitVec 32)) (ctx : TlvOut) (value : BitVec 64) :
    Option (Int × TlvOut) :=
  match narrow value with
  | some f => retBytes ctx (beBytes 4 f.toNat)
  | none => retBytes ctx (beBytes 8 value.toNat)

/-! ## 4. Nested levels -/

/-- `tlv_slave_start`. -/
def tlvSlaveStart (ctx : TlvOut) : Option TlvOut :=
  match ctx.level.next? with
  | none => none
  | some l =>
      if (ctx.levels l).entries = [] then
        some ({ ctx with level := l }.setLevel l { ctx.levels l with nextId := idInvalid })
      else none

/-- The loop of `tlv_slave_finish` that serializes the entries; after an error nothing more is
    written. -/
def writeEntries : List OutEntry → OutStream → Bool × OutStream
  | [], stream => (true, stream)
  | e :: es, stream =>
      match writeEntry stream e with
      | (true, stream) => writeEntries es stream
      | (false, stream) => (false, stream)

/-- `data_size` of `tlv_slave_finish`. -/
def dataSize (entries : List OutEntry) : Nat :=
  (entries.map fun e => headerSize e.id e.data.length + e.data.length).sum

/-- The kind of entry a finished level becomes on the level below it. -/
def aggregateType : OutLevel → TlvIdType
  | .rid => .ridArray
  | _ => .iid

/-- `AVS_LIST_CLEAR(&current_level(ctx)->entries)`: a bytes context into them dangles from here on. -/
def Level.cleared (lv : Level) : Level :=
  { lv with
    entries := []
    target := if lv.target = .buffered then .dangling else lv.target }

/-- `tlv_slave_finish`. The callers see to it that the level is above the root level, so the level
    below is an Instance or a Resource level. -/
def tlvSlaveFinish (ctx : TlvOut) : Option (Int × TlvOut) :=
  let lv := ctx.current
  match writeEntries lv.entries ⟨[], some (dataSize lv.entries)⟩ with
  | (ok, outbuf) =>
      let ctx := { ctx.setLevel ctx.level lv.cleared with level := ctx.level.pred }
      if ok then
        match addEntry ctx (aggregateType ctx.level) outbuf.written.length with
        | (false, ctx) => some (-1, ctx)
        | (true, ctx) => bytesAppend ctx ctx.level outbuf.written
      else some (-1, ctx)

/-- `tlv_start_aggregate`. -/
def tlvStartAggregate (ctx : TlvOut) : Option (Int × TlvOut) :=
  match ctx.level with
  | .rid =>
      if ctx.current.nextId ≠ idInvalid then (tlvSlaveStart ctx).map fun ctx => (0, ctx)
      else if ctx.rootPath.leafIs .iid then some (0, ctx)
      else none
  | .iid =>
      if ctx.current.nextId ≠ idInvalid then (tlvSlaveStart ctx).map fun ctx => (0, ctx)
      else none
  | .riid => none

/-! ## 5. Paths -/

/-- `leaf_level`; it aborts on root and Object paths. -/
def leafLevel (path : UriPath) : Option OutLevel :=
  match path.length with
  | 2 => some .iid
  | 3 => some .rid
  | 4 => some .riid
  | _ => none

/-- `id_from_path`. -/
def idFromPath (path : UriPath) (level : OutLevel) : Id := path.ids level.idType

/-- The loop `while (ctx->level > finish_level)` of `tlv_set_path`; there are three levels. -/
def finishTo (finishLevel : OutLevel) : Nat → TlvOut → Option (Int × TlvOut)
  | 0, ctx => some (0, ctx)
  | fuel + 1, ctx =>
      if finishLevel.toNat < ctx.level.toNat then
        match tlvSlaveFinish ctx with
        | none => none
        | some (code, ctx) => if code = 0 then finishTo finishLevel fuel ctx else some (code, ctx)
      else some (0, ctx)

/-- The loop of `tlv_set_path` that opens the levels above the current one. -/
def startLevels (path : UriPath) : List OutLevel → TlvOut → Option TlvOut
  | [], ctx => some ctx
  | i :: is, ctx =>
      match tlvSlaveStart (ctx.setLevel i { ctx.levels i with nextId := idFromPath path i }) with
      | none => none
      | some ctx => startLevels path is ctx

/-- `finish_level` of `tlv_set_path`: the first level whose open id is not the one of the path. -/
def finishLevel (ctx : TlvOut) (path : UriPath) (newLevel lowestLevel : OutLevel) : OutLevel :=
  ((OutLevel.between lowestLevel (newLevel.max lowestLevel)).find? fun i =>
    (ctx.levels i).nextId ≠ idFromPath path i).getD (newLevel.max lowestLevel)

/-- `tlv_set_path`. On a root that is an Instance path, an Instance path returns to the lowest level
    and sets no id. -/
def tlvSetPath (ctx : TlvOut) (path : UriPath) : Option (Int × TlvOut) :=
  if path.outsideBase ctx.rootPath then none
  else
    let lowest := rootLevel ctx.rootPath
    match leafLevel path with
    | none => none
    | some newLevel =>
        if lowest.toNat ≤ newLevel.toNat ∧ ctx.current.nextId ≠ idInvalid then some (-1, ctx)
        else
          match finishTo (finishLevel ctx path newLevel lowest) 2 ctx with
          | none => none
          | some (code, ctx) =>
              if code ≠ 0 then some (code, ctx)
              else
                match startLevels path (OutLevel.between ctx.level newLevel) ctx with
                | none => none
                | some ctx =>
                    if ctx.level = newLevel.max lowest then
                      some (0, ctx.setLevel ctx.level { ctx.current with
                        nextId := if lowest.toNat ≤ newLevel.toNat then idFromPath path ctx.level
                          else idInvalid })
                    else none

/-- `tlv_clear_path`. -/
def tlvClearPath (ctx : TlvOut) : Option (Int × TlvOut) :=
  if ctx.current.nextId = idInvalid ∧ OutLevel.rid.toNat ≤ ctx.level.toNat then some (-1, ctx)
  else some (0, ctx.setLevel ctx.level { ctx.current with nextId := idInvalid })

/-! ## 6. Closing -/

/-- `ANJAY_OUTCTXERR_ANJAY_RET_NOT_CALLED`. -/
def outctxerrRetNotCalled : Int := -0xCE2

/-- The loop of `tlv_output_close`: all levels are finished, and the first error is kept. -/
def closeLevels : Nat → Int → TlvOut → Option (Int × TlvOut)
  | 0, result, ctx => some (result, ctx)
  | fuel + 1, result, ctx =>
      if (rootLevel ctx.rootPath).toNat < ctx.level.toNat then
        match tlvSlaveFinish ctx with
        | none => none
        | some (code, ctx) => closeLevels fuel (updateRet result code) ctx
      else some (result, ctx)

/-- `tlv_output_close`. -/
def tlvOutputClose (ctx : TlvOut) : Option (Int × TlvOut) :=
  closeLevels 2 (if ctx.current.nextId ≠ idInvalid then outctxerrRetNotCalled else 0) ctx

/-! ## 7. Sequences of calls -/

/-- The calls a read operation or a handler makes on an output context. The bytes context an
    `append` goes to is named by its level. -/
inductive OutCall
  | setPath (path : UriPath)
  | clearPath
  | startAggregate
  | bytesBegin (length : Nat)
  | append (h : OutLevel) (data : List UInt8)
  | retBytes (data : List UInt8)
  | retString (value : List UInt8)
  | retI64 (value : Int)
  | retDouble (value : BitVec 64)
  | retBool (value : Bool)
  | retObjlnk (oid iid : Id)
  deriving DecidableEq, Repr

/-- One call, through the functions of `anjay_io_core.c`. -/
def callTlv (narrow : BitVec 64 → Option (BitVec 32)) (ctx : TlvOut) :
    OutCall → Option (Int × TlvOut)
  | .setPath path => keepError (tlvSetPath ctx path)
  | .clearPath => keepError (tlvClearPath ctx)
  | .startAggregate => keepError (tlvStartAggregate ctx)
  | .bytesBegin length => retBytesBegin ctx length
  | .append h data => bytesAppend ctx h data
  | .retBytes data => retBytes ctx data
  | .retString value => keepError (tlvRetString ctx value)
  | .retI64 value => keepError (tlvRetI64 ctx value)
  | .retDouble value => keepError (tlvRetDouble narrow ctx value)
  | .retBool value => keepError (tlvRetBool ctx value)
  | .retObjlnk oid iid => keepError (tlvRetObjlnk ctx oid iid)

/-- A sequence of calls in which every call reports success; `none` as soon as one does not. -/
def runCalls (narrow : BitVec 64 → Option (BitVec 32)) : List OutCall → TlvOut → Option TlvOut
  | [], ctx => some ctx
  | c :: cs, ctx =>
      match callTlv narrow ctx c with
      | none => none
      | some (code, ctx) => if code = 0 then runCalls narrow cs ctx else none

theorem runCalls_cons_ok {narrow : BitVec 64 → Option (BitVec 32)} {c : OutCall}
    {ctx ctx' : TlvOut} (h : callTlv narrow ctx c = some (0, ctx')) (cs : List OutCall) :
    runCalls narrow (c :: cs) ctx = runCalls narrow cs ctx' := by
  rw [runCalls, h]
  rfl

theorem runCalls_append {narrow : BitVec 64 → Option (BitVec 32)} (ds : List OutCall) :
    ∀ (cs : List OutCall) {ctx ctx' : TlvOut}, runCalls narrow cs ctx = some ctx' →
      runCalls narrow (cs ++ ds) ctx = runCalls narrow ds ctx'
  | [], _, _, h => by
      simp only [runCalls, Option.some.injEq] at h
      rw [h, List.nil_append]
  | c :: cs, ctx, ctx', h => by
      rw [runCalls] at h
      cases hc : callTlv narrow ctx c with
      | none => simp [hc] at h
      | some r =>
          obtain ⟨code, ctx1⟩ := r
          simp only [hc] at h
          by_cases h0 : code = 0
          · subst h0
            rw [List.cons_append, runCalls_cons_ok hc]
            exact runCalls_append ds cs h
          · rw [if_neg h0] at h
            cases h

end Anjay.Tlv
