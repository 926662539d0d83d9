/-
  File:      Anjay/Dm/Write.lean
  Subject:   The Write operation (`anjay_dm_write.c`) on a TLV payload.

  * `writeResourceImpl`, `writeInstance`, `dmWrite`: the operation, with one cursor shared by the
    loop over the Resources and the loop over the Resource Instances of one of them.
  * `WriteState.writes` records the calls of `resource_write`, with the value each can read.
-/
import Anjay.Dm.Object
import Anjay.Dm.Notify
import Anjay.Io.Tlv.Walk

namespace Anjay.Dm

open Tlv

/-! ## 1. Handlers and state -/

/-- `anjay_dm_write_type_t`, the valid ones. -/
inductive WriteType
  | update
  | replace
  deriving DecidableEq, Repr

/-- The actions `_anjay_dm_write_type_from_request_action` is called with. -/
inductive WriteAction
  | write
  | writeUpdate
  | create
  deriving DecidableEq, Repr

/-- `_anjay_dm_write_type_from_request_action`. -/
def WriteAction.writeType : WriteAction → WriteType
  | .write => .replace
  | .writeUpdate | .create => .update

/-- What the Write operation calls, over the state `σ` of the Object's data. A `resource_write`
    handler reads its value from the input context. -/
structure WriteHandlers (σ : Type) where
  instanceReset : σ → Id → Int × σ
  resourceReset : σ → Id → Id → Int × σ
  resourceWrite : σ → Id → Id → Id → TlvIn → Int × σ × TlvIn
  instanceActionAllowed : σ → Bool
  notifyPerform : σ → NotifyQueue → Int × σ

/-- A call of `resource_write`; `value` is what the input context offers to read. -/
structure WriteCall where
  iid : Id
  rid : Id
  riid : Id
  value : Except Int (List UInt8)
  deriving DecidableEq

/-- `dm` is the data of the Object; `writes` and `notified` record the calls of `resource_write` and
    the queue given to `_anjay_notify_perform`. -/
structure WriteState (σ : Type) where
  dm : σ
  ctx : TlvIn
  queue : NotifyQueue
  writes : List WriteCall
  notified : Option NotifyQueue

/-- The state `_anjay_dm_write` starts in. -/
def WriteState.start {σ : Type} (dm : σ) (ctx : TlvIn) : WriteState σ := ⟨dm, ctx, .empty, [], none⟩

/-- All of the value that is left in the input context. -/
def offered (ctx : TlvIn) : Except Int (List UInt8) :=
  (readValueLoop 64 (ctx.stream.length + 1) ctx []).1

variable {σ : Type}

/-! ## 2. The operation -/

/-- `_anjay_dm_call_instance_reset`. -/
def callInstanceReset (h : WriteHandlers σ) (st : WriteState σ) (iid : Id) : Int × WriteState σ :=
  match h.instanceReset st.dm iid with
  | (result, dm) => (result, { st with dm := dm })

/-- `_anjay_dm_call_resource_reset`. -/
def callResourceReset (h : WriteHandlers σ) (st : WriteState σ) (iid rid : Id) :
    Int × WriteState σ :=
  match h.resourceReset st.dm iid rid with
  | (result, dm) => (result, { st with dm := dm })

/-- `_anjay_dm_call_resource_write`. -/
def callResourceWrite (h : WriteHandlers σ) (st : WriteState σ) (iid rid riid : Id) :
    Int × WriteState σ :=
  match h.resourceWrite st.dm iid rid riid st.ctx with
  | (result, dm, ctx) =>
      (result, { st with
        dm := dm, ctx := ctx, writes := st.writes ++ [⟨iid, rid, riid, offered st.ctx⟩] })

/-- `_anjay_input_next_entry`. -/
def inputNextEntry (st : WriteState σ) : Int × WriteState σ :=
  match nextEntry st.ctx with
  | (result, ctx) => (result, { st with ctx := ctx })

/-- `_anjay_input_get_path`. -/
def inputGetPath (st : WriteState σ) : Except Int (UriPath × Bool) × WriteState σ :=
  match getPath st.ctx with
  | (result, ctx) => (result, { st with ctx := ctx })

/-- `write_single_resource`. -/
def writeSingleResource (h : WriteHandlers σ) (st : WriteState σ) (path : UriPath) (isArray : Bool) :
    Int × WriteState σ :=
  if isArray = true ∨ path.has .riid = true then (errBadRequest, st)
  else callResourceWrite h st path.iid path.rid idInvalid

/-- The loop of `write_multiple_resource`. -/
def writeMultipleLoop (h : WriteHandlers σ) (firstPath : UriPath) :
    Nat → WriteState σ → UriPath → Int × WriteState σ
  | 0, st, _ => (errInternal, st)
  | fuel + 1, st, path =>
      if path.leafIs .riid = false then (0, st)
      else
        match callResourceWrite h st path.iid path.rid path.riid with
        | (result, st) =>
            if result ≠ 0 then (result, st)
            else
              match inputNextEntry st with
              | (result, st) =>
                  if result ≠ 0 then (result, st)
                  else
                    match inputGetPath st with
                    | (.error e, st) => (if e = getPathEnd then 0 else e, st)
                    | (.ok (path, _), st) =>
                        if path.iid ≠ firstPath.iid ∨ path.rid ≠ firstPath.rid then (0, st)
                        else writeMultipleLoop h firstPath fuel st path

/-- `write_multiple_resource`. A pass of the loop reads at least a header, so there are fewer passes
    than bytes. -/
def writeMultipleResource (h : WriteHandlers σ) (st : WriteState σ) (firstPath : UriPath)
    (isArray : Bool) (writeType : WriteType) : Int × WriteState σ :=
  if isArray = false ∧ firstPath.leafIs .rid = true then (errBadRequest, st)
  else if writeType = .update then
    writeMultipleLoop h firstPath (st.ctx.stream.length + 1) st firstPath
  else
    match callResourceReset h st firstPath.iid firstPath.rid with
    | (result, st) =>
        if result ≠ 0 then (result, st)
        else writeMultipleLoop h firstPath (st.ctx.stream.length + 1) st firstPath

/-- The part of `write_resource_impl` between the kind check and `_anjay_input_next_entry`;
    `notify` is false where the caller gives no queue. -/
def writeResourceOfKind (h : WriteHandlers σ) (st : WriteState σ) (kind : ResourceKind)
    (path : UriPath) (isArray notify : Bool) (writeType : WriteType) : Int × WriteState σ :=
  match (if kind.multiple then writeMultipleResource h st path isArray writeType
    else writeSingleResource h st path isArray) with
  | (result, st) =>
      if result = 0 ∧ notify = true then
        (0, { st with queue := queueResourceChange st.queue path.oid path.iid path.rid })
      else (result, st)

/-- The kind check of `write_resource_impl`. -/
def ResourceKind.acceptsWrite (kind : ResourceKind) (allowNonWritable : Bool) : Bool :=
  kind.writable || (allowNonWritable && (kind.readable || kind.bootstrappable))

/-- `write_resource_impl`. -/
def writeResourceImpl (obj : ObjectDef σ) (h : WriteHandlers σ) (st : WriteState σ)
    (notify allowNonWritable : Bool) (writeType : WriteType) : Int × WriteState σ :=
  match inputGetPath st with
  | (.error e, st) => (if e = getPathEnd then errBadRequest else e, st)
  | (.ok (path, isArray), st) =>
      let (result, st) :=
        match obj.resourceKindAndPresence st.dm path.iid path.rid with
        | .error e => (e, st)
        | .ok (kind, _) =>
            if kind.acceptsWrite allowNonWritable then
              writeResourceOfKind h st kind path isArray notify writeType
            else (errMethodNotAllowed, st)
      let (nextResult, st) := inputNextEntry st
      (if result ≠ 0 then result else nextResult, st)

/-- `write_resource`. -/
def writeResource (obj : ObjectDef σ) (h : WriteHandlers σ) (st : WriteState σ) (notify : Bool)
    (writeType : WriteType) : Int × WriteState σ :=
  writeResourceImpl obj h st notify false writeType

/-- `write_instance_hint_t`. -/
inductive WriteInstanceHint
  | failOnUnsupported
  | ignoreUnsupported
  deriving DecidableEq, Repr

/-- The loop of `write_instance`. -/
def writeInstanceLoop (obj : ObjectDef σ) (h : WriteHandlers σ) (iid : Id) (notify : Bool)
    (hint : WriteInstanceHint) (writeType : WriteType) : Nat → WriteState σ → Int × WriteState σ
  | 0, st => (errInternal, st)
  | fuel + 1, st =>
      match inputGetPath st with
      | (.error e, st) => (if e = getPathEnd then 0 else e, st)
      | (.ok (path, _), st) =>
          if path.has .iid = false ∨ path.iid ≠ iid then (errBadRequest, st)
          else if path.has .rid = false then (0, st)
          else
            match writeResource obj h st notify writeType with
            | (result, st) =>
                if result = errNotFound ∧ hint = .ignoreUnsupported ∨ result = 0 then
                  writeInstanceLoop obj h iid notify hint writeType fuel st
                else (result, st)

/-- `write_instance`. -/
def writeInstance (obj : ObjectDef σ) (h : WriteHandlers σ) (st : WriteState σ) (iid : Id)
    (notify : Bool) (hint : WriteInstanceHint) (writeType : WriteType) : Int × WriteState σ :=
  writeInstanceLoop obj h iid notify hint writeType (st.ctx.stream.length + 1) st

/-- The end of `_anjay_dm_write`: the notifications, and the queue is cleared. -/
def writeNotify (h : WriteHandlers σ) (result : Int) (st : WriteState σ) : Int × WriteState σ :=
  if result = 0 then
    match h.notifyPerform st.dm st.queue with
    | (result, dm) => (result, { st with dm := dm, notified := some st.queue, queue := .empty })
  else (result, { st with queue := .empty })

/-- The part of `_anjay_dm_write` after the checks. -/
def writeAddressed (obj : ObjectDef σ) (h : WriteHandlers σ) (st : WriteState σ) (uri : UriPath)
    (writeType : WriteType) : Int × WriteState σ :=
  if uri.leafIs .iid then
    match (if writeType = .update then (0, st) else callInstanceReset h st uri.iid) with
    | (result, st) =>
        if result ≠ 0 then (result, st)
        else
          match writeInstance obj h st uri.iid true .failOnUnsupported writeType with
          | (result, st) => writeNotify h result st
  else if uri.leafIs .rid then
    match writeResource obj h st true writeType with
    | (result, st) => writeNotify h result st
  else if uri.leafIs .riid then writeNotify h errBadRequest st
  else writeNotify h 0 st

/-- `_anjay_dm_write`. -/
def dmWrite (obj : ObjectDef σ) (h : WriteHandlers σ) (dm : σ) (uri : UriPath) (action : WriteAction)
    (ctx : TlvIn) : Int × WriteState σ :=
  let st := WriteState.start dm ctx
  if uri.has .iid = false then (errMethodNotAllowed, st)
  else
    let result := obj.verifyInstancePresent dm uri.iid
    if result ≠ 0 then (result, st)
    else if h.instanceActionAllowed dm = false then (errUnauthorized, st)
    else writeAddressed obj h st uri action.writeType

end Anjay.Dm
