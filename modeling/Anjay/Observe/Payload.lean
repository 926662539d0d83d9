/-
  File:      Anjay/Observe/Payload.lean
  Subject:   The payload of a notification, serialised in chunks (`write_notify_payload` and
             `_anjay_batch_data_output_entry`), and in one go (`_anjay_batch_data_output`).

  * `serializeNext_remaining`: a step of the serialiser moves bytes from what remains into the memory stream.
  * `fill_spec`: the loop of `write_notify_payload` ends, and takes the next bytes of the payload.
  * `notify_payload`: **the chunks put together are what is serialised in one go.**
-/
import Anjay.AccessControl.Access
import Anjay.Commons.Time

namespace Anjay.Observe.Payload

open Dm Ac

/-! ## 1. Batches -/

/-- `anjay_batch_data_t`. -/
inductive BatchData
  | bytes (data : List UInt8)
  | string (value : CString)
  | int (value : BitVec 64)
  | double (value : Double)
  | bool (value : Bool)
  | objlnk (oid iid : Id)
  | startAggregate
  deriving DecidableEq, Repr

/-- `anjay_batch_entry_t`. -/
structure BatchEntry where
  path : UriPath
  data : BatchData
  timestamp : Duration
  deriving DecidableEq

/-- The list of an `anjay_batch_t`. -/
abbrev Batch := List BatchEntry

/-- The values of an `anjay_observation_value_t` that is no error; there is one for each path, and some path. -/
structure ObservationValues where
  values : List Batch
  nonempty : values ≠ []

/-! ## 2. Output contexts -/

/-- What a call to an output context gives: its code, the context, and what it writes to the stream. -/
structure Called (γ : Type) where
  code : Int
  ctx : γ
  written : List UInt8

/-- A call after another one. -/
def Called.andThen {γ : Type} (r : Called γ) (f : γ → Called γ) : Called γ :=
  ⟨(f r.ctx).code, (f r.ctx).ctx, r.written ++ (f r.ctx).written⟩

/-- `anjay_output_ctx_vtable_t`, with the function of the context for bytes; `γ` is what a context has of its own. -/
structure OutputVtable (γ : Type) where
  bytesBegin : Option (Nat → γ → Called γ)
  bytesAppend : List UInt8 → γ → Called γ
  string : Option (CString → γ → Called γ)
  integer : Option (BitVec 64 → γ → Called γ)
  floating : Option (Double → γ → Called γ)
  boolean : Option (Bool → γ → Called γ)
  objlnk : Option (Id → Id → γ → Called γ)
  startAggregate : Option (γ → Called γ)
  setPath : Option (UriPath → γ → Called γ)
  setTime : Option (Double → γ → Called γ)
  close : Option (γ → Int × List UInt8)

/-- `anjay_output_ctx_t`, without the pointer to its functions. -/
structure OutputCtx (γ : Type) where
  error : Int
  inner : γ

/-- ANJAY_OUTCTXERR_METHOD_NOT_IMPLEMENTED. -/
def outctxerrMethodNotImplemented : Int := -0xCE1

/-- ANJAY_OUTCTXERR_ANJAY_RET_NOT_CALLED. -/
def outctxerrRetNotCalled : Int := -0xCE2

section Calls

variable {γ : Type} (vtable : OutputVtable γ)

/-- A call of a function that may be missing, in which case the code is `missing`; the code is recorded. -/
def call (f : Option (γ → Called γ)) (missing : Int) (ctx : OutputCtx γ) : Called (OutputCtx γ) :=
  match f with
  | none => ⟨missing, { ctx with error := updateRet ctx.error missing }, []⟩
  | some f => ⟨(f ctx.inner).code, ⟨updateRet ctx.error (f ctx.inner).code, (f ctx.inner).ctx⟩, (f ctx.inner).written⟩

/-- `_anjay_output_set_path`. -/
def outputSetPath (path : UriPath) : OutputCtx γ → Called (OutputCtx γ) := call (vtable.setPath.map (· path)) 0

/-- `_anjay_output_set_time`. -/
def outputSetTime (value : Double) : OutputCtx γ → Called (OutputCtx γ) := call (vtable.setTime.map (· value)) 0

/-- `_anjay_output_start_aggregate`. -/
def outputStartAggregate : OutputCtx γ → Called (OutputCtx γ) :=
  call vtable.startAggregate outctxerrMethodNotImplemented

/-- `anjay_ret_bytes_begin`. -/
def retBytesBegin (length : Nat) : OutputCtx γ → Called (OutputCtx γ) :=
  call (vtable.bytesBegin.map (· length)) outctxerrMethodNotImplemented

/-- `anjay_ret_bytes_append`: its code is not recorded. -/
def retBytesAppend (data : List UInt8) (ctx : OutputCtx γ) : Called (OutputCtx γ) :=
  ⟨(vtable.bytesAppend data ctx.inner).code, { ctx with inner := (vtable.bytesAppend data ctx.inner).ctx },
    (vtable.bytesAppend data ctx.inner).written⟩

/-- `anjay_ret_bytes`. -/
def retBytes (data : List UInt8) (ctx : OutputCtx γ) : Called (OutputCtx γ) :=
  let begun := retBytesBegin vtable data.length ctx
  if begun.code ≠ 0 then { begun with code := -1 } else begun.andThen (retBytesAppend vtable data)

/-- `anjay_ret_string`. -/
def retString (value : CString) : OutputCtx γ → Called (OutputCtx γ) :=
  call (vtable.string.map (· value)) outctxerrMethodNotImplemented

/-- `anjay_ret_i64`. -/
def retI64 (value : BitVec 64) : OutputCtx γ → Called (OutputCtx γ) :=
  call (vtable.integer.map (· value)) outctxerrMethodNotImplemented

/-- `anjay_ret_double`. -/
def retDouble (value : Double) : OutputCtx γ → Called (OutputCtx γ) :=
  call (vtable.floating.map (· value)) outctxerrMethodNotImplemented

/-- `anjay_ret_bool`. -/
def retBool (value : Bool) : OutputCtx γ → Called (OutputCtx γ) :=
  call (vtable.boolean.map (· value)) outctxerrMethodNotImplemented

/-- `anjay_ret_objlnk`. -/
def retObjlnk (oid iid : Id) : OutputCtx γ → Called (OutputCtx γ) :=
  call (vtable.objlnk.map (· oid iid)) outctxerrMethodNotImplemented

/-- `_anjay_output_ctx_destroy`: its code, and what closing the context writes. -/
def outputCtxDestroy (ctx : OutputCtx γ) : Int × List UInt8 :=
  match vtable.close with
  | none => (ctx.error, [])
  | some close => (updateRet ctx.error (close ctx.inner).1, (close ctx.inner).2)

/-- `_anjay_output_ctx_destroy_and_process_result`. -/
def outputCtxDestroyAndProcessResult (ctx : OutputCtx γ) (result : Int) : Int × List UInt8 :=
  let destroyed := outputCtxDestroy vtable ctx
  if destroyed.1 ≠ outctxerrRetNotCalled then (if destroyed.1 ≠ 0 then destroyed.1 else result, destroyed.2)
  else if result ≠ 0 then (result, destroyed.2)
  else (errInternal, destroyed.2)

end Calls

/-! ## 3. Serialising entries -/

/-- SENML_TIME_SECONDS_THRESHOLD. -/
def senmlTimeSecondsThreshold : Int := 268435456

/-- `is_timestamp_absolute`. -/
def isTimestampAbsolute (timestamp : Duration) : Bool := decide (senmlTimeSecondsThreshold ≤ timestamp.seconds)

/-- `convert_to_senml_time`; `toFscalar` is `avs_time_duration_to_fscalar`, to seconds. -/
def convertToSenmlTime (toFscalar : Duration → Double) (timestamp serializationTime : Duration) : Double :=
  if serializationTime.less timestamp then Double.nan
  else
    match isTimestampAbsolute timestamp, isTimestampAbsolute serializationTime with
    | true, true => toFscalar timestamp
    | false, false => toFscalar (timestamp.diff serializationTime)
    | _, _ => Double.nan

/-- What the serialiser is given: the functions of the format, the calculation of its times, and the time. -/
structure Serializer (γ : Type) where
  vtable : OutputVtable γ
  toFscalar : Duration → Double
  serializationTime : Duration

/-- What a call depends on: the data model and the servers, where the access is decided. -/
structure Access (σ : Type) where
  dm : AccessModel σ
  servers : List Id

section Serializing

variable {γ σ : Type} (ser : Serializer γ)

/-- The `switch` of `serialize_batch_entry`. -/
def serializeData (data : BatchData) (ctx : OutputCtx γ) : Called (OutputCtx γ) :=
  match data with
  | .bytes data => retBytes ser.vtable data ctx
  | .string value => retString ser.vtable value ctx
  | .int value => retI64 ser.vtable value ctx
  | .double value => retDouble ser.vtable value ctx
  | .bool value => retBool ser.vtable value ctx
  | .objlnk oid iid => retObjlnk ser.vtable oid iid ctx
  | .startAggregate => outputStartAggregate ser.vtable ctx

/-- `serialize_batch_entry`. -/
def serializeBatchEntry (entry : BatchEntry) (ctx : OutputCtx γ) : Called (OutputCtx γ) :=
  let pathSet := outputSetPath ser.vtable entry.path ctx
  if pathSet.code ≠ 0 then pathSet
  else
    let timeSet :=
      if entry.timestamp.valid then
        pathSet.andThen (outputSetTime ser.vtable
          (convertToSenmlTime ser.toFscalar entry.timestamp ser.serializationTime))
      else pathSet
    if timeSet.code ≠ 0 then timeSet else timeSet.andThen (serializeData ser entry.data)

/-- `is_server_allowed_to_read`. -/
def isServerAllowedToRead (access : Access σ) (ssid : Id) (entry : BatchEntry) : Bool :=
  access.dm.instanceActionAllowed access.servers ⟨entry.path.ids .oid, entry.path.ids .iid, ssid, .read⟩

/-- `_anjay_batch_data_output_entry`. The state is the list from an entry on; a null pointer, the empty list, is for
    the start, and after the end. -/
def batchDataOutputEntry (access : Access σ) (batch : Batch) (targetSsid : Id) (state : List BatchEntry)
    (ctx : OutputCtx γ) : Called (OutputCtx γ) × List BatchEntry :=
  match (if state = [] then batch else state).dropWhile fun entry => !isServerAllowedToRead access targetSsid entry with
  | [] => (⟨0, ctx, []⟩, [])
  | entry :: rest => (serializeBatchEntry ser entry ctx, rest)

theorem length_dropWhile_le {α : Type} (p : α → Bool) (as : List α) : (as.dropWhile p).length ≤ as.length :=
  (List.dropWhile_sublist p).length_le

/-- The state after a call is shorter than what the call started with. -/
theorem batchDataOutputEntry_lt {access : Access σ} {batch : Batch} {targetSsid : Id} {state : List BatchEntry}
    {ctx : OutputCtx γ} (h : (batchDataOutputEntry ser access batch targetSsid state ctx).2 ≠ []) :
    (batchDataOutputEntry ser access batch targetSsid state ctx).2.length < (if state = [] then batch else state).length := by
  unfold batchDataOutputEntry at h ⊢
  have hle := length_dropWhile_le (fun entry => !isServerAllowedToRead access targetSsid entry)
    (if state = [] then batch else state)
  split
  next hnil =>
    rw [hnil] at h
    exact absurd rfl h
  next entry rest hcons =>
    rw [hcons] at hle
    exact hle

/-- The loop of `_anjay_batch_data_output`. -/
def batchDataOutputLoop (access : Access σ) (batch : Batch) (targetSsid : Id) (state : List BatchEntry)
    (ctx : OutputCtx γ) : Called (OutputCtx γ) :=
  let r := batchDataOutputEntry ser access batch targetSsid state ctx
  if hmore : r.1.code = 0 ∧ r.2 ≠ [] then
    have _hlt := batchDataOutputEntry_lt ser hmore.2
    r.1.andThen (batchDataOutputLoop access batch targetSsid r.2)
  else r.1
termination_by (if state = [] then batch else state).length
decreasing_by
  rw [if_neg hmore.2]
  exact _hlt

/-- `_anjay_batch_data_output`. -/
def batchDataOutput (access : Access σ) (batch : Batch) (targetSsid : Id) : OutputCtx γ → Called (OutputCtx γ) :=
  batchDataOutputLoop ser access batch targetSsid []

/-- The loop over all values, of `send_initial_response`. -/
def outputAll (access : Access σ) : List Batch → OutputCtx γ → Called (OutputCtx γ)
  | [], ctx => ⟨0, ctx, []⟩
  | batch :: batches, ctx =>
      let r := batchDataOutput ser access batch ssidBootstrap ctx
      if r.code = 0 then r.andThen (outputAll access batches) else r

/-- All batches in one go, with the context destroyed at the end: the code, and the bytes; `opened` is what was
    written when the context was made. -/
def serializeInOneGo (access : Access σ) (values : ObservationValues) (opened : Called γ) : Int × List UInt8 :=
  let output := outputAll ser access values.values ⟨0, opened.ctx⟩
  let closed := outputCtxDestroyAndProcessResult ser.vtable output.ctx output.code
  (closed.1, opened.written ++ (output.written ++ closed.2))

/-! ## 4. Serialising in chunks -/

/-- `anjay_observation_serialization_state_t`; the memory stream is a queue of bytes. -/
structure SerializationState (γ : Type) where
  membufStream : List UInt8
  outCtx : Option (OutputCtx γ)
  expectedOffset : Nat
  currValueIdx : Nat
  outputState : List BatchEntry

/-- `initialize_serialization_state`, where the context can be made. -/
def initializeSerializationState (opened : Called γ) : SerializationState γ :=
  ⟨opened.written, some ⟨0, opened.ctx⟩, 0, 0, []⟩

/-- The body of the loop of `write_notify_payload` after the read: the code, and the state; there is no result where
    there is no context, or no value with the index. -/
def serializeNext (access : Access σ) (values : List Batch) (s : SerializationState γ) :
    Option (Int × SerializationState γ) :=
  match s.outCtx, values[s.currValueIdx]? with
  | some ctx, some batch =>
      let r := batchDataOutputEntry ser access batch ssidBootstrap s.outputState ctx
      let written : SerializationState γ :=
        { s with membufStream := s.membufStream ++ r.1.written, outCtx := some r.1.ctx, outputState := r.2 }
      if r.1.code = 0 ∧ r.2 = [] then
        let next := { written with currValueIdx := s.currValueIdx + 1 }
        if values.length ≤ s.currValueIdx + 1 then
          let closed := outputCtxDestroyAndProcessResult ser.vtable r.1.ctx r.1.code
          some (closed.1, { next with outCtx := none, membufStream := next.membufStream ++ closed.2 })
        else some (0, next)
      else some (r.1.code, written)
  | _, _ => none

/-- The entries that are left to be looked at, at most. -/
def SerializationState.entriesLeft (values : List Batch) (s : SerializationState γ) : Nat :=
  match s.outCtx with
  | none => 0
  | some _ =>
      1 + ((if s.outputState = [] then values[s.currValueIdx]?.getD [] else s.outputState).length +
        ((values.drop (s.currValueIdx + 1)).map fun batch => batch.length + 1).sum)

theorem serializeNext_lt {access : Access σ} {values : List Batch} {s next : SerializationState γ}
    (h : serializeNext ser access values s = some (0, next)) : next.entriesLeft values < s.entriesLeft values := by
  unfold serializeNext at h
  split at h
  next ctx batch hctx hbatch =>
    have hs : s.entriesLeft values = 1 + ((if s.outputState = [] then batch else s.outputState).length +
        ((values.drop (s.currValueIdx + 1)).map fun batch => batch.length + 1).sum) := by
      unfold SerializationState.entriesLeft
      rw [hctx, hbatch]
      rfl
    have hlt := @batchDataOutputEntry_lt _ _ ser access batch ssidBootstrap s.outputState ctx
    dsimp only at h
    split at h
    next hdone =>
      split at h
      · rw [← (Prod.mk.inj (Option.some.inj h)).2, hs]
        exact Nat.lt_of_lt_of_le Nat.zero_lt_one (Nat.le_add_right 1 _)
      next hmore =>
        rw [← (Prod.mk.inj (Option.some.inj h)).2, hs, List.drop_eq_getElem_cons (Nat.lt_of_not_le hmore), List.map_cons,
          List.sum_cons]
        unfold SerializationState.entriesLeft
        dsimp only
        rw [hdone.2, if_pos rfl, List.getElem?_eq_getElem (Nat.lt_of_not_le hmore), Option.getD_some]
        omega
    next hmore =>
      obtain ⟨hcode, hnext⟩ := Prod.mk.inj (Option.some.inj h)
      have hrest := hlt fun hnil => hmore ⟨hcode, hnil⟩
      rw [← hnext, hs]
      unfold SerializationState.entriesLeft
      dsimp only
      rw [if_neg fun hnil => hmore ⟨hcode, hnil⟩]
      omega
  · cases h

/-- The loop of `write_notify_payload`, with room for so many bytes: the bytes, or the code that is returned. -/
def fill (access : Access σ) (values : List Batch) (room : Nat) (s : SerializationState γ) :
    Option (Except Int (List UInt8) × SerializationState γ) :=
  let chunk := s.membufStream.take room
  let read := { s with membufStream := s.membufStream.drop room }
  if room ≤ s.membufStream.length ∨ s.outCtx.isNone then some (.ok chunk, read)
  else
    match hnext : serializeNext ser access values read with
    | none => none
    | some (code, next) =>
        if hcode : code = 0 then
          have _hlt := serializeNext_lt ser (hcode ▸ hnext)
          (fill access values (room - chunk.length) next).map fun r => (r.1.map (chunk ++ ·), r.2)
        else some (.error code, next)
termination_by s.entriesLeft values
decreasing_by exact _hlt

/-- `write_notify_payload`. -/
def writeNotifyPayload (access : Access σ) (values : List Batch) (payloadOffset payloadBufSize : Nat)
    (s : SerializationState γ) : Option (Except Int (List UInt8) × SerializationState γ) :=
  if payloadOffset ≠ s.expectedOffset then some (.error (-1), s)
  else
    (fill ser access values payloadBufSize s).map fun r =>
      match r.1 with
      | .error code => (.error code, r.2)
      | .ok chunk => (.ok chunk, { r.2 with expectedOffset := r.2.expectedOffset + chunk.length })

/-- A request for a chunk: its size, and the data model and the servers at that time. -/
structure Request (σ : Type) where
  access : Access σ
  size : Nat

/-- Successive calls of `write_notify_payload`, each with the offset after the chunk before. -/
def writeChunks (values : List Batch) : List (Request σ) → Nat → SerializationState γ →
    Option (Except Int (List (List UInt8)) × SerializationState γ)
  | [], _, s => some (.ok [], s)
  | request :: requests, offset, s =>
      match writeNotifyPayload ser request.access values offset request.size s with
      | none => none
      | some (.error code, s) => some (.error code, s)
      | some (.ok chunk, s) =>
          (writeChunks values requests (offset + chunk.length) s).map fun r => (r.1.map (chunk :: ·), r.2)

/-! ## 5. What remains -/

/-- The rest of the output: of a batch from the state on, and of the batches after it. -/
def outputRest (access : Access σ) (batches : List Batch) (state : List BatchEntry) (ctx : OutputCtx γ) :
    Called (OutputCtx γ) :=
  match batches with
  | [] => ⟨0, ctx, []⟩
  | batch :: batches =>
      let r := batchDataOutputLoop ser access batch ssidBootstrap state ctx
      if r.code = 0 then r.andThen (outputAll ser access batches) else r

/-- The code at the end, and all bytes, where the context is destroyed after an output. -/
def finish (output : Called (OutputCtx γ)) : Int × List UInt8 :=
  let closed := outputCtxDestroyAndProcessResult ser.vtable output.ctx output.code
  (closed.1, output.written ++ closed.2)

/-- What is still to be serialised: the code at the end, and the bytes. -/
def SerializationState.remaining (access : Access σ) (values : List Batch) (s : SerializationState γ) : Int × List UInt8 :=
  match s.outCtx with
  | none => (0, [])
  | some ctx => finish ser (outputRest ser access (values.drop s.currValueIdx) s.outputState ctx)

/-- The bytes that are still to be produced. -/
def SerializationState.pending (access : Access σ) (values : List Batch) (s : SerializationState γ) : List UInt8 :=
  s.membufStream ++ (s.remaining ser access values).2

/-- While there is a context, there is a value to be serialised. -/
def SerializationState.InRange (values : List Batch) (s : SerializationState γ) : Prop :=
  s.outCtx ≠ none → s.currValueIdx < values.length

theorem outputAll_eq (access : Access σ) (batches : List Batch) (ctx : OutputCtx γ) :
    outputAll ser access batches ctx = outputRest ser access batches [] ctx := by
  cases batches with
  | nil => rfl
  | cons batch batches => rfl

theorem finish_andThen (r : Called (OutputCtx γ)) (f : OutputCtx γ → Called (OutputCtx γ)) :
    finish ser (r.andThen f) = ((finish ser (f r.ctx)).1, r.written ++ (finish ser (f r.ctx)).2) := by
  unfold finish Called.andThen
  dsimp only
  rw [List.append_assoc]

/-- The code of a failure is not lost when the context is destroyed. -/
theorem finish_ne_zero {output : Called (OutputCtx γ)} (h : output.code ≠ 0) : (finish ser output).1 ≠ 0 := by
  unfold finish outputCtxDestroyAndProcessResult
  dsimp only
  split
  · split
    next hne => exact hne
    · exact h
  · exact h

/-- **The bootstrap server may read all**, whatever the data model and the servers are. -/
theorem isServerAllowedToRead_bootstrap (access : Access σ) (entry : BatchEntry) :
    isServerAllowedToRead access ssidBootstrap entry = true := by
  unfold isServerAllowedToRead AccessModel.instanceActionAllowed
  exact if_pos rfl

theorem batchDataOutputEntry_access (access access' : Access σ) (batch : Batch) (state : List BatchEntry) (ctx : OutputCtx γ) :
    batchDataOutputEntry ser access batch ssidBootstrap state ctx =
      batchDataOutputEntry ser access' batch ssidBootstrap state ctx := by
  unfold batchDataOutputEntry
  simp only [isServerAllowedToRead_bootstrap]

theorem serializeNext_access (access access' : Access σ) (values : List Batch) (s : SerializationState γ) :
    serializeNext ser access values s = serializeNext ser access' values s := by
  unfold serializeNext
  simp only [batchDataOutputEntry_access ser access access']

/-- The output of a batch from a state on, by one entry. -/
theorem outputRest_cons (access : Access σ) (batch : Batch) (batches : List Batch) (state : List BatchEntry)
    (ctx : OutputCtx γ) {r : Called (OutputCtx γ) × List BatchEntry}
    (hr : batchDataOutputEntry ser access batch ssidBootstrap state ctx = r) :
    outputRest ser access (batch :: batches) state ctx =
      if r.1.code ≠ 0 then r.1
      else r.1.andThen (if r.2 = [] then outputRest ser access batches [] else outputRest ser access (batch :: batches) r.2) := by
  have hcons : ∀ state ctx, outputRest ser access (batch :: batches) state ctx =
      if (batchDataOutputLoop ser access batch ssidBootstrap state ctx).code = 0 then
        (batchDataOutputLoop ser access batch ssidBootstrap state ctx).andThen (outputAll ser access batches)
      else batchDataOutputLoop ser access batch ssidBootstrap state ctx := fun _ _ => rfl
  have hloop : batchDataOutputLoop ser access batch ssidBootstrap state ctx =
      if r.1.code = 0 ∧ r.2 ≠ [] then r.1.andThen (batchDataOutputLoop ser access batch ssidBootstrap r.2) else r.1 := by
    subst hr
    rw [batchDataOutputLoop]
    exact dite_eq_ite
  rw [hcons]
  by_cases hcode : r.1.code = 0
  swap
  · rw [hloop, if_pos hcode, if_neg (c := r.1.code = 0 ∧ r.2 ≠ []) fun h => hcode h.1, if_neg hcode]
  rw [if_neg (not_not.mpr hcode)]
  by_cases hrest : r.2 = []
  · rw [if_pos hrest, hloop, if_neg (c := r.1.code = 0 ∧ r.2 ≠ []) fun h => h.2 hrest, if_pos hcode]
    exact congrArg r.1.andThen (funext fun ctx => outputAll_eq ser access batches ctx)
  · rw [if_neg hrest, hloop, if_pos (c := r.1.code = 0 ∧ r.2 ≠ []) ⟨hcode, hrest⟩]
    unfold Called.andThen
    dsimp only
    rw [hcons]
    split
    · exact congrArg (Called.mk _ _) (List.append_assoc _ _ _)
    · rfl

/-- **A step of the serialiser moves bytes from what remains into the memory stream**; when it fails, so does the
    output in one go. -/
theorem serializeNext_remaining {access : Access σ} (access' : Access σ) {values : List Batch} {s next : SerializationState γ}
    {code : Int} (h : serializeNext ser access values s = some (code, next)) :
    (code = 0 → (next.remaining ser access' values).1 = (s.remaining ser access' values).1 ∧
      next.pending ser access' values = s.pending ser access' values ∧ next.InRange values ∧
      next.expectedOffset = s.expectedOffset) ∧
    (code ≠ 0 → (s.remaining ser access' values).1 ≠ 0) := by
  rw [serializeNext_access ser access access'] at h
  unfold serializeNext at h
  split at h
  next ctx batch hctx hbatch =>
    obtain ⟨hlt, hget⟩ := List.getElem?_eq_some_iff.mp hbatch
    obtain ⟨r, hr⟩ : ∃ r, batchDataOutputEntry ser access' batch ssidBootstrap s.outputState ctx = r := ⟨_, rfl⟩
    have hs : s.remaining ser access' values = finish ser (if r.1.code ≠ 0 then r.1
        else r.1.andThen (if r.2 = [] then outputRest ser access' (values.drop (s.currValueIdx + 1)) []
          else outputRest ser access' (values.drop s.currValueIdx) r.2)) := by
      unfold SerializationState.remaining
      rw [hctx, List.drop_eq_getElem_cons hlt, hget]
      exact congrArg (finish ser) (outputRest_cons ser access' batch _ s.outputState ctx hr)
    unfold SerializationState.pending
    rw [hr] at h
    dsimp only at h
    by_cases hcode : r.1.code = 0
    swap
    · rw [if_neg fun hdone => hcode hdone.1] at h
      obtain ⟨rfl, rfl⟩ := Prod.mk.inj (Option.some.inj h)
      refine ⟨fun hzero => absurd hzero hcode, fun _ => ?_⟩
      rw [hs, if_pos hcode]
      exact finish_ne_zero ser hcode
    rw [if_neg (not_not.mpr hcode), finish_andThen] at hs
    by_cases hrest : r.2 = []
    · rw [if_pos hrest] at hs
      rw [if_pos ⟨hcode, hrest⟩] at h
      split at h
      next hlast =>
        -- the context is destroyed after the last batch
        obtain ⟨rfl, rfl⟩ := Prod.mk.inj (Option.some.inj h)
        have hout : outputRest ser access' (values.drop (s.currValueIdx + 1)) [] r.1.ctx = ⟨0, r.1.ctx, []⟩ := by
          rw [List.drop_eq_nil_of_le hlast]
          rfl
        rw [hout] at hs
        rw [hcode, hs]
        refine ⟨fun hzero => ⟨hzero.symm, ?_, fun hsome => absurd rfl hsome, rfl⟩, fun hne => hne⟩
        show (s.membufStream ++ r.1.written ++ _) ++ [] = s.membufStream ++ (r.1.written ++ ([] ++ _))
        rw [List.append_nil, List.nil_append, List.append_assoc]
      next hmore =>
        obtain ⟨rfl, rfl⟩ := Prod.mk.inj (Option.some.inj h)
        rw [hs]
        refine ⟨fun _ => ⟨?_, ?_, fun _ => Nat.lt_of_not_le hmore, rfl⟩, fun hne => absurd rfl hne⟩
        · show (finish ser (outputRest ser access' _ r.2 r.1.ctx)).1 = _
          rw [hrest]
        · show (s.membufStream ++ r.1.written) ++ (finish ser (outputRest ser access' _ r.2 r.1.ctx)).2 = _
          rw [hrest, List.append_assoc]
    · rw [if_neg hrest] at hs
      rw [if_neg fun hdone => hrest hdone.2] at h
      obtain ⟨rfl, rfl⟩ := Prod.mk.inj (Option.some.inj h)
      rw [hs]
      exact ⟨fun _ => ⟨rfl, List.append_assoc _ _ _, fun _ => hlt, rfl⟩, fun hne => absurd hcode hne⟩
  · cases h

/-- A step can be done while there is a context. -/
theorem serializeNext_isSome {access : Access σ} {values : List Batch} {s : SerializationState γ} (h : s.InRange values)
    (hctx : s.outCtx.isNone = false) : ∃ code next, serializeNext ser access values s = some (code, next) := by
  have hsome : s.outCtx ≠ none := fun hnone => by rw [hnone] at hctx; cases hctx
  obtain ⟨ctx, hctx⟩ := Option.ne_none_iff_exists'.mp hsome
  unfold serializeNext
  rw [hctx, List.getElem?_eq_getElem (h hsome)]
  dsimp only
  split
  · split
    · exact ⟨_, _, rfl⟩
    · exact ⟨_, _, rfl⟩
  · exact ⟨_, _, rfl⟩

/-! ## 6. Chunks -/

/-- A chunk has been taken from what is to be produced. -/
structure Taken (access : Access σ) (values : List Batch) (room : Nat) (s s' : SerializationState γ) (chunk : List UInt8) :
    Prop where
  taken : chunk = (s.pending ser access values).take room
  pending : s'.pending ser access values = (s.pending ser access values).drop room
  code : (s'.remaining ser access values).1 = (s.remaining ser access values).1
  inRange : s'.InRange values
  offset : s'.expectedOffset = s.expectedOffset
  short : chunk.length < room → (s.remaining ser access values).1 = 0

/-- What the memory stream has is taken. -/
theorem taken_read {access : Access σ} {values : List Batch} {room : Nat} {s : SerializationState γ}
    (hrange : s.InRange values) (h : room ≤ s.membufStream.length ∨ s.outCtx.isNone = true) :
    Taken ser access values room s { s with membufStream := s.membufStream.drop room } (s.membufStream.take room) := by
  have hremaining : SerializationState.remaining ser access values { s with membufStream := s.membufStream.drop room } =
      s.remaining ser access values := rfl
  rcases h with hle | hnone
  · refine ⟨(List.take_append_of_le_length hle).symm, (List.drop_append_of_le_length hle).symm, rfl, hrange, rfl, ?_⟩
    intro hlt
    rw [List.length_take, Nat.min_eq_left hle] at hlt
    exact absurd hlt (Nat.lt_irrefl room)
  · have hzero : s.remaining ser access values = (0, []) := by
      unfold SerializationState.remaining
      rw [Option.isNone_iff_eq_none.mp hnone]
    refine ⟨?_, ?_, rfl, hrange, rfl, fun _ => congrArg Prod.fst hzero⟩
    all_goals
      unfold SerializationState.pending
      rw [hzero, List.append_nil]
    rw [hremaining, hzero, List.append_nil]

/-- **The loop of `write_notify_payload` ends**: it fails only where the output in one go fails, and takes the next
    bytes otherwise. -/
theorem fill_spec (access access' : Access σ) {values : List Batch} (room : Nat) {s : SerializationState γ}
    (hrange : s.InRange values) :
    (∃ chunk s', fill ser access values room s = some (.ok chunk, s') ∧ Taken ser access' values room s s' chunk) ∨
      ∃ code s', fill ser access values room s = some (.error code, s') ∧ (s.remaining ser access' values).1 ≠ 0 := by
  induction hn : s.entriesLeft values using Nat.strong_induction_on generalizing s room with
  | h n ih =>
  rw [fill]
  dsimp only
  by_cases hread : room ≤ s.membufStream.length ∨ s.outCtx.isNone = true
  · rw [if_pos hread]
    exact Or.inl ⟨_, _, rfl, taken_read ser hrange hread⟩
  rw [if_neg hread]
  obtain ⟨hroom, hctx⟩ := not_or.mp hread
  have hlength : s.membufStream.length ≤ room := Nat.le_of_not_le hroom
  have hdrop : s.membufStream.drop room = [] := List.drop_eq_nil_of_le hlength
  have htake : s.membufStream.take room = s.membufStream := List.take_of_length_le hlength
  obtain ⟨code, next, hnext⟩ := @serializeNext_isSome _ _ ser access values
    { s with membufStream := s.membufStream.drop room } hrange (Bool.eq_false_of_not_eq_true hctx)
  obtain ⟨hgood, hbad⟩ := serializeNext_remaining ser access' hnext
  split
  next hnone => rw [hnone] at hnext; cases hnext
  next code' next' hnext' =>
    obtain ⟨rfl, rfl⟩ := Prod.mk.inj (Option.some.inj (hnext'.symm.trans hnext))
    by_cases hcode : code' = 0
    swap
    · rw [dif_neg hcode]
      exact Or.inr ⟨_, _, rfl, hbad hcode⟩
    rw [dif_pos hcode]
    obtain ⟨hsame, hpending, hrange', hoffset⟩ := hgood hcode
    -- what is pending after the read is what remains to be serialised
    have hafter : next'.pending ser access' values = (s.remaining ser access' values).2 := by
      rw [hpending]
      unfold SerializationState.pending
      dsimp only
      rw [hdrop, List.nil_append]
      rfl
    have hlt : next'.entriesLeft values < n := by
      rw [← hn]
      exact serializeNext_lt ser (s := { s with membufStream := s.membufStream.drop room }) (hcode ▸ hnext)
    rw [htake]
    rcases ih _ hlt (room - s.membufStream.length) hrange' rfl with ⟨chunk, s', hfill, htaken⟩ | ⟨code, s', hfill, hne⟩
    · rw [hfill]
      refine Or.inl ⟨_, _, rfl, ⟨?_, ?_, htaken.code.trans hsame, htaken.inRange, htaken.offset.trans hoffset, ?_⟩⟩
      · rw [htaken.taken, hafter, SerializationState.pending, List.take_append, List.take_of_length_le hlength]
      · rw [htaken.pending, hafter, SerializationState.pending, List.drop_append, hdrop, List.nil_append]
      · intro hshort
        rw [List.length_append] at hshort
        exact hsame.symm.trans (htaken.short (by omega))
    · rw [hfill]
      exact Or.inr ⟨_, _, rfl, hsame ▸ hne⟩

end Serializing

/-- The chunks of a payload, by their sizes; `code` is that of the output in one go. -/
structure Chunks (payload : List UInt8) (code : Int) (sizes : List Nat) (chunks : List (List UInt8)) : Prop where
  length : chunks.length = sizes.length
  together : chunks.flatten = payload.take sizes.sum
  short : ∀ i chunk size, chunks[i]? = some chunk → sizes[i]? = some size → chunk.length < size →
    code = 0 ∧ (chunks.take (i + 1)).flatten = payload

theorem Chunks.cons {payload chunk : List UInt8} {code : Int} {size : Nat} {sizes : List Nat} {chunks : List (List UInt8)}
    (h : Chunks (payload.drop size) code sizes chunks) (hchunk : chunk = payload.take size)
    (hshort : chunk.length < size → code = 0) : Chunks payload code (size :: sizes) (chunk :: chunks) := by
  refine ⟨congrArg (· + 1) h.length, ?_, fun i piece n hpiece hn hlt => ?_⟩
  · rw [List.flatten_cons, List.sum_cons, h.together, hchunk, List.take_add]
  cases i with
  | zero =>
      obtain rfl : chunk = piece := Option.some.inj hpiece
      obtain rfl : size = n := Option.some.inj hn
      refine ⟨hshort hlt, ?_⟩
      rw [hchunk, List.length_take] at hlt
      show (chunk :: []).flatten = payload
      rw [List.flatten_cons, List.flatten_nil, List.append_nil, hchunk, List.take_of_length_le (by omega)]
  | succ i =>
      obtain ⟨hcode, hrest⟩ := h.short i piece n hpiece hn hlt
      refine ⟨hcode, ?_⟩
      rw [List.take_succ_cons, List.flatten_cons, hrest, hchunk, List.take_append_drop]

section Serializing

variable {γ σ : Type} (ser : Serializer γ)

/-- One call with the right offset. -/
theorem writeNotifyPayload_spec (access access' : Access σ) {values : List Batch} (size : Nat) {s : SerializationState γ}
    (hrange : s.InRange values) :
    (∃ chunk s', writeNotifyPayload ser access values s.expectedOffset size s = some (.ok chunk, s') ∧
      chunk = (s.pending ser access' values).take size ∧
      s'.pending ser access' values = (s.pending ser access' values).drop size ∧
      (s'.remaining ser access' values).1 = (s.remaining ser access' values).1 ∧ s'.InRange values ∧
      s'.expectedOffset = s.expectedOffset + chunk.length ∧
      (chunk.length < size → (s.remaining ser access' values).1 = 0)) ∨
    ∃ code s', writeNotifyPayload ser access values s.expectedOffset size s = some (.error code, s') ∧
      (s.remaining ser access' values).1 ≠ 0 := by
  unfold writeNotifyPayload
  rw [if_neg (not_not.mpr rfl)]
  rcases fill_spec ser access access' size hrange with ⟨chunk, s', hfill, h⟩ | ⟨code, s', hfill, hne⟩
  · rw [hfill]
    exact Or.inl ⟨chunk, _, rfl, h.taken, h.pending, h.code, h.inRange, congrArg (· + chunk.length) h.offset, h.short⟩
  · rw [hfill]
    exact Or.inr ⟨code, s', rfl, hne⟩

/-- **Successive calls**: they give the chunks of what is pending, unless the output in one go fails. -/
theorem writeChunks_spec (access' : Access σ) {values : List Batch} (requests : List (Request σ))
    {s : SerializationState γ} (hrange : s.InRange values) :
    (∃ chunks s', writeChunks ser values requests s.expectedOffset s = some (.ok chunks, s') ∧
      Chunks (s.pending ser access' values) (s.remaining ser access' values).1 (requests.map Request.size) chunks ∧
      s'.expectedOffset = s.expectedOffset + chunks.flatten.length) ∨
    ((s.remaining ser access' values).1 ≠ 0 ∧
      ∃ code s', writeChunks ser values requests s.expectedOffset s = some (.error code, s')) := by
  induction requests generalizing s with
  | nil => exact Or.inl ⟨[], s, rfl, ⟨rfl, rfl, fun i _ _ hnone => by cases hnone⟩, rfl⟩
  | cons request requests ih =>
      unfold writeChunks
      rcases writeNotifyPayload_spec ser request.access access' request.size hrange with
        ⟨chunk, s', hwrite, hchunk, hpending, hcode, hrange', hoffset, hshort⟩ | ⟨code, s', hwrite, hne⟩
      swap
      · rw [hwrite]
        exact Or.inr ⟨hne, code, s', rfl⟩
      rw [hwrite]
      dsimp only
      rw [← hoffset]
      rcases ih hrange' with ⟨chunks, s'', hrest, hchunks, hoffset'⟩ | ⟨hne, code, s'', hrest⟩
      · rw [hrest]
        rw [hpending, hcode] at hchunks
        refine Or.inl ⟨chunk :: chunks, s'', rfl, hchunks.cons hchunk hshort, ?_⟩
        rw [hoffset', hoffset, List.flatten_cons, List.length_append, Nat.add_assoc]
      · rw [hrest]
        exact Or.inr ⟨hcode ▸ hne, code, s'', rfl⟩

/-- **The chunks of a notification, put together, are what is serialised in one go**: successive calls give the bytes
    in order, a chunk is short only at the end of the payload, any other offset fails, and a call fails only where the
    output in one go fails. -/
theorem notify_payload (access' : Access σ) (values : ObservationValues) (opened : Called γ) (requests : List (Request σ)) :
    (∃ chunks s', writeChunks ser values.values requests 0 (initializeSerializationState opened) = some (.ok chunks, s') ∧
      Chunks (serializeInOneGo ser access' values opened).2 (serializeInOneGo ser access' values opened).1
        (requests.map Request.size) chunks ∧
      ∀ (access : Access σ) (offset size : Nat), offset ≠ chunks.flatten.length →
        writeNotifyPayload ser access values.values offset size s' = some (.error (-1), s')) ∨
    ((serializeInOneGo ser access' values opened).1 ≠ 0 ∧ ∃ code s',
      writeChunks ser values.values requests 0 (initializeSerializationState opened) = some (.error code, s')) := by
  have hrange : (initializeSerializationState opened).InRange values.values :=
    fun _ => List.length_pos_iff.mpr values.nonempty
  have hgo : (serializeInOneGo ser access' values opened).1 =
        ((initializeSerializationState opened).remaining ser access' values.values).1 ∧
      (serializeInOneGo ser access' values opened).2 =
        (initializeSerializationState opened).pending ser access' values.values := by
    unfold serializeInOneGo
    rw [outputAll_eq]
    exact ⟨rfl, rfl⟩
  rw [hgo.1, hgo.2]
  rcases writeChunks_spec ser access' requests hrange with ⟨chunks, s', hrun, hchunks, hoffset⟩ | herror
  · refine Or.inl ⟨chunks, s', hrun, hchunks, fun access offset size hne => if_pos ?_⟩
    rw [hoffset]
    show offset ≠ 0 + chunks.flatten.length
    rw [Nat.zero_add]
    exact hne
  · exact Or.inr herror

end Serializing

end Anjay.Observe.Payload
