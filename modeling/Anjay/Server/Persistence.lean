/-
  File:      Anjay/Server/Persistence.lean
  Subject:   Saving the Server Object to a stream and restoring it, from any of the three versions
             (`anjay_server_persistence.c`). Allocations succeed.

  * `serverObjectRestore_cases`: a restore fails and changes nothing, or it puts in the Instances of the stream,
    which then pass the validation.
  * `serverObjectPersist_restore`: what is persisted is restored.
-/
import Anjay.Server.Object
import Mathlib.Data.List.TakeWhile

namespace Anjay.Serv

open Dm Modules Lib Persistence

/-! ## 1. The handlers -/

/-- `server_persistence_version_t`. -/
inductive Version
  | v0
  | v1
  | v2
  deriving DecidableEq, Repr

/-- `MAGIC_V0`, `MAGIC_V1` and `MAGIC_V2`: "SRV" and the version. -/
def magicV0 : List UInt8 := [83, 82, 86, 0]
def magicV1 : List UInt8 := [83, 82, 86, 1]
def magicV2 : List UInt8 := [83, 82, 86, 2]

/-- `handle_legacy_sized_fields`, which only ever restores. -/
def legacySizedFields : List (Handler Instance) :=
  [onField Instance.iid (fun v e => { e with iid := v }) persistenceU16,
   onField Instance.hasSsid (fun v e => { e with hasSsid := v }) persistenceBool,
   onField Instance.hasBinding (fun v e => { e with hasBinding := v }) persistenceBool,
   onField Instance.hasLifetime (fun v e => { e with hasLifetime := v }) persistenceBool,
   onField Instance.hasNotificationStoring (fun v e => { e with hasNotificationStoring := v }) persistenceBool,
   onField Instance.ssid (fun v e => { e with ssid := v }) persistenceU16,
   onField Instance.lifetime (fun v e => { e with lifetime := v }) persistenceU32,
   onField Instance.defaultMinPeriod (fun v e => { e with defaultMinPeriod := v }) persistenceU32,
   onField Instance.defaultMaxPeriod (fun v e => { e with defaultMaxPeriod := v }) persistenceU32,
   onField Instance.disableTimeout (fun v e => { e with disableTimeout := v }) persistenceU32,
   onField Instance.notificationStoring (fun v e => { e with notificationStoring := v }) persistenceBool,
   onRestore fun e => { e with
     hasDefaultMinPeriod := decide (0 ≤ e.defaultMinPeriod.toInt)
     hasDefaultMaxPeriod := decide (0 ≤ e.defaultMaxPeriod.toInt)
     hasDisableTimeout := decide (0 ≤ e.disableTimeout.toInt)
     hasNotificationStoring := true }]

/-- The structure that `handle_lwm2m11_sized_fields` stores and restores in place of Resources that the
    Object does not have. -/
structure DummyElement where
  hasLastBootstrappedTimestamp : Bool
  lastBootstrappedTimestamp : BitVec 64
  hasLastAlert : Bool
  lastAlert : UInt8
  bootstrapOnRegistrationFailure : Bool
  hasServerCommunicationRetryCount : Bool
  serverCommunicationRetryCount : BitVec 32
  hasServerCommunicationRetryTimer : Bool
  serverCommunicationRetryTimer : BitVec 32
  hasServerCommunicationSequenceRetryCount : Bool
  serverCommunicationSequenceRetryCount : BitVec 32
  hasServerCommunicationSequenceDelayTimer : Bool
  serverCommunicationSequenceDelayTimer : BitVec 32
  preferredTransport : UInt8

/-- `dummy_element`. -/
def dummyElement : DummyElement := ⟨false, 0, false, 0, true, false, 0, false, 0, false, 0, false, 0, 0⟩

def lwm2m11SizedFields : List (Handler DummyElement) :=
  [onField DummyElement.hasLastAlert (fun v e => { e with hasLastAlert := v }) persistenceBool,
   onField DummyElement.lastAlert (fun v e => { e with lastAlert := v }) persistenceU8,
   onField DummyElement.hasLastBootstrappedTimestamp (fun v e => { e with hasLastBootstrappedTimestamp := v })
     persistenceBool,
   onField DummyElement.lastBootstrappedTimestamp (fun v e => { e with lastBootstrappedTimestamp := v })
     persistenceI64,
   onField DummyElement.bootstrapOnRegistrationFailure (fun v e => { e with bootstrapOnRegistrationFailure := v })
     persistenceBool,
   onField DummyElement.hasServerCommunicationRetryCount (fun v e => { e with hasServerCommunicationRetryCount := v })
     persistenceBool,
   onField DummyElement.serverCommunicationRetryCount (fun v e => { e with serverCommunicationRetryCount := v })
     persistenceU32,
   onField DummyElement.hasServerCommunicationRetryTimer (fun v e => { e with hasServerCommunicationRetryTimer := v })
     persistenceBool,
   onField DummyElement.serverCommunicationRetryTimer (fun v e => { e with serverCommunicationRetryTimer := v })
     persistenceU32,
   onField DummyElement.hasServerCommunicationSequenceRetryCount
     (fun v e => { e with hasServerCommunicationSequenceRetryCount := v }) persistenceBool,
   onField DummyElement.serverCommunicationSequenceRetryCount
     (fun v e => { e with serverCommunicationSequenceRetryCount := v }) persistenceU32,
   onField DummyElement.hasServerCommunicationSequenceDelayTimer
     (fun v e => { e with hasServerCommunicationSequenceDelayTimer := v }) persistenceBool,
   onField DummyElement.serverCommunicationSequenceDelayTimer
     (fun v e => { e with serverCommunicationSequenceDelayTimer := v }) persistenceU32,
   onField DummyElement.preferredTransport (fun v e => { e with preferredTransport := v }) persistenceU8,
   onField (fun _ => false) (fun _ e => e) persistenceBool]

/-- `handle_lwm2m11_sized_fields`. -/
def handleLwm2m11SizedFields : Handler Instance :=
  onField (fun _ => dummyElement) (fun _ e => e) (inTurn lwm2m11SizedFields)

/-- `handle_sized_fields`. -/
def sizedFields : List (Handler Instance) :=
  [onField Instance.iid (fun v e => { e with iid := v }) persistenceU16,
   onField Instance.hasSsid (fun v e => { e with hasSsid := v }) persistenceBool,
   onField Instance.hasBinding (fun v e => { e with hasBinding := v }) persistenceBool,
   onField Instance.hasLifetime (fun v e => { e with hasLifetime := v }) persistenceBool,
   onField Instance.hasDefaultMinPeriod (fun v e => { e with hasDefaultMinPeriod := v }) persistenceBool,
   onField Instance.hasDefaultMaxPeriod (fun v e => { e with hasDefaultMaxPeriod := v }) persistenceBool,
   onField Instance.hasDisableTimeout (fun v e => { e with hasDisableTimeout := v }) persistenceBool,
   onField Instance.hasNotificationStoring (fun v e => { e with hasNotificationStoring := v }) persistenceBool,
   onField Instance.ssid (fun v e => { e with ssid := v }) persistenceU16,
   onField Instance.lifetime (fun v e => { e with lifetime := v }) persistenceU32,
   onField Instance.defaultMinPeriod (fun v e => { e with defaultMinPeriod := v }) persistenceU32,
   onField Instance.defaultMaxPeriod (fun v e => { e with defaultMaxPeriod := v }) persistenceU32,
   onField Instance.disableTimeout (fun v e => { e with disableTimeout := v }) persistenceU32,
   onField Instance.notificationStoring (fun v e => { e with notificationStoring := v }) persistenceBool,
   handleLwm2m11SizedFields]

/-- What `handle_binding_mode` does to the Resource. -/
def persistenceBindingMode : Handler BindingMode := fun ctx binding => do
  let (ctx, binding) ← persistenceBytes ctx binding
  if binding.val.contains 0 = false ∨ bindingModeValid binding.val = false then .error (.errno .EBADMSG)
  else return (ctx, binding)

/-- `handle_binding_mode`. -/
def handleBindingMode : Handler Instance :=
  onField Instance.binding (fun v e => { e with binding := v }) persistenceBindingMode

/-- The strings for the numbers of the old versions: "", "U", "UQ", "S", "SQ", "US" and "UQS". -/
def legacyBindings : List (List UInt8) := [[], [85], [85, 81], [83], [83, 81], [85, 83], [85, 81, 83]]

/-- `restore_legacy_binding_mode`. -/
def restoreLegacyBindingMode : Handler Instance := fun ctx e => do
  let (ctx, binding) ← persistenceU32 ctx 0
  match legacyBindings[binding.toNat]? with
  | none => .error (.errno .EBADMSG)
  | some bytes => return (ctx, { e with binding := .ofBytes bytes })

/-- `server_instance_persistence_handler`. -/
def instanceHandler : Version → Handler Instance
  | .v0 => andThen (onRestore resetInstance) (inTurn (legacySizedFields ++ [restoreLegacyBindingMode]))
  | .v1 => andThen (onRestore resetInstance) (inTurn (legacySizedFields ++ [handleBindingMode]))
  | .v2 => andThen (onRestore resetInstance) (inTurn (sizedFields ++ [handleBindingMode]))

/-- `anjay_server_object_persist`: the bytes that are written, or the error; `failed` is the error of the
    stream, if it has one. -/
def serverObjectPersist (failed : Option Errno) (repr : ServerRepr) : Except AvsError (List UInt8) × ServerRepr :=
  match failed, persistenceList (zeroInstance 0) (instanceHandler .v2) (.store magicV2) repr.toPersist with
  | some err, _ => (.error (.errno err), repr)
  | none, .ok (.store written, _) => (.ok written, repr.clearModified)
  | none, .ok (.restore _, _) => (.error (.errno .EBADF), repr)
  | none, .error err => (.error err, repr)

/-- `check_magic_header`. -/
def checkMagicHeader (header : List UInt8) : Except AvsError Version :=
  if header = magicV0 then .ok .v0
  else if header = magicV1 then .ok .v1
  else if header = magicV2 then .ok .v2
  else .error (.errno .EBADMSG)

/-- What `anjay_server_object_restore` reads. -/
def readInstances (stream : List UInt8) : Except AvsError (List Instance) := do
  let (header, input) ← streamReadReliably magicV2.length stream
  let version ← checkMagicHeader header
  let (_, insts) ← persistenceList (zeroInstance 0) (instanceHandler version) (.restore input) []
  return insts

/-- `anjay_server_object_restore`. -/
def serverObjectRestore (stream : List UInt8) (repr : ServerRepr) : Except AvsError Unit × ServerRepr :=
  if repr.inTransaction then (.error (.errno .EBADF), repr)
  else
    match readInstances stream with
    | .error err => (.error err, repr)
    | .ok insts =>
        if objectValidate insts.length insts ≠ 0 then (.error (.errno .EBADMSG), repr)
        else (.ok (), (repr.setInstances insts).clearModified)

/-! ## 2. What a restore does -/

/-- The Instances that a stream holds. -/
def StreamHolds (stream : List UInt8) (insts : List Instance) : Prop := readInstances stream = .ok insts

theorem objectValidate_length {insts : List Instance} : objectValidate insts.length insts = 0 ↔ Valid insts := by
  rw [objectValidate_eq_zero_iff]
  exact and_iff_left (le_refl _)

/-- **A restore fails and changes nothing**, or it puts in the Instances of the stream, which pass. -/
theorem serverObjectRestore_cases (stream : List UInt8) (repr : ServerRepr) :
    (∃ err, serverObjectRestore stream repr = (.error err, repr)) ∨
    repr.inTransaction = false ∧ ∃ insts, StreamHolds stream insts ∧ Valid insts ∧
      serverObjectRestore stream repr = (.ok (), (repr.setInstances insts).clearModified) := by
  unfold serverObjectRestore
  split
  · exact Or.inl ⟨_, rfl⟩
  next htrans =>
  split
  next err _ => exact Or.inl ⟨err, rfl⟩
  next insts hread =>
  split
  · exact Or.inl ⟨_, rfl⟩
  next hvalid =>
  exact Or.inr ⟨Bool.eq_false_of_not_eq_true htrans, insts, hread, objectValidate_length.mp (not_not.mp hvalid), rfl⟩

/-- The ways persisting can go. -/
theorem serverObjectPersist_cases (failed : Option Errno) (repr : ServerRepr) :
    (∃ err, serverObjectPersist failed repr = (.error err, repr)) ∨
    failed = none ∧ ∃ bytes, serverObjectPersist failed repr = (.ok bytes, repr.clearModified) := by
  unfold serverObjectPersist
  split
  · exact Or.inl ⟨_, rfl⟩
  · exact Or.inr ⟨rfl, _, rfl⟩
  · exact Or.inl ⟨_, rfl⟩
  · exact Or.inl ⟨_, rfl⟩

/-! ## 3. What is persisted is restored -/

theorem transfers_dummyElement :
    ∃ bytes, Transfers (inTurn lwm2m11SizedFields) dummyElement dummyElement dummyElement dummyElement bytes := by
  refine Transfers.field (transfers_bool false _) rfl ?_
  refine Transfers.field (transfers_u8 0 _) rfl ?_
  refine Transfers.field (transfers_bool false _) rfl ?_
  refine Transfers.field (transfers_i64 0 _) rfl ?_
  refine Transfers.field (transfers_bool true _) rfl ?_
  refine Transfers.field (transfers_bool false _) rfl ?_
  refine Transfers.field (transfers_u32 0 _) rfl ?_
  refine Transfers.field (transfers_bool false _) rfl ?_
  refine Transfers.field (transfers_u32 0 _) rfl ?_
  refine Transfers.field (transfers_bool false _) rfl ?_
  refine Transfers.field (transfers_u32 0 _) rfl ?_
  refine Transfers.field (transfers_bool false _) rfl ?_
  refine Transfers.field (transfers_u32 0 _) rfl ?_
  refine Transfers.field (transfers_u8 0 _) rfl ?_
  refine Transfers.field (transfers_bool false _) rfl ?_
  exact ⟨[], transfers_nil _ _⟩

/-- A binding that is valid ends within its buffer. -/
theorem contains_of_bindingModeValid {binding : BindingMode} (h : bindingModeValid binding.val = true) :
    binding.val.contains 0 = true := by
  by_contra hnot
  have hmem : 0 ∉ binding.val := fun hin => hnot (List.contains_iff_mem.mpr hin)
  have hall : binding.val.takeWhile (fun b => decide (b ≠ 0)) = binding.val := by
    rw [List.takeWhile_eq_self_iff]
    exact fun b hb => decide_eq_true fun h0 => hmem (h0 ▸ hb)
  have hin : binding.val ∈ validBindings := by
    have hcontains : validBindings.contains (binding.val.takeWhile fun b => decide (b ≠ 0)) = true := h
    rw [hall] at hcontains
    exact List.contains_iff_mem.mp hcontains
  have hlong : ∀ l ∈ validBindings, l.length ≠ 8 := by decide
  exact hlong _ hin binding.property

theorem transfers_bindingMode {binding : BindingMode} (h : bindingModeValid binding.val = true) (new : BindingMode) :
    Transfers persistenceBindingMode binding binding new binding binding.val := by
  have hbytes := transfers_bytes binding new
  have hcheck : ¬ (binding.val.contains 0 = false ∨ bindingModeValid binding.val = false) := by
    rw [contains_of_bindingModeValid h, h]
    exact fun h => h.elim Bool.noConfusion Bool.noConfusion
  refine ⟨fun written => ?_, fun rest => ?_⟩
  · rw [persistenceBindingMode, hbytes.store]
    exact if_neg hcheck
  · rw [persistenceBindingMode, hbytes.restore]
    exact if_neg hcheck

theorem bindingModeValid_of_valid {inst : Instance} (h : validateInstance inst = 0) : bindingModeValid inst.binding.val = true := by
  unfold validateInstance at h
  iterate 9
    split at h
    · cases h
  split at h
  · cases h
  next hbinding => exact Bool.eq_true_of_not_eq_false hbinding

/-- **An Instance that passes is read as it was stored.** -/
theorem transfers_instance {inst : Instance} (hvalid : validateInstance inst = 0) :
    ∃ bytes, Transfers (instanceHandler .v2) inst inst (zeroInstance 0) inst bytes := by
  have hfields : ∃ bytes, Transfers (inTurn (sizedFields ++ [handleBindingMode])) inst inst (zeroInstance 0) inst bytes := by
    obtain ⟨dummy, hdummy⟩ := transfers_dummyElement
    refine Transfers.field (transfers_u16 inst.iid _) rfl ?_
    refine Transfers.field (transfers_bool inst.hasSsid _) rfl ?_
    refine Transfers.field (transfers_bool inst.hasBinding _) rfl ?_
    refine Transfers.field (transfers_bool inst.hasLifetime _) rfl ?_
    refine Transfers.field (transfers_bool inst.hasDefaultMinPeriod _) rfl ?_
    refine Transfers.field (transfers_bool inst.hasDefaultMaxPeriod _) rfl ?_
    refine Transfers.field (transfers_bool inst.hasDisableTimeout _) rfl ?_
    refine Transfers.field (transfers_bool inst.hasNotificationStoring _) rfl ?_
    refine Transfers.field (transfers_u16 inst.ssid _) rfl ?_
    refine Transfers.field (transfers_u32 inst.lifetime _) rfl ?_
    refine Transfers.field (transfers_u32 inst.defaultMinPeriod _) rfl ?_
    refine Transfers.field (transfers_u32 inst.defaultMaxPeriod _) rfl ?_
    refine Transfers.field (transfers_u32 inst.disableTimeout _) rfl ?_
    refine Transfers.field (transfers_bool inst.notificationStoring _) rfl ?_
    refine Transfers.field hdummy rfl ?_
    refine Transfers.field (transfers_bindingMode (bindingModeValid_of_valid hvalid) _) rfl ?_
    exact ⟨[], transfers_nil inst _⟩
  obtain ⟨bytes, hfields⟩ := hfields
  have hreset : Transfers (onRestore resetInstance) inst inst (zeroInstance 0) (zeroInstance 0) [] :=
    transfers_onRestore resetInstance inst (zeroInstance 0)
  exact ⟨_, hreset.andThen hfields⟩

theorem readInstances_magicV2 (input : List UInt8) : readInstances (magicV2 ++ input) =
    (persistenceList (zeroInstance 0) (instanceHandler .v2) (.restore input) []).map Prod.snd := by
  have hheader : streamReadReliably magicV2.length (magicV2 ++ input) = .ok (magicV2, input) :=
    streamReadReliably_append rfl input
  have hversion : checkMagicHeader magicV2 = .ok .v2 := rfl
  unfold readInstances
  rw [hheader]
  show (checkMagicHeader magicV2 >>= fun version => _) = _
  rw [hversion]
  show (persistenceList (zeroInstance 0) (instanceHandler .v2) (.restore input) [] >>= fun r => _) = _
  cases persistenceList (zeroInstance 0) (instanceHandler .v2) (.restore input) [] with
  | error err => rfl
  | ok r => rfl

/-- **What is persisted is restored.** -/
theorem serverObjectPersist_restore {repr : ServerRepr} (hvalid : Valid repr.toPersist)
    (hlength : repr.toPersist.length < 2 ^ 32) :
    ∃ bytes, serverObjectPersist none repr = (.ok bytes, repr.clearModified) ∧
      ∀ repr' : ServerRepr, repr'.inTransaction = false → serverObjectRestore bytes repr' =
        (.ok (), (repr'.setInstances repr.toPersist).clearModified) := by
  have hlist : ∃ as' bytes, Transfers (persistenceList (zeroInstance 0) (instanceHandler .v2)) repr.toPersist as' []
      (repr.toPersist.map id) bytes := by
    refine transfers_list (zeroInstance 0) (fun inst hinst => ?_) hlength
    obtain ⟨bytes, ht⟩ := transfers_instance (hvalid.instances inst hinst)
    exact ⟨inst, bytes, ht⟩
  obtain ⟨as', bytes, ht⟩ := hlist
  rw [List.map_id] at ht
  refine ⟨magicV2 ++ bytes, ?_, fun repr' hout => ?_⟩
  · unfold serverObjectPersist
    rw [ht.store]
  · have hread : readInstances (magicV2 ++ bytes) = .ok repr.toPersist := by
      have hrestore := ht.restore []
      rw [List.append_nil] at hrestore
      rw [readInstances_magicV2, hrestore]
      rfl
    unfold serverObjectRestore
    rw [hout, if_neg Bool.false_ne_true, hread]
    dsimp only
    rw [if_neg (not_not.mpr (objectValidate_length.mpr hvalid))]

end Anjay.Serv
