/-
  File:      Anjay/Security/Persistence.lean
  Subject:   Saving the Security Object to a stream and restoring it (`anjay_security_persistence.c`).
             Allocations succeed.

  * `securityObjectRestore_cases`: a restore fails and changes nothing, or it puts in the Instances of the
    stream, which then pass the validation.
  * `securityObjectPersist_restore`: what is persisted is restored, but for the SMS Resources.
-/
import Anjay.Security.Object
import Anjay.Commons.Persistence

namespace Anjay.Sec

open Dm Modules Lib Persistence

/-! ## 1. The handlers -/

/-- `MAGIC_V0`, which is "SEC\0", and `MAGIC_V1`. -/
def magicV0 : List UInt8 := [83, 69, 67, 0]
def magicV1 : List UInt8 := [83, 69, 67, 1]

/-- The cast of an enumeration to `uint16_t`. -/
def modeToU16 (mode : Int) : Fin 65536 := Fin.ofNat 65536 (mode % 65536).toNat

/-- `handle_sized_v0_fields`. -/
def sizedV0Fields : List (Handler Instance) :=
  [onField Instance.iid (fun v e => { e with iid := v }) persistenceU16,
   onField Instance.hasIsBootstrap (fun v e => { e with hasIsBootstrap := v }) persistenceBool,
   onField Instance.hasSecurityMode (fun v e => { e with hasSecurityMode := v }) persistenceBool,
   onField Instance.hasSsid (fun v e => { e with hasSsid := v }) persistenceBool,
   onField Instance.isBootstrap (fun v e => { e with isBootstrap := v }) persistenceBool,
   onField Instance.ssid (fun v e => { e with ssid := v }) persistenceU16,
   onField Instance.holdoffS (fun v e => { e with holdoffS := v }) persistenceU32,
   onField Instance.bsTimeoutS (fun v e => { e with bsTimeoutS := v }) persistenceU32]

/-- `handle_sized_v1_fields`. -/
def sizedV1Fields : List (Handler Instance) :=
  [onField Instance.hasSmsSecurityMode (fun v e => { e with hasSmsSecurityMode := v }) persistenceBool,
   onField Instance.hasSmsKeyParams (fun v e => { e with hasSmsKeyParams := v }) persistenceBool,
   onField Instance.hasSmsSecretKey (fun v e => { e with hasSmsSecretKey := v }) persistenceBool]

/-- What `handle_instance` does for every version. -/
def v0Fields : List (Handler Instance) :=
  sizedV0Fields ++
  [onField (fun e => modeToU16 e.securityMode) (fun v e => { e with securityMode := v.val }) persistenceU16,
   onField Instance.serverUri (fun v e => { e with serverUri := v }) persistenceString,
   onField Instance.publicCertOrPskIdentity (fun v e => { e with publicCertOrPskIdentity := v })
     persistenceSizedBuffer,
   onField Instance.privateCertOrPskKey (fun v e => { e with privateCertOrPskKey := v }) persistenceSizedBuffer,
   onField Instance.serverPublicKey (fun v e => { e with serverPublicKey := v }) persistenceSizedBuffer]

/-- What it does from version 1 on. -/
def v1Fields : List (Handler Instance) :=
  sizedV1Fields ++
  [onField (fun e => modeToU16 e.smsSecurityMode) (fun v e => { e with smsSecurityMode := v.val }) persistenceU16,
   onField Instance.smsKeyParams (fun v e => { e with smsKeyParams := v }) persistenceSizedBuffer,
   onField Instance.smsSecretKey (fun v e => { e with smsSecretKey := v }) persistenceSizedBuffer,
   onField Instance.smsNumber (fun v e => { e with smsNumber := v }) persistenceString]

/-- `handle_instance`. -/
def handleInstance (streamVersion : Nat) : Handler Instance :=
  inTurn (if 1 ≤ streamVersion then v0Fields ++ v1Fields else v0Fields)

/-- `anjay_security_object_persist`: the bytes that are written, or the error; `failed` is the error of the
    stream, if it has one. -/
def securityObjectPersist (failed : Option Errno) (repr : SecRepr) : Except AvsError (List UInt8) × SecRepr :=
  match failed, persistenceList (initInstance 0) (handleInstance 0) (.store magicV0) repr.toPersist with
  | some err, _ => (.error (.errno err), repr)
  | none, .ok (.store written, _) => (.ok written, repr.clearModified)
  | none, .ok (.restore _, _) => (.error (.errno .EBADF), repr)
  | none, .error err => (.error err, repr)

/-- The version that the header says. -/
def headerVersion (header : List UInt8) : Except AvsError Nat :=
  if header = magicV0 then .ok 0 else if header = magicV1 then .ok 1 else .error (.errno .EBADMSG)

/-- What `anjay_security_object_restore` reads. -/
def readInstances (stream : List UInt8) : Except AvsError (List Instance) := do
  let (header, input) ← streamReadReliably magicV0.length stream
  let version ← headerVersion header
  let (_, insts) ← persistenceList (initInstance 0) (handleInstance version) (.restore input) []
  return insts

/-- `anjay_security_object_restore`. -/
def securityObjectRestore (stream : List UInt8) (repr : SecRepr) : Except AvsError Unit × SecRepr :=
  if repr.inTransaction then (.error (.errno .EBADF), repr)
  else
    match readInstances stream with
    | .error err => (.error err, repr)
    | .ok insts =>
        if objectValidate insts.length insts ≠ 0 then (.error (.errno .EPROTO), repr)
        else (.ok (), (repr.setInstances insts).clearModified)

/-! ## 2. What a restore does -/

/-- The Instances that a stream holds. -/
def StreamHolds (stream : List UInt8) (insts : List Instance) : Prop := readInstances stream = .ok insts

theorem objectValidate_length {insts : List Instance} : objectValidate insts.length insts = 0 ↔ Valid insts := by
  rw [objectValidate_eq_zero_iff]
  exact and_iff_left (List.length_filter_le _ _)

/-- **A restore fails and changes nothing**, or it puts in the Instances of the stream, which pass. -/
theorem securityObjectRestore_cases (stream : List UInt8) (repr : SecRepr) :
    (∃ err, securityObjectRestore stream repr = (.error err, repr)) ∨
    repr.inTransaction = false ∧ ∃ insts, StreamHolds stream insts ∧ Valid insts ∧
      securityObjectRestore stream repr = (.ok (), (repr.setInstances insts).clearModified) := by
  unfold securityObjectRestore
  split
  · exact Or.inl ⟨_, rfl⟩
  next htrans =>
  split
  next err _ => exact Or.inl ⟨err, rfl⟩
  next insts hread =>
  split
  · exact Or.inl ⟨_, rfl⟩
  next hvalid =>
  exact Or.inr ⟨Bool.eq_false_of_not_eq_true htrans, insts, hread, objectValidate_length.mp (not_not.mp hvalid), rfl⟩

/-- The ways persisting can go. -/
theorem securityObjectPersist_cases (failed : Option Errno) (repr : SecRepr) :
    (∃ err, securityObjectPersist failed repr = (.error err, repr)) ∨
    failed = none ∧ ∃ bytes, securityObjectPersist failed repr = (.ok bytes, repr.clearModified) := by
  unfold securityObjectPersist
  split
  · exact Or.inl ⟨_, rfl⟩
  · exact Or.inr ⟨rfl, _, rfl⟩
  · exact Or.inl ⟨_, rfl⟩
  · exact Or.inl ⟨_, rfl⟩

/-! ## 3. What is persisted is restored -/

/-- All buffers are of a size that can be stored. -/
structure Instance.Storable (inst : Instance) : Prop where
  serverUri : stringSize inst.serverUri < 2 ^ 32
  publicCertOrPskIdentity : inst.publicCertOrPskIdentity.length < 2 ^ 32
  privateCertOrPskKey : inst.privateCertOrPskKey.length < 2 ^ 32
  serverPublicKey : inst.serverPublicKey.length < 2 ^ 32

/-- An Instance without the SMS Resources. -/
def Instance.withoutSms (inst : Instance) : Instance :=
  { inst with
    smsSecurityMode := 0, smsKeyParams := [], smsSecretKey := [], smsNumber := none
    hasSmsSecurityMode := false, hasSmsKeyParams := false, hasSmsSecretKey := false }

theorem modeToU16_of_valid {mode : Int} (h : validateSecurityMode mode = 0) : ((modeToU16 mode).val : Int) = mode := by
  unfold validateSecurityMode at h
  split at h
  next hmode => rcases hmode with rfl | rfl | rfl | rfl <;> rfl
  split at h
  · exact absurd h (by decide)
  · exact absurd h (by decide)

theorem securityMode_of_valid {inst : Instance} (h : validateInstance inst = 0) : validateSecurityMode inst.securityMode = 0 := by
  unfold validateInstance at h
  split at h
  · cases h
  iterate 3
    split at h
    · cases h
  split at h
  · cases h
  next hmode => exact not_not.mp hmode

/-- **An Instance that passes is read as it was stored**, but for the SMS Resources. -/
theorem transfers_instance {inst : Instance} (hvalid : validateInstance inst = 0) (h : inst.Storable) :
    ∃ bytes, Transfers (handleInstance 0) inst inst (initInstance 0) inst.withoutSms bytes := by
  have hmode : { inst with securityMode := ((modeToU16 inst.securityMode).val : Int) } = inst := by
    rw [modeToU16_of_valid (securityMode_of_valid hvalid)]
  have hview : { inst.withoutSms with securityMode := ((modeToU16 inst.securityMode).val : Int) } = inst.withoutSms := by
    rw [modeToU16_of_valid (securityMode_of_valid hvalid)]
    rfl
  have hfields : ∃ bytes, Transfers (inTurn v0Fields) inst inst (initInstance 0)
      { inst.withoutSms with securityMode := ((modeToU16 inst.securityMode).val : Int) } bytes := by
    refine Transfers.field (transfers_u16 inst.iid _) rfl ?_
    refine Transfers.field (transfers_bool inst.hasIsBootstrap _) rfl ?_
    refine Transfers.field (transfers_bool inst.hasSecurityMode _) rfl ?_
    refine Transfers.field (transfers_bool inst.hasSsid _) rfl ?_
    refine Transfers.field (transfers_bool inst.isBootstrap _) rfl ?_
    refine Transfers.field (transfers_u16 inst.ssid _) rfl ?_
    refine Transfers.field (transfers_u32 inst.holdoffS _) rfl ?_
    refine Transfers.field (transfers_u32 inst.bsTimeoutS _) rfl ?_
    refine Transfers.field (transfers_u16 (modeToU16 inst.securityMode) _) hmode ?_
    refine Transfers.field (transfers_string h.serverUri _) rfl ?_
    refine Transfers.field (transfers_sizedBuffer h.publicCertOrPskIdentity _) rfl ?_
    refine Transfers.field (transfers_sizedBuffer h.privateCertOrPskKey _) rfl ?_
    refine Transfers.field (transfers_sizedBuffer h.serverPublicKey _) rfl ?_
    exact ⟨[], transfers_nil inst _⟩
  rw [hview] at hfields
  exact hfields

theorem validateInstance_withoutSms {inst : Instance} (h : validateInstance inst = 0) : validateInstance inst.withoutSms = 0 := by
  obtain ⟨uri, huri⟩ : ∃ uri, inst.serverUri = some uri := by
    cases huri : inst.serverUri with
    | none =>
        unfold validateInstance at h
        rw [huri] at h
        cases h
    | some uri => exact ⟨uri, rfl⟩
  have hsame : inst.withoutSms.serverUri = some uri := huri
  unfold validateInstance at h ⊢
  rw [huri] at h
  rw [hsame]
  dsimp only at h
  dsimp only [Instance.withoutSms]
  iterate 6
    split at h
    · cases h
    rename_i hcheck
    refine (if_neg hcheck).trans ?_
    clear hcheck
  exact (if_neg fun h => Bool.noConfusion h.1).trans (if_neg fun h => Bool.noConfusion h.1)

theorem valid_withoutSms {insts : List Instance} (h : Valid insts) : Valid (insts.map Instance.withoutSms) := by
  have hregular : regular (insts.map Instance.withoutSms) = (regular insts).map Instance.withoutSms := by
    unfold regular
    rw [List.filter_map]
    rfl
  refine ⟨fun inst hinst => ?_, List.pairwise_map.mpr (h.bootstrap.imp fun hab => hab), ?_⟩
  · obtain ⟨old, hold, rfl⟩ := List.mem_map.mp hinst
    exact validateInstance_withoutSms (h.instances old hold)
  · rw [hregular, List.map_map]
    exact h.distinct

theorem readInstances_magicV0 (input : List UInt8) : readInstances (magicV0 ++ input) =
    (persistenceList (initInstance 0) (handleInstance 0) (.restore input) []).map Prod.snd := by
  have hheader : streamReadReliably magicV0.length (magicV0 ++ input) = .ok (magicV0, input) :=
    streamReadReliably_append rfl input
  have hversion : headerVersion magicV0 = .ok 0 := rfl
  unfold readInstances
  rw [hheader]
  show (headerVersion magicV0 >>= fun version => _) = _
  rw [hversion]
  show (persistenceList (initInstance 0) (handleInstance 0) (.restore input) [] >>= fun r => _) = _
  cases persistenceList (initInstance 0) (handleInstance 0) (.restore input) [] with
  | error err => rfl
  | ok r => rfl

/-- **What is persisted is restored**, but for the SMS Resources. -/
theorem securityObjectPersist_restore {repr : SecRepr} (hvalid : Valid repr.toPersist)
    (hstorable : ∀ inst ∈ repr.toPersist, inst.Storable) (hlength : repr.toPersist.length < 2 ^ 32) :
    ∃ bytes, securityObjectPersist none repr = (.ok bytes, repr.clearModified) ∧
      ∀ repr' : SecRepr, repr'.inTransaction = false → securityObjectRestore bytes repr' =
        (.ok (), (repr'.setInstances (repr.toPersist.map Instance.withoutSms)).clearModified) := by
  have hlist : ∃ as' bytes, Transfers (persistenceList (initInstance 0) (handleInstance 0)) repr.toPersist as' []
      (repr.toPersist.map Instance.withoutSms) bytes := by
    refine transfers_list (initInstance 0) (fun inst hinst => ?_) hlength
    obtain ⟨bytes, ht⟩ := transfers_instance (hvalid.instances inst hinst) (hstorable inst hinst)
    exact ⟨inst, bytes, ht⟩
  obtain ⟨as', bytes, ht⟩ := hlist
  refine ⟨magicV0 ++ bytes, ?_, fun repr' hout => ?_⟩
  · unfold securityObjectPersist
    rw [ht.store]
  · have hread : readInstances (magicV0 ++ bytes) = .ok (repr.toPersist.map Instance.withoutSms) := by
      have hrestore := ht.restore []
      rw [List.append_nil] at hrestore
      rw [readInstances_magicV0, hrestore]
      rfl
    unfold securityObjectRestore
    rw [hout, if_neg Bool.false_ne_true, hread]
    dsimp only
    rw [if_neg (not_not.mpr (objectValidate_length.mpr (valid_withoutSms hvalid)))]

end Anjay.Sec
