/-
  File:      Anjay/Security/Object.lean
  Subject:   The Security Object: its Instances, their validation, and what its handlers and its API do to them
             (`anjay_mod_security.c`, `anjay_security_transaction.c`, `anjay_security_utils.c`).

  * `objectValidate_eq_zero_iff`: what `_anjay_sec_object_validate` accepts; `Valid` lets any Short Server ID
    pass.
  * `addInstance_failed`: an Instance that is added and does not pass is taken out again.
-/
import Anjay.Modules.Repr
import Anjay.Downloader.Download

namespace Anjay.Sec

open Dm Modules Download

/-! ## 1. The state -/

/-- `sec_instance_t`. A buffer without data is an empty one, and all keys are data. -/
structure Instance where
  iid : Id
  serverUri : Option CString
  isBootstrap : Bool
  securityMode : Int
  publicCertOrPskIdentity : List UInt8
  privateCertOrPskKey : List UInt8
  serverPublicKey : List UInt8
  ssid : Id
  holdoffS : BitVec 32
  bsTimeoutS : BitVec 32
  smsSecurityMode : Int
  smsKeyParams : List UInt8
  smsSecretKey : List UInt8
  smsNumber : Option CString
  hasIsBootstrap : Bool
  hasSecurityMode : Bool
  hasSsid : Bool
  hasSmsSecurityMode : Bool
  hasSmsKeyParams : Bool
  hasSmsSecretKey : Bool
  deriving DecidableEq, Repr

/-- `sec_repr_t`. -/
abbrev SecRepr := ObjectRepr Instance

/-- `init_instance`. -/
def initInstance (iid : Id) : Instance :=
  ⟨iid, none, false, 0, [], [], [], 0, 0, 0, 0, [], [], none, false, false, false, false, false, false⟩

/-- `anjay_security_mode_t`. -/
def securityPsk : Int := 0
def securityRpk : Int := 1
def securityCertificate : Int := 2
def securityNosec : Int := 3
def securityEst : Int := 4

/-- `anjay_sms_security_mode_t`. -/
def smsSecurityDtlsPsk : Int := 1
def smsSecuritySecurePacket : Int := 2
def smsSecurityNosec : Int := 3

/-! ## 2. The schemes of URIs -/

/-- `anjay_transport_security_t`. -/
inductive TransportSecurity
  | undefined
  | nosec
  | encrypted
  deriving DecidableEq, Repr

/-- `anjay_transport_info_t`, without the type of the socket and the port. -/
structure SchemeInfo where
  transport : Transport
  uriScheme : List UInt8
  security : TransportSecurity
  deriving DecidableEq

/-- `TRANSPORTS`: "coap", "coaps", "coap+tcp" and "coaps+tcp". -/
def schemes : List SchemeInfo :=
  [⟨.udp, [99, 111, 97, 112], .nosec⟩,
   ⟨.udp, [99, 111, 97, 112, 115], .encrypted⟩,
   ⟨.tcp, [99, 111, 97, 112, 43, 116, 99, 112], .nosec⟩,
   ⟨.tcp, [99, 111, 97, 112, 115, 43, 116, 99, 112], .encrypted⟩]

/-- `toupper`. -/
def toUpper (b : UInt8) : UInt8 := if 97 ≤ b ∧ b ≤ 122 then b - 32 else b

/-- `_anjay_transport_info_by_uri_scheme`: the scheme, in any case, is followed by a colon or by nothing. -/
def schemeInfoByUri (uri : CString) : Option SchemeInfo :=
  schemes.find? fun info =>
    (uri.bytes.take info.uriScheme.length).map toUpper == info.uriScheme.map toUpper &&
      (match (uri.bytes.drop info.uriScheme.length).head? with
        | none => true
        | some b => b == 58)

/-! ## 3. Validation -/

/-- `_anjay_sec_validate_security_mode`. -/
def validateSecurityMode (mode : Int) : Int :=
  if mode = securityNosec ∨ mode = securityPsk ∨ mode = securityCertificate ∨ mode = securityEst then 0
  else if mode = securityRpk then errNotImplemented
  else errBadRequest

/-- `_anjay_sec_validate_sms_security_mode`. -/
def validateSmsSecurityMode (mode : Int) : Int :=
  if mode = smsSecurityDtlsPsk ∨ mode = smsSecurityNosec then 0
  else if mode = smsSecuritySecurePacket then errNotImplemented
  else errBadRequest

/-- `_anjay_sec_validate_short_server_id`. -/
def validateShortServerId (ssid : Int) : Int := if 0 < ssid ∧ ssid ≤ 65535 then 0 else -1

/-- `uri_protocol_matching`. -/
def uriProtocolMatching (mode : Int) (uri : CString) : Bool :=
  match schemeInfoByUri uri with
  | none => false
  | some info =>
      if info.security = .undefined then true
      else decide (info.security = .encrypted) == decide (mode ≠ securityNosec)

/-- `validate_instance`. -/
def validateInstance (it : Instance) : Int :=
  match it.serverUri with
  | none => -1
  | some uri =>
      if it.hasIsBootstrap = false then -1
      else if it.hasSecurityMode = false then -1
      else if it.isBootstrap = false ∧ it.hasSsid = false then -1
      else if validateSecurityMode it.securityMode ≠ 0 then -1
      else if uriProtocolMatching it.securityMode uri = false then -1
      else if it.securityMode ≠ securityNosec ∧ it.securityMode ≠ securityEst ∧
          (it.publicCertOrPskIdentity = [] ∨ it.privateCertOrPskKey = []) then -1
      else if it.hasSmsSecurityMode = true ∧ validateSmsSecurityMode it.smsSecurityMode ≠ 0 then -1
      else if it.hasSmsSecurityMode = true ∧ (it.smsSecurityMode = smsSecurityDtlsPsk ∨
          it.smsSecurityMode = smsSecuritySecurePacket) ∧ (it.smsKeyParams = [] ∨ it.smsSecretKey = []) then -1
      else 0

/-- `ssid_transport_pair_t`. -/
structure SsidTransportPair where
  ssid : Id
  transport : Transport
  deriving DecidableEq, Repr

/-- The numerical value of the enumeration constant. -/
def transportNumber : Transport → Int
  | .udp => 0
  | .tcp => 1

/-- `ssid_transport_pair_cmp`. -/
def ssidTransportPairCmp (a b : SsidTransportPair) : Int :=
  if a.ssid ≠ b.ssid then a.ssid.val - b.ssid.val else transportNumber a.transport - transportNumber b.transport

/-- The loop of `_anjay_sec_object_validate`: the pairs, the last one first, or the code that is returned;
    `mem` pairs can be allocated. -/
def validateInstances (mem : Nat) (bootstrapServerPresent : Bool) : List Instance →
    Except Int (List SsidTransportPair)
  | [] => .ok []
  | it :: insts =>
      if validateInstance it ≠ 0 then .error errBadRequest
      else if it.isBootstrap then
        if bootstrapServerPresent then .error errBadRequest else validateInstances mem true insts
      else
        match it.serverUri.bind schemeInfoByUri with
        | none => .error errInternal
        | some info =>
            if mem = 0 then .error errInternal
            else (validateInstances (mem - 1) bootstrapServerPresent insts).map (· ++ [⟨it.ssid, info.transport⟩])

/-- `AVS_LIST_SORT` of the pairs. -/
def sortPairs (pairs : List SsidTransportPair) : List SsidTransportPair :=
  pairs.insertionSort fun a b => ssidTransportPairCmp a b ≤ 0

/-- `_anjay_sec_object_validate`. -/
def objectValidate (mem : Nat) (insts : List Instance) : Int :=
  match validateInstances mem false insts with
  | .error code => code
  | .ok pairs => if hasDuplicate (sortPairs pairs) then errBadRequest else 0

/-! ## 4. Handlers -/

/-- `security_resource_t`. -/
inductive SecurityResource
  | lwm2mServerUri
  | bootstrapServer
  | securityMode
  | pkOrIdentity
  | serverPk
  | secretKey
  | smsSecurityMode
  | smsBindingKeyParams
  | smsBindingSecretKeys
  | serverSmsNumber
  | shortServerId
  | clientHoldOffTime
  | bootstrapTimeout
  deriving DecidableEq, Repr

/-- What the functions give that read from the input context: the value, or their code. -/
structure Input where
  i32 : Except Int (BitVec 32)
  bool : Except Int Bool
  string : Except Int CString
  bytes : Except Int (List UInt8)

/-- A value that is fetched, checked, and set with its flag. -/
def fetchChecked {α : Type} (value : Except Int α) (validate : α → Int) (set : α → Instance → Instance)
    (inst : Instance) : Int × Instance :=
  match value with
  | .error code => (code, inst)
  | .ok a => if validate a = 0 then (0, set a inst) else (validate a, inst)

/-- The functions that free the old value before they fetch the new one. -/
def fetchReplaced {α : Type} (value : Except Int α) (clear : Instance → Instance) (set : α → Instance → Instance)
    (inst : Instance) : Int × Instance :=
  match value with
  | .error code => (code, clear inst)
  | .ok a => (0, set a inst)

/-- The `switch` of `sec_write`. -/
def writeResource (rid : SecurityResource) (input : Input) (inst : Instance) : Int × Instance :=
  match rid with
  | .lwm2mServerUri => fetchReplaced input.string (fun inst => { inst with serverUri := none })
      (fun uri inst => { inst with serverUri := some uri }) inst
  | .bootstrapServer => fetchChecked input.bool (fun _ => 0)
      (fun b inst => { inst with isBootstrap := b, hasIsBootstrap := true }) inst
  | .securityMode => fetchChecked input.i32 (fun n => validateSecurityMode n.toInt)
      (fun n inst => { inst with securityMode := n.toInt, hasSecurityMode := true }) inst
  | .pkOrIdentity => fetchReplaced input.bytes (fun inst => { inst with publicCertOrPskIdentity := [] })
      (fun bytes inst => { inst with publicCertOrPskIdentity := bytes }) inst
  | .serverPk => fetchReplaced input.bytes (fun inst => { inst with serverPublicKey := [] })
      (fun bytes inst => { inst with serverPublicKey := bytes }) inst
  | .secretKey => fetchReplaced input.bytes (fun inst => { inst with privateCertOrPskKey := [] })
      (fun bytes inst => { inst with privateCertOrPskKey := bytes }) inst
  | .shortServerId => fetchChecked input.i32 (fun n => validateShortServerId n.toInt)
      (fun n inst => { inst with ssid := Fin.ofNat 65536 n.toInt.toNat, hasSsid := true }) inst
  | .clientHoldOffTime => fetchChecked input.i32 (fun _ => 0) (fun n inst => { inst with holdoffS := n }) inst
  | .bootstrapTimeout => fetchChecked input.i32 (fun _ => 0) (fun n inst => { inst with bsTimeoutS := n }) inst
  | .smsSecurityMode => fetchChecked input.i32 (fun n => validateSmsSecurityMode n.toInt)
      (fun n inst => { inst with smsSecurityMode := n.toInt, hasSmsSecurityMode := true }) inst
  | .smsBindingKeyParams => fetchReplaced input.bytes (fun inst => { inst with smsKeyParams := [] })
      (fun bytes inst => { inst with smsKeyParams := bytes, hasSmsKeyParams := true }) inst
  | .smsBindingSecretKeys => fetchReplaced input.bytes (fun inst => { inst with smsSecretKey := [] })
      (fun bytes inst => { inst with smsSecretKey := bytes, hasSmsSecretKey := true }) inst
  | .serverSmsNumber => fetchReplaced input.string (fun inst => { inst with smsNumber := none })
      (fun number inst => { inst with smsNumber := some number }) inst

/-- `sec_write`; no result where no Instance is found. -/
def secWrite (iid : Id) (rid : SecurityResource) (input : Input) (repr : SecRepr) : Option (Int × SecRepr) :=
  (findInstance Instance.iid iid repr.instances).map fun inst =>
    ((writeResource rid input inst).1, (repr.setInstances
      (modifyInstance Instance.iid iid (fun inst => (writeResource rid input inst).2) repr.instances)).markModified)

/-- `sec_instance_create`; `mem` says whether the list element can be allocated. -/
def secInstanceCreate (mem : Bool) (iid : Id) (repr : SecRepr) : Option (Int × SecRepr) :=
  if iid = idInvalid then none
  else if mem = false then some (errInternal, repr)
  else
    some (0, (repr.setInstances (insertInstance Instance.iid (initInstance iid) repr.instances)).markModified)

/-- `del_instance`, of `sec_instance_remove` too. -/
def deleteInstance (iid : Id) (repr : SecRepr) : Option (Int × SecRepr) :=
  (delInstance Instance.iid false iid repr.instances).map fun insts => (0, (repr.setInstances insts).markModified)

/-- `sec_instance_reset`. -/
def secInstanceReset (iid : Id) (repr : SecRepr) : Option (Int × SecRepr) :=
  (findInstance Instance.iid iid repr.instances).map fun _ =>
    (0, repr.setInstances (modifyInstance Instance.iid iid (fun _ => initInstance iid) repr.instances))

/-- The pointers of `sec_instance_t`. -/
inductive SecField
  | serverUri
  | publicCertOrPskIdentity
  | privateCertOrPskKey
  | serverPublicKey
  | smsKeyParams
  | smsSecretKey
  | smsNumber
  deriving DecidableEq, Repr

namespace SecField

/-- The order in which `_anjay_sec_clone_instance` replaces them. -/
def all : List SecField :=
  [serverUri, publicCertOrPskIdentity, privateCertOrPskKey, serverPublicKey, smsKeyParams, smsSecretKey, smsNumber]

def isString : SecField → Bool
  | serverUri | smsNumber => true
  | _ => false

/-- What comes behind a field in this order. -/
def after (f : SecField) : List SecField := (all.dropWhile (· ≠ f)).tail

end SecField

/-- Whether a field points to something. -/
def Instance.holds (inst : Instance) : SecField → Bool
  | .serverUri => inst.serverUri.isSome
  | .publicCertOrPskIdentity => !inst.publicCertOrPskIdentity.isEmpty
  | .privateCertOrPskKey => !inst.privateCertOrPskKey.isEmpty
  | .serverPublicKey => !inst.serverPublicKey.isEmpty
  | .smsKeyParams => !inst.smsKeyParams.isEmpty
  | .smsSecretKey => !inst.smsSecretKey.isEmpty
  | .smsNumber => inst.smsNumber.isSome

/-- What a field points to is freed; `junk` is what is read there from now on. -/
def Instance.freed (inst junk : Instance) : SecField → Instance
  | .serverUri => { inst with serverUri := junk.serverUri }
  | .publicCertOrPskIdentity => { inst with publicCertOrPskIdentity := junk.publicCertOrPskIdentity }
  | .privateCertOrPskKey => { inst with privateCertOrPskKey := junk.privateCertOrPskKey }
  | .serverPublicKey => { inst with serverPublicKey := junk.serverPublicKey }
  | .smsKeyParams => { inst with smsKeyParams := junk.smsKeyParams }
  | .smsSecretKey => { inst with smsSecretKey := junk.smsSecretKey }
  | .smsNumber => { inst with smsNumber := junk.smsNumber }

/-- What becomes of an Instance whose copy is destroyed after a field of it could not be copied: the copy starts as
    `*dest = *src`, and behind that field it still points to what the Instance holds. -/
def Instance.release (inst : Instance) (failed : SecField) (junk : Instance) : Instance :=
  (failed.after.filter inst.holds).foldl (fun released f => released.freed junk f) inst

/-- What becomes of the copy of one Instance: the list element cannot be allocated, or what a field of it points
    to, or all can. -/
inductive CloneAlloc
  | noElement
  | noField (failed : SecField) (junk : Instance)
  | all
  deriving DecidableEq, Repr

/-- `_anjay_sec_clone_instances`, from the `n`th Instance on: the copy, which is `none` if it is given up, and the
    Instances themselves; there is no result where an assertion fails. An Instance without a list element is left
    out. -/
def cloneInstances (alloc : Nat → CloneAlloc) : Nat → List Instance → Option (Option (List Instance) × List Instance)
  | _, [] => some (some [], [])
  | n, inst :: insts =>
      match alloc n with
      | .noElement => (cloneInstances alloc (n + 1) insts).map fun r => (r.1, inst :: r.2)
      | .noField failed junk =>
          if inst.serverUri.isNone then none else some (none, inst.release failed junk :: insts)
      | .all =>
          if inst.serverUri.isNone then none
          else (cloneInstances alloc (n + 1) insts).map fun r => (r.1.map (inst :: ·), inst :: r.2)

/-- `sec_transaction_begin`. -/
def secTransactionBegin (alloc : Nat → CloneAlloc) (repr : SecRepr) : Option (Int × SecRepr) :=
  match cloneInstances alloc 0 repr.instances with
  | none => none
  | some (cloned, live) => (repr.setInstances live).transactionBegin (cloned.getD [])

/-! ## 5. The API -/

/-- `anjay_security_instance_t`; of the two SMS keys it matters whether the pointer is set. -/
structure SecurityInstance where
  ssid : Id
  serverUri : Option CString
  bootstrapServer : Bool
  securityMode : Int
  clientHoldoffS : BitVec 32
  bootstrapTimeoutS : BitVec 32
  publicCertOrPskIdentity : List UInt8
  privateCertOrPskKey : List UInt8
  serverPublicKey : List UInt8
  smsSecurityMode : Int
  smsKeyParameters : Option (List UInt8)
  smsSecretKey : Option (List UInt8)
  serverSmsNumber : Option CString
  deriving DecidableEq, Repr

/-- The Instance that `add_instance` fills; the number is left out if it cannot be allocated. -/
def newInstance (numberMem : Bool) (inst : SecurityInstance) (iid : Id) : Instance where
  iid := iid
  serverUri := inst.serverUri
  isBootstrap := inst.bootstrapServer
  securityMode := inst.securityMode
  publicCertOrPskIdentity := inst.publicCertOrPskIdentity
  privateCertOrPskKey := inst.privateCertOrPskKey
  serverPublicKey := inst.serverPublicKey
  ssid := if inst.bootstrapServer then 0 else inst.ssid
  holdoffS := inst.clientHoldoffS
  bsTimeoutS := inst.bootstrapTimeoutS
  smsSecurityMode := inst.smsSecurityMode
  smsKeyParams := inst.smsKeyParameters.getD []
  smsSecretKey := inst.smsSecretKey.getD []
  smsNumber := if numberMem then inst.serverSmsNumber else none
  hasIsBootstrap := true
  hasSecurityMode := true
  hasSsid := !inst.bootstrapServer
  hasSmsSecurityMode := decide (validateSmsSecurityMode inst.smsSecurityMode = 0)
  hasSmsKeyParams := inst.smsKeyParameters.isSome
  hasSmsSecretKey := inst.smsSecretKey.isSome

/-- `add_instance`: the id and what the Object is then, if it succeeds; `mem` says whether what it needs can
    be allocated. -/
def addInstance (mem numberMem : Bool) (inst : SecurityInstance) (iid : Id) (repr : SecRepr) : Option (Id × SecRepr) :=
  match chooseIid Instance.iid iid repr.instances with
  | none => none
  | some iid =>
      if mem = false then none
      else
        some (iid, (repr.setInstances
          (insertInstance Instance.iid (newInstance numberMem inst iid) repr.instances)).markModified)

/-- `anjay_security_object_add_instance`; `pairMem` is for the validation. -/
def securityObjectAddInstance (mem numberMem : Bool) (pairMem : Nat) (inst : SecurityInstance) (iid : Id)
    (repr : SecRepr) : Option (Int × SecRepr) :=
  match addInstance mem numberMem inst iid repr with
  | none => some (-1, repr)
  | some (iid, added) =>
      if objectValidate pairMem added.instances = 0 then some (0, added)
      else
        (deleteInstance iid added).map fun deleted =>
          (objectValidate pairMem added.instances,
            if repr.modifiedSincePersist then deleted.2 else deleted.2.clearModified)

/-! ## 6. What passes the validation -/

/-- The Short Server ID and the transport of an Instance with a known scheme. -/
def Instance.pair (inst : Instance) : SsidTransportPair :=
  ⟨inst.ssid, ((inst.serverUri.bind schemeInfoByUri).map SchemeInfo.transport).getD .udp⟩

/-- The Instances that are no bootstrap servers. -/
def regular (insts : List Instance) : List Instance := insts.filter fun inst => !inst.isBootstrap

/-- What `_anjay_sec_object_validate` asks for. -/
structure Valid (insts : List Instance) : Prop where
  instances : ∀ inst ∈ insts, validateInstance inst = 0
  bootstrap : insts.Pairwise fun a b => ¬ (a.isBootstrap = true ∧ b.isBootstrap = true)
  distinct : ((regular insts).map Instance.pair).Nodup

/-- What a single Instance that passes has. -/
structure Instance.Configured (inst : Instance) : Prop where
  uri : ∃ uri info, inst.serverUri = some uri ∧ schemeInfoByUri uri = some info ∧
    (info.security = .encrypted ↔ inst.securityMode ≠ securityNosec)
  ssid : inst.isBootstrap = false → inst.hasSsid = true
  credentials : inst.securityMode ≠ securityNosec → inst.securityMode ≠ securityEst →
    inst.publicCertOrPskIdentity ≠ [] ∧ inst.privateCertOrPskKey ≠ []

/-- Every scheme that is known says whether it is a secure one. -/
theorem security_of_schemeInfoByUri {uri : CString} {info : SchemeInfo} (h : schemeInfoByUri uri = some info) :
    info.security ≠ .undefined := by
  have hin := List.mem_of_find?_eq_some h
  have hall : ∀ info ∈ schemes, info.security ≠ .undefined := by decide
  exact hall info hin

theorem configured_of_validateInstance {inst : Instance} (h : validateInstance inst = 0) : inst.Configured := by
  unfold validateInstance at h
  split at h
  · cases h
  next uri huri =>
  iterate 2
    split at h
    · cases h
  split at h
  · cases h
  next hssid =>
  split at h
  · cases h
  split at h
  · cases h
  next hmatch =>
  split at h
  · cases h
  next hcred =>
  refine ⟨?_, fun hb => Bool.eq_true_of_not_eq_false fun hs => hssid ⟨hb, hs⟩, fun hnosec hest => ?_⟩
  · unfold uriProtocolMatching at hmatch
    split at hmatch
    · exact absurd rfl hmatch
    next info hinfo =>
    rw [if_neg (security_of_schemeInfoByUri hinfo)] at hmatch
    refine ⟨uri, info, huri, hinfo, ?_⟩
    have heq := eq_of_beq (Bool.eq_true_of_not_eq_false hmatch)
    exact decide_eq_decide.mp heq
  · exact ⟨fun hpk => hcred ⟨hnosec, hest, Or.inl hpk⟩, fun hsk => hcred ⟨hnosec, hest, Or.inr hsk⟩⟩

/-- The pairs that are collected, where the loop ends well. -/
theorem validateInstances_eq_ok {mem : Nat} {present : Bool} {insts : List Instance} {pairs : List SsidTransportPair} :
    validateInstances mem present insts = .ok pairs ↔
      (∀ inst ∈ insts, validateInstance inst = 0) ∧
      insts.Pairwise (fun a b => ¬ (a.isBootstrap = true ∧ b.isBootstrap = true)) ∧
      (present = true → ∀ inst ∈ insts, inst.isBootstrap = false) ∧
      (regular insts).length ≤ mem ∧ pairs = ((regular insts).map Instance.pair).reverse := by
  induction insts generalizing mem present pairs with
  | nil =>
      unfold validateInstances
      constructor
      · intro h
        rw [← Except.ok.inj h]
        exact ⟨fun _ hin => absurd hin List.not_mem_nil, List.Pairwise.nil, fun _ _ hin => absurd hin List.not_mem_nil,
          Nat.zero_le mem, rfl⟩
      · rintro ⟨-, -, -, -, rfl⟩
        rfl
  | cons it insts ih =>
      unfold validateInstances
      by_cases hvalid : validateInstance it = 0
      swap
      · rw [if_pos hvalid]
        exact ⟨nofun, fun h => absurd (h.1 it List.mem_cons_self) hvalid⟩
      rw [if_neg (not_not.mpr hvalid), List.forall_mem_cons, List.pairwise_cons, List.forall_mem_cons]
      cases hboot : it.isBootstrap with
      | true =>
          have hregular : regular (it :: insts) = regular insts :=
            List.filter_cons_of_neg (by rw [hboot]; exact Bool.false_ne_true)
          rw [hregular, if_pos rfl]
          cases present with
          | true =>
              rw [if_pos rfl]
              exact ⟨nofun, fun h => absurd (h.2.2.1 rfl).1 Bool.noConfusion⟩
          | false =>
              rw [if_neg Bool.false_ne_true, ih]
              constructor
              · rintro ⟨hall, hpair, hpresent, hmem, hpairs⟩
                refine ⟨⟨hvalid, hall⟩, ⟨fun b hb h => ?_, hpair⟩, nofun, hmem, hpairs⟩
                rw [hpresent rfl b hb] at h
                cases h.2
              · rintro ⟨⟨-, hall⟩, ⟨hfirst, hpair⟩, -, hmem, hpairs⟩
                exact ⟨hall, hpair, fun _ b hb => Bool.eq_false_of_not_eq_true fun h => hfirst b hb ⟨rfl, h⟩,
                  hmem, hpairs⟩
      | false =>
          have hregular : regular (it :: insts) = it :: regular insts :=
            List.filter_cons_of_pos (by rw [hboot]; rfl)
          obtain ⟨uri, info, huri, hinfo, -⟩ := (configured_of_validateInstance hvalid).uri
          have hscheme : it.serverUri.bind schemeInfoByUri = some info := by rw [huri]; exact hinfo
          have hpairOf : it.pair = ⟨it.ssid, info.transport⟩ := by
            unfold Instance.pair
            rw [hscheme]
            rfl
          rw [hregular, if_neg Bool.false_ne_true, hscheme, List.map_cons, List.reverse_cons, List.length_cons, hpairOf]
          dsimp only
          cases mem with
          | zero =>
              rw [if_pos rfl]
              exact ⟨nofun, fun h => absurd h.2.2.2.1 (Nat.not_succ_le_zero _)⟩
          | succ mem =>
              rw [if_neg (Nat.succ_ne_zero mem), Nat.add_sub_cancel]
              constructor
              · intro h
                cases hrest : validateInstances mem present insts with
                | error code => rw [hrest] at h; cases h
                | ok rest =>
                    rw [hrest] at h
                    obtain ⟨hall, hpair, hpresent, hmem, rfl⟩ := ih.mp hrest
                    refine ⟨⟨hvalid, hall⟩, ⟨fun _ _ h => Bool.noConfusion h.1, hpair⟩, fun hp => ⟨rfl, hpresent hp⟩,
                      Nat.succ_le_succ hmem, (Except.ok.inj h).symm⟩
              · rintro ⟨⟨-, hall⟩, ⟨-, hpair⟩, hpresent, hmem, rfl⟩
                rw [ih.mpr ⟨hall, hpair, fun hp => (hpresent hp).2, Nat.le_of_succ_le_succ hmem, rfl⟩]
                rfl

/-- The order of the pairs as that of numbers. -/
def SsidTransportPair.key (p : SsidTransportPair) : Int := 2 * p.ssid.val + transportNumber p.transport

theorem SsidTransportPair.key_injective : Function.Injective SsidTransportPair.key := by
  rintro ⟨ssid, t⟩ ⟨ssid', t'⟩ h
  have ht : 0 ≤ transportNumber t ∧ transportNumber t ≤ 1 := by cases t <;> decide
  have ht' : 0 ≤ transportNumber t' ∧ transportNumber t' ≤ 1 := by cases t' <;> decide
  have h' : 2 * (ssid.val : Int) + transportNumber t = 2 * ssid'.val + transportNumber t' := h
  have hssid : ssid = ssid' := Fin.ext (by omega)
  have htransport : transportNumber t = transportNumber t' := by omega
  have : t = t' := by cases t <;> cases t' <;> first | rfl | cases htransport
  rw [hssid, this]

theorem cmp_le_zero_iff (a b : SsidTransportPair) : ssidTransportPairCmp a b ≤ 0 ↔ a.key ≤ b.key := by
  have ha : 0 ≤ transportNumber a.transport ∧ transportNumber a.transport ≤ 1 := by cases a.transport <;> decide
  have hb : 0 ≤ transportNumber b.transport ∧ transportNumber b.transport ≤ 1 := by cases b.transport <;> decide
  unfold ssidTransportPairCmp SsidTransportPair.key
  split
  next hne =>
    have : a.ssid.val ≠ b.ssid.val := fun h => hne (Fin.ext h)
    omega
  next heq =>
    rw [not_not.mp heq]
    omega

theorem sortPairs_nodup (pairs : List SsidTransportPair) : hasDuplicate (sortPairs pairs) = false ↔ pairs.Nodup := by
  have hsorted : (sortPairs pairs).Pairwise fun a b => ssidTransportPairCmp a b ≤ 0 := by
    have htotal : ∀ a b : SsidTransportPair, ssidTransportPairCmp a b ≤ 0 ∨ ssidTransportPairCmp b a ≤ 0 := by
      intro a b
      rw [cmp_le_zero_iff, cmp_le_zero_iff]
      exact le_total _ _
    have htrans : ∀ a b c : SsidTransportPair, ssidTransportPairCmp a b ≤ 0 → ssidTransportPairCmp b c ≤ 0 →
        ssidTransportPairCmp a c ≤ 0 := by
      intro a b c
      rw [cmp_le_zero_iff, cmp_le_zero_iff, cmp_le_zero_iff]
      exact le_trans
    have : Std.Total fun a b : SsidTransportPair => ssidTransportPairCmp a b ≤ 0 := ⟨htotal⟩
    have : IsTrans SsidTransportPair fun a b => ssidTransportPairCmp a b ≤ 0 := ⟨htrans⟩
    exact List.pairwise_insertionSort _ pairs
  rw [not_hasDuplicate_iff SsidTransportPair.key_injective (hsorted.imp fun h => (cmp_le_zero_iff _ _).mp h)]
  exact (List.perm_insertionSort _ pairs).nodup_iff

/-- **What the validation of the Object accepts**, where there is memory for the pairs. -/
theorem objectValidate_eq_zero_iff {mem : Nat} {insts : List Instance} :
    objectValidate mem insts = 0 ↔ Valid insts ∧ (regular insts).length ≤ mem := by
  unfold objectValidate
  cases hloop : validateInstances mem false insts with
  | error code =>
      have hcode : ∀ {mem : Nat} {present : Bool} {insts : List Instance}, validateInstances mem present insts = .error code →
          code ≠ 0 := by
        intro mem present insts
        induction insts generalizing mem present with
        | nil => exact nofun
        | cons it insts ih =>
            intro h
            unfold validateInstances at h
            split at h
            · cases h; decide
            split at h
            · split at h
              · cases h; decide
              · exact ih h
            split at h
            · cases h; decide
            split at h
            · cases h; decide
            · cases hrest : validateInstances (mem - 1) present insts with
              | error code' =>
                  rw [hrest] at h
                  cases h
                  exact ih hrest
              | ok rest => rw [hrest] at h; cases h
      refine ⟨fun h => absurd h (hcode hloop), fun ⟨hvalid, hmem⟩ => ?_⟩
      have hok := validateInstances_eq_ok.mpr
        ⟨hvalid.instances, hvalid.bootstrap, fun h => absurd h Bool.false_ne_true, hmem, rfl⟩
      exact nomatch hloop.symm.trans hok
  | ok pairs =>
      obtain ⟨hall, hpair, -, hmem, rfl⟩ := validateInstances_eq_ok.mp hloop
      dsimp only
      split
      next hdup =>
        refine ⟨fun h => absurd h (by decide), fun ⟨hvalid, _⟩ => ?_⟩
        rw [(sortPairs_nodup _).mpr (List.nodup_reverse.mpr hvalid.distinct)] at hdup
        cases hdup
      next hdup =>
        refine ⟨fun _ => ⟨⟨hall, hpair, ?_⟩, hmem⟩, fun _ => rfl⟩
        exact List.nodup_reverse.mp ((sortPairs_nodup _).mp (Bool.eq_false_of_not_eq_true hdup))

/-- An Instance that has been reset does not pass. -/
theorem validateInstance_initInstance (iid : Id) : validateInstance (initInstance iid) ≠ 0 := by
  show (-1 : Int) ≠ 0
  decide

/-! ## 7. Adding Instances -/

/-- **An Instance that is added and does not pass is taken out again**, and nothing else is changed. -/
theorem securityObjectAddInstance_cases {mem numberMem : Bool} {pairMem : Nat} {inst : SecurityInstance} {iid : Id}
    {repr : SecRepr} {r : Int × SecRepr} (hfree : iid = idInvalid → SomeFree Instance.iid repr.instances)
    (h : securityObjectAddInstance mem numberMem pairMem inst iid repr = some r) :
    r.2 = repr ∨ ∃ new, r.1 = 0 ∧ new = newInstance numberMem inst new.iid ∧
      r.2 = (repr.setInstances (insertInstance Instance.iid new repr.instances)).markModified ∧
      objectValidate pairMem r.2.instances = 0 := by
  unfold securityObjectAddInstance addInstance at h
  cases hiid : chooseIid Instance.iid iid repr.instances with
  | none =>
      rw [hiid] at h
      cases h
      exact Or.inl rfl
  | some k =>
      rw [hiid] at h
      cases mem with
      | false =>
          cases h
          exact Or.inl rfl
      | true =>
          dsimp only at h
          rw [if_neg Bool.noConfusion] at h
          dsimp only at h
          split at h
          next hvalid =>
            cases h
            exact Or.inr ⟨_, rfl, rfl, rfl, hvalid⟩
          · obtain ⟨deleted, hdel, rfl⟩ := Option.map_eq_some_iff.mp h
            obtain ⟨insts, hinsts, rfl⟩ := Option.map_eq_some_iff.mp hdel
            have hback : delInstance Instance.iid false k (insertInstance Instance.iid (newInstance numberMem inst k)
                repr.instances) = some repr.instances :=
                  delInstance_insertInstance false (newInstance numberMem inst k) (chooseIid_spec hfree hiid)
            exact Or.inl (ObjectRepr.taken_back (Option.some.inj (hinsts.symm.trans hback)))

end Anjay.Sec
