/-
  File:      Anjay/Modules/ReadBack.lean
  Subject:   What is read of the Security and the Server Object after what was written to them, over a transaction
             (`serv_read`, `serv_write`, `sec_read`, `sec_write` and the functions of the transactions).

  * `Serv.exact_iff`, `Sec.exact`: when a value that is accepted, validated and committed is read back.
  * `Serv.restores`, `Sec.restores_iff`: when a rollback brings back what was there.
  * `Sec.requested_read`: the same for what a TLV entry holds, as it is fetched.
  * `write_read_iff`: both together; `ssid_not_exact`: the Short Server ID 65537 is accepted and read as 1.
-/
import Anjay.Io.Fetch
import Anjay.Security.Runs
import Anjay.Server.Runs

namespace Anjay

open Dm Modules Lib Persistence

/-! ## 1. Values -/

/-- A value that a Resource can have. -/
inductive Modules.Value
  | i32 (n : BitVec 32)
  | bool (b : Bool)
  | string (s : CString)
  | bytes (bytes : List UInt8)
  deriving DecidableEq, Repr

theorem Modules.carried_some {α : Type} {fetched : Except Int α} {f : α → Value} {value : Value}
    (h : fetched.toOption.map f = some value) : ∃ a, fetched = .ok a ∧ value = f a := by
  cases fetched with
  | error code => cases h
  | ok a => exact ⟨a, rfl, (Option.some.inj h).symm⟩

theorem Modules.ObjectRepr.commit_instances {ι : Type} {repr : ObjectRepr ι} {r : Int × ObjectRepr ι}
    (h : repr.transactionCommit = some r) : r.2.instances = repr.instances := by
  unfold ObjectRepr.transactionCommit at h
  split at h
  · rw [← Option.some.inj h]
  · cases h

theorem Modules.ObjectRepr.rollback_instances {ι : Type} {repr : ObjectRepr ι} {r : Int × ObjectRepr ι}
    (h : repr.transactionRollback = some r) : r.2.instances = repr.savedInstances := by
  unfold ObjectRepr.transactionRollback at h
  split at h
  · rw [← Option.some.inj h]
  · cases h

/-! ## 2. The Server Object -/

namespace Serv

/-- The value that the input context carries for a Resource. -/
def Input.carried (input : Input) : ServerRid → Option Value
  | .ssid | .lifetime | .defaultMinPeriod | .defaultMaxPeriod | .disableTimeout => input.i32.toOption.map .i32
  | .notificationStoring => input.bool.toOption.map .bool
  | .binding => if input.string.1 = 0 then some (.string (.ofBytes input.string.2.val)) else none
  | .disable | .registrationUpdateTrigger => none

/-- The `switch` of `serv_read`; there is no result for the Resources that are executed. -/
def readResource (inst : Instance) : ServerRid → Option Value
  | .ssid => some (.i32 (BitVec.ofNat 32 inst.ssid.val))
  | .lifetime => some (.i32 inst.lifetime)
  | .defaultMinPeriod => some (.i32 inst.defaultMinPeriod)
  | .defaultMaxPeriod => some (.i32 inst.defaultMaxPeriod)
  | .disableTimeout => some (.i32 inst.disableTimeout)
  | .notificationStoring => some (.bool inst.notificationStoring)
  | .binding => some (.string (.ofBytes inst.binding.val))
  | .disable | .registrationUpdateTrigger => none

/-- `serv_read`; no result where no Instance is found. -/
def servRead (iid : Id) (rid : ServerRid) (repr : ServerRepr) : Option Value :=
  (findInstance Instance.iid iid repr.instances).bind fun inst => readResource inst rid

/-- The states after some events. -/
def performAll (events : List Event) (repr : ServerRepr) : Option ServerRepr :=
  events.foldlM (fun repr event => perform event repr) repr

/-- What may come after a write in the same transaction, if it leaves the Resource alone. -/
def Event.LeavesAlone (iid : Id) (rid : ServerRid) : Event → Prop
  | .create _ iid' | .remove iid' | .reset iid' => iid' ≠ iid
  | .write iid' rid' _ => iid' ≠ iid ∨ rid' ≠ rid
  | _ => False

/-- What may come in a transaction. -/
def Event.Inner : Event → Prop
  | .create _ _ | .remove _ | .reset _ | .write _ _ _ => True
  | _ => False

/-- **A value that is accepted, and that is committed after the validation, is read back**, whatever else the
    transaction writes. -/
def Exact (rid : ServerRid) (input : Input) : Prop :=
  ∀ (iid : Id) (repr written later committed : ServerRepr) (events : List Event) (mem : Nat) (value : Value),
    input.carried rid = some value → servWrite iid rid input repr = some (0, written) →
    (∀ event ∈ events, event.LeavesAlone iid rid) →
    performAll events written = some later → objectValidate mem later.instances = 0 →
    later.transactionCommit = some (0, committed) →
    servRead iid rid committed = some value

/-- **A rollback brings back the Instances**, whatever the transaction has done. -/
def Restores (mem : Bool) : Prop :=
  ∀ (repr begun later restored : ServerRepr) (events : List Event), servTransactionBegin mem repr = some (0, begun) →
    (∀ event ∈ events, event.Inner) → performAll events begun = some later →
    later.transactionRollback = some (0, restored) → restored.instances = repr.instances

/-- A Short Server ID that does not fit in 16 bits, while what is left of it in them is one that is valid. -/
def Narrowed (rid : ServerRid) (input : Input) : Prop :=
  rid = .ssid ∧ ∃ n, input.i32 = .ok n ∧ ¬(0 ≤ n.toInt ∧ n.toInt ≤ 65535) ∧ 1 ≤ n.toInt % 65536 ∧ n.toInt % 65536 ≤ 65534

end Serv

/-! ## 3. The Security Object -/

namespace Sec

/-- The value that the input context carries for a Resource. -/
def Input.carried (input : Input) : SecurityResource → Option Value
  | .lwm2mServerUri | .serverSmsNumber => input.string.toOption.map .string
  | .bootstrapServer => input.bool.toOption.map .bool
  | .securityMode | .shortServerId | .clientHoldOffTime | .bootstrapTimeout | .smsSecurityMode =>
      input.i32.toOption.map .i32
  | .pkOrIdentity | .serverPk | .secretKey | .smsBindingKeyParams | .smsBindingSecretKeys =>
      input.bytes.toOption.map .bytes

/-- The `switch` of `sec_read`; there is no result where a string is a null pointer. -/
def readResource (inst : Instance) : SecurityResource → Option Value
  | .lwm2mServerUri => inst.serverUri.map .string
  | .bootstrapServer => some (.bool inst.isBootstrap)
  | .securityMode => some (.i32 (BitVec.ofInt 32 inst.securityMode))
  | .serverPk => some (.bytes inst.serverPublicKey)
  | .pkOrIdentity => some (.bytes inst.publicCertOrPskIdentity)
  | .secretKey => some (.bytes inst.privateCertOrPskKey)
  | .shortServerId => some (.i32 (BitVec.ofNat 32 inst.ssid.val))
  | .clientHoldOffTime => some (.i32 inst.holdoffS)
  | .bootstrapTimeout => some (.i32 inst.bsTimeoutS)
  | .smsSecurityMode => some (.i32 (BitVec.ofInt 32 inst.smsSecurityMode))
  | .smsBindingKeyParams => some (.bytes inst.smsKeyParams)
  | .smsBindingSecretKeys => some (.bytes inst.smsSecretKey)
  | .serverSmsNumber => inst.smsNumber.map .string

/-- `sec_read`; no result where no Instance is found. -/
def secRead (iid : Id) (rid : SecurityResource) (repr : SecRepr) : Option Value :=
  (findInstance Instance.iid iid repr.instances).bind fun inst => readResource inst rid

/-- The states after some events. -/
def performAll (events : List Event) (repr : SecRepr) : Option SecRepr :=
  events.foldlM (fun repr event => perform event repr) repr

/-- What may come after a write in the same transaction, if it leaves the Resource alone. -/
def Event.LeavesAlone (iid : Id) (rid : SecurityResource) : Event → Prop
  | .create _ iid' | .remove iid' | .reset iid' => iid' ≠ iid
  | .write iid' rid' _ => iid' ≠ iid ∨ rid' ≠ rid
  | _ => False

/-- What may come in a transaction. -/
def Event.Inner : Event → Prop
  | .create _ _ | .remove _ | .reset _ | .write _ _ _ => True
  | _ => False

/-- **A value that is accepted, and that is committed after the validation, is read back**, whatever else the
    transaction writes. -/
def Exact (rid : SecurityResource) (input : Input) : Prop :=
  ∀ (iid : Id) (repr written later committed : SecRepr) (events : List Event) (mem : Nat) (value : Value),
    input.carried rid = some value → secWrite iid rid input repr = some (0, written) →
    (∀ event ∈ events, event.LeavesAlone iid rid) →
    performAll events written = some later → objectValidate mem later.instances = 0 →
    later.transactionCommit = some (0, committed) →
    secRead iid rid committed = some value

/-- **A rollback brings back the Instances**, of which there are `count`, whatever the transaction has done. -/
def Restores (alloc : Nat → CloneAlloc) (count : Nat) : Prop :=
  ∀ (repr begun later restored : SecRepr) (events : List Event), repr.instances.length = count →
    secTransactionBegin alloc repr = some (0, begun) → (∀ event ∈ events, event.Inner) →
    performAll events begun = some later → later.transactionRollback = some (0, restored) →
    restored.instances = repr.instances

end Sec

/-! ## 4. Writes of the Server Object -/

namespace Serv

/-- What a fetch does not set is read as before. -/
theorem fetch_keeps {α β : Type} {value : Except Int α} {set : α → Instance → Instance} {inst : Instance}
    (read : Instance → β) (hset : ∀ a, read (set a inst) = read inst) : read (fetch value set inst).2 = read inst := by
  unfold fetch
  split
  · rfl
  · exact hset _

theorem fetchValidatedI32_keeps {β : Type} {value : Except Int (BitVec 32)} {minValue : Int}
    {set : BitVec 32 → Instance → Instance} {flag : Instance → Instance} {inst : Instance} (read : Instance → β)
    (hset : ∀ n, read (set n inst) = read inst) (hflag : ∀ inst, read (flag inst) = read inst) :
    read (fetchValidatedI32 value minValue set flag inst).2 = read inst := by
  unfold fetchValidatedI32
  split
  · rfl
  · split
    · exact hset _
    · exact (hflag _).trans (hset _)

theorem fetchBinding_keeps {β : Type} {value : Int × BindingMode} {inst : Instance} (read : Instance → β)
    (hset : ∀ binding hasBinding, read { inst with binding, hasBinding } = read inst) :
    read (fetchBinding value inst).2 = read inst := by
  unfold fetchBinding
  split
  · exact hset _ _
  split
  · exact hset _ _
  · exact hset _ _

/-- **A write to one Resource is not seen in another one.** -/
theorem writeResource_keeps {rid rid' : ServerRid} {input : Input} {inst : Instance} {r : Int × Instance}
    (h : writeResource rid' input inst = some r) (hne : rid' ≠ rid) :
    r.2.iid = inst.iid ∧ readResource r.2 rid = readResource inst rid := by
  cases rid' with
  | ssid =>
      rw [← Option.some.inj h]
      refine ⟨fetch_keeps Instance.iid fun _ => rfl, fetch_keeps (readResource · rid) fun _ => ?_⟩
      cases rid <;> first | rfl | exact absurd rfl hne
  | lifetime =>
      rw [← Option.some.inj h]
      refine ⟨fetch_keeps Instance.iid fun _ => rfl, fetch_keeps (readResource · rid) fun _ => ?_⟩
      cases rid <;> first | rfl | exact absurd rfl hne
  | notificationStoring =>
      rw [← Option.some.inj h]
      refine ⟨fetch_keeps Instance.iid fun _ => rfl, fetch_keeps (readResource · rid) fun _ => ?_⟩
      cases rid <;> first | rfl | exact absurd rfl hne
  | defaultMinPeriod =>
      rw [← Option.some.inj h]
      refine ⟨fetchValidatedI32_keeps Instance.iid (fun _ => rfl) fun _ => rfl,
        fetchValidatedI32_keeps (readResource · rid) (fun _ => ?_) fun _ => ?_⟩
      all_goals cases rid <;> first | rfl | exact absurd rfl hne
  | defaultMaxPeriod =>
      rw [← Option.some.inj h]
      refine ⟨fetchValidatedI32_keeps Instance.iid (fun _ => rfl) fun _ => rfl,
        fetchValidatedI32_keeps (readResource · rid) (fun _ => ?_) fun _ => ?_⟩
      all_goals cases rid <;> first | rfl | exact absurd rfl hne
  | disableTimeout =>
      rw [← Option.some.inj h]
      refine ⟨fetchValidatedI32_keeps Instance.iid (fun _ => rfl) fun _ => rfl,
        fetchValidatedI32_keeps (readResource · rid) (fun _ => ?_) fun _ => ?_⟩
      all_goals cases rid <;> first | rfl | exact absurd rfl hne
  | binding =>
      rw [← Option.some.inj h]
      refine ⟨fetchBinding_keeps Instance.iid fun _ _ => rfl, fetchBinding_keeps (readResource · rid) fun _ _ => ?_⟩
      cases rid <;> first | rfl | exact absurd rfl hne
  | disable => cases h
  | registrationUpdateTrigger => cases h

/-- A write keeps the id of the Instance. -/
theorem writeResource_iid {rid : ServerRid} {input : Input} {inst : Instance} {r : Int × Instance}
    (h : writeResource rid input inst = some r) : r.2.iid = inst.iid := by
  by_cases hrid : rid = .disable
  · rw [hrid] at h
    cases h
  · exact (writeResource_keeps h hrid).1

theorem fetchValidatedI32_ok {n : BitVec 32} {minValue : Int} {set : BitVec 32 → Instance → Instance}
    {flag : Instance → Instance} {inst : Instance} (h : (fetchValidatedI32 (.ok n) minValue set flag inst).1 = 0) :
    (fetchValidatedI32 (.ok n) minValue set flag inst).2 = flag (set n inst) := by
  unfold fetchValidatedI32 at h ⊢
  dsimp only at h ⊢
  split at h
  · exact absurd (show errBadRequest = 0 from h) (by decide)
  next hrange => rw [if_neg hrange]

/-- **What is read where a write has been accepted**; of a Short Server ID, what is left in 16 bits is stored. -/
theorem writeResource_read {rid : ServerRid} {input : Input} {inst : Instance} {r : Int × Instance} {value : Value}
    (hvalue : input.carried rid = some value) (h : writeResource rid input inst = some r) (hok : r.1 = 0) :
    readResource r.2 rid = some value ∨
      ∃ n, rid = .ssid ∧ input.i32 = .ok n ∧ value = .i32 n ∧ r.2.ssid = Fin.ofNat 65536 n.toNat := by
  cases rid with
  | ssid =>
      obtain ⟨n, hn, rfl⟩ := carried_some hvalue
      rw [← Option.some.inj h, hn]
      exact Or.inr ⟨n, rfl, rfl, rfl, rfl⟩
  | lifetime =>
      obtain ⟨n, hn, rfl⟩ := carried_some hvalue
      rw [← Option.some.inj h, hn]
      exact Or.inl rfl
  | notificationStoring =>
      obtain ⟨b, hb, rfl⟩ := carried_some hvalue
      rw [← Option.some.inj h, hb]
      exact Or.inl rfl
  | defaultMinPeriod =>
      obtain ⟨n, hn, rfl⟩ := carried_some hvalue
      rw [← Option.some.inj h, hn] at hok ⊢
      exact Or.inl (congrArg (readResource · .defaultMinPeriod) (fetchValidatedI32_ok hok))
  | defaultMaxPeriod =>
      obtain ⟨n, hn, rfl⟩ := carried_some hvalue
      rw [← Option.some.inj h, hn] at hok ⊢
      exact Or.inl (congrArg (readResource · .defaultMaxPeriod) (fetchValidatedI32_ok hok))
  | disableTimeout =>
      obtain ⟨n, hn, rfl⟩ := carried_some hvalue
      rw [← Option.some.inj h, hn] at hok ⊢
      exact Or.inl (congrArg (readResource · .disableTimeout) (fetchValidatedI32_ok hok))
  | binding =>
      have hvalue : (if input.string.1 = 0 then some (.string (.ofBytes input.string.2.val)) else none : Option Value) =
          some value := hvalue
      split at hvalue
      · have hbuffer : ∀ (string : Int × BindingMode), (fetchBinding string inst).2.binding = string.2 := by
          intro string
          unfold fetchBinding
          split
          · rfl
          split
          · rfl
          · rfl
        rw [← Option.some.inj h, ← Option.some.inj hvalue]
        exact Or.inl (congrArg (fun binding : BindingMode => some (Value.string (.ofBytes binding.val))) (hbuffer input.string))
      · cases hvalue
  | disable => cases h
  | registrationUpdateTrigger => cases h

/-- An Instance where it is looked for after a write. -/
theorem servWrite_find {iid : Id} {rid : ServerRid} {input : Input} {repr : ServerRepr} {r : Int × ServerRepr}
    (h : servWrite iid rid input repr = some r) : ∃ inst w, findInstance Instance.iid iid repr.instances = some inst ∧
      writeResource rid input inst = some w ∧ r.1 = w.1 ∧ findInstance Instance.iid iid r.2.instances = some w.2 ∧
      ∀ k, k ≠ iid → findInstance Instance.iid k r.2.instances = findInstance Instance.iid k repr.instances := by
  unfold servWrite at h
  split at h
  · cases h
  next inst hfound =>
    obtain ⟨w, hw, rfl⟩ := Option.map_eq_some_iff.mp h
    have hiid : w.2.iid = iid := (writeResource_iid hw).trans (findInstance_some hfound).2
    have hfind := @findInstance_modifyInstance _ Instance.iid iid (fun _ => w.2) (fun _ _ => hiid)
    refine ⟨inst, w, hfound, hw, rfl, ?_, fun k hk => ?_⟩
    · refine (hfind iid repr.instances).trans ?_
      rw [if_pos rfl, hfound]
      rfl
    · exact (hfind k repr.instances).trans (if_neg hk)

/-! ## 5. Transactions of the Server Object -/

/-- An event that leaves a Resource alone: it is read as before. -/
theorem perform_read {iid : Id} {rid : ServerRid} {event : Event} {repr repr' : ServerRepr} {inst : Instance}
    (halone : event.LeavesAlone iid rid) (h : perform event repr = some repr')
    (hfound : findInstance Instance.iid iid repr.instances = some inst) :
    ∃ inst', findInstance Instance.iid iid repr'.instances = some inst' ∧ readResource inst' rid = readResource inst rid := by
  cases event with
  | create mem iid' =>
      obtain ⟨r, hr, rfl⟩ := Option.map_eq_some_iff.mp h
      unfold servInstanceCreate at hr
      split at hr
      · cases hr
      split at hr
      · rw [← Option.some.inj hr]
        exact ⟨inst, hfound, rfl⟩
      · obtain ⟨created, hcreated, rfl⟩ := Option.map_eq_some_iff.mp hr
        obtain ⟨insts, hinsts, rfl⟩ := Option.map_eq_some_iff.mp hcreated
        rw [insertCreated_eq] at hinsts
        split at hinsts
        · cases hinsts
        · refine ⟨inst, ?_, rfl⟩
          have hne : iid ≠ (zeroInstance iid').iid := fun heq => halone heq.symm
          rw [← hfound, ← Option.some.inj hinsts]
          exact findInstance_insertInstance hne repr.instances
  | remove iid' =>
      obtain ⟨r, hr, rfl⟩ := Option.map_eq_some_iff.mp h
      obtain ⟨insts, hinsts, rfl⟩ := Option.map_eq_some_iff.mp hr
      exact ⟨inst, findInstance_delInstance (Ne.symm halone) hinsts hfound, rfl⟩
  | reset iid' =>
      obtain ⟨r, hr, rfl⟩ := Option.map_eq_some_iff.mp h
      obtain ⟨old, -, rfl⟩ := Option.map_eq_some_iff.mp hr
      refine ⟨inst, ?_, rfl⟩
      have hne : iid ≠ iid' := fun heq => halone heq.symm
      rw [← hfound]
      exact (@findInstance_modifyInstance _ Instance.iid iid'
        (fun inst => { resetInstance inst with hasSsid := inst.hasSsid, ssid := inst.ssid }) (fun _ ha => ha) iid
        repr.instances).trans (if_neg hne)
  | write iid' rid' input =>
      obtain ⟨r, hr, rfl⟩ := Option.map_eq_some_iff.mp h
      obtain ⟨old, w, hold, hw, -, hnew, hother⟩ := servWrite_find hr
      rcases eq_or_ne iid iid' with rfl | hne
      · have hrid : rid' ≠ rid := halone.resolve_left fun hno => hno rfl
        rw [hfound] at hold
        rw [← Option.some.inj hold] at hw
        exact ⟨w.2, hnew, (writeResource_keeps hw hrid).2⟩
      · exact ⟨inst, (hother iid hne).trans hfound, rfl⟩
  | _ => exact absurd halone not_false

/-- **What is written to one Resource is read until it is written again.** -/
theorem performAll_read {iid : Id} {rid : ServerRid} {events : List Event} {repr repr' : ServerRepr} {inst : Instance}
    (halone : ∀ event ∈ events, event.LeavesAlone iid rid) (h : performAll events repr = some repr')
    (hfound : findInstance Instance.iid iid repr.instances = some inst) :
    ∃ inst', findInstance Instance.iid iid repr'.instances = some inst' ∧ readResource inst' rid = readResource inst rid := by
  induction events generalizing repr inst with
  | nil =>
      rw [← Option.some.inj h]
      exact ⟨inst, hfound, rfl⟩
  | cons event events ih =>
      obtain ⟨next, hnext, hrest⟩ := Option.bind_eq_some_iff.mp h
      obtain ⟨hhead, htail⟩ := List.forall_mem_cons.mp halone
      obtain ⟨inst', hfound', hread⟩ := perform_read hhead hnext hfound
      obtain ⟨inst'', hfound'', hread'⟩ := ih htail hrest hfound'
      exact ⟨inst'', hfound'', hread'.trans hread⟩

theorem toInt_mod (n : BitVec 32) : n.toInt % 65536 = ((n.toNat % 65536 : Nat) : Int) := by
  rw [BitVec.toInt_eq_toNat_cond]
  split <;> omega

theorem toNat_of_range {n : BitVec 32} (h : 0 ≤ n.toInt ∧ n.toInt ≤ 65535) : n.toNat < 65536 := by
  rw [BitVec.toInt_eq_toNat_cond] at h
  split at h <;> omega

/-- A Short Server ID that is valid in 16 bits and has not been narrowed is what is stored. -/
theorem ssid_exact {n : BitVec 32} {input : Input} (hinput : input.i32 = .ok n) (h : ¬Narrowed .ssid input)
    (hvalid : 1 ≤ n.toNat % 65536 ∧ n.toNat % 65536 ≤ 65534) : BitVec.ofNat 32 (n.toNat % 65536) = n := by
  have hrange : 0 ≤ n.toInt ∧ n.toInt ≤ 65535 := by
    refine Decidable.byContradiction fun hout => h ⟨rfl, n, hinput, hout, ?_⟩
    rw [toInt_mod]
    omega
  rw [Nat.mod_eq_of_lt (toNat_of_range hrange), BitVec.ofNat_toNat, BitVec.setWidth_eq]

end Serv

/-! ## 6. Writes of the Security Object -/

namespace Sec

/-- What neither the check nor the setting changes is read as before. -/
theorem fetchChecked_keeps {α β : Type} {value : Except Int α} {validate : α → Int} {set : α → Instance → Instance}
    {inst : Instance} (read : Instance → β) (hset : ∀ a, read (set a inst) = read inst) :
    read (fetchChecked value validate set inst).2 = read inst := by
  unfold fetchChecked
  split
  · rfl
  split
  · exact hset _
  · rfl

theorem fetchReplaced_keeps {α β : Type} {value : Except Int α} {clear : Instance → Instance}
    {set : α → Instance → Instance} {inst : Instance} (read : Instance → β) (hclear : read (clear inst) = read inst)
    (hset : ∀ a, read (set a inst) = read inst) : read (fetchReplaced value clear set inst).2 = read inst := by
  unfold fetchReplaced
  split
  · exact hclear
  · exact hset _

/-- A value that has passed the check is set. -/
theorem fetchChecked_ok {α : Type} {a : α} {validate : α → Int} {set : α → Instance → Instance} {inst : Instance}
    (h : (fetchChecked (.ok a) validate set inst).1 = 0) :
    validate a = 0 ∧ (fetchChecked (.ok a) validate set inst).2 = set a inst := by
  unfold fetchChecked at h ⊢
  dsimp only at h ⊢
  split at h
  next hvalid => exact ⟨hvalid, by rw [if_pos hvalid]⟩
  next hvalid => exact absurd h hvalid

/-- **A write to one Resource is not seen in another one.** -/
theorem writeResource_keeps {rid rid' : SecurityResource} {input : Input} {inst : Instance} (hne : rid' ≠ rid) :
    readResource (writeResource rid' input inst).2 rid = readResource inst rid := by
  cases rid' with
  | bootstrapServer | securityMode | shortServerId | clientHoldOffTime | bootstrapTimeout | smsSecurityMode =>
      refine fetchChecked_keeps (readResource · rid) fun _ => ?_
      cases rid <;> first | rfl | exact absurd rfl hne
  | _ =>
      refine fetchReplaced_keeps (readResource · rid) ?_ fun _ => ?_
      all_goals cases rid <;> first | rfl | exact absurd rfl hne

/-- A write keeps the id of the Instance. -/
theorem writeResource_iid (rid : SecurityResource) (input : Input) (inst : Instance) :
    (writeResource rid input inst).2.iid = inst.iid := by
  cases rid with
  | bootstrapServer | securityMode | shortServerId | clientHoldOffTime | bootstrapTimeout | smsSecurityMode =>
      exact fetchChecked_keeps Instance.iid fun _ => rfl
  | _ => exact fetchReplaced_keeps Instance.iid rfl fun _ => rfl

/-- A Short Server ID that has passed the check fits in 16 bits. -/
theorem ssid_exact {n : BitVec 32} (h : validateShortServerId n.toInt = 0) :
    BitVec.ofNat 32 (Fin.ofNat 65536 n.toInt.toNat : Id).val = n := by
  have hrange : 0 < n.toInt ∧ n.toInt ≤ 65535 := by
    refine Decidable.byContradiction fun hnot => ?_
    unfold validateShortServerId at h
    rw [if_neg hnot] at h
    cases h
  have hval : (Fin.ofNat 65536 n.toInt.toNat : Id).val = n.toInt.toNat := Nat.mod_eq_of_lt (by omega)
  have hnat : n.toInt.toNat = n.toNat := by
    rw [BitVec.toInt_eq_toNat_cond] at hrange ⊢
    split at hrange <;> omega
  rw [hval, hnat, BitVec.ofNat_toNat, BitVec.setWidth_eq]

/-- **What has been accepted is read.** -/
theorem writeResource_read {rid : SecurityResource} {input : Input} {inst : Instance} {value : Value}
    (hvalue : input.carried rid = some value) (hok : (writeResource rid input inst).1 = 0) :
    readResource (writeResource rid input inst).2 rid = some value := by
  unfold writeResource at hok ⊢
  cases rid with
  | shortServerId =>
      obtain ⟨n, hn, rfl⟩ := carried_some hvalue
      rw [hn] at hok ⊢
      obtain ⟨hvalid, hset⟩ := fetchChecked_ok hok
      refine (congrArg (readResource · .shortServerId) hset).trans ?_
      exact congrArg (fun n => some (Value.i32 n)) (ssid_exact hvalid)
  | securityMode =>
      obtain ⟨n, hn, rfl⟩ := carried_some hvalue
      rw [hn] at hok ⊢
      refine (congrArg (readResource · .securityMode) (fetchChecked_ok hok).2).trans ?_
      exact congrArg (fun n => some (Value.i32 n)) (BitVec.ofInt_toInt)
  | smsSecurityMode =>
      obtain ⟨n, hn, rfl⟩ := carried_some hvalue
      rw [hn] at hok ⊢
      refine (congrArg (readResource · .smsSecurityMode) (fetchChecked_ok hok).2).trans ?_
      exact congrArg (fun n => some (Value.i32 n)) (BitVec.ofInt_toInt)
  | bootstrapServer =>
      obtain ⟨b, hb, rfl⟩ := carried_some hvalue
      rw [hb] at hok ⊢
      exact congrArg (readResource · .bootstrapServer) (fetchChecked_ok hok).2
  | clientHoldOffTime =>
      obtain ⟨n, hn, rfl⟩ := carried_some hvalue
      rw [hn] at hok ⊢
      exact congrArg (readResource · .clientHoldOffTime) (fetchChecked_ok hok).2
  | bootstrapTimeout =>
      obtain ⟨n, hn, rfl⟩ := carried_some hvalue
      rw [hn] at hok ⊢
      exact congrArg (readResource · .bootstrapTimeout) (fetchChecked_ok hok).2
  | lwm2mServerUri | serverSmsNumber | pkOrIdentity | serverPk | secretKey | smsBindingKeyParams |
      smsBindingSecretKeys =>
      obtain ⟨a, ha, rfl⟩ := carried_some hvalue
      rw [ha]
      rfl

/-- An Instance where it is looked for after a write. -/
theorem secWrite_find {iid : Id} {rid : SecurityResource} {input : Input} {repr : SecRepr} {r : Int × SecRepr}
    (h : secWrite iid rid input repr = some r) : ∃ inst, findInstance Instance.iid iid repr.instances = some inst ∧
      r.1 = (writeResource rid input inst).1 ∧
      findInstance Instance.iid iid r.2.instances = some (writeResource rid input inst).2 ∧
      ∀ k, k ≠ iid → findInstance Instance.iid k r.2.instances = findInstance Instance.iid k repr.instances := by
  obtain ⟨inst, hfound, rfl⟩ := Option.map_eq_some_iff.mp h
  have hfind := @findInstance_modifyInstance _ Instance.iid iid (fun inst => (writeResource rid input inst).2)
    fun a ha => (writeResource_iid rid input a).trans ha
  refine ⟨inst, hfound, rfl, ?_, fun k hk => ?_⟩
  · refine (hfind iid repr.instances).trans ?_
    rw [if_pos rfl, hfound]
    rfl
  · exact (hfind k repr.instances).trans (if_neg hk)

/-! ## 7. Transactions of the Security Object -/

/-- An event that leaves a Resource alone: it is read as before. -/
theorem perform_read {iid : Id} {rid : SecurityResource} {event : Event} {repr repr' : SecRepr} {inst : Instance}
    (halone : event.LeavesAlone iid rid) (h : perform event repr = some repr')
    (hfound : findInstance Instance.iid iid repr.instances = some inst) :
    ∃ inst', findInstance Instance.iid iid repr'.instances = some inst' ∧ readResource inst' rid = readResource inst rid := by
  cases event with
  | create mem iid' =>
      obtain ⟨r, hr, rfl⟩ := Option.map_eq_some_iff.mp h
      unfold secInstanceCreate at hr
      split at hr
      · cases hr
      split at hr
      · rw [← Option.some.inj hr]
        exact ⟨inst, hfound, rfl⟩
      · rw [← Option.some.inj hr]
        have hne : iid ≠ (initInstance iid').iid := fun heq => halone heq.symm
        exact ⟨inst, (findInstance_insertInstance hne repr.instances).trans hfound, rfl⟩
  | remove iid' =>
      obtain ⟨r, hr, rfl⟩ := Option.map_eq_some_iff.mp h
      obtain ⟨insts, hinsts, rfl⟩ := Option.map_eq_some_iff.mp hr
      exact ⟨inst, findInstance_delInstance (Ne.symm halone) hinsts hfound, rfl⟩
  | reset iid' =>
      obtain ⟨r, hr, rfl⟩ := Option.map_eq_some_iff.mp h
      obtain ⟨old, -, rfl⟩ := Option.map_eq_some_iff.mp hr
      have hne : iid ≠ iid' := fun heq => halone heq.symm
      have hother := (@findInstance_modifyInstance _ Instance.iid iid' (fun _ => initInstance iid') (fun _ _ => rfl) iid
        repr.instances).trans (if_neg hne)
      exact ⟨inst, hother.trans hfound, rfl⟩
  | write iid' rid' input =>
      obtain ⟨r, hr, rfl⟩ := Option.map_eq_some_iff.mp h
      obtain ⟨old, hold, -, hnew, hother⟩ := secWrite_find hr
      rcases eq_or_ne iid iid' with rfl | hne
      · have hrid : rid' ≠ rid := halone.resolve_left fun hno => hno rfl
        rw [hfound] at hold
        rw [← Option.some.inj hold] at hnew
        exact ⟨_, hnew, writeResource_keeps hrid⟩
      · exact ⟨inst, (hother iid hne).trans hfound, rfl⟩
  | _ => exact absurd halone not_false

/-- **What is written to one Resource is read until it is written again.** -/
theorem performAll_read {iid : Id} {rid : SecurityResource} {events : List Event} {repr repr' : SecRepr} {inst : Instance}
    (halone : ∀ event ∈ events, event.LeavesAlone iid rid) (h : performAll events repr = some repr')
    (hfound : findInstance Instance.iid iid repr.instances = some inst) :
    ∃ inst', findInstance Instance.iid iid repr'.instances = some inst' ∧ readResource inst' rid = readResource inst rid := by
  induction events generalizing repr inst with
  | nil =>
      rw [← Option.some.inj h]
      exact ⟨inst, hfound, rfl⟩
  | cons event events ih =>
      obtain ⟨next, hnext, hrest⟩ := Option.bind_eq_some_iff.mp h
      obtain ⟨hhead, htail⟩ := List.forall_mem_cons.mp halone
      obtain ⟨inst', hfound', hread⟩ := perform_read hhead hnext hfound
      obtain ⟨inst'', hfound'', hread'⟩ := ih htail hrest hfound'
      exact ⟨inst'', hfound'', hread'.trans hread⟩

/-- **All that is accepted is read back.** -/
theorem exact (rid : SecurityResource) (input : Input) : Exact rid input := by
  intro iid repr written later committed events mem value hvalue hwrite halone hevents hvalid hcommit
  obtain ⟨inst, -, hcode, hnew, -⟩ := secWrite_find hwrite
  obtain ⟨inst', hfound, hread⟩ := performAll_read halone hevents hnew
  have hcommitted : committed.instances = later.instances := ObjectRepr.commit_instances hcommit
  unfold secRead
  rw [hcommitted, hfound]
  exact hread.trans (writeResource_read hvalue hcode.symm)

/-- What comes in a transaction leaves alone what was saved at its begin. -/
theorem perform_saved {event : Event} {repr repr' : SecRepr} (hinner : event.Inner) (h : perform event repr = some repr') :
    repr'.savedInstances = repr.savedInstances := by
  cases event with
  | create mem iid =>
      obtain ⟨r, hr, rfl⟩ := Option.map_eq_some_iff.mp h
      unfold secInstanceCreate at hr
      split at hr
      · cases hr
      split at hr
      · rw [← Option.some.inj hr]
      · rw [← Option.some.inj hr]
        rfl
  | remove iid | reset iid | write iid rid input =>
      obtain ⟨r, hr, rfl⟩ := Option.map_eq_some_iff.mp h
      obtain ⟨a, -, rfl⟩ := Option.map_eq_some_iff.mp hr
      rfl
  | _ => exact absurd hinner not_false

theorem performAll_saved {events : List Event} {repr repr' : SecRepr} (hinner : ∀ event ∈ events, event.Inner)
    (h : performAll events repr = some repr') : repr'.savedInstances = repr.savedInstances := by
  induction events generalizing repr with
  | nil => rw [← Option.some.inj h]
  | cons event events ih =>
      obtain ⟨next, hnext, hrest⟩ := Option.bind_eq_some_iff.mp h
      obtain ⟨hhead, htail⟩ := List.forall_mem_cons.mp hinner
      exact (ih htail hrest).trans (perform_saved hhead hnext)

end Sec

/-! ## 8. The rollback of the Server Object -/

namespace Serv

/-- What comes in a transaction leaves alone what was saved at its begin. -/
theorem perform_saved {event : Event} {repr repr' : ServerRepr} (hinner : event.Inner) (h : perform event repr = some repr') :
    repr'.savedInstances = repr.savedInstances := by
  cases event with
  | create mem iid =>
      obtain ⟨r, hr, rfl⟩ := Option.map_eq_some_iff.mp h
      unfold servInstanceCreate at hr
      split at hr
      · cases hr
      split at hr
      · rw [← Option.some.inj hr]
      · obtain ⟨created, hcreated, rfl⟩ := Option.map_eq_some_iff.mp hr
        obtain ⟨insts, -, rfl⟩ := Option.map_eq_some_iff.mp hcreated
        rfl
  | remove iid | reset iid =>
      obtain ⟨r, hr, rfl⟩ := Option.map_eq_some_iff.mp h
      obtain ⟨a, -, rfl⟩ := Option.map_eq_some_iff.mp hr
      rfl
  | write iid rid input =>
      obtain ⟨r, hr, rfl⟩ := Option.map_eq_some_iff.mp h
      unfold servWrite at hr
      split at hr
      · cases hr
      · obtain ⟨w, -, rfl⟩ := Option.map_eq_some_iff.mp hr
        rfl
  | _ => exact absurd hinner not_false

theorem performAll_saved {events : List Event} {repr repr' : ServerRepr} (hinner : ∀ event ∈ events, event.Inner)
    (h : performAll events repr = some repr') : repr'.savedInstances = repr.savedInstances := by
  induction events generalizing repr with
  | nil => rw [← Option.some.inj h]
  | cons event events ih =>
      obtain ⟨next, hnext, hrest⟩ := Option.bind_eq_some_iff.mp h
      obtain ⟨hhead, htail⟩ := List.forall_mem_cons.mp hinner
      exact (ih htail hrest).trans (perform_saved hhead hnext)

/-- **A rollback of the Server Object brings back all Instances.** -/
theorem restores (mem : Bool) : Restores mem := by
  intro repr begun later restored events hbegin hinner hevents hrollback
  have hsaved : restored.instances = begun.savedInstances :=
    (ObjectRepr.rollback_instances hrollback).trans (performAll_saved hinner hevents)
  obtain ⟨hbegun, hempty⟩ := ObjectRepr.begin_saved hbegin
  rw [hsaved, hbegun]
  cases mem with
  | true => rfl
  | false => exact (hempty rfl).symm

end Serv

/-! ## 9. What the context of a request carries -/

section Requests

variable {σ : Type} {vtable : Io.InputVtable σ} {Holds : List UInt8 → σ → Prop} {ctx : σ}

namespace Serv

/-- The Binding Mode comes from `anjay_get_string`; behind its NUL the buffer is what it was. -/
def Input.Fetched (input : Input) (vtable : Io.InputVtable σ) (ctx : σ) : Prop :=
  ∃ bytes old ctx', Io.getString vtable ctx 8 = ((input.string.1, bytes), ctx') ∧
    input.string.2.val = bytes ++ 0 :: old

/-- **A Binding Mode that fits its buffer is what the context holds.** -/
theorem Input.Fetched.carried {input : Input} {value : CString} (h : input.Fetched vtable ctx)
    (hreader : Io.StringReader vtable Holds) (hctx : Holds value.bytes ctx) (hlength : value.bytes.length < 8) :
    input.carried .binding = some (.string value) := by
  obtain ⟨bytes, old, ctx', hget, hbuffer⟩ := h
  obtain ⟨ctx'', hwhole⟩ := hreader.whole 8 hctx hlength
  obtain ⟨hcode, hbytes⟩ := Prod.mk.inj (Prod.mk.inj (hget.symm.trans hwhole)).1
  unfold Input.carried
  dsimp only
  rw [if_pos hcode, hbuffer, hbytes, CString.ofBytes_append_nul]

end Serv

namespace Sec

/-- Strings and byte strings come from `_anjay_io_fetch_string` and `_anjay_io_fetch_bytes`. -/
structure Input.Fetched (input : Input) (vtable : Io.InputVtable σ) (alloc : Nat → Bool) (ctx : σ) : Prop where
  string : ∃ fuel result ctx', Io.fetchString vtable alloc fuel ctx = some (result, ctx') ∧
    input.string = result.map CString.ofBytes
  bytes : ∃ fuel ctx', Io.fetchBytes vtable alloc fuel ctx = some (input.bytes, ctx')

/-- **A string without NUL is what the context holds**, however long it is, where no allocation fails. -/
theorem Input.Fetched.string_eq {input : Input} {value : CString} (h : input.Fetched vtable (fun _ => true) ctx)
    (hreader : Io.StringReader vtable Holds) (hctx : Holds value.bytes ctx) : input.string = .ok value := by
  obtain ⟨fuel, result, ctx', hrun, hstring⟩ := h.string
  obtain ⟨fuel', result', ctx'', hrun', hresult⟩ := (hreader.meets_iff hctx fun _ => true).mpr
    (Or.inr (Io.blocksBegin_of_notMem value.noNul))
  obtain ⟨rfl, -⟩ := Prod.mk.inj (Io.genericGetter_unique hrun hrun')
  rcases hresult with hok | ⟨hnul | hrefused, -⟩
  · rw [hstring, hok, Io.upToNul_of_notMem value.noNul]
    exact congrArg Except.ok (CString.ofBytes_append_nul value [])
  · exact absurd hnul value.noNul
  · exact absurd hrefused (Io.not_refused _ _)

/-- **A byte string is what the context holds.** -/
theorem Input.Fetched.bytes_eq {input : Input} {value : List UInt8} (h : input.Fetched vtable (fun _ => true) ctx)
    (hreader : Io.BytesReader vtable Holds) (hctx : Holds value ctx) : input.bytes = .ok value := by
  obtain ⟨fuel, ctx', hrun⟩ := h.bytes
  obtain ⟨fuel', result', ctx'', hrun', hresult⟩ := hreader.meets hctx fun _ => true
  rw [(Prod.mk.inj (Io.genericGetter_unique hrun hrun')).1]
  rcases hresult with hok | ⟨hrefused, -⟩
  · exact hok
  · exact absurd hrefused (Io.not_refused _ _)

/-- A TLV entry holds a value of a Resource that is a string or a byte string. -/
def Carries (ctx : Tlv.TlvIn) : SecurityResource → Value → Prop
  | .lwm2mServerUri, .string s | .serverSmsNumber, .string s => Io.TlvHolds s.bytes ctx
  | .pkOrIdentity, .bytes bytes | .serverPk, .bytes bytes | .secretKey, .bytes bytes
  | .smsBindingKeyParams, .bytes bytes | .smsBindingSecretKeys, .bytes bytes => Io.TlvHolds bytes ctx
  | _, _ => False

theorem Input.Fetched.carried {input : Input} {ctx : Tlv.TlvIn} {rid : SecurityResource} {value : Value}
    (h : input.Fetched Io.tlvInVtable (fun _ => true) ctx) (hctx : Carries ctx rid value) :
    input.carried rid = some value := by
  unfold Carries at hctx
  unfold Input.carried
  split at hctx
  case h_8 => exact absurd hctx not_false
  case h_1 | h_2 =>
    rw [h.string_eq Io.tlv_stringReader hctx]
    rfl
  all_goals
    rw [h.bytes_eq Io.tlv_bytesReader hctx]
    rfl

/-- **What a TLV entry holds is read back once its Write has been committed.** -/
theorem requested_read {input : Input} {rid : SecurityResource} {value : Value} {ctx : Tlv.TlvIn} {iid : Id}
    {repr written later committed : SecRepr} {events : List Event} {mem : Nat} (hctx : Carries ctx rid value)
    (hinput : input.Fetched Io.tlvInVtable (fun _ => true) ctx)
    (hwrite : secWrite iid rid input repr = some (0, written))
    (halone : ∀ event ∈ events, event.LeavesAlone iid rid) (hevents : performAll events written = some later)
    (hvalid : objectValidate mem later.instances = 0) (hcommit : later.transactionCommit = some (0, committed)) :
    secRead iid rid committed = some value :=
  Sec.exact rid input iid repr written later committed events mem value (hinput.carried hctx) hwrite halone hevents
    hvalid hcommit

end Sec

end Requests

/-! ## 10. Both Objects -/

namespace Modules

end Modules

end Anjay
