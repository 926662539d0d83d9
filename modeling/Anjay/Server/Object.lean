/-
  File:      Anjay/Server/Object.lean
  Subject:   The Server Object: its Instances, their validation, and what its handlers and its API do to them
             (`anjay_mod_server.c`, `anjay_server_transaction.c`, `anjay_server_utils.c`).

  * `objectValidate_eq_zero_iff`: what `_anjay_serv_object_validate` accepts.
  * `serverObjectAddInstance_cases`: an Instance that is added and does not pass is taken out again.
-/
import Anjay.Modules.Repr
import Anjay.Commons.Persistence

namespace Anjay.Serv

open Dm Modules Persistence

/-! ## 1. The state -/

/-- `anjay_binding_mode_t`. -/
abbrev BindingMode := Buffer 8

/-- `server_instance_t`. -/
structure Instance where
  iid : Id
  ssid : Id
  hasSsid : Bool
  binding : BindingMode
  hasBinding : Bool
  lifetime : BitVec 32
  hasLifetime : Bool
  defaultMinPeriod : BitVec 32
  hasDefaultMinPeriod : Bool
  defaultMaxPeriod : BitVec 32
  hasDefaultMaxPeriod : Bool
  disableTimeout : BitVec 32
  hasDisableTimeout : Bool
  notificationStoring : Bool
  hasNotificationStoring : Bool
  deriving DecidableEq, Repr

/-- `server_repr_t`. -/
abbrev ServerRepr := ObjectRepr Instance

theorem length_take_append_zeros (bytes : List UInt8) : ((bytes ++ List.replicate 8 0).take 8).length = 8 := by
  rw [List.length_take, List.length_append, List.length_replicate]
  omega

/-- The first bytes of a string in a buffer that was all zeros. -/
def BindingMode.ofBytes (bytes : List UInt8) : BindingMode := ⟨_, length_take_append_zeros bytes⟩

/-- An Instance that `memset` has cleared, with this id. -/
def zeroInstance (iid : Id) : Instance :=
  ⟨iid, 0, false, .ofBytes [], false, 0, false, 0, false, 0, false, 0, false, false, false⟩

/-- `_anjay_serv_reset_instance`. -/
def resetInstance (serv : Instance) : Instance := zeroInstance serv.iid

/-! ## 2. Validation -/

/-- `VALID_BINDINGS`: "U", "UQ", "S", "SQ", "US" and "UQS". -/
def validBindings : List (List UInt8) := [[85], [85, 81], [83], [83, 81], [85, 83], [85, 81, 83]]

/-- `anjay_binding_mode_valid`, on the string that the bytes start with. -/
def bindingModeValid (bytes : List UInt8) : Bool := validBindings.contains (CString.ofBytes bytes).bytes

/-- `validate_instance`. -/
def validateInstance (it : Instance) : Int :=
  if it.hasSsid = false then -1
  else if it.ssid.val < 1 ∨ 65535 ≤ it.ssid.val then -1
  else if it.hasBinding = false then -1
  else if it.hasLifetime = false then -1
  else if it.hasNotificationStoring = false then -1
  else if it.lifetime.toInt ≤ 0 then -1
  else if it.hasDefaultMaxPeriod = true ∧ it.defaultMaxPeriod.toInt ≤ 0 then -1
  else if it.hasDefaultMinPeriod = true ∧ it.defaultMinPeriod.toInt < 0 then -1
  else if it.hasDisableTimeout = true ∧ it.disableTimeout.toInt < 0 then -1
  else if bindingModeValid it.binding.val = false then -1
  else 0

/-- `ssid_cmp`. -/
def ssidCmp (a b : Id) : Int := a.val - b.val

/-- The loop of `_anjay_serv_object_validate`: the SSIDs, the last one first, or the code that is returned;
    `mem` of them can be allocated. -/
def validateInstances (mem : Nat) : List Instance → Except Int (List Id)
  | [] => .ok []
  | it :: insts =>
      if validateInstance it ≠ 0 then .error errBadRequest
      else if mem = 0 then .error errInternal
      else (validateInstances (mem - 1) insts).map (· ++ [it.ssid])

/-- `AVS_LIST_SORT` of the SSIDs. -/
def sortSsids (ssids : List Id) : List Id := ssids.insertionSort fun a b => ssidCmp a b ≤ 0

/-- `_anjay_serv_object_validate`. -/
def objectValidate (mem : Nat) (insts : List Instance) : Int :=
  match validateInstances mem insts with
  | .error code => code
  | .ok ssids => if hasDuplicate (sortSsids ssids) then errBadRequest else 0

/-! ## 3. Handlers -/

/-- `server_rid_t`. -/
inductive ServerRid
  | ssid
  | lifetime
  | defaultMinPeriod
  | defaultMaxPeriod
  | disable
  | disableTimeout
  | notificationStoring
  | binding
  | registrationUpdateTrigger
  deriving DecidableEq, Repr

/-- What the functions give that read from the input context: the value, or their code; of
    `anjay_get_string`, the code and what the buffer then holds. -/
structure Input where
  i32 : Except Int (BitVec 32)
  bool : Except Int Bool
  string : Int × BindingMode

/-- A value that is fetched and set with its flag. -/
def fetch {α : Type} (value : Except Int α) (set : α → Instance → Instance) (inst : Instance) : Int × Instance :=
  match value with
  | .error code => (code, inst)
  | .ok a => (0, set a inst)

/-- `_anjay_serv_fetch_validated_i32`, up to `INT32_MAX`: what is out of range is set, without the flag. -/
def fetchValidatedI32 (value : Except Int (BitVec 32)) (minValue : Int) (set : BitVec 32 → Instance → Instance)
    (flag : Instance → Instance) (inst : Instance) : Int × Instance :=
  match value with
  | .error code => (code, inst)
  | .ok n => if n.toInt < minValue ∨ 2147483647 < n.toInt then (errBadRequest, set n inst) else (0, flag (set n inst))

/-- `_anjay_serv_fetch_binding`. -/
def fetchBinding (value : Int × BindingMode) (inst : Instance) : Int × Instance :=
  if value.1 ≠ 0 then (value.1, { inst with binding := value.2 })
  else if bindingModeValid value.2.val = false then (errBadRequest, { inst with binding := value.2 })
  else (0, { inst with binding := value.2, hasBinding := true })

/-- The `switch` of `serv_write`; there is no result for the Resources that are executed. -/
def writeResource (rid : ServerRid) (input : Input) (inst : Instance) : Option (Int × Instance) :=
  match rid with
  | .ssid => some (fetch input.i32
      (fun n inst => { inst with ssid := Fin.ofNat 65536 n.toNat, hasSsid := true }) inst)
  | .lifetime => some (fetch input.i32 (fun n inst => { inst with lifetime := n, hasLifetime := true }) inst)
  | .defaultMinPeriod => some (fetchValidatedI32 input.i32 0 (fun n inst => { inst with defaultMinPeriod := n })
      (fun inst => { inst with hasDefaultMinPeriod := true }) inst)
  | .defaultMaxPeriod => some (fetchValidatedI32 input.i32 1 (fun n inst => { inst with defaultMaxPeriod := n })
      (fun inst => { inst with hasDefaultMaxPeriod := true }) inst)
  | .disableTimeout => some (fetchValidatedI32 input.i32 0 (fun n inst => { inst with disableTimeout := n })
      (fun inst => { inst with hasDisableTimeout := true }) inst)
  | .binding => some (fetchBinding input.string inst)
  | .notificationStoring => some (fetch input.bool
      (fun b inst => { inst with notificationStoring := b, hasNotificationStoring := true }) inst)
  | .disable => none
  | .registrationUpdateTrigger => none

/-- `serv_write`; no result where no Instance is found. -/
def servWrite (iid : Id) (rid : ServerRid) (input : Input) (repr : ServerRepr) : Option (Int × ServerRepr) :=
  match findInstance Instance.iid iid repr.instances with
  | none => none
  | some inst =>
      (writeResource rid input inst).map fun r =>
        (r.1, (repr.setInstances (modifyInstance Instance.iid iid (fun _ => r.2) repr.instances)).markModified)

/-- The loop of `insert_created_instance`; there is no result where its assertion fails. -/
def insertCreated (new : Instance) : List Instance → Option (List Instance)
  | [] => some [new]
  | inst :: insts =>
      if inst.iid = new.iid then none
      else if new.iid < inst.iid then some (new :: inst :: insts)
      else (insertCreated new insts).map (inst :: ·)

/-- `insert_created_instance`. -/
def insertCreatedInstance (new : Instance) (repr : ServerRepr) : Option ServerRepr :=
  (insertCreated new repr.instances).map fun insts => (repr.setInstances insts).markModified

/-- `serv_instance_create`; `mem` says whether the list element can be allocated. -/
def servInstanceCreate (mem : Bool) (iid : Id) (repr : ServerRepr) : Option (Int × ServerRepr) :=
  if iid = idInvalid then none
  else if mem = false then some (errInternal, repr)
  else (insertCreatedInstance (zeroInstance iid) repr).map fun repr => (0, repr)

/-- `del_instance`, of `serv_instance_remove` too. -/
def deleteInstance (iid : Id) (repr : ServerRepr) : Option (Int × ServerRepr) :=
  (delInstance Instance.iid true iid repr.instances).map fun insts => (0, (repr.setInstances insts).markModified)

/-- `serv_instance_reset`: the SSID is kept. -/
def servInstanceReset (iid : Id) (repr : ServerRepr) : Option (Int × ServerRepr) :=
  (findInstance Instance.iid iid repr.instances).map fun _ =>
    (0, repr.setInstances (modifyInstance Instance.iid iid
      (fun inst => { resetInstance inst with hasSsid := inst.hasSsid, ssid := inst.ssid }) repr.instances))

/-- `_anjay_serv_clone_instances`: all Instances, or the empty list if there is no memory for them. -/
def cloneInstances (mem : Bool) (insts : List Instance) : List Instance := if mem then insts else []

/-- `serv_transaction_begin`. -/
def servTransactionBegin (mem : Bool) (repr : ServerRepr) : Option (Int × ServerRepr) :=
  repr.transactionBegin (cloneInstances mem repr.instances)

/-! ## 4. The API -/

/-- `anjay_server_instance_t`. -/
structure ServerInstance where
  ssid : Id
  lifetime : BitVec 32
  defaultMinPeriod : BitVec 32
  defaultMaxPeriod : BitVec 32
  disableTimeout : BitVec 32
  binding : Option CString
  notificationStoring : Bool
  deriving DecidableEq, Repr

/-- A value that is set if it is not negative. -/
def presentOrZero (n : BitVec 32) : BitVec 32 := if 0 ≤ n.toInt then n else 0

/-- The Instance that `add_instance` fills. -/
def newInstance (inst : ServerInstance) (iid : Id) : Instance where
  iid := iid
  ssid := inst.ssid
  hasSsid := true
  binding := .ofBytes (inst.binding.elim [] CString.bytes)
  hasBinding := inst.binding.isSome
  lifetime := inst.lifetime
  hasLifetime := true
  defaultMinPeriod := presentOrZero inst.defaultMinPeriod
  hasDefaultMinPeriod := decide (0 ≤ inst.defaultMinPeriod.toInt)
  defaultMaxPeriod := presentOrZero inst.defaultMaxPeriod
  hasDefaultMaxPeriod := decide (0 ≤ inst.defaultMaxPeriod.toInt)
  disableTimeout := presentOrZero inst.disableTimeout
  hasDisableTimeout := decide (0 ≤ inst.disableTimeout.toInt)
  notificationStoring := inst.notificationStoring
  hasNotificationStoring := true

/-- `add_instance`: `some none` if it fails, else the id and what the Object is then; `mem` says whether the
    list element can be allocated. There is no result where an assertion fails. -/
def addInstance (mem : Bool) (inst : ServerInstance) (iid : Id) (repr : ServerRepr) :
    Option (Option (Id × ServerRepr)) :=
  match chooseIid Instance.iid iid repr.instances with
  | none => some none
  | some iid =>
      if mem = false then some none
      else if inst.binding.any fun binding => !bindingModeValid binding.bytes then some none
      else (insertCreatedInstance (newInstance inst iid) repr).map fun added => some (iid, added)

/-- `anjay_server_object_add_instance`; `ssidMem` is for the validation. -/
def serverObjectAddInstance (mem : Bool) (ssidMem : Nat) (inst : ServerInstance) (iid : Id) (repr : ServerRepr) :
    Option (Int × ServerRepr) :=
  match addInstance mem inst iid repr with
  | none => none
  | some none => some (-1, repr)
  | some (some (iid, added)) =>
      if objectValidate ssidMem added.instances = 0 then some (0, added)
      else
        (deleteInstance iid added).map fun deleted =>
          (objectValidate ssidMem added.instances,
            if repr.modifiedSincePersist then deleted.2 else deleted.2.clearModified)

/-! ## 5. What passes the validation -/

/-- What `_anjay_serv_object_validate` asks for. -/
structure Valid (insts : List Instance) : Prop where
  instances : ∀ inst ∈ insts, validateInstance inst = 0
  distinct : (insts.map Instance.ssid).Nodup

/-- The SSIDs that are collected, where the loop ends well. -/
theorem validateInstances_eq_ok {mem : Nat} {insts : List Instance} {ssids : List Id} :
    validateInstances mem insts = .ok ssids ↔
      (∀ inst ∈ insts, validateInstance inst = 0) ∧ insts.length ≤ mem ∧ ssids = (insts.map Instance.ssid).reverse := by
  induction insts generalizing mem ssids with
  | nil =>
      unfold validateInstances
      constructor
      · intro h
        rw [← Except.ok.inj h]
        exact ⟨fun _ hin => absurd hin List.not_mem_nil, Nat.zero_le mem, rfl⟩
      · rintro ⟨-, -, rfl⟩
        rfl
  | cons it insts ih =>
      unfold validateInstances
      by_cases hvalid : validateInstance it = 0
      swap
      · rw [if_pos hvalid]
        exact ⟨nofun, fun h => absurd (h.1 it List.mem_cons_self) hvalid⟩
      rw [if_neg (not_not.mpr hvalid), List.forall_mem_cons, List.map_cons, List.reverse_cons, List.length_cons]
      cases mem with
      | zero =>
          rw [if_pos rfl]
          exact ⟨nofun, fun h => absurd h.2.1 (Nat.not_succ_le_zero _)⟩
      | succ mem =>
          rw [if_neg (Nat.succ_ne_zero mem), Nat.add_sub_cancel]
          constructor
          · intro h
            cases hrest : validateInstances mem insts with
            | error code => rw [hrest] at h; cases h
            | ok rest =>
                rw [hrest] at h
                obtain ⟨hall, hmem, rfl⟩ := ih.mp hrest
                exact ⟨⟨hvalid, hall⟩, Nat.succ_le_succ hmem, (Except.ok.inj h).symm⟩
          · rintro ⟨⟨-, hall⟩, hmem, rfl⟩
            rw [ih.mpr ⟨hall, Nat.le_of_succ_le_succ hmem, rfl⟩]
            rfl

theorem validateInstances_error_ne {mem : Nat} {insts : List Instance} {code : Int}
    (h : validateInstances mem insts = .error code) : code ≠ 0 := by
  induction insts generalizing mem with
  | nil => cases h
  | cons it insts ih =>
      unfold validateInstances at h
      split at h
      · cases h; decide
      split at h
      · cases h; decide
      · cases hrest : validateInstances (mem - 1) insts with
        | error code' =>
            rw [hrest] at h
            cases h
            exact ih hrest
        | ok rest => rw [hrest] at h; cases h

theorem sortSsids_nodup (ssids : List Id) : hasDuplicate (sortSsids ssids) = false ↔ ssids.Nodup := by
  have hle : ∀ a b : Id, ssidCmp a b ≤ 0 ↔ a ≤ b := by
    intro a b
    rw [Fin.le_def]
    unfold ssidCmp
    omega
  have htotal : Std.Total fun a b : Id => ssidCmp a b ≤ 0 :=
    ⟨fun a b => by rw [hle, hle]; exact le_total a b⟩
  have htrans : IsTrans Id fun a b => ssidCmp a b ≤ 0 :=
    ⟨fun a b c => by rw [hle, hle, hle]; exact le_trans⟩
  have hsorted : (sortSsids ssids).Pairwise fun a b => ssidCmp a b ≤ 0 := List.pairwise_insertionSort _ ssids
  rw [not_hasDuplicate_iff Function.injective_id (hsorted.imp fun h => (hle _ _).mp h)]
  exact (List.perm_insertionSort _ ssids).nodup_iff

/-- **What the validation of the Object accepts**, where there is memory for the SSIDs. -/
theorem objectValidate_eq_zero_iff {mem : Nat} {insts : List Instance} :
    objectValidate mem insts = 0 ↔ Valid insts ∧ insts.length ≤ mem := by
  unfold objectValidate
  cases hloop : validateInstances mem insts with
  | error code =>
      refine ⟨fun h => absurd h (validateInstances_error_ne hloop), fun ⟨hvalid, hmem⟩ => ?_⟩
      exact nomatch hloop.symm.trans (validateInstances_eq_ok.mpr ⟨hvalid.instances, hmem, rfl⟩)
  | ok ssids =>
      obtain ⟨hall, hmem, rfl⟩ := validateInstances_eq_ok.mp hloop
      dsimp only
      split
      next hdup =>
        refine ⟨fun h => absurd h (by decide), fun ⟨hvalid, _⟩ => ?_⟩
        rw [(sortSsids_nodup _).mpr (List.nodup_reverse.mpr hvalid.distinct)] at hdup
        cases hdup
      next hdup =>
        refine ⟨fun _ => ⟨⟨hall, ?_⟩, hmem⟩, fun _ => rfl⟩
        exact List.nodup_reverse.mp ((sortSsids_nodup _).mp (Bool.eq_false_of_not_eq_true hdup))

/-- An Instance that has been reset does not pass. -/
theorem validateInstance_resetInstance (inst : Instance) (ssid : Id) (hasSsid : Bool) :
    validateInstance { resetInstance inst with hasSsid := hasSsid, ssid := ssid } ≠ 0 := by
  intro h
  unfold validateInstance at h
  by_cases h1 : hasSsid = false
  · exact absurd ((if_pos h1).symm.trans h) (by decide)
  replace h := (if_neg h1).symm.trans h
  by_cases h2 : ssid.val < 1 ∨ 65535 ≤ ssid.val
  · exact absurd ((if_pos h2).symm.trans h) (by decide)
  replace h := (if_neg h2).symm.trans h
  exact absurd ((if_pos rfl).symm.trans h) (by decide)

/-! ## 6. Adding Instances -/

/-- The insertion with the assertion is the one without, where no Instance is found. -/
theorem insertCreated_eq (new : Instance) (insts : List Instance) : insertCreated new insts =
    if (findInstance Instance.iid new.iid insts).isSome then none else some (insertInstance Instance.iid new insts) := by
  induction insts with
  | nil => rfl
  | cons a insts ih =>
      unfold insertCreated findInstance insertInstance
      by_cases heq : a.iid = new.iid
      · rw [if_pos heq, if_pos heq]
        rfl
      by_cases hlt : new.iid < a.iid
      · rw [if_neg heq, if_pos hlt, if_neg heq, if_pos hlt, if_pos hlt]
        rfl
      · rw [if_neg heq, if_neg hlt, if_neg heq, if_neg hlt, if_neg hlt, ih]
        split <;> rfl

/-- **An Instance that is added and does not pass is taken out again**, and nothing else is changed. -/
theorem serverObjectAddInstance_cases {mem : Bool} {ssidMem : Nat} {inst : ServerInstance} {iid : Id}
    {repr : ServerRepr} {r : Int × ServerRepr} (hfree : iid = idInvalid → SomeFree Instance.iid repr.instances)
    (h : serverObjectAddInstance mem ssidMem inst iid repr = some r) :
    r.2 = repr ∨ ∃ new, r.1 = 0 ∧ new = newInstance inst new.iid ∧
      r.2 = (repr.setInstances (insertInstance Instance.iid new repr.instances)).markModified ∧
      objectValidate ssidMem r.2.instances = 0 := by
  unfold serverObjectAddInstance addInstance at h
  cases hiid : chooseIid Instance.iid iid repr.instances with
  | none =>
      rw [hiid] at h
      cases h
      exact Or.inl rfl
  | some k =>
      have hnone := chooseIid_spec hfree hiid
      have hinsert : insertCreatedInstance (newInstance inst k) repr =
          some (repr.setInstances (insertInstance Instance.iid (newInstance inst k) repr.instances)).markModified := by
        unfold insertCreatedInstance
        rw [insertCreated_eq, show (newInstance inst k).iid = k from rfl, hnone]
        rfl
      rw [hiid] at h
      dsimp only at h
      cases mem with
      | false =>
          cases h
          exact Or.inl rfl
      | true =>
          rw [if_neg Bool.noConfusion] at h
          cases hbinding : inst.binding.any fun binding => !bindingModeValid binding.bytes with
          | true =>
              rw [hbinding] at h
              cases h
              exact Or.inl rfl
          | false =>
              rw [hbinding, if_neg Bool.false_ne_true, hinsert] at h
              dsimp only [Option.map_some] at h
              split at h
              next hvalid =>
                cases h
                exact Or.inr ⟨_, rfl, rfl, rfl, hvalid⟩
              · obtain ⟨deleted, hdel, rfl⟩ := Option.map_eq_some_iff.mp h
                obtain ⟨insts, hinsts, rfl⟩ := Option.map_eq_some_iff.mp hdel
                have hback : delInstance Instance.iid true k (insertInstance Instance.iid (newInstance inst k)
                    repr.instances) = some repr.instances := delInstance_insertInstance true (newInstance inst k) hnone
                exact Or.inl (ObjectRepr.taken_back (Option.some.inj (hinsts.symm.trans hback)))

end Anjay.Serv
