/-
  File:      Anjay/AccessControl/Object.lean
  Subject:   The Access Control Object: its Instances, and what its handlers and its API do to them
             (`anjay_mod_access_control.c`, `anjay_access_control_handlers.c`).

  * `addInstance_spec`: among sorted Instances no assertion fails; the new one is put between the smaller and
    the greater ones, with the least id that is free if it has none, or nothing is changed.
  * `writeToAclArray_sorted`, `setAclInInstance_tidy`: both writers keep an ACL sorted.
-/
import Anjay.Dm.Query
import Anjay.Lib.SortedList

namespace Anjay.Ac

open Dm Lib

variable {σ : Type}

/-! ## 1. The state -/

/-- `anjay_access_mask_t`. -/
abbrev Mask := Fin 65536

/-- `acl_entry_t`. -/
structure AclEntry where
  mask : Mask
  ssid : Id
  deriving DecidableEq, Repr

/-- `acl_target_t`; `none` is the negative id of a target that is not set yet. -/
structure AclTarget where
  oid : Id
  iid : Option Id
  deriving DecidableEq, Repr

/-- `access_control_instance_t`. -/
structure Instance where
  iid : Id
  target : AclTarget
  owner : Id
  hasAcl : Bool
  acl : List AclEntry
  deriving DecidableEq, Repr

/-- A list element: an Instance and the address it is at. -/
structure Node where
  addr : Nat
  inst : Instance
  deriving DecidableEq, Repr

/-- `access_control_state_t`. -/
structure State where
  instances : List Node
  modifiedSincePersist : Bool
  deriving DecidableEq, Repr

/-- `access_control_t`, and the address the next list element gets. -/
structure AccessControl where
  current : State
  savedState : State
  inTransaction : Bool
  lastAccessedInstance : Option Nat
  needsValidation : Bool
  nextAddr : Nat
  deriving DecidableEq, Repr

/-- A state that has been cleared. -/
def State.empty : State := ⟨[], false⟩

/-- What `anjay_access_control_install` allocates. -/
def AccessControl.installed : AccessControl := ⟨.empty, .empty, false, none, false, 0⟩

def ridOid : Id := 0
def ridOiid : Id := 1
def ridAcl : Id := 2
def ridOwner : Id := 3

namespace AccessControl

/-- `_anjay_access_control_mark_modified`. -/
def markModified (ac : AccessControl) : AccessControl :=
  { ac with current := { ac.current with modifiedSincePersist := true } }

/-- `_anjay_access_control_clear_modified`. -/
def clearModified (ac : AccessControl) : AccessControl :=
  { ac with current := { ac.current with modifiedSincePersist := false } }

/-- What the handlers end with that change an Instance. -/
def changed (ac : AccessControl) : AccessControl := { ac with needsValidation := true }.markModified

def setInstances (ac : AccessControl) (nodes : List Node) : AccessControl :=
  { ac with current := { ac.current with instances := nodes } }

/-- A write through a pointer to a list element. -/
def modifyAt (ac : AccessControl) (addr : Nat) (f : Instance → Instance) : AccessControl :=
  ac.setInstances (ac.current.instances.map fun n => if n.addr = addr then ⟨n.addr, f n.inst⟩ else n)

end AccessControl

/-! ## 2. Looking Instances up -/

/-- The loop of `find_instance`. -/
def searchInstance (iid : Id) (nodes : List Node) : Option Node :=
  match nodes.find? fun n => decide (iid ≤ n.inst.iid) with
  | none => none
  | some n => if n.inst.iid = iid then some n else none

/-- `find_instance`; there is no result where the cached pointer does not point to an element. -/
def findInstance (iid : Id) (ac : AccessControl) : Option (Option Node × AccessControl) :=
  let found := searchInstance iid ac.current.instances
  let searched := (found, { ac with lastAccessedInstance := found.map Node.addr })
  match ac.lastAccessedInstance with
  | none => some searched
  | some addr =>
      match ac.current.instances.find? fun n => decide (n.addr = addr) with
      | none => none
      | some n => if n.inst.iid = iid then some (some n, ac) else some searched

/-- The handlers that begin with `find_instance`. -/
def withInstance {ρ : Type} (iid : Id) (notFound : ρ) (ac : AccessControl)
    (f : Node → AccessControl → ρ × AccessControl) : Option (ρ × AccessControl) :=
  match findInstance iid ac with
  | none => none
  | some (none, ac) => some (notFound, ac)
  | some (some n, ac) => some (f n ac)

/-- `ac_list_instances`. -/
def listInstances (ac : AccessControl) : List Id × Int := (ac.current.instances.map fun n => n.inst.iid, 0)

/-- `ac_list_resources`. -/
def listResources (iid : Id) (ac : AccessControl) : Option (List ResourceEntry × AccessControl) :=
  match findInstance iid ac with
  | none => none
  | some (inst, ac) =>
      some ([⟨ridOid, .r, true⟩, ⟨ridOiid, .r, true⟩, ⟨ridAcl, .rwm, inst.any fun n => n.inst.hasAcl⟩,
        ⟨ridOwner, .rw, true⟩], ac)

/-- `ac_list_resource_instances`. -/
def listResourceInstances (iid rid : Id) (ac : AccessControl) : Option ((List Id × Int) × AccessControl) :=
  if rid ≠ ridAcl then none
  else withInstance iid ([], errNotFound) ac fun n ac => ((n.inst.acl.map AclEntry.ssid, 0), ac)

/-- The `switch` of `ac_resource_read`: the value, or the code that is returned. -/
def readResource (rid riid : Id) (inst : Instance) : Except Int Int :=
  if rid = ridOid then .ok inst.target.oid.val
  else if rid = ridOiid then .ok (inst.target.iid.elim (-1) fun iid => (iid.val : Int))
  else if rid = ridAcl then
    match inst.acl.find? fun e => decide (riid ≤ e.ssid) with
    | none => .error errNotFound
    | some e => if e.ssid = riid then .ok e.mask.val else .error errNotFound
  else if rid = ridOwner then .ok inst.owner.val
  else .error errNotImplemented

/-- `ac_resource_read`. -/
def resourceRead (iid rid riid : Id) (ac : AccessControl) : Option (Except Int Int × AccessControl) :=
  withInstance iid (.error errNotFound) ac fun n ac => (readResource rid riid n.inst, ac)

/-! ## 3. Adding Instances -/

def Node.setIid (n : Node) (iid : Id) : Node := ⟨n.addr, { n.inst with iid := iid }⟩

/-- `add_instances_without_iids` for one Instance, from `proposed` on; `queued` is what
    `_anjay_notify_queue_instance_created` returns. There is no result where an assertion fails. -/
def insertWithoutIid (queued : Int) (node : Node) : List Node → Nat → Option (Int × List Node)
  | [], proposed =>
      if 65535 ≤ proposed then some (-1, [])
      else if queued ≠ 0 then some (queued, [])
      else some (0, [node.setIid (Fin.ofNat 65536 proposed)])
  | n :: nodes, proposed =>
      if 65535 ≤ proposed then some (-1, n :: nodes)
      else if proposed < n.inst.iid.val then
        if queued ≠ 0 then some (queued, n :: nodes)
        else some (0, node.setIid (Fin.ofNat 65536 proposed) :: n :: nodes)
      else if proposed = n.inst.iid.val then
        (insertWithoutIid queued node nodes (proposed + 1)).map fun r => (r.1, n :: r.2)
      else none

/-- `_anjay_access_control_add_instance`, for an Instance with an id. -/
def insertWithIid (queued : Int) (node : Node) : List Node → Int × List Node
  | [] => if queued = 0 then (0, [node]) else (queued, [])
  | n :: nodes =>
      if n.inst.iid = node.inst.iid then (-1, n :: nodes)
      else if node.inst.iid < n.inst.iid then
        if queued = 0 then (0, node :: n :: nodes) else (queued, n :: nodes)
      else
        let r := insertWithIid queued node nodes
        (r.1, n :: r.2)

/-- `_anjay_access_control_add_instance`. -/
def addInstance (queued : Int) (node : Node) (nodes : List Node) : Option (Int × List Node) :=
  if node.inst.iid = idInvalid then insertWithoutIid queued node nodes 0
  else some (insertWithIid queued node nodes)

/-- `_anjay_access_control_add_instance` on the Object, for an Instance in a new list element. -/
def addNew (queued : Int) (inst : Instance) (ac : AccessControl) : Option (Int × AccessControl) :=
  (addInstance queued ⟨ac.nextAddr, inst⟩ ac.current.instances).map fun r =>
    (r.1, { ac.setInstances r.2 with nextAddr := ac.nextAddr + 1 })

/-! ## 4. Handlers -/

/-- `ac_instance_reset`. -/
def instanceReset (iid : Id) (ac : AccessControl) : Option (Int × AccessControl) :=
  withInstance iid errNotFound ac fun n ac =>
    (0, (ac.modifyAt n.addr fun inst => { inst with acl := [], hasAcl := false, owner := 0 }).changed)

/-- What `ac_instance_create` starts with. -/
def Instance.created (iid : Id) : Instance := ⟨iid, ⟨0, none⟩, ssidBootstrap, false, []⟩

/-- `ac_instance_create`; `mem` is the number of allocations that succeed. -/
def instanceCreate (mem : Nat) (iid : Id) (ac : AccessControl) : Option (Int × AccessControl) :=
  if mem = 0 then some (errInternal, ac)
  else (addNew 0 (.created iid) ac).map fun r => (r.1, r.2.changed)

/-- The loop of `ac_instance_remove`: what is left, if an Instance was found. -/
def removeNode (iid : Id) : List Node → Option (List Node)
  | [] => none
  | n :: nodes =>
      if n.inst.iid = iid then some nodes
      else if iid < n.inst.iid then none
      else (removeNode iid nodes).map (n :: ·)

/-- `ac_instance_remove`; there is no result where the cached pointer is followed and does not point to
    an element. -/
def instanceRemove (iid : Id) (ac : AccessControl) : Option (Int × AccessControl) :=
  match removeNode iid ac.current.instances with
  | none => some (errNotFound, ac)
  | some nodes =>
      match ac.lastAccessedInstance with
      | none => some (0, (ac.setInstances nodes).markModified)
      | some addr =>
          match ac.current.instances.find? fun n => decide (n.addr = addr) with
          | none => none
          | some n =>
              let cached := if n.inst.iid = iid then none else some addr
              some (0, ({ ac with lastAccessedInstance := cached }.setInstances nodes).markModified)

/-- The order of the entries of an ACL. -/
def AclEntry.cmp (a b : AclEntry) : Int := a.ssid.val - b.ssid.val

/-- The search of `write_to_acl_array` and `set_acl_in_instance` ends at an entry of the SSID. -/
def aclHas (acl : List AclEntry) (ssid : Id) : Bool :=
  (acl.find? fun e => decide (ssid ≤ e.ssid)).any fun e => decide (e.ssid = ssid)

/-- What follows that search: the mask is set in the entry found, or in one put in before. -/
def aclSet (acl : List AclEntry) (ssid : Id) (mask : Mask) : List AclEntry :=
  upsert AclEntry.cmp ⟨mask, ssid⟩ (fun e => { e with mask := mask }) acl

/-- `write_to_acl_array`; `input` is what `anjay_get_i32` gives, and `mem` says whether an entry can be
    allocated. -/
def writeToAclArray (mem : Bool) (ssid : Id) (input : Except Int Int) (acl : List AclEntry) :
    Int × List AclEntry :=
  match input with
  | .error _ => (errInternal, acl)
  | .ok mask =>
      if aclHas acl ssid || mem then (0, aclSet acl ssid (Fin.ofNat 65536 (mask % 65536).toNat))
      else (errInternal, acl)

/-- `_anjay_access_control_target_oid_valid`. -/
def targetOidValid (oid : Int) : Bool := decide (1 ≤ oid) && decide (oid ≠ 2) && decide (oid < 65535)

/-- The `switch` of `ac_resource_write`, for a single-instance Resource: the range of the values, and
    what is set. -/
def writeNumber (input : Except Int Int) (valid : Int → Bool) (set : Id → Instance → Instance)
    (n : Node) (ac : AccessControl) : Int × AccessControl :=
  match input with
  | .error code => (code, ac)
  | .ok value =>
      if valid value then (0, (ac.modifyAt n.addr (set (Fin.ofNat 65536 value.toNat))).changed)
      else (errBadRequest, ac)

/-- `ac_resource_write`. -/
def resourceWrite (mem : Bool) (iid rid riid : Id) (input : Except Int Int) (ac : AccessControl) :
    Option (Int × AccessControl) :=
  withInstance iid errNotFound ac fun n ac =>
    if rid = ridOid then
      writeNumber input targetOidValid
        (fun oid inst => { inst with target := { inst.target with oid := oid } }) n ac
    else if rid = ridOiid then
      writeNumber input (fun oiid => decide (0 ≤ oiid) && decide (oiid ≤ 65535))
        (fun oiid inst => { inst with target := { inst.target with iid := some oiid } }) n ac
    else if rid = ridAcl then
      let r := writeToAclArray mem riid input n.inst.acl
      if r.1 = 0 then
        (0, (ac.modifyAt n.addr fun inst => { inst with acl := r.2, hasAcl := true }).changed)
      else (r.1, ac)
    else if rid = ridOwner then
      writeNumber input (fun ssid => decide (0 < ssid) && decide (ssid ≤ 65535))
        (fun ssid inst => { inst with owner := ssid }) n ac
    else (errNotFound, ac)

/-- `ac_resource_reset`, on the ACL. -/
def resourceReset (iid : Id) (ac : AccessControl) : Option (Int × AccessControl) :=
  withInstance iid errNotFound ac fun n ac =>
    (0, (ac.modifyAt n.addr fun inst => { inst with acl := [], hasAcl := true }).changed)

/-! ## 5. `anjay_access_control_set_acl` -/

def maskCreate : Nat := 16
def maskFull : Nat := 31

/-- `_anjay_access_control_validate_ssid`. -/
def validateSsid (dm : DataModel σ) (ssid : Id) : Bool :=
  decide (ssid ≠ ssidBootstrap) && (decide (ssid = ssidAny) || ssidExists dm ssid)

/-- `_anjay_access_control_create_missing_ac_instance`; with the number of allocations left. -/
def createMissingAcInstance (mem : Nat) (owner : Id) (target : AclTarget) : Option (Instance × Nat) :=
  if mem = 0 then none
  else if owner ≠ ssidBootstrap ∧ target.iid ≠ some idInvalid then
    if mem = 1 then none else some (⟨idInvalid, target, owner, true, [⟨15, owner⟩]⟩, mem - 2)
  else some (⟨idInvalid, target, owner, true, []⟩, mem - 1)

/-- `find_ac_instance`. -/
def findAcInstance (oid iid : Id) (nodes : List Node) : Option Node :=
  nodes.find? fun n => decide (n.inst.target.oid = oid) && decide (n.inst.target.iid = some iid)

/-- `target_instance_reachable`. -/
def targetInstanceReachable (dm : DataModel σ) (oid iid : Id) : Bool :=
  targetOidValid oid.val &&
    match dm.findObject oid with
    | none => false
    | some obj => decide (iid = idInvalid) || decide (0 < obj.instancePresent dm.state iid)

/-- `set_acl_in_instance`. -/
def setAclInInstance (dm : DataModel σ) (mem : Nat) (ssid : Id) (mask : Mask) (inst : Instance) :
    Int × Instance :=
  if aclHas inst.acl ssid then (0, { inst with acl := aclSet inst.acl ssid mask })
  else if validateSsid dm ssid = false ∨ mem = 0 then (-1, inst)
  else (0, { inst with acl := aclSet inst.acl ssid mask, hasAcl := true })

/-- `set_acl`; `notified` is what `anjay_notify_instances_changed` returns. -/
def setAcl (dm : DataModel σ) (mem : Nat) (notified queued : Int) (oid iid ssid : Id) (mask : Mask)
    (ac : AccessControl) : Option (Int × AccessControl) :=
  match findAcInstance oid iid ac.current.instances with
  | some n =>
      let r := setAclInInstance dm mem ssid mask n.inst
      if r.1 = 0 then some (0, (ac.modifyAt n.addr fun _ => r.2).markModified) else some (r.1, ac)
  | none =>
      if targetInstanceReachable dm oid iid then
        match createMissingAcInstance mem ssidBootstrap ⟨oid, some iid⟩ with
        | none => some (-1, ac)
        | some (inst, mem) =>
            let r := setAclInInstance dm mem ssid mask inst
            if r.1 ≠ 0 then some (r.1, ac)
            else if notified ≠ 0 then some (notified, ac)
            else
              (addNew queued r.2 ac).map fun added =>
                (added.1, if added.1 = 0 then added.2.markModified else added.2)
      else some (-1, ac)

/-- `anjay_access_control_set_acl`. -/
def accessControlSetAcl (dm : DataModel σ) (mem : Nat) (notified queued : Int) (oid iid ssid : Id)
    (mask : Mask) (ac : AccessControl) : Option (Int × AccessControl) :=
  if ssid = ssidBootstrap then some (-1, ac)
  else if mask.val &&& maskFull ≠ mask.val then some (-1, ac)
  else if iid ≠ idInvalid ∧ mask.val &&& maskCreate ≠ 0 then some (-1, ac)
  else if iid = idInvalid ∧ mask.val &&& maskCreate ≠ mask.val then some (-1, ac)
  else setAcl dm mem notified queued oid iid ssid mask ac

/-! ## 6. Transactions -/

/-- `_anjay_access_control_clone_state`: the copies and the next free address, if there is memory for
    them all. -/
def cloneInstances : Nat → Nat → List Node → Option (List Node × Nat)
  | _, addr, [] => some ([], addr)
  | mem, addr, n :: nodes =>
      if mem < 1 + n.inst.acl.length then none
      else
        (cloneInstances (mem - (1 + n.inst.acl.length)) (addr + 1) nodes).map fun r =>
          (⟨addr, n.inst⟩ :: r.1, r.2)

/-- `ac_transaction_begin`. -/
def transactionBegin (mem : Nat) (ac : AccessControl) : Option (Int × AccessControl) :=
  if ac.inTransaction ∨ ac.savedState.instances ≠ [] then none
  else
    match cloneInstances mem ac.nextAddr ac.current.instances with
    | none => some (errInternal, { ac with savedState := .empty })
    | some (nodes, addr) =>
        some (0, { ac with
          savedState := ⟨nodes, ac.current.modifiedSincePersist⟩
          inTransaction := true
          nextAddr := addr })

/-- `ac_transaction_commit`. -/
def transactionCommit (ac : AccessControl) : Option (Int × AccessControl) :=
  if ac.inTransaction then
    some (0, { ac with savedState := .empty, needsValidation := false, inTransaction := false })
  else none

/-- `ac_transaction_rollback`. -/
def transactionRollback (ac : AccessControl) : Option (Int × AccessControl) :=
  if ac.inTransaction then
    some (0, { ac with
      current := ac.savedState
      savedState := .empty
      needsValidation := false
      inTransaction := false
      lastAccessedInstance := none })
  else none

/-- `anjay_access_control_purge`. -/
def accessControlPurge (ac : AccessControl) : AccessControl :=
  { ac with current := ⟨[], true⟩, lastAccessedInstance := none, needsValidation := false }

/-- `anjay_access_control_is_modified`. -/
def accessControlIsModified (ac : AccessControl) : Bool :=
  if ac.inTransaction then ac.savedState.modifiedSincePersist else ac.current.modifiedSincePersist

/-! ## 7. What is kept in order -/

/-- The entries of an ACL ascend, and without the ACL Resource there are none. -/
structure Instance.Tidy (inst : Instance) : Prop where
  sorted : Sorted AclEntry.ssid inst.acl
  absent : inst.hasAcl = false → inst.acl = []

/-- The Instances ascend and are tidy. -/
structure Tidy (nodes : List Node) : Prop where
  sorted : Sorted (fun n => n.inst.iid) nodes
  tidy : ∀ n ∈ nodes, n.inst.Tidy

theorem Tidy.nil : Tidy [] := ⟨List.Pairwise.nil, fun _ h => absurd h List.not_mem_nil⟩

/-- `nodes'` is `nodes` with `node` put in between the smaller and the greater ones. -/
def Inserted (node : Node) (nodes nodes' : List Node) : Prop :=
  ∃ before after, nodes = before ++ after ∧ nodes' = before ++ node :: after ∧
    (∀ n ∈ before, n.inst.iid < node.inst.iid) ∧ ∀ n ∈ after, node.inst.iid < n.inst.iid

theorem Inserted.mem {node : Node} {nodes nodes' : List Node} (h : Inserted node nodes nodes') {n : Node} :
    n ∈ nodes' ↔ n = node ∨ n ∈ nodes := by
  obtain ⟨before, after, rfl, rfl, -, -⟩ := h
  rw [List.mem_append, List.mem_cons, List.mem_append]
  constructor
  · rintro (h | h | h)
    · exact Or.inr (Or.inl h)
    · exact Or.inl h
    · exact Or.inr (Or.inr h)
  · rintro (h | h | h)
    · exact Or.inr (Or.inl h)
    · exact Or.inl h
    · exact Or.inr (Or.inr h)

/-- The id of the new element was free. -/
theorem Inserted.fresh {node : Node} {nodes nodes' : List Node} (h : Inserted node nodes nodes') :
    ∀ n ∈ nodes, n.inst.iid ≠ node.inst.iid := by
  obtain ⟨before, after, rfl, -, hbefore, hafter⟩ := h
  intro n hn
  rcases List.mem_append.mp hn with hn | hn
  · exact (hbefore n hn).ne
  · exact (hafter n hn).ne'

theorem Inserted.cons {a node : Node} {nodes nodes' : List Node} (h : Inserted node nodes nodes')
    (ha : a.inst.iid < node.inst.iid) : Inserted node (a :: nodes) (a :: nodes') := by
  obtain ⟨before, after, rfl, rfl, hbefore, hafter⟩ := h
  exact ⟨a :: before, after, rfl, rfl, List.forall_mem_cons.mpr ⟨ha, hbefore⟩, hafter⟩

theorem Tidy.inserted {node : Node} {nodes nodes' : List Node} (h : Tidy nodes) (hnode : node.inst.Tidy)
    (hins : Inserted node nodes nodes') : Tidy nodes' := by
  refine ⟨?_, fun n hn => ?_⟩
  · obtain ⟨before, after, rfl, rfl, hbefore, hafter⟩ := hins
    obtain ⟨hb, ha, hab⟩ := List.pairwise_append.mp h.sorted
    refine List.pairwise_append.mpr ⟨hb, List.pairwise_cons.mpr ⟨hafter, ha⟩, fun x hx y hy => ?_⟩
    rcases List.mem_cons.mp hy with rfl | hy
    · exact hbefore x hx
    · exact hab x hx y hy
  · rcases hins.mem.mp hn with rfl | hn
    · exact hnode
    · exact h.tidy n hn

/-- The id that is found for an Instance without one: free, with all smaller ones taken. -/
def LeastFree (iid : Id) (nodes : List Node) : Prop :=
  iid ≠ idInvalid ∧ (∀ n ∈ nodes, n.inst.iid ≠ iid) ∧ ∀ k, k < iid → ∃ n ∈ nodes, n.inst.iid = k

theorem val_ofNat {k : Nat} (h : k < 65535) : (Fin.ofNat 65536 k : Id).val = k :=
  Nat.mod_eq_of_lt (Nat.lt_succ_of_lt h)

/-- **Among sorted Instances, the assertions hold**: nothing is changed, or the Instance gets the least
    id from `proposed` on that is free, and is put where it belongs. -/
theorem insertWithoutIid_spec (queued : Int) (node : Node) : ∀ {nodes : List Node} {proposed : Nat},
    Sorted (fun n => n.inst.iid) nodes → (∀ n ∈ nodes, proposed ≤ n.inst.iid.val) →
      (∃ result, insertWithoutIid queued node nodes proposed = some (result, nodes) ∧ result ≠ 0) ∨
      ∃ iid nodes', insertWithoutIid queued node nodes proposed = some (0, nodes') ∧
        Inserted (node.setIid iid) nodes nodes' ∧ proposed ≤ iid.val ∧ iid ≠ idInvalid ∧
        ∀ k : Id, proposed ≤ k.val → k < iid → ∃ n ∈ nodes, n.inst.iid = k
  | [], proposed, _, _ => by
      unfold insertWithoutIid
      split
      · exact Or.inl ⟨-1, rfl, by decide⟩
      next hlt =>
      have hval := val_ofNat (Nat.not_le.mp hlt)
      split
      next hq => exact Or.inl ⟨queued, rfl, hq⟩
      · refine Or.inr ⟨Fin.ofNat 65536 proposed, _, rfl, ⟨[], [], rfl, rfl, ?_, ?_⟩, hval.ge, ?_, ?_⟩
        · exact fun n hn => absurd hn List.not_mem_nil
        · exact fun n hn => absurd hn List.not_mem_nil
        · intro h
          have : proposed = 65535 := hval.symm.trans (congrArg Fin.val h)
          omega
        · intro k hk hlt
          have := Fin.lt_def.mp hlt
          omega
  | n :: nodes, proposed, hs, hle => by
      obtain ⟨hn, hs'⟩ := List.pairwise_cons.mp hs
      have hproposed := hle n List.mem_cons_self
      unfold insertWithoutIid
      split
      · exact Or.inl ⟨-1, rfl, by decide⟩
      next hlt =>
      have hval := val_ofNat (Nat.not_le.mp hlt)
      split
      next hfree =>
        have hbelow : (Fin.ofNat 65536 proposed : Id) < n.inst.iid := Fin.lt_def.mpr (hval.symm ▸ hfree)
        split
        next hq => exact Or.inl ⟨queued, rfl, hq⟩
        · refine Or.inr ⟨Fin.ofNat 65536 proposed, _, rfl, ⟨[], n :: nodes, rfl, rfl, ?_, ?_⟩, hval.ge, ?_, ?_⟩
          · exact fun n hn => absurd hn List.not_mem_nil
          · exact List.forall_mem_cons.mpr ⟨hbelow, fun m hm => hbelow.trans (hn m hm)⟩
          · intro h
            have : proposed = 65535 := hval.symm.trans (congrArg Fin.val h)
            omega
          · intro k hk hlt
            have := Fin.lt_def.mp hlt
            omega
      next htaken =>
      have heq : proposed = n.inst.iid.val := Nat.le_antisymm hproposed (Nat.not_lt.mp htaken)
      rw [if_pos heq]
      have hle' : ∀ m ∈ nodes, proposed + 1 ≤ m.inst.iid.val := by
        intro m hm
        have hlt' : n.inst.iid.val < m.inst.iid.val := Fin.lt_def.mp (hn m hm)
        omega
      rcases insertWithoutIid_spec queued node hs' hle' with
        ⟨result, hr, hne⟩ | ⟨iid, nodes', hr, hins, hiid, hvalid, hleast⟩
      · exact Or.inl ⟨result, by rw [hr]; rfl, hne⟩
      · refine Or.inr ⟨iid, n :: nodes', by rw [hr]; rfl, hins.cons ?_, Nat.le_of_succ_le hiid, hvalid, ?_⟩
        · exact Fin.lt_def.mpr (by show n.inst.iid.val < iid.val; omega)
        · intro k hk hlt
          by_cases hkn : k = n.inst.iid
          · exact ⟨n, List.mem_cons_self, hkn.symm⟩
          · have hne : k.val ≠ n.inst.iid.val := fun h => hkn (Fin.ext h)
            obtain ⟨m, hm, hmk⟩ := hleast k (by omega) hlt
            exact ⟨m, List.mem_cons_of_mem _ hm, hmk⟩

/-- **An Instance with an id is put where it belongs**, or nothing is changed. -/
theorem insertWithIid_spec (queued : Int) (node : Node) : ∀ {nodes : List Node},
    Sorted (fun n => n.inst.iid) nodes →
      ((insertWithIid queued node nodes).1 ≠ 0 ∧ (insertWithIid queued node nodes).2 = nodes) ∨
      ((insertWithIid queued node nodes).1 = 0 ∧ Inserted node nodes (insertWithIid queued node nodes).2)
  | [], _ => by
      unfold insertWithIid
      split
      · refine Or.inr ⟨rfl, [], [], rfl, rfl, ?_, ?_⟩
        · exact fun n hn => absurd hn List.not_mem_nil
        · exact fun n hn => absurd hn List.not_mem_nil
      next hq => exact Or.inl ⟨hq, rfl⟩
  | n :: nodes, hs => by
      obtain ⟨hn, hs'⟩ := List.pairwise_cons.mp hs
      unfold insertWithIid
      split
      · exact Or.inl ⟨show (-1 : Int) ≠ 0 by decide, rfl⟩
      next hne =>
      split
      next hlt =>
        split
        · refine Or.inr ⟨rfl, [], n :: nodes, rfl, rfl, fun n hn => absurd hn List.not_mem_nil, ?_⟩
          exact List.forall_mem_cons.mpr ⟨hlt, fun m hm => hlt.trans (hn m hm)⟩
        next hq => exact Or.inl ⟨hq, rfl⟩
      next hnlt =>
      have hbelow : n.inst.iid < node.inst.iid := lt_of_le_of_ne (not_lt.mp hnlt) hne
      rcases insertWithIid_spec queued node hs' with ⟨hr, hsame⟩ | ⟨hr, hins⟩
      · exact Or.inl ⟨hr, congrArg (n :: ·) hsame⟩
      · exact Or.inr ⟨hr, hins.cons hbelow⟩

/-- What an addition does: nothing, with an error, or it puts the Instance in, under its own id or the
    least that is free. -/
structure Added (inst : Instance) (addr : Nat) (nodes : List Node) (result : Int) (nodes' : List Node) :
    Prop where
  failed : result ≠ 0 → nodes' = nodes
  added : result = 0 → ∃ iid, Inserted ⟨addr, { inst with iid := iid }⟩ nodes nodes' ∧
    (inst.iid = idInvalid → LeastFree iid nodes) ∧ (inst.iid ≠ idInvalid → iid = inst.iid)

/-- **Among sorted Instances an addition never trips an assertion.** -/
theorem addInstance_spec (queued : Int) (node : Node) {nodes : List Node}
    (hs : Sorted (fun n => n.inst.iid) nodes) :
    ∃ result nodes', addInstance queued node nodes = some (result, nodes') ∧
      Added node.inst node.addr nodes result nodes' := by
  unfold addInstance
  by_cases hnew : node.inst.iid = idInvalid
  · rw [if_pos hnew]
    rcases insertWithoutIid_spec queued node hs (fun n _ => Nat.zero_le n.inst.iid.val)
      with ⟨result, hr, hne⟩ | ⟨iid, nodes', hr, hins, -, hvalid, hleast⟩
    · exact ⟨result, nodes, hr, fun _ => rfl, fun h0 => absurd h0 hne⟩
    · refine ⟨0, nodes', hr, fun h => absurd rfl h, fun _ => ⟨iid, hins, fun _ => ?_, fun h => absurd hnew h⟩⟩
      exact ⟨hvalid, hins.fresh, fun k hk => hleast k (Nat.zero_le _) hk⟩
  · rw [if_neg hnew]
    refine ⟨_, _, rfl, ?_⟩
    rcases insertWithIid_spec queued node hs with ⟨hr, hsame⟩ | ⟨hr, hins⟩
    · exact ⟨fun _ => hsame, fun h0 => absurd h0 hr⟩
    · exact ⟨fun h => absurd hr h, fun _ => ⟨node.inst.iid, hins, fun h => absurd h hnew, fun _ => rfl⟩⟩

theorem cmp_reflects : Reflects AclEntry.cmp AclEntry.ssid := by
  constructor
  · intro a b
    rw [Fin.lt_def]
    unfold AclEntry.cmp
    omega
  · intro a b
    rw [Fin.lt_def]
    unfold AclEntry.cmp
    omega

theorem aclSet_sorted {acl : List AclEntry} (h : Sorted AclEntry.ssid acl) (ssid : Id) (mask : Mask) :
    Sorted AclEntry.ssid (aclSet acl ssid mask) := by
  refine upsert_sorted cmp_reflects ?_ h
  exact fun _ => rfl

theorem writeToAclArray_sorted {acl : List AclEntry} (h : Sorted AclEntry.ssid acl) (mem : Bool) (ssid : Id)
    (input : Except Int Int) : Sorted AclEntry.ssid (writeToAclArray mem ssid input acl).2 := by
  unfold writeToAclArray
  split
  · exact h
  · split
    · exact aclSet_sorted h _ _
    · exact h

theorem setAclInInstance_tidy (dm : DataModel σ) {inst : Instance} (h : inst.Tidy) (mem : Nat) (ssid : Id)
    (mask : Mask) : (setAclInInstance dm mem ssid mask inst).2.Tidy ∧
      (setAclInInstance dm mem ssid mask inst).2.iid = inst.iid := by
  unfold setAclInInstance
  split
  next hhas =>
    refine ⟨⟨aclSet_sorted h.sorted _ _, fun habs => ?_⟩, rfl⟩
    -- an ACL with an entry is there
    rw [h.absent habs] at hhas
    cases hhas
  split
  · exact ⟨h, rfl⟩
  · exact ⟨⟨aclSet_sorted h.sorted _ _, nofun⟩, rfl⟩

end Anjay.Ac
