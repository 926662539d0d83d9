/-
  File:      Anjay/AccessControl/Access.lean
  Subject:   The decision whether a server may perform an action (`anjay_access_utils.c`).

  * `getMask_entries`: what the walk over an ACL finds.
  * `instanceActionAllowed_iff`: the decision is that of the Access Control Instances, if they are listed in
    ascending order; `instanceActionAllowed_order`: not if they are listed in another one.
-/
import Anjay.AccessControl.Object

namespace Anjay.Ac

open Dm Lib

variable {σ τ : Type}

/-! ## 1. Actions and rights -/

/-- `anjay_request_action_t`. -/
inductive RequestAction
  | read
  | discover
  | write
  | writeUpdate
  | writeAttributes
  | execute
  | create
  | delete
  | bootstrapFinish
  deriving DecidableEq, Repr

/-- `anjay_action_info_t`. -/
structure ActionInfo where
  oid : Id
  iid : Id
  ssid : Id
  action : RequestAction
  deriving DecidableEq, Repr

/-- `ANJAY_ACCESS_MASK_READ` and so on. -/
inductive Right
  | read
  | write
  | execute
  | delete
  | create
  deriving DecidableEq, Repr

def Right.bit : Right → Nat
  | read => 0
  | write => 1
  | execute => 2
  | delete => 3
  | create => 4

/-- The test of one bit of a mask. -/
def Mask.has (mask : Mask) (right : Right) : Bool := mask.val.testBit right.bit

def maskNone : Mask := 0

/-- `ANJAY_ACCESS_MASK_FULL & ~ANJAY_ACCESS_MASK_CREATE`. -/
def maskFullButCreate : Mask := 15

/-- The right that the last `switch` of `_anjay_instance_action_allowed` tests, and that of a Create. -/
def RequestAction.right : RequestAction → Option Right
  | read | writeAttributes => some .read
  | write | writeUpdate => some .write
  | execute => some .execute
  | delete => some .delete
  | create => some .create
  | discover | bootstrapFinish => none

/-! ## 2. The Access Control Object as it is read -/

/-- The data model, with the reads of Resource Instances; the first number is the code of the handler. -/
structure AccessModel (σ : Type) extends DataModel σ where
  readInstance : Id → Id → Id → Id → Int × Int

namespace AccessModel

/-- `read_u16` of a Resource of the Access Control Object. -/
def readU16 (dm : AccessModel σ) (iid rid : Id) : Option Id :=
  match dm.readResourceI64 oidAccessControl iid rid with
  | none => none
  | some ret => if 0 ≤ ret ∧ ret < 65536 then some (Fin.ofNat 65536 ret.toNat) else none

/-- `get_mask_instance_clb_args_t`, without `ssid_lookup`. -/
structure GetMaskArgs where
  aclEmpty : Bool
  foundSsid : Id
  mask : Mask
  deriving DecidableEq, Repr

/-- `get_mask_instance_clb`, with `read_mask`. -/
def getMaskInstanceClb (dm : AccessModel σ) (iid ssidLookup riid : Id) (args : GetMaskArgs) : Int × GetMaskArgs :=
  let args := { args with aclEmpty := false }
  if riid = ssidLookup ∨ riid = 0 then
    let read := dm.readInstance oidAccessControl iid ridAcl riid
    if read.1 ≠ 0 then (read.1, args)
    else
      let found : GetMaskArgs := ⟨false, riid, Fin.ofNat 65536 (read.2 % 65536).toNat⟩
      if riid ≠ 0 then (foreachBreak, found) else (0, found)
  else (0, args)

/-- `foreach_acl`. -/
def foreachAcl (dm : AccessModel σ) (ac : ObjectDef σ) (iid : Id) (handler : Id → τ → Int × τ) (t : τ) : Int × τ :=
  match ac.resourceKindAndPresence dm.state iid ridAcl with
  | .error result => (result, t)
  | .ok (kind, present) =>
      if present then
        if !kind.readable || !kind.multiple then (-1, t)
        else ac.foreachResourceInstance dm.state iid ridAcl handler t
      else (0, t)

/-- `find_ac_instance_clb`; the result is -1 where an id cannot be read. -/
def findAcInstanceClb (dm : AccessModel σ) (oid iid acIid found : Id) : Int × Id :=
  match dm.readU16 acIid ridOid, dm.readU16 acIid ridOiid with
  | some resOid, some resOiid => if resOid = oid ∧ resOiid = iid then (foreachBreak, acIid) else (0, found)
  | _, _ => (-1, found)

/-- `find_ac_instance_by_target`. -/
def findAcInstanceByTarget (dm : AccessModel σ) (ac : ObjectDef σ) (oid iid : Id) : Option Id :=
  match ac.foreachInstance dm.state (dm.findAcInstanceClb oid iid) idInvalid with
  | (result, found) => if result ≠ 0 ∨ found = idInvalid then none else some found

/-- `get_mask`: the SSID and the mask that it hands out. -/
def getMask (dm : AccessModel σ) (ac : ObjectDef σ) (iid ssid : Id) : Option (Id × Mask) :=
  match dm.foreachAcl ac iid (dm.getMaskInstanceClb iid ssid) ⟨true, 0, maskNone⟩ with
  | (result, args) =>
      if result ≠ 0 then none else some (if args.aclEmpty then ssidBootstrap else args.foundSsid, args.mask)

/-- `access_control_mask`. -/
def accessControlMask (dm : AccessModel σ) (oid iid ssid : Id) : Mask :=
  match dm.findObject oidAccessControl with
  | none => maskNone
  | some ac =>
      match dm.findAcInstanceByTarget ac oid iid with
      | none => maskNone
      | some acIid =>
          match dm.getMask ac acIid ssid with
          | none => maskNone
          | some (foundSsid, mask) =>
              if foundSsid = ssid then mask
              else if foundSsid = ssidBootstrap then
                if dm.readU16 acIid ridOwner = some ssid then maskFullButCreate else maskNone
              else if foundSsid = 0 then mask
              else maskNone

/-- `can_instantiate`. -/
def canInstantiate (dm : AccessModel σ) (info : ActionInfo) : Bool :=
  (dm.accessControlMask info.oid idInvalid info.ssid).has .create

/-- `is_single_ssid_environment`, with `count_non_bootstrap_clb`. -/
def isSingleSsidEnvironment (servers : List Id) : Bool := (servers.filter (· ≠ ssidBootstrap)).length = 1

/-- The part of `_anjay_instance_action_allowed` about the Access Control Object. -/
def accessControlActionAllowed (dm : AccessModel σ) (info : ActionInfo) : Bool :=
  match info.action with
  | .read | .writeAttributes => true
  | .create | .delete => false
  | _ => dm.readU16 info.iid ridOwner = some info.ssid

/-- `_anjay_instance_action_allowed`. The source asserts that the Object is not the Security Object and that an Instance is
    given unless the action is Create, and has `AVS_UNREACHABLE` in front of the `false` for an action without a right;
    its callers keep to that. -/
def instanceActionAllowed (dm : AccessModel σ) (servers : List Id) (info : ActionInfo) : Bool :=
  if info.ssid = ssidBootstrap then true
  else if info.action = .discover then true
  else if (dm.findObject oidAccessControl).isNone || isSingleSsidEnvironment servers then true
  else if info.oid = oidAccessControl then dm.accessControlActionAllowed info
  else if info.action = .create then dm.canInstantiate info
  else
    match info.action.right with
    | none => false
    | some right => (dm.accessControlMask info.oid info.iid info.ssid).has right

end AccessModel

/-! ## 3. The decision -/

/-- The entry of an SSID, if it has one, and else the default entry; where there are none at all, the owner has
    all rights but Create. -/
def Instance.grants (inst : Instance) (ssid : Id) (right : Right) : Prop :=
  (∃ e ∈ inst.acl, e.ssid = ssid ∧ e.mask.has right = true) ∨
  ((∀ e ∈ inst.acl, e.ssid ≠ ssid) ∧ ∃ e ∈ inst.acl, e.ssid = 0 ∧ e.mask.has right = true) ∨
  (inst.acl = [] ∧ inst.owner = ssid ∧ right ≠ .create)

/-- **Whether the Access Control Instances let a server perform an action.** -/
inductive Permitted (instances : List Instance) (servers : List Id) (info : ActionInfo) : Prop
  | bootstrap (h : info.ssid = ssidBootstrap)
  | discover (h : info.action = .discover)
  | single (h : ∃ ssid, servers.filter (· ≠ ssidBootstrap) = [ssid])
  | accessControlRead (hoid : info.oid = oidAccessControl) (h : info.action = .read ∨ info.action = .writeAttributes)
  | accessControlOwner (hoid : info.oid = oidAccessControl) (hcreate : info.action ≠ .create)
      (hdelete : info.action ≠ .delete) (h : ∃ inst ∈ instances, inst.iid = info.iid ∧ inst.owner = info.ssid)
  | granted (hoid : info.oid ≠ oidAccessControl) (right : Right) (hright : info.action.right = some right)
      (h : ∃ inst ∈ instances, inst.target = ⟨info.oid, some (if info.action = .create then idInvalid else info.iid)⟩ ∧
        inst.grants info.ssid right)

/-- The Access Control Object has these Instances, with a target each, and can be read; the lists may be in any
    order. -/
structure AccessModel.Stores (dm : AccessModel σ) (ac : ObjectDef σ) (instances : List Instance) : Prop where
  found : dm.findObject oidAccessControl = some ac
  iids : (ac.listInstances dm.state).1.Perm (instances.map Instance.iid)
  listed : 0 ≤ (ac.listInstances dm.state).2
  targets : instances.Pairwise fun a b => a.target ≠ b.target
  oid : ∀ inst ∈ instances, dm.readU16 inst.iid ridOid = some inst.target.oid
  oiid : ∀ inst ∈ instances, ∃ iid, inst.target.iid = some iid ∧ dm.readU16 inst.iid ridOiid = some iid
  owner : ∀ inst ∈ instances, dm.readU16 inst.iid ridOwner = some inst.owner
  owned : ∀ iid owner, dm.readU16 iid ridOwner = some owner → ∃ inst ∈ instances, inst.iid = iid
  resource : ∀ inst ∈ instances, ac.resourceKindAndPresence dm.state inst.iid ridAcl = .ok (.rwm, inst.hasAcl)
  noAcl : ∀ inst ∈ instances, inst.hasAcl = false → inst.acl = []
  acl : ∀ inst ∈ instances, inst.hasAcl = true →
    (ac.listResourceInstances dm.state inst.iid ridAcl).1.Perm (inst.acl.map AclEntry.ssid) ∧
      0 ≤ (ac.listResourceInstances dm.state inst.iid ridAcl).2
  mask : ∀ inst ∈ instances, ∀ e ∈ inst.acl, dm.readInstance oidAccessControl inst.iid ridAcl e.ssid = (0, (e.mask.val : Int))

/-- The lists are in the order that the library asks for. -/
structure AccessModel.InOrder (dm : AccessModel σ) (ac : ObjectDef σ) (instances : List Instance) : Prop where
  iids : Ascending id (-1) (ac.listInstances dm.state).1
  acl : ∀ inst ∈ instances, inst.hasAcl = true → Ascending id (-1) (ac.listResourceInstances dm.state inst.iid ridAcl).1

/-! ## 4. The walks -/

/-- A walk that breaks at the first element of a kind. -/
theorem emitLoop_find {α : Type} {idOf : α → Id} {handler : α → τ → Int × τ} {p : α → Bool} {f : α → τ → τ} :
    ∀ {as : List α} {last : Int}, Ascending idOf last as →
      (∀ a ∈ as, ∀ t, handler a t = if p a then (foreachBreak, f a t) else (0, t)) → ∀ t,
      emitLoop idOf handler as last 0 t =
        match as.find? p with
        | none => (0, t)
        | some a => (foreachBreak, f a t)
  | [], _, _, _, _ => rfl
  | a :: as, last, hasc, h, t => by
      rw [emitLoop_cons hasc, h a List.mem_cons_self]
      cases hp : p a with
      | true =>
          rw [List.find?_cons_of_pos hp, if_pos rfl]
          exact emitLoop_stopped idOf handler (by decide : foreachBreak ≠ 0) as _ _
      | false =>
          rw [List.find?_cons_of_neg (ne_true_of_eq_false hp), if_neg Bool.false_ne_true]
          exact emitLoop_find (ascending_tail hasc) (fun b hb => h b (List.mem_cons_of_mem a hb)) t

theorem foreach_eq {α : Type} {idOf : α → Id} {handler : α → τ → Int × τ} {listed : List α × Int} {t t' : τ} {ret : Int}
    (hcode : 0 ≤ listed.2) (h : emitLoop idOf handler listed.1 (-1) 0 t = (ret, t')) :
    foreach idOf listed handler t = (if ret = foreachBreak then 0 else ret, t') := by
  rw [foreach, h]
  exact if_neg (not_lt.mpr hcode)

theorem ofNat_mask (mask : Mask) : (Fin.ofNat 65536 ((mask.val : Int) % 65536).toNat : Mask) = mask := by
  have hlt := mask.isLt
  refine Fin.ext ?_
  show ((mask.val : Int) % 65536).toNat % 65536 = mask.val
  omega

namespace AccessModel

variable {dm : AccessModel σ} {ac : ObjectDef σ} {instances : List Instance}

/-- What `read_mask` hands out. -/
def aclMask (dm : AccessModel σ) (iid riid : Id) : Mask :=
  Fin.ofNat 65536 ((dm.readInstance oidAccessControl iid ridAcl riid).2 % 65536).toNat

theorem getMaskInstanceClb_read {iid ssid riid : Id} (hread : (dm.readInstance oidAccessControl iid ridAcl riid).1 = 0)
    (h : riid = ssid ∨ riid = 0) (args : GetMaskArgs) :
    dm.getMaskInstanceClb iid ssid riid args =
      (if riid ≠ 0 then foreachBreak else 0, ⟨false, riid, dm.aclMask iid riid⟩) := by
  unfold getMaskInstanceClb
  dsimp only
  rw [if_pos h, if_neg (not_not.mpr hread)]
  split <;> rfl

theorem getMaskInstanceClb_other {iid ssid riid : Id} (h : ¬(riid = ssid ∨ riid = 0)) (args : GetMaskArgs) :
    dm.getMaskInstanceClb iid ssid riid args = (0, { args with aclEmpty := false }) := if_neg h

/-- Behind the default entry, which comes first: only the entry of the SSID itself is looked at. -/
theorem emitLoop_ownEntry {iid ssid : Id} : ∀ {ids : List Id} {last : Int}, Ascending id last ids → 0 ≤ last →
    (∀ riid ∈ ids, (dm.readInstance oidAccessControl iid ridAcl riid).1 = 0) → ∀ args : GetMaskArgs,
    emitLoop id (dm.getMaskInstanceClb iid ssid) ids last 0 args =
      if ids.contains ssid then (foreachBreak, ⟨false, ssid, dm.aclMask iid ssid⟩)
      else (0, { args with aclEmpty := args.aclEmpty && ids.isEmpty })
  | [], _, _, _, _, args => by
      show (0, args) = (0, { args with aclEmpty := args.aclEmpty && true })
      rw [Bool.and_true]
  | riid :: ids, last, hasc, hlast, hread, args => by
      have hgt : last < (riid.val : Int) := (hasc.1 riid List.mem_cons_self).2
      have hne : riid ≠ 0 := by
        intro h
        rw [h] at hgt
        exact absurd hgt (not_lt.mpr hlast)
      rw [emitLoop_cons hasc]
      by_cases hown : riid = ssid
      · subst hown
        rw [getMaskInstanceClb_read (hread riid List.mem_cons_self) (Or.inl rfl), if_pos hne]
        rw [emitLoop_stopped id _ (by decide : foreachBreak ≠ 0),
          if_pos (List.contains_iff_mem.mpr List.mem_cons_self)]
      · rw [getMaskInstanceClb_other (not_or.mpr ⟨hown, hne⟩)]
        have ih := @emitLoop_ownEntry _ ssid _ _ (ascending_tail hasc) (le_trans hlast hgt.le)
          (fun r hr => hread r (List.mem_cons_of_mem riid hr)) { args with aclEmpty := false }
        refine ih.trans ?_
        have hcontains : (riid :: ids).contains ssid = ids.contains ssid := by
          rw [List.contains_cons, beq_false_of_ne (Ne.symm hown), Bool.false_or]
        have hempty : (args.aclEmpty && (riid :: ids).isEmpty) = false := Bool.and_false _
        rw [hcontains, hempty]
        rfl

/-- **What the walk over an ACL finds**: the entry of the SSID, else the default one. -/
theorem getMask_entries {iid ssid : Id} {ids : List Id} (hasc : Ascending id (-1) ids)
    (hread : ∀ riid ∈ ids, (dm.readInstance oidAccessControl iid ridAcl riid).1 = 0) :
    emitLoop id (dm.getMaskInstanceClb iid ssid) ids (-1) 0 ⟨true, 0, maskNone⟩ =
      if ssid ≠ 0 ∧ ssid ∈ ids then (foreachBreak, ⟨false, ssid, dm.aclMask iid ssid⟩)
      else if 0 ∈ ids then (0, ⟨false, 0, dm.aclMask iid 0⟩)
      else (0, ⟨ids.isEmpty, 0, maskNone⟩) := by
  cases ids with
  | nil => rw [if_neg fun h => absurd h.2 List.not_mem_nil, if_neg List.not_mem_nil]; rfl
  | cons riid ids =>
      have htail := ascending_tail hasc
      have hreadTail : ∀ r ∈ ids, (dm.readInstance oidAccessControl iid ridAcl r).1 = 0 :=
        fun r hr => hread r (List.mem_cons_of_mem riid hr)
      by_cases hzero : riid = 0
      · subst hzero
        have hrest : ∀ r ∈ ids, r ≠ 0 := by
          intro r hr h
          have hgt := (htail.1 r hr).2
          rw [h] at hgt
          exact lt_irrefl _ hgt
        rw [emitLoop_cons hasc, getMaskInstanceClb_read (hread 0 List.mem_cons_self) (Or.inr rfl),
          if_neg (not_not.mpr rfl)]
        rw [emitLoop_ownEntry htail (le_refl _) hreadTail]
        by_cases hmem : ssid ∈ ids
        · rw [if_pos (List.contains_iff_mem.mpr hmem), if_pos ⟨hrest ssid hmem, List.mem_cons_of_mem _ hmem⟩]
        · have hother : ¬(ssid ≠ 0 ∧ ssid ∈ 0 :: ids) := fun ⟨hne, h⟩ => (List.mem_cons.mp h).elim hne hmem
          rw [if_neg fun h => hmem (List.contains_iff_mem.mp h), if_neg hother, if_pos List.mem_cons_self]
          rfl
      · have hpos : ∀ r ∈ riid :: ids, r ≠ 0 := by
          intro r hr h
          rcases List.mem_cons.mp hr with rfl | hr
          · exact hzero h
          · have hgt := (htail.1 r hr).2
            rw [h] at hgt
            have hnonneg : (0 : Int) ≤ ((id riid).val : Int) := Int.natCast_nonneg _
            exact absurd hgt (not_lt.mpr hnonneg)
        have hasc' : Ascending id 0 (riid :: ids) := by
          refine ⟨fun r hr => ⟨(hasc.1 r hr).1, ?_⟩, hasc.2⟩
          have hne : r.val ≠ 0 := fun h => hpos r hr (Fin.ext h)
          show (0 : Int) < (r.val : Int)
          omega
        have hstart : emitLoop id (dm.getMaskInstanceClb iid ssid) (riid :: ids) (-1) 0 ⟨true, 0, maskNone⟩ =
            emitLoop id (dm.getMaskInstanceClb iid ssid) (riid :: ids) 0 0 ⟨true, 0, maskNone⟩ :=
          (emitLoop_cons hasc _).trans (emitLoop_cons hasc' _).symm
        rw [hstart, emitLoop_ownEntry hasc' (le_refl _) hread]
        have hdefault : (0 : Id) ∉ riid :: ids := fun h => hpos 0 h rfl
        by_cases hmem : ssid ∈ riid :: ids
        · rw [if_pos (List.contains_iff_mem.mpr hmem), if_pos ⟨hpos ssid hmem, hmem⟩]
        · have hother : ¬(ssid ≠ 0 ∧ ssid ∈ riid :: ids) := fun h => hmem h.2
          rw [if_neg fun h => hmem (List.contains_iff_mem.mp h), if_neg hother, if_neg hdefault]
          rfl

/-! ## 5. The mask of a target -/

theorem aclMask_eq (h : dm.Stores ac instances) {inst : Instance} (hinst : inst ∈ instances) {e : AclEntry}
    (he : e ∈ inst.acl) : dm.aclMask inst.iid e.ssid = e.mask := by
  unfold aclMask
  rw [h.mask inst hinst e he]
  exact ofNat_mask e.mask

theorem getMask_eq (h : dm.Stores ac instances) (ho : dm.InOrder ac instances) {inst : Instance}
    (hinst : inst ∈ instances) (ssid : Id) :
    dm.getMask ac inst.iid ssid = some (
      if ssid ≠ 0 ∧ ssid ∈ inst.acl.map AclEntry.ssid then (ssid, dm.aclMask inst.iid ssid)
      else if 0 ∈ inst.acl.map AclEntry.ssid then (0, dm.aclMask inst.iid 0)
      else (if inst.acl.isEmpty then ssidBootstrap else 0, maskNone)) := by
  unfold getMask foreachAcl
  rw [h.resource inst hinst]
  cases hacl : inst.hasAcl with
  | false =>
      have hnil := h.noAcl inst hinst hacl
      rw [hnil]
      have hown : ¬(ssid ≠ 0 ∧ ssid ∈ List.map AclEntry.ssid []) := fun hmem => absurd hmem.2 List.not_mem_nil
      have hdefault : (0 : Id) ∉ List.map AclEntry.ssid [] := List.not_mem_nil
      rw [if_neg hown, if_neg hdefault]
      rfl
  | true =>
      obtain ⟨hperm, hcode⟩ := h.acl inst hinst hacl
      have hasc := ho.acl inst hinst hacl
      have hread : ∀ riid ∈ (ac.listResourceInstances dm.state inst.iid ridAcl).1,
          (dm.readInstance oidAccessControl inst.iid ridAcl riid).1 = 0 := by
        intro riid hriid
        obtain ⟨e, he, rfl⟩ := List.mem_map.mp (hperm.mem_iff.mp hriid)
        rw [h.mask inst hinst e he]
      have hempty : (ac.listResourceInstances dm.state inst.iid ridAcl).1.isEmpty = inst.acl.isEmpty := by
        rw [hperm.isEmpty_eq, List.isEmpty_map]
      have hkind : (!ResourceKind.rwm.readable || !ResourceKind.rwm.multiple) = false := rfl
      dsimp only
      rw [if_pos rfl, hkind, if_neg Bool.false_ne_true]
      have hwalk := @getMask_entries _ _ _ ssid _ hasc hread
      rw [hempty] at hwalk
      unfold ObjectDef.foreachResourceInstance
      by_cases hown : ssid ≠ 0 ∧ ssid ∈ (ac.listResourceInstances dm.state inst.iid ridAcl).1
      · have hown' : ssid ≠ 0 ∧ ssid ∈ inst.acl.map AclEntry.ssid := ⟨hown.1, hperm.mem_iff.mp hown.2⟩
        rw [if_pos hown] at hwalk
        rw [foreach_eq hcode hwalk, if_pos hown']
        rfl
      · have hown' : ¬(ssid ≠ 0 ∧ ssid ∈ inst.acl.map AclEntry.ssid) :=
          fun hmem => hown ⟨hmem.1, hperm.mem_iff.mpr hmem.2⟩
        rw [if_neg hown] at hwalk
        rw [if_neg hown']
        by_cases hdefault : (0 : Id) ∈ (ac.listResourceInstances dm.state inst.iid ridAcl).1
        · rw [if_pos hdefault] at hwalk
          rw [foreach_eq hcode hwalk, if_pos (hperm.mem_iff.mp hdefault)]
          rfl
        · have hdefault' : (0 : Id) ∉ inst.acl.map AclEntry.ssid := fun hmem => hdefault (hperm.mem_iff.mpr hmem)
          rw [if_neg hdefault] at hwalk
          rw [foreach_eq hcode hwalk, if_neg hdefault']
          rfl

/-- The Instance of a target is found, if there is one. -/
theorem findAcInstanceByTarget_eq (h : dm.Stores ac instances) (ho : dm.InOrder ac instances) (oid iid : Id) :
    (∃ inst ∈ instances, inst.target = ⟨oid, some iid⟩ ∧ dm.findAcInstanceByTarget ac oid iid = some inst.iid) ∨
      ((∀ inst ∈ instances, inst.target ≠ ⟨oid, some iid⟩) ∧ dm.findAcInstanceByTarget ac oid iid = none) := by
  have htarget : ∀ inst ∈ instances, (dm.readU16 inst.iid ridOid = some oid ∧ dm.readU16 inst.iid ridOiid = some iid ↔
      inst.target = ⟨oid, some iid⟩) := by
    intro inst hinst
    obtain ⟨i, hi, hread⟩ := h.oiid inst hinst
    rw [h.oid inst hinst, hread]
    constructor
    · rintro ⟨ho, hi'⟩
      rw [← Option.some.inj ho, ← Option.some.inj hi', ← hi]
    · intro heq
      rw [heq] at hi ⊢
      exact ⟨rfl, hi.symm⟩
  have hwalk := @emitLoop_find Id Id id (dm.findAcInstanceClb oid iid)
    (fun a => decide (dm.readU16 a ridOid = some oid ∧ dm.readU16 a ridOiid = some iid)) (fun a _ => a) _ _ ho.iids
    (fun a ha found => by
      obtain ⟨inst, hinst, rfl⟩ := List.mem_map.mp (h.iids.mem_iff.mp ha)
      obtain ⟨i, -, hread⟩ := h.oiid inst hinst
      unfold findAcInstanceClb
      rw [h.oid inst hinst, hread]
      dsimp only
      simp only [Option.some.injEq, decide_eq_true_eq]) idInvalid
  unfold findAcInstanceByTarget ObjectDef.foreachInstance
  cases hfind : (ac.listInstances dm.state).1.find? fun a =>
      decide (dm.readU16 a ridOid = some oid ∧ dm.readU16 a ridOiid = some iid) with
  | none =>
      refine Or.inr ⟨fun inst hinst heq => ?_, ?_⟩
      · have hmem := h.iids.mem_iff.mpr (List.mem_map.mpr ⟨inst, hinst, rfl⟩)
        exact List.find?_eq_none.mp hfind _ hmem (decide_eq_true ((htarget inst hinst).mpr heq))
      · rw [hfind] at hwalk
        rw [foreach_eq h.listed hwalk]
        rfl
  | some a =>
      have hmem := List.mem_of_find?_eq_some hfind
      have hvalid : a ≠ idInvalid := (ho.iids.1 a hmem).1
      have hreads := of_decide_eq_true (List.find?_some hfind :)
      obtain ⟨inst, hinst, rfl⟩ := List.mem_map.mp (h.iids.mem_iff.mp hmem)
      refine Or.inl ⟨inst, hinst, (htarget inst hinst).mp hreads, ?_⟩
      rw [hfind] at hwalk
      rw [foreach_eq h.listed hwalk]
      exact if_neg (not_or.mpr ⟨not_not.mpr rfl, hvalid⟩)

theorem has_maskNone (right : Right) : maskNone.has right = false := by
  cases right <;> decide

theorem has_maskFullButCreate (right : Right) : maskFullButCreate.has right = true ↔ right ≠ .create := by
  cases right <;> decide

/-- **The mask has the rights that the Instance grants.** -/
theorem accessControlMask_has (h : dm.Stores ac instances) (ho : dm.InOrder ac instances) {ssid : Id}
    (hssid : ssid ≠ ssidBootstrap) {oid iid : Id} {inst : Instance} (hinst : inst ∈ instances)
    (hfind : dm.findAcInstanceByTarget ac oid iid = some inst.iid) (right : Right) :
    (dm.accessControlMask oid iid ssid).has right = true ↔ inst.grants ssid right := by
  unfold accessControlMask
  rw [h.found]
  dsimp only
  rw [hfind]
  dsimp only
  rw [getMask_eq h ho hinst]
  dsimp only
  unfold Instance.grants
  by_cases hown : ssid ∈ inst.acl.map AclEntry.ssid
  · -- the entry of the SSID; it may be the default one
    have hmask : (if ssid ≠ 0 ∧ ssid ∈ inst.acl.map AclEntry.ssid then (ssid, dm.aclMask inst.iid ssid)
        else if 0 ∈ inst.acl.map AclEntry.ssid then (0, dm.aclMask inst.iid 0)
        else (if inst.acl.isEmpty then ssidBootstrap else 0, maskNone)) = (ssid, dm.aclMask inst.iid ssid) := by
      by_cases hzero : ssid = 0
      · subst hzero
        rw [if_neg fun h => h.1 rfl, if_pos hown]
      · rw [if_pos ⟨hzero, hown⟩]
    rw [hmask]
    dsimp only
    rw [if_pos rfl]
    obtain ⟨e, he, hessid⟩ := List.mem_map.mp hown
    constructor
    · intro hhas
      rw [← hessid, aclMask_eq h hinst he] at hhas
      exact Or.inl ⟨e, he, hessid, hhas⟩
    · rintro (⟨e', he', hssid', hhas⟩ | ⟨hnone, -⟩ | ⟨hnil, -⟩)
      · rw [← hssid', aclMask_eq h hinst he']
        exact hhas
      · exact absurd hessid (hnone e he)
      · rw [hnil] at he
        exact absurd he List.not_mem_nil
  · have hnone : ∀ e ∈ inst.acl, e.ssid ≠ ssid := fun e he heq => hown (List.mem_map.mpr ⟨e, he, heq⟩)
    have hnotOwn : ¬(ssid ≠ 0 ∧ ssid ∈ inst.acl.map AclEntry.ssid) := fun h => hown h.2
    rw [if_neg hnotOwn]
    by_cases hdefault : (0 : Id) ∈ inst.acl.map AclEntry.ssid
    · rw [if_pos hdefault]
      dsimp only
      have hmask : (if (0 : Id) = ssid then dm.aclMask inst.iid 0
          else if (0 : Id) = ssidBootstrap then
            if dm.readU16 inst.iid ridOwner = some ssid then maskFullButCreate else maskNone
          else if (0 : Id) = 0 then dm.aclMask inst.iid 0 else maskNone) = dm.aclMask inst.iid 0 := by
        rw [if_neg (by decide : (0 : Id) ≠ ssidBootstrap), if_pos rfl, ite_self]
      rw [hmask]
      obtain ⟨e, he, hessid⟩ := List.mem_map.mp hdefault
      constructor
      · intro hhas
        rw [← hessid, aclMask_eq h hinst he] at hhas
        exact Or.inr (Or.inl ⟨hnone, e, he, hessid, hhas⟩)
      · rintro (⟨e', he', hssid', -⟩ | ⟨-, e', he', hssid', hhas⟩ | ⟨hnil, -⟩)
        · exact absurd hssid' (hnone e' he')
        · rw [← hssid', aclMask_eq h hinst he']
          exact hhas
        · rw [hnil] at he
          exact absurd he List.not_mem_nil
    · have hnodefault : ∀ e ∈ inst.acl, e.ssid ≠ 0 := fun e he heq => hdefault (List.mem_map.mpr ⟨e, he, heq⟩)
      rw [if_neg hdefault]
      dsimp only
      cases hacl : inst.acl with
      | nil =>
          have hne : ssidBootstrap ≠ ssid := Ne.symm hssid
          rw [List.isEmpty_nil, if_pos rfl, if_neg hne, if_pos rfl, h.owner inst hinst]
          constructor
          · intro hhas
            split at hhas
            next howner => exact Or.inr (Or.inr ⟨rfl, Option.some.inj howner, (has_maskFullButCreate right).mp hhas⟩)
            next => rw [has_maskNone] at hhas; cases hhas
          · rintro (⟨e, he, -⟩ | ⟨-, e, he, -⟩ | ⟨-, howner, hright⟩)
            · exact absurd he List.not_mem_nil
            · exact absurd he List.not_mem_nil
            · rw [if_pos (congrArg some howner)]
              exact (has_maskFullButCreate right).mpr hright
      | cons e acl =>
          rw [hacl] at hnone hnodefault
          have hempty : (e :: acl).isEmpty = false := rfl
          rw [hempty, if_neg Bool.false_ne_true, if_neg (by decide : (0 : Id) ≠ ssidBootstrap), if_pos rfl, ite_self,
            has_maskNone]
          constructor
          · intro hhas
            cases hhas
          · rintro (⟨e', he', hssid', -⟩ | ⟨-, e', he', hssid', -⟩ | ⟨hnil, -⟩)
            · exact absurd hssid' (hnone e' he')
            · exact absurd hssid' (hnodefault e' he')
            · cases hnil

/-- The decision about the Access Control Object itself. -/
theorem accessControlActionAllowed_iff (h : dm.Stores ac instances) (info : ActionInfo)
    (hdiscover : info.action ≠ .discover) :
    dm.accessControlActionAllowed info = true ↔
      (info.action = .read ∨ info.action = .writeAttributes) ∨ info.action ≠ .create ∧ info.action ≠ .delete ∧
        ∃ inst ∈ instances, inst.iid = info.iid ∧ inst.owner = info.ssid := by
  have howner : (decide (dm.readU16 info.iid ridOwner = some info.ssid) = true) ↔
      ∃ inst ∈ instances, inst.iid = info.iid ∧ inst.owner = info.ssid := by
    rw [decide_eq_true_iff]
    constructor
    · intro hread
      obtain ⟨inst, hinst, hiid⟩ := h.owned _ _ hread
      rw [← hiid, h.owner inst hinst] at hread
      exact ⟨inst, hinst, hiid, Option.some.inj hread⟩
    · rintro ⟨inst, hinst, hiid, hssid⟩
      rw [← hiid, h.owner inst hinst, hssid]
  unfold accessControlActionAllowed
  cases haction : info.action with
  | read => exact ⟨fun _ => Or.inl (Or.inl rfl), fun _ => rfl⟩
  | writeAttributes => exact ⟨fun _ => Or.inl (Or.inr rfl), fun _ => rfl⟩
  | discover => exact absurd haction hdiscover
  | create =>
      refine ⟨(fun h => nomatch h), ?_⟩
      rintro ((h | h) | ⟨h, -⟩)
      · cases h
      · cases h
      · exact absurd rfl h
  | delete =>
      refine ⟨(fun h => nomatch h), ?_⟩
      rintro ((h | h) | ⟨-, h, -⟩)
      · cases h
      · cases h
      · exact absurd rfl h
  | write | writeUpdate | execute | bootstrapFinish =>
      refine howner.trans ⟨fun h => Or.inr ⟨fun h => (nomatch h), fun h => (nomatch h), h⟩, ?_⟩
      rintro ((h | h) | ⟨-, -, h⟩)
      · cases h
      · cases h
      · exact h

theorem isSingleSsidEnvironment_iff (servers : List Id) :
    isSingleSsidEnvironment servers = true ↔ ∃ ssid, servers.filter (· ≠ ssidBootstrap) = [ssid] := by
  unfold isSingleSsidEnvironment
  rw [decide_eq_true_iff, List.length_eq_one_iff]

/-- The rights on a target are those that its Instance grants. -/
theorem accessControlMask_iff (h : dm.Stores ac instances) (ho : dm.InOrder ac instances) {ssid : Id}
    (hssid : ssid ≠ ssidBootstrap) (oid iid : Id) (right : Right) :
    (dm.accessControlMask oid iid ssid).has right = true ↔
      ∃ inst ∈ instances, inst.target = ⟨oid, some iid⟩ ∧ inst.grants ssid right := by
  rcases findAcInstanceByTarget_eq h ho oid iid with ⟨inst, hinst, htarget, hfind⟩ | ⟨hnone, hfind⟩
  · rw [accessControlMask_has h ho hssid hinst hfind]
    refine ⟨fun hgrants => ⟨inst, hinst, htarget, hgrants⟩, ?_⟩
    rintro ⟨inst', hinst', htarget', hgrants⟩
    have hnodup : (instances.map Instance.target).Nodup := List.pairwise_map.mpr h.targets
    have hsame : inst' = inst := List.inj_on_of_nodup_map hnodup hinst' hinst (htarget'.trans htarget.symm)
    rw [← hsame]
    exact hgrants
  · unfold accessControlMask
    rw [h.found]
    dsimp only
    rw [hfind]
    dsimp only
    rw [has_maskNone]
    refine ⟨(fun h => nomatch h), ?_⟩
    rintro ⟨inst, hinst, htarget, -⟩
    exact absurd htarget (hnone inst hinst)

/-- **The decision is that of the Access Control Instances**, where they are listed in ascending order; without an
    Access Control Object everything is allowed. -/
theorem instanceActionAllowed_iff (dm : AccessModel σ) (servers : List Id) (info : ActionInfo) :
    (dm.findObject oidAccessControl = none → dm.instanceActionAllowed servers info = true) ∧
    ∀ (ac : ObjectDef σ) (instances : List Instance), dm.Stores ac instances → dm.InOrder ac instances →
      (dm.instanceActionAllowed servers info = true ↔ Permitted instances servers info) := by
  constructor
  · intro hnone
    unfold instanceActionAllowed
    rw [hnone]
    split
    · rfl
    split
    · rfl
    · rfl
  intro ac instances h ho
  unfold instanceActionAllowed
  by_cases hssid : info.ssid = ssidBootstrap
  · rw [if_pos hssid]
    exact ⟨fun _ => .bootstrap hssid, fun _ => rfl⟩
  by_cases hdiscover : info.action = .discover
  · rw [if_neg hssid, if_pos hdiscover]
    exact ⟨fun _ => .discover hdiscover, fun _ => rfl⟩
  rw [if_neg hssid, if_neg hdiscover, h.found, Option.isNone_some, Bool.false_or]
  by_cases hsingle : isSingleSsidEnvironment servers = true
  · rw [if_pos hsingle]
    exact ⟨fun _ => .single ((isSingleSsidEnvironment_iff servers).mp hsingle), fun _ => rfl⟩
  have hsingle' : ¬∃ ssid, servers.filter (· ≠ ssidBootstrap) = [ssid] :=
    fun hex => hsingle ((isSingleSsidEnvironment_iff servers).mpr hex)
  rw [if_neg hsingle]
  by_cases hoid : info.oid = oidAccessControl
  · rw [if_pos hoid, accessControlActionAllowed_iff h info hdiscover]
    constructor
    · rintro (hread | ⟨hcreate, hdelete, howner⟩)
      · exact .accessControlRead hoid hread
      · exact .accessControlOwner hoid hcreate hdelete howner
    · intro hpermitted
      cases hpermitted with
      | bootstrap h => exact absurd h hssid
      | discover h => exact absurd h hdiscover
      | single h => exact absurd h hsingle'
      | accessControlRead _ h => exact Or.inl h
      | accessControlOwner _ hcreate hdelete h => exact Or.inr ⟨hcreate, hdelete, h⟩
      | granted hother => exact absurd hoid hother
  rw [if_neg hoid]
  have hgranted : ∀ {allowed : Bool}, (∀ right, info.action.right = some right → (allowed = true ↔
      ∃ inst ∈ instances, inst.target = ⟨info.oid, some (if info.action = .create then idInvalid else info.iid)⟩ ∧
        inst.grants info.ssid right)) → (info.action.right = none → allowed = false) →
      (allowed = true ↔ Permitted instances servers info) := by
    intro allowed hright hnone
    constructor
    · intro hallowed
      cases hr : info.action.right with
      | none =>
          rw [hnone hr] at hallowed
          cases hallowed
      | some right => exact .granted hoid right hr ((hright right hr).mp hallowed)
    · intro hpermitted
      cases hpermitted with
      | bootstrap h => exact absurd h hssid
      | discover h => exact absurd h hdiscover
      | single h => exact absurd h hsingle'
      | accessControlRead hac _ => exact absurd hac hoid
      | accessControlOwner hac => exact absurd hac hoid
      | granted _ right hr h => exact (hright right hr).mpr h
  by_cases hcreate : info.action = .create
  · rw [if_pos hcreate]
    refine hgranted (fun right hr => ?_) (fun hr => ?_)
    · rw [hcreate] at hr
      cases hr
      rw [if_pos hcreate]
      exact accessControlMask_iff h ho hssid info.oid idInvalid .create
    · rw [hcreate] at hr
      cases hr
  · rw [if_neg hcreate]
    refine hgranted (fun right hr => ?_) (fun hr => ?_)
    · rw [hr, if_neg hcreate]
      exact accessControlMask_iff h ho hssid info.oid info.iid right
    · rw [hr]

end AccessModel

/-! ## 6. The Object of this library -/

theorem accessControl_oid (obj : ObjectDef Unit) (hobj : obj.oid = oidAccessControl) (o : Id) (found : ObjectDef Unit)
    (h : (if o = oidAccessControl then some obj else none) = some found) : found.oid = o := by
  split at h
  next heq =>
    rw [← Option.some.inj h, hobj]
    exact heq.symm
  · cases h

def instanceAt (instances : List Instance) (iid : Id) : Option Instance := instances.find? fun inst => decide (inst.iid = iid)

/-- The list handlers over these Instances, whose lists are handed out in this order. -/
def accessControlObject (order : List Id → List Id) (instances : List Instance) : ObjectDef Unit where
  oid := oidAccessControl
  listInstances _ := (order (instances.map Instance.iid), 0)
  listResources _ iid :=
    ([⟨ridOid, .r, true⟩, ⟨ridOiid, .r, true⟩, ⟨ridAcl, .rwm, (instanceAt instances iid).any Instance.hasAcl⟩,
      ⟨ridOwner, .rw, true⟩], 0)
  listResourceInstances _ iid _ := (order (((instanceAt instances iid).elim [] Instance.acl).map AclEntry.ssid), 0)

/-- The data model of a client with these Access Control Instances, read by `ac_resource_read`. -/
def AccessModel.ofInstances (order : List Id → List Id) (instances : List Instance) : AccessModel Unit where
  state := ()
  findObject o := if o = oidAccessControl then some (accessControlObject order instances) else none
  oid_findObject := accessControl_oid (accessControlObject order instances) rfl
  readResourceI64 _ iid rid := (instanceAt instances iid).bind fun inst => (readResource rid 0 inst).toOption
  readInstance _ iid rid riid :=
    match (instanceAt instances iid).elim (.error errNotFound) (readResource rid riid) with
    | .ok value => (0, value)
    | .error ret => (ret, 0)

/-- Instances as they are between transactions: in order, with a target each. -/
structure Tidied (instances : List Instance) : Prop where
  iids : Ascending Instance.iid (-1) instances
  targets : instances.Pairwise fun a b => a.target ≠ b.target
  targeted : ∀ inst ∈ instances, ∃ iid, inst.target.iid = some iid
  acl : ∀ inst ∈ instances, Ascending AclEntry.ssid (-1) inst.acl
  noAcl : ∀ inst ∈ instances, inst.hasAcl = false → inst.acl = []

section Stored

variable {order : List Id → List Id} {instances : List Instance}

theorem ascending_map {α : Type} {idOf : α → Id} {last : Int} {as : List α} (h : Ascending idOf last as) :
    Ascending id last (as.map idOf) :=
  ⟨List.forall_mem_map.mpr h.1, List.pairwise_map.mpr h.2⟩

theorem instanceAt_eq (h : Tidied instances) {inst : Instance} (hinst : inst ∈ instances) :
    instanceAt instances inst.iid = some inst := by
  have hnodup : (instances.map Instance.iid).Nodup := List.pairwise_map.mpr (h.iids.2.imp fun hlt => hlt.ne)
  unfold instanceAt
  cases hfind : instances.find? fun i => decide (i.iid = inst.iid) with
  | none => exact absurd (decide_eq_true rfl) (List.find?_eq_none.mp hfind inst hinst)
  | some found =>
      have hiid : found.iid = inst.iid := of_decide_eq_true (List.find?_some hfind :)
      rw [List.inj_on_of_nodup_map hnodup (List.mem_of_find?_eq_some hfind) hinst hiid]

theorem readU16_eq (h : Tidied instances) {inst : Instance} (hinst : inst ∈ instances) {rid value : Id}
    (hread : readResource rid 0 inst = .ok value.val) :
    (AccessModel.ofInstances order instances).readU16 inst.iid rid = some value := by
  have hstored : (AccessModel.ofInstances order instances).readResourceI64 oidAccessControl inst.iid rid =
      some (value.val : Int) := by
    show (instanceAt instances inst.iid).bind (fun inst => (readResource rid 0 inst).toOption) = _
    rw [instanceAt_eq h hinst, Option.bind_some, hread]
    rfl
  have hlt := value.isLt
  unfold AccessModel.readU16
  rw [hstored]
  dsimp only
  rw [if_pos (by omega)]
  refine congrArg some (Fin.ext ?_)
  show ((value.val : Int)).toNat % 65536 = value.val
  omega

theorem instanceAt_of_readU16 {iid rid value : Id}
    (h : (AccessModel.ofInstances order instances).readU16 iid rid = some value) : ∃ inst ∈ instances, inst.iid = iid := by
  cases hfind : instanceAt instances iid with
  | none =>
      have hstored : (AccessModel.ofInstances order instances).readResourceI64 oidAccessControl iid rid = none := by
        show (instanceAt instances iid).bind (fun inst => (readResource rid 0 inst).toOption) = none
        rw [hfind]
        rfl
      unfold AccessModel.readU16 at h
      rw [hstored] at h
      cases h
  | some inst =>
      unfold instanceAt at hfind
      exact ⟨inst, List.mem_of_find?_eq_some hfind, of_decide_eq_true (List.find?_some hfind :)⟩

/-- **The Object of this library stores its Instances**, whatever the order in which it lists them. -/
theorem stores_ofInstances (horder : ∀ ids, (order ids).Perm ids) (h : Tidied instances) :
    (AccessModel.ofInstances order instances).Stores (accessControlObject order instances) instances where
  found := rfl
  iids := horder _
  listed := le_refl _
  targets := h.targets
  oid _ hinst := readU16_eq h hinst rfl
  oiid inst hinst := by
    obtain ⟨iid, hiid⟩ := h.targeted inst hinst
    refine ⟨iid, hiid, readU16_eq h hinst ?_⟩
    show Except.ok (inst.target.iid.elim (-1) fun iid => (iid.val : Int)) = _
    rw [hiid]
    rfl
  owner _ hinst := readU16_eq h hinst rfl
  owned _ _ hread := instanceAt_of_readU16 hread
  resource inst hinst := by
    have hlisted : ((accessControlObject order instances).listResources () inst.iid).1 =
        [⟨ridOid, .r, true⟩, ⟨ridOiid, .r, true⟩, ⟨ridAcl, .rwm, inst.hasAcl⟩, ⟨ridOwner, .rw, true⟩] := by
      show [_, _, (⟨ridAcl, .rwm, (instanceAt instances inst.iid).any Instance.hasAcl⟩ : ResourceEntry), _] = _
      rw [instanceAt_eq h hinst]
      rfl
    have hasc : Ascending ResourceEntry.rid (-1)
        [(⟨ridOid, .r, true⟩ : ResourceEntry), ⟨ridOiid, .r, true⟩, ⟨ridAcl, .rwm, inst.hasAcl⟩, ⟨ridOwner, .rw, true⟩] := by
      cases inst.hasAcl <;> decide
    refine (ObjectDef.resourceKindAndPresence_iff ?_ (le_refl (0 : Int)) ridAcl .rwm inst.hasAcl).mpr ?_
    · rw [← hlisted] at hasc
      exact hasc
    · have hmem : (⟨ridAcl, .rwm, inst.hasAcl⟩ : ResourceEntry) ∈
          ((accessControlObject order instances).listResources () inst.iid).1 := by
        rw [hlisted]
        exact List.mem_cons_of_mem _ (List.mem_cons_of_mem _ List.mem_cons_self)
      exact hmem
  noAcl := h.noAcl
  acl inst hinst _ := by
    refine ⟨?_, le_refl _⟩
    show (order (((instanceAt instances inst.iid).elim [] Instance.acl).map AclEntry.ssid)).Perm _
    rw [instanceAt_eq h hinst]
    exact horder _
  mask inst hinst e he := by
    have hfind : inst.acl.find? (fun a => decide (e.ssid ≤ a.ssid)) = some e :=
      (find?_ascending (h.acl inst hinst) rfl).mpr he
    have hread : readResource ridAcl e.ssid inst = .ok (e.mask.val : Int) := by
      unfold readResource
      rw [if_neg (by decide), if_neg (by decide), if_pos rfl, hfind]
      exact if_pos rfl
    have hstored : (instanceAt instances inst.iid).elim (.error errNotFound) (readResource ridAcl e.ssid) =
        .ok (e.mask.val : Int) := by
      rw [instanceAt_eq h hinst]
      exact hread
    dsimp only [AccessModel.ofInstances]
    rw [hstored]

theorem inOrder_ofInstances (h : Tidied instances) :
    (AccessModel.ofInstances id instances).InOrder (accessControlObject id instances) instances where
  iids := ascending_map h.iids
  acl inst hinst _ := by
    show Ascending id (-1) (id (((instanceAt instances inst.iid).elim [] Instance.acl).map AclEntry.ssid))
    rw [instanceAt_eq h hinst]
    exact ascending_map (h.acl inst hinst)

end Stored

/-- Server 1 owns Instance 0 of Object 3, and may write it; Server 2 may read it. -/
def sharedInstance : Instance := ⟨0, ⟨3, some 0⟩, 1, true, [⟨2, 1⟩, ⟨1, 2⟩]⟩

theorem tidied_shared : Tidied [sharedInstance] := by
  refine ⟨by decide, List.pairwise_singleton _ _, fun inst h => ?_, fun inst h => ?_, fun inst h => ?_⟩
  · rw [List.mem_singleton.mp h]
    exact ⟨0, rfl⟩
  · rw [List.mem_singleton.mp h]
    decide
  · rw [List.mem_singleton.mp h]
    exact fun hno => nomatch hno

/-- Server 2 may read what it has the right for, and not write. -/
theorem instanceActionAllowed_shared :
    Permitted [sharedInstance] [1, 2] ⟨3, 0, 2, .read⟩ ∧ ¬Permitted [sharedInstance] [1, 2] ⟨3, 0, 2, .write⟩ := by
  have hstores : (AccessModel.ofInstances id [sharedInstance]).Stores (accessControlObject id [sharedInstance])
      [sharedInstance] := stores_ofInstances (fun _ => .refl _) tidied_shared
  have horder := inOrder_ofInstances tidied_shared
  have hread := (AccessModel.instanceActionAllowed_iff (AccessModel.ofInstances id [sharedInstance]) [1, 2]
    ⟨3, 0, 2, .read⟩).2 _ _ hstores horder
  have hwrite := (AccessModel.instanceActionAllowed_iff (AccessModel.ofInstances id [sharedInstance]) [1, 2]
    ⟨3, 0, 2, .write⟩).2 _ _ hstores horder
  refine ⟨hread.mp (by decide +kernel), fun h => ?_⟩
  exact absurd (hwrite.mpr h) (by decide +kernel)

/-- **The order matters**: where the ACL is listed from its end, the right of Server 1 is not found. -/
theorem instanceActionAllowed_order : ∃ (dm : AccessModel Unit) (ac : ObjectDef Unit) (servers : List Id)
    (info : ActionInfo), dm.Stores ac [sharedInstance] ∧ Permitted [sharedInstance] servers info ∧
      dm.instanceActionAllowed servers info = false := by
  have hstores : (AccessModel.ofInstances List.reverse [sharedInstance]).Stores
      (accessControlObject List.reverse [sharedInstance]) [sharedInstance] :=
    stores_ofInstances (fun ids => List.reverse_perm ids) tidied_shared
  refine ⟨_, _, [1, 2], ⟨3, 0, 1, .write⟩, hstores, ?_, by decide +kernel⟩
  exact .granted (by decide) .write rfl
    ⟨sharedInstance, List.mem_singleton.mpr rfl, by decide, Or.inl ⟨⟨2, 1⟩, List.mem_cons_self, rfl, by decide⟩⟩

end Anjay.Ac
