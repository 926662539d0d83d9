/-
  File:      Anjay/AccessControl/Validate.lean
  Subject:   The check of the Access Control Object at the end of a transaction
             (`ac_transaction_validate`, `_anjay_acl_ref_validate_inst_ref`).

  * `validateInstRef_accounts`: each target that passes exists, and has not been passed before.
  * `transactionValidate_valid`: where the tree of SSIDs is allocated and no owner is 0, Instances that pass
    are valid.
-/
import Anjay.AccessControl.Object
import Anjay.Lib.KeyedList

namespace Anjay.Ac

open Dm Lib

variable {σ : Type}

/-! ## 1. The check -/

/-- `acl_ref_validation_object_info_t`. -/
structure ObjectInfo where
  oid : Id
  allowedIids : List Id
  deriving DecidableEq, Repr

/-- What can be allocated: the tree of SSIDs, what is remembered of an Object, a tree element of an SSID. -/
structure ValidateAlloc where
  tree : Bool
  objectInfo : Id → Bool
  ssid : Id → Bool

/-- `create_allowed_iids_set`. -/
def createAllowedIidsSet (s : σ) (obj : ObjectDef σ) : Option (List Id) :=
  (obj.getSortedInstanceList s).map fun iids => iids ++ [idInvalid]

/-- The loop of `_anjay_acl_ref_validate_inst_ref`: the ids that remain, if the one of the target is
    among them. -/
def takeIid (iid : Id) : List Id → Option (List Id)
  | [] => none
  | a :: iids => if a < iid then (takeIid iid iids).map (a :: ·) else if a = iid then some iids else none

/-- What `get_or_create_validation_object_info` finds or makes, and the loop over it. -/
def takeFrom (fresh : Option ObjectInfo) (iid : Id) (found : Option ObjectInfo) : Bool × Option ObjectInfo :=
  match found.or fresh with
  | none => (false, none)
  | some info =>
      match takeIid iid info.allowedIids with
      | none => (false, some info)
      | some iids => (true, some { info with allowedIids := iids })

/-- `_anjay_acl_ref_validate_inst_ref`. -/
def validateInstRef (dm : DataModel σ) (alloc : Id → Bool) (oid iid : Id) (infos : List ObjectInfo) :
    Bool × List ObjectInfo :=
  match dm.findObject oid with
  | none => (false, infos)
  | some obj =>
      let fresh := if alloc obj.oid then
        (createAllowedIidsSet dm.state obj).map (ObjectInfo.mk obj.oid) else none
      withEntry ObjectInfo.oid obj.oid (takeFrom fresh iid) infos

/-- `add_ssid`; the tree is given by its elements. -/
def addSsid (alloc : Id → Bool) (ssids : List Id) (ssid : Id) : Option (List Id) :=
  if ssids.contains ssid then some ssids else if alloc ssid then some (ssid :: ssids) else none

/-- `add_ssid` for one SSID after the other. -/
def addSsids (alloc : Id → Bool) : List Id → List Id → Option (List Id)
  | ssids, [] => some ssids
  | ssids, ssid :: rest =>
      match addSsid alloc ssids ssid with
      | none => none
      | some ssids => addSsids alloc ssids rest

/-- The SSIDs of an Instance that are put into the tree: its owner, unless it is the Bootstrap Server, and
    the keys of its ACL. -/
def Instance.ssids (inst : Instance) : List Id :=
  (if inst.owner ≠ ssidBootstrap then [inst.owner] else []) ++ inst.acl.map AclEntry.ssid

/-- The loop of `ac_transaction_validate`: the SSIDs that are used, if the targets are right and memory
    suffices. -/
def validateInstances (dm : DataModel σ) (alloc : ValidateAlloc) :
    List Instance → List ObjectInfo → List Id → Option (List Id)
  | [], _, ssids => some ssids
  | inst :: insts, infos, ssids =>
      match inst.target.iid with
      | none => none
      | some iid =>
          let r := validateInstRef dm alloc.objectInfo inst.target.oid iid infos
          if targetOidValid inst.target.oid.val && r.1 then
            match addSsids alloc.ssid ssids inst.ssids with
            | none => none
            | some ssids => validateInstances dm alloc insts r.2 ssids
          else none

/-- `ac_transaction_validate`. -/
def transactionValidate (dm : DataModel σ) (alloc : ValidateAlloc) (ac : AccessControl) :
    Option (Int × AccessControl) :=
  if ac.inTransaction then
    if ac.needsValidation then
      if alloc.tree then
        match validateInstances dm alloc (ac.current.instances.map Node.inst) [] [] with
        | none => some (errBadRequest, ac)
        | some ssids =>
            if ssids.all (validateSsid dm) then some (0, { ac with needsValidation := false })
            else some (errBadRequest, ac)
      else
        -- the result is still the one that was preset
        some (0, ac)
    else some (0, ac)
  else none

/-! ## 2. What passes -/

/-- A target that exists: an Object that is registered, other than the Security and the Access Control
    Object, and one of its Instances or the id that stands for the Object. -/
def TargetExists (dm : DataModel σ) (target : AclTarget) : Prop :=
  target.oid ≠ oidSecurity ∧ target.oid ≠ oidAccessControl ∧ ∃ obj iid, dm.findObject target.oid = some obj ∧
    target.iid = some iid ∧ (iid = idInvalid ∨ iid ∈ (obj.listInstances dm.state).1)

/-- What the check is there to ensure. -/
structure Valid (dm : DataModel σ) (insts : List Instance) : Prop where
  target : ∀ inst ∈ insts, TargetExists dm inst.target
  distinct : (insts.map Instance.target).Nodup
  owner : ∀ inst ∈ insts, inst.owner = ssidBootstrap ∨ dm.HasServer inst.owner
  acl : ∀ inst ∈ insts, ∀ e ∈ inst.acl, e.ssid = ssidAny ∨ dm.HasServer e.ssid

theorem takeIid_spec {iid : Id} : ∀ {iids rest : List Id}, Sorted id iids → takeIid iid iids = some rest →
    iid ∈ iids ∧ rest.Sublist iids ∧ iid ∉ rest
  | [], _, _, h => by cases h
  | a :: iids, rest, hs, h => by
      obtain ⟨ha, hs'⟩ := List.pairwise_cons.mp hs
      unfold takeIid at h
      split at h
      next hlt =>
        obtain ⟨rest', hrest', rfl⟩ := Option.map_eq_some_iff.mp h
        obtain ⟨hmem, hsub, hnot⟩ := takeIid_spec hs' hrest'
        refine ⟨List.mem_cons_of_mem _ hmem, hsub.cons_cons a, fun hin => ?_⟩
        rcases List.mem_cons.mp hin with rfl | hin
        · exact lt_irrefl _ hlt
        · exact hnot hin
      split at h
      next heq =>
        cases h
        subst heq
        exact ⟨List.mem_cons_self, List.sublist_cons_self _ _, fun hin => lt_irrefl _ (ha a hin)⟩
      · cases h

/-- What is remembered of an Object: some of its Instances and the invalid id, in order. -/
def ObjectInfo.Of (dm : DataModel σ) (info : ObjectInfo) : Prop :=
  Sorted id info.allowedIids ∧ ∃ obj, dm.findObject info.oid = some obj ∧
    ∀ iid ∈ info.allowedIids, iid = idInvalid ∨ iid ∈ (obj.listInstances dm.state).1

/-- What is remembered accounts for the targets that have passed. -/
structure Accounts (dm : DataModel σ) (infos : List ObjectInfo) (passed : List AclTarget) : Prop where
  level : Level ObjectInfo.oid (ObjectInfo.Of dm) infos
  used : ∀ target ∈ passed, ∃ info ∈ infos, info.oid = target.oid ∧
    ∀ iid, target.iid = some iid → iid ∉ info.allowedIids

theorem createAllowedIidsSet_of {dm : DataModel σ} {oid : Id} {obj : ObjectDef σ} {iids : List Id}
    (hobj : dm.findObject oid = some obj) (h : createAllowedIidsSet dm.state obj = some iids) :
    ObjectInfo.Of dm ⟨oid, iids⟩ := by
  obtain ⟨listed, hlisted, rfl⟩ := Option.map_eq_some_iff.mp h
  obtain ⟨rfl, hvalid, hasc⟩ := ObjectDef.getSortedInstanceList_eq_some hlisted
  refine ⟨List.pairwise_append.mpr ⟨hasc, List.pairwise_singleton _ _, fun a ha b hb => ?_⟩, obj, hobj, ?_⟩
  · rw [List.mem_singleton.mp hb]
    exact UriPath.id_lt_invalid (hvalid a ha).1
  · intro iid hiid
    rcases List.mem_append.mp hiid with h | h
    · exact Or.inr h
    · exact Or.inl (List.mem_singleton.mp h)

theorem takeFrom_eq_true {fresh found : Option ObjectInfo} {iid : Id} (h : (takeFrom fresh iid found).1 = true) :
    ∃ info rest, found.or fresh = some info ∧ takeIid iid info.allowedIids = some rest ∧
      (takeFrom fresh iid found).2 = some { info with allowedIids := rest } := by
  unfold takeFrom at h ⊢
  cases hinfo : found.or fresh with
  | none =>
      rw [hinfo] at h
      cases h
  | some info =>
  rw [hinfo] at h
  dsimp only at h ⊢
  cases htake : takeIid iid info.allowedIids with
  | none =>
      rw [htake] at h
      cases h
  | some rest => exact ⟨info, rest, rfl, htake, rfl⟩

theorem takeFrom_of {dm : DataModel σ} {fresh found : Option ObjectInfo} {iid oid : Id}
    (h : ∀ info, found.or fresh = some info → info.oid = oid ∧ info.Of dm) {info : ObjectInfo}
    (htake : (takeFrom fresh iid found).2 = some info) : info.oid = oid ∧ info.Of dm := by
  unfold takeFrom at htake
  cases hinfo : found.or fresh with
  | none =>
      rw [hinfo] at htake
      cases htake
  | some info' =>
  obtain ⟨hoid, hsorted, obj, hobj, hall⟩ := h info' hinfo
  rw [hinfo] at htake
  dsimp only at htake
  cases hrest : takeIid iid info'.allowedIids with
  | none =>
      rw [hrest] at htake
      cases htake
      exact ⟨hoid, hsorted, obj, hobj, hall⟩
  | some rest =>
      rw [hrest] at htake
      cases htake
      have hsub := (takeIid_spec hsorted hrest).2.1
      exact ⟨hoid, hsorted.sublist hsub, obj, hobj, fun i hi => hall i (hsub.subset hi)⟩

/-- **A target that passes exists and has not passed before**, and from then on it has. -/
theorem validateInstRef_accounts {dm : DataModel σ} {alloc : Id → Bool} {oid iid : Id} {infos : List ObjectInfo}
    {passed : List AclTarget} (h : Accounts dm infos passed) (hvalid : targetOidValid oid.val = true)
    (hpass : (validateInstRef dm alloc oid iid infos).1 = true) :
    TargetExists dm ⟨oid, some iid⟩ ∧ ⟨oid, some iid⟩ ∉ passed ∧
      Accounts dm (validateInstRef dm alloc oid iid infos).2 (⟨oid, some iid⟩ :: passed) := by
  unfold validateInstRef at hpass ⊢
  cases hobj : dm.findObject oid with
  | none =>
      rw [hobj] at hpass
      cases hpass
  | some obj =>
  rw [hobj] at hpass
  obtain rfl := dm.oid_findObject _ _ hobj
  dsimp only at hpass ⊢
  generalize hfresh : (if alloc obj.oid then (createAllowedIidsSet dm.state obj).map (ObjectInfo.mk obj.oid)
    else none) = fresh at hpass ⊢
  -- what is found or made is about the Object
  have hof : ∀ found : Option ObjectInfo, (∀ info, found = some info → info.Of dm ∧ info.oid = obj.oid) →
      ∀ info, found.or fresh = some info → info.oid = obj.oid ∧ info.Of dm := by
    intro found hfound info hinfo
    cases found with
    | some info' => exact ⟨(hfound info hinfo).2, (hfound info hinfo).1⟩
    | none =>
        rw [Option.none_or, ← hfresh] at hinfo
        split at hinfo
        · obtain ⟨iids, hiids, rfl⟩ := Option.map_eq_some_iff.mp hinfo
          exact ⟨rfl, createAllowedIidsSet_of hobj hiids⟩
        · cases hinfo
  rw [withEntry_fst _ _ h.level.sorted] at hpass
  obtain ⟨info, rest, hinfo, htake, hput⟩ := takeFrom_eq_true hpass
  have hfound : ∀ info', infos.find? (fun info => decide (info.oid = obj.oid)) = some info' →
      info'.Of dm ∧ info'.oid = obj.oid := by
    intro info' hf
    obtain ⟨hmem, hoid⟩ := h.level.find?_eq_some.mp hf
    exact ⟨h.level.all _ hmem, hoid⟩
  obtain ⟨hoid, hsorted, obj', hobj', hall⟩ := hof _ hfound info hinfo
  obtain ⟨hin, hsub, hnot⟩ := takeIid_spec hsorted htake
  -- what was remembered of the Object, if anything, is what was found
  have hsame : ∀ info' ∈ infos, info'.oid = obj.oid → info' = info := by
    intro info' hmem hoid'
    have hf := h.level.find?_eq_some.mpr ⟨hmem, hoid'⟩
    rw [hf, Option.some_or] at hinfo
    exact Option.some.inj hinfo
  obtain rfl : obj = obj' := by
    rw [hoid, hobj] at hobj'
    exact Option.some.inj hobj'
  refine ⟨⟨?_, ?_, obj, iid, hobj, rfl, hall iid hin⟩, fun hpassed => ?_, ?_, ?_⟩
  · rintro hsec
    have hzero : obj.oid = 0 := hsec
    rw [hzero] at hvalid
    exact absurd hvalid (by decide)
  · rintro hac
    have htwo : obj.oid = 2 := hac
    rw [htwo] at hvalid
    exact absurd hvalid (by decide)
  · obtain ⟨info', hmem, hoid', hnot'⟩ := h.used _ hpassed
    rw [hsame info' hmem hoid'] at hnot'
    exact hnot' iid rfl hin
  · refine h.level.withEntry fun found info' hfound' hput' => takeFrom_of (hof found hfound') hput'
  · have hmem : ∀ x, x ∈ (withEntry ObjectInfo.oid obj.oid (takeFrom fresh iid) infos).2 ↔
        (x ∈ infos ∧ x.oid ≠ obj.oid) ∨ { info with allowedIids := rest } = x := by
      intro x
      rw [mem_withEntry h.level.sorted, hput, Option.some_inj]
    refine List.forall_mem_cons.mpr ⟨⟨_, (hmem _).mpr (Or.inr rfl), hoid, ?_⟩, fun target htarget => ?_⟩
    · intro i hi
      rw [← Option.some.inj hi]
      exact hnot
    · obtain ⟨info', hmem', hoid', hnot'⟩ := h.used target htarget
      by_cases heq : info'.oid = obj.oid
      · refine ⟨_, (hmem _).mpr (Or.inr rfl), hoid.trans (heq.symm.trans hoid'), fun i hi hin' => ?_⟩
        rw [hsame info' hmem' heq] at hnot'
        exact hnot' i hi (hsub.subset hin')
      · exact ⟨info', (hmem _).mpr (Or.inl ⟨hmem', heq⟩), hoid', hnot'⟩

theorem addSsid_spec {alloc : Id → Bool} {ssids ssids' : List Id} {ssid : Id}
    (h : addSsid alloc ssids ssid = some ssids') : ssid ∈ ssids' ∧ ssids ⊆ ssids' := by
  unfold addSsid at h
  split at h
  next hin =>
    cases h
    exact ⟨List.contains_iff_mem.mp hin, List.Subset.refl _⟩
  split at h
  · cases h
    exact ⟨List.mem_cons_self, List.subset_cons_self _ _⟩
  · cases h

theorem addSsids_spec {alloc : Id → Bool} : ∀ {added ssids ssids' : List Id},
    addSsids alloc ssids added = some ssids' → added ⊆ ssids' ∧ ssids ⊆ ssids'
  | [], _, _, h => by
      cases h
      exact ⟨List.nil_subset _, List.Subset.refl _⟩
  | ssid :: added, ssids, ssids', h => by
      unfold addSsids at h
      split at h
      · cases h
      next ssids₁ hadd =>
      obtain ⟨hin, hsub⟩ := addSsid_spec hadd
      obtain ⟨hadded, hsub'⟩ := addSsids_spec h
      exact ⟨List.cons_subset.mpr ⟨hsub' hin, hadded⟩, List.Subset.trans hsub hsub'⟩

/-- **What the loop lets pass**: targets that exist, each once, and SSIDs that are all in the tree. -/
theorem validateInstances_spec {dm : DataModel σ} {alloc : ValidateAlloc} : ∀ {insts : List Instance}
    {infos : List ObjectInfo} {passed : List AclTarget} {ssids ssids' : List Id}, Accounts dm infos passed →
      validateInstances dm alloc insts infos ssids = some ssids' →
        (∀ inst ∈ insts, TargetExists dm inst.target ∧ inst.target ∉ passed ∧ inst.ssids ⊆ ssids') ∧
        (insts.map Instance.target).Nodup ∧ ssids ⊆ ssids'
  | [], _, _, _, _, _, h => by
      cases h
      exact ⟨fun _ h => absurd h List.not_mem_nil, List.nodup_nil, List.Subset.refl _⟩
  | inst :: insts, infos, passed, ssids, ssids', hacc, h => by
      unfold validateInstances at h
      split at h
      · cases h
      next iid hiid =>
      dsimp only at h
      split at h
      next hpass =>
        obtain ⟨hvalid, hpass⟩ := (Bool.and_eq_true _ _).mp hpass
        split at h
        · cases h
        next ssids₁ hadd =>
        have htarget : inst.target = ⟨inst.target.oid, some iid⟩ := by rw [← hiid]
        obtain ⟨hexists, hnew, hacc'⟩ := validateInstRef_accounts hacc hvalid hpass
        rw [← htarget] at hexists hnew hacc'
        obtain ⟨hall, hnodup, hsub⟩ := validateInstances_spec hacc' h
        obtain ⟨hadded, hsub'⟩ := addSsids_spec hadd
        refine ⟨List.forall_mem_cons.mpr ⟨⟨hexists, hnew, List.Subset.trans hadded hsub⟩, fun i hi => ?_⟩,
          List.nodup_cons.mpr ⟨fun hin => ?_, hnodup⟩, List.Subset.trans hsub' hsub⟩
        · obtain ⟨he, hn, hs⟩ := hall i hi
          exact ⟨he, fun hp => hn (List.mem_cons_of_mem _ hp), hs⟩
        · obtain ⟨i, hi, heq⟩ := List.mem_map.mp hin
          exact (hall i hi).2.1 (heq ▸ List.mem_cons_self)
      · cases h

theorem validateSsid_eq_true {dm : DataModel σ} {ssid : Id} (h : validateSsid dm ssid = true) :
    ssid = ssidAny ∨ dm.HasServer ssid := by
  obtain ⟨-, h⟩ := (Bool.and_eq_true _ _).mp h
  rcases (Bool.or_eq_true _ _).mp h with h | h
  · exact Or.inl (of_decide_eq_true h)
  · exact Or.inr (hasServer_of_ssidExists h).1

/-- **Instances that pass are valid**, where the tree of SSIDs is allocated and no owner is 0. -/
theorem transactionValidate_valid {dm : DataModel σ} {alloc : ValidateAlloc} {ac ac' : AccessControl}
    (h : transactionValidate dm alloc ac = some (0, ac')) (hneeds : ac.needsValidation = true)
    (htree : alloc.tree = true) (howner : ∀ n ∈ ac.current.instances, n.inst.owner ≠ 0) :
    ac'.current = ac.current ∧ Valid dm (ac.current.instances.map Node.inst) := by
  unfold transactionValidate at h
  rw [if_pos hneeds, if_pos htree] at h
  split at h
  · split at h
    · cases h
    next ssids hssids =>
    split at h
    next hall =>
      cases h
      have hnil : Accounts dm [] [] := ⟨.nil, fun _ h => absurd h List.not_mem_nil⟩
      obtain ⟨htargets, hnodup, -⟩ := validateInstances_spec hnil hssids
      have hssid : ∀ inst ∈ ac.current.instances.map Node.inst, ∀ ssid ∈ inst.ssids,
          ssid = ssidAny ∨ dm.HasServer ssid := fun inst hinst ssid hin =>
        validateSsid_eq_true (List.all_eq_true.mp hall ssid ((htargets inst hinst).2.2 hin))
      refine ⟨rfl, fun inst hinst => (htargets inst hinst).1, hnodup, fun inst hinst => ?_, fun inst hinst e he => ?_⟩
      · by_cases hboot : inst.owner = ssidBootstrap
        · exact Or.inl hboot
        · refine Or.inr ((hssid inst hinst inst.owner ?_).resolve_left ?_)
          · unfold Instance.ssids
            rw [if_pos hboot]
            exact List.mem_append_left _ List.mem_cons_self
          · obtain ⟨n, hn, rfl⟩ := List.mem_map.mp hinst
            exact howner n hn
      · exact hssid inst hinst e.ssid (List.mem_append_right _ (List.mem_map_of_mem he))
    · cases h
  · cases h

end Anjay.Ac
