/-
  File:      Anjay/Dm/Query.lean
  Subject:   What the library finds out about servers from the data model (`anjay_query.c`).

  * `hasServer_of_ssidExists`: an SSID that is found is that of an Instance of the Server Object, and neither
    of the two reserved ones.
-/
import Anjay.Dm.Object

namespace Anjay.Dm

variable {σ τ α : Type}

/-! ## 1. The data model -/

/-- The data model as it is read: the registered Objects, and the reads of single Resources. -/
structure DataModel (σ : Type) where
  state : σ
  findObject : Id → Option (ObjectDef σ)
  oid_findObject : ∀ oid obj, findObject oid = some obj → obj.oid = oid
  readResourceI64 : Id → Id → Id → Option Int

def oidAccessControl : Id := 2

def ridServerSsid : Id := 0

/-- `ANJAY_SSID_ANY`. -/
def ssidAny : Id := 0

/-- `ANJAY_SSID_BOOTSTRAP`. -/
def ssidBootstrap : Id := 65535

/-! ## 2. Queries -/

/-- `find_server_iid_handler`. -/
def findServerIidHandler (dm : DataModel σ) (ssid iid out : Id) : Int × Id :=
  match dm.readResourceI64 oidServer iid ridServerSsid with
  | none => (-1, out)
  | some value => if value = (ssid.val : Int) then (foreachBreak, iid) else (0, out)

/-- `_anjay_find_server_iid`. -/
def findServerIid (dm : DataModel σ) (ssid : Id) : Option Id :=
  match dm.findObject oidServer with
  | none => none
  | some obj =>
      if ssid = ssidAny ∨ ssid = ssidBootstrap then none
      else
        let r := obj.foreachInstance dm.state (findServerIidHandler dm ssid) idInvalid
        if r.1 ≠ 0 ∨ r.2 = idInvalid then none else some r.2

/-- `_anjay_dm_ssid_exists`. -/
def ssidExists (dm : DataModel σ) (ssid : Id) : Bool := (findServerIid dm ssid).isSome

/-- `_anjay_dm_get_sorted_instance_list`, with `query_dm_instance`. -/
def ObjectDef.getSortedInstanceList (obj : ObjectDef σ) (s : σ) : Option (List Id) :=
  match obj.foreachInstance s (fun iid iids => (0, iids ++ [iid])) [] with
  | (retval, iids) => if retval = 0 then some iids else none

/-! ## 3. Servers that exist -/

/-- An Instance of the Server Object has this SSID. -/
def DataModel.HasServer (dm : DataModel σ) (ssid : Id) : Prop :=
  ∃ obj iid, dm.findObject oidServer = some obj ∧ iid ∈ (obj.listInstances dm.state).1 ∧
    dm.readResourceI64 oidServer iid ridServerSsid = some (ssid.val : Int)

/-- **The list is what the Object lists**, in ascending order. -/
theorem ObjectDef.getSortedInstanceList_eq_some {obj : ObjectDef σ} {s : σ} {iids : List Id}
    (h : obj.getSortedInstanceList s = some iids) :
    iids = (obj.listInstances s).1 ∧ Ascending id (-1) iids := by
  have hcall : ∀ (iid : Id) (iids : List Id),
      ((fun (iid : Id) (iids : List Id) => ((0 : Int), iids ++ [iid])) iid iids).1 = 0 := fun _ _ => rfl
  unfold ObjectDef.getSortedInstanceList ObjectDef.foreachInstance at h
  dsimp only at h
  split at h
  next hret =>
    obtain ⟨hasc, hcode⟩ := ascending_of_foreach hcall hret
    have hcollect : ∀ (as acc : List Id), as.foldl (fun iids iid => iids ++ [iid]) acc = acc ++ as := by
      intro as
      induction as with
      | nil => exact fun acc => (List.append_nil acc).symm
      | cons a as ih =>
          intro acc
          rw [List.foldl_cons, ih, List.append_assoc]
          rfl
    rw [foreach_foldl hcall hasc hcode] at h
    have hiids : (obj.listInstances s).1 = iids := (hcollect _ []).symm.trans (Option.some.inj h)
    exact ⟨hiids.symm, hiids ▸ hasc⟩
  · cases h

theorem singleObject_oid (oid : Id) (iids : List Id) (o : Id) (obj : ObjectDef Unit)
    (h : (if o = oid then some (⟨oid, fun _ => (iids, 0), fun _ _ => ([], 0), fun _ _ _ => ([], 0)⟩ : ObjectDef Unit)
      else none) = some obj) : obj.oid = o := by
  split at h
  next heq =>
    rw [← Option.some.inj h]
    exact heq.symm
  · cases h

/-- A data model with a single Object, which has these Instances and no Resources. -/
def DataModel.single (oid : Id) (iids : List Id) : DataModel Unit where
  state := ()
  findObject o := if o = oid then some ⟨oid, fun _ => (iids, 0), fun _ _ => ([], 0), fun _ _ _ => ([], 0)⟩ else none
  oid_findObject := singleObject_oid oid iids
  readResourceI64 _ _ _ := none

/-- **An SSID that is found is that of an Instance.** -/
theorem hasServer_of_ssidExists {dm : DataModel σ} {ssid : Id} (h : ssidExists dm ssid = true) :
    dm.HasServer ssid ∧ ssid ≠ ssidAny ∧ ssid ≠ ssidBootstrap := by
  unfold ssidExists findServerIid at h
  split at h
  · cases h
  next obj hobj =>
  split at h
  · cases h
  next hssid =>
  dsimp only at h
  split at h
  · cases h
  next hret =>
  obtain ⟨hret, hout⟩ := not_or.mp hret
  let I : Id → Prop := fun out => out = idInvalid ∨ out ∈ (obj.listInstances dm.state).1 ∧
    dm.readResourceI64 oidServer out ridServerSsid = some (ssid.val : Int)
  have hI : I (obj.foreachInstance dm.state (findServerIidHandler dm ssid) idInvalid).2 := by
    refine foreach_preserves_of_mem I (fun iid hiid out hinv => ?_) (Or.inl rfl)
    unfold findServerIidHandler
    split
    · exact hinv
    next value hread =>
    split
    next heq => exact Or.inr ⟨hiid, by rw [hread, heq]⟩
    · exact hinv
  obtain ⟨hmem, hread⟩ := hI.resolve_left hout
  exact ⟨⟨obj, _, hobj, hmem, hread⟩, fun h => hssid (Or.inl h), fun h => hssid (Or.inr h)⟩

end Anjay.Dm
