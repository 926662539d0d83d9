/-
  File:      Anjay/AttrStorage/Tree.lean
  Subject:   The tree of attributes that the Attribute Storage module keeps
             (`anjay_mod_attr_storage.c`), with ANJAY_WITH_CON_ATTR, and the writes into it.

  * `Tidy`: the tree as every operation leaves it: each level in the order of its ids, no empty set of
    attributes, no empty Instance or Object. `Canonical`: no empty Resource either.
  * `writeObjectAttrs_tidy`, `writeInstanceAttrs_tidy`, `writeResourceAttrs_tidy`: a write keeps the
    tree so, whatever is allocated.
-/
import Anjay.Lib.KeyedList
import Anjay.Dm.Path
import Anjay.Commons.Basic

namespace Anjay.AttrStorage

open Lib

/-! ## 1. Attributes -/

/-- `anjay_dm_con_attr_t`. -/
inductive ConAttr
  | default
  | non
  | con
  deriving DecidableEq, Repr

/-- The value of the enumeration constant. -/
def ConAttr.toInt : ConAttr → Int
  | default => -1
  | non => 0
  | con => 1

/-- `anjay_dm_oi_attributes_t`: periods in seconds (`int32_t`), negative where they are not set. -/
structure OiAttributes where
  minPeriod : BitVec 32
  maxPeriod : BitVec 32
  minEvalPeriod : BitVec 32
  maxEvalPeriod : BitVec 32
  deriving DecidableEq, Repr

/-- `ANJAY_ATTRIB_PERIOD_NONE`. -/
def periodNone : BitVec 32 := -1

/-- `anjay_dm_internal_oi_attrs_t`. -/
structure InternalOiAttrs where
  standard : OiAttributes
  con : ConAttr
  deriving DecidableEq, Repr

/-- `anjay_dm_r_attributes_t`. -/
structure RAttributes where
  common : OiAttributes
  greaterThan : Double
  lessThan : Double
  step : Double
  deriving DecidableEq, Repr

/-- `anjay_dm_internal_r_attrs_t`. -/
structure InternalRAttrs where
  standard : RAttributes
  con : ConAttr
  deriving DecidableEq, Repr

/-- `_anjay_dm_get_internal_oi_attrs(&attrs->standard.common)`. -/
def InternalRAttrs.oi (attrs : InternalRAttrs) : InternalOiAttrs := ⟨attrs.standard.common, attrs.con⟩

/-- `_anjay_dm_attributes_empty`. -/
def attributesEmpty (attrs : InternalOiAttrs) : Bool :=
  decide (attrs.standard.minPeriod.toInt < 0) && decide (attrs.standard.maxPeriod.toInt < 0) &&
    decide (attrs.standard.minEvalPeriod.toInt < 0) && decide (attrs.standard.maxEvalPeriod.toInt < 0) &&
    decide (attrs.con.toInt < 0)

/-- `_anjay_dm_resource_attributes_empty`. -/
def resourceAttributesEmpty (attrs : InternalRAttrs) : Bool :=
  attributesEmpty attrs.oi && attrs.standard.greaterThan.isNaN && attrs.standard.lessThan.isNaN &&
    attrs.standard.step.isNaN

/-! ## 2. The tree -/

/-- `as_default_attrs_t` and `as_resource_attrs_t`. -/
structure SsidAttrs (α : Type) where
  ssid : Id
  attrs : α
  deriving DecidableEq, Repr

/-- `as_resource_entry_t`. -/
structure ResourceEntry where
  rid : Id
  attrs : List (SsidAttrs InternalRAttrs)
  deriving DecidableEq, Repr

/-- `as_instance_entry_t`. -/
structure InstanceEntry where
  iid : Id
  defaultAttrs : List (SsidAttrs InternalOiAttrs)
  resources : List ResourceEntry
  deriving DecidableEq, Repr

/-- `as_object_entry_t`. -/
structure ObjectEntry where
  oid : Id
  defaultAttrs : List (SsidAttrs InternalOiAttrs)
  instances : List InstanceEntry
  deriving DecidableEq, Repr

/-- `as_saved_state_t`; the memory stream takes every write. -/
structure SavedState where
  depth : Nat
  persistData : List UInt8
  modifiedSincePersist : Bool
  deriving DecidableEq, Repr

/-- `anjay_attr_storage_t`. -/
structure Storage where
  objects : List ObjectEntry
  modifiedSincePersist : Bool
  savedState : SavedState
  deriving DecidableEq, Repr

/-- The module as `anjay_attr_storage_install` makes it. -/
def Storage.install : Storage := ⟨[], false, ⟨0, [], false⟩⟩

/-- The conditions of `remove_resource_if_empty`, `remove_instance_if_empty` and
    `remove_object_if_empty`. -/
def ResourceEntry.empty (r : ResourceEntry) : Bool := r.attrs.isEmpty
def InstanceEntry.empty (i : InstanceEntry) : Bool := i.defaultAttrs.isEmpty && i.resources.isEmpty
def ObjectEntry.empty (o : ObjectEntry) : Bool := o.defaultAttrs.isEmpty && o.instances.isEmpty

/-! ## 3. What holds of the tree -/

/-- A list of sets of attributes: in the order of the SSIDs, none of them empty. -/
def AttrsSane {α : Type} (isEmpty : α → Bool) (as : List (SsidAttrs α)) : Prop :=
  Level SsidAttrs.ssid (fun a => isEmpty a.attrs = false) as

def ResourceEntry.Sane (r : ResourceEntry) : Prop := AttrsSane resourceAttributesEmpty r.attrs

structure ResourceEntry.Canonical (r : ResourceEntry) : Prop where
  sane : r.Sane
  filled : r.empty = false

section Resources

variable (P : ResourceEntry → Prop)

/-- An Instance that may be empty; `P` holds of its Resources. -/
structure InstanceEntry.Sane (i : InstanceEntry) : Prop where
  defaultAttrs : AttrsSane attributesEmpty i.defaultAttrs
  resources : Level ResourceEntry.rid P i.resources

structure InstanceEntry.Tidy (i : InstanceEntry) : Prop extends i.Sane P where
  filled : i.empty = false

structure ObjectEntry.Sane (o : ObjectEntry) : Prop where
  defaultAttrs : AttrsSane attributesEmpty o.defaultAttrs
  instances : Level InstanceEntry.iid (InstanceEntry.Tidy P) o.instances

structure ObjectEntry.Tidy (o : ObjectEntry) : Prop extends o.Sane P where
  filled : o.empty = false

def Tidy (objects : List ObjectEntry) : Prop := Level ObjectEntry.oid (ObjectEntry.Tidy P) objects

/-- What is asked of Resources beside `ResourceEntry.Sane` is at most that they are not empty. -/
structure ResourceRule : Prop where
  sane : ∀ r, P r → r.Sane
  filled : ∀ r, r.Sane → r.empty = false → P r

end Resources

/-- **The canonical trees.** -/
def Canonical (objects : List ObjectEntry) : Prop := Tidy ResourceEntry.Canonical objects

section Decidable

variable (P : ResourceEntry → Prop) [DecidablePred P]

instance instDecidableAttrsSane {α : Type} (isEmpty : α → Bool) (as : List (SsidAttrs α)) :
    Decidable (AttrsSane isEmpty as) := inferInstanceAs (Decidable (Level _ _ _))

instance instDecidableResourceSane (r : ResourceEntry) : Decidable r.Sane :=
  inferInstanceAs (Decidable (AttrsSane _ _))

instance instDecidableResourceCanonical (r : ResourceEntry) : Decidable r.Canonical :=
  decidable_of_iff (r.Sane ∧ r.empty = false) ⟨fun h => ⟨h.1, h.2⟩, fun h => ⟨h.sane, h.filled⟩⟩

instance instDecidableInstanceTidy (i : InstanceEntry) : Decidable (i.Tidy P) :=
  decidable_of_iff
    (AttrsSane attributesEmpty i.defaultAttrs ∧ Level ResourceEntry.rid P i.resources ∧ i.empty = false)
    ⟨fun h => ⟨⟨h.1, h.2.1⟩, h.2.2⟩, fun h => ⟨h.defaultAttrs, h.resources, h.filled⟩⟩

instance instDecidableObjectTidy (o : ObjectEntry) : Decidable (o.Tidy P) :=
  decidable_of_iff
    (AttrsSane attributesEmpty o.defaultAttrs ∧ Level InstanceEntry.iid (InstanceEntry.Tidy P) o.instances ∧
      o.empty = false)
    ⟨fun h => ⟨⟨h.1, h.2.1⟩, h.2.2⟩, fun h => ⟨h.defaultAttrs, h.instances, h.filled⟩⟩

instance instDecidableTidy (objects : List ObjectEntry) : Decidable (Tidy P objects) :=
  inferInstanceAs (Decidable (Level _ _ _))

instance instDecidableCanonical (objects : List ObjectEntry) : Decidable (Canonical objects) :=
  inferInstanceAs (Decidable (Tidy _ _))

end Decidable

theorem resourceRule_sane : ResourceRule ResourceEntry.Sane := ⟨fun _ h => h, fun _ h _ => h⟩

theorem resourceRule_canonical : ResourceRule ResourceEntry.Canonical := ⟨fun _ h => h.sane, fun _ => .mk⟩

theorem InstanceEntry.Tidy.mono {P Q : ResourceEntry → Prop} (hPQ : ∀ r, P r → Q r) {i : InstanceEntry}
    (h : i.Tidy P) : i.Tidy Q :=
  ⟨⟨h.defaultAttrs, h.resources.mono hPQ⟩, h.filled⟩

theorem ObjectEntry.Tidy.mono {P Q : ResourceEntry → Prop} (hPQ : ∀ r, P r → Q r) {o : ObjectEntry}
    (h : o.Tidy P) : o.Tidy Q :=
  ⟨⟨h.defaultAttrs, h.instances.mono fun _ => .mono hPQ⟩, h.filled⟩

theorem Tidy.mono {P Q : ResourceEntry → Prop} (hPQ : ∀ r, P r → Q r) {objects : List ObjectEntry}
    (h : Tidy P objects) : Tidy Q objects := Level.mono h fun _ => .mono hPQ

/-! ## 4. What the tree stores -/

/-- A set of attributes, with where it stands in the tree. -/
inductive Stored
  | object (oid ssid : Id) (attrs : InternalOiAttrs)
  | inst (oid iid ssid : Id) (attrs : InternalOiAttrs)
  | resource (oid iid rid ssid : Id) (attrs : InternalRAttrs)
  deriving DecidableEq, Repr

namespace Stored

def oid : Stored → Id
  | object oid _ _ | inst oid _ _ _ | resource oid _ _ _ _ => oid

def ssid : Stored → Id
  | object _ ssid _ | inst _ _ ssid _ | resource _ _ _ ssid _ => ssid

end Stored

def ResourceEntry.stored (oid iid : Id) (r : ResourceEntry) : List Stored :=
  r.attrs.map fun a => .resource oid iid r.rid a.ssid a.attrs

def InstanceEntry.stored (oid : Id) (i : InstanceEntry) : List Stored :=
  (i.defaultAttrs.map fun a => .inst oid i.iid a.ssid a.attrs) ++ i.resources.flatMap (ResourceEntry.stored oid i.iid)

def ObjectEntry.stored (o : ObjectEntry) : List Stored :=
  (o.defaultAttrs.map fun a => .object o.oid a.ssid a.attrs) ++ o.instances.flatMap (InstanceEntry.stored o.oid)

/-- All sets of attributes, in the order of the tree. -/
def stored (objects : List ObjectEntry) : List Stored := objects.flatMap ObjectEntry.stored

theorem ResourceEntry.stored_of_empty {oid iid : Id} {r : ResourceEntry} (h : r.empty = true) :
    r.stored oid iid = [] := by
  rw [stored, List.isEmpty_iff.mp h]
  rfl

theorem InstanceEntry.stored_of_empty {oid : Id} {i : InstanceEntry} (h : i.empty = true) :
    i.stored oid = [] := by
  obtain ⟨hattrs, hresources⟩ := Bool.and_eq_true_iff.mp h
  rw [stored, List.isEmpty_iff.mp hattrs, List.isEmpty_iff.mp hresources]
  rfl

theorem ObjectEntry.stored_of_empty {o : ObjectEntry} (h : o.empty = true) : o.stored = [] := by
  obtain ⟨hattrs, hinstances⟩ := Bool.and_eq_true_iff.mp h
  rw [stored, List.isEmpty_iff.mp hattrs, List.isEmpty_iff.mp hinstances]
  rfl

theorem ObjectEntry.oid_of_mem_stored {o : ObjectEntry} {s : Stored} (h : s ∈ o.stored) : s.oid = o.oid := by
  rcases List.mem_append.mp h with h | h
  · obtain ⟨a, -, rfl⟩ := List.mem_map.mp h
    rfl
  · obtain ⟨i, -, h⟩ := List.mem_flatMap.mp h
    rcases List.mem_append.mp h with h | h
    · obtain ⟨a, -, rfl⟩ := List.mem_map.mp h
      rfl
    · obtain ⟨r, -, h⟩ := List.mem_flatMap.mp h
      obtain ⟨a, -, rfl⟩ := List.mem_map.mp h
      rfl

/-! ## 5. Writes -/

/-- Which of the allocations of a write succeed. -/
structure Alloc where
  object : Bool
  inst : Bool
  resource : Bool
  attrs : Bool

/-- `write_attrs_impl`: the result, and whether the storage is marked as modified. -/
def writeAttrsImpl {α : Type} (isEmpty : α → Bool) (allocated : Bool) (ssid : Id) (attrs : α) :
    List (SsidAttrs α) → (Int × Bool) × List (SsidAttrs α) :=
  withEntry SsidAttrs.ssid ssid fun found =>
    if isEmpty attrs then ((0, found.isSome), none)
    else if found.isNone && !allocated then ((errInternal, false), none)
    else ((0, true), some ⟨ssid, attrs⟩)

/-- `find_or_create_object`, what is done with the entry, and `remove_object_if_empty`; so for
    Instances and Resources. -/
def updateObject (allocated : Bool) (oid : Id) :
    (ObjectEntry → (Int × Bool) × ObjectEntry) → List ObjectEntry → (Int × Bool) × List ObjectEntry :=
  updateEntry ObjectEntry.oid ⟨oid, [], []⟩ ObjectEntry.empty allocated oid (-1, false)

def updateInstance (allocated : Bool) (iid : Id) :
    (InstanceEntry → (Int × Bool) × InstanceEntry) → List InstanceEntry → (Int × Bool) × List InstanceEntry :=
  updateEntry InstanceEntry.iid ⟨iid, [], []⟩ InstanceEntry.empty allocated iid (-1, false)

def updateResource (allocated : Bool) (rid : Id) :
    (ResourceEntry → (Int × Bool) × ResourceEntry) → List ResourceEntry → (Int × Bool) × List ResourceEntry :=
  updateEntry ResourceEntry.rid ⟨rid, []⟩ ResourceEntry.empty allocated rid (-1, false)

/-- The tree is replaced, and the storage marked as modified if it was. -/
def Storage.replace (as : Storage) (r : (Int × Bool) × List ObjectEntry) : Int × Storage :=
  (r.1.1, { as with objects := r.2, modifiedSincePersist := as.modifiedSincePersist || r.1.2 })

/-- `write_object_attrs`. -/
def writeObjectAttrs (alloc : Alloc) (ssid oid : Id) (attrs : InternalOiAttrs) (as : Storage) :
    Int × Storage :=
  as.replace <| updateObject alloc.object oid (fun o =>
    let r := writeAttrsImpl attributesEmpty alloc.attrs ssid attrs o.defaultAttrs
    (r.1, { o with defaultAttrs := r.2 })) as.objects

/-- `write_instance_attrs`. -/
def writeInstanceAttrs (alloc : Alloc) (ssid oid iid : Id) (attrs : InternalOiAttrs) (as : Storage) :
    Int × Storage :=
  as.replace <| updateObject alloc.object oid (fun o =>
    let r := updateInstance alloc.inst iid (fun i =>
      let r := writeAttrsImpl attributesEmpty alloc.attrs ssid attrs i.defaultAttrs
      (r.1, { i with defaultAttrs := r.2 })) o.instances
    (r.1, { o with instances := r.2 })) as.objects

/-- `write_resource_attrs`. -/
def writeResourceAttrs (alloc : Alloc) (ssid oid iid rid : Id) (attrs : InternalRAttrs) (as : Storage) :
    Int × Storage :=
  as.replace <| updateObject alloc.object oid (fun o =>
    let r := updateInstance alloc.inst iid (fun i =>
      let r := updateResource alloc.resource rid (fun res =>
        let r := writeAttrsImpl resourceAttributesEmpty alloc.attrs ssid attrs res.attrs
        (r.1, { res with attrs := r.2 })) i.resources
      (r.1, { i with resources := r.2 })) o.instances
    (r.1, { o with instances := r.2 })) as.objects

/-! ## 6. Writes keep the tree tidy -/

theorem writeAttrsImpl_sane {α : Type} {isEmpty : α → Bool} {as : List (SsidAttrs α)}
    (h : AttrsSane isEmpty as) (allocated : Bool) (ssid : Id) (attrs : α) :
    AttrsSane isEmpty (writeAttrsImpl isEmpty allocated ssid attrs as).2 := by
  refine h.withEntry fun e b _ hb => ?_
  split at hb
  · cases hb
  next hne =>
  split at hb
  · cases hb
  · cases hb
    exact ⟨rfl, Bool.eq_false_iff.mpr hne⟩

section Tidy

variable {P : ResourceEntry → Prop}

theorem updateObject_tidy {objects : List ObjectEntry} (h : Tidy P objects) (allocated : Bool) (oid : Id)
    {f : ObjectEntry → (Int × Bool) × ObjectEntry}
    (hf : ∀ o, o.Sane P → (f o).2.oid = o.oid ∧ (f o).2.Sane P) :
    Tidy P (updateObject allocated oid f objects).2 :=
  Level.updateEntry h (fun _ ho => ho.toSane) (fun _ => .mk) ⟨rfl, .nil, .nil⟩
    fun o ho hoid => ⟨(hf o ho).1.trans hoid, (hf o ho).2⟩

theorem updateInstance_tidy {instances : List InstanceEntry}
    (h : Level InstanceEntry.iid (InstanceEntry.Tidy P) instances) (allocated : Bool) (iid : Id)
    {f : InstanceEntry → (Int × Bool) × InstanceEntry}
    (hf : ∀ i, i.Sane P → (f i).2.iid = i.iid ∧ (f i).2.Sane P) :
    Level InstanceEntry.iid (InstanceEntry.Tidy P) (updateInstance allocated iid f instances).2 :=
  Level.updateEntry h (fun _ hi => hi.toSane) (fun _ => .mk) ⟨rfl, .nil, .nil⟩
    fun i hi hiid => ⟨(hf i hi).1.trans hiid, (hf i hi).2⟩

theorem updateResource_level (hP : ResourceRule P) {resources : List ResourceEntry}
    (h : Level ResourceEntry.rid P resources) (allocated : Bool) (rid : Id)
    {f : ResourceEntry → (Int × Bool) × ResourceEntry}
    (hf : ∀ r, r.Sane → (f r).2.rid = r.rid ∧ (f r).2.Sane) :
    Level ResourceEntry.rid P (updateResource allocated rid f resources).2 :=
  Level.updateEntry h hP.sane hP.filled ⟨rfl, .nil⟩ fun r hr hrid => ⟨(hf r hr).1.trans hrid, (hf r hr).2⟩

theorem writeObjectAttrs_tidy {as : Storage} (h : Tidy P as.objects) (alloc : Alloc) (ssid oid : Id)
    (attrs : InternalOiAttrs) : Tidy P (writeObjectAttrs alloc ssid oid attrs as).2.objects :=
  updateObject_tidy h _ _ fun _ ho => ⟨rfl, writeAttrsImpl_sane ho.defaultAttrs _ _ _, ho.instances⟩

theorem writeInstanceAttrs_tidy {as : Storage} (h : Tidy P as.objects) (alloc : Alloc)
    (ssid oid iid : Id) (attrs : InternalOiAttrs) :
    Tidy P (writeInstanceAttrs alloc ssid oid iid attrs as).2.objects :=
  updateObject_tidy h _ _ fun _ ho => ⟨rfl, ho.defaultAttrs, updateInstance_tidy ho.instances _ _
    fun _ hi => ⟨rfl, writeAttrsImpl_sane hi.defaultAttrs _ _ _, hi.resources⟩⟩

theorem writeResourceAttrs_tidy (hP : ResourceRule P) {as : Storage} (h : Tidy P as.objects)
    (alloc : Alloc) (ssid oid iid rid : Id) (attrs : InternalRAttrs) :
    Tidy P (writeResourceAttrs alloc ssid oid iid rid attrs as).2.objects :=
  updateObject_tidy h _ _ fun _ ho => ⟨rfl, ho.defaultAttrs, updateInstance_tidy ho.instances _ _
    fun _ hi => ⟨rfl, hi.defaultAttrs, updateResource_level hP hi.resources _ _
      fun _ hr => ⟨rfl, writeAttrsImpl_sane hr _ _ _⟩⟩⟩

end Tidy

end Anjay.AttrStorage
