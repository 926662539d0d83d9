/-
  File:      Anjay/AttrStorage/Handlers.lean
  Subject:   The attribute handlers of the Attribute Storage (`anjay_mod_attr_storage.c`), for Objects that have none
             of their own.

  * `setAt`: what is stored at a place for a server.
  * `setAt_writeObjectAttrs`, `setAt_writeInstanceAttrs`, `setAt_writeResourceAttrs`: a write that succeeds replaces
    exactly this, and one that fails replaces nothing.
-/
import Anjay.Dm.Discover

namespace Anjay.AttrStorage

open Lib Dm

/-! ## 1. The handlers -/

/-- `read_default_attrs` and `read_resource_attrs`, with the set that they give where there is none. -/
def readAttrs {α : Type} (empty : α) (ssid : Id) (attrs : List (SsidAttrs α)) : α :=
  lookup SsidAttrs.ssid empty SsidAttrs.attrs ssid attrs

/-- `object_read_default_attrs`. -/
def objectReadDefaultAttrs (as : Storage) (oid ssid : Id) : InternalOiAttrs :=
  readAttrs internalOiAttrsEmpty ssid (lookup ObjectEntry.oid [] ObjectEntry.defaultAttrs oid as.objects)

/-- `instance_read_default_attrs`. -/
def instanceReadDefaultAttrs (as : Storage) (oid iid ssid : Id) : InternalOiAttrs :=
  readAttrs internalOiAttrsEmpty ssid
    (lookup ObjectEntry.oid [] (fun o => lookup InstanceEntry.iid [] InstanceEntry.defaultAttrs iid o.instances) oid
      as.objects)

/-- `resource_read_attrs`. -/
def resourceReadAttrs (as : Storage) (oid iid rid ssid : Id) : InternalRAttrs :=
  readAttrs internalRAttrsEmpty ssid
    (lookup ObjectEntry.oid []
      (fun o => lookup InstanceEntry.iid [] (fun i => lookup ResourceEntry.rid [] ResourceEntry.attrs rid i.resources) iid
        o.instances) oid as.objects)

/-- What a write handler makes of the result of a write. -/
def handlerResult (r : Int × Storage) : Int × Storage := (if r.1 ≠ 0 then errInternal else 0, r.2)

/-- `object_write_default_attrs`. -/
def objectWriteDefaultAttrs (alloc : Alloc) (ssid oid : Id) (attrs : InternalOiAttrs) (as : Storage) : Int × Storage :=
  handlerResult (writeObjectAttrs alloc ssid oid attrs as)

/-- `instance_write_default_attrs`. -/
def instanceWriteDefaultAttrs (alloc : Alloc) (ssid oid iid : Id) (attrs : InternalOiAttrs) (as : Storage) :
    Int × Storage :=
  handlerResult (writeInstanceAttrs alloc ssid oid iid attrs as)

/-- `resource_write_attrs`. -/
def resourceWriteAttrs (alloc : Alloc) (ssid oid iid rid : Id) (attrs : InternalRAttrs) (as : Storage) :
    Int × Storage :=
  handlerResult (writeResourceAttrs alloc ssid oid iid rid attrs as)

theorem handlerResult_eq_zero (r : Int × Storage) : (handlerResult r).1 = 0 ↔ r.1 = 0 := by
  unfold handlerResult
  by_cases h : r.1 = 0
  · simp [h]
  · simp [h, errInternal]

/-! ## 2. What is stored -/

/-- Where attributes are stored. -/
inductive Place
  | object (oid : Id)
  | inst (oid iid : Id)
  | resource (oid iid rid : Id)
  deriving DecidableEq, Repr

/-- **The attributes that are set at a place for a server.** -/
def setAt (as : Storage) : Place → Id → AttrSet
  | .object oid, ssid => .ofOi (objectReadDefaultAttrs as oid ssid)
  | .inst oid iid, ssid => .ofOi (instanceReadDefaultAttrs as oid iid ssid)
  | .resource oid iid rid, ssid => .ofR (resourceReadAttrs as oid iid rid ssid)

/-! ## 3. Lists of sets of attributes -/

theorem ofOi_of_empty {attrs : InternalOiAttrs} (h : attributesEmpty attrs = true) :
    AttrSet.ofOi attrs = .ofOi internalOiAttrsEmpty := by
  rw [Discovery.ofOi_internalOiAttrsEmpty]
  unfold attributesEmpty at h
  simp only [Bool.and_eq_true, decide_eq_true_eq] at h
  obtain ⟨⟨⟨⟨hmin, hmax⟩, hemin⟩, hemax⟩, hcon⟩ := h
  apply AttrSet.ext
  · exact if_pos hmin
  · exact if_pos hmax
  · exact if_pos hemin
  · exact if_pos hemax
  · exact if_pos hcon
  all_goals rfl

theorem ofR_of_empty {attrs : InternalRAttrs} (h : resourceAttributesEmpty attrs = true) :
    AttrSet.ofR attrs = .ofR internalRAttrsEmpty := by
  unfold resourceAttributesEmpty at h
  simp only [Bool.and_eq_true] at h
  obtain ⟨⟨⟨hoi, hgt⟩, hlt⟩, hst⟩ := h
  have hcommon : AttrSet.ofOi attrs.oi = .ofOi internalRAttrsEmpty.oi := ofOi_of_empty hoi
  have hempty : AttrSet.ofR internalRAttrsEmpty = .empty := by decide +kernel
  unfold AttrSet.ofR at hempty ⊢
  rw [hcommon]
  apply AttrSet.ext
  case gt => exact (if_pos hgt).trans (congrArg AttrSet.gt hempty).symm
  case lt => exact (if_pos hlt).trans (congrArg AttrSet.lt hempty).symm
  case st => exact (if_pos hst).trans (congrArg AttrSet.st hempty).symm
  all_goals rfl

theorem writeAttrsImpl_read {α : Type} (isEmpty : α → Bool) (empty : α) (setOf : α → AttrSet)
    (hempty : ∀ a, isEmpty a = true → setOf a = setOf empty) {as : List (SsidAttrs α)} (hs : AttrsSane isEmpty as)
    (allocated : Bool) (ssid : Id) (attrs : α) (s : Id) :
    setOf (readAttrs empty s (writeAttrsImpl isEmpty allocated ssid attrs as).2) =
      if (writeAttrsImpl isEmpty allocated ssid attrs as).1.1 = 0 ∧ s = ssid then setOf attrs
      else setOf (readAttrs empty s as) := by
  have hkey : ∀ (e : Option (SsidAttrs α)) b, (∀ a, e = some a → a.ssid = ssid) →
      (if isEmpty attrs then (((0, e.isSome), none) : (Int × Bool) × Option (SsidAttrs α))
        else if e.isNone && !allocated then ((errInternal, false), none) else ((0, true), some ⟨ssid, attrs⟩)).2 = some b →
      b.ssid = ssid := by
    intro e b _ hb
    split at hb
    · cases hb
    split at hb
    · cases hb
    · rw [← Option.some.inj hb]
  unfold readAttrs lookup writeAttrsImpl
  rw [findEntry_withEntry hkey s hs.sorted, withEntry_fst_eq]
  by_cases hsame : s = ssid
  · rw [if_pos hsame, hsame]
    split
    next hattrs =>
      rw [if_pos ⟨rfl, rfl⟩]
      exact (hempty attrs hattrs).symm
    split
    next hfail =>
      have hnone : findEntry SsidAttrs.ssid ssid as = none :=
        Option.isNone_iff_eq_none.mp (Bool.and_eq_true_iff.mp hfail).1
      have hne : ¬((errInternal : Int) = 0 ∧ ssid = ssid) := fun h => absurd h.1 (by decide)
      rw [if_neg hne, hnone]
    · rw [if_pos ⟨rfl, rfl⟩]
      rfl
  · rw [if_neg hsame, if_neg fun h => hsame h.2]

/-! ## 4. Writes -/

section Writes

variable {P : ResourceEntry → Prop} {β : Type} {x d : β} {c : Prop} [Decidable c] {allocated : Bool}

/-- What succeeds returns 0. -/
abbrev Succeeds (r : Int × Bool) : Prop := r.1 = 0

theorem not_succeeds_fail : ¬Succeeds (-1, false) := by decide

theorem lookup_updateObject {objects : List ObjectEntry} (h : Tidy P objects) {oid : Id}
    {f : ObjectEntry → (Int × Bool) × ObjectEntry} (hf : ∀ o, (f o).2.oid = o.oid) {g : ObjectEntry → β}
    (hempty : ∀ o, o.empty = true → g o = d)
    (hmain : ∀ o, o.Sane P → g (f o).2 = if Succeeds (f o).1 ∧ c then x else g o) (j : Id) :
    lookup ObjectEntry.oid d g j (updateObject allocated oid f objects).2 =
      if Succeeds (updateObject allocated oid f objects).1 ∧ j = oid ∧ c then x
      else lookup ObjectEntry.oid d g j objects := by
  refine lookup_updateEntry_ite h.sorted rfl (fun o ho => (hf o).trans ho) (hempty _ rfl) hempty not_succeeds_fail
    (fun o ho => hmain o ?_) j
  rcases ho with ho | rfl
  · exact (h.all o ho).toSane
  · exact ⟨.nil, .nil⟩

theorem lookup_updateInstance {instances : List InstanceEntry}
    (h : Level InstanceEntry.iid (InstanceEntry.Tidy P) instances) {iid : Id}
    {f : InstanceEntry → (Int × Bool) × InstanceEntry} (hf : ∀ i, (f i).2.iid = i.iid) {g : InstanceEntry → β}
    (hempty : ∀ i, i.empty = true → g i = d)
    (hmain : ∀ i, i.Sane P → g (f i).2 = if Succeeds (f i).1 ∧ c then x else g i) (j : Id) :
    lookup InstanceEntry.iid d g j (updateInstance allocated iid f instances).2 =
      if Succeeds (updateInstance allocated iid f instances).1 ∧ j = iid ∧ c then x
      else lookup InstanceEntry.iid d g j instances := by
  refine lookup_updateEntry_ite h.sorted rfl (fun i hi => (hf i).trans hi) (hempty _ rfl) hempty not_succeeds_fail
    (fun i hi => hmain i ?_) j
  rcases hi with hi | rfl
  · exact (h.all i hi).toSane
  · exact ⟨.nil, .nil⟩

theorem lookup_updateResource (hP : ResourceRule P) {resources : List ResourceEntry}
    (h : Level ResourceEntry.rid P resources) {rid : Id} {f : ResourceEntry → (Int × Bool) × ResourceEntry}
    (hf : ∀ r, (f r).2.rid = r.rid) {g : ResourceEntry → β} (hempty : ∀ r, r.empty = true → g r = d)
    (hmain : ∀ r, r.Sane → g (f r).2 = if Succeeds (f r).1 ∧ c then x else g r) (j : Id) :
    lookup ResourceEntry.rid d g j (updateResource allocated rid f resources).2 =
      if Succeeds (updateResource allocated rid f resources).1 ∧ j = rid ∧ c then x
      else lookup ResourceEntry.rid d g j resources := by
  refine lookup_updateEntry_ite h.sorted rfl (fun r hr => (hf r).trans hr) (hempty _ rfl) hempty not_succeeds_fail
    (fun r hr => hmain r ?_) j
  rcases hr with hr | rfl
  · exact hP.sane r (h.all r hr)
  · exact .nil

end Writes

/-! ## 5. Writes to the storage -/

section Storage

def oiSet (s : Id) (attrs : List (SsidAttrs InternalOiAttrs)) : AttrSet := .ofOi (readAttrs internalOiAttrsEmpty s attrs)

def rSet (s : Id) (attrs : List (SsidAttrs InternalRAttrs)) : AttrSet := .ofR (readAttrs internalRAttrsEmpty s attrs)

theorem oiSet_write {attrs : List (SsidAttrs InternalOiAttrs)} (hs : AttrsSane attributesEmpty attrs) (allocated : Bool)
    (ssid : Id) (new : InternalOiAttrs) (s : Id) :
    oiSet s (writeAttrsImpl attributesEmpty allocated ssid new attrs).2 =
      if Succeeds (writeAttrsImpl attributesEmpty allocated ssid new attrs).1 ∧ s = ssid then .ofOi new
      else oiSet s attrs :=
  writeAttrsImpl_read attributesEmpty internalOiAttrsEmpty .ofOi (fun _ hempty => ofOi_of_empty hempty) hs allocated ssid new s

theorem rSet_write {attrs : List (SsidAttrs InternalRAttrs)} (hs : AttrsSane resourceAttributesEmpty attrs)
    (allocated : Bool) (ssid : Id) (new : InternalRAttrs) (s : Id) :
    rSet s (writeAttrsImpl resourceAttributesEmpty allocated ssid new attrs).2 =
      if Succeeds (writeAttrsImpl resourceAttributesEmpty allocated ssid new attrs).1 ∧ s = ssid then .ofR new
      else rSet s attrs :=
  writeAttrsImpl_read resourceAttributesEmpty internalRAttrsEmpty .ofR (fun _ hempty => ofR_of_empty hempty) hs allocated ssid new s

/-- What is read of an Object for one of its Instances, and of an Instance for one of its Resources. -/
def instanceSet (iid s : Id) (o : ObjectEntry) : AttrSet :=
  lookup InstanceEntry.iid (oiSet s []) (fun i => oiSet s i.defaultAttrs) iid o.instances

def resourceSet (rid s : Id) (i : InstanceEntry) : AttrSet :=
  lookup ResourceEntry.rid (rSet s []) (fun r => rSet s r.attrs) rid i.resources

def resourceSetBelow (iid rid s : Id) (o : ObjectEntry) : AttrSet :=
  lookup InstanceEntry.iid (rSet s []) (resourceSet rid s) iid o.instances

theorem setAt_object (as : Storage) (oid s : Id) :
    setAt as (.object oid) s = lookup ObjectEntry.oid (oiSet s []) (fun o => oiSet s o.defaultAttrs) oid as.objects :=
  lookup_apply (oiSet s) _ _ _ _

theorem setAt_inst (as : Storage) (oid iid s : Id) :
    setAt as (.inst oid iid) s = lookup ObjectEntry.oid (oiSet s []) (instanceSet iid s) oid as.objects := by
  refine (lookup_apply (oiSet s) _ _ _ _).trans ?_
  congr 1
  funext o
  exact lookup_apply (oiSet s) _ _ _ _

theorem setAt_resource (as : Storage) (oid iid rid s : Id) :
    setAt as (.resource oid iid rid) s =
      lookup ObjectEntry.oid (rSet s []) (resourceSetBelow iid rid s) oid as.objects := by
  refine (lookup_apply (rSet s) _ _ _ _).trans ?_
  congr 1
  funext o
  refine (lookup_apply (rSet s) _ _ _ _).trans ?_
  unfold resourceSetBelow
  congr 1
  funext i
  exact lookup_apply (rSet s) _ _ _ _

theorem oiSet_of_empty {o : ObjectEntry} (h : o.empty = true) (s : Id) : oiSet s o.defaultAttrs = oiSet s [] := by
  rw [List.isEmpty_iff.mp (Bool.and_eq_true_iff.mp h).1]

theorem instanceSet_of_empty {o : ObjectEntry} (h : o.empty = true) (iid s : Id) : instanceSet iid s o = oiSet s [] := by
  rw [instanceSet, List.isEmpty_iff.mp (Bool.and_eq_true_iff.mp h).2]
  rfl

theorem resourceSetBelow_of_empty {o : ObjectEntry} (h : o.empty = true) (iid rid s : Id) :
    resourceSetBelow iid rid s o = rSet s [] := by
  rw [resourceSetBelow, List.isEmpty_iff.mp (Bool.and_eq_true_iff.mp h).2]
  rfl

theorem resourceSet_of_empty {i : InstanceEntry} (h : i.empty = true) (rid s : Id) : resourceSet rid s i = rSet s [] := by
  rw [resourceSet, List.isEmpty_iff.mp (Bool.and_eq_true_iff.mp h).2]
  rfl

/-- Nothing changes on a condition that does not hold. -/
theorem same_of_not {q c : Prop} [Decidable q] [Decidable c] (hc : ¬c) {a b x : AttrSet} (h : a = b) :
    a = if q ∧ c then x else b := by rw [if_neg fun hqc => hc hqc.2, h]

/-- What the writes do to an entry. -/
def ResourceEntry.write (alloc : Alloc) (ssid : Id) (attrs : InternalRAttrs) (r : ResourceEntry) :
    (Int × Bool) × ResourceEntry :=
  let w := writeAttrsImpl resourceAttributesEmpty alloc.attrs ssid attrs r.attrs
  (w.1, { r with attrs := w.2 })

def InstanceEntry.write (alloc : Alloc) (ssid : Id) (attrs : InternalOiAttrs) (i : InstanceEntry) :
    (Int × Bool) × InstanceEntry :=
  let w := writeAttrsImpl attributesEmpty alloc.attrs ssid attrs i.defaultAttrs
  (w.1, { i with defaultAttrs := w.2 })

def ObjectEntry.write (alloc : Alloc) (ssid : Id) (attrs : InternalOiAttrs) (o : ObjectEntry) :
    (Int × Bool) × ObjectEntry :=
  let w := writeAttrsImpl attributesEmpty alloc.attrs ssid attrs o.defaultAttrs
  (w.1, { o with defaultAttrs := w.2 })

def InstanceEntry.onResource (alloc : Alloc) (rid : Id) (f : ResourceEntry → (Int × Bool) × ResourceEntry)
    (i : InstanceEntry) : (Int × Bool) × InstanceEntry :=
  let w := updateResource alloc.resource rid f i.resources
  (w.1, { i with resources := w.2 })

def ObjectEntry.onInstance (alloc : Alloc) (iid : Id) (f : InstanceEntry → (Int × Bool) × InstanceEntry)
    (o : ObjectEntry) : (Int × Bool) × ObjectEntry :=
  let w := updateInstance alloc.inst iid f o.instances
  (w.1, { o with instances := w.2 })

theorem writeObjectAttrs_eq (alloc : Alloc) (ssid oid : Id) (attrs : InternalOiAttrs) (as : Storage) :
    writeObjectAttrs alloc ssid oid attrs as =
      as.replace (updateObject alloc.object oid (ObjectEntry.write alloc ssid attrs) as.objects) := rfl

theorem writeInstanceAttrs_eq (alloc : Alloc) (ssid oid iid : Id) (attrs : InternalOiAttrs) (as : Storage) :
    writeInstanceAttrs alloc ssid oid iid attrs as =
      as.replace (updateObject alloc.object oid
        (ObjectEntry.onInstance alloc iid (InstanceEntry.write alloc ssid attrs)) as.objects) := rfl

theorem writeResourceAttrs_eq (alloc : Alloc) (ssid oid iid rid : Id) (attrs : InternalRAttrs) (as : Storage) :
    writeResourceAttrs alloc ssid oid iid rid attrs as =
      as.replace (updateObject alloc.object oid
        (ObjectEntry.onInstance alloc iid (InstanceEntry.onResource alloc rid (ResourceEntry.write alloc ssid attrs))) as.objects) := rfl

section Replace

variable {P : ResourceEntry → Prop} {as : Storage} (h : Tidy P as.objects) {allocated : Bool} {oid : Id}
  {f : ObjectEntry → (Int × Bool) × ObjectEntry} (hf : ∀ o, (f o).2.oid = o.oid) {c : Prop} [Decidable c] {x : AttrSet}
  (s : Id)
include h hf

/-- What is read afterwards follows from what is read of the entry of the Object. -/
theorem setAt_replace_object
    (hmain : ∀ o, o.Sane P → oiSet s (f o).2.defaultAttrs = if Succeeds (f o).1 ∧ c then x else oiSet s o.defaultAttrs)
    (j : Id) : setAt (as.replace (updateObject allocated oid f as.objects)).2 (.object j) s =
      if (as.replace (updateObject allocated oid f as.objects)).1 = 0 ∧ j = oid ∧ c then x
      else setAt as (.object j) s := by
  rw [setAt_object, setAt_object]
  exact lookup_updateObject h hf (fun o ho => oiSet_of_empty ho s) hmain j

theorem setAt_replace_inst (iid : Id)
    (hmain : ∀ o, o.Sane P → instanceSet iid s (f o).2 = if Succeeds (f o).1 ∧ c then x else instanceSet iid s o)
    (j : Id) : setAt (as.replace (updateObject allocated oid f as.objects)).2 (.inst j iid) s =
      if (as.replace (updateObject allocated oid f as.objects)).1 = 0 ∧ j = oid ∧ c then x
      else setAt as (.inst j iid) s := by
  rw [setAt_inst, setAt_inst]
  exact lookup_updateObject h hf (fun o ho => instanceSet_of_empty ho iid s) hmain j

theorem setAt_replace_resource (iid rid : Id)
    (hmain : ∀ o, o.Sane P → resourceSetBelow iid rid s (f o).2 =
      if Succeeds (f o).1 ∧ c then x else resourceSetBelow iid rid s o)
    (j : Id) : setAt (as.replace (updateObject allocated oid f as.objects)).2 (.resource j iid rid) s =
      if (as.replace (updateObject allocated oid f as.objects)).1 = 0 ∧ j = oid ∧ c then x
      else setAt as (.resource j iid rid) s := by
  rw [setAt_resource, setAt_resource]
  exact lookup_updateObject h hf (fun o ho => resourceSetBelow_of_empty ho iid rid s) hmain j

end Replace

section Entries

variable {P : ResourceEntry → Prop} {c : Prop} [Decidable c] {x : AttrSet} (alloc : Alloc) (s : Id)

theorem instanceSet_onInstance {o : ObjectEntry} (ho : o.Sane P) {iid : Id}
    {f : InstanceEntry → (Int × Bool) × InstanceEntry} (hf : ∀ i, (f i).2.iid = i.iid)
    (hmain : ∀ i, i.Sane P → oiSet s (f i).2.defaultAttrs = if Succeeds (f i).1 ∧ c then x else oiSet s i.defaultAttrs)
    (j : Id) : instanceSet j s (o.onInstance alloc iid f).2 =
      if Succeeds (o.onInstance alloc iid f).1 ∧ j = iid ∧ c then x else instanceSet j s o :=
  lookup_updateInstance ho.instances hf
    (fun i hi => by rw [List.isEmpty_iff.mp (Bool.and_eq_true_iff.mp hi).1]) hmain j

theorem resourceSetBelow_onInstance {o : ObjectEntry} (ho : o.Sane P) {iid : Id}
    {f : InstanceEntry → (Int × Bool) × InstanceEntry} (hf : ∀ i, (f i).2.iid = i.iid) (rid : Id)
    (hmain : ∀ i, i.Sane P → resourceSet rid s (f i).2 = if Succeeds (f i).1 ∧ c then x else resourceSet rid s i)
    (j : Id) : resourceSetBelow j rid s (o.onInstance alloc iid f).2 =
      if Succeeds (o.onInstance alloc iid f).1 ∧ j = iid ∧ c then x else resourceSetBelow j rid s o :=
  lookup_updateInstance ho.instances hf (fun _ hi => resourceSet_of_empty hi rid s) hmain j

theorem resourceSet_onResource (hP : ResourceRule P) {i : InstanceEntry} (hi : i.Sane P) {rid ssid : Id}
    (attrs : InternalRAttrs) (j : Id) :
    resourceSet j s (i.onResource alloc rid (ResourceEntry.write alloc ssid attrs)).2 =
      if Succeeds (i.onResource alloc rid (ResourceEntry.write alloc ssid attrs)).1 ∧ j = rid ∧ s = ssid then .ofR attrs
      else resourceSet j s i :=
  lookup_updateResource hP hi.resources (fun _ => rfl) (fun _ hr => by rw [List.isEmpty_iff.mp hr])
    (fun _ hr => rSet_write hr alloc.attrs ssid attrs s) j

end Entries

variable {P : ResourceEntry → Prop} {as : Storage} (h : Tidy P as.objects) (alloc : Alloc) (ssid oid iid rid : Id)
include h

/-- **A write to an Object**: what is read at any place, for any server, afterwards. -/
theorem setAt_writeObjectAttrs (attrs : InternalOiAttrs) (p : Place) (s : Id) :
    setAt (writeObjectAttrs alloc ssid oid attrs as).2 p s =
      if (writeObjectAttrs alloc ssid oid attrs as).1 = 0 ∧ p = .object oid ∧ s = ssid then .ofOi attrs
      else setAt as p s := by
  rw [writeObjectAttrs_eq]
  have hoid : ∀ o, (ObjectEntry.write alloc ssid attrs o).2.oid = o.oid := fun _ => rfl
  cases p with
  | object j =>
      have hmain : ∀ o : ObjectEntry, o.Sane P → oiSet s (o.write alloc ssid attrs).2.defaultAttrs =
          if Succeeds (o.write alloc ssid attrs).1 ∧ s = ssid then .ofOi attrs else oiSet s o.defaultAttrs :=
        fun o ho => oiSet_write ho.defaultAttrs alloc.attrs ssid attrs s
      rw [setAt_replace_object h hoid s hmain j]
      simp only [Place.object.injEq]
  | inst j k =>
      have hmain : ∀ o : ObjectEntry, o.Sane P → instanceSet k s (o.write alloc ssid attrs).2 =
          if Succeeds (o.write alloc ssid attrs).1 ∧ False then .empty else instanceSet k s o :=
        fun o _ => same_of_not not_false rfl
      rw [setAt_replace_inst h hoid s k hmain j, if_neg fun hc => hc.2.2, if_neg fun hc => (by cases hc.2.1)]
  | resource j k l =>
      have hmain : ∀ o : ObjectEntry, o.Sane P → resourceSetBelow k l s (o.write alloc ssid attrs).2 =
          if Succeeds (o.write alloc ssid attrs).1 ∧ False then .empty else resourceSetBelow k l s o :=
        fun o _ => same_of_not not_false rfl
      rw [setAt_replace_resource h hoid s k l hmain j, if_neg fun hc => hc.2.2, if_neg fun hc => (by cases hc.2.1)]

/-- **A write to an Instance.** -/
theorem setAt_writeInstanceAttrs (attrs : InternalOiAttrs) (p : Place) (s : Id) :
    setAt (writeInstanceAttrs alloc ssid oid iid attrs as).2 p s =
      if (writeInstanceAttrs alloc ssid oid iid attrs as).1 = 0 ∧ p = .inst oid iid ∧ s = ssid then .ofOi attrs
      else setAt as p s := by
  rw [writeInstanceAttrs_eq]
  obtain ⟨f, hf⟩ : ∃ f, f = InstanceEntry.write alloc ssid attrs := ⟨_, rfl⟩
  have hiid : ∀ i, (f i).2.iid = i.iid := by
    rw [hf]
    exact fun _ => rfl
  have hoid : ∀ o, (ObjectEntry.onInstance alloc iid f o).2.oid = o.oid := fun _ => rfl
  rw [← hf]
  cases p with
  | object j =>
      have hmain : ∀ o : ObjectEntry, o.Sane P → oiSet s (o.onInstance alloc iid f).2.defaultAttrs =
          if Succeeds (o.onInstance alloc iid f).1 ∧ False then .empty else oiSet s o.defaultAttrs :=
        fun o _ => same_of_not not_false rfl
      rw [setAt_replace_object h hoid s hmain j, if_neg fun hc => hc.2.2, if_neg fun hc => (by cases hc.2.1)]
  | inst j k =>
      have hentry : ∀ i : InstanceEntry, i.Sane P → oiSet s (f i).2.defaultAttrs =
          if Succeeds (f i).1 ∧ s = ssid then .ofOi attrs else oiSet s i.defaultAttrs := by
        rw [hf]
        exact fun i hi => oiSet_write hi.defaultAttrs alloc.attrs ssid attrs s
      rw [setAt_replace_inst h hoid s k (fun o ho => instanceSet_onInstance alloc s ho hiid hentry k) j]
      simp only [Place.inst.injEq, and_assoc]
  | resource j k l =>
      have hentry : ∀ i : InstanceEntry, i.Sane P → resourceSet l s (f i).2 =
          if Succeeds (f i).1 ∧ False then .empty else resourceSet l s i := by
        rw [hf]
        exact fun i _ => same_of_not not_false rfl
      rw [setAt_replace_resource h hoid s k l (fun o ho => resourceSetBelow_onInstance alloc s ho hiid l hentry k) j,
        if_neg fun hc => hc.2.2.2, if_neg fun hc => (by cases hc.2.1)]

/-- **A write to a Resource.** -/
theorem setAt_writeResourceAttrs (hP : ResourceRule P) (attrs : InternalRAttrs) (p : Place) (s : Id) :
    setAt (writeResourceAttrs alloc ssid oid iid rid attrs as).2 p s =
      if (writeResourceAttrs alloc ssid oid iid rid attrs as).1 = 0 ∧ p = .resource oid iid rid ∧ s = ssid then .ofR attrs
      else setAt as p s := by
  rw [writeResourceAttrs_eq]
  obtain ⟨f, hf⟩ : ∃ f, f = InstanceEntry.onResource alloc rid (ResourceEntry.write alloc ssid attrs) := ⟨_, rfl⟩
  have hiid : ∀ i, (f i).2.iid = i.iid := by
    rw [hf]
    exact fun _ => rfl
  have hoid : ∀ o, (ObjectEntry.onInstance alloc iid f o).2.oid = o.oid := fun _ => rfl
  rw [← hf]
  cases p with
  | object j =>
      have hmain : ∀ o : ObjectEntry, o.Sane P → oiSet s (o.onInstance alloc iid f).2.defaultAttrs =
          if Succeeds (o.onInstance alloc iid f).1 ∧ False then .empty else oiSet s o.defaultAttrs :=
        fun o _ => same_of_not not_false rfl
      rw [setAt_replace_object h hoid s hmain j, if_neg fun hc => hc.2.2, if_neg fun hc => (by cases hc.2.1)]
  | inst j k =>
      have hentry : ∀ i : InstanceEntry, i.Sane P → oiSet s (f i).2.defaultAttrs =
          if Succeeds (f i).1 ∧ False then .empty else oiSet s i.defaultAttrs := by
        rw [hf]
        exact fun i _ => same_of_not not_false rfl
      rw [setAt_replace_inst h hoid s k (fun o ho => instanceSet_onInstance alloc s ho hiid hentry k) j,
        if_neg fun hc => hc.2.2.2, if_neg fun hc => (by cases hc.2.1)]
  | resource j k l =>
      have hentry : ∀ i : InstanceEntry, i.Sane P → resourceSet l s (f i).2 =
          if Succeeds (f i).1 ∧ l = rid ∧ s = ssid then .ofR attrs else resourceSet l s i := by
        rw [hf]
        exact fun i hi => resourceSet_onResource alloc s hP hi attrs l
      rw [setAt_replace_resource h hoid s k l (fun o ho => resourceSetBelow_onInstance alloc s ho hiid l hentry k) j]
      simp only [Place.resource.injEq, and_assoc]

end Storage

end Anjay.AttrStorage
