/-
  File:      Anjay/Dm/Attributes.lean
  Subject:   The effective attributes of a path (`anjay_dm_attributes.c`), with ANJAY_WITH_CON_ATTR.

  * `AttrSet`: the attributes that are set; `firstDefined`: for each attribute, the first level that sets it.
  * `pathAttrs_defines`: through the levels of the path the code finds just these, and the early exits for a set
    that is already full change nothing.
  * `AttrsModel.effectiveAttrs_iff`: with the Server level it does so iff the Default Periods that are asked for
    are absent, not readable or in the range of a period.
-/
import Anjay.AttrStorage.Tree
import Anjay.Dm.Query

namespace Anjay.Dm

open AttrStorage

variable {σ : Type}

/-! ## 1. Combining attributes -/

/-- A result other than 0. -/
abbrev Failure := { result : Int // result ≠ 0 }

/-- `combine_period`. -/
def combinePeriod (out other : BitVec 32) : BitVec 32 := if out.toInt < 0 then other else out

/-- `combine_value`. -/
def combineValue (out other : Double) : Double := if out.isNaN then other else out

def combineCon (out other : ConAttr) : ConAttr := if out.toInt < 0 then other else out

/-- `combine_attrs`. -/
def combineAttrs (out other : InternalOiAttrs) : InternalOiAttrs where
  standard :=
    { minPeriod := combinePeriod out.standard.minPeriod other.standard.minPeriod
      maxPeriod := combinePeriod out.standard.maxPeriod other.standard.maxPeriod
      minEvalPeriod := combinePeriod out.standard.minEvalPeriod other.standard.minEvalPeriod
      maxEvalPeriod := combinePeriod out.standard.maxEvalPeriod other.standard.maxEvalPeriod }
  con := combineCon out.con other.con

/-- What is written through `_anjay_dm_get_internal_oi_attrs(&attrs->standard.common)`. -/
def setOi (attrs : InternalRAttrs) (oi : InternalOiAttrs) : InternalRAttrs where
  standard := { attrs.standard with common := oi.standard }
  con := oi.con

/-- `combine_resource_attrs`; `con` is combined twice. -/
def combineResourceAttrs (out other : InternalRAttrs) : InternalRAttrs where
  standard :=
    { common := (combineAttrs out.oi other.oi).standard
      greaterThan := combineValue out.standard.greaterThan other.standard.greaterThan
      lessThan := combineValue out.standard.lessThan other.standard.lessThan
      step := combineValue out.standard.step other.standard.step }
  con := combineCon (combineAttrs out.oi other.oi).con other.con

/-- `_anjay_dm_attributes_full`. -/
def attributesFull (attrs : InternalOiAttrs) : Bool :=
  decide (0 ≤ attrs.standard.minPeriod.toInt) && decide (0 ≤ attrs.standard.maxPeriod.toInt) &&
    decide (0 ≤ attrs.standard.minEvalPeriod.toInt) && decide (0 ≤ attrs.standard.maxEvalPeriod.toInt) &&
    decide (0 ≤ attrs.con.toInt)

/-- `_anjay_dm_resource_attributes_full`. -/
def resourceAttributesFull (attrs : InternalRAttrs) : Bool :=
  attributesFull attrs.oi && !attrs.standard.greaterThan.isNaN && !attrs.standard.lessThan.isNaN &&
    !attrs.standard.step.isNaN

/-- `ANJAY_DM_INTERNAL_R_ATTRS_EMPTY`. -/
def internalRAttrsEmpty : InternalRAttrs where
  standard := ⟨⟨periodNone, periodNone, periodNone, periodNone⟩, .nan, .nan, .nan⟩
  con := .default

/-! ## 2. Reading the levels -/

/-- The data model with the reads that the effective attributes take: a Resource with the code of a read that
    fails, and the attributes of a Resource, an Instance and an Object for a server. -/
structure AttrsModel (σ : Type) extends DataModel σ where
  readI64 : Id → Id → Id → Except Failure Int
  toOption_readI64 : ∀ oid iid rid, (readI64 oid iid rid).toOption = readResourceI64 oid iid rid
  resourceReadAttrs : Id → Id → Id → Id → Except Failure InternalRAttrs
  instanceReadDefaultAttrs : Id → Id → Id → Except Failure InternalOiAttrs
  objectReadDefaultAttrs : Id → Id → Except Failure InternalOiAttrs

/-- `anjay_dm_attrs_query_details_t`; the assertion of `_anjay_dm_effective_attrs` is its last field. -/
structure AttrsQuery where
  obj : Option Id
  iid : Id
  rid : Id
  riid : Id
  ssid : Id
  withServerLevelAttrs : Bool
  normalized : ∀ oid, obj = some oid → (UriPath.resourceInstance oid iid rid riid).normalized = true

def ridServerDefaultPmin : Id := 2
def ridServerDefaultPmax : Id := 3

/-- `ANJAY_DM_DEFAULT_PMIN_VALUE`. -/
def defaultPminValue : BitVec 32 := 1

def int32Max : Int := 2147483647

theorem attribPeriodNone_ne_zero : (-1 : Int) ≠ 0 := by decide

/-- `return ANJAY_ATTRIB_PERIOD_NONE`. -/
def attribPeriodNone : Failure := ⟨-1, attribPeriodNone_ne_zero⟩

/-- The end of `read_period`, with the value that was read. -/
def takePeriod (value : Int) : Except Failure (BitVec 32) :=
  if value < 0 ∨ int32Max < value then .error attribPeriodNone else .ok (BitVec.ofInt 32 value)

namespace AttrsModel

variable (dm : AttrsModel σ)

/-- `read_period`; `left` is what its variable `value` holds where the read leaves none. -/
def readPeriod (left : Int) (serverIid rid : Id) : Except Failure (BitVec 32) :=
  match dm.readI64 oidServer serverIid rid with
  | .error e =>
      if e.val = errMethodNotAllowed ∨ e.val = errNotFound then .ok periodNone
      else if e.val < 0 then .error e
      else takePeriod left
  | .ok value => takePeriod value

/-- `read_combined_period`. -/
def readCombinedPeriod (left : Int) (serverIid rid : Id) (out : BitVec 32) : Except Failure (BitVec 32) :=
  if out.toInt < 0 then dm.readPeriod left serverIid rid else .ok out

/-- The two periods of the Server level. -/
def readCombinedPeriods (left : Int) (serverIid : Id) (out : InternalOiAttrs) : Except Failure InternalOiAttrs :=
  match dm.readCombinedPeriod left serverIid ridServerDefaultPmin out.standard.minPeriod with
  | .error e => .error e
  | .ok minPeriod =>
      match dm.readCombinedPeriod left serverIid ridServerDefaultPmax out.standard.maxPeriod with
      | .error e => .error e
      | .ok maxPeriod => .ok { out with standard := { out.standard with minPeriod, maxPeriod } }

/-- The built-in default of the minimum period. -/
def withDefaultPmin (out : InternalOiAttrs) : InternalOiAttrs :=
  if out.standard.minPeriod.toInt < 0 then
    { out with standard := { out.standard with minPeriod := defaultPminValue } }
  else out

/-- `dm_read_combined_server_attrs`. -/
def dmReadCombinedServerAttrs (left : Int) (ssid : Id) (out : InternalOiAttrs) : Except Failure InternalOiAttrs :=
  if 0 ≤ out.standard.minPeriod.toInt ∧ 0 ≤ out.standard.maxPeriod.toInt then .ok out
  else
    match findServerIid dm.toDataModel ssid with
    | none => .ok (withDefaultPmin out)
    | some serverIid =>
        match dm.readCombinedPeriods left serverIid out with
        | .error e => .error e
        | .ok out => .ok (withDefaultPmin out)

/-- `dm_read_combined_resource_attrs`. -/
def dmReadCombinedResourceAttrs (oid iid rid ssid : Id) (out : InternalRAttrs) : Except Failure InternalRAttrs :=
  if resourceAttributesFull out then .ok out
  else
    match dm.resourceReadAttrs oid iid rid ssid with
    | .error e => .error e
    | .ok resattrs => .ok (combineResourceAttrs out resattrs)

/-- `dm_read_combined_instance_attrs` and `dm_read_combined_object_attrs`, on the handler that each calls. -/
def dmReadCombinedOiAttrs (handler : Except Failure InternalOiAttrs) (out : InternalOiAttrs) :
    Except Failure InternalOiAttrs :=
  if attributesFull out then .ok out
  else
    match handler with
    | .error e => .error e
    | .ok attrs => .ok (combineAttrs out attrs)

/-- `dm_read_combined_instance_attrs`. -/
def dmReadCombinedInstanceAttrs (oid iid ssid : Id) (out : InternalOiAttrs) : Except Failure InternalOiAttrs :=
  dmReadCombinedOiAttrs (dm.instanceReadDefaultAttrs oid iid ssid) out

/-- `dm_read_combined_object_attrs`. -/
def dmReadCombinedObjectAttrs (oid ssid : Id) (out : InternalOiAttrs) : Except Failure InternalOiAttrs :=
  dmReadCombinedOiAttrs (dm.objectReadDefaultAttrs oid ssid) out

/-- A level that reads into the part that is common to all paths. -/
def onOi (f : InternalOiAttrs → Except Failure InternalOiAttrs) (out : InternalRAttrs) :
    Except Failure InternalRAttrs :=
  match f out.oi with
  | .error e => .error e
  | .ok oi => .ok (setOi out oi)

/-- The Resource of the queried path, if it names one. -/
def atResource (oid : Id) (query : AttrsQuery) (out : InternalRAttrs) : Except Failure InternalRAttrs :=
  if query.rid ≠ idInvalid then dm.dmReadCombinedResourceAttrs oid query.iid query.rid query.ssid out else .ok out

/-- The Instance of the queried path, if it names one. -/
def atInstance (oid : Id) (query : AttrsQuery) (out : InternalRAttrs) : Except Failure InternalRAttrs :=
  if query.iid ≠ idInvalid then onOi (dm.dmReadCombinedInstanceAttrs oid query.iid query.ssid) out else .ok out

/-- The first branch of `_anjay_dm_effective_attrs`: the levels of the path. -/
def pathAttrs (query : AttrsQuery) (out : InternalRAttrs) : Except Failure InternalRAttrs :=
  match query.obj with
  | none => .ok out
  | some oid => do
      let out ← dm.atResource oid query out
      let out ← dm.atInstance oid query out
      onOi (dm.dmReadCombinedObjectAttrs oid query.ssid) out

/-- `_anjay_dm_effective_attrs`. -/
def effectiveAttrs (left : Int) (query : AttrsQuery) : Except Failure InternalRAttrs := do
  let out ← dm.pathAttrs query internalRAttrsEmpty
  if query.withServerLevelAttrs then onOi (dm.dmReadCombinedServerAttrs left query.ssid) out
  else pure out

end AttrsModel

/-! ## 3. The attributes that are set -/

/-- Attributes, each of which may be missing. -/
@[ext] structure AttrSet where
  pmin : Option (BitVec 32)
  pmax : Option (BitVec 32)
  epmin : Option (BitVec 32)
  epmax : Option (BitVec 32)
  con : Option ConAttr
  gt : Option Double
  lt : Option Double
  st : Option Double
  deriving DecidableEq, Repr

namespace AttrSet

def empty : AttrSet := ⟨none, none, none, none, none, none, none, none⟩

/-- The attributes of `a` and, where it has none, those of `b`. -/
def orElse (a b : AttrSet) : AttrSet where
  pmin := a.pmin.or b.pmin
  pmax := a.pmax.or b.pmax
  epmin := a.epmin.or b.epmin
  epmax := a.epmax.or b.epmax
  con := a.con.or b.con
  gt := a.gt.or b.gt
  lt := a.lt.or b.lt
  st := a.st.or b.st

/-- **For each attribute on its own, what the first level that sets it says.** -/
def firstDefined (levels : List AttrSet) : AttrSet where
  pmin := levels.findSome? pmin
  pmax := levels.findSome? pmax
  epmin := levels.findSome? epmin
  epmax := levels.findSome? epmax
  con := levels.findSome? con
  gt := levels.findSome? gt
  lt := levels.findSome? lt
  st := levels.findSome? st

/-- Everything that an Object or an Instance can set is set. -/
structure OiFull (a : AttrSet) : Prop where
  pmin : a.pmin ≠ none
  pmax : a.pmax ≠ none
  epmin : a.epmin ≠ none
  epmax : a.epmax ≠ none
  con : a.con ≠ none

theorem findSome?_cons_or {α β : Type} (f : α → Option β) (a : α) (as : List α) :
    (a :: as).findSome? f = (f a).or (as.findSome? f) := by
  rw [List.findSome?_cons]
  cases f a <;> rfl

theorem firstDefined_nil : firstDefined [] = empty := rfl

theorem firstDefined_cons (a : AttrSet) (levels : List AttrSet) :
    firstDefined (a :: levels) = a.orElse (firstDefined levels) := by
  apply AttrSet.ext <;> exact findSome?_cons_or _ _ _

theorem orElse_assoc (a b c : AttrSet) : (a.orElse b).orElse c = a.orElse (b.orElse c) := by
  apply AttrSet.ext <;> exact Option.or_assoc

theorem orElse_empty (a : AttrSet) : a.orElse empty = a := by
  apply AttrSet.ext <;> exact Option.or_none

theorem empty_orElse (a : AttrSet) : empty.orElse a = a := by
  apply AttrSet.ext <;> exact Option.none_or

theorem firstDefined_append (as bs : List AttrSet) :
    firstDefined (as ++ bs) = (firstDefined as).orElse (firstDefined bs) := by
  induction as with
  | nil => rw [List.nil_append, firstDefined_nil, empty_orElse]
  | cons a as ih => rw [List.cons_append, firstDefined_cons, ih, firstDefined_cons, orElse_assoc]

end AttrSet

/-- A period that is set is not negative. -/
def definedPeriod (x : BitVec 32) : Option (BitVec 32) := if x.toInt < 0 then none else some x

/-- A value that is set is no NaN. -/
def definedValue (x : Double) : Option Double := if x.isNaN then none else some x

def definedCon (x : ConAttr) : Option ConAttr := if x.toInt < 0 then none else some x

/-- The attributes that an Object or an Instance sets. -/
def AttrSet.ofOi (attrs : InternalOiAttrs) : AttrSet where
  pmin := definedPeriod attrs.standard.minPeriod
  pmax := definedPeriod attrs.standard.maxPeriod
  epmin := definedPeriod attrs.standard.minEvalPeriod
  epmax := definedPeriod attrs.standard.maxEvalPeriod
  con := definedCon attrs.con
  gt := none
  lt := none
  st := none

/-- The attributes that a Resource sets. -/
def AttrSet.ofR (attrs : InternalRAttrs) : AttrSet :=
  { ofOi attrs.oi with
    gt := definedValue attrs.standard.greaterThan
    lt := definedValue attrs.standard.lessThan
    st := definedValue attrs.standard.step }

theorem definedPeriod_combine (a b : BitVec 32) :
    definedPeriod (combinePeriod a b) = (definedPeriod a).or (definedPeriod b) := by
  unfold combinePeriod definedPeriod
  by_cases ha : a.toInt < 0
  · rw [if_pos ha, if_pos ha, Option.none_or]
  · rw [if_neg ha, if_neg ha, Option.some_or]

theorem definedValue_combine (a b : Double) :
    definedValue (combineValue a b) = (definedValue a).or (definedValue b) := by
  unfold combineValue definedValue
  cases ha : a.isNaN with
  | true => rw [if_pos rfl, if_pos rfl, Option.none_or]
  | false => rw [if_neg Bool.false_ne_true, ha, if_neg Bool.false_ne_true, Option.some_or]

theorem definedCon_combine (a b : ConAttr) : definedCon (combineCon a b) = (definedCon a).or (definedCon b) := by
  cases a <;> rfl

theorem definedCon_combine_twice (a b : ConAttr) :
    definedCon (combineCon (combineCon a b) b) = (definedCon a).or (definedCon b) := by
  cases a <;> cases b <;> rfl

theorem definedPeriod_ne_none {x : BitVec 32} : definedPeriod x ≠ none ↔ 0 ≤ x.toInt := by
  unfold definedPeriod
  by_cases hx : x.toInt < 0
  · rw [if_pos hx]
    exact ⟨fun h => absurd rfl h, fun h => absurd hx (not_lt.mpr h)⟩
  · rw [if_neg hx]
    exact ⟨fun _ => not_lt.mp hx, fun _ => Option.some_ne_none x⟩

theorem definedValue_ne_none {x : Double} : definedValue x ≠ none ↔ x.isNaN = false := by
  unfold definedValue
  cases x.isNaN with
  | true => exact ⟨fun h => absurd rfl h, Bool.noConfusion⟩
  | false => exact ⟨fun _ => rfl, fun _ => Option.some_ne_none x⟩

theorem definedCon_ne_none {x : ConAttr} : definedCon x ≠ none ↔ 0 ≤ x.toInt := by
  cases x <;> decide

namespace AttrSet

/-- **Combining is taking what the first of two levels sets.** -/
theorem ofR_combine (out other : InternalRAttrs) :
    ofR (combineResourceAttrs out other) = (ofR out).orElse (ofR other) := by
  apply AttrSet.ext
  case con => exact definedCon_combine_twice _ _
  case gt | lt | st => exact definedValue_combine _ _
  all_goals exact definedPeriod_combine _ _

theorem ofR_setOi_combine (out : InternalRAttrs) (other : InternalOiAttrs) :
    ofR (setOi out (combineAttrs out.oi other)) = (ofR out).orElse (ofOi other) := by
  apply AttrSet.ext
  case con => exact definedCon_combine _ _
  case gt | lt | st => exact Option.or_none.symm
  all_goals exact definedPeriod_combine _ _

theorem oiFull_ofR_iff {out : InternalRAttrs} : attributesFull out.oi = true ↔ (ofR out).OiFull := by
  unfold attributesFull
  simp only [Bool.and_eq_true, decide_eq_true_eq]
  refine ⟨fun ⟨⟨⟨⟨hmin, hmax⟩, hemin⟩, hemax⟩, hcon⟩ => ?_, fun h => ?_⟩
  · exact ⟨definedPeriod_ne_none.mpr hmin, definedPeriod_ne_none.mpr hmax, definedPeriod_ne_none.mpr hemin,
      definedPeriod_ne_none.mpr hemax, definedCon_ne_none.mpr hcon⟩
  · exact ⟨⟨⟨⟨definedPeriod_ne_none.mp h.pmin, definedPeriod_ne_none.mp h.pmax⟩,
      definedPeriod_ne_none.mp h.epmin⟩, definedPeriod_ne_none.mp h.epmax⟩, definedCon_ne_none.mp h.con⟩

theorem or_of_ne_none {α : Type} {a : Option α} (h : a ≠ none) (b : Option α) : a.or b = a := by
  cases a with
  | none => exact absurd rfl h
  | some x => rfl

/-- **To a full set an Object or an Instance adds nothing.** -/
theorem orElse_ofOi {a : AttrSet} (h : a.OiFull) (other : InternalOiAttrs) : a.orElse (ofOi other) = a := by
  apply AttrSet.ext
  · exact or_of_ne_none h.pmin _
  · exact or_of_ne_none h.pmax _
  · exact or_of_ne_none h.epmin _
  · exact or_of_ne_none h.epmax _
  · exact or_of_ne_none h.con _
  all_goals exact Option.or_none

/-- **To a full set a Resource adds nothing.** -/
theorem ofR_orElse {out : InternalRAttrs} (h : resourceAttributesFull out = true) (a : AttrSet) :
    (ofR out).orElse a = ofR out := by
  unfold resourceAttributesFull at h
  simp only [Bool.and_eq_true, Bool.not_eq_true'] at h
  obtain ⟨⟨⟨hoi, hgt⟩, hlt⟩, hst⟩ := h
  have hfull := oiFull_ofR_iff.mp hoi
  apply AttrSet.ext
  · exact or_of_ne_none hfull.pmin _
  · exact or_of_ne_none hfull.pmax _
  · exact or_of_ne_none hfull.epmin _
  · exact or_of_ne_none hfull.epmax _
  · exact or_of_ne_none hfull.con _
  · exact or_of_ne_none (definedValue_ne_none.mpr hgt) _
  · exact or_of_ne_none (definedValue_ne_none.mpr hlt) _
  · exact or_of_ne_none (definedValue_ne_none.mpr hst) _

end AttrSet

/-! ## 4. The levels of the path -/

/-- What a handler sets; nothing if it fails. -/
def setBy {α : Type} (ofAttrs : α → AttrSet) : Except Failure α → AttrSet
  | .ok attrs => ofAttrs attrs
  | .error _ => .empty

namespace AttrsModel

variable {dm : AttrsModel σ} {query : AttrsQuery} {oid : Id}

def resourceLevel (dm : AttrsModel σ) (query : AttrsQuery) (oid : Id) : AttrSet :=
  if query.rid ≠ idInvalid then setBy .ofR (dm.resourceReadAttrs oid query.iid query.rid query.ssid) else .empty

def instanceLevel (dm : AttrsModel σ) (query : AttrsQuery) (oid : Id) : AttrSet :=
  if query.iid ≠ idInvalid then setBy .ofOi (dm.instanceReadDefaultAttrs oid query.iid query.ssid) else .empty

def objectLevel (dm : AttrsModel σ) (query : AttrsQuery) (oid : Id) : AttrSet :=
  setBy .ofOi (dm.objectReadDefaultAttrs oid query.ssid)

/-- The levels of the queried path, the most specific one first. -/
def pathLevels (dm : AttrsModel σ) (query : AttrsQuery) : List AttrSet :=
  match query.obj with
  | none => []
  | some oid => [dm.resourceLevel query oid, dm.instanceLevel query oid, dm.objectLevel query oid]

/-- The handlers that are called for the path succeed. The handler of an Instance or an Object is not called
    if the levels before it set everything that it could set. -/
structure Answers (dm : AttrsModel σ) (query : AttrsQuery) (oid : Id) : Prop where
  resource : query.rid ≠ idInvalid → ∃ attrs, dm.resourceReadAttrs oid query.iid query.rid query.ssid = .ok attrs
  inst : query.iid ≠ idInvalid → (dm.resourceLevel query oid).OiFull ∨
    ∃ attrs, dm.instanceReadDefaultAttrs oid query.iid query.ssid = .ok attrs
  object : ((dm.resourceLevel query oid).orElse (dm.instanceLevel query oid)).OiFull ∨
    ∃ attrs, dm.objectReadDefaultAttrs oid query.ssid = .ok attrs

theorem setBy_ofOi_of_full {a : AttrSet} (h : a.OiFull) (handler : Except Failure InternalOiAttrs) :
    a.orElse (setBy .ofOi handler) = a := by
  cases handler with
  | error e => exact a.orElse_empty
  | ok attrs => exact AttrSet.orElse_ofOi h attrs

/-- **The level of an Object or an Instance**, whether its handler is called or not. -/
theorem onOi_level {out : InternalRAttrs} {handler : Except Failure InternalOiAttrs}
    (h : (AttrSet.ofR out).OiFull ∨ ∃ attrs, handler = .ok attrs) :
    ∃ out', onOi (dmReadCombinedOiAttrs handler) out = .ok out' ∧
      AttrSet.ofR out' = (AttrSet.ofR out).orElse (setBy .ofOi handler) := by
  unfold onOi dmReadCombinedOiAttrs
  by_cases hfull : (AttrSet.ofR out).OiFull
  · rw [if_pos (AttrSet.oiFull_ofR_iff.mpr hfull)]
    exact ⟨out, rfl, (setBy_ofOi_of_full hfull handler).symm⟩
  · obtain ⟨attrs, rfl⟩ := h.resolve_left hfull
    rw [if_neg (mt AttrSet.oiFull_ofR_iff.mp hfull)]
    exact ⟨_, rfl, AttrSet.ofR_setOi_combine out attrs⟩

theorem atResource_level (h : dm.Answers query oid) (out : InternalRAttrs) :
    ∃ out', dm.atResource oid query out = .ok out' ∧
      AttrSet.ofR out' = (AttrSet.ofR out).orElse (dm.resourceLevel query oid) := by
  unfold resourceLevel atResource dmReadCombinedResourceAttrs
  by_cases hrid : query.rid ≠ idInvalid
  · obtain ⟨attrs, hread⟩ := h.resource hrid
    rw [if_pos hrid, if_pos hrid, hread]
    cases hfull : resourceAttributesFull out with
    | true => exact ⟨out, rfl, (AttrSet.ofR_orElse hfull _).symm⟩
    | false => exact ⟨_, rfl, AttrSet.ofR_combine out attrs⟩
  · rw [if_neg hrid, if_neg hrid]
    exact ⟨out, rfl, (AttrSet.orElse_empty _).symm⟩

theorem atInstance_level (h : dm.Answers query oid) {out : InternalRAttrs}
    (hout : AttrSet.ofR out = dm.resourceLevel query oid) :
    ∃ out', dm.atInstance oid query out = .ok out' ∧
      AttrSet.ofR out' = (AttrSet.ofR out).orElse (dm.instanceLevel query oid) := by
  unfold instanceLevel atInstance
  by_cases hiid : query.iid ≠ idInvalid
  · rw [if_pos hiid, if_pos hiid]
    refine onOi_level ?_
    rw [hout]
    exact h.inst hiid
  · rw [if_neg hiid, if_neg hiid]
    exact ⟨out, rfl, (AttrSet.orElse_empty _).symm⟩

theorem ofR_internalRAttrsEmpty : AttrSet.ofR internalRAttrsEmpty = .empty := by decide +kernel

/-- **Through the levels of its path the code finds, for each attribute, what the first level that sets it says.** -/
theorem pathAttrs_defines (h : ∀ oid, query.obj = some oid → dm.Answers query oid) :
    ∃ out, dm.pathAttrs query internalRAttrsEmpty = .ok out ∧
      AttrSet.ofR out = AttrSet.firstDefined (dm.pathLevels query) := by
  unfold pathAttrs pathLevels
  cases hobj : query.obj with
  | none => exact ⟨_, rfl, ofR_internalRAttrsEmpty⟩
  | some oid =>
      have hanswers := h oid hobj
      obtain ⟨out1, h1, hset1⟩ := atResource_level hanswers internalRAttrsEmpty
      rw [ofR_internalRAttrsEmpty, AttrSet.empty_orElse] at hset1
      obtain ⟨out2, h2, hset2⟩ := atInstance_level hanswers hset1
      rw [hset1] at hset2
      obtain ⟨out3, h3, hset3⟩ := onOi_level (hset2 ▸ hanswers.object)
      rw [hset2, AttrSet.orElse_assoc] at hset3
      refine ⟨out3, ?_, ?_⟩
      · dsimp only
        rw [h1]
        show dm.atInstance oid query out1 >>= onOi (dm.dmReadCombinedObjectAttrs oid query.ssid) = .ok out3
        rw [h2]
        exact h3
      · dsimp only
        rw [AttrSet.firstDefined_cons, AttrSet.firstDefined_cons, AttrSet.firstDefined_cons,
          AttrSet.firstDefined_nil, AttrSet.orElse_empty]
        exact hset3

/-- A level that could be read is one that nothing was left to read from, or whose handler succeeded. -/
theorem onOi_ok {out out' : InternalRAttrs} {handler : Except Failure InternalOiAttrs}
    (h : onOi (dmReadCombinedOiAttrs handler) out = .ok out') :
    AttrSet.ofR out' = (AttrSet.ofR out).orElse (setBy .ofOi handler) := by
  have hanswers : (AttrSet.ofR out).OiFull ∨ ∃ attrs, handler = .ok attrs := by
    by_cases hfull : attributesFull out.oi = true
    · exact Or.inl (AttrSet.oiFull_ofR_iff.mp hfull)
    · cases handler with
      | ok attrs => exact Or.inr ⟨attrs, rfl⟩
      | error e =>
          rw [onOi, dmReadCombinedOiAttrs, if_neg hfull] at h
          cases h
  obtain ⟨out'', hcall, hset⟩ := onOi_level hanswers
  rw [hcall] at h
  rw [← Except.ok.inj h, hset]

theorem atResource_ok {out' : InternalRAttrs} (h : dm.atResource oid query internalRAttrsEmpty = .ok out') :
    AttrSet.ofR out' = dm.resourceLevel query oid := by
  have hempty : resourceAttributesFull internalRAttrsEmpty ≠ true := by decide
  unfold resourceLevel
  unfold atResource dmReadCombinedResourceAttrs at h
  by_cases hrid : query.rid ≠ idInvalid
  · rw [if_pos hrid, if_neg hempty] at h
    rw [if_pos hrid]
    cases hread : dm.resourceReadAttrs oid query.iid query.rid query.ssid with
    | error e =>
        rw [hread] at h
        cases h
    | ok attrs =>
        rw [hread] at h
        rw [← Except.ok.inj h, AttrSet.ofR_combine, ofR_internalRAttrsEmpty, AttrSet.empty_orElse]
        rfl
  · rw [if_neg hrid] at h
    rw [if_neg hrid, ← Except.ok.inj h, ofR_internalRAttrsEmpty]

theorem atInstance_ok {out out' : InternalRAttrs} (h : dm.atInstance oid query out = .ok out') :
    AttrSet.ofR out' = (AttrSet.ofR out).orElse (dm.instanceLevel query oid) := by
  unfold instanceLevel
  unfold atInstance at h
  split at h
  next hiid =>
    rw [if_pos hiid]
    exact onOi_ok h
  next hiid => rw [if_neg hiid, AttrSet.orElse_empty, ← Except.ok.inj h]

/-- **Whatever the handlers do, if the levels of the path can be read then what was found is, for each attribute, what
    the first level that sets it says.** -/
theorem pathAttrs_ok {out : InternalRAttrs} (hobj : query.obj = some oid)
    (h : dm.pathAttrs query internalRAttrsEmpty = .ok out) :
    AttrSet.ofR out = AttrSet.firstDefined
      [dm.resourceLevel query oid, dm.instanceLevel query oid, dm.objectLevel query oid] := by
  unfold pathAttrs at h
  rw [hobj] at h
  dsimp only at h
  cases h1 : dm.atResource oid query internalRAttrsEmpty with
  | error e =>
      rw [h1] at h
      cases h
  | ok out1 =>
      rw [h1] at h
      change dm.atInstance oid query out1 >>= onOi (dm.dmReadCombinedObjectAttrs oid query.ssid) = .ok out at h
      cases h2 : dm.atInstance oid query out1 with
      | error e =>
          rw [h2] at h
          cases h
      | ok out2 =>
          rw [h2] at h
          change onOi (dmReadCombinedOiAttrs (dm.objectReadDefaultAttrs oid query.ssid)) out2 = .ok out at h
          rw [onOi_ok h, atInstance_ok h2, atResource_ok h1, AttrSet.firstDefined_cons, AttrSet.firstDefined_cons,
            AttrSet.firstDefined_cons, AttrSet.firstDefined_nil, AttrSet.orElse_empty, AttrSet.orElse_assoc]
          rfl

/-! ## 5. The level of the Server Object -/

/-- A Default Period, as it was read: absent, unreadable or out of range it is not set. -/
def defaultPeriod : Except Failure Int → Option (BitVec 32)
  | .error _ => none
  | .ok value => if value < 0 ∨ int32Max < value then none else some (BitVec.ofInt 32 value)

def serverLevel (dm : AttrsModel σ) (ssid : Id) : AttrSet :=
  match findServerIid dm.toDataModel ssid with
  | none => .empty
  | some serverIid =>
      { AttrSet.empty with
        pmin := defaultPeriod (dm.readI64 oidServer serverIid ridServerDefaultPmin)
        pmax := defaultPeriod (dm.readI64 oidServer serverIid ridServerDefaultPmax) }

def builtInLevel : AttrSet := { AttrSet.empty with pmin := some defaultPminValue }

/-- All levels of a query. -/
def levels (dm : AttrsModel σ) (query : AttrsQuery) : List AttrSet :=
  dm.pathLevels query ++ if query.withServerLevelAttrs then [dm.serverLevel query.ssid, builtInLevel] else []

/-- A Default Period that the code counts as set or as not set: one that is absent (4.04), one that cannot be read
    (4.05), or one in the range of a period. -/
def Counted : Except Failure Int → Prop
  | .error e => e.val = errMethodNotAllowed ∨ e.val = errNotFound
  | .ok value => 0 ≤ value ∧ value ≤ int32Max

/-- So is each Default Period of the server that no level before it sets. -/
def PeriodsCounted (dm : AttrsModel σ) (ssid : Id) (a : AttrSet) : Prop :=
  ∀ serverIid, findServerIid dm.toDataModel ssid = some serverIid →
    (a.pmin = none → Counted (dm.readI64 oidServer serverIid ridServerDefaultPmin)) ∧
      (a.pmax = none → Counted (dm.readI64 oidServer serverIid ridServerDefaultPmax))

theorem definedPeriod_ofInt {value : Int} (h : 0 ≤ value ∧ value ≤ int32Max) :
    definedPeriod (BitVec.ofInt 32 value) = some (BitVec.ofInt 32 value) := by
  have hnonneg : ¬(BitVec.ofInt 32 value).toInt < 0 := by
    unfold int32Max at h
    rw [BitVec.toInt_ofInt, Int.bmod_eq_of_le] <;> omega
  exact if_neg hnonneg

theorem readCombinedPeriod_set {left : Int} {serverIid rid : Id} {out : BitVec 32} (h : definedPeriod out ≠ none) :
    dm.readCombinedPeriod left serverIid rid out = .ok out :=
  if_neg (not_lt.mpr (definedPeriod_ne_none.mp h))

theorem readCombinedPeriod_unset {left : Int} {serverIid rid : Id} {out : BitVec 32} (h : definedPeriod out = none) :
    dm.readCombinedPeriod left serverIid rid out = dm.readPeriod left serverIid rid :=
  if_pos (not_le.mp fun hle => definedPeriod_ne_none.mpr hle h)

theorem readPeriod_counted {serverIid rid : Id} (h : Counted (dm.readI64 oidServer serverIid rid)) (left : Int) :
    ∃ p, dm.readPeriod left serverIid rid = .ok p ∧
      definedPeriod p = defaultPeriod (dm.readI64 oidServer serverIid rid) := by
  unfold readPeriod
  cases hread : dm.readI64 oidServer serverIid rid with
  | error e =>
      rw [hread] at h
      exact ⟨periodNone, if_pos h, rfl⟩
  | ok value =>
      rw [hread] at h
      have hrange : ¬(value < 0 ∨ int32Max < value) := not_or.mpr ⟨not_lt.mpr h.1, not_lt.mpr h.2⟩
      exact ⟨_, if_neg hrange, (definedPeriod_ofInt h).trans (if_neg hrange).symm⟩

/-- Otherwise the read fails, at the latest with a variable that happens to hold -1. -/
theorem readPeriod_not_counted {serverIid rid : Id} (h : ¬Counted (dm.readI64 oidServer serverIid rid)) :
    ∃ e, dm.readPeriod (-1) serverIid rid = .error e := by
  unfold readPeriod
  cases hread : dm.readI64 oidServer serverIid rid with
  | error e =>
      rw [hread] at h
      have hother : ¬(e.val = errMethodNotAllowed ∨ e.val = errNotFound) := h
      dsimp only
      rw [if_neg hother]
      by_cases hneg : e.val < 0
      · exact ⟨e, if_pos hneg⟩
      · rw [if_neg hneg]
        exact ⟨attribPeriodNone, if_pos (Or.inl (by decide))⟩
  | ok value =>
      rw [hread] at h
      refine ⟨attribPeriodNone, if_pos ?_⟩
      by_cases hneg : value < 0
      · exact Or.inl hneg
      · exact Or.inr (not_le.mp fun hle => h ⟨not_lt.mp hneg, hle⟩)

/-- **A period of the Server level**: set before, or as its Default Period says. -/
theorem readCombinedPeriod_iff (dm : AttrsModel σ) (serverIid rid : Id) (out : BitVec 32) :
    (definedPeriod out = none → Counted (dm.readI64 oidServer serverIid rid)) ∧
        (∀ left, ∃ p, dm.readCombinedPeriod left serverIid rid out = .ok p ∧
          definedPeriod p = (definedPeriod out).or (defaultPeriod (dm.readI64 oidServer serverIid rid))) ∨
      ¬(definedPeriod out = none → Counted (dm.readI64 oidServer serverIid rid)) ∧
        ∃ e, dm.readCombinedPeriod (-1) serverIid rid out = .error e := by
  by_cases hset : definedPeriod out = none
  · by_cases hcounted : Counted (dm.readI64 oidServer serverIid rid)
    · refine Or.inl ⟨fun _ => hcounted, fun left => ?_⟩
      obtain ⟨p, hp, hdef⟩ := readPeriod_counted hcounted left
      rw [readCombinedPeriod_unset hset, hset, Option.none_or]
      exact ⟨p, hp, hdef⟩
    · obtain ⟨e, he⟩ := readPeriod_not_counted hcounted
      exact Or.inr ⟨fun h => hcounted (h hset), e, (readCombinedPeriod_unset hset).trans he⟩
  · exact Or.inl ⟨fun h => absurd h hset, fun left =>
      ⟨out, readCombinedPeriod_set hset, (AttrSet.or_of_ne_none hset _).symm⟩⟩

theorem ofR_withDefaultPmin (out : InternalRAttrs) (oi : InternalOiAttrs) :
    AttrSet.ofR (setOi out (withDefaultPmin oi)) = { AttrSet.ofR (setOi out oi) with
      pmin := (definedPeriod oi.standard.minPeriod).or (some defaultPminValue) } := by
  have hdefault : definedPeriod defaultPminValue = some defaultPminValue := by decide
  unfold withDefaultPmin
  by_cases hneg : oi.standard.minPeriod.toInt < 0
  · have hunset : definedPeriod oi.standard.minPeriod = none := if_pos hneg
    rw [if_pos hneg, hunset, Option.none_or, ← hdefault]
    rfl
  · have hset : definedPeriod oi.standard.minPeriod ≠ none := definedPeriod_ne_none.mpr (not_lt.mp hneg)
    rw [if_neg hneg, AttrSet.or_of_ne_none hset]
    rfl

theorem orElse_periods (a : AttrSet) (x y : Option (BitVec 32)) :
    a.orElse { AttrSet.empty with pmin := x, pmax := y } = { a with pmin := a.pmin.or x, pmax := a.pmax.or y } := by
  apply AttrSet.ext
  case pmin | pmax => rfl
  all_goals exact Option.or_none

theorem builtInLevel_eq : builtInLevel = { AttrSet.empty with pmin := some defaultPminValue, pmax := none } := rfl

/-- The Server level only has periods. -/
theorem serverLevel_periods (dm : AttrsModel σ) (ssid : Id) : ∃ x y,
    (dm.serverLevel ssid).orElse builtInLevel = { AttrSet.empty with pmin := x, pmax := y } := by
  rw [builtInLevel_eq, orElse_periods]
  unfold serverLevel
  cases findServerIid dm.toDataModel ssid with
  | none => exact ⟨_, _, rfl⟩
  | some serverIid => exact ⟨_, _, rfl⟩

theorem readCombinedPeriods_ok {left : Int} {serverIid : Id} {oi : InternalOiAttrs} {p q : BitVec 32}
    (hp : dm.readCombinedPeriod left serverIid ridServerDefaultPmin oi.standard.minPeriod = .ok p)
    (hq : dm.readCombinedPeriod left serverIid ridServerDefaultPmax oi.standard.maxPeriod = .ok q) :
    dm.readCombinedPeriods left serverIid oi =
      .ok { oi with standard := { oi.standard with minPeriod := p, maxPeriod := q } } := by
  unfold readCombinedPeriods
  rw [hp]
  dsimp only
  rw [hq]

theorem readCombinedPeriods_error {left : Int} {serverIid : Id} {oi : InternalOiAttrs} {e : Failure}
    (h : dm.readCombinedPeriod left serverIid ridServerDefaultPmin oi.standard.minPeriod = .error e ∨
      dm.readCombinedPeriod left serverIid ridServerDefaultPmax oi.standard.maxPeriod = .error e) :
    ∃ e', dm.readCombinedPeriods left serverIid oi = .error e' := by
  unfold readCombinedPeriods
  cases hp : dm.readCombinedPeriod left serverIid ridServerDefaultPmin oi.standard.minPeriod with
  | error e => exact ⟨e, rfl⟩
  | ok p =>
      rw [hp] at h
      rw [h.resolve_left fun heq => by cases heq]
      exact ⟨e, rfl⟩

theorem onOi_server_found {ssid serverIid : Id} {out : InternalRAttrs}
    (hunset : ¬(0 ≤ out.oi.standard.minPeriod.toInt ∧ 0 ≤ out.oi.standard.maxPeriod.toInt))
    (hfind : findServerIid dm.toDataModel ssid = some serverIid) (left : Int) :
    onOi (dm.dmReadCombinedServerAttrs left ssid) out =
      match dm.readCombinedPeriods left serverIid out.oi with
      | .error e => .error e
      | .ok oi => .ok (setOi out (withDefaultPmin oi)) := by
  unfold onOi dmReadCombinedServerAttrs
  rw [if_neg hunset, hfind]
  dsimp only
  cases dm.readCombinedPeriods left serverIid out.oi with
  | error e => rfl
  | ok oi => rfl

/-- **The level of the Server Object** is read as it should be iff the Default Periods that are asked for are
    counted. -/
theorem onOi_server_iff (dm : AttrsModel σ) (ssid : Id) (out : InternalRAttrs) :
    (∀ left, ∃ out', onOi (dm.dmReadCombinedServerAttrs left ssid) out = .ok out' ∧
        AttrSet.ofR out' = (AttrSet.ofR out).orElse ((dm.serverLevel ssid).orElse builtInLevel)) ↔
      dm.PeriodsCounted ssid (AttrSet.ofR out) := by
  unfold PeriodsCounted
  by_cases hboth : 0 ≤ out.oi.standard.minPeriod.toInt ∧ 0 ≤ out.oi.standard.maxPeriod.toInt
  · -- the early exit: both periods are set, and the Server level sets nothing else
    have hmin : (AttrSet.ofR out).pmin ≠ none := definedPeriod_ne_none.mpr hboth.1
    have hmax : (AttrSet.ofR out).pmax ≠ none := definedPeriod_ne_none.mpr hboth.2
    refine ⟨fun _ _ _ => ⟨fun h => absurd h hmin, fun h => absurd h hmax⟩, fun _ left => ?_⟩
    obtain ⟨x, y, hlevel⟩ := serverLevel_periods dm ssid
    unfold onOi dmReadCombinedServerAttrs
    rw [if_pos hboth, hlevel, orElse_periods, AttrSet.or_of_ne_none hmin, AttrSet.or_of_ne_none hmax]
    exact ⟨out, rfl, rfl⟩
  · cases hfind : findServerIid dm.toDataModel ssid with
    | none =>
        refine ⟨fun _ _ h => (nomatch h), fun _ left => ?_⟩
        unfold onOi dmReadCombinedServerAttrs serverLevel
        rw [if_neg hboth, hfind, AttrSet.empty_orElse, builtInLevel_eq, orElse_periods, Option.or_none]
        exact ⟨_, rfl, ofR_withDefaultPmin out out.oi⟩
    | some serverIid =>
        have hone : ∀ P : Id → Prop, (∀ iid, some serverIid = some iid → P iid) ↔ P serverIid := fun P =>
          ⟨fun h => h serverIid rfl, fun h iid heq => Option.some.inj heq ▸ h⟩
        refine Iff.trans ?_ (hone _).symm
        -- where one of the two fails for some content of the variable, so does the whole level
        have hfails : ∀ e, (dm.readCombinedPeriod (-1) serverIid ridServerDefaultPmin
              out.oi.standard.minPeriod = .error e ∨
            dm.readCombinedPeriod (-1) serverIid ridServerDefaultPmax out.oi.standard.maxPeriod = .error e) →
            ∀ out', onOi (dm.dmReadCombinedServerAttrs (-1) ssid) out ≠ .ok out' := by
          intro e he out' hout
          obtain ⟨e', he'⟩ := readCombinedPeriods_error he
          rw [onOi_server_found hboth hfind, he'] at hout
          cases hout
        rcases readCombinedPeriod_iff dm serverIid ridServerDefaultPmin out.oi.standard.minPeriod with
          ⟨hc1, hread1⟩ | ⟨hc1, e, he⟩
        · rcases readCombinedPeriod_iff dm serverIid ridServerDefaultPmax out.oi.standard.maxPeriod with
            ⟨hc2, hread2⟩ | ⟨hc2, e, he⟩
          · refine ⟨fun _ => ⟨hc1, hc2⟩, fun _ left => ?_⟩
            obtain ⟨p, hp, hdefp⟩ := hread1 left
            obtain ⟨q, hq, hdefq⟩ := hread2 left
            rw [onOi_server_found hboth hfind, readCombinedPeriods_ok hp hq]
            refine ⟨_, rfl, ?_⟩
            unfold serverLevel
            rw [hfind, ofR_withDefaultPmin, builtInLevel_eq, orElse_periods, orElse_periods, Option.or_none,
              ← Option.or_assoc]
            exact AttrSet.ext (congrArg (Option.or · _) hdefp) hdefq rfl rfl rfl rfl rfl rfl
          · refine ⟨fun h => ?_, fun h => absurd h.2 hc2⟩
            obtain ⟨out', hout, -⟩ := h (-1)
            exact absurd hout (hfails e (Or.inr he) out')
        · refine ⟨fun h => ?_, fun h => absurd h.1 hc1⟩
          obtain ⟨out', hout, -⟩ := h (-1)
          exact absurd hout (hfails e (Or.inl he) out')

/-- **The effective attributes of a query are, each on its own, those of the first level that sets them, whatever
    the variable of `read_period` held, iff the Default Periods that are asked for are absent, not readable or in
    the range of a period.** -/
theorem effectiveAttrs_iff (dm : AttrsModel σ) (query : AttrsQuery)
    (hanswers : ∀ oid, query.obj = some oid → dm.Answers query oid) :
    (∀ left, ∃ out, dm.effectiveAttrs left query = .ok out ∧
        AttrSet.ofR out = AttrSet.firstDefined (dm.levels query)) ↔
      (query.withServerLevelAttrs = true →
        dm.PeriodsCounted query.ssid (AttrSet.firstDefined (dm.pathLevels query))) := by
  obtain ⟨out, hpath, hset⟩ := pathAttrs_defines hanswers
  have hcall : ∀ left, dm.effectiveAttrs left query =
      if query.withServerLevelAttrs then onOi (dm.dmReadCombinedServerAttrs left query.ssid) out else .ok out := by
    intro left
    unfold effectiveAttrs
    rw [hpath]
    rfl
  unfold levels
  cases hserver : query.withServerLevelAttrs with
  | false =>
      refine ⟨fun _ h => (nomatch h), fun _ left => ⟨out, ?_, ?_⟩⟩
      · rw [hcall, hserver]
        rfl
      · rw [if_neg Bool.false_ne_true, List.append_nil]
        exact hset
  | true =>
      have hlevel := onOi_server_iff dm query.ssid out
      rw [hset] at hlevel
      refine Iff.trans ?_ (hlevel.trans ⟨fun h _ => h, fun h => h rfl⟩)
      rw [if_pos rfl, AttrSet.firstDefined_append, AttrSet.firstDefined_cons, AttrSet.firstDefined_cons,
        AttrSet.firstDefined_nil, AttrSet.orElse_empty]
      exact forall_congr' fun left => by rw [hcall, hserver, if_pos rfl]

end AttrsModel

/-! ## 6. A server with one Default Period -/

/-- The result of a read of what is not there. -/
theorem errNotFound_ne_zero : errNotFound ≠ 0 := by decide

/-- Server 1, with this Default Minimum Period, is the only Instance of the only Object. -/
def readServer (pmin : Int) (oid iid rid : Id) : Except Failure Int :=
  if oid = oidServer ∧ iid = 0 ∧ rid = ridServerSsid then .ok 1
  else if oid = oidServer ∧ iid = 0 ∧ rid = ridServerDefaultPmin then .ok pmin
  else .error ⟨errNotFound, errNotFound_ne_zero⟩

def serverModel (pmin : Int) : AttrsModel Unit where
  toDataModel := { DataModel.single oidServer [0] with
    readResourceI64 := fun oid iid rid => (readServer pmin oid iid rid).toOption }
  readI64 := readServer pmin
  toOption_readI64 _ _ _ := rfl
  resourceReadAttrs _ _ _ _ := .ok internalRAttrsEmpty
  instanceReadDefaultAttrs _ _ _ := .ok internalRAttrsEmpty.oi
  objectReadDefaultAttrs _ _ := .ok internalRAttrsEmpty.oi

theorem normalized_serverObject : ∀ oid, some oidServer = some oid →
    (UriPath.resourceInstance oid idInvalid idInvalid idInvalid).normalized = true :=
  fun _ h => Option.some.inj h ▸ by decide

/-- The attributes of the Server Object for server 1. -/
def serverObjectQuery : AttrsQuery :=
  ⟨some oidServer, idInvalid, idInvalid, idInvalid, 1, true, normalized_serverObject⟩

theorem answers_serverModel (pmin : Int) (oid : Id) : (serverModel pmin).Answers serverObjectQuery oid where
  resource _ := ⟨_, rfl⟩
  inst _ := Or.inr ⟨_, rfl⟩
  object := Or.inr ⟨_, rfl⟩

/-- The same server; its Lifetime has attributes, and so have its Instance and the Object. -/
def layeredModel : AttrsModel Unit :=
  { serverModel 10 with
    resourceReadAttrs := fun _ _ _ _ => .ok ⟨⟨⟨periodNone, 60, periodNone, periodNone⟩, .nan, .nan, .nan⟩, .default⟩
    instanceReadDefaultAttrs := fun _ _ _ => .ok ⟨⟨periodNone, 300, 5, periodNone⟩, .default⟩
    objectReadDefaultAttrs := fun _ _ => .ok ⟨⟨periodNone, periodNone, 7, 90⟩, .con⟩ }

theorem normalized_serverLifetime : ∀ oid, some oidServer = some oid →
    (UriPath.resourceInstance oid 0 1 idInvalid).normalized = true :=
  fun _ h => Option.some.inj h ▸ by decide

/-- The attributes of the Lifetime for server 1. -/
def serverLifetimeQuery : AttrsQuery := ⟨some oidServer, 0, 1, idInvalid, 1, true, normalized_serverLifetime⟩

theorem answers_layeredModel (oid : Id) : layeredModel.Answers serverLifetimeQuery oid where
  resource _ := ⟨_, rfl⟩
  inst _ := Or.inr ⟨_, rfl⟩
  object := Or.inr ⟨_, rfl⟩

/-- One attribute is set by the Resource, and again by the Instance; one by the Instance, and again by the Object; two
    by the Object; and one by the Server Object. -/
theorem effectiveAttrs_layered : ∃ out, layeredModel.effectiveAttrs 0 serverLifetimeQuery = .ok out ∧
    AttrSet.ofR out =
      { AttrSet.empty with pmin := some 10, pmax := some 60, epmin := some 5, epmax := some 90, con := some .con } := by
  have hcounted : layeredModel.PeriodsCounted 1 (AttrSet.firstDefined (layeredModel.pathLevels serverLifetimeQuery)) := by
    intro iid h
    have hfound : findServerIid layeredModel.toDataModel 1 = some 0 := by decide +kernel
    obtain rfl : 0 = iid := Option.some.inj (hfound.symm.trans h)
    have hpmin : (0 : Int) ≤ 10 ∧ (10 : Int) ≤ int32Max := by decide
    exact ⟨fun _ => hpmin, fun _ => Or.inr rfl⟩
  obtain ⟨out, hout, hset⟩ := (layeredModel.effectiveAttrs_iff serverLifetimeQuery
    fun oid _ => answers_layeredModel oid).mpr (fun _ => hcounted) 0
  exact ⟨out, hout, hset.trans (by decide +kernel)⟩

/-- A Default Minimum Period beyond the range makes the query fail. -/
theorem effectiveAttrs_out_of_range : ¬∀ (dm : AttrsModel Unit) (query : AttrsQuery),
    (∀ oid, query.obj = some oid → dm.Answers query oid) →
      ∀ left, ∃ out, dm.effectiveAttrs left query = .ok out ∧
        AttrSet.ofR out = AttrSet.firstDefined (dm.levels query) := by
  intro h
  obtain ⟨out, hout, -⟩ := h (serverModel 2147483648) serverObjectQuery
    (fun oid _ => answers_serverModel 2147483648 oid) 0
  have hfails : ((serverModel 2147483648).effectiveAttrs 0 serverObjectQuery).toOption = none := by decide +kernel
  rw [hout] at hfails
  cases hfails

end Anjay.Dm
