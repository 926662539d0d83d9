/-
  File:      Anjay/Dm/WriteAttrs.lean
  Subject:   The Write-Attributes operation (`anjay_dm_write_attrs.c`), on the Attribute Storage.

  * `override`: what the request makes of the attributes that are set; `Valid`: what should hold of them.
  * `AttrsWriter.writeAttributes_outcome`: what an accepted request stores, and when nothing changes.
  * `writeAttributes_not_validated`: a request that names no attribute is accepted whatever is stored.
-/
import Anjay.AccessControl.Access
import Anjay.AttrStorage.Handlers
import Anjay.Commons.DoubleArith
import Anjay.Request.Query

namespace Anjay.Dm

open AttrStorage Request Ac

variable {σ : Type}

/-! ## 1. The attributes -/

/-- `update_oi_attrs`. -/
def updateOiAttrs (attrs : InternalOiAttrs) (request : RequestAttributes) : InternalOiAttrs where
  standard :=
    { minPeriod := if request.hasMinPeriod then request.common.minPeriod else attrs.standard.minPeriod
      maxPeriod := if request.hasMaxPeriod then request.common.maxPeriod else attrs.standard.maxPeriod
      minEvalPeriod := if request.hasMinEvalPeriod then request.common.minEvalPeriod else attrs.standard.minEvalPeriod
      maxEvalPeriod := if request.hasMaxEvalPeriod then request.common.maxEvalPeriod else attrs.standard.maxEvalPeriod }
  con := if request.hasCon then request.values.con else attrs.con

/-- `update_r_attrs`. -/
def updateRAttrs (attrs : InternalRAttrs) (request : RequestAttributes) : InternalRAttrs where
  standard :=
    { common := (updateOiAttrs attrs.oi request).standard
      greaterThan := if request.hasGreaterThan then request.values.standard.greaterThan else attrs.standard.greaterThan
      lessThan := if request.hasLessThan then request.values.standard.lessThan else attrs.standard.lessThan
      step := if request.hasStep then request.values.standard.step else attrs.standard.step }
  con := (updateOiAttrs attrs.oi request).con

/-- `oi_attrs_valid`. -/
def oiAttrsValid (attrs : InternalOiAttrs) : Bool :=
  !(decide (0 ≤ attrs.standard.minEvalPeriod.toInt) && decide (0 ≤ attrs.standard.maxEvalPeriod.toInt) &&
    decide (attrs.standard.maxEvalPeriod.toInt ≤ attrs.standard.minEvalPeriod.toInt))

/-- The variable `step` of `r_attrs_valid`. -/
def stepOrZero (x : Double) : Double := if x.isNaN then .zero else x

/-- `r_attrs_valid`. -/
def rAttrsValid (attrs : InternalRAttrs) : Bool :=
  if !oiAttrsValid attrs.oi then false
  else if !attrs.standard.step.isNaN && attrs.standard.step.lt .zero then false
  else
    !(!attrs.standard.lessThan.isNaN && !attrs.standard.greaterThan.isNaN &&
      (attrs.standard.lessThan.add (stepOrZero attrs.standard.step).twice).ge attrs.standard.greaterThan)

/-- `resource_specific_request_attrs_empty`. -/
def resourceSpecificRequestAttrsEmpty (attrs : RequestAttributes) : Bool :=
  !attrs.hasGreaterThan && !attrs.hasLessThan && !attrs.hasStep

/-- `request_attrs_empty`. -/
def requestAttrsEmpty (attrs : RequestAttributes) : Bool :=
  !attrs.hasMinPeriod && !attrs.hasMaxPeriod && !attrs.hasMinEvalPeriod && !attrs.hasMaxEvalPeriod && !attrs.hasCon &&
    resourceSpecificRequestAttrsEmpty attrs

/-! ## 2. The operation -/

/-- The client as a Write-Attributes request on an Object finds it: the data model, the Object, the servers of the
    client, the one that asks, which allocations of the write succeed, and what the Observe module returns. -/
structure AttrsWriter (σ : Type) extends AccessModel σ where
  obj : ObjectDef σ
  servers : List Id
  ssid : Id
  alloc : Alloc
  observeNotify : UriPath → Storage → Int

namespace AttrsWriter

variable (c : AttrsWriter σ)

/-- `dm_write_resource_attrs`. -/
def dmWriteResourceAttrs (iid rid : Id) (attributes : RequestAttributes) (as : Storage) : Int × Storage :=
  match c.obj.verifyResourcePresent c.state iid rid with
  | .error result => (result, as)
  | .ok _ =>
      let attrs := updateRAttrs (resourceReadAttrs as c.obj.oid iid rid c.ssid) attributes
      if !rAttrsValid attrs then (errBadRequest, as)
      else resourceWriteAttrs c.alloc c.ssid c.obj.oid iid rid attrs as

/-- `dm_write_instance_attrs`. -/
def dmWriteInstanceAttrs (iid : Id) (attributes : RequestAttributes) (as : Storage) : Int × Storage :=
  let attrs := updateOiAttrs (instanceReadDefaultAttrs as c.obj.oid iid c.ssid) attributes
  if !oiAttrsValid attrs then (errBadRequest, as)
  else instanceWriteDefaultAttrs c.alloc c.ssid c.obj.oid iid attrs as

/-- `dm_write_object_attrs`. -/
def dmWriteObjectAttrs (attributes : RequestAttributes) (as : Storage) : Int × Storage :=
  let attrs := updateOiAttrs (objectReadDefaultAttrs as c.obj.oid c.ssid) attributes
  if !oiAttrsValid attrs then (errBadRequest, as) else objectWriteDefaultAttrs c.alloc c.ssid c.obj.oid attrs as

/-- The call of `_anjay_instance_action_allowed`. -/
def actionAllowed (uri : UriPath) : Bool :=
  c.instanceActionAllowed c.servers ⟨uri.ids .oid, uri.ids .iid, c.ssid, .writeAttributes⟩

/-- What `_anjay_dm_write_attributes` does with a path at or below an Instance. -/
def writeBelowObject (uri : UriPath) (attributes : RequestAttributes) (as : Storage) : Int × Storage :=
  let result := c.obj.verifyInstancePresent c.state (uri.ids .iid)
  if result ≠ 0 then (result, as)
  else if !c.actionAllowed uri then (errUnauthorized, as)
  else if uri.has .riid then (errBadRequest, as)
  else if uri.has .rid then c.dmWriteResourceAttrs (uri.ids .iid) (uri.ids .rid) attributes as
  else c.dmWriteInstanceAttrs (uri.ids .iid) attributes as

/-- The end of `_anjay_dm_write_attributes`. -/
def notified (uri : UriPath) (r : Int × Storage) : Int × Storage :=
  if r.1 = 0 then (c.observeNotify uri r.2, r.2) else r

/-- `_anjay_dm_write_attributes`. -/
def writeAttributes (uri : UriPath) (attributes : RequestAttributes) (as : Storage) : Int × Storage :=
  if requestAttrsEmpty attributes then (0, as)
  else if !uri.has .rid && !resourceSpecificRequestAttrsEmpty attributes then (errBadRequest, as)
  else
    c.notified uri
      (if uri.has .iid then c.writeBelowObject uri attributes as else c.dmWriteObjectAttrs attributes as)

end AttrsWriter

/-! ## 3. What it should do -/

/-- **What a request makes of the attributes that are set**: those that it names get its values, or are cleared. -/
def override (request : RequestAttributes) (old : AttrSet) : AttrSet where
  pmin := if request.has .pmin then definedPeriod request.common.minPeriod else old.pmin
  pmax := if request.has .pmax then definedPeriod request.common.maxPeriod else old.pmax
  epmin := if request.has .epmin then definedPeriod request.common.minEvalPeriod else old.epmin
  epmax := if request.has .epmax then definedPeriod request.common.maxEvalPeriod else old.epmax
  con := if request.has .con then definedCon request.values.con else old.con
  gt := if request.has .gt then definedValue request.values.standard.greaterThan else old.gt
  lt := if request.has .lt then definedValue request.values.standard.lessThan else old.lt
  st := if request.has .st then definedValue request.values.standard.step else old.st

namespace AttrSet

/-- The step, over exact numbers, and 0 where there is none. -/
noncomputable def exactStep (a : AttrSet) : EReal := a.st.elim 0 Double.exact

/-- **What should hold of the attributes that are set**, over exact numbers. -/
structure Valid (a : AttrSet) : Prop where
  periods : ∀ epmin epmax, a.epmin = some epmin → a.epmax = some epmax → epmin.toInt < epmax.toInt
  step_nonneg : 0 ≤ a.exactStep
  sum_lt : ∀ lt gt, a.lt = some lt → a.gt = some gt → lt.exact + 2 * a.exactStep < gt.exact

/-- Both bounds are minus infinity, and twice the step is beyond the range of a `double`. -/
def Overflows (a : AttrSet) : Prop :=
  ∃ lt gt st, a.lt = some lt ∧ a.gt = some gt ∧ a.st = some st ∧ lt.exact = ⊥ ∧ gt.exact = ⊥ ∧ st.twice.isInf = true

/-- What holds of the attributes that the code accepts: all of it, but for the sum in that one case. -/
structure Accepted (a : AttrSet) : Prop where
  periods : ∀ epmin epmax, a.epmin = some epmin → a.epmax = some epmax → epmin.toInt < epmax.toInt
  step_nonneg : 0 ≤ a.exactStep
  sum_lt : (∀ lt gt, a.lt = some lt → a.gt = some gt → lt.exact + 2 * a.exactStep < gt.exact) ∨ a.Overflows

theorem Valid.accepted {a : AttrSet} (h : a.Valid) : a.Accepted := ⟨h.periods, h.step_nonneg, Or.inl h.sum_lt⟩

end AttrSet

/-- The place that a path names. -/
def AttrsWriter.place (c : AttrsWriter σ) (uri : UriPath) : Place :=
  if uri.has .rid then .resource c.obj.oid (uri.ids .iid) (uri.ids .rid)
  else if uri.has .iid then .inst c.obj.oid (uri.ids .iid)
  else .object c.obj.oid

/-- The path and the permissions are such that attributes can be written. -/
structure AttrsWriter.PathAllowed (c : AttrsWriter σ) (uri : UriPath) (attributes : RequestAttributes) : Prop where
  inst : uri.has .iid = true → c.obj.verifyInstancePresent c.state (uri.ids .iid) = 0
  allowed : uri.has .iid = true → c.actionAllowed uri = true
  resource : uri.has .rid = true → ∃ kind, c.obj.verifyResourcePresent c.state (uri.ids .iid) (uri.ids .rid) = .ok kind
  noResourceInstance : uri.has .riid = false
  specific : uri.has .rid = false → ∀ a, attributes.has a = true → a.isDouble = false

/-- **What a Write-Attributes request should do**, with the result and the storage afterwards. -/
structure AttrsWriter.Outcome (c : AttrsWriter σ) (uri : UriPath) (attributes : RequestAttributes) (as : Storage)
    (r : Int × Storage) : Prop where
  accepted : r.1 = 0 → ∀ p s, setAt r.2 p s =
    if p = c.place uri ∧ s = c.ssid then override attributes (setAt as p s) else setAt as p s
  valid : r.1 = 0 → (∃ a, attributes.has a = true) → (setAt r.2 (c.place uri) c.ssid).Accepted
  invalid : ¬(override attributes (setAt as (c.place uri) c.ssid)).Accepted → r.2 = as
  refused : ¬c.PathAllowed uri attributes → r.2 = as ∧ ((∃ a, attributes.has a = true) → r.1 ≠ 0)

/-! ## 4. Merging and validation -/

theorem definedPeriod_ite (q : Bool) (x y : BitVec 32) :
    definedPeriod (if q then x else y) = if q then definedPeriod x else definedPeriod y := by cases q <;> rfl

theorem definedCon_ite (q : Bool) (x y : ConAttr) :
    definedCon (if q then x else y) = if q then definedCon x else definedCon y := by cases q <;> rfl

theorem definedValue_ite (q : Bool) (x y : Double) :
    definedValue (if q then x else y) = if q then definedValue x else definedValue y := by cases q <;> rfl

/-- **Merging the periods is overriding**, for a request that names nothing else. -/
theorem ofOi_update {request : RequestAttributes} (h : resourceSpecificRequestAttrsEmpty request = true)
    (attrs : InternalOiAttrs) : AttrSet.ofOi (updateOiAttrs attrs request) = override request (.ofOi attrs) := by
  unfold resourceSpecificRequestAttrsEmpty at h
  simp only [Bool.and_eq_true, Bool.not_eq_true'] at h
  obtain ⟨⟨hgt, hlt⟩, hst⟩ := h
  apply AttrSet.ext
  case con => exact definedCon_ite _ _ _
  case gt => exact (if_neg (Bool.eq_false_iff.mp hgt)).symm
  case lt => exact (if_neg (Bool.eq_false_iff.mp hlt)).symm
  case st => exact (if_neg (Bool.eq_false_iff.mp hst)).symm
  all_goals exact definedPeriod_ite _ _ _

/-- **Merging is overriding.** -/
theorem ofR_update (request : RequestAttributes) (attrs : InternalRAttrs) :
    AttrSet.ofR (updateRAttrs attrs request) = override request (.ofR attrs) := by
  apply AttrSet.ext
  case con => exact definedCon_ite _ _ _
  case gt | lt | st => exact definedValue_ite _ _ _
  all_goals exact definedPeriod_ite _ _ _

theorem definedPeriod_eq_some {x y : BitVec 32} : definedPeriod x = some y ↔ 0 ≤ x.toInt ∧ x = y := by
  unfold definedPeriod
  split
  next hneg => exact ⟨nofun, fun h => absurd hneg (not_lt.mpr h.1)⟩
  next hpos => exact ⟨fun h => ⟨not_lt.mp hpos, Option.some.inj h⟩, fun h => congrArg some h.2⟩

theorem definedValue_eq_some {x y : Double} : definedValue x = some y ↔ x.isNaN = false ∧ x = y := by
  unfold definedValue
  cases hx : x.isNaN with
  | true => exact ⟨nofun, nofun⟩
  | false => exact ⟨fun h => ⟨rfl, Option.some.inj h⟩, fun h => congrArg some h.2⟩

theorem oiAttrsValid_periods {attrs : InternalOiAttrs} (h : oiAttrsValid attrs = true) {epmin epmax : BitVec 32}
    (hmin : definedPeriod attrs.standard.minEvalPeriod = some epmin)
    (hmax : definedPeriod attrs.standard.maxEvalPeriod = some epmax) : epmin.toInt < epmax.toInt := by
  obtain ⟨hminpos, rfl⟩ := definedPeriod_eq_some.mp hmin
  obtain ⟨hmaxpos, rfl⟩ := definedPeriod_eq_some.mp hmax
  unfold oiAttrsValid at h
  simp only [decide_eq_true hminpos, decide_eq_true hmaxpos, Bool.and_self, Bool.true_and, Bool.not_eq_true',
    decide_eq_false_iff_not, not_le] at h
  exact h

theorem ofOi_valid {attrs : InternalOiAttrs} (h : oiAttrsValid attrs = true) : (AttrSet.ofOi attrs).Valid where
  periods _ _ := oiAttrsValid_periods h
  step_nonneg := le_refl _
  sum_lt _ _ hlt := (by cases hlt)

/-- The step as the code takes it is that over exact numbers. -/
theorem exactStep_ofR (attrs : InternalRAttrs) :
    (AttrSet.ofR attrs).exactStep = (stepOrZero attrs.standard.step).exact := by
  unfold AttrSet.exactStep stepOrZero
  show (definedValue attrs.standard.step).elim 0 Double.exact = _
  unfold definedValue
  split
  · exact Double.exact_zero.symm
  · rfl

theorem stepOrZero_nonneg {x : Double} (h : ¬(!x.isNaN && x.lt .zero) = true) :
    (stepOrZero x).isNaN = false ∧ 0 ≤ (stepOrZero x).toInt := by
  unfold stepOrZero
  cases hx : x.isNaN with
  | true =>
      rw [if_pos rfl]
      exact ⟨by decide, by decide⟩
  | false =>
      rw [if_neg Bool.false_ne_true]
      refine ⟨hx, not_lt.mp fun hneg => h ?_⟩
      rw [hx, Double.lt, hx]
      exact decide_eq_true hneg

theorem ofR_accepted {attrs : InternalRAttrs} (h : rAttrsValid attrs = true) : (AttrSet.ofR attrs).Accepted := by
  unfold rAttrsValid at h
  split at h
  · cases h
  next hoi =>
  split at h
  · cases h
  next hstep =>
  rw [Bool.not_eq_true', Bool.not_eq_false] at hoi
  obtain ⟨hnan, hpos⟩ := stepOrZero_nonneg hstep
  have hnonneg : 0 ≤ (AttrSet.ofR attrs).exactStep := by
    rw [exactStep_ofR]
    exact Double.exact_nonneg hpos
  refine ⟨fun _ _ => oiAttrsValid_periods hoi, hnonneg, ?_⟩
  by_cases hover : (AttrSet.ofR attrs).Overflows
  · exact Or.inr hover
  refine Or.inl fun lt gt hlt hgt => ?_
  obtain ⟨hltnan, rfl⟩ := definedValue_eq_some.mp hlt
  obtain ⟨hgtnan, rfl⟩ := definedValue_eq_some.mp hgt
  rw [hltnan, hgtnan] at h
  rw [exactStep_ofR]
  refine (Double.exact_lt_of_sum_lt hltnan hnan hpos hgtnan (Bool.not_eq_true' _ |>.mp h)).resolve_right fun hslip => ?_
  obtain ⟨hltbot, hgtbot, hinf⟩ := hslip
  have hset : definedValue attrs.standard.step = some (stepOrZero attrs.standard.step) := by
    unfold stepOrZero at hinf ⊢
    cases hx : attrs.standard.step.isNaN with
    | true =>
        rw [hx, if_pos rfl] at hinf
        exact absurd hinf (by decide)
    | false => exact definedValue_eq_some.mpr ⟨hx, rfl⟩
  exact hover ⟨_, _, _, hlt, hgt, hset, hltbot, hgtbot, hinf⟩

/-! ## 5. The writes -/

/-- What a write to a place does: it replaces what is stored there for the server if it returns 0, and only if what it
    stores is accepted. -/
structure Writes (request : RequestAttributes) (place : Place) (ssid : Id) (as : Storage) (r : Int × Storage) :
    Prop where
  stored : ∀ p s, setAt r.2 p s =
    if r.1 = 0 ∧ p = place ∧ s = ssid then override request (setAt as p s) else setAt as p s
  accepted : r.1 = 0 → (override request (setAt as place ssid)).Accepted
  unchanged : ¬(override request (setAt as place ssid)).Accepted → r.2 = as

theorem Writes.rejected {request : RequestAttributes} {place : Place} {ssid : Id} {as : Storage} {result : Int}
    (h : result ≠ 0) : Writes request place ssid as (result, as) where
  stored _ _ := (if_neg fun hc => h hc.1).symm
  accepted hresult := absurd hresult h
  unchanged _ := rfl

/-- A handler writes what is merged. -/
theorem Writes.ofHandler {request : RequestAttributes} {place : Place} {ssid : Id} {as : Storage} {w : Int × Storage}
    {new : AttrSet} (hnew : new = override request (setAt as place ssid)) (haccepted : new.Accepted)
    (hstored : ∀ p s, setAt w.2 p s = if w.1 = 0 ∧ p = place ∧ s = ssid then new else setAt as p s) :
    Writes request place ssid as (handlerResult w) where
  stored p s := by
    show setAt w.2 p s = _
    rw [hstored p s]
    simp only [handlerResult_eq_zero]
    by_cases hc : w.1 = 0 ∧ p = place ∧ s = ssid
    · rw [if_pos hc, if_pos hc, hnew, hc.2.1, hc.2.2]
    · rw [if_neg hc, if_neg hc]
  accepted _ := hnew ▸ haccepted
  unchanged hnot := absurd (hnew ▸ haccepted) hnot

namespace AttrsWriter

variable {c : AttrsWriter σ} {as : Storage} {attributes : RequestAttributes} {uri : UriPath}

section Places

variable (h : Tidy ResourceEntry.Sane as.objects)
include h

theorem dmWriteObjectAttrs_writes (hspecific : resourceSpecificRequestAttrsEmpty attributes = true) :
    Writes attributes (.object c.obj.oid) c.ssid as (c.dmWriteObjectAttrs attributes as) := by
  unfold dmWriteObjectAttrs
  dsimp only
  split
  · exact .rejected (by decide)
  next hvalid =>
    rw [Bool.not_eq_true', Bool.not_eq_false] at hvalid
    exact .ofHandler (ofOi_update hspecific _) (ofOi_valid hvalid).accepted (setAt_writeObjectAttrs h _ _ _ _)

theorem dmWriteInstanceAttrs_writes (hspecific : resourceSpecificRequestAttrsEmpty attributes = true) (iid : Id) :
    Writes attributes (.inst c.obj.oid iid) c.ssid as (c.dmWriteInstanceAttrs iid attributes as) := by
  unfold dmWriteInstanceAttrs
  dsimp only
  split
  · exact .rejected (by decide)
  next hvalid =>
    rw [Bool.not_eq_true', Bool.not_eq_false] at hvalid
    exact .ofHandler (ofOi_update hspecific _) (ofOi_valid hvalid).accepted (setAt_writeInstanceAttrs h _ _ _ _ _)

theorem dmWriteResourceAttrs_writes (iid rid : Id) :
    Writes attributes (.resource c.obj.oid iid rid) c.ssid as (c.dmWriteResourceAttrs iid rid attributes as) := by
  unfold dmWriteResourceAttrs
  cases hpresent : c.obj.verifyResourcePresent c.state iid rid with
  | error result => exact .rejected (ObjectDef.verifyResourcePresent_error hpresent)
  | ok kind =>
      dsimp only
      split
      · exact .rejected (by decide)
      next hvalid =>
        rw [Bool.not_eq_true', Bool.not_eq_false] at hvalid
        exact .ofHandler (ofR_update _ _) (ofR_accepted hvalid)
          (setAt_writeResourceAttrs h _ _ _ _ _ resourceRule_sane _)

end Places

/-! ## 6. The operation as a whole -/

theorem names_iff {attributes : RequestAttributes} :
    (∃ a, attributes.has a = true) ↔ requestAttrsEmpty attributes = false := by
  rw [← not_iff_not, Bool.not_eq_false, not_exists]
  unfold requestAttrsEmpty resourceSpecificRequestAttrsEmpty
  simp only [Bool.and_eq_true, Bool.not_eq_true', Bool.not_eq_true]
  constructor
  · intro h
    exact ⟨⟨⟨⟨⟨h .pmin, h .pmax⟩, h .epmin⟩, h .epmax⟩, h .con⟩, ⟨h .gt, h .lt⟩, h .st⟩
  · rintro ⟨⟨⟨⟨⟨hmin, hmax⟩, hemin⟩, hemax⟩, hcon⟩, ⟨hgt, hlt⟩, hst⟩ a
    cases a <;> assumption

theorem specific_iff {attributes : RequestAttributes} : resourceSpecificRequestAttrsEmpty attributes = true ↔
    ∀ a, attributes.has a = true → a.isDouble = false := by
  unfold resourceSpecificRequestAttrsEmpty
  simp only [Bool.and_eq_true, Bool.not_eq_true']
  constructor
  · rintro ⟨⟨hgt, hlt⟩, hst⟩ a ha
    cases a with
    | gt => exact absurd ha (Bool.eq_false_iff.mp hgt)
    | lt => exact absurd ha (Bool.eq_false_iff.mp hlt)
    | st => exact absurd ha (Bool.eq_false_iff.mp hst)
    | _ => rfl
  · intro h
    have hnone : ∀ a : Attribute, a.isDouble = true → attributes.has a = false := fun a ha =>
      Bool.eq_false_iff.mpr fun hhas => Bool.noConfusion (ha.symm.trans (h a hhas))
    exact ⟨⟨hnone .gt rfl, hnone .lt rfl⟩, hnone .st rfl⟩

theorem override_of_empty {attributes : RequestAttributes} (h : requestAttrsEmpty attributes = true) (a : AttrSet) :
    override attributes a = a := by
  have hnone : ∀ b, ¬attributes.has b = true := fun b hb => by
    rw [names_iff.mp ⟨b, hb⟩] at h
    cases h
  apply AttrSet.ext <;> exact if_neg (hnone _)

theorem Outcome.rejected {result : Int} (h : result ≠ 0) : c.Outcome uri attributes as (result, as) where
  accepted hresult := absurd hresult h
  valid hresult := absurd hresult h
  invalid _ := rfl
  refused _ := ⟨rfl, fun _ => h⟩

theorem notified_of_ne {result : Int} (h : result ≠ 0) : c.notified uri (result, as) = (result, as) := if_neg h

theorem notified_snd (r : Int × Storage) : (c.notified uri r).2 = r.2 := by
  unfold notified
  split <;> rfl

theorem notified_eq_zero {r : Int × Storage} (h : (c.notified uri r).1 = 0) : r.1 = 0 := by
  unfold notified at h
  split at h
  next hzero => exact hzero
  · exact h

theorem Outcome.ofWrites {r : Int × Storage} (hpath : c.PathAllowed uri attributes)
    (w : Writes attributes (c.place uri) c.ssid as r) : c.Outcome uri attributes as (c.notified uri r) where
  accepted hresult p s := by
    rw [notified_snd, w.stored p s]
    have hzero := notified_eq_zero hresult
    simp only [hzero, true_and]
  valid hresult _ := by
    have hzero := notified_eq_zero hresult
    rw [notified_snd, w.stored, if_pos ⟨hzero, rfl, rfl⟩]
    exact w.accepted hzero
  invalid hnot := by
    rw [notified_snd]
    exact w.unchanged hnot
  refused hnot := absurd hpath hnot

theorem has_of_has {p : UriPath} {t t' : IdType} (hle : t.toNat ≤ t'.toNat) (h : p.has t' = true) : p.has t = true :=
  decide_eq_true (Nat.lt_of_le_of_lt hle (of_decide_eq_true h))

theorem writeBelowObject_outcome (h : Tidy ResourceEntry.Sane as.objects) (hiid : uri.has .iid = true)
    (hspecific : uri.has .rid = false → resourceSpecificRequestAttrsEmpty attributes = true) :
    c.Outcome uri attributes as (c.notified uri (c.writeBelowObject uri attributes as)) := by
  unfold writeBelowObject
  dsimp only
  split
  next hpresent =>
    rw [notified_of_ne hpresent]
    exact .rejected hpresent
  next hpresent =>
  have hpresent := not_not.mp hpresent
  split
  · rw [notified_of_ne (by decide)]
    exact .rejected (by decide)
  next hallowed =>
  rw [Bool.not_eq_true', Bool.not_eq_false] at hallowed
  split
  · rw [notified_of_ne (by decide)]
    exact .rejected (by decide)
  next hriid =>
  rw [Bool.not_eq_true] at hriid
  split
  next hrid =>
    have hplace : c.place uri = .resource c.obj.oid (uri.ids .iid) (uri.ids .rid) := by rw [place, if_pos hrid]
    cases hkind : c.obj.verifyResourcePresent c.state (uri.ids .iid) (uri.ids .rid) with
    | error result =>
        have hresult := ObjectDef.verifyResourcePresent_error hkind
        rw [dmWriteResourceAttrs, hkind]
        dsimp only
        rw [notified_of_ne hresult]
        exact .rejected hresult
    | ok kind =>
        have hpath : c.PathAllowed uri attributes :=
          ⟨fun _ => hpresent, fun _ => hallowed, fun _ => ⟨kind, hkind⟩, hriid,
            fun hno => absurd hrid (Bool.eq_false_iff.mp hno)⟩
        exact .ofWrites hpath (hplace ▸ dmWriteResourceAttrs_writes h _ _)
  next hrid =>
    rw [Bool.not_eq_true] at hrid
    have hplace : c.place uri = .inst c.obj.oid (uri.ids .iid) := by
      rw [place, hrid, if_neg Bool.false_ne_true, if_pos hiid]
    have hpath : c.PathAllowed uri attributes :=
      ⟨fun _ => hpresent, fun _ => hallowed, fun hyes => absurd hyes (Bool.eq_false_iff.mp hrid), hriid,
        fun _ => specific_iff.mp (hspecific hrid)⟩
    exact .ofWrites hpath (hplace ▸ dmWriteInstanceAttrs_writes h (hspecific hrid) _)

/-- **Every Write-Attributes request**: what it stores if it is accepted, and when nothing changes. -/
theorem writeAttributes_outcome (c : AttrsWriter σ) (uri : UriPath) (attributes : RequestAttributes) {as : Storage}
    (h : Tidy ResourceEntry.Sane as.objects) : c.Outcome uri attributes as (c.writeAttributes uri attributes as) := by
  unfold writeAttributes
  split
  next hempty =>
    have hnone : ¬∃ a, attributes.has a = true := fun hnames => by
      rw [names_iff.mp hnames] at hempty
      cases hempty
    refine ⟨fun _ p s => ?_, fun _ hnames => absurd hnames hnone, fun _ => rfl,
      fun _ => ⟨rfl, fun hnames => absurd hnames hnone⟩⟩
    rw [override_of_empty hempty, ite_self]
  split
  · exact .rejected (by decide)
  next hargs =>
  have hspecific : uri.has .rid = false → resourceSpecificRequestAttrsEmpty attributes = true := by
    intro hrid
    rw [hrid] at hargs
    simpa using hargs
  split
  next hiid => exact writeBelowObject_outcome h hiid hspecific
  next hiid =>
    have hrid : uri.has .rid = false := Bool.eq_false_iff.mpr fun hyes => hiid (has_of_has (by decide) hyes)
    have hriid : uri.has .riid = false := Bool.eq_false_iff.mpr fun hyes => hiid (has_of_has (by decide) hyes)
    have hplace : c.place uri = .object c.obj.oid := by
      rw [place, hrid, if_neg Bool.false_ne_true, if_neg hiid]
    have hpath : c.PathAllowed uri attributes :=
      ⟨fun hyes => absurd hyes hiid, fun hyes => absurd hyes hiid, fun hyes => absurd hyes (Bool.eq_false_iff.mp hrid),
        hriid, fun _ => specific_iff.mp (hspecific hrid)⟩
    exact .ofWrites hpath (hplace ▸ dmWriteObjectAttrs_writes h (hspecific hrid))

end AttrsWriter

/-- A client with the Object 3 and no Access Control Object; server 1 asks. -/
def singleAttrsWriter : AttrsWriter Unit where
  toDataModel := .single 3 [0]
  readInstance _ _ _ _ := (0, 0)
  obj := ⟨3, fun _ => ([0], 0), fun _ _ => ([], 0), fun _ _ _ => ([], 0)⟩
  servers := [1]
  ssid := 1
  alloc := ⟨true, true, true, true⟩
  observeNotify _ _ := 0

/-- What `anjay_attr_storage_set_object_attrs` stores for server 1, with these evaluation periods. -/
def storedPeriods (minEvalPeriod maxEvalPeriod : BitVec 32) : Storage :=
  (writeObjectAttrs ⟨true, true, true, true⟩ 1 3 ⟨⟨periodNone, periodNone, minEvalPeriod, maxEvalPeriod⟩, .default⟩
    .install).2

/-- The request `epmin=5`. -/
def requestEpmin : RequestAttributes :=
  { RequestAttributes.empty with
    hasMinEvalPeriod := true
    values := RequestAttributes.setCommon .empty ⟨periodNone, periodNone, 5, periodNone⟩ }

theorem tidy_storedPeriods : Tidy ResourceEntry.Sane (storedPeriods 10 5).objects ∧
    Tidy ResourceEntry.Sane (storedPeriods periodNone 10).objects := by decide +kernel

/-- `epmin=5` is accepted where `epmax` is 10. -/
theorem writeAttributes_epmin :
    (singleAttrsWriter.writeAttributes (.object 3) requestEpmin (storedPeriods periodNone 10)).1 = 0 ∧
      singleAttrsWriter.Outcome (.object 3) requestEpmin (storedPeriods periodNone 10)
        (singleAttrsWriter.writeAttributes (.object 3) requestEpmin (storedPeriods periodNone 10)) :=
  ⟨by decide +kernel, AttrsWriter.writeAttributes_outcome _ _ _ tidy_storedPeriods.2⟩

/-- **A request that names no attribute is accepted, whatever is stored**: here `epmin` is 10 and `epmax` is 5. -/
theorem writeAttributes_not_validated : ¬∀ (c : AttrsWriter Unit) (uri : UriPath) (attributes : RequestAttributes)
    (as : Storage), Tidy ResourceEntry.Sane as.objects → (c.writeAttributes uri attributes as).1 = 0 →
      (setAt (c.writeAttributes uri attributes as).2 (c.place uri) c.ssid).Valid := by
  intro h
  have hvalid := h singleAttrsWriter (.object 3) .empty (storedPeriods 10 5) tidy_storedPeriods.1 (by decide +kernel)
  have hless := hvalid.periods 10 5 (by decide +kernel) (by decide +kernel)
  exact absurd hless (by decide)

end Anjay.Dm
