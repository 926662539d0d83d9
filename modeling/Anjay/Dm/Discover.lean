/-
  File:      Anjay/Dm/Discover.lean
  Subject:   The Discover operation (`anjay_discover.c`), with ANJAY_WITH_CON_ATTR.

  * `Discovery.links`: the links that should be printed for an Object, an Instance or a Resource.
  * `discover_links`: a Discover that succeeds prints these, with a comma between them.
  * `discover_dim_missing`: the number of Resource Instances is left out where the Object cannot list them.
-/
import Anjay.Dm.Printing
import Anjay.Dm.Registry
import Anjay.Request.Query

namespace Anjay.Dm

open AttrStorage Lib Request Text

variable {σ : Type}

/-! ## 1. Printing -/

/-- `";%s=%s"`. -/
def attrText (name value : List UInt8) : List UInt8 := 0x3B :: name ++ 0x3D :: value

/-- `"dim"`. -/
def attrDim : List UInt8 := [0x64, 0x69, 0x6D]

/-- `print_period_attr`. -/
def printPeriodAttr (name : List UInt8) (t : BitVec 32) : Printer :=
  if t.toInt < 0 then .nothing else .write (attrText name (decimal t.toInt.toNat))

/-- `print_con_attr`. -/
def printConAttr (value : ConAttr) : Printer :=
  if value.toInt < 0 then .nothing else .write (attrText customAttrCon (decimal value.toInt.toNat))

/-- `print_double_attr`, where `text` is `AVS_DOUBLE_AS_STRING(value, 17)`. -/
def printDoubleAttr (text : Double → List UInt8) (name : List UInt8) (value : Double) : Printer :=
  if value.isNaN then .nothing else .write (attrText name (text value))

/-- `print_oi_attrs`. -/
def printOiAttrs (attrs : InternalOiAttrs) : Printer :=
  .all [printPeriodAttr attrPmin attrs.standard.minPeriod, printPeriodAttr attrPmax attrs.standard.maxPeriod,
    printPeriodAttr attrEpmin attrs.standard.minEvalPeriod, printPeriodAttr attrEpmax attrs.standard.maxEvalPeriod,
    printConAttr attrs.con]

/-- `print_resource_dim`. -/
def printResourceDim (dim : Int) : Printer :=
  if 0 ≤ dim then .write (attrText attrDim (decimal dim.toNat)) else .nothing

/-- `print_r_attrs`. -/
def printRAttrs (text : Double → List UInt8) (attrs : InternalRAttrs) : Printer :=
  .all [printOiAttrs attrs.oi, printDoubleAttr text attrGt attrs.standard.greaterThan,
    printDoubleAttr text attrLt attrs.standard.lessThan, printDoubleAttr text attrSt attrs.standard.step]

/-- `print_discovered_object`. -/
def printDiscoveredObject (oid : Id) (version : Option CString) (attrs : InternalOiAttrs) : Printer :=
  .all [.write (pathLink [oid]), version.elim .nothing fun version => .write (versionAttr version), printOiAttrs attrs]

/-- `print_discovered_instance`. -/
def printDiscoveredInstance (oid iid : Id) (attrs : InternalOiAttrs) : Printer :=
  .all [.write (pathLink [oid, iid]), printOiAttrs attrs]

/-- `print_discovered_resource`. -/
def printDiscoveredResource (text : Double → List UInt8) (oid iid rid : Id) (resourceDim : Int) (attrs : InternalRAttrs) :
    Printer :=
  .orMinusOne (.all [.write (pathLink [oid, iid, rid]), printResourceDim resourceDim, printRAttrs text attrs])

/-- `print_separator`. -/
def printSeparator : Printer := .write [comma]

/-! ## 2. The operation -/

/-- The data model as a Discover on one Object finds it: the Object, the server that asks, whether it may discover
    an Instance, and how the C library prints a `double`. -/
structure Discovery (σ : Type) extends AttrsModel σ where
  obj : RegisteredObject σ
  oid_valid : obj.oid ≠ idInvalid
  version_valid : validateVersion obj.version = 0
  ssid : Id
  actionAllowed : Id → Bool
  doubleText : Double → List UInt8
  doubleText_comma : ∀ x, comma ∉ doubleText x

/-- `ANJAY_DM_INTERNAL_OI_ATTRS_EMPTY`. -/
def internalOiAttrsEmpty : InternalOiAttrs := ⟨⟨periodNone, periodNone, periodNone, periodNone⟩, .default⟩

theorem discover_normalized {oid iid rid : Id} (hoid : oid ≠ idInvalid) (hiid : iid ≠ idInvalid)
    (hrid : rid ≠ idInvalid) :
    ∀ o, some oid = some o → (UriPath.resourceInstance o iid rid idInvalid).normalized = true := by
  intro o ho
  rw [← Option.some.inj ho]
  simp [UriPath.normalized, UriPath.length, UriPath.lengthFrom, UriPath.resourceInstance, UriPath.ids, IdType.all,
    IdType.toNat, hoid, hiid, hrid]

namespace Discovery

variable (c : Discovery σ)

/-- `read_resource_dim`, with `read_resource_dim_clb`: the result and `*out_dim`. -/
def readResourceDim (iid rid : Id) : Int × Int :=
  match c.obj.foreachResourceInstance c.state iid rid (fun _ dim => (0, dim + 1)) 0 with
  | (result, dim) =>
      if result = errMethodNotAllowed ∨ result = errNotImplemented then (0, -1) else (result, dim)

/-- The first step of `discover_resource`: its result and `resource_dim`. -/
def resourceDim (iid rid : Id) (kind : ResourceKind) (requestedPathType : IdType) : Int × Int :=
  if requestedPathType ≠ .oid ∧ kind.multiple = true then c.readResourceDim iid rid else (0, -1)

/-- `discover_resource`; `attributes` is what the branch of its `switch` reads. -/
def discoverResource (iid rid : Id) (kind : ResourceKind) (requestedPathType : IdType)
    (attributes : Except Failure InternalRAttrs) : Printer :=
  let dim := c.resourceDim iid rid kind requestedPathType
  if dim.1 ≠ 0 then .fail dim.1
  else
    match attributes with
    | .error e => .fail e.val
    | .ok attrs => printDiscoveredResource c.doubleText c.obj.oid iid rid dim.2 attrs

/-- What `discover_resource` reads below an Object and below an Instance. -/
def attributesBelow (requestedPathType : IdType) (iid rid : Id) : Except Failure InternalRAttrs :=
  if requestedPathType = .oid then .ok internalRAttrsEmpty else c.resourceReadAttrs c.obj.oid iid rid c.ssid

/-- `discover_instance_resource_clb`. -/
def discoverInstanceResourceClb (requestedPathType : IdType) (iid : Id) (e : ResourceEntry) : Printer :=
  if e.present then
    printSeparator.andThen
      (c.discoverResource iid e.rid e.kind requestedPathType (c.attributesBelow requestedPathType iid e.rid))
  else .nothing

/-- `discover_instance_resources`. -/
def discoverInstanceResources (iid : Id) (requestedPathType : IdType) : Printer :=
  c.obj.foreachResource c.state iid (c.discoverInstanceResourceClb requestedPathType iid)

/-- `discover_object_instance`. -/
def discoverObjectInstance (iid : Id) : Printer :=
  printSeparator.andThen ((printDiscoveredInstance c.obj.oid iid internalOiAttrsEmpty).andThen
    (c.discoverInstanceResources iid .oid))

/-- `discover_object`. -/
def discoverObject : Printer :=
  match c.objectReadDefaultAttrs c.obj.oid c.ssid with
  | .error e => .fail e.val
  | .ok attrs =>
      (printDiscoveredObject c.obj.oid c.obj.version attrs).andThen
        (c.obj.foreachInstance c.state c.discoverObjectInstance)

/-- `discover_instance`. -/
def discoverInstance (iid : Id) : Printer :=
  match c.instanceReadDefaultAttrs c.obj.oid iid c.ssid with
  | .error e => .fail e.val
  | .ok attrs => (printDiscoveredInstance c.obj.oid iid attrs).andThen (c.discoverInstanceResources iid .iid)

/-- The query that `discover_resource` makes for a Resource path. -/
def resourceQuery (iid rid : Id) (hiid : iid ≠ idInvalid) (hrid : rid ≠ idInvalid) : AttrsQuery :=
  ⟨some c.obj.oid, iid, rid, idInvalid, c.ssid, false, discover_normalized c.oid_valid hiid hrid⟩

/-- `_anjay_discover`. -/
def discover (iid rid : Id) : Printer :=
  if hiid : iid = idInvalid then c.discoverObject
  else if c.obj.verifyInstancePresent c.state iid ≠ 0 then .fail (c.obj.verifyInstancePresent c.state iid)
  else if !c.actionAllowed iid then .fail errUnauthorized
  else if hrid : rid = idInvalid then c.discoverInstance iid
  else
    match c.obj.verifyResourcePresent c.state iid rid with
    | .error result => .fail result
    | .ok kind => c.discoverResource iid rid kind .rid (c.effectiveAttrs 0 (c.resourceQuery iid rid hiid hrid))

end Discovery

/-! ## 3. Links -/

/-- The text of the attributes that are set. -/
def AttrSet.text (double : Double → List UInt8) (a : AttrSet) : List UInt8 :=
  let period (name : List UInt8) (t : BitVec 32) := attrText name (decimal t.toInt.toNat)
  [a.pmin.elim [] (period attrPmin), a.pmax.elim [] (period attrPmax), a.epmin.elim [] (period attrEpmin),
    a.epmax.elim [] (period attrEpmax), a.con.elim [] fun value => attrText customAttrCon (decimal value.toInt.toNat),
    a.gt.elim [] fun x => attrText attrGt (double x), a.lt.elim [] fun x => attrText attrLt (double x),
    a.st.elim [] fun x => attrText attrSt (double x)].flatten

/-- A link: its path, and what can stand behind it. -/
structure DiscoverLink where
  path : List Id
  version : Option CString
  dim : Option Nat
  attrs : AttrSet

def DiscoverLink.text (double : Double → List UInt8) (link : DiscoverLink) : List UInt8 :=
  pathLink (link.path.map Fin.val) ++ link.version.elim [] versionAttr ++
    link.dim.elim [] (fun dim => attrText attrDim (decimal dim)) ++ link.attrs.text double

namespace Discovery

variable (c : Discovery σ)

def instances : List Id := (c.obj.listInstances c.state).1

/-- The Resources of an Instance that are present. -/
def presentResources (iid : Id) : List ResourceEntry := (c.obj.listResources c.state iid).1.filter (·.present)

/-- The number of the Instances of a Multiple Resource, where the Object lists them. -/
def dim (iid rid : Id) (kind : ResourceKind) : Option Nat :=
  let listed := c.obj.listResourceInstances c.state iid rid
  if kind.multiple = true ∧ 0 ≤ listed.2 then some listed.1.length else none

/-- The link of a Resource below an Object: neither attributes nor the number of Resource Instances. -/
def plainLink (iid : Id) (e : ResourceEntry) : DiscoverLink := ⟨[c.obj.oid, iid, e.rid], none, none, .empty⟩

/-- The link of a Resource below an Instance, with the attributes stored for the Resource itself. -/
def resourceLink (iid : Id) (e : ResourceEntry) : DiscoverLink :=
  ⟨[c.obj.oid, iid, e.rid], none, c.dim iid e.rid e.kind, setBy .ofR (c.resourceReadAttrs c.obj.oid iid e.rid c.ssid)⟩

/-- The links below an Object. -/
def instanceLinks (iid : Id) : List DiscoverLink :=
  ⟨[c.obj.oid, iid], none, none, .empty⟩ :: (c.presentResources iid).map (c.plainLink iid)

def objectTarget : List DiscoverLink :=
  ⟨[c.obj.oid], c.obj.version, none, setBy .ofOi (c.objectReadDefaultAttrs c.obj.oid c.ssid)⟩ ::
    c.instances.flatMap c.instanceLinks

def instanceTarget (iid : Id) : List DiscoverLink :=
  ⟨[c.obj.oid, iid], none, none, setBy .ofOi (c.instanceReadDefaultAttrs c.obj.oid iid c.ssid)⟩ ::
    (c.presentResources iid).map (c.resourceLink iid)

/-- The levels that a Resource inherits from, itself first. -/
def resourceLevels (iid rid : Id) : List AttrSet :=
  [setBy .ofR (c.resourceReadAttrs c.obj.oid iid rid c.ssid),
    setBy .ofOi (c.instanceReadDefaultAttrs c.obj.oid iid c.ssid),
    setBy .ofOi (c.objectReadDefaultAttrs c.obj.oid c.ssid)]

def resourceTarget (iid rid : Id) : List DiscoverLink :=
  match c.obj.verifyResourcePresent c.state iid rid with
  | .error _ => []
  | .ok kind => [⟨[c.obj.oid, iid, rid], none, c.dim iid rid kind, .firstDefined (c.resourceLevels iid rid)⟩]

/-- **The links that a Discover reports.** -/
def links (iid rid : Id) : List DiscoverLink :=
  if iid = idInvalid then c.objectTarget
  else if rid = idInvalid then c.instanceTarget iid
  else c.resourceTarget iid rid

end Discovery

/-! ## 4. What is printed -/

theorem printPeriodAttr_prints (name : List UInt8) (t : BitVec 32) : Prints (printPeriodAttr name t) True
    ((definedPeriod t).elim [] fun t => attrText name (decimal t.toInt.toNat)) := by
  unfold printPeriodAttr definedPeriod
  split
  · exact Prints.nothing
  · exact Prints.write _

theorem printConAttr_prints (value : ConAttr) : Prints (printConAttr value) True
    ((definedCon value).elim [] fun value => attrText customAttrCon (decimal value.toInt.toNat)) := by
  unfold printConAttr definedCon
  split
  · exact Prints.nothing
  · exact Prints.write _

theorem printDoubleAttr_prints (text : Double → List UInt8) (name : List UInt8) (value : Double) :
    Prints (printDoubleAttr text name value) True ((definedValue value).elim [] fun x => attrText name (text x)) := by
  unfold printDoubleAttr definedValue
  split
  · exact Prints.nothing
  · exact Prints.write _

theorem printOiAttrs_prints (double : Double → List UInt8) (attrs : InternalOiAttrs) :
    Prints (printOiAttrs attrs) True ((AttrSet.ofOi attrs).text double) := by
  have hall := Prints.all (.cons (printPeriodAttr_prints attrPmin attrs.standard.minPeriod)
    (.cons (printPeriodAttr_prints attrPmax attrs.standard.maxPeriod)
    (.cons (printPeriodAttr_prints attrEpmin attrs.standard.minEvalPeriod)
    (.cons (printPeriodAttr_prints attrEpmax attrs.standard.maxEvalPeriod)
    (.cons (printConAttr_prints attrs.con) .nil)))))
  exact hall

theorem printRAttrs_prints (double : Double → List UInt8) (attrs : InternalRAttrs) :
    Prints (printRAttrs double attrs) True ((AttrSet.ofR attrs).text double) := by
  have hall := Prints.all (.cons (printOiAttrs_prints double attrs.oi)
    (.cons (printDoubleAttr_prints double attrGt attrs.standard.greaterThan)
    (.cons (printDoubleAttr_prints double attrLt attrs.standard.lessThan)
    (.cons (printDoubleAttr_prints double attrSt attrs.standard.step) .nil))))
  have htext : (AttrSet.ofR attrs).text double = List.flatten [(AttrSet.ofOi attrs.oi).text double,
      (definedValue attrs.standard.greaterThan).elim [] fun x => attrText attrGt (double x),
      (definedValue attrs.standard.lessThan).elim [] fun x => attrText attrLt (double x),
      (definedValue attrs.standard.step).elim [] fun x => attrText attrSt (double x)] := by
    simp only [AttrSet.text, AttrSet.ofR, AttrSet.ofOi, List.flatten_cons, List.flatten_nil, List.append_nil,
      List.append_assoc, Option.elim_none]
  rw [htext]
  exact hall

namespace Discovery

variable {c : Discovery σ}

/-- No handler fails with the code that an enumeration takes as the request to stop. -/
structure Documented (c : Discovery σ) : Prop where
  resources_code : ∀ iid, (c.obj.listResources c.state iid).2 ≠ foreachBreak
  resourceInstances_code : ∀ iid rid, (c.obj.listResourceInstances c.state iid rid).2 ≠ foreachBreak
  attrs_code : ∀ iid rid e, c.resourceReadAttrs c.obj.oid iid rid c.ssid = .error e → e.val ≠ foreachBreak

theorem foreachResourceInstance_count (c : Discovery σ) (iid rid : Id) :
    let listed := c.obj.listResourceInstances c.state iid rid
    let counted := c.obj.foreachResourceInstance c.state iid rid (fun _ (dim : Int) => (0, dim + 1)) 0
    (listed.2 < 0 ∧ counted.1 = listed.2) ∨
      (0 ≤ listed.2 ∧ (counted = (0, (listed.1.length : Int)) ∨ counted.1 = errInternal)) := by
  dsimp only
  unfold ObjectDef.foreachResourceInstance
  by_cases hcode : (c.obj.listResourceInstances c.state iid rid).2 < 0
  · refine Or.inl ⟨hcode, ?_⟩
    rw [foreach]
    dsimp only
    rw [if_pos hcode]
  have hcall : ∀ (a : Id) (dim : Int), ((fun (_ : Id) (dim : Int) => ((0 : Int), dim + 1)) a dim).1 = 0 := fun _ _ => rfl
  have hlength : ∀ (as : List Id) (dim : Int), as.foldl (fun dim _ => dim + 1) dim = dim + as.length := by
    intro as
    induction as with
    | nil => exact fun dim => (Int.add_zero dim).symm
    | cons a as ih =>
        intro dim
        rw [List.foldl_cons, ih, List.length_cons]
        omega
  refine Or.inr ⟨not_lt.mp hcode, ?_⟩
  rcases emitLoop_ret hcall (c.obj.listResourceInstances c.state iid rid).1 (-1) 0 with ⟨hasc, -⟩ | herr
  · rw [foreach_foldl hcall hasc (not_lt.mp hcode), hlength, Int.zero_add]
    exact Or.inl rfl
  · refine Or.inr ?_
    rw [foreach]
    dsimp only
    rw [if_neg hcode, herr]
    rfl

/-- **The number of Resource Instances is found where the Object lists them.** -/
theorem readResourceDim_ok {iid rid : Id} (h : (c.readResourceDim iid rid).1 = 0) :
    (c.readResourceDim iid rid).2 = if 0 ≤ (c.obj.listResourceInstances c.state iid rid).2
      then ((c.obj.listResourceInstances c.state iid rid).1.length : Int) else -1 := by
  have hcount := c.foreachResourceInstance_count iid rid
  dsimp only at hcount
  unfold readResourceDim at h ⊢
  dsimp only at h ⊢
  rcases hcount with ⟨hneg, hcode⟩ | ⟨hpos, hcounted | herr⟩
  · rw [if_neg (not_le.mpr hneg)]
    split at h
    next hmissing => rw [if_pos hmissing]
    next => exact absurd (hcode.symm.trans h) (by omega)
  · rw [if_pos hpos, hcounted]
    rfl
  · have hne : ¬(errInternal = errMethodNotAllowed ∨ errInternal = errNotImplemented) := by decide
    rw [herr, if_neg hne] at h
    exact absurd h (show errInternal ≠ 0 by decide)

theorem readResourceDim_ne_break (hc : c.Documented) (iid rid : Id) : (c.readResourceDim iid rid).1 ≠ foreachBreak := by
  have hcount := c.foreachResourceInstance_count iid rid
  have hcode := hc.resourceInstances_code iid rid
  dsimp only at hcount
  unfold readResourceDim
  dsimp only
  split
  · exact (by decide : (0 : Int) ≠ foreachBreak)
  rcases hcount with ⟨-, hcounted⟩ | ⟨-, hcounted | herr⟩
  · rw [hcounted]
    exact hcode
  · rw [hcounted]
    exact (by decide : (0 : Int) ≠ foreachBreak)
  · rw [herr]
    exact (by decide : errInternal ≠ foreachBreak)

/-! ## 5. Resources -/

theorem printResourceDim_prints {dim : Int} {count : Option Nat} (h : dim = count.elim (-1) fun n => (n : Int)) :
    Prints (printResourceDim dim) True (count.elim [] fun n => attrText attrDim (decimal n)) := by
  unfold printResourceDim
  cases count with
  | none =>
      rw [if_neg (by rw [h]; decide)]
      exact Prints.nothing
  | some n =>
      have hdim : dim = (n : Int) := h
      rw [if_pos (by omega), hdim]
      exact Prints.write _

theorem printDiscoveredResource_prints {iid rid : Id} {dim : Int} {count : Option Nat}
    (h : dim = count.elim (-1) fun n => (n : Int)) (attrs : InternalRAttrs) :
    Prints (printDiscoveredResource c.doubleText c.obj.oid iid rid dim attrs) True
      (DiscoverLink.text c.doubleText ⟨[c.obj.oid, iid, rid], none, count, .ofR attrs⟩) := by
  have hall := Prints.all (.cons (Prints.write (pathLink [c.obj.oid.val, iid, rid])) (.cons (printResourceDim_prints h)
    (.cons (printRAttrs_prints c.doubleText attrs) .nil)))
  have htext : DiscoverLink.text c.doubleText ⟨[c.obj.oid, iid, rid], none, count, .ofR attrs⟩ = List.flatten
      [pathLink [c.obj.oid.val, iid, rid], count.elim [] fun n => attrText attrDim (decimal n),
        (AttrSet.ofR attrs).text c.doubleText] := by
    simp only [DiscoverLink.text, List.map_cons, List.map_nil, Option.elim_none, List.append_nil, List.flatten_cons,
      List.flatten_nil, List.append_assoc]
  rw [htext]
  exact hall.orMinusOne

/-- The number that belongs to the link of a Resource. -/
def requestedDim (c : Discovery σ) (iid rid : Id) (kind : ResourceKind) (requestedPathType : IdType) : Option Nat :=
  if requestedPathType = .oid then none else c.dim iid rid kind

theorem resourceDim_ok {iid rid : Id} {kind : ResourceKind} {requestedPathType : IdType}
    (h : (c.resourceDim iid rid kind requestedPathType).1 = 0) :
    (c.resourceDim iid rid kind requestedPathType).2
      = (c.requestedDim iid rid kind requestedPathType).elim (-1) fun n => (n : Int) := by
  unfold requestedDim Discovery.dim
  unfold resourceDim at h ⊢
  dsimp only
  by_cases htype : requestedPathType = .oid
  · rw [if_neg (fun h => h.1 htype), if_pos htype]
    rfl
  by_cases hkind : kind.multiple = true
  · rw [if_pos ⟨htype, hkind⟩] at h ⊢
    rw [if_neg htype, readResourceDim_ok h]
    by_cases hcode : 0 ≤ (c.obj.listResourceInstances c.state iid rid).2
    · rw [if_pos hcode, if_pos ⟨hkind, hcode⟩]
      rfl
    · rw [if_neg hcode, if_neg (fun h => hcode h.2)]
      rfl
  · rw [if_neg (fun h => hkind h.2), if_neg htype, if_neg (fun h => hkind h.1)]
    rfl

/-- **A Resource prints its link**, with what could be read. -/
theorem discoverResource_prints (c : Discovery σ) (iid rid : Id) (kind : ResourceKind) (requestedPathType : IdType)
    (attributes : Except Failure InternalRAttrs) :
    Prints (c.discoverResource iid rid kind requestedPathType attributes) (∃ attrs, attributes = .ok attrs)
      (DiscoverLink.text c.doubleText
        ⟨[c.obj.oid, iid, rid], none, c.requestedDim iid rid kind requestedPathType, setBy .ofR attributes⟩) := by
  unfold discoverResource
  dsimp only
  by_cases h0 : (c.resourceDim iid rid kind requestedPathType).1 = 0
  · rw [if_neg (not_not.mpr h0)]
    cases attributes with
    | error e => exact Prints.fail e.property
    | ok attrs => exact (printDiscoveredResource_prints (resourceDim_ok h0) attrs).mono fun _ => ⟨attrs, rfl⟩
  · rw [if_pos h0]
    exact Prints.fail h0

theorem discoverResource_neverBreaks (hc : c.Documented) {iid rid : Id} {kind : ResourceKind} {requestedPathType : IdType}
    {attributes : Except Failure InternalRAttrs} (h : ∀ e, attributes = .error e → e.val ≠ foreachBreak) :
    NeverBreaks (c.discoverResource iid rid kind requestedPathType attributes) := by
  have hdim : (c.resourceDim iid rid kind requestedPathType).1 ≠ foreachBreak := by
    unfold resourceDim
    split
    · exact readResourceDim_ne_break hc iid rid
    · exact (by decide : (0 : Int) ≠ foreachBreak)
  unfold discoverResource
  dsimp only
  split
  · exact NeverBreaks.fail hdim
  · cases attributes with
    | error e => exact NeverBreaks.fail (h e rfl)
    | ok attrs => exact NeverBreaks.orMinusOne _

/-- The link of a Resource below the target. -/
def linkBelow (c : Discovery σ) (requestedPathType : IdType) (iid : Id) (e : ResourceEntry) : DiscoverLink :=
  if requestedPathType = .oid then c.plainLink iid e else c.resourceLink iid e

theorem linkBelow_eq (c : Discovery σ) (requestedPathType : IdType) (iid : Id) (e : ResourceEntry) :
    c.linkBelow requestedPathType iid e = ⟨[c.obj.oid, iid, e.rid], none,
      c.requestedDim iid e.rid e.kind requestedPathType, setBy .ofR (c.attributesBelow requestedPathType iid e.rid)⟩ := by
  unfold linkBelow requestedDim attributesBelow
  split
  · rw [setBy, AttrsModel.ofR_internalRAttrsEmpty]
    rfl
  · rfl

/-- The list handler gives the Resources of an Instance as the header demands. -/
def ResourcesAscend (c : Discovery σ) (iid : Id) : Prop :=
  Ascending ResourceEntry.rid (-1) (c.obj.listResources c.state iid).1

/-- **The Resources of an Instance print the links of those that are present**, each with a comma in front; they were
    listed in ascending order. -/
theorem discoverInstanceResources_prints (hc : c.Documented) (iid : Id) (requestedPathType : IdType) :
    Prints (c.discoverInstanceResources iid requestedPathType) (c.ResourcesAscend iid) (preceded comma
      (((c.presentResources iid).map (c.linkBelow requestedPathType iid)).map (DiscoverLink.text c.doubleText))) := by
  have hclb : ∀ e, Prints (c.discoverInstanceResourceClb requestedPathType iid e) True
      (if e.present then comma :: (c.linkBelow requestedPathType iid e).text c.doubleText else []) := by
    intro e
    unfold discoverInstanceResourceClb
    split
    · rw [linkBelow_eq]
      exact ((Prints.write [comma]).andThen (c.discoverResource_prints iid e.rid e.kind requestedPathType _)).mono
        fun _ => trivial
    · exact Prints.nothing
  have hbreak : ∀ e, NeverBreaks (c.discoverInstanceResourceClb requestedPathType iid e) := by
    intro e
    unfold discoverInstanceResourceClb
    split
    · refine (NeverBreaks.write _).andThen (discoverResource_neverBreaks hc fun failure hread => ?_)
      unfold attributesBelow at hread
      split at hread
      · cases hread
      · exact hc.attrs_code iid e.rid failure hread
    · exact NeverBreaks.nothing
  have hall := (Prints.foreach ResourceEntry.rid hclb hbreak (c.obj.listResources c.state iid)).mono fun h => h.1
  rw [flatMap_preceded] at hall
  rw [List.map_map]
  exact hall

/-! ## 6. The three targets -/

theorem printDiscoveredInstance_prints (c : Discovery σ) (iid : Id) (attrs : InternalOiAttrs) :
    Prints (printDiscoveredInstance c.obj.oid iid attrs) True
      (DiscoverLink.text c.doubleText ⟨[c.obj.oid, iid], none, none, .ofOi attrs⟩) := by
  have hall := Prints.all (.cons (Prints.write (pathLink [c.obj.oid.val, iid]))
    (.cons (printOiAttrs_prints c.doubleText attrs) .nil))
  have htext : DiscoverLink.text c.doubleText ⟨[c.obj.oid, iid], none, none, .ofOi attrs⟩ = List.flatten
      [pathLink [c.obj.oid.val, iid], (AttrSet.ofOi attrs).text c.doubleText] := by
    simp only [DiscoverLink.text, List.map_cons, List.map_nil, Option.elim_none, List.append_nil, List.flatten_cons,
      List.flatten_nil]
  rw [htext]
  exact hall

theorem printDiscoveredObject_prints (c : Discovery σ) (attrs : InternalOiAttrs) :
    Prints (printDiscoveredObject c.obj.oid c.obj.version attrs) True
      (DiscoverLink.text c.doubleText ⟨[c.obj.oid], c.obj.version, none, .ofOi attrs⟩) := by
  have hversion : Prints (c.obj.version.elim .nothing fun version => .write (versionAttr version)) True
      (c.obj.version.elim [] versionAttr) := by
    cases c.obj.version with
    | none => exact Prints.nothing
    | some version => exact Prints.write _
  have hall := Prints.all (.cons (Prints.write (pathLink [c.obj.oid.val])) (.cons hversion
    (.cons (printOiAttrs_prints c.doubleText attrs) .nil)))
  have htext : DiscoverLink.text c.doubleText ⟨[c.obj.oid], c.obj.version, none, .ofOi attrs⟩ = List.flatten
      [pathLink [c.obj.oid.val], c.obj.version.elim [] versionAttr, (AttrSet.ofOi attrs).text c.doubleText] := by
    simp only [DiscoverLink.text, List.map_cons, List.map_nil, Option.elim_none, List.append_nil, List.flatten_cons,
      List.flatten_nil, List.append_assoc]
  rw [htext]
  exact hall

theorem ofOi_internalOiAttrsEmpty : AttrSet.ofOi internalOiAttrsEmpty = .empty := by decide +kernel

theorem discoverObjectInstance_prints (hc : c.Documented) (iid : Id) :
    Prints (c.discoverObjectInstance iid) (c.ResourcesAscend iid)
      (preceded comma ((c.instanceLinks iid).map (DiscoverLink.text c.doubleText))) := by
  have hinstance := c.printDiscoveredInstance_prints iid internalOiAttrsEmpty
  rw [ofOi_internalOiAttrsEmpty] at hinstance
  have hall := (Prints.write [comma]).andThen (hinstance.andThen (discoverInstanceResources_prints hc iid .oid))
  exact hall.mono fun h => h.2.2

theorem printOiAttrs_neverBreaks (attrs : InternalOiAttrs) : NeverBreaks (printOiAttrs attrs) := by
  have hperiod : ∀ name t, NeverBreaks (printPeriodAttr name t) := by
    intro name t
    unfold printPeriodAttr
    split
    · exact NeverBreaks.nothing
    · exact NeverBreaks.write _
  have hcon : NeverBreaks (printConAttr attrs.con) := by
    unfold printConAttr
    split
    · exact NeverBreaks.nothing
    · exact NeverBreaks.write _
  exact NeverBreaks.all (by simp [hperiod, hcon])

theorem discoverObjectInstance_neverBreaks (hc : c.Documented) (iid : Id) :
    NeverBreaks (c.discoverObjectInstance iid) := by
  have hprint : NeverBreaks (printDiscoveredInstance c.obj.oid iid internalOiAttrsEmpty) :=
    NeverBreaks.all (by simp [NeverBreaks.write, printOiAttrs_neverBreaks])
  exact (NeverBreaks.write _).andThen (hprint.andThen (NeverBreaks.foreach (hc.resources_code iid)))

theorem discoverObject_prints (hc : c.Documented) : Prints c.discoverObject
    (Ascending id (-1) c.instances ∧ ∀ i ∈ c.instances, c.ResourcesAscend i)
    ([comma].intercalate (c.objectTarget.map (DiscoverLink.text c.doubleText))) := by
  unfold discoverObject objectTarget
  cases c.objectReadDefaultAttrs c.obj.oid c.ssid with
  | error e => exact Prints.fail e.property
  | ok attrs =>
      have hbelow := (Prints.foreach id (discoverObjectInstance_prints hc) (discoverObjectInstance_neverBreaks hc)
        (c.obj.listInstances c.state)).mono fun h => And.intro h.1 h.2.2
      have hall := (c.printDiscoveredObject_prints attrs).andThen hbelow
      rw [List.map_cons, intercalate_cons, List.map_flatMap, ← preceded_flatMap]
      exact hall.mono fun h => h.2

theorem discoverInstance_prints (hc : c.Documented) (iid : Id) :
    Prints (c.discoverInstance iid) (c.ResourcesAscend iid)
      ([comma].intercalate ((c.instanceTarget iid).map (DiscoverLink.text c.doubleText))) := by
  unfold discoverInstance instanceTarget
  cases c.instanceReadDefaultAttrs c.obj.oid iid c.ssid with
  | error e => exact Prints.fail e.property
  | ok attrs =>
      have hall := (c.printDiscoveredInstance_prints iid attrs).andThen (discoverInstanceResources_prints hc iid .iid)
      rw [List.map_cons, intercalate_cons]
      exact hall.mono fun h => h.2

theorem resourceLevels_eq (c : Discovery σ) {iid rid : Id} (hiid : iid ≠ idInvalid) (hrid : rid ≠ idInvalid) :
    [c.resourceLevel (c.resourceQuery iid rid hiid hrid) c.obj.oid,
      c.instanceLevel (c.resourceQuery iid rid hiid hrid) c.obj.oid,
      c.objectLevel (c.resourceQuery iid rid hiid hrid) c.obj.oid] = c.resourceLevels iid rid := by
  rw [AttrsModel.resourceLevel, if_pos (show (c.resourceQuery iid rid hiid hrid).rid ≠ idInvalid from hrid),
    AttrsModel.instanceLevel, if_pos (show (c.resourceQuery iid rid hiid hrid).iid ≠ idInvalid from hiid)]
  rfl

/-- **A Resource that is the target prints, for each attribute, what the first level that sets it says.** -/
theorem resourceTarget_prints (c : Discovery σ) {iid rid : Id} (hiid : iid ≠ idInvalid) (hrid : rid ≠ idInvalid)
    {kind : ResourceKind} (hkind : c.obj.verifyResourcePresent c.state iid rid = .ok kind) :
    Prints (c.discoverResource iid rid kind .rid (c.effectiveAttrs 0 (c.resourceQuery iid rid hiid hrid))) True
      ([comma].intercalate ((c.resourceTarget iid rid).map (DiscoverLink.text c.doubleText))) := by
  have hprints := c.discoverResource_prints iid rid kind .rid (c.effectiveAttrs 0 (c.resourceQuery iid rid hiid hrid))
  refine (hprints.congr ?_).mono fun _ => trivial
  rintro ⟨attrs, hattrs⟩
  have hpath : c.pathAttrs (c.resourceQuery iid rid hiid hrid) internalRAttrsEmpty = .ok attrs := by
    rw [AttrsModel.effectiveAttrs] at hattrs
    cases hp : c.pathAttrs (c.resourceQuery iid rid hiid hrid) internalRAttrsEmpty with
    | error e =>
        rw [hp] at hattrs
        cases hattrs
    | ok out =>
        rw [hp] at hattrs
        exact hattrs
  have hset := AttrsModel.pathAttrs_ok (show (c.resourceQuery iid rid hiid hrid).obj = some c.obj.oid from rfl) hpath
  rw [c.resourceLevels_eq hiid hrid] at hset
  rw [hattrs, resourceTarget, hkind, List.map_singleton, List.intercalate_singleton, setBy, hset]
  rfl

/-! ## 7. A Discover that succeeds -/

/-- The target is there. -/
def Present (c : Discovery σ) (iid rid : Id) : Prop :=
  iid = idInvalid ∨ (iid ∈ c.instances ∧ (rid = idInvalid ∨ ∃ kind,
    c.obj.verifyResourcePresent c.state iid rid = .ok kind ∧ ⟨rid, kind, true⟩ ∈ (c.obj.listResources c.state iid).1))

/-- What the enumerations went through was listed in ascending order. -/
structure Ordered (c : Discovery σ) (iid rid : Id) : Prop where
  instances : iid = idInvalid → Ascending id (-1) c.instances
  resourcesBelow : iid = idInvalid → ∀ i ∈ c.instances, c.ResourcesAscend i
  resources : iid ≠ idInvalid → rid = idInvalid → c.ResourcesAscend iid

/-- **A Discover that succeeds found its target, and printed its links with a comma between them.** -/
theorem discover_prints (hc : c.Documented) (iid rid : Id) :
    Prints (c.discover iid rid) (c.Present iid rid ∧ c.Ordered iid rid)
      ([comma].intercalate ((c.links iid rid).map (DiscoverLink.text c.doubleText))) := by
  unfold discover links
  by_cases hiid : iid = idInvalid
  · rw [dif_pos hiid, if_pos hiid]
    exact (discoverObject_prints hc).mono fun h =>
      ⟨Or.inl hiid, fun _ => h.1, fun _ => h.2, fun hne => absurd hiid hne⟩
  rw [dif_neg hiid, if_neg hiid]
  by_cases hfound : c.obj.verifyInstancePresent c.state iid = 0
  swap
  · rw [if_pos hfound]
    exact Prints.fail hfound
  have hmem : iid ∈ c.instances := ObjectDef.mem_of_verifyInstancePresent hfound
  rw [if_neg (not_not.mpr hfound)]
  split
  · exact Prints.fail (by decide)
  by_cases hrid : rid = idInvalid
  · rw [dif_pos hrid, if_pos hrid]
    exact (discoverInstance_prints hc iid).mono fun h =>
      ⟨Or.inr ⟨hmem, Or.inl hrid⟩, fun h => absurd h hiid, fun h => absurd h hiid, fun _ _ => h⟩
  rw [dif_neg hrid, if_neg hrid]
  cases hkind : c.obj.verifyResourcePresent c.state iid rid with
  | error result => exact Prints.fail (ObjectDef.verifyResourcePresent_error hkind)
  | ok kind =>
      exact (c.resourceTarget_prints hiid hrid hkind).mono fun _ =>
        ⟨Or.inr ⟨hmem, Or.inr ⟨kind, hkind, ObjectDef.mem_of_verifyResourcePresent hkind⟩⟩,
          fun h => absurd h hiid, fun h => absurd h hiid, fun _ h => absurd h hrid⟩

/-! ## 8. The items and their order -/

theorem presentResources_ascending {iid : Id} (h : c.ResourcesAscend iid) :
    (c.presentResources iid).Pairwise fun a b => a.rid < b.rid := h.2.filter _

theorem tail_lt {i : Id} {a b : List Id} (h : a < b) : i :: a < i :: b := List.cons_lt_cons_iff.mpr (Or.inr ⟨rfl, h⟩)

theorem below_ascending {iid : Id} (h : c.ResourcesAscend iid) {link : ResourceEntry → DiscoverLink}
    (hlink : ∀ e, (link e).path = [c.obj.oid, iid, e.rid]) :
    (([c.obj.oid, iid] : List Id) :: ((c.presentResources iid).map link).map DiscoverLink.path).Pairwise (· < ·) := by
  have hpath : ((c.presentResources iid).map link).map DiscoverLink.path
      = (c.presentResources iid).map fun e => [c.obj.oid, iid, e.rid] := by
    rw [List.map_map]
    exact List.map_congr_left fun e _ => hlink e
  rw [hpath]
  refine List.pairwise_cons.mpr ⟨?_, List.pairwise_map.mpr ((presentResources_ascending h).imp ?_)⟩
  · intro path hmem
    obtain ⟨e, -, rfl⟩ := List.mem_map.mp hmem
    simp
  · exact fun {a b} hab => tail_lt (tail_lt (List.cons_lt_cons_iff.mpr (Or.inl hab)))

/-- **The links come in increasing order of their paths**, so each of them once. -/
theorem links_ascending {iid rid : Id} (h : c.Ordered iid rid) :
    ((c.links iid rid).map DiscoverLink.path).Pairwise (· < ·) := by
  unfold links
  split
  next hiid =>
    unfold objectTarget
    rw [List.map_cons, List.map_flatMap]
    refine List.pairwise_cons.mpr ⟨?_, List.pairwise_flatMap.mpr ⟨?_, ?_⟩⟩
    · intro path hmem
      obtain ⟨i, -, hmem⟩ := List.mem_flatMap.mp hmem
      obtain ⟨link, hlink, rfl⟩ := List.mem_map.mp hmem
      rcases List.mem_cons.mp hlink with rfl | hlink
      · simp
      · obtain ⟨e, -, rfl⟩ := List.mem_map.mp hlink
        simp [plainLink]
    · exact fun i hi => below_ascending (h.resourcesBelow hiid i hi) fun _ => rfl
    · refine (h.instances hiid).2.imp fun {i j} (hij : i < j) => ?_
      have hhead : ∀ {i path}, path ∈ (c.instanceLinks i).map DiscoverLink.path →
          ∃ rest, path = c.obj.oid :: i :: rest := by
        intro i path hmem
        obtain ⟨link, hlink, rfl⟩ := List.mem_map.mp hmem
        rcases List.mem_cons.mp hlink with rfl | hlink
        · exact ⟨[], rfl⟩
        · obtain ⟨e, -, rfl⟩ := List.mem_map.mp hlink
          exact ⟨[e.rid], rfl⟩
      intro x hx y hy
      obtain ⟨rest, rfl⟩ := hhead hx
      obtain ⟨rest', rfl⟩ := hhead hy
      exact tail_lt (List.cons_lt_cons_iff.mpr (Or.inl hij))
  next hiid =>
  split
  next hrid => exact below_ascending (h.resources hiid hrid) fun _ => rfl
  · unfold resourceTarget
    split
    · exact List.Pairwise.nil
    · exact List.pairwise_singleton _ _

theorem comma_notMem_attrText {name value : List UInt8} (hname : comma ∉ name) (hvalue : comma ∉ value) :
    comma ∉ attrText name value := by
  intro h
  rcases List.mem_append.mp h with h | h
  · rcases List.mem_cons.mp h with h | h
    · cases h
    · exact hname h
  · rcases List.mem_cons.mp h with h | h
    · cases h
    · exact hvalue h

theorem comma_notMem_decimal (n : Nat) : comma ∉ decimal n :=
  fun h => (digit_ne (isDigitOf_of_mem_decimal h)).2.1 rfl

theorem comma_notMem_elim {α : Type} {a : Option α} {text : α → List UInt8} (h : ∀ x, comma ∉ text x) :
    comma ∉ a.elim [] text := by
  cases a with
  | none => exact List.not_mem_nil
  | some x => exact h x

theorem comma_notMem_attrs (c : Discovery σ) (a : AttrSet) : comma ∉ a.text c.doubleText := by
  have hperiod : ∀ {name : List UInt8} {t : Option (BitVec 32)}, comma ∉ name →
      comma ∉ t.elim [] fun t => attrText name (decimal t.toInt.toNat) :=
    fun hname => comma_notMem_elim fun _ => comma_notMem_attrText hname (comma_notMem_decimal _)
  have hdouble : ∀ {name : List UInt8} {x : Option Double}, comma ∉ name →
      comma ∉ x.elim [] fun x => attrText name (c.doubleText x) :=
    fun hname => comma_notMem_elim fun x => comma_notMem_attrText hname (c.doubleText_comma x)
  have hcon : comma ∉ a.con.elim [] fun value => attrText customAttrCon (decimal value.toInt.toNat) :=
    comma_notMem_elim fun _ => comma_notMem_attrText (by decide) (comma_notMem_decimal _)
  intro h
  obtain ⟨item, hitem, h⟩ := List.mem_flatten.mp h
  simp only [List.mem_cons, List.not_mem_nil, or_false] at hitem
  rcases hitem with rfl | rfl | rfl | rfl | rfl | rfl | rfl | rfl
  · exact hperiod (by decide) h
  · exact hperiod (by decide) h
  · exact hperiod (by decide) h
  · exact hperiod (by decide) h
  · exact hcon h
  · exact hdouble (by decide) h
  · exact hdouble (by decide) h
  · exact hdouble (by decide) h

theorem comma_notMem_text (c : Discovery σ) {link : DiscoverLink}
    (h : link.version = none ∨ link.version = c.obj.version) : comma ∉ link.text c.doubleText := by
  have hversion : comma ∉ link.version.elim [] versionAttr := by
    rcases h with h | h
    · rw [h]
      exact List.not_mem_nil
    · rw [h]
      have hvalid := c.version_valid
      cases hv : c.obj.version with
      | none => exact List.not_mem_nil
      | some version =>
          rw [hv] at hvalid
          exact comma_notMem_versionAttr hvalid
  intro hc
  rcases List.mem_append.mp hc with hc | hc
  · rcases List.mem_append.mp hc with hc | hc
    · rcases List.mem_append.mp hc with hc | hc
      · exact comma_notMem_pathLink _ hc
      · exact hversion hc
    · exact comma_notMem_elim (fun _ => comma_notMem_attrText (by decide) (comma_notMem_decimal _)) hc
  · exact c.comma_notMem_attrs link.attrs hc

theorem version_links {iid rid : Id} {link : DiscoverLink} (h : link ∈ c.links iid rid) :
    link.version = none ∨ link.version = c.obj.version := by
  unfold links at h
  split at h
  · rcases List.mem_cons.mp h with rfl | h
    · exact Or.inr rfl
    obtain ⟨i, -, h⟩ := List.mem_flatMap.mp h
    rcases List.mem_cons.mp h with rfl | h
    · exact Or.inl rfl
    · obtain ⟨e, -, rfl⟩ := List.mem_map.mp h
      exact Or.inl rfl
  split at h
  · rcases List.mem_cons.mp h with rfl | h
    · exact Or.inl rfl
    · obtain ⟨e, -, rfl⟩ := List.mem_map.mp h
      exact Or.inl rfl
  · unfold resourceTarget at h
    split at h
    · cases h
    · rw [List.mem_singleton.mp h]
      exact Or.inl rfl

/-- The items are neither empty nor do they contain a comma. -/
theorem items (c : Discovery σ) (iid rid : Id) : ∀ item ∈ (c.links iid rid).map (DiscoverLink.text c.doubleText),
    item ≠ [] ∧ comma ∉ item := by
  intro item hitem
  obtain ⟨link, hlink, rfl⟩ := List.mem_map.mp hitem
  exact ⟨List.cons_ne_nil _ _, c.comma_notMem_text (version_links hlink)⟩

/-- What a Discover reports: the target, the Instances below an Object, and the Resources that are present below an
    Object or an Instance. -/
inductive Reports (c : Discovery σ) (iid rid : Id) : List Id → Prop
  | object (h : iid = idInvalid) : Reports c iid rid [c.obj.oid]
  | objectInstance (h : iid ≠ idInvalid) (hrid : rid = idInvalid) : Reports c iid rid [c.obj.oid, iid]
  | resource (h : iid ≠ idInvalid) (hrid : rid ≠ idInvalid) : Reports c iid rid [c.obj.oid, iid, rid]
  | instanceBelow {i : Id} (h : iid = idInvalid) (hi : i ∈ c.instances) : Reports c iid rid [c.obj.oid, i]
  | resourceBelow {i : Id} {e : ResourceEntry}
      (h : iid = idInvalid ∧ i ∈ c.instances ∨ iid ≠ idInvalid ∧ rid = idInvalid ∧ i = iid)
      (he : e ∈ (c.obj.listResources c.state i).1) (hpresent : e.present = true) : Reports c iid rid [c.obj.oid, i, e.rid]

/-- **The links are those of what is to be reported.** -/
theorem mem_links {iid rid : Id} (h : c.Present iid rid) (path : List Id) :
    path ∈ (c.links iid rid).map DiscoverLink.path ↔ c.Reports iid rid path := by
  have hbelow : ∀ {i : Id} {link : ResourceEntry → DiscoverLink}, (∀ e, (link e).path = [c.obj.oid, i, e.rid]) →
      (path ∈ ((c.presentResources i).map link).map DiscoverLink.path ↔
        ∃ e ∈ (c.obj.listResources c.state i).1, e.present = true ∧ path = [c.obj.oid, i, e.rid]) := by
    intro i link hlink
    rw [List.map_map, List.mem_map]
    constructor
    · rintro ⟨e, he, rfl⟩
      obtain ⟨he, hpresent⟩ := List.mem_filter.mp he
      exact ⟨e, he, hpresent, hlink e⟩
    · rintro ⟨e, he, hpresent, rfl⟩
      exact ⟨e, List.mem_filter.mpr ⟨he, hpresent⟩, hlink e⟩
  unfold links
  by_cases hiid : iid = idInvalid
  · rw [if_pos hiid, objectTarget, List.map_cons, List.map_flatMap, List.mem_cons, List.mem_flatMap]
    constructor
    · rintro (rfl | ⟨i, hi, hmem⟩)
      · exact .object hiid
      rcases List.mem_cons.mp hmem with rfl | hmem
      · exact .instanceBelow hiid hi
      · obtain ⟨e, he, hpresent, rfl⟩ := (hbelow fun _ => rfl).mp hmem
        exact .resourceBelow (Or.inl ⟨hiid, hi⟩) he hpresent
    · intro hreports
      cases hreports with
      | object => exact Or.inl rfl
      | objectInstance hne => exact absurd hiid hne
      | resource hne => exact absurd hiid hne
      | instanceBelow _ hi => exact Or.inr ⟨_, hi, List.mem_cons_self⟩
      | resourceBelow hi he hpresent =>
          obtain ⟨-, hi⟩ := hi.resolve_right fun hne => hne.1 hiid
          exact Or.inr ⟨_, hi, List.mem_cons_of_mem _ ((hbelow fun _ => rfl).mpr ⟨_, he, hpresent, rfl⟩)⟩
  rw [if_neg hiid]
  by_cases hrid : rid = idInvalid
  · rw [if_pos hrid, instanceTarget, List.map_cons, List.mem_cons]
    constructor
    · rintro (rfl | hmem)
      · exact .objectInstance hiid hrid
      · obtain ⟨e, he, hpresent, rfl⟩ := (hbelow fun _ => rfl).mp hmem
        exact .resourceBelow (Or.inr ⟨hiid, hrid, rfl⟩) he hpresent
    · intro hreports
      cases hreports with
      | object hne => exact absurd hne hiid
      | objectInstance => exact Or.inl rfl
      | resource _ hne => exact absurd hrid hne
      | instanceBelow hne => exact absurd hne hiid
      | resourceBelow hi he hpresent =>
          obtain ⟨-, -, rfl⟩ := hi.resolve_left fun hne => hiid hne.1
          exact Or.inr ((hbelow fun _ => rfl).mpr ⟨_, he, hpresent, rfl⟩)
  obtain ⟨-, hfound⟩ := h.resolve_left hiid
  obtain ⟨kind, hkind, -⟩ := hfound.resolve_left hrid
  rw [if_neg hrid, resourceTarget, hkind, List.map_singleton, List.mem_singleton]
  constructor
  · rintro rfl
    exact .resource hiid hrid
  · intro hreports
    cases hreports with
    | object hne => exact absurd hne hiid
    | objectInstance _ hne => exact absurd hne hrid
    | resource => rfl
    | instanceBelow hne => exact absurd hne hiid
    | resourceBelow hi =>
        rcases hi with ⟨hne, -⟩ | ⟨-, hne, -⟩
        · exact absurd hne hiid
        · exact absurd hne hrid

/-- **A Discover that succeeds prints the links of its target and of what is to be reported below it, each once and in
    increasing order, with a comma between them and no item empty.** -/
theorem discover_links (c : Discovery σ) (hc : c.Documented) (iid rid : Id) (stream stream' : OutStream)
    (h : c.discover iid rid stream = (0, stream')) :
    c.Present iid rid ∧
      stream' = stream.push ([comma].intercalate ((c.links iid rid).map (DiscoverLink.text c.doubleText))) ∧
      (∀ item ∈ (c.links iid rid).map (DiscoverLink.text c.doubleText), item ≠ [] ∧ comma ∉ item) ∧
      ((c.links iid rid).map DiscoverLink.path).Pairwise (· < ·) ∧
      ∀ path, path ∈ (c.links iid rid).map DiscoverLink.path ↔ c.Reports iid rid path := by
  obtain ⟨⟨hpresent, hordered⟩, hpush⟩ := discover_prints hc iid rid stream (by rw [h])
  rw [h] at hpush
  exact ⟨hpresent, hpush, c.items iid rid, links_ascending hordered, mem_links hpresent⟩

end Discovery

/-! ## 9. Resources with attributes, and one whose Instances are not listed -/

theorem noAttrs_comma (x : Double) : comma ∉ (fun _ : Double => ([] : List UInt8)) x := List.not_mem_nil

theorem noObject_oid (oid : Id) (obj : ObjectDef Unit) (h : (none : Option (ObjectDef Unit)) = some obj) :
    obj.oid = oid := nomatch h

theorem three_ne_idInvalid : (3 : Id) ≠ idInvalid := by decide

/-- Object 3 with a Multiple Resource 6 in its Instance 0; `listed` is what the handler for the Instances of the Resource
    does. Nothing has attributes. -/
def multipleResource (listed : List Id × Int) : Discovery Unit where
  state := ()
  findObject _ := none
  oid_findObject := noObject_oid
  readResourceI64 _ _ _ := none
  readI64 _ _ _ := .error attribPeriodNone
  toOption_readI64 _ _ _ := rfl
  resourceReadAttrs _ _ _ _ := .ok internalRAttrsEmpty
  instanceReadDefaultAttrs _ _ _ := .ok internalOiAttrsEmpty
  objectReadDefaultAttrs _ _ := .ok internalOiAttrsEmpty
  obj :=
    { oid := 3
      listInstances := fun _ => ([0], 0)
      listResources := fun _ _ => ([⟨6, .rm, true⟩], 0)
      listResourceInstances := fun _ _ _ => listed
      ref := 0
      version := none }
  oid_valid := three_ne_idInvalid
  version_valid := rfl
  ssid := 1
  actionAllowed _ := true
  doubleText _ := []
  doubleText_comma := noAttrs_comma

theorem multipleResource_documented {listed : List Id × Int} (h : listed.2 ≠ foreachBreak) :
    (multipleResource listed).Documented where
  resources_code _ := (by decide : (0 : Int) ≠ foreachBreak)
  resourceInstances_code _ _ := h
  attrs_code _ _ _ h := nomatch h

/-- The same Object with a Resource 1 too, and with attributes on the Instance and on both Resources. -/
def attributed : Discovery Unit :=
  { multipleResource ([0, 1], 0) with
    resourceReadAttrs := fun _ _ rid _ => .ok (if rid = 1
      then ⟨⟨⟨periodNone, 60, periodNone, periodNone⟩, .nan, .nan, .nan⟩, .default⟩
      else ⟨⟨⟨1, periodNone, periodNone, periodNone⟩, .nan, .nan, .nan⟩, .con⟩)
    instanceReadDefaultAttrs := fun _ _ _ => .ok ⟨⟨10, periodNone, periodNone, periodNone⟩, .default⟩
    obj := { (multipleResource ([0, 1], 0)).obj with listResources := fun _ _ => ([⟨1, .rw, true⟩, ⟨6, .rm, true⟩], 0) } }

theorem attributed_documented : attributed.Documented where
  resources_code _ := (by decide : (0 : Int) ≠ foreachBreak)
  resourceInstances_code _ _ := (by decide : (0 : Int) ≠ foreachBreak)
  attrs_code _ _ _ h := nomatch h

/-- `</3/0>;pmin=10,</3/0/1>;pmax=60,</3/0/6>;dim=2;pmin=1;con=1`. -/
def attributedText : List UInt8 :=
  [0x3C, 0x2F, 0x33, 0x2F, 0x30, 0x3E, 0x3B, 0x70, 0x6D, 0x69, 0x6E, 0x3D, 0x31, 0x30, 0x2C, 0x3C, 0x2F, 0x33, 0x2F,
   0x30, 0x2F, 0x31, 0x3E, 0x3B, 0x70, 0x6D, 0x61, 0x78, 0x3D, 0x36, 0x30, 0x2C, 0x3C, 0x2F, 0x33, 0x2F, 0x30, 0x2F,
   0x36, 0x3E, 0x3B, 0x64, 0x69, 0x6D, 0x3D, 0x32, 0x3B, 0x70, 0x6D, 0x69, 0x6E, 0x3D, 0x31, 0x3B, 0x63, 0x6F, 0x6E,
   0x3D, 0x31]

theorem discover_links_attributed :
    attributed.discover 0 idInvalid ⟨[], none⟩ = (0, ⟨attributedText, none⟩) ∧
      (⟨attributedText, none⟩ : OutStream) = OutStream.push ⟨[], none⟩ ([comma].intercalate
        ((attributed.links 0 idInvalid).map (DiscoverLink.text attributed.doubleText))) ∧
      (attributed.links 0 idInvalid).map DiscoverLink.path = [[3, 0], [3, 0, 1], [3, 0, 6]] :=
  have hrun : attributed.discover 0 idInvalid ⟨[], none⟩ = (0, ⟨attributedText, none⟩) := by decide +kernel
  ⟨hrun, (Discovery.discover_links _ attributed_documented 0 idInvalid _ _ hrun).2.1, by decide +kernel⟩

/-- **Where the Object cannot list them, the number of the Instances of a Multiple Resource is missing.** -/
theorem discover_dim_missing : ¬∀ (c : Discovery Unit) (iid rid : Id) (kind : ResourceKind) (stream' : OutStream),
    c.Documented → c.obj.verifyResourcePresent c.state iid rid = .ok kind → c.discover iid rid ⟨[], none⟩ = (0, stream') →
    stream'.written = DiscoverLink.text c.doubleText ⟨[c.obj.oid, iid, rid], none,
      if kind.multiple then some (c.obj.listResourceInstances c.state iid rid).1.length else none,
      .firstDefined (c.resourceLevels iid rid)⟩ := by
  intro h
  -- it prints `</3/0/6>`
  have hclaim := h (multipleResource ([], errMethodNotAllowed)) 0 6 .rm
    ⟨[0x3C, 0x2F, 0x33, 0x2F, 0x30, 0x2F, 0x36, 0x3E], none⟩ (multipleResource_documented (by decide))
    (by decide +kernel) (by decide +kernel)
  exact absurd hclaim (by decide +kernel)

end Anjay.Dm
