/-
  File:      Anjay/AttrStorage/Persistence.lean
  Subject:   Storing the tree of attributes to a stream and restoring it
             (`anjay_attr_storage_persistence.c`), with ANJAY_WITH_CON_ATTR.

  * `restoreObjects_persistVersion`: what a version stores is read back, without the attributes that
    the version does not know.
  * `restoreInner_outcome`: the trees that come out of a restore.
-/
import Anjay.Commons.Persistence
import Anjay.AttrStorage.CleanUp

namespace Anjay.AttrStorage

open Lib Persistence

variable {σ : Type}

/-! ## 1. The handlers -/

/-- `as_persistence_version_t`. -/
def version_1_3_1 : UInt8 := 0
def version_1_0_0 : UInt8 := 1
def version_2_0_5 : UInt8 := 2
def version_2_1_0 : UInt8 := 3
def version_2_2_0 : UInt8 := 4
def versionCurrent : UInt8 := version_2_2_0

/-- `SUPPORTED_VERSIONS_ARRAY`. -/
def supportedVersions : List UInt8 := [version_1_3_1, version_1_0_0, version_2_0_5, version_2_1_0, version_2_2_0]

/-- `MAGIC`. -/
def magic : List UInt8 := [0x46, 0x41, 0x53]

/-- `as_resource_instance_entry_t`. -/
structure ResourceInstanceEntry where
  riid : Id
  attrs : List (SsidAttrs InternalRAttrs)
  deriving DecidableEq, Repr

/-- A zeroed element, as `AVS_LIST_NEW_BUFFER` makes it. -/
def zeroOiAttrs : SsidAttrs InternalOiAttrs := ⟨0, ⟨⟨0, 0, 0, 0⟩, .non⟩⟩
def zeroRAttrs : SsidAttrs InternalRAttrs := ⟨0, ⟨⟨⟨0, 0, 0, 0⟩, 0, 0, 0⟩, .non⟩⟩

/-- `handle_dm_oi_attributes`. -/
def handleDmOiAttributes (version : UInt8) : Handler OiAttributes :=
  andThen (onField OiAttributes.minPeriod (fun x a => { a with minPeriod := x }) persistenceU32) <|
  andThen (onField OiAttributes.maxPeriod (fun x a => { a with maxPeriod := x }) persistenceU32) <|
  if version_2_2_0 ≤ version then
    andThen (onField OiAttributes.minEvalPeriod (fun x a => { a with minEvalPeriod := x }) persistenceU32)
      (onField OiAttributes.maxEvalPeriod (fun x a => { a with maxEvalPeriod := x }) persistenceU32)
  else onRestore fun a => { a with minEvalPeriod := periodNone, maxEvalPeriod := periodNone }

/-- `handle_dm_r_attributes`. -/
def handleDmRAttributes (version : UInt8) : Handler RAttributes :=
  andThen (onField RAttributes.common (fun x a => { a with common := x }) (handleDmOiAttributes version)) <|
  andThen (onField RAttributes.greaterThan (fun x a => { a with greaterThan := x }) persistenceDouble) <|
  andThen (onField RAttributes.lessThan (fun x a => { a with lessThan := x }) persistenceDouble)
    (onField RAttributes.step (fun x a => { a with step := x }) persistenceDouble)

/-- The `int8_t` that stands for the enumeration constant, as a byte. -/
def ConAttr.toByte : ConAttr → UInt8
  | default => 0xFF
  | non => 0
  | con => 1

/-- The `switch` of `handle_custom_attributes`. -/
def ConAttr.ofByte (b : UInt8) : Option ConAttr :=
  if b = 0xFF then some default else if b = 0 then some non else if b = 1 then some con else none

/-- `handle_custom_attributes`. -/
def handleCustomAttributes (version : UInt8) : Handler InternalOiAttrs := fun ctx attrs => do
  let (ctx, con) ←
    if version_2_0_5 ≤ version then persistenceU8 ctx attrs.con.toByte
    else .ok (ctx, ConAttr.default.toByte)
  match ConAttr.ofByte con with
  | some value => return (ctx, { attrs with con := value })
  | none => .error (.errno .EBADMSG)

/-- `handle_dm_internal_oi_attrs`. -/
def handleDmInternalOiAttrs (version : UInt8) : Handler InternalOiAttrs :=
  andThen (onField InternalOiAttrs.standard (fun x a => { a with standard := x }) (handleDmOiAttributes version))
    (handleCustomAttributes version)

/-- `handle_dm_internal_r_attrs`. -/
def handleDmInternalRAttrs (version : UInt8) : Handler InternalRAttrs :=
  andThen (onField InternalRAttrs.standard (fun x a => { a with standard := x }) (handleDmRAttributes version))
    (onField InternalRAttrs.oi (fun x a => ⟨{ a.standard with common := x.standard }, x.con⟩)
      (handleCustomAttributes version))

/-- `handle_default_attrs`. -/
def handleDefaultAttrs (version : UInt8) : Handler (SsidAttrs InternalOiAttrs) :=
  andThen (onField SsidAttrs.ssid (fun x a => { a with ssid := x }) persistenceU16)
    (onField SsidAttrs.attrs (fun x a => { a with attrs := x }) (handleDmInternalOiAttrs version))

/-- `handle_resource_attrs`. -/
def handleResourceAttrs (version : UInt8) : Handler (SsidAttrs InternalRAttrs) :=
  andThen (onField SsidAttrs.ssid (fun x a => { a with ssid := x }) persistenceU16)
    (onField SsidAttrs.attrs (fun x a => { a with attrs := x }) (handleDmInternalRAttrs version))

/-- `handle_resource_instance_entry`. -/
def handleResourceInstanceEntry (version : UInt8) : Handler ResourceInstanceEntry :=
  andThen (onField ResourceInstanceEntry.riid (fun x r => { r with riid := x }) persistenceU16)
    (onField ResourceInstanceEntry.attrs (fun x r => { r with attrs := x })
      (persistenceList zeroRAttrs (handleResourceAttrs version)))

/-- `handle_resource_entry`: an empty list of Resource Instances is stored, and any is read and dropped. -/
def handleResourceEntry (version : UInt8) : Handler ResourceEntry :=
  andThen (onField ResourceEntry.rid (fun x r => { r with rid := x }) persistenceU16) <|
  andThen (onField ResourceEntry.attrs (fun x r => { r with attrs := x })
    (persistenceList zeroRAttrs (handleResourceAttrs version))) <|
  if version_2_1_0 ≤ version then
    onField (fun _ => []) (fun _ r => r) (persistenceList ⟨0, []⟩ (handleResourceInstanceEntry version))
  else fun ctx r => .ok (ctx, r)

/-- `handle_instance_entry`. -/
def handleInstanceEntry (version : UInt8) : Handler InstanceEntry :=
  andThen (onField InstanceEntry.iid (fun x i => { i with iid := x }) persistenceU16) <|
  andThen (onField InstanceEntry.defaultAttrs (fun x i => { i with defaultAttrs := x })
    (persistenceList zeroOiAttrs (handleDefaultAttrs version)))
    (onField InstanceEntry.resources (fun x i => { i with resources := x })
      (persistenceList ⟨0, []⟩ (handleResourceEntry version)))

/-- `handle_object`. -/
def handleObject (version : UInt8) : Handler ObjectEntry :=
  andThen (onField ObjectEntry.oid (fun x o => { o with oid := x }) persistenceU16) <|
  andThen (onField ObjectEntry.defaultAttrs (fun x o => { o with defaultAttrs := x })
    (persistenceList zeroOiAttrs (handleDefaultAttrs version)))
    (onField ObjectEntry.instances (fun x o => { o with instances := x })
      (persistenceList ⟨0, [], []⟩ (handleInstanceEntry version)))

/-! ## 2. Storing and reading -/

/-- The stream that the handlers write for a version. -/
def persistVersion (version : UInt8) (objects : List ObjectEntry) : Except AvsError (List UInt8) := do
  let ctx ← persistenceMagic magic (.store [])
  let (ctx, version) ← persistenceVersion supportedVersions ctx version
  let (ctx, _) ← persistenceList ⟨0, [], []⟩ (handleObject version) ctx objects
  match ctx with
  | .store written => return written
  | .restore _ => .error .eof

/-- `_anjay_attr_storage_persist_inner`; in the current version the handlers leave the tree as it is. -/
def persistInner (objects : List ObjectEntry) : Except AvsError (List UInt8) :=
  persistVersion versionCurrent objects

/-- The part of `_anjay_attr_storage_restore_inner` that reads the stream. -/
def restoreObjects (stream : List UInt8) : Except AvsError (List ObjectEntry) := do
  let ctx ← persistenceMagic magic (.restore stream)
  let (ctx, version) ← persistenceVersion supportedVersions ctx 0
  let (_, objects) ← persistenceList ⟨0, [], []⟩ (handleObject version) ctx []
  return objects

/-! ## 3. Checks after reading -/

/-- The loops of `is_attrs_list_sane` and the functions after it; `last` starts with -1. -/
def isListSane {α : Type} (id : α → Id) (ok : α → Bool) : Int → List α → Bool
  | _, [] => true
  | last, a :: as => if ((id a).val : Int) ≤ last ∨ ok a = false then false else isListSane id ok (id a).val as

/-- `is_attrs_list_sane`. -/
def isAttrsListSane {α : Type} (isEmpty : α → Bool) : List (SsidAttrs α) → Bool :=
  isListSane SsidAttrs.ssid (fun a => !isEmpty a.attrs) (-1)

/-- `is_resources_list_sane`. -/
def isResourcesListSane : List ResourceEntry → Bool :=
  isListSane ResourceEntry.rid (fun r => isAttrsListSane resourceAttributesEmpty r.attrs) (-1)

/-- `is_instances_list_sane`. -/
def isInstancesListSane : List InstanceEntry → Bool :=
  isListSane InstanceEntry.iid
    (fun i => isAttrsListSane attributesEmpty i.defaultAttrs && isResourcesListSane i.resources) (-1)

/-- `is_object_sane`. -/
def isObjectSane (o : ObjectEntry) : Bool :=
  isAttrsListSane attributesEmpty o.defaultAttrs && isInstancesListSane o.instances

/-- `is_attr_storage_sane`. -/
def isAttrStorageSane : List ObjectEntry → Bool := isListSane ObjectEntry.oid isObjectSane (-1)

/-- `clear_nonexistent_rids`: the Instances that are left, if no handler fails. -/
def clearNonexistentRids (client : Client σ) (obj : Dm.ObjectDef σ) :
    List InstanceEntry → Option (List InstanceEntry)
  | [] => some []
  | i :: is =>
      let r := removeAbsentResources client (some obj) i
      if r.1.1 ≠ 0 then none else (clearNonexistentRids client obj is).map (r.2.toList ++ ·)

/-- `clear_nonexistent_entries`. -/
def clearNonexistentEntries (client : Client σ) : List ObjectEntry → Except AvsError (List ObjectEntry)
  | [] => .ok []
  | o :: os =>
      match client.findObject o.oid with
      | none => clearNonexistentEntries client os
      | some obj =>
          let r := obj.foreachInstance client.state (fun iid w => (0, removeAbsentInstancesClb iid w))
            (Walk.start o.instances)
          if r.1 ≠ 0 then .error (.errno .EPROTO)
          else
            match clearNonexistentRids client obj r.2.finish.list with
            | none => .error (.errno .EPROTO)
            | some instances =>
                match clearNonexistentEntries client os with
                | .error err => .error err
                | .ok os => .ok ((removeIfEmpty ObjectEntry.empty { o with instances := instances }).toList ++ os)

/-- `_anjay_attr_storage_restore_inner`: the error, and the tree; the callers set the modified flag. -/
def restoreInner (client : Client σ) (stream : List UInt8) : AvsError × List ObjectEntry :=
  -- an empty stream is treated as success
  if stream = [] then (.ok, [])
  else
    match restoreObjects stream with
    | .error err => (err, [])
    | .ok objects =>
        if isAttrStorageSane objects = false then (.errno .EBADMSG, [])
        else
          match clearNonexistentEntries client objects with
          | .error err => (err, [])
          | .ok objects => (.ok, objects)

/-! ## 4. What a version knows -/

/-- The attributes that a version does not know are not set. -/
def OiAttributes.inVersion (version : UInt8) (a : OiAttributes) : OiAttributes :=
  if version_2_2_0 ≤ version then a else { a with minEvalPeriod := periodNone, maxEvalPeriod := periodNone }

def ConAttr.inVersion (version : UInt8) (a : ConAttr) : ConAttr := if version_2_0_5 ≤ version then a else default

def InternalOiAttrs.inVersion (version : UInt8) (a : InternalOiAttrs) : InternalOiAttrs :=
  ⟨a.standard.inVersion version, a.con.inVersion version⟩

def InternalRAttrs.inVersion (version : UInt8) (a : InternalRAttrs) : InternalRAttrs :=
  ⟨{ a.standard with common := a.standard.common.inVersion version }, a.con.inVersion version⟩

def SsidAttrs.map {α : Type} (f : α → α) (a : SsidAttrs α) : SsidAttrs α := { a with attrs := f a.attrs }

def ResourceEntry.inVersion (version : UInt8) (r : ResourceEntry) : ResourceEntry :=
  { r with attrs := r.attrs.map (SsidAttrs.map (InternalRAttrs.inVersion version)) }

def InstanceEntry.inVersion (version : UInt8) (i : InstanceEntry) : InstanceEntry :=
  { i with
    defaultAttrs := i.defaultAttrs.map (SsidAttrs.map (InternalOiAttrs.inVersion version))
    resources := i.resources.map (ResourceEntry.inVersion version) }

/-- The entry as a version knows it. -/
def ObjectEntry.inVersion (version : UInt8) (o : ObjectEntry) : ObjectEntry :=
  { o with
    defaultAttrs := o.defaultAttrs.map (SsidAttrs.map (InternalOiAttrs.inVersion version))
    instances := o.instances.map (InstanceEntry.inVersion version) }

section Transfers

variable (version : UInt8)

theorem transfers_oiAttributes (a new : OiAttributes) :
    ∃ bytes, Transfers (handleDmOiAttributes version) a a new (a.inVersion version) bytes := by
  unfold handleDmOiAttributes OiAttributes.inVersion
  split
  · exact ⟨_, (transfers_u32 _ _).onField.andThen ((transfers_u32 _ _).onField.andThen
      ((transfers_u32 _ _).onField.andThen (transfers_u32 _ _).onField))⟩
  · exact ⟨_, (transfers_u32 _ _).onField.andThen ((transfers_u32 _ _).onField.andThen
      (transfers_onRestore _ _ _))⟩

theorem transfers_rAttributes (a new : RAttributes) :
    ∃ bytes, Transfers (handleDmRAttributes version) a a new
      { a with common := a.common.inVersion version } bytes := by
  obtain ⟨_, hcommon⟩ := transfers_oiAttributes version a.common new.common
  exact ⟨_, hcommon.onField.andThen ((transfers_double _ _).onField.andThen
    ((transfers_double _ _).onField.andThen (transfers_double _ _).onField))⟩

theorem ConAttr.ofByte_toByte (c : ConAttr) : ofByte c.toByte = some c := by
  cases c <;> rfl

theorem transfers_customAttributes (a new : InternalOiAttrs) :
    ∃ bytes, Transfers (handleCustomAttributes version) a { a with con := a.con.inVersion version } new
      { new with con := a.con.inVersion version } bytes := by
  unfold handleCustomAttributes ConAttr.inVersion
  by_cases hv : version_2_0_5 ≤ version
  · have hbyte := transfers_u8 a.con.toByte new.con.toByte
    simp only [if_pos hv]
    refine ⟨beBytes 1 a.con.toByte.toNat, fun written => ?_, fun rest => ?_⟩
    · rw [hbyte.store]
      show (match ConAttr.ofByte a.con.toByte with | some c => _ | none => _) = _
      rw [ConAttr.ofByte_toByte]
      rfl
    · rw [hbyte.restore]
      show (match ConAttr.ofByte a.con.toByte with | some c => _ | none => _) = _
      rw [ConAttr.ofByte_toByte]
      rfl
  · simp only [if_neg hv]
    exact ⟨[], fun written => by rw [List.append_nil]; rfl, fun rest => rfl⟩

theorem transfers_internalOiAttrs (a new : InternalOiAttrs) :
    ∃ a' bytes, Transfers (handleDmInternalOiAttrs version) a a' new (a.inVersion version) bytes := by
  obtain ⟨_, hstandard⟩ := transfers_oiAttributes version a.standard new.standard
  obtain ⟨_, hcustom⟩ := transfers_customAttributes version a
    { new with standard := a.standard.inVersion version }
  exact ⟨_, _, hstandard.onField.andThen hcustom⟩

theorem transfers_internalRAttrs (a new : InternalRAttrs) :
    ∃ a' bytes, Transfers (handleDmInternalRAttrs version) a a' new (a.inVersion version) bytes := by
  obtain ⟨_, hstandard⟩ := transfers_rAttributes version a.standard new.standard
  obtain ⟨_, hcustom⟩ := transfers_customAttributes version a.oi ⟨a.standard.common.inVersion version, new.con⟩
  exact ⟨_, _, hstandard.onField.andThen (Transfers.onField
    (n := InternalRAttrs.mk { a.standard with common := a.standard.common.inVersion version } new.con) hcustom)⟩

theorem transfers_defaultAttrs (a new : SsidAttrs InternalOiAttrs) :
    ∃ a' bytes, Transfers (handleDefaultAttrs version) a a' new
      (a.map (InternalOiAttrs.inVersion version)) bytes := by
  obtain ⟨_, _, hattrs⟩ := transfers_internalOiAttrs version a.attrs new.attrs
  exact ⟨_, _, (transfers_u16 _ _).onField.andThen (Transfers.onField (n := { new with ssid := a.ssid }) hattrs)⟩

theorem transfers_resourceAttrs (a new : SsidAttrs InternalRAttrs) :
    ∃ a' bytes, Transfers (handleResourceAttrs version) a a' new
      (a.map (InternalRAttrs.inVersion version)) bytes := by
  obtain ⟨_, _, hattrs⟩ := transfers_internalRAttrs version a.attrs new.attrs
  exact ⟨_, _, (transfers_u16 _ _).onField.andThen (Transfers.onField (n := { new with ssid := a.ssid }) hattrs)⟩

/-- No more entries than there are ids. -/
theorem Level.length_lt {α : Type} {key : α → Id} {ok : α → Prop} {as : List α} (h : Level key ok as) :
    as.length < 2 ^ 32 := by
  have hnodup : (as.map key).Nodup := List.pairwise_map.mpr (h.sorted.imp fun hlt => hlt.ne)
  have hle := hnodup.length_le_card
  rw [List.length_map, Fintype.card_fin] at hle
  omega

theorem transfers_resource {r : ResourceEntry} (h : r.Sane) :
    ∃ r' bytes, Transfers (handleResourceEntry version) r r' ⟨0, []⟩ (r.inVersion version) bytes := by
  obtain ⟨_, _, hattrs⟩ := transfers_list zeroRAttrs
    (fun a _ => transfers_resourceAttrs version a zeroRAttrs) (Level.length_lt h)
  unfold handleResourceEntry
  split
  · have hnone : ∀ r ∈ ([] : List ResourceInstanceEntry), ∃ r' bytes,
        Transfers (handleResourceInstanceEntry version) r r' ⟨0, []⟩ (id r) bytes :=
      fun r hr => absurd hr List.not_mem_nil
    obtain ⟨_, _, hinstances⟩ := transfers_list _ hnone (by decide)
    exact ⟨_, _, (transfers_u16 _ _).onField.andThen (hattrs.onField.andThen hinstances.onField)⟩
  · exact ⟨_, _, (transfers_u16 _ _).onField.andThen (hattrs.onField.andThen
      (⟨fun _ => by rw [List.append_nil], fun _ => rfl⟩ : Transfers _ _ _ _ _ []))⟩

theorem transfers_instance {i : InstanceEntry} (h : i.Sane ResourceEntry.Sane) :
    ∃ i' bytes, Transfers (handleInstanceEntry version) i i' ⟨0, [], []⟩ (i.inVersion version) bytes := by
  obtain ⟨_, _, hattrs⟩ := transfers_list zeroOiAttrs
    (fun a _ => transfers_defaultAttrs version a zeroOiAttrs) (Level.length_lt h.defaultAttrs)
  obtain ⟨_, _, hresources⟩ := transfers_list ⟨0, []⟩
    (fun r hr => transfers_resource version (h.resources.all r hr)) (Level.length_lt h.resources)
  exact ⟨_, _, (transfers_u16 _ _).onField.andThen (hattrs.onField.andThen hresources.onField)⟩

theorem transfers_object {o : ObjectEntry} (h : o.Sane ResourceEntry.Sane) :
    ∃ o' bytes, Transfers (handleObject version) o o' ⟨0, [], []⟩ (o.inVersion version) bytes := by
  obtain ⟨_, _, hattrs⟩ := transfers_list zeroOiAttrs
    (fun a _ => transfers_defaultAttrs version a zeroOiAttrs) (Level.length_lt h.defaultAttrs)
  obtain ⟨_, _, hinstances⟩ := transfers_list ⟨0, [], []⟩
    (fun i hi => transfers_instance version (h.instances.all i hi).toSane) (Level.length_lt h.instances)
  exact ⟨_, _, (transfers_u16 _ _).onField.andThen (hattrs.onField.andThen hinstances.onField)⟩

end Transfers

/-- **What a version stores is read back**, without the attributes that it does not know. -/
theorem restoreObjects_persistVersion {version : UInt8} (hv : version ∈ supportedVersions)
    {objects : List ObjectEntry} (h : Tidy ResourceEntry.Sane objects) :
    ∃ bytes, persistVersion version objects = .ok bytes ∧ bytes ≠ [] ∧
      restoreObjects bytes = .ok (objects.map (ObjectEntry.inVersion version)) := by
  obtain ⟨_, bytes, hlist⟩ := transfers_list ⟨0, [], []⟩
    (fun o ho => transfers_object version (h.all o ho).toSane) (Level.length_lt h)
  have hversion := transfers_version hv 0
  refine ⟨magic ++ (beBytes 1 version.toNat ++ bytes), ?_, List.cons_ne_nil _ _, ?_⟩
  · unfold persistVersion
    show (persistenceVersion supportedVersions (.store ([] ++ magic)) version >>= fun r => _) = _
    rw [hversion.store]
    show (persistenceList ⟨0, [], []⟩ (handleObject version) (.store _) objects >>= fun r => _) = _
    rw [hlist.store, List.nil_append, List.append_assoc]
    rfl
  · unfold restoreObjects
    rw [persistenceMagic_restore]
    show (persistenceVersion supportedVersions (.restore _) 0 >>= fun r => _) = _
    rw [hversion.restore]
    show (persistenceList ⟨0, [], []⟩ (handleObject version) (.restore bytes) [] >>= fun r => _) = _
    rw [← List.append_nil bytes, hlist.restore]
    rfl

/-! ## 5. What the checks let through -/

/-- What `is_attr_storage_sane` asks for: entries may be empty, sets of attributes may not. -/
def SaneObjects (objects : List ObjectEntry) : Prop :=
  Level ObjectEntry.oid (fun o => AttrsSane attributesEmpty o.defaultAttrs ∧
    Level InstanceEntry.iid (InstanceEntry.Sane ResourceEntry.Sane) o.instances) objects

theorem isListSane_iff {α : Type} {id : α → Id} {ok : α → Bool} : ∀ {as : List α} {last : Int},
    isListSane id ok last as = true ↔ Level id (fun a => ok a = true) as ∧ ∀ a ∈ as, last < (id a).val
  | [], _ => ⟨fun _ => ⟨.nil, fun _ h => absurd h List.not_mem_nil⟩, fun _ => rfl⟩
  | a :: as, last => by
      rw [isListSane, Level.cons_iff, List.forall_mem_cons]
      split
      · next hbad =>
        refine ⟨fun h => absurd h Bool.false_ne_true, fun ⟨⟨_, hok, _⟩, hlast, _⟩ => ?_⟩
        rcases hbad with hle | hnot
        · omega
        · rw [hok] at hnot
          cases hnot
      · next hgood =>
        obtain ⟨hlast, hok⟩ := not_or.mp hgood
        rw [isListSane_iff]
        constructor
        · intro ⟨hlevel, hall⟩
          refine ⟨⟨fun b hb => Fin.lt_def.mpr (Int.ofNat_lt.mp (hall b hb)), by simpa using hok, hlevel⟩,
            by omega, fun b hb => ?_⟩
          have := hall b hb
          omega
        · intro ⟨⟨hlt, _, hlevel⟩, _⟩
          exact ⟨hlevel, fun b hb => Int.ofNat_lt.mpr (Fin.lt_def.mp (hlt b hb))⟩

theorem isListSane_start {α : Type} {id : α → Id} {ok : α → Bool} {as : List α} :
    isListSane id ok (-1) as = true ↔ Level id (fun a => ok a = true) as := by
  rw [isListSane_iff]
  exact and_iff_left fun a _ => by omega

theorem Level.congr {α : Type} {key : α → Id} {ok ok' : α → Prop} {as : List α} (h : ∀ a, ok a ↔ ok' a) :
    Level key ok as ↔ Level key ok' as :=
  ⟨fun hl => hl.mono fun a => (h a).mp, fun hl => hl.mono fun a => (h a).mpr⟩

theorem isAttrsListSane_iff {α : Type} {isEmpty : α → Bool} {as : List (SsidAttrs α)} :
    isAttrsListSane isEmpty as = true ↔ AttrsSane isEmpty as :=
  isListSane_start.trans (Level.congr fun _ => by simp)

theorem isAttrStorageSane_iff {objects : List ObjectEntry} :
    isAttrStorageSane objects = true ↔ SaneObjects objects := by
  refine isListSane_start.trans (Level.congr fun o => ?_)
  rw [isObjectSane, Bool.and_eq_true, isAttrsListSane_iff]
  refine and_congr_right fun _ => isListSane_start.trans (Level.congr fun i => ?_)
  rw [Bool.and_eq_true, isAttrsListSane_iff]
  refine Iff.trans (and_congr_right fun _ => isListSane_start.trans (Level.congr fun r => isAttrsListSane_iff)) ?_
  exact ⟨fun h => ⟨h.1, h.2⟩, fun h => ⟨h.defaultAttrs, h.resources⟩⟩

/-- The entry without what is gone, if anything is left of it. -/
def ObjectEntry.prune (client : Client σ) (o : ObjectEntry) : Option ObjectEntry :=
  if (client.findObject o.oid).isNone then none
  else removeIfEmpty ObjectEntry.empty
    { o with instances :=
        ((o.restrict (client.instanceIds o.oid)).instances.filterMap (InstanceEntry.prune client o.oid)) }

section Prune

variable {client : Client σ}

theorem clearNonexistentRids_eq {oid : Id} {obj : Dm.ObjectDef σ} (hobj : client.findObject oid = some obj) :
    ∀ {instances instances' : List InstanceEntry},
      (∀ i ∈ instances, Sorted ResourceEntry.rid i.resources) →
      clearNonexistentRids client obj instances = some instances' →
        instances' = instances.filterMap (InstanceEntry.prune client oid)
  | [], _, _, h => (Option.some.inj h).symm
  | i :: is, instances', hs, h => by
      obtain ⟨hi, his⟩ := List.forall_mem_cons.mp hs
      rw [clearNonexistentRids] at h
      split at h
      · cases h
      next hret =>
      obtain ⟨is', hrest, rfl⟩ := Option.map_eq_some_iff.mp h
      rw [removeAbsentResources_prune hobj hi (not_not.mp hret), clearNonexistentRids_eq hobj his hrest,
        filterMap_cons_toList]

theorem clearNonexistentRids_of_lists (hc : client.Lists) {oid : Id} {obj : Dm.ObjectDef σ}
    (hobj : client.findObject oid = some obj) : ∀ {instances : List InstanceEntry},
      (∀ i ∈ instances, i.iid ∈ client.instanceIds oid) →
      ∃ instances', clearNonexistentRids client obj instances = some instances'
  | [], _ => ⟨[], rfl⟩
  | i :: is, h => by
      obtain ⟨hi, his⟩ := List.forall_mem_cons.mp h
      obtain ⟨is', hrest⟩ := clearNonexistentRids_of_lists hc hobj his
      rw [clearNonexistentRids, if_neg (not_not.mpr (removeAbsentResources_ret hc hobj hi)), hrest]
      exact ⟨_, rfl⟩

/-- The walk over the Instances that the list handler emits. -/
theorem foreachInstance_restrict {o : ObjectEntry} {obj : Dm.ObjectDef σ}
    (hobj : client.findObject o.oid = some obj) (hs : Sorted InstanceEntry.iid o.instances)
    (hasc : Dm.Ascending id (-1) (obj.listInstances client.state).1) (hcode : 0 ≤ (obj.listInstances client.state).2) :
    (obj.foreachInstance client.state (fun iid w => (0, removeAbsentInstancesClb iid w)) (Walk.start o.instances)).1
        = 0 ∧
      (obj.foreachInstance client.state (fun iid w => (0, removeAbsentInstancesClb iid w))
        (Walk.start o.instances)).2.finish.list = (o.restrict (client.instanceIds o.oid)).instances := by
  have hids : client.instanceIds o.oid = (obj.listInstances client.state).1 := by
    rw [Client.instanceIds, hobj]
    rfl
  have hforeach : obj.foreachInstance client.state (fun iid w => (0, removeAbsentInstancesClb iid w))
      (Walk.start o.instances) = (0, (client.instanceIds o.oid).foldl
        (fun w iid => w.visit InstanceEntry.iid iid true) (Walk.start o.instances)) := by
    rw [hids]
    exact Dm.foreach_foldl (fun _ _ => rfl) hasc hcode _
  rw [hforeach]
  exact ⟨rfl, foldl_visit_instances (hids ▸ hasc.2) hs⟩

/-- **Where no handler fails, exactly what is gone is cleared, and what is empty then.** -/
theorem clearNonexistentEntries_eq : ∀ {objects objects' : List ObjectEntry}, SaneObjects objects →
    clearNonexistentEntries client objects = .ok objects' → objects' = objects.filterMap (ObjectEntry.prune client)
  | [], _, _, h => (Except.ok.inj h).symm
  | o :: os, objects', hs, h => by
      obtain ⟨_, ⟨_, hinstances⟩, hos⟩ := Level.cons_iff.mp hs
      rw [clearNonexistentEntries] at h
      cases hobj : client.findObject o.oid with
      | none =>
          rw [hobj] at h
          have hp : o.prune client = none := if_pos (by rw [hobj]; rfl)
          rw [List.filterMap_cons_none hp]
          exact clearNonexistentEntries_eq hos h
      | some obj =>
          rw [hobj] at h
          dsimp only at h
          split at h
          · cases h
          next hret =>
          obtain ⟨hasc, hcode⟩ := Dm.ascending_of_foreach (fun _ _ => rfl) (not_not.mp hret)
          rw [(foreachInstance_restrict hobj hinstances.sorted hasc hcode).2] at h
          split at h
          · cases h
          next instances hrids =>
          split at h
          · cases h
          next os' hos' =>
          cases h
          have hresources := clearNonexistentRids_eq hobj
            (fun i hi => (hinstances.all i (List.mem_of_mem_filter hi)).resources.sorted) hrids
          rw [clearNonexistentEntries_eq hos hos', hresources, filterMap_cons_toList, ObjectEntry.prune,
            if_neg (by rw [hobj]; exact Bool.false_ne_true)]
          rfl

/-- Where the list handlers succeed, the entries can be cleared. -/
theorem clearNonexistentEntries_of_lists (hc : client.Lists) : ∀ {objects : List ObjectEntry},
    SaneObjects objects → ∃ objects', clearNonexistentEntries client objects = .ok objects'
  | [], _ => ⟨[], rfl⟩
  | o :: os, hs => by
      obtain ⟨_, ⟨_, hinstances⟩, hos⟩ := Level.cons_iff.mp hs
      obtain ⟨os', hrest⟩ := clearNonexistentEntries_of_lists hc hos
      rw [clearNonexistentEntries]
      cases hobj : client.findObject o.oid with
      | none => exact ⟨os', hrest⟩
      | some obj =>
          obtain ⟨hasc, hcode⟩ := hc.instances o.oid obj hobj
          obtain ⟨hret, hlist⟩ := foreachInstance_restrict hobj hinstances.sorted hasc hcode
          have hthere : ∀ i ∈ (o.restrict (client.instanceIds o.oid)).instances, i.iid ∈ client.instanceIds o.oid :=
            fun i hi => List.contains_iff_mem.mp (List.mem_filter.mp hi).2
          obtain ⟨instances', hrids⟩ := clearNonexistentRids_of_lists hc hobj hthere
          dsimp only
          rw [if_neg (not_not.mpr hret), hlist, hrids, hrest]
          exact ⟨_, rfl⟩

/-- Everything that has an entry in the tree is in the data model. -/
def Client.Holds (client : Client σ) (objects : List ObjectEntry) : Prop :=
  ∀ o ∈ objects, (client.findObject o.oid).isSome = true ∧ ∀ i ∈ o.instances, i.iid ∈ client.instanceIds o.oid ∧
    ∀ r ∈ i.resources, client.resourcePresent o.oid i.iid r.rid = true

variable {P : ResourceEntry → Prop}

theorem InstanceEntry.prune_eq_self {oid : Id} {i : InstanceEntry} (h : i.empty = false)
    (hpresent : ∀ r ∈ i.resources, client.resourcePresent oid i.iid r.rid = true) : i.prune client oid = some i := by
  rw [prune, List.filter_eq_self.mpr hpresent]
  exact removeIfEmpty_eq_some.mpr ⟨h, rfl⟩

theorem ObjectEntry.prune_eq_self {o : ObjectEntry} (h : o.Tidy P) (hfound : (client.findObject o.oid).isSome = true)
    (hinstances : ∀ i ∈ o.instances, i.iid ∈ client.instanceIds o.oid ∧
      ∀ r ∈ i.resources, client.resourcePresent o.oid i.iid r.rid = true) : o.prune client = some o := by
  have hrestrict : (o.restrict (client.instanceIds o.oid)).instances = o.instances :=
    List.filter_eq_self.mpr fun i hi => List.contains_iff_mem.mpr (hinstances i hi).1
  have hprune : o.instances.filterMap (InstanceEntry.prune client o.oid) = o.instances := by
    rw [List.filterMap_congr fun i hi =>
      InstanceEntry.prune_eq_self (h.instances.all i hi).filled (hinstances i hi).2]
    exact List.filterMap_some
  rw [prune, if_neg (by rw [Option.isNone_eq_false_iff.mpr hfound]; exact Bool.false_ne_true), hrestrict, hprune]
  exact removeIfEmpty_eq_some.mpr ⟨h.filled, rfl⟩

/-- **Where everything is there, nothing is cleared.** -/
theorem filterMap_prune_eq_self {objects : List ObjectEntry} (h : Tidy P objects) (hh : client.Holds objects) :
    objects.filterMap (ObjectEntry.prune client) = objects := by
  rw [List.filterMap_congr fun o ho => ObjectEntry.prune_eq_self (h.all o ho) (hh o ho).1 (hh o ho).2]
  exact List.filterMap_some

/-- `Q` holds of the Resources of the tree that are in the data model. -/
def Client.PresentResources (client : Client σ) (Q : ResourceEntry → Prop) (objects : List ObjectEntry) : Prop :=
  ∀ o ∈ objects, ∀ i ∈ o.instances, i.iid ∈ client.instanceIds o.oid →
    ∀ r ∈ i.resources, client.resourcePresent o.oid i.iid r.rid = true → Q r

theorem InstanceEntry.prune_tidy {oid : Id} {i i' : InstanceEntry} (h : i.Sane ResourceEntry.Sane)
    (hP : ∀ r ∈ i.resources, client.resourcePresent oid i.iid r.rid = true → P r)
    (hi : i.prune client oid = some i') : i'.iid = i.iid ∧ i'.Tidy P := by
  obtain ⟨hne, rfl⟩ := removeIfEmpty_eq_some.mp hi
  refine ⟨rfl, ⟨h.defaultAttrs, (h.resources.sublist List.filter_sublist).sorted, fun r hr => ?_⟩, hne⟩
  obtain ⟨hmem, hpresent⟩ := List.mem_filter.mp hr
  exact hP r hmem hpresent

theorem ObjectEntry.prune_tidy {o o' : ObjectEntry} (hattrs : AttrsSane attributesEmpty o.defaultAttrs)
    (hinstances : Level InstanceEntry.iid (InstanceEntry.Sane ResourceEntry.Sane) o.instances)
    (hP : ∀ i ∈ o.instances, i.iid ∈ client.instanceIds o.oid →
      ∀ r ∈ i.resources, client.resourcePresent o.oid i.iid r.rid = true → P r)
    (ho : o.prune client = some o') : o'.oid = o.oid ∧ o'.Tidy P := by
  unfold prune at ho
  split at ho
  · cases ho
  obtain ⟨hne, rfl⟩ := removeIfEmpty_eq_some.mp ho
  have hthere : Level InstanceEntry.iid (fun i => i.Sane ResourceEntry.Sane ∧
      ∀ r ∈ i.resources, client.resourcePresent o.oid i.iid r.rid = true → P r)
      (o.restrict (client.instanceIds o.oid)).instances := by
    refine ⟨(hinstances.sublist List.filter_sublist).sorted, fun i hi => ?_⟩
    obtain ⟨hmem, hin⟩ := List.mem_filter.mp hi
    exact ⟨hinstances.all i hmem, hP i hmem (List.contains_iff_mem.mp hin)⟩
  exact ⟨rfl, ⟨hattrs, hthere.filterMap fun i i' hi => InstanceEntry.prune_tidy hi.1 hi.2⟩, hne⟩

/-- What is left is tidy, with what holds of the Resources that are there. -/
theorem filterMap_prune_tidy {objects : List ObjectEntry} (h : SaneObjects objects)
    (hP : client.PresentResources P objects) : Tidy P (objects.filterMap (ObjectEntry.prune client)) := by
  have hall : Level ObjectEntry.oid (fun o => (AttrsSane attributesEmpty o.defaultAttrs ∧
      Level InstanceEntry.iid (InstanceEntry.Sane ResourceEntry.Sane) o.instances) ∧
      ∀ i ∈ o.instances, i.iid ∈ client.instanceIds o.oid →
        ∀ r ∈ i.resources, client.resourcePresent o.oid i.iid r.rid = true → P r) objects :=
    ⟨h.sorted, fun o ho => ⟨h.all o ho, hP o ho⟩⟩
  exact hall.filterMap fun o o' ho => ObjectEntry.prune_tidy ho.1.1 ho.1.2 ho.2

end Prune

/-! ## 6. What is restored -/

theorem Tidy.saneObjects {P : ResourceEntry → Prop} (hP : ∀ r, P r → r.Sane) {objects : List ObjectEntry}
    (h : Tidy P objects) : SaneObjects objects :=
  Level.mono h fun _ ho => ⟨ho.defaultAttrs, ho.instances.mono fun _ hi => ⟨hi.defaultAttrs, hi.resources.mono hP⟩⟩

section Restore

variable {client : Client σ} {bytes : List UInt8} {objects : List ObjectEntry}

/-- A tidy tree of entities that are all there is restored as it was read. -/
theorem restoreInner_of_tidy (hc : client.Lists) (hne : bytes ≠ []) (hread : restoreObjects bytes = .ok objects)
    (h : Tidy ResourceEntry.Sane objects) (hh : client.Holds objects) :
    restoreInner client bytes = (.ok, objects) := by
  have hsane := h.saneObjects fun _ hr => hr
  obtain ⟨objects', hclear⟩ := clearNonexistentEntries_of_lists hc hsane
  obtain rfl : objects' = objects := (clearNonexistentEntries_eq hsane hclear).trans (filterMap_prune_eq_self h hh)
  rw [restoreInner, if_neg hne, hread]
  dsimp only
  rw [if_neg (by rw [isAttrStorageSane_iff.mpr hsane]; exact Bool.true_eq_false_eq_False), hclear]

/-- **A failed restore leaves an empty tree.** -/
theorem restoreInner_error (herr : (restoreInner client bytes).1 ≠ .ok) : (restoreInner client bytes).2 = [] := by
  unfold restoreInner at herr ⊢
  split
  · rfl
  split
  · rfl
  split
  · rfl
  split
  · rfl
  · next hempty _ objects hread hsane _ objects' hclear =>
    rw [if_neg hempty, hread] at herr
    dsimp only at herr
    rw [if_neg hsane, hclear] at herr
    exact absurd rfl herr

/-- **What is restored is tidy**, from any stream. -/
theorem restoreInner_tidy {P : ResourceEntry → Prop}
    (hP : ∀ objects, restoreObjects bytes = .ok objects → SaneObjects objects → client.PresentResources P objects) :
    Tidy P (restoreInner client bytes).2 := by
  unfold restoreInner
  split
  · exact .nil
  split
  · exact .nil
  next objects hread =>
  split
  · exact .nil
  next hsane =>
  split
  · exact .nil
  next objects' hclear =>
  have hobjects := isAttrStorageSane_iff.mp (Bool.not_eq_false _ ▸ hsane)
  rw [clearNonexistentEntries_eq hobjects hclear]
  exact filterMap_prune_tidy hobjects (hP objects hread hobjects)

end Restore

/-! ## 7. Canonical trees, in every version -/

theorem OiAttributes.inVersion_current (a : OiAttributes) : a.inVersion versionCurrent = a := if_pos (by decide)

theorem InternalOiAttrs.inVersion_current (a : InternalOiAttrs) : a.inVersion versionCurrent = a := by
  rw [inVersion, OiAttributes.inVersion_current]
  rfl

theorem InternalRAttrs.inVersion_current (a : InternalRAttrs) : a.inVersion versionCurrent = a := by
  rw [inVersion, OiAttributes.inVersion_current]
  rfl

theorem map_eq_self {α : Type} {f : α → α} (h : ∀ a, f a = a) (as : List α) : as.map f = as :=
  (List.map_congr_left fun a _ => h a).trans (List.map_id as)

theorem SsidAttrs.map_eq_self {α : Type} {f : α → α} (h : ∀ a, f a = a) (a : SsidAttrs α) : a.map f = a := by
  rw [map, h]

theorem ResourceEntry.inVersion_current (r : ResourceEntry) : r.inVersion versionCurrent = r := by
  rw [inVersion, map_eq_self (SsidAttrs.map_eq_self InternalRAttrs.inVersion_current)]

theorem InstanceEntry.inVersion_current (i : InstanceEntry) : i.inVersion versionCurrent = i := by
  rw [inVersion, map_eq_self (SsidAttrs.map_eq_self InternalOiAttrs.inVersion_current),
    map_eq_self ResourceEntry.inVersion_current]

/-- The current version knows everything. -/
theorem ObjectEntry.inVersion_current (o : ObjectEntry) : o.inVersion versionCurrent = o := by
  rw [inVersion, map_eq_self (SsidAttrs.map_eq_self InternalOiAttrs.inVersion_current),
    map_eq_self InstanceEntry.inVersion_current]

/-- What is stored is read back as it was. -/
theorem restoreObjects_persistInner {objects : List ObjectEntry} (h : Tidy ResourceEntry.Sane objects) :
    ∃ bytes, persistInner objects = .ok bytes ∧ bytes ≠ [] ∧ restoreObjects bytes = .ok objects := by
  obtain ⟨bytes, hstore, hne, hread⟩ := restoreObjects_persistVersion (by decide : versionCurrent ∈ supportedVersions) h
  rw [map_eq_self ObjectEntry.inVersion_current] at hread
  exact ⟨bytes, hstore, hne, hread⟩

section Version

variable {client : Client σ} {version : UInt8} {objects : List ObjectEntry}

theorem ResourceEntry.Canonical.inVersion {r : ResourceEntry} (h : r.Canonical) (hs : (r.inVersion version).Sane) :
    (r.inVersion version).Canonical := by
  refine ⟨hs, ?_⟩
  rw [empty, ResourceEntry.inVersion, List.isEmpty_map]
  exact h.filled

theorem InstanceEntry.Tidy.inVersion {i : InstanceEntry} (h : i.Tidy ResourceEntry.Canonical)
    (hs : (i.inVersion version).Sane ResourceEntry.Sane) : (i.inVersion version).Tidy ResourceEntry.Canonical := by
  refine ⟨⟨hs.defaultAttrs, hs.resources.sorted, fun r hr => ?_⟩, ?_⟩
  · obtain ⟨r₀, hr₀, rfl⟩ := List.mem_map.mp hr
    exact (h.resources.all r₀ hr₀).inVersion (hs.resources.all _ hr)
  · rw [empty, InstanceEntry.inVersion, List.isEmpty_map, List.isEmpty_map]
    exact h.filled

/-- No entry of a canonical tree becomes empty, but sets of attributes may. -/
theorem canonical_inVersion (h : Canonical objects) :
    Canonical (objects.map (ObjectEntry.inVersion version)) ↔
      SaneObjects (objects.map (ObjectEntry.inVersion version)) := by
  refine ⟨fun hc => Tidy.saneObjects (fun r hr => hr.sane) hc, fun hs => ⟨hs.sorted, fun o ho => ?_⟩⟩
  obtain ⟨hattrs, hinstances⟩ := hs.all o ho
  obtain ⟨o₀, ho₀, rfl⟩ := List.mem_map.mp ho
  refine ⟨⟨hattrs, hinstances.sorted, fun i hi => ?_⟩, ?_⟩
  · obtain ⟨i₀, hi₀, rfl⟩ := List.mem_map.mp hi
    exact ((h.all o₀ ho₀).instances.all i₀ hi₀).inVersion (hinstances.all _ hi)
  · rw [ObjectEntry.empty, ObjectEntry.inVersion, List.isEmpty_map, List.isEmpty_map]
    exact (h.all o₀ ho₀).filled

theorem Client.Holds.inVersion (h : client.Holds objects) :
    client.Holds (objects.map (ObjectEntry.inVersion version)) := by
  intro o ho
  obtain ⟨o₀, ho₀, rfl⟩ := List.mem_map.mp ho
  obtain ⟨hfound, hinstances⟩ := h o₀ ho₀
  refine ⟨hfound, fun i hi => ?_⟩
  obtain ⟨i₀, hi₀, rfl⟩ := List.mem_map.mp hi
  obtain ⟨hin, hresources⟩ := hinstances i₀ hi₀
  refine ⟨hin, fun r hr => ?_⟩
  obtain ⟨r₀, hr₀, rfl⟩ := List.mem_map.mp hr
  exact hresources r₀ hr₀

/-- What a version has stored is restored, unless it is a set of attributes that the version does not
    know any of: then the stream is rejected. -/
theorem restoreInner_persistVersion (hc : client.Lists) (hv : version ∈ supportedVersions) (h : Canonical objects)
    (hh : client.Holds objects) : ∃ bytes, persistVersion version objects = .ok bytes ∧
      restoreInner client bytes =
        if Canonical (objects.map (ObjectEntry.inVersion version)) then
          (.ok, objects.map (ObjectEntry.inVersion version))
        else (.errno .EBADMSG, []) := by
  obtain ⟨bytes, hstore, hne, hread⟩ := restoreObjects_persistVersion hv (Tidy.mono (fun _ hr => hr.sane) h)
  refine ⟨bytes, hstore, ?_⟩
  split
  · next hcanonical => exact restoreInner_of_tidy hc hne hread (hcanonical.mono fun _ hr => hr.sane) hh.inVersion
  · next hcanonical =>
    have hsane : isAttrStorageSane (objects.map (ObjectEntry.inVersion version)) = false :=
      Bool.eq_false_iff.mpr fun hsane => hcanonical ((canonical_inVersion h).mpr (isAttrStorageSane_iff.mp hsane))
    rw [restoreInner, if_neg hne, hread]
    exact if_pos hsane

end Version

/-- **The trees that come out of a restore**: the tree that was stored, without what the version does not
    know; no tree where a set of attributes becomes empty by that, and none where the restore fails. -/
theorem restoreInner_outcome (client : Client σ) :
    (∀ objects, Canonical objects → client.Lists → client.Holds objects →
      ∃ bytes, persistInner objects = .ok bytes ∧ restoreInner client bytes = (.ok, objects)) ∧
    (∀ version ∈ supportedVersions, version ≠ versionCurrent →
      ∀ objects, Canonical objects → client.Lists → client.Holds objects →
        ∃ bytes, persistVersion version objects = .ok bytes ∧ restoreInner client bytes =
          if Canonical (objects.map (ObjectEntry.inVersion version)) then
            (.ok, objects.map (ObjectEntry.inVersion version))
          else (.errno .EBADMSG, [])) ∧
    ∀ bytes, (restoreInner client bytes).1 ≠ .ok → (restoreInner client bytes).2 = [] := by
  refine ⟨fun objects h hc hh => ?_, fun version hv _ objects h hc hh => restoreInner_persistVersion hc hv h hh,
    fun bytes => restoreInner_error⟩
  have hsane : Tidy ResourceEntry.Sane objects := Tidy.mono (fun _ hr => hr.sane) h
  obtain ⟨bytes, hstore, hne, hread⟩ := restoreObjects_persistInner hsane
  exact ⟨bytes, hstore, restoreInner_of_tidy hc hne hread hsane hh⟩

/-- Object 3, with one set of attributes of server 1. -/
def deviceWith (attrs : InternalOiAttrs) : List ObjectEntry := [⟨3, [⟨1, attrs⟩], []⟩]

theorem clientWith_holds (attrs : InternalOiAttrs) : (clientWith [3]).Holds (deviceWith attrs) := by
  intro o ho
  obtain rfl := List.mem_singleton.mp ho
  exact ⟨rfl, fun i hi => absurd hi List.not_mem_nil⟩

/-- The oldest version does not know that notifications are to be confirmable. -/
theorem restoreInner_outcome_minPeriod :
    ∃ bytes, persistVersion version_1_3_1 (deviceWith { minPeriodTen with con := .con }) = .ok bytes ∧
      restoreInner (clientWith [3]) bytes = (.ok, deviceWith minPeriodTen) := by
  obtain ⟨bytes, hstore, hrestore⟩ := (restoreInner_outcome (clientWith [3])).2.1 version_1_3_1 (by decide)
    (by decide) (deviceWith { minPeriodTen with con := .con }) (by decide +kernel) (clientWith_sound [3]).toLists
    (clientWith_holds _)
  exact ⟨bytes, hstore, hrestore.trans (if_pos (by decide +kernel))⟩

/-- Nothing but that notifications are to be confirmable. -/
def confirmable : InternalOiAttrs := ⟨⟨periodNone, periodNone, periodNone, periodNone⟩, .con⟩

/-- The oldest version does not know the only attribute that is set: the stream is rejected. -/
theorem restoreInner_unknown_attribute :
    Canonical (deviceWith confirmable) ∧ (clientWith [3]).Lists ∧ (clientWith [3]).Holds (deviceWith confirmable) ∧
      version_1_3_1 ∈ supportedVersions ∧
      ∃ bytes, persistVersion version_1_3_1 (deviceWith confirmable) = .ok bytes ∧
        restoreInner (clientWith [3]) bytes = (.errno .EBADMSG, []) := by
  have hcanonical : Canonical (deviceWith confirmable) := by decide +kernel
  obtain ⟨bytes, hstore, hrestore⟩ := restoreInner_persistVersion (clientWith_sound [3]).toLists
    (by decide : version_1_3_1 ∈ supportedVersions) hcanonical (clientWith_holds confirmable)
  exact ⟨hcanonical, (clientWith_sound [3]).toLists, clientWith_holds confirmable, by decide, bytes, hstore,
    hrestore.trans (if_neg (by decide +kernel))⟩

end Anjay.AttrStorage
