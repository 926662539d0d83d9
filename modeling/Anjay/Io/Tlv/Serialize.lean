/-
  File:      Anjay/Io/Tlv/Serialize.lean
  Subject:   Trees of values, and how the TLV output context serializes them.

  * `Tree`: the values below a root path of any length, with valid ids and values in range.
  * `setPath_ready`, `value_ready`, `aggregate_ready`, `lower_ready`: what one call does to a context
    in which complete entries have been written.
  * `serialize_encode`: the calls of the read operations produce `Tree.encode`.
-/
import Anjay.Io.Tlv.Frames

namespace Anjay.Tlv

open Lib

/-! ## 1. Values -/

/-- A value as the `anjay_ret_*` functions take it and the getters return it. -/
inductive Value
  | bytes (data : List UInt8)
  | string (value : List UInt8)
  | integer (value : Int)
  | boolean (value : Bool)
  | objlnk (oid iid : Id)
  deriving DecidableEq, Repr

/-- The range of each type: lengths that fit a TLV header, strings without a null byte, 64-bit
    integers. -/
def Value.Ok : Value → Prop
  | .bytes data => data.length ≤ tlvMaxLength
  | .string value => value.length ≤ tlvMaxLength ∧ 0 ∉ value
  | .integer value => -2 ^ 63 ≤ value ∧ value < 2 ^ 63
  | .boolean _ => True
  | .objlnk _ _ => True

/-- The call that returns a value. -/
def Value.call : Value → OutCall
  | .bytes data => .retBytes data
  | .string value => .retString value
  | .integer value => .retI64 value
  | .boolean value => .retBool value
  | .objlnk oid iid => .retObjlnk oid iid

/-- An integer on the wire: the shortest of one, two, four and eight bytes that holds it. -/
def integerBytes (v : Int) : List UInt8 :=
  if v = v.bmod (256 ^ 4) then
    if v = v.bmod (256 ^ 2) then
      if v = v.bmod (256 ^ 1) then beBytes 1 (v % 256 ^ 1).toNat
      else beBytes 2 (v % 256 ^ 2).toNat
    else beBytes 4 (v % 256 ^ 4).toNat
  else beBytes 8 (v % 256 ^ 8).toNat

/-- The payload of the entry of a value. -/
def Value.encode : Value → List UInt8
  | .bytes data => data
  | .string value => value
  | .integer value => integerBytes value
  | .boolean value => integerBytes (if value then 1 else 0)
  | .objlnk oid iid => beBytes 4 ((oid.val <<< 16) ||| iid.val)

theorem tlvRetI64_eq (ctx : TlvOut) (v : Int) : tlvRetI64 ctx v = retBytes ctx (integerBytes v) := by
  unfold tlvRetI64 tlvRetI32 tlvRetI16 tlvRetI8 iret integerBytes
  split
  · split
    · split <;> rfl
    · rfl
  · rfl

theorem integerBytes_small {v : Int} (h : v = v.bmod (256 ^ 1)) :
    integerBytes v = beBytes 1 (v % 256 ^ 1).toNat := by
  have h2 : v = v.bmod (256 ^ 2) := by
    rw [Int.bmod_def] at h ⊢
    omega
  have h4 : v = v.bmod (256 ^ 4) := by
    rw [Int.bmod_def] at h ⊢
    omega
  rw [integerBytes, if_pos h4, if_pos h2, if_pos h]

/-- Every typed return of a value is `anjay_ret_bytes` on its payload. -/
theorem callTlv_value (narrow : BitVec 64 → Option (BitVec 32)) (ctx : TlvOut) (v : Value) :
    callTlv narrow ctx v.call = retBytes ctx v.encode ∨
      callTlv narrow ctx v.call = keepError (retBytes ctx v.encode) := by
  cases v with
  | bytes data => exact Or.inl rfl
  | string value => exact Or.inr rfl
  | integer value =>
      right
      show keepError (tlvRetI64 ctx value) = _
      rw [tlvRetI64_eq]
      rfl
  | boolean value =>
      right
      show keepError (tlvRetI8 ctx (if value then 1 else 0)) = keepError (retBytes ctx (integerBytes _))
      rw [integerBytes_small (by cases value <;> decide)]
      rfl
  | objlnk oid iid => exact Or.inr rfl

theorem integerBytes_length (v : Int) : (integerBytes v).length ≤ 8 := by
  unfold integerBytes
  split_ifs <;> simp

theorem value_length {v : Value} (h : v.Ok) : v.encode.length ≤ tlvMaxLength := by
  have h8 : 8 ≤ tlvMaxLength := by decide
  cases v with
  | bytes data => exact h
  | string value => exact h.1
  | integer value => exact Nat.le_trans (integerBytes_length _) h8
  | boolean value => exact Nat.le_trans (integerBytes_length _) h8
  | objlnk oid iid =>
      show (beBytes 4 _).length ≤ _
      rw [beBytes_length]
      omega

/-! ## 2. Trees -/

abbrev GoodValue := { v : Value // v.Ok }

/-- A Resource is a single value or a list of Resource Instances. -/
inductive Content
  | single (value : GoodValue)
  | multiple (instances : List (ValidId × GoodValue))

/-- The values below a root path, which has the ids given here. -/
inductive Tree
  | object (oid : ValidId) (instances : List (ValidId × List (ValidId × Content)))
  | inst (oid iid : ValidId) (resources : List (ValidId × Content))
  | resource (oid iid rid : ValidId) (content : Content)
  | resourceInstance (oid iid rid riid : ValidId) (value : GoodValue)

/-- The root path of a tree. -/
def Tree.root : Tree → UriPath
  | .object oid _ => .object oid
  | .inst oid iid _ => .instancePath oid iid
  | .resource oid iid rid _ => .resource oid iid rid
  | .resourceInstance oid iid rid riid _ => .resourceInstance oid iid rid riid

/-- The calls of `read_multiple_resource` and `read_resource_internal` on one Resource. -/
def instanceCalls (oid iid rid : Id) (r : ValidId × GoodValue) : List OutCall :=
  [.setPath (.resourceInstance oid iid rid r.1), r.2.val.call]

def resourceCalls (oid iid : Id) (r : ValidId × Content) : List OutCall :=
  match r.2 with
  | .single value => [.setPath (.resource oid iid r.1), value.val.call]
  | .multiple ris =>
      .setPath (.resource oid iid r.1) :: .startAggregate :: ris.flatMap (instanceCalls oid iid r.1)

/-- The calls of `read_instance`. -/
def objectInstanceCalls (oid : Id) (i : ValidId × List (ValidId × Content)) : List OutCall :=
  .setPath (.instancePath oid i.1) :: .startAggregate :: i.2.flatMap (resourceCalls oid i.1)

/-- The calls of the read operation on the root path. -/
def Tree.calls : Tree → List OutCall
  | .object oid is => is.flatMap (objectInstanceCalls oid)
  | .inst oid iid rs => objectInstanceCalls oid (iid, rs)
  | .resource oid iid rid c => resourceCalls oid iid (rid, c)
  | .resourceInstance oid iid rid riid v => instanceCalls oid iid rid (riid, v)

/-- Serializing a tree into a growing stream: the calls, all of them successful, then `close`. -/
def serialize (narrow : BitVec 64 → Option (BitVec 32)) (t : Tree) : Option (List UInt8) := do
  let ctx ← outputTlvCreate ⟨[], none⟩ t.root
  let ctx ← runCalls narrow t.calls ctx
  match tlvOutputClose ctx with
  | some (0, ctx) => some ctx.stream.written
  | _ => none

/-- The bytes of a tree, bottom-up. -/
def encodeInstances (ris : List (ValidId × GoodValue)) : List UInt8 :=
  ris.flatMap fun r => encodeEntry .riid r.1 r.2.val.encode

def encodeResource (r : ValidId × Content) : List UInt8 :=
  match r.2 with
  | .single value => encodeEntry .rid r.1 value.val.encode
  | .multiple ris => encodeEntry .ridArray r.1 (encodeInstances ris)

def encodeResources (rs : List (ValidId × Content)) : List UInt8 := rs.flatMap encodeResource

def encodeObjectInstances (is : List (ValidId × List (ValidId × Content))) : List UInt8 :=
  is.flatMap fun i => encodeEntry .iid i.1 (encodeResources i.2)

def Tree.encode : Tree → List UInt8
  | .object _ is => encodeObjectInstances is
  | .inst _ _ rs => encodeResources rs
  | .resource _ _ rid c => encodeResource (rid, c)
  | .resourceInstance _ _ _ riid v => encodeEntry .riid riid v.val.encode

/-- The nested lengths fit a TLV header. -/
def Content.Fits : Content → Prop
  | .single _ => True
  | .multiple ris => (encodeInstances ris).length ≤ tlvMaxLength

def Tree.Fits : Tree → Prop
  | .object _ is => ∀ i ∈ is, (encodeResources i.2).length ≤ tlvMaxLength ∧ ∀ r ∈ i.2, r.2.Fits
  | .inst _ _ rs => ∀ r ∈ rs, r.2.Fits
  | .resource _ _ _ c => c.Fits
  | .resourceInstance _ _ _ _ _ => True

/-! ## 3. The encoder -/

theorem finishTo_below (z : Frames) {L l : OutLevel} (hl : l.toNat < L.toNat) :
    (z.finishTo L 2).ids l = z.ids l ∧ (z.finishTo L 2).content l = z.content l := by
  have hstep : ∀ z : Frames, L.toNat < z.level.toNat →
      z.finish.ids l = z.ids l ∧ z.finish.content l = z.content l := by
    intro z hz
    have hpred := OutLevel.pred_lt hz
    have hne : l ≠ z.level.pred := fun e => by rw [e] at hl; omega
    simp only [Frames.finish, Frames.emit, Function.update_of_ne hne, and_self]
  unfold Frames.finishTo Frames.finishTo
  by_cases h1 : L.toNat < z.level.toNat
  · rw [if_pos h1]
    by_cases h2 : L.toNat < z.finish.level.toNat
    · rw [if_pos h2]
      obtain ⟨a1, b1⟩ := hstep z h1
      obtain ⟨a2, b2⟩ := hstep z.finish h2
      exact ⟨a2.trans a1, b2.trans b1⟩
    · rw [if_neg h2]
      exact hstep z h1
  · rw [if_neg h1]
    exact ⟨rfl, rfl⟩

/-- The context after complete entries, once the levels above `L` are finished: `ids` are the ids
    set below `L`, and `content` the bytes of the complete entries up to `L`. -/
def Ready (ctx : TlvOut) (root : UriPath) (L : OutLevel) (ids : OutLevel → Id)
    (content : OutLevel → List UInt8) : Prop :=
  ∃ z : Frames, Rep ctx root z ∧ z.ids z.level = idInvalid ∧ L.toNat ≤ z.level.toNat ∧
    z.Closable L 2 ∧ (∀ l, (rootLevel root).toNat ≤ l.toNat → l.toNat < L.toNat →
      (z.finishTo L 2).ids l = ids l) ∧
    ∀ l, (rootLevel root).toNat ≤ l.toNat → l.toNat ≤ L.toNat →
      (z.finishTo L 2).content l = content l

section Encoder

variable {ctx : TlvOut} {root path : UriPath} {L : OutLevel} {ids : OutLevel → Id}
  {content : OutLevel → List UInt8}

/-- The path of an entry at level `L`, below the ids that are open there. -/
structure PathAt (root path : UriPath) (L : OutLevel) (ids : OutLevel → Id) : Prop where
  inside : path.outsideBase root = false
  leaf : leafLevel path = some L
  above : (rootLevel root).toNat ≤ L.toNat
  same : ∀ l, (rootLevel root).toNat ≤ l.toNat → l.toNat < L.toNat → idFromPath path l = ids l

/-- **Setting a path at level `L` finishes the levels above it, and nothing else.** -/
theorem setPath_ready (h : Ready ctx root L ids content) (hp : PathAt root path L ids)
    (narrow : BitVec 64 → Option (BitVec 32)) :
    ∃ ctx' z', callTlv narrow ctx (.setPath path) = some (0, ctx') ∧ Rep ctx' root z' ∧
      z'.level = L ∧ z'.ids L = idFromPath path L ∧
      (∀ l, (rootLevel root).toNat ≤ l.toNat → l.toNat < L.toNat → z'.ids l = ids l) ∧
      ∀ l, (rootLevel root).toNat ≤ l.toNat → l.toNat ≤ L.toNat → z'.content l = content l := by
  obtain ⟨z, hr, hidle, hle, hclose, hids, hcontent⟩ := h
  have hmax : L.max (rootLevel root) = L := by
    unfold OutLevel.max
    rw [if_neg (Nat.not_lt.mpr hp.above)]
  -- every level the search visits is open under the id of the path
  have hfl : z.finishLevel path L (rootLevel root) = L := by
    unfold Frames.finishLevel
    rw [hmax, List.find?_eq_none.mpr, Option.getD_none]
    intro i hi
    simp only [OutLevel.between, List.mem_filter, decide_eq_true_eq] at hi
    have hsame : z.ids i = idFromPath path i := by
      rw [hp.same i hi.2.1 hi.2.2, ← hids i hi.2.1 hi.2.2, (finishTo_below z hi.2.2).1]
    simp [hsame]
  obtain ⟨ctx', he, hr'⟩ := setPath_rep hr hp.inside hp.leaf (fun _ => hidle) (by rw [hfl]; exact hclose)
  have hlevel : (z.finishTo L 2).level = L := finishTo_level z hle
  have hz' : z.setPath root path L = (z.finishTo L 2).setNext (idFromPath path L) := by
    have hbetween : OutLevel.between L L = [] := by cases L <;> rfl
    unfold Frames.setPath
    simp only [hfl, hlevel, hbetween, Frames.startLevels, if_pos hp.above]
  rw [hz'] at hr'
  refine ⟨ctx', _, ?_, hr', hlevel, ?_, ?_, ?_⟩
  · show keepError (tlvSetPath ctx path) = _
    rw [he, keepError_ok]
  · simp only [Frames.setNext, hlevel, Function.update_self]
  · intro l h1 h2
    have hne : l ≠ L := fun e => by rw [e] at h2; exact Nat.lt_irrefl _ h2
    simp only [Frames.setNext, hlevel, Function.update_of_ne hne]
    exact hids l h1 h2
  · exact hcontent

/-- **One value at level `L`.** -/
theorem value_ready (h : Ready ctx root L ids content) (hp : PathAt root path L ids) {v : Value}
    (hv : v.Ok) (hL : L ≠ .iid) (narrow : BitVec 64 → Option (BitVec 32)) :
    ∃ ctx', runCalls narrow [.setPath path, v.call] ctx = some ctx' ∧
      Ready ctx' root L ids (Function.update content L
        (content L ++ encodeEntry (valueType L) (idFromPath path L) v.encode)) := by
  obtain ⟨ctx1, z1, he1, hr1, rfl, hid1, hids1, hcontent1⟩ := setPath_ready h hp narrow
  have hid : z1.ids z1.level ≠ idInvalid := by
    rw [hid1]
    exact leafLevel_ids hp.leaf (Nat.le_refl _)
  obtain ⟨ctx2, he2, hr2⟩ := retBytes_rep hr1 (value_length hv) hid hL
  have hcall : callTlv narrow ctx1 v.call = some (0, ctx2) := by
    rcases callTlv_value narrow ctx1 v with h | h
    · rw [h, he2]
    · rw [h, he2, keepError_ok]
  refine ⟨ctx2, ?_, _, hr2, ?_, Nat.le_refl _, ?_, ?_, ?_⟩
  · rw [runCalls_cons_ok he1, runCalls_cons_ok hcall]
    rfl
  · simp only [Frames.emit, Function.update_self]
  · exact fun hlt => absurd hlt (Nat.lt_irrefl _)
  · intro l h1 h2
    rw [(finishTo_below _ h2).1]
    have hne : l ≠ z1.level := fun e => by rw [e] at h2; exact Nat.lt_irrefl _ h2
    simp only [Frames.emit, Function.update_of_ne hne]
    exact hids1 l h1 h2
  · intro l h1 h2
    have hstay : (z1.emit (valueType z1.level) v.encode).finishTo z1.level 2
        = z1.emit (valueType z1.level) v.encode := by
      unfold Frames.finishTo
      exact if_neg (Nat.lt_irrefl _)
    rw [hstay]
    by_cases hl : l = z1.level
    · subst hl
      simp only [Frames.emit, Function.update_self]
      rw [hcontent1 _ h1 h2, hid1]
    · simp only [Frames.emit, Function.update_of_ne hl]
      exact hcontent1 l h1 h2

/-- **Opening an aggregate at level `L`.** -/
theorem aggregate_ready (h : Ready ctx root L ids content) (hp : PathAt root path L ids)
    {up : OutLevel} (hup : L.next? = some up) (narrow : BitVec 64 → Option (BitVec 32)) :
    ∃ ctx', runCalls narrow [.setPath path, .startAggregate] ctx = some ctx' ∧
      Ready ctx' root up (Function.update ids L (idFromPath path L))
        (Function.update content up []) := by
  obtain ⟨ctx1, z1, he1, hr1, rfl, hid1, hids1, hcontent1⟩ := setPath_ready h hp narrow
  have hid : z1.ids z1.level ≠ idInvalid := by
    rw [hid1]
    exact leafLevel_ids hp.leaf (Nat.le_refl _)
  have hsucc : up.toNat = z1.level.toNat + 1 := by
    cases hz : z1.level <;> rw [hz] at hup <;> cases hup <;> rfl
  obtain ⟨ctx2, he2, hr2⟩ := startAggregate_rep hr1 hid hup
  have hcall : callTlv narrow ctx1 .startAggregate = some (0, ctx2) := by
    show keepError (tlvStartAggregate ctx1) = _
    rw [he2, keepError_ok]
  have hstay : (z1.start up).finishTo up 2 = z1.start up := by
    unfold Frames.finishTo
    exact if_neg (Nat.lt_irrefl _)
  refine ⟨ctx2, ?_, _, hr2, ?_, Nat.le_refl _, ?_, ?_, ?_⟩
  · rw [runCalls_cons_ok he1, runCalls_cons_ok hcall]
    rfl
  · simp only [Frames.start, Function.update_self]
  · exact fun hlt => absurd hlt (Nat.lt_irrefl _)
  · intro l h1 h2
    rw [hstay]
    have hne : l ≠ up := fun e => by rw [e] at h2; exact Nat.lt_irrefl _ h2
    simp only [Frames.start, Function.update_of_ne hne]
    by_cases hl : l = z1.level
    · subst hl
      rw [Function.update_self, hid1]
    · rw [Function.update_of_ne hl]
      have hl' : l.toNat ≠ z1.level.toNat := fun e => hl (OutLevel.toNat_inj e)
      exact hids1 l h1 (by omega)
  · intro l h1 h2
    rw [hstay]
    by_cases hl : l = up
    · subst hl
      simp only [Frames.start, Function.update_self]
    · have hl' : l.toNat ≠ up.toNat := fun e => hl (OutLevel.toNat_inj e)
      simp only [Frames.start, Function.update_of_ne hl]
      exact hcontent1 l h1 (by omega)

theorem finishTo_pred (z : Frames) {L : OutLevel} (hL : L.pred.toNat < L.toNat)
    (hle : L.toNat ≤ z.level.toNat) :
    z.finishTo L.pred 2 = (z.finishTo L 2).finish ∧
      (z.Closable L.pred 2 ↔ z.Closable L 2 ∧
        ((z.finishTo L 2).content L).length ≤ tlvMaxLength ∧
          (z.finishTo L 2).ids L.pred ≠ idInvalid) := by
  obtain ⟨level, zids, zcontent⟩ := z
  simp only at hle
  cases level <;> cases L <;>
    first
      | exact absurd hL (by decide)
      | exact absurd hle (by decide)
      | exact ⟨rfl, by simp [Frames.Closable, Frames.finishTo, Frames.finish, Frames.emit,
          OutLevel.toNat, OutLevel.pred, and_assoc]⟩

/-- **A finished aggregate is an entry of the level below.** -/
theorem lower_ready (h : Ready ctx root L ids content) (hL : (rootLevel root).toNat < L.toNat)
    (hid : ids L.pred ≠ idInvalid) (hlen : (content L).length ≤ tlvMaxLength) :
    Ready ctx root L.pred ids (Function.update content L.pred
      (content L.pred ++ encodeEntry (aggregateType L.pred) (ids L.pred) (content L))) := by
  obtain ⟨z, hr, hidle, hle, hclose, hids, hcontent⟩ := h
  have hpred := OutLevel.pred_lt hL
  have hlow : (rootLevel root).toNat ≤ L.pred.toNat := by omega
  obtain ⟨hfin, hcl⟩ := finishTo_pred z (by omega) hle
  have hlevel : (z.finishTo L 2).level = L := finishTo_level z hle
  have hidL := hids L.pred hlow (by omega)
  have hcL := hcontent L (by omega) (Nat.le_refl _)
  refine ⟨z, hr, hidle, by omega, hcl.mpr ⟨hclose, ?_, ?_⟩, ?_, ?_⟩
  · rw [hcL]
    exact hlen
  · rw [hidL]
    exact hid
  · intro l h1 h2
    have hne : l ≠ L.pred := fun e => by rw [e] at h2; exact Nat.lt_irrefl _ h2
    rw [hfin]
    simp only [Frames.finish, Frames.emit, hlevel, Function.update_of_ne hne]
    exact hids l h1 (by omega)
  · intro l h1 h2
    rw [hfin]
    simp only [Frames.finish, Frames.emit, hlevel]
    by_cases hl : l = L.pred
    · subst hl
      rw [Function.update_self, Function.update_self, hidL, hcL, hcontent _ h1 (by omega)]
    · rw [Function.update_of_ne hl, Function.update_of_ne hl]
      exact hcontent l h1 (by omega)

theorem ready_congr {ids' : OutLevel → Id} {content' : OutLevel → List UInt8}
    (h : Ready ctx root L ids content) (hids : ∀ l, l.toNat < L.toNat → ids l = ids' l)
    (hcontent : ∀ l, l.toNat ≤ L.toNat → content l = content' l) :
    Ready ctx root L ids' content' := by
  obtain ⟨z, h1, h2, h3, h4, h5, h6⟩ := h
  exact ⟨z, h1, h2, h3, h4, fun l a b => (h5 l a b).trans (hids l b),
    fun l a b => (h6 l a b).trans (hcontent l b)⟩

end Encoder

/-! ## 4. Serializing a tree -/

section Paths

variable (oid iid rid riid : ValidId)

theorem validIds_object : (UriPath.object oid).validIds = [oid.val] := by
  simp [UriPath.validIds, UriPath.validFrom, IdType.all, UriPath.ids, UriPath.object, oid.property]

theorem validIds_instancePath :
    (UriPath.instancePath oid iid).validIds = [oid.val, iid.val] := by
  simp [UriPath.validIds, UriPath.validFrom, IdType.all, UriPath.ids, UriPath.instancePath,
    oid.property, iid.property]

theorem validIds_resource :
    (UriPath.resource oid iid rid).validIds = [oid.val, iid.val, rid.val] := by
  simp [UriPath.validIds, UriPath.validFrom, IdType.all, UriPath.ids, UriPath.resource,
    oid.property, iid.property, rid.property]

theorem validIds_resourceInstance :
    (UriPath.resourceInstance oid iid rid riid).validIds
      = [oid.val, iid.val, rid.val, riid.val] := by
  simp [UriPath.validIds, UriPath.validFrom, IdType.all, UriPath.ids, UriPath.resourceInstance,
    oid.property, iid.property, rid.property, riid.property]

theorem leafLevel_instancePath : leafLevel (.instancePath oid iid) = some .iid := by
  rw [leafLevel, ← UriPath.length_validIds, validIds_instancePath]
  rfl

theorem leafLevel_resource : leafLevel (.resource oid iid rid) = some .rid := by
  rw [leafLevel, ← UriPath.length_validIds, validIds_resource]
  rfl

theorem leafLevel_resourceInstance :
    leafLevel (.resourceInstance oid iid rid riid) = some .riid := by
  rw [leafLevel, ← UriPath.length_validIds, validIds_resourceInstance]
  rfl

end Paths

section Serialize

variable {ctx : TlvOut} {root : UriPath} {ids : OutLevel → Id} {content : OutLevel → List UInt8}
  {oid iid : ValidId} (narrow : BitVec 64 → Option (BitVec 32))

theorem pathAt_instance {rid : ValidId} (hp : PathAt root (.resource oid iid rid) .rid ids)
    (riid : ValidId) :
    PathAt root (.resourceInstance oid iid rid riid) .riid (Function.update ids .rid rid.val) := by
  refine ⟨?_, leafLevel_resourceInstance oid iid rid riid,
    Nat.le_trans hp.above (by decide), fun l h1 h2 => ?_⟩
  · rw [UriPath.outsideBase_iff_prefix, validIds_resourceInstance]
    have hpre := UriPath.outsideBase_iff_prefix.mp hp.inside
    rw [validIds_resource] at hpre
    exact hpre.trans (List.prefix_append [oid.val, iid.val, rid.val] [riid.val])
  · by_cases hl : l = .rid
    · subst hl
      rw [Function.update_self]
      rfl
    · rw [Function.update_of_ne hl, ← hp.same l h1 (by
        cases l <;> first | decide | exact absurd rfl hl | exact absurd h2 (by decide))]
      cases l with
      | iid => rfl
      | rid => exact absurd rfl hl
      | riid => exact absurd h2 (by decide)

theorem instances_ready {rid : ValidId}
    (hp : ∀ riid : ValidId, PathAt root (.resourceInstance oid iid rid riid) .riid ids) :
    ∀ (ris : List (ValidId × GoodValue)) {ctx : TlvOut} {content : OutLevel → List UInt8},
      Ready ctx root .riid ids content →
      ∃ ctx', runCalls narrow (ris.flatMap (instanceCalls oid iid rid)) ctx = some ctx' ∧
        Ready ctx' root .riid ids
          (Function.update content .riid (content .riid ++ encodeInstances ris))
  | [], ctx, content, h => by
      refine ⟨ctx, rfl, ready_congr h (fun _ _ => rfl) fun l _ => ?_⟩
      by_cases hl : l = .riid
      · subst hl
        simp [encodeInstances]
      · rw [Function.update_of_ne hl]
  | r :: ris, ctx, content, h => by
      obtain ⟨ctx1, he1, h1⟩ := value_ready h (hp r.1) r.2.property (by decide) narrow
      obtain ⟨ctx2, he2, h2⟩ := instances_ready hp ris h1
      refine ⟨ctx2, ?_, ready_congr h2 (fun _ _ => rfl) fun l _ => ?_⟩
      · rw [List.flatMap_cons]
        exact (runCalls_append _ _ he1).trans he2
      · simp only [Function.update_idem, Function.update_self, encodeInstances, List.flatMap_cons,
          List.append_assoc]
        rfl

/-- **One Resource.** -/
theorem resource_ready (h : Ready ctx root .rid ids content) (r : ValidId × Content)
    (hp : PathAt root (.resource oid iid r.1) .rid ids) (hfits : r.2.Fits) :
    ∃ ctx', runCalls narrow (resourceCalls oid iid r) ctx = some ctx' ∧
      Ready ctx' root .rid ids
        (Function.update content .rid (content .rid ++ encodeResource r)) := by
  obtain ⟨rid, c⟩ := r
  cases c with
  | single v => exact value_ready h hp v.property (by decide) narrow
  | multiple ris =>
      obtain ⟨ctx1, he1, h1⟩ := aggregate_ready h hp (rfl : OutLevel.next? .rid = some .riid) narrow
      obtain ⟨ctx2, he2, h2⟩ := instances_ready narrow (pathAt_instance hp) ris h1
      have hroot : (rootLevel root).toNat < OutLevel.riid.toNat :=
        Nat.lt_of_le_of_lt hp.above (by decide)
      have hlow := lower_ready h2 hroot
        (by simp only [OutLevel.pred, Function.update_self]; exact rid.property)
        (by simp only [Function.update_self, List.nil_append]; exact hfits)
      refine ⟨ctx2, (runCalls_append _ _ he1).trans he2, ready_congr hlow (fun l hl => ?_)
        fun l hl => ?_⟩
      · have hne : l ≠ .rid := fun e => by
          subst e
          exact absurd hl (by decide)
        rw [Function.update_of_ne hne]
      · cases l with
        | iid => rfl
        | rid => rfl
        | riid => exact absurd hl (by decide)

theorem resources_ready :
    ∀ (rs : List (ValidId × Content)) {ctx : TlvOut} {content : OutLevel → List UInt8},
      Ready ctx root .rid ids content →
      (∀ r ∈ rs, PathAt root (.resource oid iid r.1) .rid ids) → (∀ r ∈ rs, r.2.Fits) →
      ∃ ctx', runCalls narrow (rs.flatMap (resourceCalls oid iid)) ctx = some ctx' ∧
        Ready ctx' root .rid ids
          (Function.update content .rid (content .rid ++ encodeResources rs))
  | [], ctx, content, h, _, _ => by
      refine ⟨ctx, rfl, ready_congr h (fun _ _ => rfl) fun l _ => ?_⟩
      by_cases hl : l = .rid
      · subst hl
        simp [encodeResources]
      · rw [Function.update_of_ne hl]
  | r :: rs, ctx, content, h, hp, hfits => by
      obtain ⟨ctx1, he1, h1⟩ := resource_ready narrow h r (hp r List.mem_cons_self)
        (hfits r List.mem_cons_self)
      obtain ⟨ctx2, he2, h2⟩ := resources_ready rs h1
        (fun r' hr' => hp r' (List.mem_cons_of_mem _ hr'))
        (fun r' hr' => hfits r' (List.mem_cons_of_mem _ hr'))
      refine ⟨ctx2, ?_, ready_congr h2 (fun _ _ => rfl) fun l _ => ?_⟩
      · rw [List.flatMap_cons]
        exact (runCalls_append _ _ he1).trans he2
      · simp only [Function.update_idem, Function.update_self, encodeResources, List.flatMap_cons,
          List.append_assoc]

/-- **The Object Instances below an Object path.** -/
theorem objectInstances_ready (oid : ValidId) :
    ∀ (is : List (ValidId × List (ValidId × Content))) {ctx : TlvOut}
      {content : OutLevel → List UInt8}, Ready ctx (.object oid) .iid ids content →
      (∀ i ∈ is, (encodeResources i.2).length ≤ tlvMaxLength ∧ ∀ r ∈ i.2, r.2.Fits) →
      ∃ ctx', runCalls narrow (is.flatMap (objectInstanceCalls oid)) ctx = some ctx' ∧
        Ready ctx' (.object oid) .iid ids
          (Function.update content .iid (content .iid ++ encodeObjectInstances is))
  | [], ctx, content, h, _ => by
      refine ⟨ctx, rfl, ready_congr h (fun _ _ => rfl) fun l _ => ?_⟩
      by_cases hl : l = .iid
      · subst hl
        simp [encodeObjectInstances]
      · rw [Function.update_of_ne hl]
  | i :: is, ctx, content, h, hfits => by
      have hroot : rootLevel (.object oid) = .iid := by
        rw [rootLevel, ← UriPath.length_validIds, validIds_object]
        rfl
      have hinside : ∀ {p : UriPath} {l : List Id}, p.validIds = oid.val :: l →
          p.outsideBase (.object oid) = false := fun hp => by
        rw [UriPath.outsideBase_iff_prefix, hp, validIds_object]
        exact List.prefix_append [oid.val] _
      have hpi : PathAt (.object oid) (.instancePath oid i.1) .iid ids :=
        ⟨hinside (validIds_instancePath oid i.1), leafLevel_instancePath oid i.1,
          by rw [hroot], fun l _ hl => absurd hl (Nat.not_lt_zero _)⟩
      have hpr : ∀ r ∈ i.2, PathAt (.object oid) (.resource oid i.1 r.1) .rid
          (Function.update ids .iid i.1.val) := fun r _ =>
        ⟨hinside (validIds_resource oid i.1 r.1), leafLevel_resource oid i.1 r.1,
          by rw [hroot]; decide, fun l _ hl => by
            cases l with
            | iid => rfl
            | rid => exact absurd hl (by decide)
            | riid => exact absurd hl (by decide)⟩
      obtain ⟨hlen, hres⟩ := hfits i List.mem_cons_self
      obtain ⟨ctx1, he1, h1⟩ := aggregate_ready h hpi (rfl : OutLevel.next? .iid = some .rid) narrow
      obtain ⟨ctx2, he2, h2⟩ := resources_ready narrow i.2 h1 hpr hres
      have hlow := lower_ready h2 (by rw [hroot]; decide)
        (by simp only [OutLevel.pred, Function.update_self]; exact i.1.property)
        (by simp only [Function.update_self, List.nil_append]; exact hlen)
      have hback : Ready ctx2 (.object oid) .iid ids (Function.update content .iid
          (content .iid ++ encodeEntry .iid i.1 (encodeResources i.2))) := by
        refine ready_congr hlow (fun l hl => absurd hl (Nat.not_lt_zero _)) fun l hl => ?_
        cases l with
        | iid => rfl
        | rid => exact absurd hl (by decide)
        | riid => exact absurd hl (by decide)
      obtain ⟨ctx3, he3, h3⟩ := objectInstances_ready oid is hback
        fun i' hi' => hfits i' (List.mem_cons_of_mem _ hi')
      refine ⟨ctx3, ?_, ready_congr h3 (fun _ _ => rfl) fun l _ => ?_⟩
      · rw [List.flatMap_cons]
        have hone : runCalls narrow (objectInstanceCalls oid i) ctx = some ctx2 :=
          (runCalls_append _ _ he1).trans he2
        exact (runCalls_append _ _ hone).trans he3
      · simp only [Function.update_idem, Function.update_self, encodeObjectInstances,
          List.flatMap_cons, List.append_assoc]

theorem create_ready {root : UriPath} (hroot : root.has .oid = true) :
    ∃ ctx, outputTlvCreate ⟨[], none⟩ root = some ctx ∧
      Ready ctx root (rootLevel root) (fun _ => idInvalid) (fun _ => []) := by
  obtain ⟨ctx, he, hr⟩ := create_rep hroot (rfl : (⟨[], none⟩ : OutStream).capacity = none)
  refine ⟨ctx, he, _, hr, rfl, Nat.le_refl _, fun hlt => absurd hlt (Nat.lt_irrefl _), ?_, ?_⟩
  · intro l h1 h2
    exact absurd h1 (Nat.not_le.mpr h2)
  · intro l h1 h2
    unfold Frames.finishTo
    rw [if_neg (Nat.lt_irrefl _)]

/-- **Closing a context at its root level leaves the complete entries in the stream.** -/
theorem close_ready (h : Ready ctx root (rootLevel root) ids content) :
    ∃ ctx', tlvOutputClose ctx = some (0, ctx') ∧
      ctx'.stream.written = content (rootLevel root) := by
  obtain ⟨z, hr, hidle, hle, hclose, hids, hcontent⟩ := h
  obtain ⟨ctx', he, hr'⟩ := close_rep hr hidle hclose
  refine ⟨ctx', he, ?_⟩
  rw [hr'.stream, hcontent _ (Nat.le_refl _) (Nat.le_refl _)]

/-- On an Instance root, `read_instance` sets the path of the root and opens nothing. -/
theorem instanceRoot_ready {oid iid : ValidId}
    (h : Ready ctx (.instancePath oid iid) .rid ids content) :
    ∃ ctx', runCalls narrow [.setPath (.instancePath oid iid), .startAggregate] ctx = some ctx' ∧
      Ready ctx' (.instancePath oid iid) .rid ids content := by
  obtain ⟨z, hr, hidle, hle, hclose, hids, hcontent⟩ := h
  have hroot : rootLevel (.instancePath oid iid) = .rid := by
    rw [rootLevel, ← UriPath.length_validIds, validIds_instancePath]
    rfl
  have hfl : z.finishLevel (.instancePath oid iid) .iid .rid = .rid := rfl
  have hlevel : (z.finishTo .rid 2).level = .rid := finishTo_level z hle
  obtain ⟨ctx1, he1, hr1⟩ := setPath_rep hr (UriPath.outsideBase_self _)
    (leafLevel_instancePath oid iid) (fun _ => hidle) (by rw [hroot, hfl]; exact hclose)
  have hz : z.setPath (.instancePath oid iid) (.instancePath oid iid) .iid
      = (z.finishTo .rid 2).setNext idInvalid := by
    unfold Frames.setPath
    simp only [hroot, hfl, hlevel]
    rfl
  rw [hz] at hr1
  have hid : ((z.finishTo .rid 2).setNext idInvalid).ids .rid = idInvalid := by
    simp only [Frames.setNext, hlevel, Function.update_self]
  have hleaf : (UriPath.instancePath oid iid).leafIs .iid = true := by
    rw [UriPath.leafIs, ← UriPath.length_validIds, validIds_instancePath]
    rfl
  have hstart := startAggregate_instance hr1 hlevel (by rw [show
    ((z.finishTo .rid 2).setNext idInvalid).level = .rid from hlevel]; exact hid) hleaf
  refine ⟨ctx1, ?_, _, hr1, ?_, ?_, ?_, ?_, ?_⟩
  · have h1 : callTlv narrow ctx (.setPath (.instancePath oid iid)) = some (0, ctx1) := by
      show keepError (tlvSetPath ctx _) = _
      rw [he1, keepError_ok]
    have h2 : callTlv narrow ctx1 .startAggregate = some (0, ctx1) := by
      show keepError (tlvStartAggregate ctx1) = _
      rw [hstart, keepError_ok]
    rw [runCalls_cons_ok h1, runCalls_cons_ok h2]
    rfl
  · rw [show ((z.finishTo .rid 2).setNext idInvalid).level = .rid from hlevel]
    exact hid
  · rw [show ((z.finishTo .rid 2).setNext idInvalid).level = .rid from hlevel]
  · intro hlt
    rw [show ((z.finishTo .rid 2).setNext idInvalid).level = .rid from hlevel] at hlt
    exact absurd hlt (Nat.lt_irrefl _)
  · intro l h1 h2
    rw [hroot] at h1
    exact absurd h1 (Nat.not_le.mpr h2)
  · intro l h1 h2
    have hstay : ((z.finishTo .rid 2).setNext idInvalid).finishTo .rid 2
        = (z.finishTo .rid 2).setNext idInvalid := by
      unfold Frames.finishTo
      rw [show ((z.finishTo .rid 2).setNext idInvalid).level = .rid from hlevel]
      exact if_neg (Nat.lt_irrefl _)
    rw [hstay]
    exact hcontent l h1 h2

end Serialize

/-- **The calls of the read operations serialize a tree as its encoding.** -/
theorem serialize_encode (narrow : BitVec 64 → Option (BitVec 32)) (t : Tree) (hfits : t.Fits) :
    serialize narrow t = some t.encode := by
  have hhas : t.root.has .oid = true := by
    cases t <;> simp only [UriPath.has, Tree.root, ← UriPath.length_validIds, validIds_object,
      validIds_instancePath, validIds_resource, validIds_resourceInstance] <;> rfl
  obtain ⟨ctx, he, h⟩ := create_ready hhas
  have hdone : ∀ {ctx1 : TlvOut} {ids : OutLevel → Id} {content : OutLevel → List UInt8},
      runCalls narrow t.calls ctx = some ctx1 → Ready ctx1 t.root (rootLevel t.root) ids content →
      content (rootLevel t.root) = t.encode → serialize narrow t = some t.encode := by
    intro ctx1 ids content hrun hready hcontent
    obtain ⟨ctx2, hc, hw⟩ := close_ready hready
    simp only [serialize, he, Option.bind_eq_bind, Option.bind_some, hrun, hc, hw, hcontent]
  cases t with
  | object oid is =>
      have hroot : rootLevel (.object oid) = .iid := by
        rw [rootLevel, ← UriPath.length_validIds, validIds_object]
        rfl
      simp only [Tree.root, hroot] at h hdone
      obtain ⟨ctx1, he1, h1⟩ := objectInstances_ready narrow oid is h hfits
      exact hdone he1 h1 (by simp [Tree.encode])
  | inst oid iid rs =>
      have hroot : rootLevel (.instancePath oid iid) = .rid := by
        rw [rootLevel, ← UriPath.length_validIds, validIds_instancePath]
        rfl
      simp only [Tree.root, hroot] at h hdone
      have hp : ∀ r ∈ rs, PathAt (.instancePath oid iid) (.resource oid iid r.1) .rid
          (fun _ => idInvalid) := fun r _ =>
        ⟨by
          rw [UriPath.outsideBase_iff_prefix, validIds_resource, validIds_instancePath]
          exact List.prefix_append [oid.val, iid.val] _,
          leafLevel_resource oid iid r.1, by rw [hroot], fun l h1 h2 => by
            rw [hroot] at h1
            exact absurd h1 (Nat.not_le.mpr h2)⟩
      obtain ⟨ctx1, he1, h1⟩ := instanceRoot_ready narrow h
      obtain ⟨ctx2, he2, h2⟩ := resources_ready narrow rs h1 hp hfits
      exact hdone ((runCalls_append _ _ he1).trans he2) h2 (by simp [Tree.encode])
  | resource oid iid rid c =>
      have hroot : rootLevel (.resource oid iid rid) = .rid := by
        rw [rootLevel, ← UriPath.length_validIds, validIds_resource]
        rfl
      simp only [Tree.root, hroot] at h hdone
      have hp : PathAt (.resource oid iid rid) (.resource oid iid rid) .rid
          (fun _ => idInvalid) :=
        ⟨UriPath.outsideBase_self _, leafLevel_resource oid iid rid, by rw [hroot], fun l h1 h2 => by
          rw [hroot] at h1
          exact absurd h1 (Nat.not_le.mpr h2)⟩
      obtain ⟨ctx1, he1, h1⟩ := resource_ready narrow h (rid, c) hp hfits
      exact hdone he1 h1 (by simp [Tree.encode])
  | resourceInstance oid iid rid riid v =>
      have hroot : rootLevel (.resourceInstance oid iid rid riid) = .riid := by
        rw [rootLevel, ← UriPath.length_validIds, validIds_resourceInstance]
        rfl
      simp only [Tree.root, hroot] at h hdone
      have hp : PathAt (.resourceInstance oid iid rid riid) (.resourceInstance oid iid rid riid)
          .riid (fun _ => idInvalid) :=
        ⟨UriPath.outsideBase_self _, leafLevel_resourceInstance oid iid rid riid, by rw [hroot],
          fun l h1 h2 => by
            rw [hroot] at h1
            exact absurd h1 (Nat.not_le.mpr h2)⟩
      obtain ⟨ctx1, he1, h1⟩ := value_ready h hp v.property (by decide) narrow
      exact hdone he1 h1 (by simp [Tree.encode, valueType, idFromPath, OutLevel.idType,
        UriPath.ids, UriPath.resourceInstance])

end Anjay.Tlv
