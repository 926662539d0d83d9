/-
  File:      Anjay/Registration/QueryDm.lean
  Subject:   The list of Objects and Object Instances that a Register message carries (`anjay_register.c`).

  * `queryDm_ok`, `queryDm_total`: the text is the links with a comma between them, and it is there if there is room.
  * `links_inj`: the links tell which Objects there are, in which versions and with which Instances.
-/
import Anjay.Dm.Registry
import Anjay.Io.Stream
import Anjay.Registration.Register

namespace Anjay.Reg

open Dm Lib Text

variable {σ τ : Type}

/-! ## 1. The code -/

/-- `query_dm_args_t`. -/
structure QueryDmArgs where
  first : Bool
  stream : OutStream

/-- `query_dm_instance`. -/
def queryDmInstance (obj : RegisteredObject σ) (iid : Id) (args : QueryDmArgs) : Int × QueryDmArgs :=
  match args.stream.writeCode ((if args.first then [] else [comma]) ++ pathLink [obj.oid, iid]) with
  | (result, stream) => (result, ⟨false, stream⟩)

/-- The link of an Object that has a version. -/
def queryDmVersion (oid : Id) (version : Option CString) (stream : OutStream) : Int × OutStream :=
  match version with
  | none => (0, stream)
  | some version => stream.writeCode (pathLink [oid] ++ versionAttr version)

/-- `query_dm_object` behind the separator: `obj_written` is whether the Object has a version, and then whether
    anything was written at all. -/
def queryDmObjectLinks (s : σ) (obj : RegisteredObject σ) (stream : OutStream) : Int × OutStream :=
  let versioned := queryDmVersion obj.oid obj.version stream
  if versioned.1 ≠ 0 then versioned
  else
    let listed := obj.foreachInstance s (queryDmInstance obj) ⟨obj.version.isNone, versioned.2⟩
    if listed.1 ≠ 0 then (listed.1, listed.2.stream)
    else bif listed.2.first then listed.2.stream.writeCode (pathLink [obj.oid]) else (0, listed.2.stream)

/-- The separator in front of an Object. -/
def queryDmSeparator (args : QueryDmArgs) : Int × OutStream :=
  bif args.first then (0, args.stream) else args.stream.writeCode [comma]

/-- `query_dm_object`. -/
def queryDmObject (s : σ) (obj : RegisteredObject σ) (args : QueryDmArgs) : Int × QueryDmArgs :=
  if obj.oid = oidSecurity then (0, args)
  else
    let separated := queryDmSeparator args
    if separated.1 ≠ 0 then (-1, ⟨false, separated.2⟩)
    else
      match queryDmObjectLinks s obj separated.2 with
      | (result, stream) => (result, ⟨false, stream⟩)

/-- `query_dm`, into a buffer that can grow to `capacity` if there is a limit. -/
def queryDm (capacity : Option Nat) (objects : ObjectList σ) (s : σ) : Int × Option CString :=
  let listed := foreachObject (queryDmObject s) objects.objects ⟨true, ⟨[], capacity⟩⟩
  if listed.1 ≠ 0 then (listed.1, none)
  else
    match listed.2.stream.writeCode [0] with
    | (retval, stream) => (retval, if retval = 0 then some (.ofBytes stream.written) else none)

/-! ## 2. Links -/

/-- A link of the list: an Object, which can have a version, or an Instance of it. -/
inductive Link
  | object (oid : Id) (version : Option CString)
  | objectInstance (oid iid : Id)
  deriving DecidableEq, Repr

namespace Link

def oid : Link → Id
  | object oid _ => oid
  | objectInstance oid _ => oid

def text : Link → List UInt8
  | object oid none => pathLink [oid]
  | object oid (some version) => pathLink [oid] ++ versionAttr version
  | objectInstance oid iid => pathLink [oid, iid]

end Link

/-- The links of an Object with these Instances. -/
def objectLinks (oid : Id) (version : Option CString) (iids : List Id) : List Link :=
  match version, iids with
  | none, [] => [.object oid none]
  | none, iids => iids.map (.objectInstance oid)
  | some version, iids => .object oid (some version) :: iids.map (.objectInstance oid)

/-- A data model at one moment: the registered Objects, and the Instances that each lists, in ascending order. -/
structure ListedModel (σ : Type) where
  objects : ObjectList σ
  state : σ
  lists : ∀ obj ∈ objects.objects, Ascending id (-1) (obj.listInstances state).1 ∧ 0 ≤ (obj.listInstances state).2

namespace ListedModel

/-- What must be reported: the Objects other than the Security Object, their versions and their Instances. -/
def reported (m : ListedModel σ) : List (Id × Option CString × List Id) :=
  (m.objects.objects.filter fun obj => decide (obj.oid ≠ oidSecurity)).map
    fun obj => (obj.oid, obj.version, (obj.listInstances m.state).1)

/-- The links of all of them. -/
def links (m : ListedModel σ) : List Link := m.reported.flatMap fun r => objectLinks r.1 r.2.1 r.2.2

end ListedModel

/-! ## 3. What is written -/

/-- What `query_dm_instance` leaves. -/
def instanceNext (oid : Id) (args : QueryDmArgs) (iid : Id) : QueryDmArgs :=
  ⟨false, args.stream.push ((if args.first then [] else [comma]) ++ (Link.objectInstance oid iid).text)⟩

theorem queryDmInstance_ok (obj : RegisteredObject σ) (iid : Id) (args : QueryDmArgs)
    (h : (queryDmInstance obj iid args).1 = 0) :
    True ∧ (queryDmInstance obj iid args).2 = instanceNext obj.oid args iid := by
  unfold queryDmInstance at h ⊢
  dsimp only at h ⊢
  rw [OutStream.writeCode_ok h]
  exact ⟨trivial, rfl⟩

theorem ne_foreachBreak {result : Int} (h : result = 0 ∨ result = -1) : result ≠ foreachBreak := by
  rcases h with rfl | rfl <;> decide

theorem queryDmInstance_ne_break (obj : RegisteredObject σ) (iid : Id) (args : QueryDmArgs) :
    (queryDmInstance obj iid args).1 ≠ foreachBreak := ne_foreachBreak (OutStream.writeCode_cases _ _)

theorem instanceNext_foldl (oid : Id) : ∀ (iids : List Id) (stream : OutStream),
    iids.foldl (instanceNext oid) ⟨false, stream⟩
      = ⟨false, stream.push (preceded comma (iids.map fun iid => (Link.objectInstance oid iid).text))⟩
  | [], stream => by rw [List.map_nil, preceded_nil, OutStream.push_nil, List.foldl_nil]
  | iid :: iids, stream => by
      rw [List.foldl_cons, instanceNext, instanceNext_foldl oid iids, List.map_cons, preceded_cons, OutStream.push_push]
      rfl

theorem queryDmVersion_ok {oid : Id} {version : Option CString} {stream : OutStream}
    (h : (queryDmVersion oid version stream).1 = 0) : (queryDmVersion oid version stream).2
      = stream.push (version.elim [] fun version => (Link.object oid (some version)).text) := by
  cases version with
  | none => exact (OutStream.push_nil stream).symm
  | some version => exact OutStream.writeCode_ok h

/-- **An Object writes its links, with a comma between them.** -/
theorem queryDmObjectLinks_ok {s : σ} {obj : RegisteredObject σ} {stream : OutStream}
    (h : (queryDmObjectLinks s obj stream).1 = 0) :
    (queryDmObjectLinks s obj stream).2
      = stream.push ([comma].intercalate ((objectLinks obj.oid obj.version (obj.listInstances s).1).map Link.text)) := by
  unfold queryDmObjectLinks at h ⊢
  dsimp only at h ⊢
  split at h
  next hne => exact absurd h hne
  next hversion =>
  split at h
  next hne => exact absurd h hne
  next hlisted =>
  rw [if_neg hversion, if_neg hlisted]
  rw [queryDmVersion_ok (not_not.mp hversion)] at h hlisted ⊢
  have hfold := (foreach_ok (queryDmInstance_ok obj) (queryDmInstance_ne_break obj) (not_not.mp hlisted)).2.2.2
  rw [ObjectDef.foreachInstance, hfold] at h ⊢
  cases hv : obj.version with
  | some version =>
      rw [Option.isNone_some, Option.elim_some, instanceNext_foldl, cond_false, OutStream.push_push]
      show _ = stream.push ([comma].intercalate (_ :: List.map _ (List.map _ _)))
      rw [intercalate_cons, List.map_map]
      rfl
  | none =>
      rw [hv, Option.isNone_none, Option.elim_none, OutStream.push_nil] at h
      rw [Option.isNone_none, Option.elim_none, OutStream.push_nil]
      cases hiids : (obj.listInstances s).1 with
      | nil =>
          rw [hiids, List.foldl_nil, cond_true] at h
          rw [List.foldl_nil, cond_true, OutStream.writeCode_ok h]
          show _ = stream.push ([comma].intercalate [_])
          rw [intercalate_cons, preceded_nil, List.append_nil]
          rfl
      | cons iid iids =>
          rw [List.foldl_cons, instanceNext, instanceNext_foldl, cond_false, OutStream.push_push]
          show _ = stream.push ([comma].intercalate (_ :: List.map _ (List.map _ iids)))
          rw [intercalate_cons, List.map_map]
          rfl

theorem objectLinks_ne_nil (oid : Id) (version : Option CString) (iids : List Id) :
    objectLinks oid version iids ≠ [] := by
  cases version with
  | some version => exact List.cons_ne_nil _ _
  | none => cases iids <;> exact List.cons_ne_nil _ _

/-- What `query_dm_object` leaves of an Object that is reported. -/
def objectNext (args : QueryDmArgs) (r : Id × Option CString × List Id) : QueryDmArgs :=
  ⟨false, args.stream.push ((if args.first then [] else [comma]) ++
    [comma].intercalate ((objectLinks r.1 r.2.1 r.2.2).map Link.text))⟩

theorem queryDmSeparator_ok {args : QueryDmArgs} (h : (queryDmSeparator args).1 = 0) :
    (queryDmSeparator args).2 = args.stream.push (if args.first then [] else [comma]) := by
  obtain ⟨first, stream⟩ := args
  cases first with
  | true => exact (OutStream.push_nil stream).symm
  | false => exact OutStream.writeCode_ok h

theorem queryDmObject_ok {s : σ} {obj : RegisteredObject σ} {args : QueryDmArgs} (h : (queryDmObject s obj args).1 = 0) :
    (queryDmObject s obj args).2 =
      if obj.oid ≠ oidSecurity then objectNext args (obj.oid, obj.version, (obj.listInstances s).1) else args := by
  unfold queryDmObject at h ⊢
  by_cases hoid : obj.oid = oidSecurity
  · rw [if_pos hoid, if_neg (not_not.mpr hoid)]
  rw [if_neg hoid] at h
  rw [if_neg hoid, if_pos hoid, objectNext]
  dsimp only at h ⊢
  split at h
  · cases h
  next hseparated =>
  rw [if_neg hseparated, queryDmObjectLinks_ok h, queryDmSeparator_ok (not_not.mp hseparated), OutStream.push_push]

theorem queryDmVersion_ne_break (oid : Id) (version : Option CString) (stream : OutStream) :
    (queryDmVersion oid version stream).1 ≠ foreachBreak := by
  cases version with
  | none => exact ne_foreachBreak (Or.inl rfl)
  | some version => exact ne_foreachBreak (OutStream.writeCode_cases _ _)

theorem queryDmObjectLinks_ne_break {s : σ} {obj : RegisteredObject σ} (hcode : 0 ≤ (obj.listInstances s).2)
    (stream : OutStream) : (queryDmObjectLinks s obj stream).1 ≠ foreachBreak := by
  unfold queryDmObjectLinks
  dsimp only
  split
  · exact queryDmVersion_ne_break _ _ _
  split
  · exact foreach_ne_break hcode _
  · cases (obj.foreachInstance s (queryDmInstance obj) _).2.first with
    | true => exact ne_foreachBreak (OutStream.writeCode_cases _ _)
    | false => exact ne_foreachBreak (Or.inl rfl)

theorem queryDmObject_ne_break {s : σ} {obj : RegisteredObject σ} (hcode : 0 ≤ (obj.listInstances s).2)
    (args : QueryDmArgs) : (queryDmObject s obj args).1 ≠ foreachBreak := by
  unfold queryDmObject
  split
  · exact ne_foreachBreak (Or.inl rfl)
  dsimp only
  split
  · exact ne_foreachBreak (Or.inr rfl)
  · exact queryDmObjectLinks_ne_break hcode _

theorem objectNext_foldl : ∀ (rs : List (Id × Option CString × List Id)) (stream : OutStream),
    rs.foldl objectNext ⟨false, stream⟩ = ⟨false, stream.push
      (preceded comma ((rs.flatMap fun r => objectLinks r.1 r.2.1 r.2.2).map Link.text))⟩
  | [], stream => by rw [List.flatMap_nil, List.map_nil, preceded_nil, OutStream.push_nil, List.foldl_nil]
  | r :: rs, stream => by
      have hne : (objectLinks r.1 r.2.1 r.2.2).map Link.text ≠ [] :=
        fun h => objectLinks_ne_nil _ _ _ (List.map_eq_nil_iff.mp h)
      rw [List.foldl_cons, objectNext, objectNext_foldl rs, List.flatMap_cons, List.map_append, preceded_append,
        preceded_eq hne, OutStream.push_push]
      rfl

/-- From the first Object on, the links have a comma between them. -/
theorem objectNext_first (rs : List (Id × Option CString × List Id)) (stream : OutStream) :
    (rs.foldl objectNext ⟨true, stream⟩).stream = stream.push
      ([comma].intercalate ((rs.flatMap fun r => objectLinks r.1 r.2.1 r.2.2).map Link.text)) := by
  cases rs with
  | nil => exact (OutStream.push_nil stream).symm
  | cons r rs =>
      have hne : (objectLinks r.1 r.2.1 r.2.2).map Link.text ≠ [] :=
        fun h => objectLinks_ne_nil _ _ _ (List.map_eq_nil_iff.mp h)
      rw [List.foldl_cons, objectNext, objectNext_foldl, List.flatMap_cons, List.map_append, intercalate_append _ hne,
        OutStream.push_push]
      rfl

/-! ## 4. Enough room -/

theorem queryDmObject_total {s : σ} {obj : RegisteredObject σ}
    (hlist : Ascending id (-1) (obj.listInstances s).1 ∧ 0 ≤ (obj.listInstances s).2) {args : QueryDmArgs}
    (hroom : args.stream.capacity = none) :
    (queryDmObject s obj args).1 = 0 ∧ (queryDmObject s obj args).2.stream.capacity = none := by
  unfold queryDmObject
  split
  · exact ⟨rfl, hroom⟩
  have hseparated : (queryDmSeparator args).1 = 0 ∧ (queryDmSeparator args).2.capacity = none := by
    unfold queryDmSeparator
    cases args.first with
    | true => exact ⟨rfl, hroom⟩
    | false =>
        rw [cond_false, OutStream.writeCode_unbounded hroom]
        exact ⟨rfl, hroom⟩
  dsimp only
  rw [if_neg (not_not.mpr hseparated.1)]
  show (queryDmObjectLinks s obj (queryDmSeparator args).2).1 = 0
    ∧ (queryDmObjectLinks s obj (queryDmSeparator args).2).2.capacity = none
  generalize (queryDmSeparator args).2 = stream at hseparated
  replace hroom := hseparated.2
  have hversion : (queryDmVersion obj.oid obj.version stream).1 = 0
      ∧ (queryDmVersion obj.oid obj.version stream).2.capacity = none := by
    unfold queryDmVersion
    cases obj.version with
    | none => exact ⟨rfl, hroom⟩
    | some version =>
        dsimp only
        rw [OutStream.writeCode_unbounded hroom]
        exact ⟨rfl, hroom⟩
  have hinstance : ∀ (iid : Id) (args : QueryDmArgs), args.stream.capacity = none →
      (queryDmInstance obj iid args).1 = 0 ∧ (queryDmInstance obj iid args).2.stream.capacity = none := by
    intro iid args hroom
    unfold queryDmInstance
    rw [OutStream.writeCode_unbounded hroom]
    exact ⟨rfl, hroom⟩
  obtain ⟨hlisted, hcapacity⟩ := foreach_total (fun args : QueryDmArgs => args.stream.capacity = none) hinstance
    hlist.1 hlist.2 (show (QueryDmArgs.mk obj.version.isNone _).stream.capacity = none from hversion.2)
  unfold queryDmObjectLinks ObjectDef.foreachInstance
  dsimp only
  rw [if_neg (not_not.mpr hversion.1), if_neg (not_not.mpr hlisted)]
  cases (foreach id (obj.listInstances s) (queryDmInstance obj) ⟨obj.version.isNone, _⟩).2.first with
  | true =>
      rw [cond_true, OutStream.writeCode_unbounded hcapacity]
      exact ⟨rfl, hcapacity⟩
  | false => exact ⟨rfl, hcapacity⟩

/-- **Unless the memory runs out, there is a text.** -/
theorem queryDm_total (m : ListedModel σ) : (queryDm none m.objects m.state).1 = 0 := by
  obtain ⟨hret, hroom⟩ := foreachObject_total (fun args : QueryDmArgs => args.stream.capacity = none)
    (fun obj hobj _ ht => queryDmObject_total (m.lists obj hobj) ht)
    (show (QueryDmArgs.mk true ⟨[], none⟩).stream.capacity = none from rfl)
  unfold queryDm
  dsimp only
  rw [if_neg (not_not.mpr hret), OutStream.writeCode_unbounded hroom]

/-! ## 5. The text -/

theorem Link.text_ne_nil (link : Link) : link.text ≠ [] := by
  cases link with
  | object oid version => cases version <;> exact List.cons_ne_nil _ _
  | objectInstance oid iid => exact List.cons_ne_nil _ _

theorem versionAttr_noNul (version : CString) : 0 ∉ versionAttr version := by
  intro h
  rcases List.mem_append.mp h with h | h
  · rcases List.mem_append.mp h with h | h
    · exact absurd h (by decide)
    · exact version.noNul h
  · exact absurd h (by decide)

theorem Link.text_noNul (link : Link) : 0 ∉ link.text := by
  cases link with
  | object oid version =>
      cases version with
      | none => exact nul_notMem_pathLink _
      | some version =>
          exact fun h => (List.mem_append.mp h).elim (nul_notMem_pathLink _) (versionAttr_noNul version)
  | objectInstance oid iid => exact nul_notMem_pathLink _

theorem links_noNul (links : List Link) : 0 ∉ [comma].intercalate (links.map Link.text) := by
  cases links with
  | nil => exact List.not_mem_nil
  | cons link links =>
      intro h
      rw [List.map_cons, intercalate_cons] at h
      rcases List.mem_append.mp h with h | h
      · exact link.text_noNul h
      obtain ⟨item, hitem, h⟩ := List.mem_flatMap.mp h
      obtain ⟨other, -, rfl⟩ := List.mem_map.mp hitem
      rcases List.mem_cons.mp h with h | h
      · cases h
      · exact other.text_noNul h

/-- **The text is the links with a comma between them.** -/
theorem queryDm_ok {m : ListedModel σ} {capacity : Option Nat} {text : CString}
    (h : queryDm capacity m.objects m.state = (0, some text)) :
    text.bytes = [comma].intercalate (m.links.map Link.text) := by
  unfold queryDm at h
  dsimp only at h
  split at h
  next hne => exact absurd (Prod.mk.inj h).1 hne
  next hret =>
  have hfold := foreachObject_ok (fun obj hobj t => ⟨queryDmObject_ok, queryDmObject_ne_break (m.lists obj hobj).2 t⟩)
    (not_not.mp hret)
  have hreported : (m.objects.objects.foldl (fun args obj => if obj.oid ≠ oidSecurity
        then objectNext args (obj.oid, obj.version, (obj.listInstances m.state).1) else args) ⟨true, ⟨[], capacity⟩⟩)
      = m.reported.foldl objectNext ⟨true, ⟨[], capacity⟩⟩ := by
    rw [ListedModel.reported, List.foldl_map, List.foldl_filter]
    simp only [decide_eq_true_eq]
  obtain ⟨hcode, htext⟩ := Prod.mk.inj h
  rw [if_pos hcode, OutStream.writeCode_ok hcode, hfold, hreported, objectNext_first] at htext
  rw [← Option.some.inj htext]
  show (CString.ofBytes ([] ++ _ ++ [0])).bytes = _
  rw [List.nil_append]
  exact congrArg CString.bytes (CString.ofBytes_append_nul ⟨_, links_noNul m.links⟩ [])

/-! ## 6. Reading the text back -/

theorem versionAttr_inj {version version' : CString} (h : versionAttr version = versionAttr version') :
    version = version' := by
  have hbytes := List.append_cancel_left (List.append_cancel_right h)
  obtain ⟨bytes, hnul⟩ := version
  cases hbytes
  rfl

/-- **A link can be told by its text.** -/
theorem Link.text_inj {a b : Link} (h : a.text = b.text) : a = b := by
  have hids : ∀ {ids ids' : List Nat} {rest rest' : List UInt8}, pathLink ids ++ rest = pathLink ids' ++ rest' →
      ids = ids' ∧ rest = rest' := pathLink_inj
  have hplain : ∀ ids : List Nat, pathLink ids = pathLink ids ++ [] := fun ids => (List.append_nil _).symm
  have hattr : ∀ version, versionAttr version ≠ [] := fun version => List.cons_ne_nil _ _
  rcases a with ⟨oid, _ | version⟩ | ⟨oid, iid⟩ <;> rcases b with ⟨oid', _ | version'⟩ | ⟨oid', iid'⟩ <;>
    simp only [text] at h
  case object.none.object.none =>
    rw [hplain, hplain [oid'.val]] at h
    rw [Fin.ext (List.cons.inj (hids h).1).1]
  case object.none.object.some =>
    rw [hplain] at h
    exact absurd (hids h).2.symm (hattr version')
  case object.none.objectInstance =>
    rw [hplain, hplain [oid'.val, _]] at h
    cases (List.cons.inj (hids h).1).2
  case object.some.object.none =>
    rw [hplain [oid'.val]] at h
    exact absurd (hids h).2 (hattr version)
  case object.some.object.some =>
    rw [Fin.ext (List.cons.inj (hids h).1).1, versionAttr_inj (hids h).2]
  case object.some.objectInstance =>
    rw [hplain [oid'.val, _]] at h
    cases (List.cons.inj (hids h).1).2
  case objectInstance.object.none =>
    rw [hplain, hplain [oid'.val]] at h
    cases (List.cons.inj (hids h).1).2
  case objectInstance.object.some =>
    rw [hplain] at h
    cases (List.cons.inj (hids h).1).2
  case objectInstance.objectInstance =>
    rw [hplain, hplain [oid'.val, _]] at h
    obtain ⟨hoid, htail⟩ := List.cons.inj (hids h).1
    rw [Fin.ext hoid, Fin.ext (List.cons.inj htail).1]

theorem objectLinks_oid {oid : Id} {version : Option CString} {iids : List Id} {link : Link}
    (h : link ∈ objectLinks oid version iids) : link.oid = oid := by
  have hinstance : ∀ {link}, link ∈ iids.map (Link.objectInstance oid) → link.oid = oid := by
    intro link h
    obtain ⟨iid, -, rfl⟩ := List.mem_map.mp h
    rfl
  unfold objectLinks at h
  split at h
  · rw [List.mem_singleton.mp h]
    rfl
  · exact hinstance h
  · rcases List.mem_cons.mp h with rfl | h
    · rfl
    · exact hinstance h

theorem objectInstance_inj (oid : Id) : Function.Injective (Link.objectInstance oid) :=
  fun _ _ h => (Link.objectInstance.inj h).2

/-- The links of an Object tell its version and its Instances. -/
theorem objectLinks_inj {oid : Id} {version version' : Option CString} {iids iids' : List Id}
    (h : objectLinks oid version iids = objectLinks oid version' iids') : version = version' ∧ iids = iids' := by
  have hmap := List.map_injective_iff.mpr (objectInstance_inj oid)
  rcases version with _ | version <;> rcases version' with _ | version'
  case none.none =>
    cases iids with
    | nil =>
        cases iids' with
        | nil => exact ⟨rfl, rfl⟩
        | cons iid' iids' => cases (List.cons.inj h).1
    | cons iid iids =>
        cases iids' with
        | nil => cases (List.cons.inj h).1
        | cons iid' iids' => exact ⟨rfl, hmap h⟩
  case none.some =>
    cases iids with
    | nil => cases (List.cons.inj h).1
    | cons iid iids => cases (List.cons.inj h).1
  case some.none =>
    cases iids' with
    | nil => cases (List.cons.inj h).1
    | cons iid' iids' => cases (List.cons.inj h).1
  case some.some =>
    obtain ⟨hversion, hiids⟩ := List.cons.inj h
    exact ⟨(Link.object.inj hversion).2, hmap hiids⟩

namespace ListedModel

theorem reported_ascending (m : ListedModel σ) : m.reported.Pairwise fun a b => a.1 < b.1 :=
  List.pairwise_map.mpr (m.objects.ascending.filter _)

/-- **The links tell which Objects there are, in which versions and with which Instances.** -/
theorem links_inj {m : ListedModel σ} {m' : ListedModel τ} (h : m.links = m'.links) : m.reported = m'.reported := by
  have hgroup : ∀ r : Id × Option CString × List Id, objectLinks r.1 r.2.1 r.2.2 ≠ [] ∧
      ∀ link ∈ objectLinks r.1 r.2.1 r.2.2, link.oid = r.1 :=
    fun r => ⟨objectLinks_ne_nil _ _ _, fun _ hlink => objectLinks_oid hlink⟩
  have hgroups := groups_inj m.reported_ascending m'.reported_ascending (fun r _ => hgroup r) (fun r _ => hgroup r) h
  refine List.map_injective_iff.mpr (fun r r' hr => ?_) hgroups
  obtain ⟨oid, version, iids⟩ := r
  obtain ⟨oid', version', iids'⟩ := r'
  obtain ⟨link, links, hne⟩ := List.exists_cons_of_ne_nil (objectLinks_ne_nil oid version iids)
  have hmem : link ∈ objectLinks oid version iids := hne ▸ List.mem_cons_self
  have hmem' : link ∈ objectLinks oid' version' iids' := hr ▸ hmem
  have hoid : oid = oid' := (objectLinks_oid hmem).symm.trans (objectLinks_oid hmem')
  subst hoid
  obtain ⟨rfl, rfl⟩ := objectLinks_inj hr
  rfl

theorem mem_links {m : ListedModel σ} {oid : Id} {version : CString} (h : Link.object oid (some version) ∈ m.links) :
    validateVersion (some version) = 0 := by
  obtain ⟨r, hr, hlink⟩ := List.mem_flatMap.mp h
  obtain ⟨obj, hobj, rfl⟩ := List.mem_map.mp hr
  have hvalid := (m.objects.valid obj (List.mem_filter.mp hobj).1).2
  have hinstance : ∀ iids : List Id, Link.object oid (some version) ∉ iids.map (Link.objectInstance obj.oid) := by
    intro iids h
    obtain ⟨iid, -, h⟩ := List.mem_map.mp h
    cases h
  dsimp only at hlink
  unfold objectLinks at hlink
  split at hlink
  · cases (Link.object.inj (List.mem_singleton.mp hlink)).2
  · exact absurd hlink (hinstance _)
  next hversion =>
    rcases List.mem_cons.mp hlink with hlink | hlink
    · rw [(Link.object.inj hlink).2, ← hversion]
      exact hvalid
    · exact absurd hlink (hinstance _)

/-- **No link has a comma in it**: a version that was accepted has none. -/
theorem comma_notMem (m : ListedModel σ) {link : Link} (h : link ∈ m.links) : comma ∉ link.text := by
  cases link with
  | objectInstance oid iid => exact comma_notMem_pathLink _
  | object oid version =>
      cases version with
      | none => exact comma_notMem_pathLink _
      | some version =>
          exact fun hc => (List.mem_append.mp hc).elim (comma_notMem_pathLink _) (comma_notMem_versionAttr (mem_links h))

/-- The items of the text: neither empty nor with a comma. -/
theorem items (m : ListedModel σ) : ∀ item ∈ m.links.map Link.text, item ≠ [] ∧ comma ∉ item := by
  intro item hitem
  obtain ⟨link, hlink, rfl⟩ := List.mem_map.mp hitem
  exact ⟨link.text_ne_nil, m.comma_notMem hlink⟩

end ListedModel

/-! ## 7. The comparison -/

theorem dmCachesEqual_queryDm {m : ListedModel σ} {m' : ListedModel τ} {capacity capacity' : Option Nat}
    {text text' : CString} (h : queryDm capacity m.objects m.state = (0, some text))
    (h' : queryDm capacity' m'.objects m'.state = (0, some text')) :
    dmCachesEqual (some text) (some text') = true ↔ m.reported = m'.reported := by
  have hbytes : text = text' ↔ text.bytes = text'.bytes := by
    obtain ⟨bytes, hnul⟩ := text
    obtain ⟨bytes', hnul'⟩ := text'
    exact CString.mk.injEq _ _ _ _ ▸ Iff.rfl
  have hequal : dmCachesEqual (some text) (some text') = true ↔ text.bytes = text'.bytes :=
    decide_eq_true_iff.trans hbytes
  rw [hequal, queryDm_ok h, queryDm_ok h']
  constructor
  · intro heq
    have hitems := intercalate_inj m.items m'.items heq
    exact ListedModel.links_inj (List.map_injective_iff.mpr (fun _ _ => Link.text_inj) hitems)
  · intro heq
    rw [ListedModel.links, ListedModel.links, heq]

/-- **The text is the list of the links, with a comma between them and no item empty, and two texts are equal exactly
    if the same is to be reported.** -/
theorem queryDm_links (m : ListedModel σ) (m' : ListedModel τ) :
    (∃ text, queryDm none m.objects m.state = (0, some text)) ∧
      (∀ item ∈ m.links.map Link.text, item ≠ [] ∧ comma ∉ item) ∧
      ∀ capacity capacity' text text', queryDm capacity m.objects m.state = (0, some text) →
        queryDm capacity' m'.objects m'.state = (0, some text') →
        text.bytes = [comma].intercalate (m.links.map Link.text) ∧
          (dmCachesEqual (some text) (some text') = true ↔ m.reported = m'.reported) := by
  refine ⟨?_, m.items, fun _ _ _ _ h h' => ⟨queryDm_ok h, dmCachesEqual_queryDm h h'⟩⟩
  have hret := queryDm_total m
  unfold queryDm at hret ⊢
  dsimp only at hret ⊢
  split at hret
  next hne => exact absurd hret hne
  next hlisted =>
  rw [if_neg hlisted]
  dsimp only at hret ⊢
  exact ⟨_, by rw [hret, if_pos rfl]⟩

/-- An Object with these Instances and no Resources. -/
def plainObject (oid : Id) (version : Option CString) (iids : List Id) : RegisteredObject Unit where
  oid := oid
  listInstances _ := (iids, 0)
  listResources _ _ := ([], 0)
  listResourceInstances _ _ _ := ([], 0)
  ref := oid.val
  version := version

/-- The Device Object in version 1.1, the Server Object and the Security Object, registered in this order. -/
def threeObjects : ObjectList Unit :=
  let empty := (⟨[], List.Pairwise.nil, fun _ h => nomatch h⟩ : ObjectList Unit)
  let device := (empty.registerObject true (plainObject 3 (some (.ofBytes [0x31, 0x2E, 0x31])) [0])).2
  let server := (device.registerObject true (plainObject 1 none [1])).2
  (server.registerObject true (plainObject 0 none [0, 1])).2

theorem threeObjects_lists : ∀ obj ∈ threeObjects.objects,
    Ascending id (-1) (obj.listInstances ()).1 ∧ 0 ≤ (obj.listInstances ()).2 := by
  decide +kernel

def threeListed : ListedModel Unit := ⟨threeObjects, (), threeObjects_lists⟩

/-- The list of these Objects, and the comparison of it with itself. -/
theorem queryDm_links_three : ∃ text, queryDm none threeListed.objects threeListed.state = (0, some text) ∧
    text.bytes = [comma].intercalate (threeListed.links.map Link.text) ∧
    (dmCachesEqual (some text) (some text) = true ↔ threeListed.reported = threeListed.reported) := by
  obtain ⟨⟨text, htext⟩, -, hall⟩ := queryDm_links threeListed threeListed
  exact ⟨text, htext, hall none none text text htext htext⟩

-- `</1/1>,</3>;ver="1.1",</3/0>`
example : (queryDm none threeObjects ()).2.map CString.bytes = some
    [0x3C, 0x2F, 0x31, 0x2F, 0x31, 0x3E, 0x2C, 0x3C, 0x2F, 0x33, 0x3E,
      0x3B, 0x76, 0x65, 0x72, 0x3D, 0x22, 0x31, 0x2E, 0x31, 0x22, 0x2C, 0x3C, 0x2F, 0x33, 0x2F, 0x30, 0x3E] := by
  decide +kernel

end Anjay.Reg
