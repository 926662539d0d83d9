/-
  File:      Anjay/Io/Tlv/RoundTrip.lean
  Subject:   What is serialized with the TLV output context is what the TLV input context reads.

  * `integerOfBytes_integerBytes`: a shortened integer is sign-extended back.
  * `tree_entries`: the encoding of a tree is a complete payload with the leaves of the tree.
  * `decode_serialize`: decoding a serialized tree with the typed getters gives its leaves, and then
    the end.
-/
import Anjay.Io.Tlv.Serialize
import Anjay.Io.Tlv.Grammar
import Mathlib.Data.List.TakeWhile

namespace Anjay.Tlv

open Lib

/-! ## 1. The typed getters -/

/-- Which getter a reader uses. -/
inductive Kind
  | bytes
  | string
  | integer
  | boolean
  | objlnk
  deriving DecidableEq, Repr

def Value.kind : Value → Kind
  | .bytes _ => .bytes
  | .string _ => .string
  | .integer _ => .integer
  | .boolean _ => .boolean
  | .objlnk _ _ => .objlnk

/-- The value of an entry, with `anjay_get_bytes` in pieces of `chunk` bytes, `anjay_get_string` with
    a buffer of `bufSize` bytes, or one of the other getters. A C string ends at its first null. -/
def getTyped (chunk bufSize : Nat) (ctx : TlvIn) : Kind → Option Value × TlvIn
  | .bytes =>
      match readValueLoop chunk (ctx.stream.length + 1) ctx [] with
      | (.ok data, ctx) => (some (.bytes data), ctx)
      | (.error _, ctx) => (none, ctx)
  | .string =>
      match getString ctx bufSize with
      | ((code, data), ctx) =>
          (if code = 0 then some (.string (data.takeWhile (· ≠ 0))) else none, ctx)
  | .integer =>
      match getInteger ctx with
      | (.ok v, ctx) => (some (.integer v), ctx)
      | (.error _, ctx) => (none, ctx)
  | .boolean =>
      match getBool ctx with
      | (.ok v, ctx) => (some (.boolean v), ctx)
      | (.error _, ctx) => (none, ctx)
  | .objlnk =>
      match getObjlnk ctx with
      | (.ok (oid, iid), ctx) => (some (.objlnk oid iid), ctx)
      | (.error _, ctx) => (none, ctx)

/-- What a reader learns of one leaf. -/
structure TypedLeaf where
  path : UriPath
  isArray : Bool
  value : Value
  deriving DecidableEq, Repr

def TypedLeaf.raw (l : TypedLeaf) : Leaf := ⟨l.path, l.isArray, l.value.encode⟩

/-- `get_path`, the getter, `next_entry`, for each kind in turn, and then the end. -/
def decodeLoop (chunk bufSize : Nat) : List Kind → TlvIn → Option (List TypedLeaf)
  | [], ctx => if (getPath ctx).1 = .error getPathEnd then some [] else none
  | k :: ks, ctx =>
      match getPath ctx with
      | (.error _, _) => none
      | (.ok (path, isArray), ctx) =>
          match getTyped chunk bufSize ctx k with
          | (none, _) => none
          | (some value, ctx) =>
              match nextEntry ctx with
              | (code, ctx) =>
                  if code = 0 then
                    (decodeLoop chunk bufSize ks ctx).map fun ls => ⟨path, isArray, value⟩ :: ls
                  else none

def decode (chunk bufSize : Nat) (kinds : List Kind) (root : UriPath) (payload : List UInt8) :
    Option (List TypedLeaf) :=
  decodeLoop chunk bufSize kinds (inputTlvCreate payload (some root))

/-! ## 2. Integers -/

/-- The 64-bit shifts lose nothing as long as the value read so far fits the bytes read so far. -/
theorem foldl_bmod : ∀ (bs : List UInt8) (acc : Int) (j : Nat), j + bs.length ≤ 8 →
    -(256 ^ j : Int) ≤ 2 * acc → 2 * acc + 2 ≤ 256 ^ j →
    bs.foldl (fun acc b => (acc * 256).bmod (2 ^ 64) + (b.toNat : Int)) acc
      = bs.foldl (fun acc b => acc * 256 + (b.toNat : Int)) acc
  | [], _, _, _, _, _ => rfl
  | b :: bs, acc, j, hj, hlo, hhi => by
      rw [List.length_cons] at hj
      have hb : (b.toNat : Int) < 256 := by exact_mod_cast b.toNat_lt
      have hb0 : (0 : Int) ≤ b.toNat := Int.natCast_nonneg _
      have hpow : (256 : Int) ^ (j + 1) = 256 ^ j * 256 := pow_succ _ _
      have hmax : (256 : Int) ^ (j + 1) ≤ 2 ^ 64 := by
        have h8 : (256 : Int) ^ (j + 1) ≤ 256 ^ 8 :=
          pow_le_pow_right₀ (by decide) (by omega)
        exact h8.trans (by decide)
      have hmod : (acc * 256).bmod (2 ^ 64) = acc * 256 := by
        rw [Int.bmod_def]
        omega
      rw [List.foldl_cons, List.foldl_cons, hmod]
      exact foldl_bmod bs _ (j + 1) (by omega) (by omega) (by omega)

theorem integerOfBytes_eq {bs : List UInt8} (hlen : bs.length ≤ 8) :
    integerOfBytes bs = bs.foldl (fun acc b => acc * 256 + (b.toNat : Int)) (signOf bs) := by
  cases bs with
  | nil => rfl
  | cons b bs =>
      have hb : b.toNat < 256 := b.toNat_lt
      rw [List.length_cons] at hlen
      have hsign : signOf (b :: bs) = -1 ∧ 128 ≤ b.toNat ∨ signOf (b :: bs) = 0 ∧ b.toNat < 128 := by
        by_cases h : 128 ≤ b.toNat
        · exact Or.inl ⟨if_pos h, h⟩
        · exact Or.inr ⟨if_neg h, Nat.not_le.mp h⟩
      have hmod : (signOf (b :: bs) * 256).bmod (2 ^ 64) = signOf (b :: bs) * 256 := by
        rcases hsign with ⟨h, -⟩ | ⟨h, -⟩ <;> rw [h] <;> decide
      rw [integerOfBytes, List.foldl_cons, List.foldl_cons, hmod]
      refine foldl_bmod bs _ 1 (by omega) ?_ ?_
      · rcases hsign with ⟨h, h2⟩ | ⟨h, h2⟩ <;> rw [h] <;> omega
      · rcases hsign with ⟨h, h2⟩ | ⟨h, h2⟩ <;> rw [h] <;> omega

theorem integerOfBytes_beBytes {k : Nat} (hk : 0 < k) (hk8 : k ≤ 8) {v : Int}
    (hlo : -(256 ^ k : Int) ≤ 2 * v) (hhi : 2 * v < 256 ^ k) :
    integerOfBytes (beBytes k (v % 256 ^ k).toNat) = v := by
  rw [integerOfBytes_eq (by rw [beBytes_length]; exact hk8)]
  exact signExtend_beBytes hk hlo hhi

/-- **A shortened integer is sign-extended back, and its length is a power of two.** -/
theorem integerOfBytes_integerBytes {v : Int} (hlo : -2 ^ 63 ≤ v) (hhi : v < 2 ^ 63) :
    integerOfBytes (integerBytes v) = v ∧ isPowerOf2 (integerBytes v).length = true := by
  unfold integerBytes
  split
  · split
    · split
      · rename_i h
        rw [Int.bmod_def] at h
        exact ⟨integerOfBytes_beBytes (by decide) (by decide) (by omega) (by omega), by
          rw [beBytes_length]; decide⟩
      · rename_i h _
        rw [Int.bmod_def] at h
        exact ⟨integerOfBytes_beBytes (by decide) (by decide) (by omega) (by omega), by
          rw [beBytes_length]; decide⟩
    · rename_i h _
      rw [Int.bmod_def] at h
      exact ⟨integerOfBytes_beBytes (by decide) (by decide) (by omega) (by omega), by
        rw [beBytes_length]; decide⟩
  · exact ⟨integerOfBytes_beBytes (by decide) (by decide) (by omega) (by omega), by
      rw [beBytes_length]; decide⟩

/-! ## 3. Getting a value back -/

theorem objlnk_bytes (oid iid : Id) :
    beBytes 4 ((oid.val <<< 16) ||| iid.val) = beBytes 2 oid ++ beBytes 2 iid := by
  have hi : iid.val < 2 ^ 16 := iid.isLt
  have hor : (oid.val <<< 16) ||| iid.val = oid.val * 256 ^ 2 + iid.val := by
    rw [← Nat.shiftLeft_add_eq_or_of_lt hi, Nat.shiftLeft_eq, show 2 ^ 16 = 256 ^ 2 from rfl]
  have hdiv : (oid.val * 256 ^ 2 + iid.val) / 256 ^ 2 = oid.val := by omega
  rw [hor, show (4 : Nat) = 2 + 2 from rfl, beBytes_split, hdiv, beBytes_add_mul]

theorem ofNat_beNat_beBytes (i : Id) : Fin.ofNat 65536 (beNat (beBytes 2 i)) = i := by
  have hi : i.val < 256 ^ 2 := i.isLt
  rw [beNat_beBytes_of_lt hi]
  exact Fin.ext (Nat.mod_eq_of_lt i.isLt)

/-- **Each getter reads the value that was returned to the output context.** -/
theorem getTyped_fetched {root : UriPath} {ctx : TlvIn} {path : UriPath} {isArray : Bool}
    {v : Value} {ls : List Leaf} {chunk bufSize : Nat} (hchunk : 0 < chunk)
    (hbuf : tlvMaxLength < bufSize) (hv : v.Ok)
    (h : Fetched root ctx ⟨path, isArray, v.encode⟩ [] v.encode ls) :
    ∃ ctx', getTyped chunk bufSize ctx v.kind = (some v, ctx') ∧
      Fetched root ctx' ⟨path, isArray, v.encode⟩ v.encode [] ls := by
  cases v with
  | bytes data =>
      obtain ⟨t, es, rest, hH, hacc⟩ := h
      have hfuel : data.length < ctx.stream.length + 1 := by
        rw [hH.stream, List.length_append]
        exact Nat.lt_succ_of_le (Nat.le_add_right _ _)
      obtain ⟨ctx', he, hH'⟩ := readValueLoop_holding hchunk _ [] hH hfuel
      refine ⟨ctx', ?_, t, es, rest, hH', hacc⟩
      simp only [getTyped, Value.kind, he, List.nil_append]
      rfl
  | string value =>
      have hlen : value.length ≤ bufSize - 1 := by
        have := hv.1
        omega
      obtain ⟨ctx', he, hF⟩ := readToEnd_fetched h hlen
      refine ⟨ctx', ?_, hF⟩
      have hzero : value.takeWhile (· ≠ 0) = value := by
        rw [List.takeWhile_eq_self_iff]
        intro b hb
        simp only [decide_eq_true_eq]
        exact fun e => hv.2 (e ▸ hb)
      simp only [getTyped, Value.kind, getString, he, if_true]
      show (some (Value.string (value.takeWhile (· ≠ 0))), ctx') = _
      rw [hzero]
  | integer value =>
      obtain ⟨ctx', he, hF⟩ := readWholeEntry_fetched h (integerBytes_length value)
      refine ⟨ctx', ?_, hF⟩
      obtain ⟨h1, h2⟩ := integerOfBytes_integerBytes hv.1 hv.2
      simp only [getTyped, Value.kind, getInteger, he]
      show (match (if (0 : Int) ≠ 0 then _ else if isPowerOf2 (integerBytes value).length then
        (Except.ok (integerOfBytes (integerBytes value)), ctx') else _ : Except Int Int × TlvIn) with
        | (.ok v, ctx) => (some (Value.integer v), ctx)
        | (.error _, ctx) => (none, ctx)) = _
      rw [if_neg (by simp), if_pos h2, h1]
  | boolean value =>
      have hlen : (Value.boolean value).encode.length = 1 := by cases value <;> rfl
      obtain ⟨ctx', he, hF⟩ := readWholeEntry_fetched h (Nat.le_of_eq hlen)
      refine ⟨ctx', ?_, hF⟩
      simp only [getTyped, Value.kind, getBool, he]
      cases value <;> rfl
  | objlnk oid iid =>
      have hlen : (beBytes 4 ((oid.val <<< 16) ||| iid.val)).length = 4 := beBytes_length _ _
      obtain ⟨ctx', he, hF⟩ := readWholeEntry_fetched h (Nat.le_of_eq hlen)
      refine ⟨ctx', ?_, hF⟩
      have htake : (beBytes 2 oid.val ++ beBytes 2 iid.val).take 2 = beBytes 2 oid.val :=
        List.take_left' (beBytes_length _ _)
      have hdrop : (beBytes 2 oid.val ++ beBytes 2 iid.val).drop 2 = beBytes 2 iid.val :=
        List.drop_left' (beBytes_length _ _)
      simp only [Value.encode, objlnk_bytes] at he
      simp only [getTyped, Value.kind, getObjlnk, he, htake, hdrop, ofNat_beNat_beBytes,
        List.length_append, beBytes_length]
      rfl

theorem decodeLoop_between {root : UriPath} {chunk bufSize : Nat} (hchunk : 0 < chunk)
    (hbuf : tlvMaxLength < bufSize) : ∀ (ls : List TypedLeaf) {ctx : TlvIn},
      (∀ l ∈ ls, l.value.Ok) → Between root ctx (ls.map TypedLeaf.raw) →
      decodeLoop chunk bufSize (ls.map fun l => l.value.kind) ctx = some ls
  | [], ctx, _, h => by
      show (if (getPath ctx).1 = .error getPathEnd then some [] else none) = some []
      rw [if_pos (getPath_end h)]
  | l :: ls, ctx, hok, h => by
      obtain ⟨ctx1, he1, -, h1⟩ := getPath_between h
      obtain ⟨ctx2, he2, h2⟩ := getTyped_fetched hchunk hbuf (hok l List.mem_cons_self) h1
      obtain ⟨ctx3, he3, h3⟩ := nextEntry_fetched h2
      have ih := decodeLoop_between hchunk hbuf ls
        (fun l' hl' => hok l' (List.mem_cons_of_mem _ hl')) h3
      simp only [List.map_cons, decodeLoop, he1, he2, he3, if_true, ih, Option.map_some]
      rfl

/-! ## 4. The leaves of a tree -/

/-- The leaf that stands for an empty Object Instance or an empty array. -/
def TypedLeaf.empty (path : UriPath) (isArray : Bool) : TypedLeaf := ⟨path, isArray, .bytes []⟩

def instanceLeaf (oid iid rid : Id) (r : ValidId × GoodValue) : TypedLeaf :=
  ⟨.resourceInstance oid iid rid r.1, false, r.2⟩

def resourceLeaves (oid iid : Id) (r : ValidId × Content) : List TypedLeaf :=
  match r.2 with
  | .single value => [⟨.resource oid iid r.1, false, value⟩]
  | .multiple [] => [.empty (.resource oid iid r.1) true]
  | .multiple (ri :: ris) => (ri :: ris).map (instanceLeaf oid iid r.1)

def objectInstanceLeaves (oid : Id) (i : ValidId × List (ValidId × Content)) : List TypedLeaf :=
  match i.2 with
  | [] => [.empty (.instancePath oid i.1) false]
  | r :: rs => (r :: rs).flatMap (resourceLeaves oid i.1)

/-- The leaves of a tree in order. -/
def Tree.leaves : Tree → List TypedLeaf
  | .object oid is => is.flatMap (objectInstanceLeaves oid)
  | .inst oid iid rs => rs.flatMap (resourceLeaves oid iid)
  | .resource oid iid rid c => resourceLeaves oid iid (rid, c)
  | .resourceInstance oid iid rid riid v => [instanceLeaf oid iid rid (riid, v)]

theorem resourceLeaves_ok (oid iid : Id) (r : ValidId × Content) :
    ∀ l ∈ resourceLeaves oid iid r, l.value.Ok := by
  obtain ⟨rid, c⟩ := r
  intro l hl
  rcases c with v | (_ | ⟨ri, ris⟩)
  · rw [List.mem_singleton.mp hl]
    exact v.property
  · rw [List.mem_singleton.mp hl]
    exact Nat.zero_le _
  · obtain ⟨r', -, rfl⟩ := List.mem_map.mp hl
    exact r'.2.property

theorem leaves_ok (t : Tree) : ∀ l ∈ t.leaves, l.value.Ok := by
  intro l hl
  cases t with
  | object oid is =>
      obtain ⟨⟨iid, rs⟩, -, hi⟩ := List.mem_flatMap.mp hl
      rcases rs with _ | ⟨r, rs⟩
      · rw [List.mem_singleton.mp hi]
        exact Nat.zero_le _
      · obtain ⟨r', -, hr⟩ := List.mem_flatMap.mp hi
        exact resourceLeaves_ok _ _ r' l hr
  | inst oid iid rs =>
      obtain ⟨r, -, hr⟩ := List.mem_flatMap.mp hl
      exact resourceLeaves_ok _ _ r l hr
  | resource oid iid rid c => exact resourceLeaves_ok _ _ _ l hl
  | resourceInstance oid iid rid riid v =>
      rw [List.mem_singleton.mp hl]
      exact v.property

section Leaves

variable {root : UriPath}

/-- **A value entry is one leaf.** -/
theorem entries_value (type : TlvIdType) (cur : UriPath) {id : Id} {data : List UInt8}
    (hid : id ≠ idInvalid)
    (htype : type = .rid ∨ type = .riid ∨ data = []) (hlen : data.length ≤ tlvMaxLength)
    (hin : (cur.setId type.idType id).outsideBase root = false) :
    Entries root cur (encodeEntry type id data)
      [⟨cur.setId type.idType id, type = .ridArray, data⟩] (cur.setId type.idType idInvalid) := by
  have hparse := parseHeader_encodeHeader type id hlen []
  rw [List.append_nil] at hparse
  have hvalue : (⟨type, id, data.length, headerSize id data.length⟩ : Header).hasValue = true := by
    rw [Header.hasValue, decide_eq_true_eq]
    rcases htype with h | h | h
    · exact Or.inr (Or.inr h)
    · exact Or.inr (Or.inl h)
    · exact Or.inl (by rw [h]; rfl)
  have hok : EntryOk root cur ⟨type, id, data.length, headerSize id data.length⟩ := ⟨hid, hin⟩
  have hleaf := Entries.leaf hparse hvalue rfl hok (.nil _)
  rwa [List.append_nil, Header.exitPath, Header.path, UriPath.setId_setId] at hleaf

/-- **An entry with children has the leaves of its children.** -/
theorem entries_parent (cur : UriPath) {type : TlvIdType} {id : Id} {body : List UInt8} {ls : List Leaf}
    (hid : id ≠ idInvalid) (htype : type = .iid ∨ type = .ridArray) (hne : body ≠ [])
    (hlen : body.length ≤ tlvMaxLength)
    (hin : (cur.setId type.idType id).outsideBase root = false)
    (hbody : Entries root (cur.setId type.idType id) body ls (cur.setId type.idType id)) :
    Entries root cur (encodeEntry type id body) ls (cur.setId type.idType idInvalid) := by
  have hparse := parseHeader_encodeHeader type id hlen []
  rw [List.append_nil] at hparse
  have hvalue : (⟨type, id, body.length, headerSize id body.length⟩ : Header).hasValue = false := by
    rw [Header.hasValue, decide_eq_false_iff_not]
    rintro (h | h | h)
    · exact hne (List.length_eq_zero_iff.mp h)
    · rcases htype with h' | h' <;> rw [h'] at h <;> cases h
    · rcases htype with h' | h' <;> rw [h'] at h <;> cases h
  have hok : EntryOk root cur ⟨type, id, body.length, headerSize id body.length⟩ := ⟨hid, hin⟩
  have hnode := Entries.node hparse hvalue rfl hok hbody (.nil _)
  rwa [List.append_nil, List.append_nil, Header.exitPath, UriPath.setId_setId] at hnode

theorem encodeEntry_ne_nil (type : TlvIdType) (id : Id) (data : List UInt8) :
    encodeEntry type id data ≠ [] := by
  intro h
  have h2 := headerSize_ge id data.length
  have h0 := congrArg List.length h
  rw [encodeEntry, List.length_append, encodeHeader_length, List.length_nil] at h0
  omega

variable {oid iid : ValidId}

theorem instances_entries {rid : ValidId}
    (hin : (UriPath.resource oid iid rid).outsideBase root = false) :
    ∀ ris : List (ValidId × GoodValue),
      Entries root (.resource oid iid rid) (encodeInstances ris)
        ((ris.map (instanceLeaf oid iid rid)).map TypedLeaf.raw) (.resource oid iid rid)
  | [] => .nil _
  | r :: ris => by
      have hpath : (UriPath.resourceInstance oid iid rid r.1).outsideBase root = false := by
        rw [UriPath.outsideBase_iff_prefix] at hin ⊢
        rw [validIds_resource] at hin
        rw [validIds_resourceInstance]
        exact hin.trans (List.prefix_append [oid.val, iid.val, rid.val] [r.1.val])
      have hone := entries_value .riid (.resource oid iid rid) r.1.property
        (Or.inr (Or.inl rfl)) (value_length r.2.property) hpath
      exact entries_append hone (instances_entries hin ris)

/-- The current path is only required to be below the Object Instance. -/
theorem resource_entries (cur : UriPath) {r : ValidId × Content}
    (hcur : ∀ i : Id, cur.setId .rid i = .resource oid iid i)
    (hin : (UriPath.resource oid iid r.1).outsideBase root = false) (hfits : r.2.Fits) :
    Entries root cur (encodeResource r) ((resourceLeaves oid iid r).map TypedLeaf.raw)
      (.instancePath oid iid) := by
  obtain ⟨rid, c⟩ := r
  have hpath : cur.setId .rid rid = .resource oid iid rid := hcur rid
  have hexit : cur.setId .rid idInvalid = .instancePath oid iid := hcur idInvalid
  have hin' : (cur.setId .rid rid).outsideBase root = false := by
    rw [hpath]
    exact hin
  rcases c with v | (_ | ⟨ri, ris⟩)
  · have h := entries_value .rid cur rid.property (Or.inl rfl) (value_length v.property) hin'
    rw [TlvIdType.idType, hpath, hexit] at h
    exact h
  · have h := entries_value .ridArray cur rid.property (Or.inr (Or.inr rfl)) (Nat.zero_le _) hin'
    rw [TlvIdType.idType, hpath, hexit] at h
    exact h
  · have hbody := instances_entries hin (ri :: ris)
    rw [← hpath] at hbody
    have hne : encodeInstances (ri :: ris) ≠ [] := fun h =>
      encodeEntry_ne_nil _ _ _ (List.append_eq_nil_iff.mp h).1
    have h := entries_parent cur rid.property (Or.inr rfl) hne hfits hin' hbody
    rw [TlvIdType.idType, hexit] at h
    exact h

theorem resources_entries :
    ∀ rs : List (ValidId × Content),
      (∀ r ∈ rs, (UriPath.resource oid iid r.1).outsideBase root = false ∧ r.2.Fits) →
      Entries root (.instancePath oid iid) (encodeResources rs)
        ((rs.flatMap (resourceLeaves oid iid)).map TypedLeaf.raw) (.instancePath oid iid)
  | [], _ => .nil _
  | r :: rs, h => by
      have hr := h r List.mem_cons_self
      have hone := resource_entries (.instancePath oid iid) (fun _ => rfl) hr.1 hr.2
      have hrest := resources_entries rs fun r' hr' => h r' (List.mem_cons_of_mem _ hr')
      rw [List.flatMap_cons, List.map_append]
      exact entries_append hone hrest

theorem objectInstances_entries :
    ∀ is : List (ValidId × List (ValidId × Content)),
      (∀ i ∈ is, (encodeResources i.2).length ≤ tlvMaxLength ∧ ∀ r ∈ i.2, r.2.Fits) →
      Entries (.object oid) (.object oid) (encodeObjectInstances is)
        ((is.flatMap (objectInstanceLeaves oid)).map TypedLeaf.raw) (.object oid)
  | [], _ => .nil _
  | ⟨iid, rs⟩ :: is, h => by
      obtain ⟨hlen, hres⟩ := h _ List.mem_cons_self
      have hrest := objectInstances_entries is fun i' hi' => h i' (List.mem_cons_of_mem _ hi')
      have hin : (UriPath.instancePath oid iid).outsideBase (.object oid) = false := by
        rw [UriPath.outsideBase_iff_prefix, validIds_object, validIds_instancePath]
        exact List.prefix_append [oid.val] _
      have hone : Entries (.object oid) (.object oid) (encodeEntry .iid iid (encodeResources rs))
          ((objectInstanceLeaves oid (iid, rs)).map TypedLeaf.raw) (.object oid) := by
        rcases rs with _ | ⟨r, rs⟩
        · exact entries_value .iid (.object oid) iid.property (Or.inr (Or.inr rfl))
            (Nat.zero_le _) hin
        · have hne : encodeResources (r :: rs) ≠ [] := fun h0 => by
            have hr := (List.append_eq_nil_iff.mp h0).1
            obtain ⟨rid, c⟩ := r
            cases c <;> exact encodeEntry_ne_nil _ _ _ hr
          refine entries_parent (.object oid) iid.property (Or.inl rfl) hne hlen hin
            (resources_entries (r :: rs) fun r' hr' => ⟨?_, hres r' hr'⟩)
          rw [UriPath.outsideBase_iff_prefix, validIds_object, validIds_resource]
          exact List.prefix_append [oid.val] _
      rw [List.flatMap_cons, List.map_append]
      exact entries_append hone hrest

end Leaves

/-- **The encoding of a tree is a complete payload with the leaves of the tree.** -/
theorem tree_entries (t : Tree) (hfits : t.Fits) :
    ∃ cur', Entries t.root t.root t.encode (t.leaves.map TypedLeaf.raw) cur' := by
  cases t with
  | object oid is => exact ⟨_, objectInstances_entries is hfits⟩
  | inst oid iid rs =>
      refine ⟨_, resources_entries rs fun r hr => ⟨?_, hfits r hr⟩⟩
      rw [Tree.root, UriPath.outsideBase_iff_prefix, validIds_instancePath, validIds_resource]
      exact List.prefix_append [oid.val, iid.val] _
  | resource oid iid rid c =>
      exact ⟨_, resource_entries (.resource oid iid rid) (fun _ => rfl) (UriPath.outsideBase_self _) hfits⟩
  | resourceInstance oid iid rid riid v =>
      exact ⟨_, entries_value .riid (.resourceInstance oid iid rid riid) riid.property
        (Or.inr (Or.inl rfl)) (value_length v.property) (UriPath.outsideBase_self _)⟩

/-! ## 5. The round trip -/

/-- **Serializing a tree and decoding the bytes gives the leaves of the tree, and then the end.** -/
theorem decode_serialize (narrow : BitVec 64 → Option (BitVec 32)) (t : Tree) (hfits : t.Fits)
    {chunk bufSize : Nat} (hchunk : 0 < chunk) (hbuf : tlvMaxLength < bufSize) :
    ∃ payload, serialize narrow t = some payload ∧
      decode chunk bufSize (t.leaves.map fun l => l.value.kind) t.root payload = some t.leaves := by
  obtain ⟨cur', hE⟩ := tree_entries t hfits
  have hacc : Accepts t.root [] t.root t.encode (t.leaves.map TypedLeaf.raw) :=
    accepts_iff.mpr (Or.inl ⟨cur', hE⟩)
  exact ⟨t.encode, serialize_encode narrow t hfits,
    decodeLoop_between hchunk hbuf t.leaves (leaves_ok t) (between_create hacc)⟩

/-- An Object with an empty Instance, a single Resource and two arrays, one of them empty. -/
theorem decode_serialize_object :
    let v := fun i : Id => (⟨.integer i, by
      have : i.val < 65536 := i.isLt
      exact ⟨by omega, by omega⟩⟩ : GoodValue)
    let t := Tree.object ⟨3, by decide⟩
      [(⟨1, by decide⟩, []), (⟨300, by decide⟩, [(⟨9, by decide⟩, .single (v 77)),
        (⟨6, by decide⟩, .multiple []),
        (⟨7, by decide⟩, .multiple [(⟨0, by decide⟩, v 5), (⟨1, by decide⟩, v 300)])])]
    t.Fits ∧ ∃ payload, serialize (fun _ => none) t = some payload ∧
      decode 16 (2 ^ 24) (t.leaves.map fun l => l.value.kind) t.root payload = some t.leaves := by
  intro v t
  have hfits : t.Fits := by
    intro i hi
    simp only [List.mem_cons, List.not_mem_nil, or_false] at hi
    rcases hi with rfl | rfl
    · exact ⟨by decide, fun r hr => absurd hr List.not_mem_nil⟩
    · refine ⟨by decide, fun r hr => ?_⟩
      simp only [List.mem_cons, List.not_mem_nil, or_false] at hr
      rcases hr with rfl | rfl | rfl
      · trivial
      · exact Nat.zero_le _
      · show (encodeInstances _).length ≤ _
        decide
  exact ⟨hfits, decode_serialize _ t hfits (by decide) (by decide)⟩

end Anjay.Tlv
