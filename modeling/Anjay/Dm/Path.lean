/-
  File:      Anjay/Dm/Path.lean
  Subject:   Data model paths (`anjay_uri_path_t`) and the functions of `anjay_dm_utils.h` on them.

  * `UriPath.outsideBase_eq_false`: a path is inside a base iff it agrees with the base on every
    id of the base.
  * `UriPath.compare_eq_zero`, `UriPath.outsideBase_iff_prefix`: the comparison and the base test
    in terms of the list of valid ids.
  * `UriPath.compare_neg`: the comparison is the lexicographic order, a missing id counting as the
    greatest.
-/
import Mathlib.Order.Fin.Basic
import Mathlib.Data.List.Lex
import Mathlib.Tactic.Linarith

namespace Anjay

/-! ## 1. Ids and return codes -/

/-- Object, Object Instance, Resource and Resource Instance ids (`uint16_t`). -/
abbrev Id := Fin 65536

/-- Numerals of type `Id`. -/
instance instNeZeroId : NeZero 65536 := ⟨by decide⟩

/-- `ANJAY_ID_INVALID`, also the wildcard 65535. -/
def idInvalid : Id := 65535

def Dm.oidSecurity : Id := 0
def Dm.oidServer : Id := 1

/-- An id that can stand in a path. -/
abbrev ValidId := { i : Id // i ≠ idInvalid }

/-- `anjay_id_type_t`, the index of an id inside a path. -/
inductive IdType
  | oid
  | iid
  | rid
  | riid
  deriving DecidableEq, Repr

namespace IdType

/-- The numerical value of the enumeration constant. -/
def toNat : IdType → Nat
  | oid => 0
  | iid => 1
  | rid => 2
  | riid => 3

/-- The indices `0 .. AVS_ARRAY_SIZE(path->ids) - 1`, in the order a loop visits them. -/
def all : List IdType := [oid, iid, rid, riid]

theorem toNat_inj {a b : IdType} (h : a.toNat = b.toNat) : a = b := by
  cases a <;> cases b <;> first | rfl | cases h

theorem toNat_lt (t : IdType) : t.toNat < 4 := by
  cases t <;> decide

end IdType

/-- The codes of `anjay_dm.h` and of the input contexts that the modelled functions return. -/
def errBadRequest : Int := -128
def errUnauthorized : Int := -129
def errNotFound : Int := -132
def errMethodNotAllowed : Int := -133
def errInternal : Int := -160
def errNotImplemented : Int := -161
def getPathEnd : Int := 1
def bufferTooShort : Int := 1

/-- `_anjay_update_ret`: the first error wins. -/
def updateRet (var newRetval : Int) : Int :=
  if var = 0 then newRetval else var

@[simp] theorem updateRet_zero_left (n : Int) : updateRet 0 n = n := rfl

@[simp] theorem updateRet_zero_right (v : Int) : updateRet v 0 = v := by
  unfold updateRet
  split
  · rename_i h; exact h.symm
  · rfl

theorem updateRet_eq_zero {v n : Int} : updateRet v n = 0 ↔ v = 0 ∧ n = 0 := by
  unfold updateRet
  split
  · rename_i h; simp [h]
  · rename_i h; simp [h]

/-! ## 2. Paths -/

/-- `anjay_uri_path_t`: the path ends at the first `idInvalid`; what stands after it is undefined. -/
@[ext]
structure UriPath where
  oid : Id
  iid : Id
  rid : Id
  riid : Id
  deriving DecidableEq, Repr

namespace UriPath

/-- `path->ids[type]`. -/
def ids (p : UriPath) : IdType → Id
  | .oid => p.oid
  | .iid => p.iid
  | .rid => p.rid
  | .riid => p.riid

/-- `path->ids[type] = id`. -/
def setId (p : UriPath) : IdType → Id → UriPath
  | .oid, i => { p with oid := i }
  | .iid, i => { p with iid := i }
  | .rid, i => { p with rid := i }
  | .riid, i => { p with riid := i }

/-- `MAKE_ROOT_PATH()`, `MAKE_OBJECT_PATH(oid)` and so on. -/
def root : UriPath := ⟨idInvalid, idInvalid, idInvalid, idInvalid⟩
def object (oid : Id) : UriPath := ⟨oid, idInvalid, idInvalid, idInvalid⟩
def instancePath (oid iid : Id) : UriPath := ⟨oid, iid, idInvalid, idInvalid⟩
def resource (oid iid rid : Id) : UriPath := ⟨oid, iid, rid, idInvalid⟩
def resourceInstance (oid iid rid riid : Id) : UriPath := ⟨oid, iid, rid, riid⟩

/-- The loop of `_anjay_uri_path_length` over the indices still to visit. -/
def lengthFrom (p : UriPath) : List IdType → Nat
  | [] => 0
  | t :: ts => if p.ids t = idInvalid then 0 else p.lengthFrom ts + 1

/-- `_anjay_uri_path_length`. -/
def length (p : UriPath) : Nat := p.lengthFrom IdType.all

/-- `_anjay_uri_path_has`. -/
def has (p : UriPath) (t : IdType) : Bool := t.toNat < p.length

/-- `_anjay_uri_path_leaf_is`. -/
def leafIs (p : UriPath) (t : IdType) : Bool := p.length = t.toNat + 1

/-- The loop of `_anjay_uri_path_compare`. -/
def compareFrom (left right : UriPath) : List IdType → Int
  | [] => 0
  | t :: ts =>
      if left.ids t < right.ids t then -1
      else if right.ids t < left.ids t then 1
      else if left.ids t = idInvalid then 0
      else compareFrom left right ts

/-- `_anjay_uri_path_compare`. -/
def compare (left right : UriPath) : Int := compareFrom left right IdType.all

/-- `_anjay_uri_path_equal`. -/
def equal (left right : UriPath) : Bool := compare left right = 0

/-- The loop of `_anjay_uri_path_outside_base`. -/
def outsideBaseFrom (path base : UriPath) : List IdType → Bool
  | [] => false
  | t :: ts =>
      if base.ids t = idInvalid then false
      else if path.ids t ≠ base.ids t then true
      else outsideBaseFrom path base ts

/-- `_anjay_uri_path_outside_base`. -/
def outsideBase (path base : UriPath) : Bool := outsideBaseFrom path base IdType.all

/-- `_anjay_uri_path_normalized`: after the first `idInvalid` there is nothing else. -/
def normalized (p : UriPath) : Bool :=
  IdType.all.all fun t => decide (t.toNat ≤ p.length) || decide (p.ids t = idInvalid)

/-! ## 3. Reading and writing single ids -/

theorem ids_setId (p : UriPath) (t t' : IdType) (i : Id) :
    (p.setId t i).ids t' = if t' = t then i else p.ids t' := by
  cases t <;> cases t' <;> rfl

@[simp] theorem ids_setId_same (p : UriPath) (t : IdType) (i : Id) : (p.setId t i).ids t = i := by
  rw [ids_setId, if_pos rfl]

@[simp] theorem setId_setId (p : UriPath) (t : IdType) (i j : Id) :
    (p.setId t i).setId t j = p.setId t j := by
  cases t <;> rfl

@[simp] theorem setId_ids (p : UriPath) (t : IdType) : p.setId t (p.ids t) = p := by
  cases t <;> rfl

/-! ## 4. Length and bases -/

/-- The length counts exactly the ids before the first invalid one. -/
theorem lt_length_iff (p : UriPath) (t : IdType) :
    t.toNat < p.length ↔ ∀ t' : IdType, t'.toNat ≤ t.toNat → p.ids t' ≠ idInvalid := by
  simp only [length, IdType.all, lengthFrom, ids]
  constructor
  · intro h t' ht'
    cases t <;> cases t' <;> simp only [IdType.toNat] at h ht' ⊢ <;> grind
  · intro h
    have h0 := h .oid
    have h1 := h .iid
    have h2 := h .rid
    have h3 := h .riid
    cases t <;> simp only [IdType.toNat] at h0 h1 h2 h3 ⊢ <;> grind

theorem length_le (p : UriPath) : p.length ≤ 4 := by
  simp only [length, IdType.all, lengthFrom]
  grind

theorem ids_ne_invalid {p : UriPath} {t : IdType} (h : t.toNat < p.length) :
    p.ids t ≠ idInvalid :=
  (lt_length_iff p t).mp h t le_rfl

/-- **A path lies inside a base iff it has the base's ids, as far as the base goes.** -/
theorem outsideBase_eq_false {path base : UriPath} :
    path.outsideBase base = false ↔ ∀ t : IdType, t.toNat < base.length → path.ids t = base.ids t := by
  simp only [outsideBase, outsideBaseFrom, length, IdType.all, lengthFrom, ids]
  constructor
  · intro h t ht
    cases t <;> simp only [IdType.toNat] at ht ⊢ <;> grind
  · intro h
    have h0 := h .oid
    have h1 := h .iid
    have h2 := h .rid
    have h3 := h .riid
    simp only [IdType.toNat] at h0 h1 h2 h3
    grind

theorem outsideBase_self (p : UriPath) : p.outsideBase p = false :=
  outsideBase_eq_false.mpr fun _ _ => rfl

/-! ## 5. The valid ids of a path -/

/-- The ids before the first invalid one, from the indices still to visit. -/
def validFrom (p : UriPath) : List IdType → List Id
  | [] => []
  | t :: ts => if p.ids t = idInvalid then [] else p.ids t :: p.validFrom ts

/-- The path as the list of its ids: `/3/0` is `[3, 0]`. -/
def validIds (p : UriPath) : List Id := p.validFrom IdType.all

theorem length_validFrom (p : UriPath) : ∀ ts, (p.validFrom ts).length = p.lengthFrom ts
  | [] => rfl
  | t :: ts => by
      unfold validFrom lengthFrom
      split
      · rfl
      · rw [List.length_cons, length_validFrom p ts]

theorem length_validIds (p : UriPath) : p.validIds.length = p.length :=
  length_validFrom p IdType.all

theorem ne_invalid_of_mem_validFrom (p : UriPath) {i : Id} :
    ∀ ts, i ∈ p.validFrom ts → i ≠ idInvalid
  | [], h => absurd h List.not_mem_nil
  | t :: ts, h => by
      unfold validFrom at h
      split at h
      · exact absurd h List.not_mem_nil
      · rename_i hne
        rcases List.mem_cons.mp h with rfl | h'
        · exact hne
        · exact ne_invalid_of_mem_validFrom p ts h'

theorem compareFrom_eq_zero (p q : UriPath) :
    ∀ ts, compareFrom p q ts = 0 ↔ p.validFrom ts = q.validFrom ts
  | [] => by simp [compareFrom, validFrom]
  | t :: ts => by
      unfold compareFrom validFrom
      rcases lt_trichotomy (p.ids t) (q.ids t) with h | h | h
      · rw [if_pos h]
        have hne := h.ne
        refine ⟨fun e => by simp at e, fun e => ?_⟩
        by_cases hp : p.ids t = idInvalid
        · have hq : q.ids t ≠ idInvalid := fun e' => hne (hp.trans e'.symm)
          simp [hp, hq] at e
        · by_cases hq : q.ids t = idInvalid
          · simp [hp, hq] at e
          · simp only [hp, hq, if_false, List.cons.injEq] at e
            exact absurd e.1 hne
      · rw [h]
        by_cases hq : q.ids t = idInvalid
        · simp [hq]
        · simp [hq, compareFrom_eq_zero p q ts]
      · rw [if_neg h.not_gt, if_pos h]
        have hne := h.ne'
        refine ⟨fun e => by simp at e, fun e => ?_⟩
        by_cases hp : p.ids t = idInvalid
        · have hq : q.ids t ≠ idInvalid := fun e' => hne (hp.trans e'.symm)
          simp [hp, hq] at e
        · by_cases hq : q.ids t = idInvalid
          · simp [hp, hq] at e
          · simp only [hp, hq, if_false, List.cons.injEq] at e
            exact absurd e.1 hne

/-- **Two paths compare equal iff they have the same valid ids.** -/
theorem compare_eq_zero {p q : UriPath} : p.compare q = 0 ↔ p.validIds = q.validIds :=
  compareFrom_eq_zero p q IdType.all

theorem outsideBaseFrom_eq_false (path base : UriPath) :
    ∀ ts, outsideBaseFrom path base ts = false ↔ base.validFrom ts <+: path.validFrom ts
  | [] => by simp [outsideBaseFrom, validFrom]
  | t :: ts => by
      unfold outsideBaseFrom validFrom
      by_cases hb : base.ids t = idInvalid
      · simp [hb]
      · rw [if_neg hb, if_neg hb]
        by_cases he : path.ids t = base.ids t
        · simp [he, hb, outsideBaseFrom_eq_false path base ts]
        · rw [if_pos he]
          refine ⟨fun e => absurd e (by decide), fun e => ?_⟩
          by_cases hp : path.ids t = idInvalid
          · simp [hp] at e
          · rw [if_neg hp, List.cons_prefix_cons] at e
            exact absurd e.1.symm he

/-- **A path is inside a base iff the base's ids are a prefix of the path's.** -/
theorem outsideBase_iff_prefix {path base : UriPath} :
    path.outsideBase base = false ↔ base.validIds <+: path.validIds :=
  outsideBaseFrom_eq_false path base IdType.all

/-! ## 6. The order of paths -/

/-- The ids up to and including the first invalid one, from the indices still to visit. -/
def keyFrom (p : UriPath) : List IdType → List Id
  | [] => []
  | t :: ts => if p.ids t = idInvalid then [idInvalid] else p.ids t :: p.keyFrom ts

/-- What `compare` looks at. -/
def key (p : UriPath) : List Id := p.keyFrom IdType.all

theorem id_le_invalid (i : Id) : i ≤ idInvalid := Fin.le_def.mpr (Nat.le_of_lt_succ i.isLt)

theorem id_lt_invalid {i : Id} (h : i ≠ idInvalid) : i < idInvalid :=
  lt_of_le_of_ne (id_le_invalid i) h

/-- Where the first ids differ, they decide. -/
theorem keyFrom_lt_of_lt {p q : UriPath} {t : IdType} (h : p.ids t < q.ids t) (ts : List IdType) :
    p.keyFrom (t :: ts) < q.keyFrom (t :: ts) := by
  have hp : p.ids t ≠ idInvalid := fun e => absurd (e ▸ h) (not_lt.mpr (id_le_invalid _))
  rw [keyFrom, if_neg hp, keyFrom]
  split
  · exact List.cons_lt_cons_iff.mpr (Or.inl (id_lt_invalid hp))
  · exact List.cons_lt_cons_iff.mpr (Or.inl h)

theorem compareFrom_neg (p q : UriPath) :
    ∀ ts, compareFrom p q ts < 0 ↔ p.keyFrom ts < q.keyFrom ts
  | [] => by simp [compareFrom, keyFrom]
  | t :: ts => by
      rcases lt_trichotomy (p.ids t) (q.ids t) with h | h | h
      · rw [compareFrom, if_pos h]
        exact ⟨fun _ => keyFrom_lt_of_lt h ts, fun _ => by decide⟩
      · rw [compareFrom, if_neg h.not_lt, if_neg h.not_gt, keyFrom, keyFrom, h]
        split
        · simp
        · rw [compareFrom_neg p q ts, List.cons_lt_cons_iff]
          simp
      · rw [compareFrom, if_neg h.not_gt, if_pos h]
        exact ⟨fun e => absurd e (by decide), fun e => absurd (keyFrom_lt_of_lt h ts) (lt_asymm e)⟩

theorem compareFrom_swap (p q : UriPath) : ∀ ts, compareFrom q p ts = -compareFrom p q ts
  | [] => rfl
  | t :: ts => by
      rcases lt_trichotomy (p.ids t) (q.ids t) with h | h | h
      · rw [compareFrom, if_neg h.not_gt, if_pos h, compareFrom, if_pos h]
        rfl
      · rw [compareFrom, if_neg h.not_gt, if_neg h.not_lt, compareFrom, if_neg h.not_lt,
          if_neg h.not_gt, h]
        split
        · rfl
        · exact compareFrom_swap p q ts
      · rw [compareFrom, if_pos h, compareFrom, if_neg h.not_gt, if_pos h]

/-- **The comparison is the lexicographic order of the ids.** -/
theorem compare_neg (p q : UriPath) : p.compare q < 0 ↔ p.key < q.key :=
  compareFrom_neg p q IdType.all

theorem compare_pos (p q : UriPath) : 0 < p.compare q ↔ q.key < p.key := by
  rw [← compare_neg, compare, compare, compareFrom_swap p q]
  omega

theorem keyFrom_eq_iff (p q : UriPath) :
    ∀ ts, p.keyFrom ts = q.keyFrom ts ↔ p.validFrom ts = q.validFrom ts
  | [] => by simp [keyFrom, validFrom]
  | t :: ts => by
      unfold keyFrom validFrom
      by_cases hp : p.ids t = idInvalid <;> by_cases hq : q.ids t = idInvalid
      · simp [hp, hq]
      · simp [hp, hq, Ne.symm hq]
      · simp [hp, hq]
      · simp [hp, hq, keyFrom_eq_iff p q ts]

theorem key_eq_iff {p q : UriPath} : p.key = q.key ↔ p.validIds = q.validIds :=
  keyFrom_eq_iff p q IdType.all

end UriPath

end Anjay
