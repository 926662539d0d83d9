/-
  File:      Anjay/Io/Tlv/Declared.lean
  Subject:   Declared and appended lengths in the TLV output context, for any sequence of calls.

  * `trace`: the values a sequence of calls declares, with the bytes it appends to each.
  * `WellFormed`: nested TLV entries in which every declared length is the length that is there.
  * `run_inv`: the invariant of every successful run. `add_entry` sees to it that on each level all
    values but the last one are complete.
  * `session_wellFormed_iff`: a run that reports success throughout leaves a well-formed payload with
    the declared values iff the last value of each level was complete too; nothing checks that.
-/
import Anjay.Io.Tlv.Serialize

namespace Anjay.Tlv

open Lib

/-! ## 1. What the calls declare -/

/-- One value: the level and id it is returned under, the declared length and the bytes appended. -/
structure Declared where
  level : OutLevel
  id : Id
  length : Nat
  data : List UInt8
  deriving DecidableEq, Repr

/-- As many bytes as declared. -/
def Declared.Complete (v : Declared) : Prop := v.data.length = v.length

/-- Bytes appended through the bytes context of level `h` go to the last value of that level. -/
def appendOn (h : OutLevel) (data : List UInt8) : List Declared → List Declared
  | [] => []
  | v :: vs =>
      if vs.any fun w => w.level = h then v :: appendOn h data vs
      else if v.level = h then { v with data := v.data ++ data } :: vs
      else v :: vs

/-- The values so far, and the level and the id of the path set last. -/
structure Trace where
  level : OutLevel
  id : Id
  values : List Declared
  deriving DecidableEq, Repr

def Trace.start (root : UriPath) : Trace := ⟨rootLevel root, idInvalid, []⟩

/-- The bytes of the calls that return a whole value. -/
def OutCall.payload (narrow : BitVec 64 → Option (BitVec 32)) : OutCall → Option (List UInt8)
  | .retBytes data => some data
  | .retString value => some value
  | .retI64 value => some (integerBytes value)
  | .retDouble value =>
      match narrow value with
      | some f => some (beBytes 4 f.toNat)
      | none => some (beBytes 8 value.toNat)
  | .retBool value => some (integerBytes (if value then 1 else 0))
  | .retObjlnk oid iid => some (beBytes 4 ((oid.val <<< 16) ||| iid.val))
  | _ => none

def Trace.begin (t : Trace) (length : Nat) : Trace :=
  { t with values := t.values ++ [⟨t.level, t.id, length, []⟩] }

def Trace.append (t : Trace) (h : OutLevel) (data : List UInt8) : Trace :=
  { t with values := appendOn h data t.values }

def traceCall (narrow : BitVec 64 → Option (BitVec 32)) (root : UriPath) (t : Trace)
    (c : OutCall) : Trace :=
  match c with
  | .setPath path =>
      match leafLevel path with
      | none => t
      | some l => { t with level := l.max (rootLevel root), id := idFromPath path (l.max (rootLevel root)) }
  | .clearPath => t
  | .startAggregate => t
  | .bytesBegin length => t.begin length
  | .append h data => t.append h data
  | c =>
      match c.payload narrow with
      | none => t
      | some data => (t.begin data.length).append t.level data

/-- The values of a sequence of calls; nothing of the context is looked at. -/
def trace (narrow : BitVec 64 → Option (BitVec 32)) (root : UriPath) (calls : List OutCall) :
    List Declared :=
  (calls.foldl (traceCall narrow root) (.start root)).values

/-- The values of one level. -/
def onLevel (l : OutLevel) (vs : List Declared) : List Declared := vs.filter fun v => v.level = l

/-- How many declared bytes the last value of a level never got. -/
def missing (l : OutLevel) (vs : List Declared) : Nat :=
  match (onLevel l vs).getLast? with
  | none => 0
  | some v => v.length - v.data.length

/-! ## 2. Well-formed payloads -/

/-- **Nested TLV entries, each as long as it says**, on a level of the output context, and the values
    in them: Object Instances hold Resources and arrays, arrays hold Resource Instances. -/
inductive WellFormed : OutLevel → List UInt8 → List Declared → Prop
  | nil (l : OutLevel) : WellFormed l [] []
  | value {l : OutLevel} {id : Id} {data rest : List UInt8} {vs : List Declared} (level : l ≠ .iid)
      (fits : EntryFits ⟨valueType l, id, data⟩) (next : WellFormed l rest vs) :
      WellFormed l (encodeEntry (valueType l) id data ++ rest) (⟨l, id, data.length, data⟩ :: vs)
  | aggregate {l up : OutLevel} {id : Id} {body rest : List UInt8} {vs ws : List Declared}
      (level : l.next? = some up) (fits : EntryFits ⟨aggregateType l, id, body⟩)
      (children : WellFormed up body ws) (next : WellFormed l rest vs) :
      WellFormed l (encodeEntry (aggregateType l) id body ++ rest) (ws ++ vs)

theorem wellFormed_complete {l : OutLevel} {s : List UInt8} {vs : List Declared}
    (h : WellFormed l s vs) : ∀ v ∈ vs, v.Complete := by
  induction h with
  | nil => exact fun v hv => absurd hv List.not_mem_nil
  | value _ _ _ ih =>
      intro v hv
      rcases List.mem_cons.mp hv with rfl | hv
      · rfl
      · exact ih v hv
  | aggregate _ _ _ _ ih₁ ih₂ =>
      intro v hv
      rcases List.mem_append.mp hv with hv | hv
      · exact ih₁ v hv
      · exact ih₂ v hv

/-- The entries of a level as the context keeps them: the bytes a value lacks are null bytes, the
    entries of finished levels have been serialized. -/
inductive Padded : OutLevel → List OutEntry → List Declared → Prop
  | nil (l : OutLevel) : Padded l [] []
  | value {l : OutLevel} {id : Id} {data : List UInt8} {es : List OutEntry} {vs : List Declared}
      (before : Padded l es vs) (level : l ≠ .iid) (left : Nat) :
      Padded l (es ++ [⟨valueType l, id, data ++ List.replicate left 0⟩])
        (vs ++ [⟨l, id, data.length + left, data⟩])
  | aggregate {l up : OutLevel} {id : Id} {es body : List OutEntry} {vs ws : List Declared}
      (before : Padded l es vs) (level : l.next? = some up) (fits : ∀ e ∈ body, EntryFits e)
      (children : Padded up body ws) :
      Padded l (es ++ [⟨aggregateType l, id, encodeEntries body⟩]) (vs ++ ws)

/-- **Complete values in entries whose headers can be written are well formed.** -/
theorem padded_wellFormed {l : OutLevel} {es : List OutEntry} {vs : List Declared}
    (h : Padded l es vs) : (∀ e ∈ es, EntryFits e) → (∀ v ∈ vs, v.Complete) →
    ∀ {rest : List UInt8} {ws : List Declared}, WellFormed l rest ws →
      WellFormed l (encodeEntries es ++ rest) (vs ++ ws) := by
  induction h with
  | nil => exact fun _ _ _ _ hrest => hrest
  | @value l id data es vs before level left ih =>
      intro hes hvs rest ws hrest
      have hzero : left = 0 := by
        have hc : data.length = data.length + left :=
          hvs _ (List.mem_append_right _ (List.mem_singleton_self _))
        omega
      subst hzero
      have hlast := hes _ (List.mem_append_right _ (List.mem_singleton_self _))
      rw [List.replicate_zero, List.append_nil] at hlast
      have hone := WellFormed.value level hlast hrest
      have hall := ih (fun e he => hes e (List.mem_append_left _ he))
        (fun v hv => hvs v (List.mem_append_left _ hv)) hone
      rw [encodeEntries_append, List.append_assoc, List.append_assoc]
      simpa [encodeEntries] using hall
  | @aggregate l up id es body vs ws' before level fits children ih₁ ih₂ =>
      intro hes hvs rest ws hrest
      have hlast := hes _ (List.mem_append_right _ (List.mem_singleton_self _))
      have hbody := ih₂ fits (fun v hv => hvs v (List.mem_append_right _ hv)) (.nil up)
      rw [List.append_nil, List.append_nil] at hbody
      have hone := WellFormed.aggregate level hlast hbody hrest
      have hall := ih₁ (fun e he => hes e (List.mem_append_left _ he))
        (fun v hv => hvs v (List.mem_append_left _ hv)) hone
      rw [encodeEntries_append, List.append_assoc, List.append_assoc]
      simpa [encodeEntries] using hall

theorem padded_levels {l : OutLevel} {es : List OutEntry} {vs : List Declared}
    (h : Padded l es vs) : ∀ v ∈ vs, l.toNat ≤ v.level.toNat := by
  induction h with
  | nil => exact fun v hv => absurd hv List.not_mem_nil
  | value _ _ _ ih =>
      intro v hv
      rcases List.mem_append.mp hv with hv | hv
      · exact ih v hv
      · rw [List.mem_singleton.mp hv]
  | @aggregate l up _ _ _ _ _ _ level _ _ ih₁ ih₂ =>
      intro v hv
      rcases List.mem_append.mp hv with hv | hv
      · exact ih₁ v hv
      · have hup : l.toNat ≤ up.toNat := by
          cases l <;> cases level <;> decide
        exact hup.trans (ih₂ v hv)

/-! ## 3. Settled values -/

/-- All values of a level but the last are complete, and the last one lacks `n` bytes. -/
def Settled (n : Nat) (vs : List Declared) : Prop :=
  (n = 0 ∧ ∀ v ∈ vs, v.Complete) ∨
    ∃ ws v, vs = ws ++ [v] ∧ (∀ w ∈ ws, w.Complete) ∧ v.data.length + n = v.length

theorem settled_zero {vs : List Declared} (h : Settled 0 vs) : ∀ v ∈ vs, v.Complete := by
  rcases h with ⟨-, h⟩ | ⟨ws, v, rfl, hws, hv⟩
  · exact h
  · intro w hw
    rcases List.mem_append.mp hw with hw | hw
    · exact hws w hw
    · rw [List.mem_singleton.mp hw]
      exact hv

theorem settled_missing {n : Nat} {l : OutLevel} {vs : List Declared}
    (h : Settled n (onLevel l vs)) : missing l vs = n := by
  unfold missing
  rcases h with ⟨rfl, h⟩ | ⟨ws, v, hvs, -, hv⟩
  · cases hlast : (onLevel l vs).getLast? with
    | none => rfl
    | some v =>
        have hc : v.data.length = v.length := h v (List.mem_of_getLast? hlast)
        simp only
        omega
  · rw [hvs, List.getLast?_concat]
    simp only
    omega

theorem onLevel_append (l : OutLevel) (a b : List Declared) :
    onLevel l (a ++ b) = onLevel l a ++ onLevel l b := List.filter_append ..

theorem onLevel_singleton_same (v : Declared) : onLevel v.level [v] = [v] := by
  simp [onLevel]

theorem onLevel_singleton_ne {l : OutLevel} {v : Declared} (h : v.level ≠ l) :
    onLevel l [v] = [] := by
  simp [onLevel, h]

theorem onLevel_eq_nil {l : OutLevel} {vs : List Declared} (h : ∀ v ∈ vs, l.toNat < v.level.toNat) :
    onLevel l vs = [] := by
  rw [onLevel, List.filter_eq_nil_iff]
  intro v hv he
  rw [decide_eq_true_eq] at he
  have := h v hv
  rw [he] at this
  exact Nat.lt_irrefl _ this

theorem appendOn_nil (h : OutLevel) : ∀ vs : List Declared, appendOn h [] vs = vs
  | [] => rfl
  | v :: vs => by
      rw [appendOn, appendOn_nil h vs]
      split
      · rfl
      · split
        · rw [List.append_nil]
        · rfl

/-- The last value of the level is found behind everything before it. -/
theorem appendOn_last {h : OutLevel} (data : List UInt8) (v : Declared) (hv : v.level = h)
    {after : List Declared} (hafter : onLevel h after = []) :
    ∀ before : List Declared, appendOn h data (before ++ v :: after)
      = before ++ { v with data := v.data ++ data } :: after
  | [] => by
      have hany : (after.any fun w => w.level = h) = false := by
        rw [List.any_eq_false]
        exact List.filter_eq_nil_iff.mp hafter
      rw [List.nil_append, appendOn, hany, if_neg (by decide), if_pos hv, List.nil_append]
  | w :: before => by
      have hany : ((before ++ v :: after).any fun w => w.level = h) = true := by
        rw [List.any_eq_true]
        exact ⟨v, List.mem_append_right _ List.mem_cons_self, by simp [hv]⟩
      rw [List.cons_append, appendOn, hany, if_pos rfl, appendOn_last data v hv hafter before]
      rfl

/-! ## 4. The entries of a context -/

/-- A context, its entries per level (`ent`) and the values in them (`vals`). The stream is as far
    behind the entries of the root level as the last value lacks bytes; a level with a bytes context
    that can still be written to ends with the value it belongs to. -/
structure Holds (ctx : TlvOut) (root : UriPath) (ent : OutLevel → List OutEntry)
    (vals : OutLevel → List Declared) : Prop where
  rootPath : ctx.rootPath = root
  above : (rootLevel root).toNat ≤ ctx.level.toNat
  padded : ∀ l, Padded l (ent l) (vals l)
  outside : ∀ l, ¬ Open root ctx.level l → ent l = [] ∧ vals l = []
  buffered : ∀ l, (rootLevel root).toNat < l.toNat → (ctx.levels l).entries = ent l
  stream : ctx.stream.written ++ List.replicate (ctx.levels (rootLevel root)).bytesLeft 0
    = encodeEntries (ent (rootLevel root))
  fits : ∀ e ∈ ent (rootLevel root), EntryFits e
  streamed : ∀ l, (ctx.levels l).target = .streamed → l = rootLevel root
  written : ∀ l, (ctx.levels l).target = .buffered → (rootLevel root).toNat < l.toNat
  short : ∀ l, (ctx.levels l).bytesLeft ≠ 0 →
    (ctx.levels l).target = .buffered ∨ (ctx.levels l).target = .streamed →
    ∃ es vs id data, Padded l es vs ∧ l ≠ .iid ∧
      ent l = es ++ [⟨valueType l, id, data ++ List.replicate (ctx.levels l).bytesLeft 0⟩] ∧
      vals l = vs ++ [⟨l, id, data.length + (ctx.levels l).bytesLeft, data⟩]

section Holding

variable {ctx ctx' : TlvOut} {root : UriPath} {ent : OutLevel → List OutEntry}
  {vals : OutLevel → List Declared}

theorem splice_replicate (type : TlvIdType) (id : Id) (d data : List UInt8) (left : Nat) :
    OutEntry.splice (data.length + left) data
      ⟨type, id, d ++ List.replicate (data.length + left) 0⟩
      = ⟨type, id, d ++ data ++ List.replicate left 0⟩ := by
  simp [OutEntry.splice, List.append_assoc, List.drop_append]

/-- **A new entry** needs the last value of the level to be complete. -/
theorem addEntry_ok {type : TlvIdType} {length : Nat} (h : addEntry ctx type length = (true, ctx')) :
    ctx.current.bytesLeft = 0 ∧
      ((rootLevel ctx.rootPath).toNat < ctx.level.toNat ∧
          ctx' = ctx.setLevel ctx.level ⟨ctx.current.entries ++
            [⟨type, ctx.current.nextId, List.replicate length 0⟩], idInvalid, .buffered, length⟩ ∨
        ¬ (rootLevel ctx.rootPath).toNat < ctx.level.toNat ∧ ctx.current.nextId ≠ idInvalid ∧
          length ≤ tlvMaxLength ∧ ctx' = { ctx with
            stream := ctx.stream.push (encodeHeader type ctx.current.nextId length) }.setLevel
            ctx.level ⟨ctx.current.entries, idInvalid, .streamed, length⟩) := by
  unfold addEntry at h
  by_cases h1 : length > tlvMaxLength ∨ ctx.current.bytesLeft ≠ 0
  · rw [if_pos h1] at h
    cases h
  rw [if_neg h1] at h
  rw [not_or, not_not] at h1
  refine ⟨h1.2, ?_⟩
  by_cases hroot : (rootLevel ctx.rootPath).toNat < ctx.level.toNat
  · rw [if_pos hroot] at h
    simp only [Prod.mk.injEq, true_and] at h
    exact Or.inl ⟨hroot, h.symm⟩
  · rw [if_neg hroot] at h
    split at h
    · rename_i stream hw
      simp only [Prod.mk.injEq, true_and] at h
      obtain ⟨hid, hlen, rfl⟩ := writeHeader_ok hw
      exact Or.inr ⟨hroot, hid, hlen, h.symm⟩
    · cases h

theorem addEntry_append_nil {type : TlvIdType} {length : Nat}
    (h : addEntry ctx type length = (true, ctx')) : bytesAppend ctx' ctx'.level [] = some (0, ctx') := by
  rcases (addEntry_ok h).2 with ⟨-, rfl⟩ | ⟨-, -, -, rfl⟩ <;>
    simp only [bytesAppend, TlvOut.setLevel, Function.update_self, List.length_nil, if_true]

/-- **A new entry and the first bytes of its value**: what is left of a level is what is declared
    and not appended. -/
theorem extend_shape {type : TlvIdType} {data : List UInt8} {left : Nat} {ctx1 : TlvOut}
    (hadd : addEntry ctx type (data.length + left) = (true, ctx1))
    (happ : bytesAppend ctx1 ctx1.level data = some (0, ctx')) :
    ctx.current.bytesLeft = 0 ∧
      ((rootLevel ctx.rootPath).toNat < ctx.level.toNat ∧
          ctx' = ctx.setLevel ctx.level ⟨ctx.current.entries ++
            [⟨type, ctx.current.nextId, data ++ List.replicate left 0⟩], idInvalid, .buffered, left⟩ ∨
        ¬ (rootLevel ctx.rootPath).toNat < ctx.level.toNat ∧
          EntryFits ⟨type, ctx.current.nextId, data ++ List.replicate left 0⟩ ∧
          ctx' = { ctx with
            stream := (ctx.stream.push
              (encodeHeader type ctx.current.nextId (data.length + left) ++ data)) }.setLevel
            ctx.level ⟨ctx.current.entries, idInvalid, .streamed, left⟩) := by
  obtain ⟨hleft, hshape⟩ := addEntry_ok hadd
  refine ⟨hleft, ?_⟩
  by_cases h0 : data.length = 0
  · have hnil : data = [] := List.length_eq_zero_iff.mp h0
    subst hnil
    rw [addEntry_append_nil hadd] at happ
    simp only [Option.some.injEq, Prod.mk.injEq, true_and] at happ
    subst happ
    simp only [List.length_nil, Nat.zero_add, List.nil_append, List.append_nil] at hshape ⊢
    exact hshape.imp id fun ⟨hroot, hid, hlen, he⟩ =>
      ⟨hroot, ⟨hid, by rw [List.length_replicate]; exact hlen⟩, he⟩
  · rcases hshape with ⟨hroot, rfl⟩ | ⟨hroot, hid, hlen, rfl⟩
    · simp only [bytesAppend, TlvOut.setLevel, Function.update_self, if_neg h0] at happ
      rw [if_neg (by omega)] at happ
      simp only [Option.some.injEq, Prod.mk.injEq, true_and, Function.update_idem,
        List.modifyLast_concat] at happ
      have hs := splice_replicate type ctx.current.nextId [] data left
      rw [List.nil_append, List.nil_append] at hs
      rw [hs, Nat.add_sub_cancel_left] at happ
      exact Or.inl ⟨hroot, happ.symm⟩
    · simp only [bytesAppend, TlvOut.setLevel, Function.update_self, if_neg h0] at happ
      rw [if_neg (by omega)] at happ
      split at happ
      · cases happ
      · rename_i stream hw
        simp only [Option.some.injEq, Prod.mk.injEq, true_and, Function.update_idem] at happ
        refine Or.inr ⟨hroot, ⟨hid, by simpa using hlen⟩, ?_⟩
        rw [← happ, OutStream.write_ok hw, OutStream.push_push, Nat.add_sub_cancel_left]
        rfl

/-- **The entries after a new one.** A value may still lack bytes; an aggregate may not. -/
theorem extend_holds (h : Holds ctx root ent vals) {type : TlvIdType} {data : List UInt8}
    {left : Nat} {ctx1 : TlvOut} {ws : List Declared}
    (hadd : addEntry ctx type (data.length + left) = (true, ctx1))
    (happ : bytesAppend ctx1 ctx1.level data = some (0, ctx'))
    (hpad : Padded ctx.level
      (ent ctx.level ++ [⟨type, ctx.current.nextId, data ++ List.replicate left 0⟩])
      (vals ctx.level ++ ws))
    (hvalue : left ≠ 0 → ctx.level ≠ .iid ∧ type = valueType ctx.level ∧
      ws = [⟨ctx.level, ctx.current.nextId, data.length + left, data⟩]) :
    Holds ctx' root
      (Function.update ent ctx.level
        (ent ctx.level ++ [⟨type, ctx.current.nextId, data ++ List.replicate left 0⟩]))
      (Function.update vals ctx.level (vals ctx.level ++ ws)) := by
  obtain ⟨hleft, hshape⟩ := extend_shape hadd happ
  have hopen : Open root ctx.level ctx.level := ⟨h.above, Nat.le_refl _⟩
  have hlevel : ctx'.level = ctx.level := by
    rcases hshape with ⟨-, rfl⟩ | ⟨-, -, rfl⟩ <;> rfl
  have hother : ∀ {l : OutLevel}, l ≠ ctx.level → ctx'.levels l = ctx.levels l := by
    intro l hl
    rcases hshape with ⟨-, rfl⟩ | ⟨-, -, rfl⟩ <;>
      simp only [TlvOut.setLevel, Function.update_of_ne hl]
  have hself : (ctx'.levels ctx.level).bytesLeft = left := by
    rcases hshape with ⟨-, rfl⟩ | ⟨-, -, rfl⟩ <;> simp only [TlvOut.setLevel, Function.update_self]
  have hroot : rootLevel ctx.rootPath = rootLevel root := by rw [h.rootPath]
  refine ⟨?_, by rw [hlevel]; exact h.above, fun l => ?_, fun l hl => ?_, fun l hl => ?_, ?_, ?_,
    fun l hl => ?_, fun l hl => ?_, fun l hl ht => ?_⟩
  · rcases hshape with ⟨-, rfl⟩ | ⟨-, -, rfl⟩ <;> exact h.rootPath
  · by_cases he : l = ctx.level
    · subst he
      rw [Function.update_self, Function.update_self]
      exact hpad
    · rw [Function.update_of_ne he, Function.update_of_ne he]
      exact h.padded l
  · rw [hlevel] at hl
    have he : l ≠ ctx.level := fun e => hl (e ▸ hopen)
    rw [Function.update_of_ne he, Function.update_of_ne he]
    exact h.outside l hl
  · by_cases he : l = ctx.level
    · subst he
      rw [Function.update_self, ← h.buffered _ hl]
      rcases hshape with ⟨-, rfl⟩ | ⟨hlt, -, -⟩
      · simp only [TlvOut.setLevel, Function.update_self]
        rfl
      · exact absurd (hroot ▸ hl) hlt
    · rw [Function.update_of_ne he, hother he]
      exact h.buffered l hl
  · rcases hshape with ⟨hlt, rfl⟩ | ⟨hlt, -, rfl⟩
    · have he : rootLevel root ≠ ctx.level := fun e => by
        rw [hroot, e] at hlt
        exact Nat.lt_irrefl _ hlt
      rw [hother he, Function.update_of_ne he]
      exact h.stream
    · have he : ctx.level = rootLevel root := OutLevel.toNat_inj (by
        have := h.above
        rw [hroot] at hlt
        omega)
      have hs := h.stream
      rw [← he] at hs ⊢
      have hz : (ctx.levels ctx.level).bytesLeft = 0 := hleft
      rw [hz, List.replicate_zero, List.append_nil] at hs
      rw [hself, Function.update_self, encodeEntries_append, ← hs]
      simp [TlvOut.setLevel, encodeEntries, encodeEntry]
  · intro e hmem
    by_cases he : ctx.level = rootLevel root
    · rw [← he, Function.update_self] at hmem
      rcases List.mem_append.mp hmem with hmem | hmem
      · exact h.fits e (he ▸ hmem)
      · rw [List.mem_singleton.mp hmem]
        rcases hshape with ⟨hlt, -⟩ | ⟨-, hfit, -⟩
        · rw [hroot, he] at hlt
          exact absurd hlt (Nat.lt_irrefl _)
        · exact hfit
    · rw [Function.update_of_ne (Ne.symm he)] at hmem
      exact h.fits e hmem
  · by_cases he : l = ctx.level
    · subst he
      rcases hshape with ⟨-, rfl⟩ | ⟨hlt, -, -⟩
      · simp [TlvOut.setLevel] at hl
      · rw [hroot] at hlt
        exact OutLevel.toNat_inj (by have := h.above; omega)
    · exact h.streamed l (hother he ▸ hl)
  · by_cases he : l = ctx.level
    · subst he
      rcases hshape with ⟨hlt, -⟩ | ⟨-, -, rfl⟩
      · rw [← hroot]
        exact hlt
      · simp [TlvOut.setLevel] at hl
    · exact h.written l (hother he ▸ hl)
  · by_cases he : l = ctx.level
    · subst he
      rw [hself] at hl ⊢
      obtain ⟨hiid, rfl, rfl⟩ := hvalue hl
      rw [Function.update_self, Function.update_self]
      exact ⟨_, _, _, _, h.padded _, hiid, rfl, rfl⟩
    · rw [hother he] at hl ht ⊢
      rw [Function.update_of_ne he, Function.update_of_ne he]
      exact h.short l hl ht

/-- **More bytes for the last value of a level.** -/
theorem append_holds (h : Holds ctx root ent vals) {l : OutLevel} {data : List UInt8}
    (hne : data ≠ []) (happ : bytesAppend ctx l data = some (0, ctx')) :
    ∃ es vs id d left, Padded l es vs ∧ l ≠ .iid ∧
      (ctx.levels l).bytesLeft = data.length + left ∧
      vals l = vs ++ [⟨l, id, d.length + (data.length + left), d⟩] ∧
      ctx'.level = ctx.level ∧ (∀ m, (ctx'.levels m).nextId = (ctx.levels m).nextId) ∧
      (∀ m, m ≠ l → ctx'.levels m = ctx.levels m) ∧ (ctx'.levels l).bytesLeft = left ∧
      Holds ctx' root
        (Function.update ent l (es ++ [⟨valueType l, id, d ++ data ++ List.replicate left 0⟩]))
        (Function.update vals l (vs ++ [⟨l, id, (d ++ data).length + left, d ++ data⟩])) := by
  have hpos : data.length ≠ 0 := fun e => hne (List.length_eq_zero_iff.mp e)
  -- only a bytes context that still reaches its entry takes any bytes
  have hcases : data.length ≤ (ctx.levels l).bytesLeft ∧
      ((ctx.levels l).target = .buffered ∧ ctx' = ctx.setLevel l
          { ctx.levels l with
            entries := (ctx.levels l).entries.modifyLast
              (OutEntry.splice (ctx.levels l).bytesLeft data)
            bytesLeft := (ctx.levels l).bytesLeft - data.length } ∨
        (ctx.levels l).target = .streamed ∧ ctx' = { ctx with
            stream := ctx.stream.push data }.setLevel l
          { ctx.levels l with bytesLeft := (ctx.levels l).bytesLeft - data.length }) := by
    unfold bytesAppend at happ
    simp only [if_neg hpos] at happ
    by_cases hlen : data.length > (ctx.levels l).bytesLeft
    · simp only [if_pos hlen] at happ
      split at happ <;> simp at happ
    · simp only [if_neg hlen] at happ
      refine ⟨Nat.not_lt.mp hlen, ?_⟩
      split at happ
      · cases happ
      · rename_i ht
        split at happ
        · simp at happ
        · rename_i stream hw
          simp only [Option.some.injEq, Prod.mk.injEq, true_and] at happ
          exact Or.inr ⟨ht, by rw [← happ, OutStream.write_ok hw]⟩
      · rename_i ht
        simp only [Option.some.injEq, Prod.mk.injEq, true_and] at happ
        exact Or.inl ⟨ht, happ.symm⟩
      · cases happ
  obtain ⟨hle, hshape⟩ := hcases
  have htarget : (ctx.levels l).target = .buffered ∨ (ctx.levels l).target = .streamed :=
    hshape.imp And.left And.left
  obtain ⟨es, vs, id, d, hpad, hiid, hent, hvals⟩ := h.short l (by omega) htarget
  obtain ⟨left, hleft⟩ := Nat.exists_eq_add_of_le hle
  rw [hleft] at hent hvals hshape
  rw [Nat.add_sub_cancel_left] at hshape
  have hlevel : ctx'.level = ctx.level := by
    rcases hshape with ⟨-, rfl⟩ | ⟨-, rfl⟩ <;> rfl
  have hother : ∀ m, m ≠ l → ctx'.levels m = ctx.levels m := by
    intro m hm
    rcases hshape with ⟨-, rfl⟩ | ⟨-, rfl⟩ <;> simp only [TlvOut.setLevel, Function.update_of_ne hm]
  have hself : (ctx'.levels l).bytesLeft = left ∧
      (ctx'.levels l).target = (ctx.levels l).target ∧
      (ctx'.levels l).nextId = (ctx.levels l).nextId := by
    rcases hshape with ⟨-, rfl⟩ | ⟨-, rfl⟩ <;>
      exact ⟨by simp only [TlvOut.setLevel, Function.update_self],
        by simp only [TlvOut.setLevel, Function.update_self],
        by simp only [TlvOut.setLevel, Function.update_self]⟩
  have hopen : Open root ctx.level l := by
    by_contra hout
    have := (h.outside l hout).1
    rw [this] at hent
    exact absurd hent.symm (List.append_ne_nil_of_right_ne_nil _ (List.cons_ne_nil _ _))
  refine ⟨es, vs, id, d, left, hpad, hiid, hleft, hvals, hlevel, fun m => ?_, hother, hself.1,
    ?_, by rw [hlevel]; exact h.above, fun m => ?_, fun m hm => ?_, fun m hm => ?_, ?_, ?_,
    fun m hm => ?_, fun m hm => ?_, fun m hm ht => ?_⟩
  · by_cases he : m = l
    · subst he
      exact hself.2.2
    · rw [hother m he]
  · rcases hshape with ⟨-, rfl⟩ | ⟨-, rfl⟩ <;> exact h.rootPath
  · by_cases he : m = l
    · subst he
      rw [Function.update_self, Function.update_self]
      exact .value hpad hiid left
    · rw [Function.update_of_ne he, Function.update_of_ne he]
      exact h.padded m
  · rw [hlevel] at hm
    have he : m ≠ l := fun e => hm (e ▸ hopen)
    rw [Function.update_of_ne he, Function.update_of_ne he]
    exact h.outside m hm
  · by_cases he : m = l
    · subst he
      rw [Function.update_self]
      rcases hshape with ⟨-, rfl⟩ | ⟨ht, -⟩
      · have hb := h.buffered m hm
        simp only [TlvOut.setLevel, Function.update_self, hb, hent, List.modifyLast_concat,
          splice_replicate]
      · rw [h.streamed m ht] at hm
        exact absurd hm (Nat.lt_irrefl _)
    · rw [Function.update_of_ne he, hother m he]
      exact h.buffered m hm
  · rcases hshape with ⟨ht, rfl⟩ | ⟨ht, rfl⟩
    · have he : rootLevel root ≠ l := fun e => by
        have := h.written l ht
        rw [e] at this
        exact Nat.lt_irrefl _ this
      rw [hother _ he, Function.update_of_ne he]
      exact h.stream
    · have he := h.streamed l ht
      subst he
      have hs := h.stream
      rw [hent, encodeEntries_append, hleft, List.replicate_add, ← List.append_assoc] at hs
      rw [hself.1, Function.update_self, encodeEntries_append]
      have hhead : (ctx.stream.written ++ List.replicate data.length 0) ++ List.replicate left 0
          = (encodeEntries es ++ (encodeHeader (valueType (rootLevel root)) id
              (d.length + (data.length + left)) ++ d) ++ List.replicate data.length 0)
            ++ List.replicate left 0 := by
        rw [hs]
        simp only [encodeEntries, List.flatMap_cons, List.flatMap_nil, encodeEntry, List.append_nil,
          List.length_append, List.length_replicate, List.append_assoc]
      have hcut := List.append_cancel_right (List.append_cancel_right hhead)
      simp only [TlvOut.setLevel, OutStream.push_written, hcut]
      simp [encodeEntries, encodeEntry]
  · intro e hmem
    by_cases he : rootLevel root = l
    · subst he
      rw [Function.update_self] at hmem
      rcases List.mem_append.mp hmem with hmem | hmem
      · exact h.fits e (by rw [hent]; exact List.mem_append_left _ hmem)
      · rw [List.mem_singleton.mp hmem]
        have hlast := h.fits _ (by
          rw [hent]
          exact List.mem_append_right _ (List.mem_singleton_self _))
        refine ⟨hlast.id_valid, ?_⟩
        have hl := hlast.length_le
        simp only [List.length_append, List.length_replicate] at hl ⊢
        omega
    · rw [Function.update_of_ne he] at hmem
      exact h.fits e hmem
  · by_cases he : m = l
    · subst he
      exact h.streamed m (hself.2.1 ▸ hm)
    · exact h.streamed m (hother m he ▸ hm)
  · by_cases he : m = l
    · subst he
      exact h.written m (hself.2.1 ▸ hm)
    · exact h.written m (hother m he ▸ hm)
  · by_cases he : m = l
    · subst he
      rw [hself.1] at hm ⊢
      rw [Function.update_self, Function.update_self]
      exact ⟨_, _, _, _, hpad, hiid, rfl, rfl⟩
    · rw [hother m he] at hm ht ⊢
      rw [Function.update_of_ne he, Function.update_of_ne he]
      exact h.short m hm ht

/-- Ids do not matter, and neither do empty levels that are opened. -/
theorem holds_congr (h : Holds ctx root ent vals) (hroot : ctx'.rootPath = ctx.rootPath)
    (hstream : ctx'.stream = ctx.stream) (hlevel : ctx.level.toNat ≤ ctx'.level.toNat)
    (hsame : ∀ l, ∃ id, ctx'.levels l = { ctx.levels l with nextId := id }) :
    Holds ctx' root ent vals := by
  have hentries : ∀ l, (ctx'.levels l).entries = (ctx.levels l).entries := fun l => by
    obtain ⟨id, he⟩ := hsame l
    rw [he]
  have htarget : ∀ l, (ctx'.levels l).target = (ctx.levels l).target := fun l => by
    obtain ⟨id, he⟩ := hsame l
    rw [he]
  have hleft : ∀ l, (ctx'.levels l).bytesLeft = (ctx.levels l).bytesLeft := fun l => by
    obtain ⟨id, he⟩ := hsame l
    rw [he]
  refine ⟨hroot.trans h.rootPath, h.above.trans hlevel, h.padded, fun l hl => h.outside l fun ho =>
    hl ⟨ho.1, ho.2.trans hlevel⟩, fun l hl => by rw [hentries]; exact h.buffered l hl,
    by rw [hstream, hleft]; exact h.stream, h.fits, fun l hl => h.streamed l (htarget l ▸ hl),
    fun l hl => h.written l (htarget l ▸ hl), fun l hl ht => ?_⟩
  rw [hleft] at hl ⊢
  rw [htarget] at ht
  exact h.short l hl ht

theorem cleared_target (lv : Level) : lv.cleared.target ≠ .buffered ∧
    (lv.cleared.target = .streamed → lv.target = .streamed) := by
  by_cases h : lv.target = .buffered
  · simp [Level.cleared, h]
  · simp [Level.cleared, h]

/-- The current level without its entries, which are about to be serialized. -/
theorem lower_holds (h : Holds ctx root ent vals)
    (hlt : (rootLevel root).toNat < ctx.level.toNat) :
    Holds { ctx.setLevel ctx.level ctx.current.cleared with level := ctx.level.pred } root
      (Function.update ent ctx.level []) (Function.update vals ctx.level []) := by
  have hpred := OutLevel.pred_lt hlt
  have hne : rootLevel root ≠ ctx.level := fun e => by
    rw [e] at hlt
    exact Nat.lt_irrefl _ hlt
  refine ⟨h.rootPath, by show _ ≤ ctx.level.pred.toNat; omega, fun l => ?_, fun l hl => ?_,
    fun l hl => ?_, ?_, ?_, fun l hl => ?_, fun l hl => ?_, fun l hl ht => ?_⟩
  · by_cases he : l = ctx.level
    · subst he
      rw [Function.update_self, Function.update_self]
      exact .nil _
    · rw [Function.update_of_ne he, Function.update_of_ne he]
      exact h.padded l
  · by_cases he : l = ctx.level
    · subst he
      rw [Function.update_self, Function.update_self]
      exact ⟨rfl, rfl⟩
    · rw [Function.update_of_ne he, Function.update_of_ne he]
      refine h.outside l fun ho => hl ⟨ho.1, ?_⟩
      have hl2 : l.toNat ≠ ctx.level.toNat := fun e => he (OutLevel.toNat_inj e)
      have := ho.2
      show l.toNat ≤ ctx.level.pred.toNat
      omega
  · by_cases he : l = ctx.level
    · subst he
      simp only [TlvOut.setLevel, Function.update_self, Level.cleared]
    · simp only [TlvOut.setLevel, Function.update_of_ne he]
      exact h.buffered l hl
  · simp only [TlvOut.setLevel, Function.update_of_ne hne]
    exact h.stream
  · rw [Function.update_of_ne hne]
    exact h.fits
  · by_cases he : l = ctx.level
    · subst he
      simp only [TlvOut.setLevel, Function.update_self] at hl
      exact h.streamed _ ((cleared_target _).2 hl)
    · simp only [TlvOut.setLevel, Function.update_of_ne he] at hl
      exact h.streamed l hl
  · by_cases he : l = ctx.level
    · subst he
      exact hlt
    · simp only [TlvOut.setLevel, Function.update_of_ne he] at hl
      exact h.written l hl
  · by_cases he : l = ctx.level
    · -- its bytes context dangles now
      subst he
      simp only [TlvOut.setLevel, Function.update_self] at ht
      rcases ht with ht | ht
      · exact absurd ht (cleared_target _).1
      · exact absurd (h.streamed _ ((cleared_target _).2 ht)).symm hne
    · simp only [TlvOut.setLevel, Function.update_of_ne he] at hl ht ⊢
      exact h.short l hl ht

end Holding

/-! ## 5. Steps -/

/-- The values of all levels, in the order they were declared in. -/
def flatten (vals : OutLevel → List Declared) : List Declared := vals .iid ++ (vals .rid ++ vals .riid)

/-- **The invariant of a successful run**: the context holds the values declared so far, and lacks on
    each level what the last value of that level lacks. -/
def Mid (ctx : TlvOut) (root : UriPath) (values : List Declared) : Prop :=
  ∃ ent vals, Holds ctx root ent vals ∧ values = flatten vals ∧
    ∀ l, Settled (ctx.levels l).bytesLeft (onLevel l values)

section Steps

variable {ctx ctx' : TlvOut} {root : UriPath} {values : List Declared}

/-- The values around those of one level. -/
theorem flatten_split (vals : OutLevel → List Declared) (l : OutLevel) :
    ∃ before after, (∀ vs, flatten (Function.update vals l vs) = before ++ (vs ++ after)) ∧
      ∀ v ∈ after, ∃ m : OutLevel, l.toNat < m.toNat ∧ v ∈ vals m := by
  cases l with
  | iid =>
      refine ⟨[], vals .rid ++ vals .riid, fun vs => rfl, fun v hv => ?_⟩
      rcases List.mem_append.mp hv with hv | hv
      · exact ⟨.rid, by decide, hv⟩
      · exact ⟨.riid, by decide, hv⟩
  | rid => exact ⟨vals .iid, vals .riid, fun vs => rfl, fun v hv => ⟨.riid, by decide, hv⟩⟩
  | riid =>
      refine ⟨vals .iid ++ vals .rid, [], fun vs => ?_, fun v hv => absurd hv List.not_mem_nil⟩
      rw [List.append_nil, List.append_assoc]
      rfl

theorem mid_congr (h : Mid ctx root values) (hroot : ctx'.rootPath = ctx.rootPath)
    (hstream : ctx'.stream = ctx.stream) (hlevel : ctx.level.toNat ≤ ctx'.level.toNat)
    (hsame : ∀ l, ∃ id, ctx'.levels l = { ctx.levels l with nextId := id }) :
    Mid ctx' root values := by
  obtain ⟨ent, vals, hh, hv, hs⟩ := h
  refine ⟨ent, vals, holds_congr hh hroot hstream hlevel hsame, hv, fun l => ?_⟩
  obtain ⟨id, he⟩ := hsame l
  rw [he]
  exact hs l

/-- Setting the id of one level. -/
theorem setNext_mid (h : Mid ctx root values) (l : OutLevel) (id : Id) :
    Mid (ctx.setLevel l { ctx.levels l with nextId := id }) root values := by
  refine mid_congr h rfl rfl (Nat.le_refl _) fun m => ?_
  by_cases he : m = l
  · subst he
    exact ⟨id, by simp only [TlvOut.setLevel, Function.update_self]⟩
  · exact ⟨(ctx.levels m).nextId, by simp only [TlvOut.setLevel, Function.update_of_ne he]⟩

theorem slaveStart_mid (h : Mid ctx root values) (hs : tlvSlaveStart ctx = some ctx') :
    Mid ctx' root values ∧ ctx'.rootPath = ctx.rootPath ∧ ctx'.current.nextId = idInvalid := by
  unfold tlvSlaveStart at hs
  split at hs
  · cases hs
  · rename_i l hl
    split at hs
    · simp only [Option.some.injEq] at hs
      subst hs
      have hle : ctx.level.toNat ≤ l.toNat := by
        cases hc : ctx.level <;> rw [hc] at hl <;> cases hl <;> decide
      have hopen : Mid { ctx with level := l } root values :=
        mid_congr h rfl rfl hle fun m => ⟨_, rfl⟩
      refine ⟨setNext_mid hopen l idInvalid, rfl, ?_⟩
      simp only [TlvOut.current, TlvOut.setLevel, Function.update_self]
    · cases hs

theorem writeEntries_ok : ∀ {es : List OutEntry} {s s' : OutStream},
    writeEntries es s = (true, s') → (∀ e ∈ es, EntryFits e) ∧ s' = s.push (encodeEntries es)
  | [], s, s', h => by
      simp only [writeEntries, Prod.mk.injEq, true_and] at h
      exact ⟨fun e he => absurd he List.not_mem_nil, by rw [← h]; exact (OutStream.push_nil s).symm⟩
  | e :: es, s, s', h => by
      unfold writeEntries writeEntry at h
      cases hh : writeHeader s e.type e.id e.data.length with
      | mk ok s1 =>
          cases ok with
          | false => simp [hh] at h
          | true =>
              obtain ⟨hid, hlen, rfl⟩ := writeHeader_ok hh
              simp only [hh] at h
              split at h
              · rename_i s2 hw
                have h2 := OutStream.write_ok hw
                obtain ⟨hes, h3⟩ := writeEntries_ok h
                refine ⟨fun e' he' => ?_, ?_⟩
                · rcases List.mem_cons.mp he' with rfl | he'
                  · exact ⟨hid, hlen⟩
                  · exact hes e' he'
                · rw [h3, h2]
                  simp [encodeEntries, encodeEntry]
              · cases h

/-- **Finishing a level**: its entries become one entry of the level below, with the same values. -/
theorem slaveFinish_mid (h : Mid ctx root values)
    (hlt : (rootLevel root).toNat < ctx.level.toNat) (hf : tlvSlaveFinish ctx = some (0, ctx')) :
    Mid ctx' root values ∧ ctx'.level = ctx.level.pred ∧ ctx'.rootPath = ctx.rootPath := by
  obtain ⟨ent, vals, hh, rfl, hs⟩ := h
  unfold tlvSlaveFinish at hf
  cases hw : writeEntries ctx.current.entries ⟨[], some (dataSize ctx.current.entries)⟩ with
  | mk ok outbuf =>
      cases ok with
      | false => simp [hw] at hf
      | true =>
          obtain ⟨hfits, rfl⟩ := writeEntries_ok hw
          have hent : ctx.current.entries = ent ctx.level := hh.buffered _ hlt
          simp only [hw, if_true] at hf
          rw [hent] at hfits
          simp only [OutStream.push_written, List.nil_append, hent] at hf
          have hlow := lower_holds hh hlt
          have hne : ctx.level.pred ≠ ctx.level := fun e => by
            have := OutLevel.pred_lt hlt
            rw [e] at this
            omega
          have hup : ctx.level.pred.next? = some ctx.level := by
            cases hc : ctx.level with
            | iid =>
                rw [hc] at hlt
                exact absurd hlt (Nat.not_lt_zero _)
            | rid => rfl
            | riid => rfl
          split at hf
          · simp at hf
          · rename_i ctx1 hadd
            have hadd' := hadd
            rw [← Nat.add_zero (encodeEntries (ent ctx.level)).length] at hadd'
            have hone := extend_holds hlow hadd' hf
              (by rw [List.replicate_zero, List.append_nil]
                  exact .aggregate (hlow.padded ctx.level.pred) hup hfits (hh.padded ctx.level))
              (fun h0 => absurd rfl h0)
            obtain ⟨hleft, hshape⟩ := extend_shape hadd' hf
            refine ⟨⟨_, _, hone, ?_, fun l => ?_⟩, ?_, ?_⟩
            · simp only [Function.update_of_ne hne]
              cases hc : ctx.level with
              | iid =>
                  rw [hc] at hlt
                  exact absurd hlt (Nat.not_lt_zero _)
              | rid => simp [flatten, OutLevel.pred]
              | riid => simp [flatten, OutLevel.pred]
            · -- no level lacks more or less than before
              have hsame : (ctx'.levels l).bytesLeft = (ctx.levels l).bytesLeft := by
                have hzero : (ctx.levels ctx.level.pred).bytesLeft = 0 := by
                  simpa only [TlvOut.current, TlvOut.setLevel, Function.update_of_ne hne] using hleft
                by_cases he : l = ctx.level.pred
                · subst he
                  rw [hzero]
                  rcases hshape with ⟨-, rfl⟩ | ⟨-, -, rfl⟩ <;>
                    simp only [TlvOut.setLevel, Function.update_self]
                · have hl : (ctx'.levels l)
                      = (Function.update ctx.levels ctx.level ctx.current.cleared) l := by
                    rcases hshape with ⟨-, rfl⟩ | ⟨-, -, rfl⟩ <;>
                      simp only [TlvOut.setLevel, Function.update_of_ne he]
                  rw [hl]
                  by_cases hc : l = ctx.level
                  · subst hc
                    rw [Function.update_self]
                    rfl
                  · rw [Function.update_of_ne hc]
              rw [hsame]
              exact hs l
            · rcases hshape with ⟨-, rfl⟩ | ⟨-, -, rfl⟩ <;> rfl
            · rcases hshape with ⟨-, rfl⟩ | ⟨-, -, rfl⟩ <;> rfl

theorem finishTo_mid {fl : OutLevel} (hfl : (rootLevel root).toNat ≤ fl.toNat) :
    ∀ (fuel : Nat) {ctx ctx' : TlvOut}, Mid ctx root values →
      finishTo fl fuel ctx = some (0, ctx') → Mid ctx' root values ∧ ctx'.rootPath = ctx.rootPath
  | 0, ctx, ctx', h, hf => by
      simp only [finishTo, Option.some.injEq, Prod.mk.injEq, true_and] at hf
      exact hf ▸ ⟨h, rfl⟩
  | fuel + 1, ctx, ctx', h, hf => by
      unfold finishTo at hf
      split at hf
      · rename_i hlt
        cases hc : tlvSlaveFinish ctx with
        | none => simp [hc] at hf
        | some r =>
            obtain ⟨code, ctx1⟩ := r
            simp only [hc] at hf
            by_cases h0 : code = 0
            · subst h0
              obtain ⟨h1, -, hr1⟩ := slaveFinish_mid h (Nat.lt_of_le_of_lt hfl hlt) hc
              rw [if_pos rfl] at hf
              obtain ⟨h2, hr2⟩ := finishTo_mid hfl fuel h1 hf
              exact ⟨h2, hr2.trans hr1⟩
            · rw [if_neg h0] at hf
              simp only [Option.some.injEq, Prod.mk.injEq] at hf
              exact absurd hf.1 h0
      · simp only [Option.some.injEq, Prod.mk.injEq, true_and] at hf
        exact hf ▸ ⟨h, rfl⟩

theorem startLevels_mid (path : UriPath) : ∀ (is : List OutLevel) {ctx ctx' : TlvOut},
    Mid ctx root values → startLevels path is ctx = some ctx' → Mid ctx' root values
  | [], ctx, ctx', h, hs => by
      simp only [startLevels, Option.some.injEq] at hs
      exact hs ▸ h
  | i :: is, ctx, ctx', h, hs => by
      unfold startLevels at hs
      split at hs
      · cases hs
      · rename_i ctx1 h1
        exact startLevels_mid path is (slaveStart_mid (setNext_mid h i _) h1).1 hs

theorem finishLevel_ge (ctx : TlvOut) (path : UriPath) (newLevel lowest : OutLevel) :
    lowest.toNat ≤ (finishLevel ctx path newLevel lowest).toNat := by
  have hmax : lowest.toNat ≤ (newLevel.max lowest).toNat := by
    unfold OutLevel.max
    split <;> omega
  unfold finishLevel
  cases hf : (OutLevel.between lowest (newLevel.max lowest)).find? fun i =>
      (ctx.levels i).nextId ≠ idFromPath path i with
  | none => exact hmax
  | some i =>
      have hi := List.mem_of_find?_eq_some hf
      simp only [OutLevel.between, List.mem_filter, decide_eq_true_eq] at hi
      exact hi.2.1

/-- The id that is set, if any, is the one of the path set last. -/
structure RunInv (ctx : TlvOut) (root : UriPath) (t : Trace) : Prop where
  mid : Mid ctx root t.values
  current : ctx.current.nextId ≠ idInvalid → t.level = ctx.level ∧ t.id = ctx.current.nextId

variable {t : Trace}

theorem keepError_zero {r : Option (Int × TlvOut)} (h : keepError r = some (0, ctx)) :
    r = some (0, ctx) := by
  cases r with
  | none => cases h
  | some r =>
      obtain ⟨code, ctx1⟩ := r
      simp only [keepError, Option.map_some, Option.some.injEq, Prod.mk.injEq] at h
      obtain ⟨rfl, h⟩ := h
      rw [updateRet_zero_right] at h
      exact congrArg (fun c => some ((0 : Int), c)) h

/-- **`bytes_begin`** declares a value on the current level. -/
theorem begin_inv (h : RunInv ctx root t) {length : Nat}
    (hb : retBytesBegin ctx length = some (0, ctx')) :
    RunInv ctx' root (t.begin length) ∧ ctx'.level = t.level := by
  have hb := keepError_zero hb
  unfold tlvRetBytes at hb
  cases htype : currentLevelValueType ctx with
  | none => simp [htype] at hb
  | some type =>
      have htypes : ctx.current.nextId ≠ idInvalid ∧ ctx.level ≠ .iid ∧
          type = valueType ctx.level := by
        unfold currentLevelValueType at htype
        split at htype
        · cases htype
        · rename_i hid
          refine ⟨hid, ?_⟩
          split at htype
          · rename_i hl
            simp only [Option.some.injEq] at htype
            rw [hl]
            exact ⟨OutLevel.noConfusion, htype.symm⟩
          · rename_i hl
            simp only [Option.some.injEq] at htype
            rw [hl]
            exact ⟨OutLevel.noConfusion, htype.symm⟩
          · cases htype
      obtain ⟨hid, hiid, rfl⟩ := htypes
      obtain ⟨hlevel, hidt⟩ := h.current hid
      obtain ⟨ent, vals, hh, hvalues, hs⟩ := h.mid
      simp only [htype] at hb
      split at hb
      · rename_i ctx1 hadd
        simp only [Option.some.injEq, Prod.mk.injEq, true_and] at hb
        subst hb
        -- an append of no bytes leaves the new value as it is
        have hadd' : addEntry ctx (valueType ctx.level) (([] : List UInt8).length + length)
            = (true, ctx1) := by
          rw [List.length_nil, Nat.zero_add]
          exact hadd
        have happ := addEntry_append_nil hadd
        obtain ⟨hleft, hshape⟩ := extend_shape hadd' happ
        have hone := extend_holds hh hadd' happ (.value (hh.padded _) hiid length)
          fun _ => ⟨hiid, rfl, rfl⟩
        have hlevel1 : ctx1.level = ctx.level := by
          rcases hshape with ⟨-, rfl⟩ | ⟨-, -, rfl⟩ <;> rfl
        have hother : ∀ l, l ≠ ctx.level → ctx1.levels l = ctx.levels l := by
          intro l hl
          rcases hshape with ⟨-, rfl⟩ | ⟨-, -, rfl⟩ <;>
            simp only [TlvOut.setLevel, Function.update_of_ne hl]
        have hself : (ctx1.levels ctx.level).bytesLeft = length ∧
            (ctx1.levels ctx.level).nextId = idInvalid := by
          rcases hshape with ⟨-, rfl⟩ | ⟨-, -, rfl⟩ <;>
            exact ⟨by simp only [TlvOut.setLevel, Function.update_self],
              by simp only [TlvOut.setLevel, Function.update_self]⟩
        refine ⟨⟨⟨_, _, hone, ?_, fun l => ?_⟩, fun hne => ?_⟩, hlevel1.trans hlevel.symm⟩
        · obtain ⟨before, after, hsplit, hafter⟩ := flatten_split vals ctx.level
          have hnil : after = [] := List.eq_nil_iff_forall_not_mem.mpr fun v hv => by
            obtain ⟨m, hm, hvm⟩ := hafter v hv
            rw [(hh.outside m fun ho => Nat.not_le.mpr hm ho.2).2] at hvm
            exact List.not_mem_nil hvm
          have hall : t.values = before ++ vals ctx.level := by
            rw [hvalues, ← Function.update_eq_self ctx.level vals, hsplit, hnil, List.append_nil,
              Function.update_eq_self]
          rw [hsplit, hnil, List.append_nil, ← List.append_assoc, ← hall, ← hidt]
          show t.values ++ [⟨t.level, t.id, length, []⟩] = _
          rw [hlevel, List.length_nil, Nat.zero_add]
        · show Settled _ (onLevel l (t.values ++ [⟨t.level, t.id, length, []⟩]))
          rw [onLevel_append]
          by_cases he : l = ctx.level
          · subst he
            have hz : Settled 0 (onLevel ctx.level t.values) := by
              have hsl := hs ctx.level
              have hz : (ctx.levels ctx.level).bytesLeft = 0 := hleft
              rwa [hz] at hsl
            have hone : onLevel ctx.level [⟨t.level, t.id, length, []⟩]
                = [⟨t.level, t.id, length, []⟩] := by
              rw [← hlevel]
              exact onLevel_singleton_same ⟨t.level, t.id, length, []⟩
            rw [hself.1, hone]
            exact Or.inr ⟨_, _, rfl, settled_zero hz, Nat.zero_add _⟩
          · have hne : t.level ≠ l := fun e => he (e.symm.trans hlevel)
            rw [hother l he, onLevel_singleton_ne hne, List.append_nil]
            exact hs l
        · have hcur : ctx1.current.nextId = idInvalid := by
            unfold TlvOut.current
            rw [hlevel1]
            exact hself.2
          exact absurd hcur hne
      · simp at hb

/-- **`append`** adds to the last value of its level. -/
theorem append_inv (h : RunInv ctx root t) {l : OutLevel} {data : List UInt8}
    (happ : bytesAppend ctx l data = some (0, ctx')) : RunInv ctx' root (t.append l data) := by
  by_cases hne : data = []
  · subst hne
    have hctx : ctx' = ctx := by
      unfold bytesAppend at happ
      simp only [List.length_nil, if_true] at happ
      split at happ
      · cases happ
      all_goals
        simp only [Option.some.injEq, Prod.mk.injEq, true_and] at happ
        exact happ.symm
    rw [Trace.append, appendOn_nil, hctx]
    exact h
  · obtain ⟨ent, vals, hh, hvalues, hs⟩ := h.mid
    obtain ⟨es, vs, id, d, left, hpad, hiid, hleft, hvals, hlevel, hids, hother, hself, hone⟩ :=
      append_holds hh hne happ
    obtain ⟨before, after, hsplit, hafter⟩ := flatten_split vals l
    have hquiet : onLevel l after = [] := onLevel_eq_nil fun v hv => by
      obtain ⟨m, hm, hvm⟩ := hafter v hv
      exact Nat.lt_of_lt_of_le hm (padded_levels (hh.padded m) v hvm)
    have hall : t.values = (before ++ vs) ++
        ⟨l, id, d.length + (data.length + left), d⟩ :: after := by
      rw [hvalues, ← Function.update_eq_self l vals, hsplit, hvals]
      simp only [List.append_assoc, List.singleton_append]
    have hnew : appendOn l data t.values = (before ++ vs) ++
        ⟨l, id, d.length + (data.length + left), d ++ data⟩ :: after := by
      rw [hall, appendOn_last data ⟨l, id, _, d⟩ rfl hquiet]
    have hlen : (d ++ data).length + left = d.length + (data.length + left) := by
      rw [List.length_append, Nat.add_assoc]
    refine ⟨⟨_, _, hone, ?_, fun m => ?_⟩, fun hid => ?_⟩
    · show appendOn l data t.values = _
      rw [hnew, hsplit, hlen]
      simp only [List.append_assoc, List.singleton_append]
    · show Settled _ (onLevel m (appendOn l data t.values))
      have hsm := hs m
      rw [hall, onLevel_append] at hsm
      rw [hnew, onLevel_append]
      by_cases he : m = l
      · subst he
        have hcons : ∀ v : Declared, v.level = m → onLevel m (v :: after) = [v] := fun v hv => by
          rw [← List.singleton_append, onLevel_append, hquiet, List.append_nil, ← hv,
            onLevel_singleton_same]
        rw [hcons _ rfl, hleft] at hsm
        rw [hcons _ rfl, hself]
        -- the value lacked bytes, so it is the last one and those before it are complete
        rcases hsm with ⟨h0, -⟩ | ⟨ws, v, hws, hc, -⟩
        · have hpos : 0 < data.length := List.length_pos_of_ne_nil hne
          omega
        · obtain ⟨rfl, -⟩ := List.append_inj' hws rfl
          exact Or.inr ⟨_, _, rfl, hc, hlen⟩
      · have hcons : ∀ v : Declared, v.level = l → onLevel m (v :: after) = onLevel m after :=
          fun v hv => by
            rw [← List.singleton_append, onLevel_append, onLevel_singleton_ne (fun e => he
              (e.symm.trans hv)), List.nil_append]
        rw [hcons _ rfl] at hsm ⊢
        rw [hother m he]
        exact hsm
    · have hcur : ctx'.current.nextId = ctx.current.nextId := by
        unfold TlvOut.current
        rw [hlevel, hids]
      rw [hcur] at hid ⊢
      rw [hlevel]
      exact h.current hid

theorem retBytes_inv (h : RunInv ctx root t) {data : List UInt8}
    (hr : retBytes ctx data = some (0, ctx')) :
    RunInv ctx' root ((t.begin data.length).append t.level data) := by
  unfold retBytes at hr
  cases hb : retBytesBegin ctx data.length with
  | none => simp [hb] at hr
  | some r =>
      obtain ⟨code, ctx1⟩ := r
      simp only [hb] at hr
      by_cases h0 : code = 0
      · subst h0
        rw [if_pos rfl] at hr
        obtain ⟨h1, hlevel⟩ := begin_inv h hb
        rw [hlevel] at hr
        exact append_inv h1 hr
      · rw [if_neg h0] at hr
        simp at hr

/-- **`set_path`** names the level and the id of the next value. -/
theorem setPath_inv {narrow : BitVec 64 → Option (BitVec 32)} (h : RunInv ctx root t)
    {path : UriPath} (hp : tlvSetPath ctx path = some (0, ctx')) :
    RunInv ctx' root (traceCall narrow root t (.setPath path)) := by
  have hroot : ctx.rootPath = root := by
    obtain ⟨ent, vals, hh, -⟩ := h.mid
    exact hh.rootPath
  unfold tlvSetPath at hp
  rw [hroot] at hp
  split at hp
  · cases hp
  cases hleaf : leafLevel path with
  | none => simp [hleaf] at hp
  | some newLevel =>
      simp only [hleaf] at hp
      split at hp
      · simp at hp
      cases hf : finishTo (finishLevel ctx path newLevel (rootLevel root)) 2 ctx with
      | none => simp [hf] at hp
      | some r =>
          obtain ⟨code, ctx1⟩ := r
          simp only [hf] at hp
          by_cases h0 : code = 0
          · subst h0
            rw [if_neg (not_not_intro rfl)] at hp
            obtain ⟨h1, -⟩ := finishTo_mid (finishLevel_ge ctx path newLevel (rootLevel root)) 2
              h.mid hf
            split at hp
            · cases hp
            · rename_i ctx2 hstart
              have h2 := startLevels_mid path _ h1 hstart
              split at hp
              · rename_i hlevel
                simp only [Option.some.injEq, Prod.mk.injEq, true_and] at hp
                subst hp
                have h3 := setNext_mid h2 ctx2.level (if (rootLevel root).toNat ≤ newLevel.toNat then
                  idFromPath path ctx2.level else idInvalid)
                have hvalues : (traceCall narrow root t (.setPath path)) = ⟨newLevel.max
                    (rootLevel root), idFromPath path (newLevel.max (rootLevel root)), t.values⟩ := by
                  simp only [traceCall, hleaf]
                rw [hvalues]
                refine ⟨h3, fun hid => ⟨hlevel.symm, ?_⟩⟩
                simp only [TlvOut.current, TlvOut.setLevel, Function.update_self] at hid ⊢
                split at hid
                · rename_i hle
                  rw [if_pos hle, hlevel]
                · exact absurd rfl hid
              · cases hp
          · rw [if_pos h0] at hp
            simp only [Option.some.injEq, Prod.mk.injEq] at hp
            exact absurd hp.1 h0

/-- **Every call that reports success keeps the invariant.** -/
theorem call_inv {narrow : BitVec 64 → Option (BitVec 32)} (h : RunInv ctx root t) {c : OutCall}
    (hc : callTlv narrow ctx c = some (0, ctx')) : RunInv ctx' root (traceCall narrow root t c) := by
  have hbool : ∀ value : Bool, tlvRetI8 ctx (if value then 1 else 0)
      = retBytes ctx (integerBytes (if value then 1 else 0)) := fun value => by
    rw [integerBytes_small (by cases value <;> decide)]
    rfl
  cases c with
  | setPath path => exact setPath_inv h (keepError_zero hc)
  | clearPath =>
      have hc := keepError_zero hc
      unfold tlvClearPath at hc
      split at hc
      · simp at hc
      · simp only [Option.some.injEq, Prod.mk.injEq, true_and] at hc
        subst hc
        refine ⟨setNext_mid h.mid ctx.level idInvalid, fun hid => absurd ?_ hid⟩
        simp only [TlvOut.current, TlvOut.setLevel, Function.update_self]
  | startAggregate =>
      have hc := keepError_zero hc
      have hstart : ∀ {r : Option TlvOut}, r = tlvSlaveStart ctx →
          (r.map fun ctx => ((0 : Int), ctx)) = some (0, ctx') → RunInv ctx' root t := by
        rintro r rfl hr
        obtain ⟨ctx1, h1, h2⟩ := Option.map_eq_some_iff.mp hr
        simp only [Prod.mk.injEq, true_and] at h2
        obtain ⟨hm, -, hid⟩ := slaveStart_mid h.mid (h2 ▸ h1)
        exact ⟨hm, fun hne => absurd hid hne⟩
      unfold tlvStartAggregate at hc
      split at hc
      · split at hc
        · exact hstart rfl hc
        · split at hc
          · simp only [Option.some.injEq, Prod.mk.injEq, true_and] at hc
            exact hc ▸ h
          · cases hc
      · split at hc
        · exact hstart rfl hc
        · cases hc
      · cases hc
  | bytesBegin length => exact (begin_inv h hc).1
  | append l data => exact append_inv h hc
  | retBytes data => exact retBytes_inv h hc
  | retString value => exact retBytes_inv h (keepError_zero hc)
  | retI64 value =>
      have hc := keepError_zero hc
      rw [tlvRetI64_eq] at hc
      exact retBytes_inv h hc
  | retDouble value =>
      have hc := keepError_zero hc
      unfold tlvRetDouble at hc
      cases hn : narrow value with
      | none =>
          simp only [hn] at hc
          simpa only [traceCall, OutCall.payload, hn] using retBytes_inv h hc
      | some f =>
          simp only [hn] at hc
          simpa only [traceCall, OutCall.payload, hn] using retBytes_inv h hc
  | retBool value =>
      have hc : tlvRetI8 ctx (if value then 1 else 0) = some (0, ctx') := keepError_zero hc
      rw [hbool] at hc
      exact retBytes_inv h hc
  | retObjlnk oid iid => exact retBytes_inv h (keepError_zero hc)

theorem run_inv {narrow : BitVec 64 → Option (BitVec 32)} :
    ∀ (calls : List OutCall) {ctx ctx' : TlvOut} {t : Trace}, RunInv ctx root t →
      runCalls narrow calls ctx = some ctx' →
      RunInv ctx' root (calls.foldl (traceCall narrow root) t)
  | [], ctx, ctx', t, h, hr => by
      simp only [runCalls, Option.some.injEq] at hr
      exact hr ▸ h
  | c :: cs, ctx, ctx', t, h, hr => by
      rw [runCalls] at hr
      cases hc : callTlv narrow ctx c with
      | none => simp [hc] at hr
      | some r =>
          obtain ⟨code, ctx1⟩ := r
          simp only [hc] at hr
          by_cases h0 : code = 0
          · subst h0
            rw [if_pos rfl] at hr
            exact run_inv cs (call_inv h hc) hr
          · rw [if_neg h0] at hr
            cases hr

theorem create_inv {cap : Option Nat} (hc : outputTlvCreate ⟨[], cap⟩ root = some ctx) :
    RunInv ctx root (.start root) := by
  unfold outputTlvCreate at hc
  split at hc
  · simp only [Option.some.injEq] at hc
    subst hc
    have hlevels : ∀ l, ∃ id, Function.update (fun _ => (⟨[], 0, .unset, 0⟩ : Level)) (rootLevel root)
        ⟨[], idInvalid, .unset, 0⟩ l = ⟨[], id, .unset, 0⟩ := fun l => by
      by_cases he : l = rootLevel root
      · subst he
        exact ⟨idInvalid, by rw [Function.update_self]⟩
      · exact ⟨0, by rw [Function.update_of_ne he]⟩
    refine ⟨⟨fun _ => [], fun _ => [], ⟨rfl, Nat.le_refl _, fun l => .nil l, fun l _ => ⟨rfl, rfl⟩,
      fun l _ => ?_, ?_, fun e he => absurd he List.not_mem_nil, fun l hl => ?_, fun l hl => ?_,
      fun l hl => ?_⟩, rfl, fun l => ?_⟩, fun hid => absurd ?_ hid⟩
    · obtain ⟨id, he⟩ := hlevels l
      simp only [he]
    · simp only [Function.update_self]
      rfl
    · obtain ⟨id, he⟩ := hlevels l
      simp only [he] at hl
      cases hl
    · obtain ⟨id, he⟩ := hlevels l
      simp only [he] at hl
      cases hl
    · obtain ⟨id, he⟩ := hlevels l
      simp only [he] at hl
      exact absurd rfl hl
    · exact Or.inl ⟨by
        obtain ⟨id, he⟩ := hlevels l
        simp only [he], fun v hv => absurd hv List.not_mem_nil⟩
    · simp only [TlvOut.current, Function.update_self]
  · cases hc

theorem closeLevels_mid : ∀ (fuel : Nat) {code : Int} {ctx ctx' : TlvOut}, Mid ctx root values →
    ctx.level.toNat ≤ (rootLevel root).toNat + fuel → closeLevels fuel code ctx = some (0, ctx') →
    code = 0 ∧ Mid ctx' root values ∧ ctx'.level.toNat ≤ (rootLevel root).toNat
  | 0, code, ctx, ctx', h, hle, hc => by
      simp only [closeLevels, Option.some.injEq, Prod.mk.injEq] at hc
      obtain ⟨rfl, rfl⟩ := hc
      exact ⟨rfl, h, hle⟩
  | fuel + 1, code, ctx, ctx', h, hle, hc => by
      have hroot : ctx.rootPath = root := by
        obtain ⟨ent, vals, hh, -⟩ := h
        exact hh.rootPath
      unfold closeLevels at hc
      rw [hroot] at hc
      split at hc
      · rename_i hlt
        cases hf : tlvSlaveFinish ctx with
        | none => simp [hf] at hc
        | some r =>
            obtain ⟨code1, ctx1⟩ := r
            simp only [hf] at hc
            -- an error on the way would be kept to the end
            have hzero : ∀ (fuel : Nat) {code : Int} {c c' : TlvOut},
                closeLevels fuel code c = some (0, c') → code = 0 := by
              intro fuel
              induction fuel with
              | zero =>
                  intro code c c' h0
                  simp only [closeLevels, Option.some.injEq, Prod.mk.injEq] at h0
                  exact h0.1
              | succ fuel ih =>
                  intro code c c' h0
                  unfold closeLevels at h0
                  split at h0
                  · split at h0
                    · cases h0
                    · exact (updateRet_eq_zero.mp (ih h0)).1
                  · simp only [Option.some.injEq, Prod.mk.injEq] at h0
                    exact h0.1
            obtain ⟨rfl, rfl⟩ := updateRet_eq_zero.mp (hzero fuel hc)
            obtain ⟨h1, hl1, -⟩ := slaveFinish_mid h hlt hf
            have hpred := OutLevel.pred_lt hlt
            have h2 := closeLevels_mid fuel h1 (by rw [hl1]; omega) hc
            exact ⟨rfl, h2.2⟩
      · rename_i hlt
        simp only [Option.some.injEq, Prod.mk.injEq] at hc
        obtain ⟨rfl, rfl⟩ := hc
        exact ⟨rfl, h, Nat.not_lt.mp hlt⟩

end Steps

/-! ## 6. Successful runs -/

/-- A whole use of an output context: all calls report success, and then the result of `close` and the
    bytes in the stream. -/
def session (narrow : BitVec 64 → Option (BitVec 32)) (capacity : Option Nat) (root : UriPath)
    (calls : List OutCall) : Option (Int × List UInt8) :=
  match outputTlvCreate ⟨[], capacity⟩ root with
  | none => none
  | some ctx =>
      match runCalls narrow calls ctx with
      | none => none
      | some ctx => (tlvOutputClose ctx).map fun r => (r.1, r.2.stream.written)

/-- The end of a successful session: the values are on the root level, and the stream is as far behind
    as the last of them. -/
theorem session_end {narrow : BitVec 64 → Option (BitVec 32)} {capacity : Option Nat}
    {root : UriPath} {calls : List OutCall} {payload : List UInt8}
    (h : session narrow capacity root calls = some (0, payload)) :
    ∃ (es : List OutEntry) (left : OutLevel → Nat), Padded (rootLevel root) es (trace narrow root calls) ∧ (∀ e ∈ es, EntryFits e) ∧
      payload ++ List.replicate (left (rootLevel root)) 0 = encodeEntries es ∧
      ∀ l, Settled (left l) (onLevel l (trace narrow root calls)) := by
  unfold session at h
  split at h
  · cases h
  rename_i ctx hcreate
  split at h
  · cases h
  rename_i ctx1 hrun
  obtain ⟨⟨code, ctx2⟩, hclose, he⟩ := Option.map_eq_some_iff.mp h
  simp only [Prod.mk.injEq] at he
  obtain ⟨rfl, rfl⟩ := he
  have hinv := run_inv calls (create_inv hcreate) hrun
  have hle : ctx1.level.toNat ≤ (rootLevel root).toNat + 2 := by
    have : ctx1.level.toNat ≤ 2 := by cases ctx1.level <;> decide
    omega
  obtain ⟨-, ⟨ent, vals, hh, hvalues, hs⟩, hlevel⟩ := closeLevels_mid 2 hinv.mid hle hclose
  have hvalues : trace narrow root calls = flatten vals := hvalues
  -- only the root level is open
  have hout : ∀ l, l ≠ rootLevel root → vals l = [] := fun l hl =>
    (hh.outside l fun ho => hl (OutLevel.toNat_inj (Nat.le_antisymm (ho.2.trans hlevel) ho.1))).2
  have hroot : trace narrow root calls = vals (rootLevel root) := by
    rw [hvalues, flatten]
    cases hr : rootLevel root with
    | iid => rw [hout .rid (by rw [hr]; decide), hout .riid (by rw [hr]; decide)]; simp
    | rid => rw [hout .iid (by rw [hr]; decide), hout .riid (by rw [hr]; decide)]; simp
    | riid => rw [hout .iid (by rw [hr]; decide), hout .rid (by rw [hr]; decide)]; simp
  exact ⟨_, fun l => (ctx2.levels l).bytesLeft, hroot ▸ hh.padded (rootLevel root), hh.fits,
    hh.stream, hs⟩

/-- **When every call and the final close report success, the payload is well formed and holds
    exactly the declared values with the bytes appended to them, iff the last value begun on each
    level got all the bytes declared for it.** -/
theorem session_wellFormed_iff {narrow : BitVec 64 → Option (BitVec 32)} {capacity : Option Nat}
    {root : UriPath} {calls : List OutCall} {payload : List UInt8}
    (h : session narrow capacity root calls = some (0, payload)) :
    WellFormed (rootLevel root) payload (trace narrow root calls) ↔
      ∀ l, missing l (trace narrow root calls) = 0 := by
  obtain ⟨es, left, hpad, hfits, hstream, hs⟩ := session_end h
  constructor
  · intro hw l
    have hcomplete := wellFormed_complete hw
    have hz : Settled 0 (onLevel l (trace narrow root calls)) :=
      Or.inl ⟨rfl, fun v hv => hcomplete v (List.mem_filter.mp hv).1⟩
    exact settled_missing hz
  · intro hm
    have hleft : ∀ l, left l = 0 := fun l => (settled_missing (hs l)).symm.trans (hm l)
    have hcomplete : ∀ v ∈ trace narrow root calls, v.Complete := fun v hv => by
      have hv' : v ∈ onLevel v.level (trace narrow root calls) :=
        List.mem_filter.mpr ⟨hv, decide_eq_true rfl⟩
      have hsl := hs v.level
      rw [hleft] at hsl
      exact settled_zero hsl v hv'
    have hw := padded_wellFormed hpad hfits hcomplete (.nil _)
    rw [hleft, List.replicate_zero, List.append_nil] at hstream
    rwa [List.append_nil, List.append_nil, ← hstream] at hw

/-- Two values of a Resource array, the first one appended in two pieces. -/
theorem session_wellFormed_array :
    let calls : List OutCall := [.setPath (.resourceInstance 3 0 6 0), .bytesBegin 2,
      .append .riid [0x41], .append .riid [0x42], .setPath (.resourceInstance 3 0 6 1), .retI64 300]
    let payload : List UInt8 := [0x88, 0x06, 0x08, 0x42, 0x00, 0x41, 0x42, 0x42, 0x01, 0x01, 0x2C]
    session (fun _ => none) none (.instancePath 3 0) calls = some (0, payload) ∧
      (WellFormed .rid payload (trace (fun _ => none) (.instancePath 3 0) calls) ↔
        ∀ l, missing l (trace (fun _ => none) (.instancePath 3 0) calls) = 0) := by
  intro calls payload
  have h : session (fun _ => none) none (.instancePath 3 0) calls = some (0, payload) := by
    decide +kernel
  exact ⟨h, session_wellFormed_iff h⟩

/-- One byte of two appended: every call and the close report success. -/
theorem session_accepts_short_value :
    ¬ ∀ (narrow : BitVec 64 → Option (BitVec 32)) (root : UriPath) (calls : List OutCall)
      (payload : List UInt8), session narrow none root calls = some (0, payload) →
        WellFormed (rootLevel root) payload (trace narrow root calls) := by
  intro hclaim
  have hw := hclaim (fun _ => none) (.instancePath 3 0)
    [.setPath (.resource 3 0 5), .bytesBegin 2, .append .rid [0x41]] [0xC2, 0x05, 0x41]
    (by decide +kernel)
  have hshort : ([0x41] : List UInt8).length = 2 :=
    wellFormed_complete hw ⟨.rid, 5, 2, [0x41]⟩ (by decide)
  exact absurd hshort (by decide)

end Anjay.Tlv
