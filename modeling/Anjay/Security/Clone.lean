/-
  File:      Anjay/Security/Clone.lean
  Subject:   The copy of the Instances that a transaction on the Security Object starts with, in memory
             (`anjay_security_utils.c`, `anjay_security_transaction.c`).

  * `cloneFields_spec`, `cloneInstances_spec`: what has been copied, and what is freed, wherever an allocation fails.
  * `transactionBegin_meets_iff`: when a snapshot is taken or everything is left as it was.
-/
import Anjay.Lib.Forall2
import Anjay.Lib.Heap
import Anjay.Security.Object

namespace Anjay.Sec

/-! ## 1. Fields -/

/-- What a field shows; a buffer without data is an empty one. -/
def SecField.shown (f : SecField) (value : Option (List UInt8)) : Option (List UInt8) :=
  if f.isString then value else some (value.getD [])

theorem SecField.mem_all (f : SecField) : f ∈ all := by
  cases f <;> decide

theorem SecField.all_nodup : all.Nodup := by decide

/-- The fields behind one are those that come behind it in the order. -/
theorem SecField.mem_after {f : SecField} {front back : List SecField} (h : all = front ++ f :: back) :
    ∀ g, g ∈ f.after ↔ g ∉ front ∧ g ≠ f := by
  have hnodup := SecField.all_nodup
  rw [h, List.nodup_append] at hnodup
  obtain ⟨-, hback, hdisjoint⟩ := hnodup
  have hfront : ∀ x ∈ front, x ≠ f := fun x hx => hdisjoint x hx f List.mem_cons_self
  have hafter : f.after = back := by
    unfold after
    rw [h, List.dropWhile_append_of_pos fun x hx => decide_eq_true (hfront x hx),
      List.dropWhile_cons_of_neg (by simp), List.tail_cons]
  intro g
  rw [hafter]
  constructor
  · intro hg
    refine ⟨fun hgf => hdisjoint g hgf g (List.mem_cons_of_mem f hg) rfl, ?_⟩
    rintro rfl
    exact (List.nodup_cons.mp hback).1 hg
  · rintro ⟨hgfront, hgf⟩
    have hall := g.mem_all
    rw [h] at hall
    exact (List.mem_cons.mp ((List.mem_append.mp hall).resolve_left hgfront)).resolve_left hgf

end Anjay.Sec

namespace Anjay.Sec.Clone

open Dm Modules Lib

/-! ## 2. Instances in memory -/

/-- `anjay_raw_buffer_t` without its capacity; a string has the size of its text. -/
structure Buffer where
  data : Option Nat
  size : Nat
  deriving DecidableEq, Repr

/-- `ANJAY_RAW_BUFFER_EMPTY`. -/
def Buffer.empty : Buffer := ⟨none, 0⟩

/-- The fields of `sec_instance_t` that are no pointers. -/
structure Scalars where
  iid : Id
  isBootstrap : Bool
  securityMode : Int
  ssid : Id
  holdoffS : BitVec 32
  bsTimeoutS : BitVec 32
  smsSecurityMode : Int
  hasIsBootstrap : Bool
  hasSecurityMode : Bool
  hasSsid : Bool
  hasSmsSecurityMode : Bool
  hasSmsKeyParams : Bool
  hasSmsSecretKey : Bool
  deriving DecidableEq, Repr

/-- `sec_instance_t`, as it is in memory. -/
structure Cell where
  scalars : Scalars
  buffers : SecField → Buffer

/-- Blocks with the bytes that are in them; for a string, its text. -/
abbrev Memory := Heap (List UInt8)

/-- The bytes of a buffer; none where the pointer is null or dangles. -/
def Buffer.value (memory : Memory) (b : Buffer) : Option (List UInt8) :=
  b.data.bind fun a => (memory.blocks a).map (List.take b.size)

/-- All that an Instance holds. -/
def Cell.contents (memory : Memory) (c : Cell) : Scalars × (SecField → Option (List UInt8)) :=
  (c.scalars, fun f => f.shown ((c.buffers f).value memory))

/-- No pointer dangles. -/
def Cell.Live (memory : Memory) (c : Cell) : Prop :=
  ∀ f a, (c.buffers f).data = some a → (memory.blocks a).isSome = true

def Cell.set (c : Cell) (f : SecField) (b : Buffer) : Cell := { c with buffers := Function.update c.buffers f b }

/-! ## 3. The code -/

/-- `avs_strdup` copies a string that is there, `_anjay_raw_buffer_clone` a buffer that is not empty. -/
def needsBlock (f : SecField) (src : Buffer) : Bool := if f.isString then src.data.isSome else decide (src.size ≠ 0)

/-- `avs_strdup`, `sec_key_or_data_clone` and `_anjay_raw_buffer_clone`; there is no copy where they fail. -/
def cloneBuffer (alloc : Nat → Bool) (f : SecField) (src : Buffer) (memory : Memory) : Option Buffer × Memory :=
  if needsBlock f src then
    let allocated := memory.allocate alloc ((src.value memory).getD [])
    (allocated.1.map fun a => ⟨some a, src.size⟩, allocated.2)
  else (some .empty, memory)

/-- The copies of the fields from one on, and whether all succeed; what has failed is left empty. -/
def cloneFields (alloc : Nat → Bool) (src : Cell) : List SecField → Cell → Memory → Bool × Cell × Memory
  | [], dest, memory => (true, dest, memory)
  | f :: fs, dest, memory =>
      let copy := cloneBuffer alloc f (src.buffers f) memory
      match copy.1 with
      | none => (false, dest.set f .empty, copy.2)
      | some b => cloneFields alloc src fs (dest.set f b) copy.2

/-- `_anjay_sec_clone_instance`; there is no result where its assertion fails. It starts with `*dest = *src`. -/
def cloneInstance (alloc : Nat → Bool) (src : Cell) (memory : Memory) : Option (Bool × Cell × Memory) :=
  if (src.buffers .serverUri).data.isNone then none else some (cloneFields alloc src SecField.all src memory)

/-- What `_anjay_sec_destroy_instance_fields` frees. -/
def Cell.pointers (c : Cell) : List (Option Nat) := SecField.all.map fun f => (c.buffers f).data

/-- `_anjay_sec_destroy_instances`. -/
def destroyInstances (cells : List Cell) (memory : Memory) : Memory := memory.freeAll (cells.flatMap Cell.pointers)

/-- The loop of `_anjay_sec_clone_instances`, with `retval` as it is so far. -/
def cloneInstances (alloc : Nat → Bool) : List Cell → List Cell → Memory → Option (List Cell × Memory)
  | [], retval, memory => some (retval, memory)
  | src :: rest, retval, memory =>
      if alloc memory.tries then
        match cloneInstance alloc src memory.tried with
        | none => none
        | some (true, dest, memory) => cloneInstances alloc rest (retval ++ [dest]) memory
        | some (false, dest, memory) => some ([], destroyInstances (retval ++ [dest]) memory)
      else cloneInstances alloc rest retval memory.tried

/-- `_anjay_sec_transaction_begin_impl`. -/
def transactionBegin (alloc : Nat → Bool) (memory : Memory) (repr : ObjectRepr Cell) :
    Option (Int × Memory × ObjectRepr Cell) :=
  match cloneInstances alloc repr.instances [] memory with
  | none => none
  | some (cloned, memory) => (repr.transactionBegin cloned).map fun r => (r.1, memory, r.2)

/-- `_anjay_sec_transaction_rollback_impl`. -/
def transactionRollback (memory : Memory) (repr : ObjectRepr Cell) : Option (Int × Memory × ObjectRepr Cell) :=
  repr.transactionRollback.map fun r => (r.1, destroyInstances repr.instances memory, r.2)

/-! ## 4. What a transaction should start with -/

/-- The Security Object outside of a transaction. -/
structure Idle where
  memory : Memory
  repr : ObjectRepr Cell
  noSaved : repr.savedInstances = []
  noTransaction : repr.inTransaction = false
  live : ∀ c ∈ repr.instances, c.Live memory

/-- The second list holds what the first one does, element by element and field by field. -/
def SameContents (memory : Memory) (cells : List Cell) (memory' : Memory) (cells' : List Cell) : Prop :=
  List.Forall₂ (fun c c' => c'.contents memory' = c.contents memory) cells cells'

/-- A rollback in a later state, where the saved Instances have not been touched, restores the contents. -/
def Restorable (memory : Memory) (cells : List Cell) (memory' : Memory) (saved : List Cell) : Prop :=
  ∀ (later : Memory) (repr : ObjectRepr Cell), repr.inTransaction = true → repr.savedInstances = saved →
    (∀ d ∈ saved, ∀ f a, (d.buffers f).data = some a → later.blocks a = memory'.blocks a) →
    (∀ c ∈ repr.instances, ∀ d ∈ saved, ∀ f g a, (c.buffers f).data = some a → (d.buffers g).data ≠ some a) →
    ∃ restored repr', transactionRollback later repr = some (0, restored, repr') ∧
      repr'.inTransaction = false ∧ SameContents memory cells restored repr'.instances

/-- **What beginning a transaction should do**: take a snapshot from which a rollback restores the Instances, or
    fail and leave all as it was. The Instances themselves are untouched in both cases. -/
structure BeginMeets (s : Idle) (ret : Int) (memory : Memory) (repr : ObjectRepr Cell) : Prop where
  instances : repr.instances = s.repr.instances
  live : ∀ c ∈ s.repr.instances, c.Live memory
  contents : ∀ c ∈ s.repr.instances, c.contents memory = c.contents s.memory
  outcome : (ret = 0 ∧ repr.inTransaction = true ∧
      SameContents s.memory s.repr.instances memory repr.savedInstances ∧
      Restorable s.memory s.repr.instances memory repr.savedInstances) ∨
    (ret ≠ 0 ∧ repr.savedInstances = [] ∧ repr.inTransaction = false)

/-! ## 5. What becomes of each Instance -/

inductive Fate
  | copied
  | skipped
  | failed (f : SecField)
  | noUri
  deriving DecidableEq, Repr

/-- What becomes of the copies of the fields from one on, and the number of allocations that were tried then. -/
def fieldsFate (alloc : Nat → Bool) (src : Cell) : List SecField → Nat → Fate × Nat
  | [], n => (.copied, n)
  | f :: fs, n =>
      if needsBlock f (src.buffers f) then
        if alloc n then fieldsFate alloc src fs (n + 1) else (.failed f, n + 1)
      else fieldsFate alloc src fs n

/-- What becomes of each Instance, up to the first one whose copy fails; `n` allocations were tried before. -/
def fates (alloc : Nat → Bool) : Nat → List Cell → List (Cell × Fate)
  | _, [] => []
  | n, src :: rest =>
      if alloc n then
        if (src.buffers .serverUri).data.isNone then [(src, .noUri)]
        else
          match fieldsFate alloc src SecField.all (n + 1) with
          | (.copied, n) => (src, .copied) :: fates alloc n rest
          | (fate, _) => [(src, fate)]
      else (src, .skipped) :: fates alloc (n + 1) rest

/-- Where beginning a transaction does what it should: every Instance that is reached has a Server URI; all list
    elements can be allocated, or none, unless a copy fails; and where the copy of a field fails, the Instance has
    nothing in the fields behind it. -/
structure BeginSafe (alloc : Nat → Bool) (n : Nat) (cells : List Cell) : Prop where
  uri : ∀ x ∈ fates alloc n cells, x.2 ≠ .noUri
  later : ∀ x ∈ fates alloc n cells, ∀ f, x.2 = .failed f → ∀ g ∈ f.after, (x.1.buffers g).data = none
  elements : (∃ x ∈ fates alloc n cells, ∃ f, x.2 = .failed f) ∨ (∀ x ∈ fates alloc n cells, x.2 = .copied) ∨
    ∀ x ∈ fates alloc n cells, x.2 = .skipped

/-! ## 6. Pointers and contents -/

theorem Cell.mem_pointers {c : Cell} {p : Option Nat} : p ∈ c.pointers ↔ ∃ f, (c.buffers f).data = p := by
  unfold Cell.pointers
  rw [List.mem_map]
  exact ⟨fun ⟨f, _, hf⟩ => ⟨f, hf⟩, fun ⟨f, hf⟩ => ⟨f, f.mem_all, hf⟩⟩

theorem Cell.set_same (c : Cell) (f : SecField) (b : Buffer) : (c.set f b).buffers f = b := Function.update_self ..

theorem Cell.set_other (c : Cell) {f g : SecField} (h : g ≠ f) (b : Buffer) :
    (c.set f b).buffers g = c.buffers g := Function.update_of_ne h ..

/-- A pointer that does not dangle is below all new ones. -/
theorem Cell.Live.lt {memory : Memory} {c : Cell} (h : c.Live memory) {f : SecField} {a : Nat}
    (ha : (c.buffers f).data = some a) : a < memory.next := by
  by_contra hle
  have hlive := h f a ha
  rw [memory.unused a (Nat.not_lt.mp hle)] at hlive
  cases hlive

theorem Buffer.value_congr {memory memory' : Memory} {b : Buffer}
    (h : ∀ a, b.data = some a → memory'.blocks a = memory.blocks a) : b.value memory' = b.value memory := by
  unfold Buffer.value
  cases hb : b.data with
  | none => rfl
  | some a =>
      rw [Option.bind_some, Option.bind_some, h a hb]

theorem Cell.contents_congr {memory memory' : Memory} {c : Cell}
    (h : ∀ f a, (c.buffers f).data = some a → memory'.blocks a = memory.blocks a) :
    c.contents memory' = c.contents memory := by
  unfold Cell.contents
  refine congrArg (Prod.mk c.scalars) (funext fun f => ?_)
  rw [Buffer.value_congr (h f)]

theorem Cell.Live.kept {memory memory' : Memory} {c : Cell} (h : c.Live memory) (hkept : memory.Kept memory') :
    c.Live memory' ∧ c.contents memory' = c.contents memory := by
  have hsame : ∀ f a, (c.buffers f).data = some a → memory'.blocks a = memory.blocks a :=
    fun f a ha => hkept.2 a (h.lt ha)
  refine ⟨fun f a ha => ?_, Cell.contents_congr hsame⟩
  rw [hsame f a ha]
  exact h f a ha

/-- All blocks of an Instance are new. -/
def Cell.Above (bound : Nat) (c : Cell) : Prop := ∀ f a, (c.buffers f).data = some a → bound ≤ a

/-! ## 7. The copy of one Instance -/

/-- A copy of a buffer, in blocks from an address on. -/
structure IsCopy (memory : Memory) (f : SecField) (src : Buffer) (memory' : Memory) (b : Buffer) : Prop where
  new : ∀ a, b.data = some a → memory.next ≤ a
  live : ∀ a, b.data = some a → (memory'.blocks a).isSome = true
  shown : f.shown (b.value memory') = f.shown (src.value memory)

theorem cloneBuffer_spec (alloc : Nat → Bool) (f : SecField) {src : Buffer} {memory : Memory}
    (hlive : ∀ a, src.data = some a → (memory.blocks a).isSome = true) :
    (needsBlock f src = true ∧ alloc memory.tries = false ∧ cloneBuffer alloc f src memory = (none, memory.tried)) ∨
    ∃ b memory', cloneBuffer alloc f src memory = (some b, memory') ∧ memory.Kept memory' ∧
      IsCopy memory f src memory' b ∧
      ((needsBlock f src = true ∧ alloc memory.tries = true ∧ memory'.tries = memory.tries + 1) ∨
        (needsBlock f src = false ∧ memory'.tries = memory.tries)) := by
  unfold cloneBuffer
  cases hneeds : needsBlock f src with
  | false =>
      refine Or.inr ⟨.empty, memory, if_neg Bool.false_ne_true, Heap.Kept.refl _, ?_, Or.inr ⟨rfl, rfl⟩⟩
      refine ⟨fun a ha => (nomatch ha), fun a ha => (nomatch ha), ?_⟩
      unfold needsBlock at hneeds
      unfold SecField.shown
      cases hf : f.isString with
      | true =>
          -- a string that is not there
          rw [if_pos hf] at hneeds
          have hnull : src.data = none := Option.not_isSome_iff_eq_none.mp (by simp [hneeds])
          unfold Buffer.value
          rw [hnull]
          rfl
      | false =>
          rw [if_neg (by simp [hf])] at hneeds
          have hsize : src.size = 0 := Decidable.not_not.mp (of_decide_eq_false hneeds)
          unfold Buffer.value
          rw [hsize]
          cases src.data with
          | none => rfl
          | some a =>
              rw [Option.bind_some]
              cases memory.blocks a with
              | none => rfl
              | some block =>
                  rw [Option.map_some, List.take_zero]
                  rfl
  | true =>
      rw [if_pos rfl]
      dsimp only
      rcases memory.allocate_spec alloc ((src.value memory).getD []) with
        ⟨halloc, memory', heq, hkept, hblock, -, htries⟩ | ⟨halloc, heq⟩
      · refine Or.inr ⟨⟨some memory.next, src.size⟩, memory', ?_, hkept, ?_, Or.inl ⟨rfl, halloc, htries⟩⟩
        · rw [heq]
          rfl
        · refine ⟨fun a ha => le_of_eq (Option.some.inj ha), fun a ha => ?_, ?_⟩
          · rw [← Option.some.inj ha, hblock]
            rfl
          · have hvalue : (⟨some memory.next, src.size⟩ : Buffer).value memory' =
                some ((src.value memory).getD [] |>.take src.size) := by
              unfold Buffer.value
              rw [Option.bind_some, hblock]
              rfl
            rw [hvalue]
            have htake : ((src.value memory).getD []).take src.size = (src.value memory).getD [] := by
              unfold Buffer.value
              cases src.data with
              | none => exact List.take_nil
              | some a =>
                  rw [Option.bind_some]
                  cases memory.blocks a with
                  | none => exact List.take_nil
                  | some block => exact (List.take_take ..).trans (by rw [Nat.min_self]; rfl)
            rw [htake]
            unfold SecField.shown
            cases hf : f.isString with
            | false => rfl
            | true =>
                unfold needsBlock at hneeds
                rw [if_pos hf] at hneeds
                obtain ⟨a, ha⟩ := Option.isSome_iff_exists.mp hneeds
                obtain ⟨block, hblock⟩ := Option.isSome_iff_exists.mp (hlive a ha)
                unfold Buffer.value
                rw [ha, Option.bind_some, hblock]
                rfl
      · refine Or.inl ⟨rfl, halloc, ?_⟩
        rw [heq]
        rfl

/-- A copy stays one while blocks are added. -/
theorem IsCopy.kept {memory memory' memory'' : Memory} {f : SecField} {src b : Buffer}
    (h : IsCopy memory f src memory' b) (hkept : memory'.Kept memory'') : IsCopy memory f src memory'' b := by
  have hsame : ∀ a, b.data = some a → memory''.blocks a = memory'.blocks a := by
    intro a ha
    refine hkept.2 a ?_
    by_contra hle
    have hlive := h.live a ha
    rw [memory'.unused a (Nat.not_lt.mp hle)] at hlive
    cases hlive
  refine ⟨h.new, fun a ha => ?_, ?_⟩
  · rw [hsame a ha]
    exact h.live a ha
  · rw [Buffer.value_congr hsame]
    exact h.shown

/-- The source of a copy was as it is before blocks were added. -/
theorem IsCopy.earlier {memory memory' memory'' : Memory} {f : SecField} {src b : Buffer}
    (h : IsCopy memory' f src memory'' b) (hkept : memory.Kept memory')
    (hlive : ∀ a, src.data = some a → a < memory.next) : IsCopy memory f src memory'' b := by
  refine ⟨fun a ha => Nat.le_trans hkept.1 (h.new a ha), h.live, ?_⟩
  rw [h.shown, Buffer.value_congr fun a ha => hkept.2 a (hlive a ha)]

/-- All fields from one on have been copied. -/
structure FieldsCopied (src : Cell) (fs : List SecField) (dest : Cell) (memory : Memory) (dest' : Cell)
    (memory' : Memory) : Prop where
  kept : memory.Kept memory'
  scalars : dest'.scalars = dest.scalars
  others : ∀ g, g ∉ fs → dest'.buffers g = dest.buffers g
  copies : ∀ g ∈ fs, IsCopy memory g (src.buffers g) memory' (dest'.buffers g)

/-- The copy of a field has failed; what comes behind it is still that of the source. -/
structure FieldFailed (fs : List SecField) (f : SecField) (dest : Cell) (memory : Memory) (dest' : Cell)
    (memory' : Memory) : Prop where
  kept : memory.Kept memory'
  empty : (dest'.buffers f).data = none
  place : ∃ front back, fs = front ++ f :: back ∧
    (∀ g ∈ front, ∀ a, (dest'.buffers g).data = some a → memory.next ≤ a) ∧
    ∀ g, g ∉ front → g ≠ f → dest'.buffers g = dest.buffers g

/-- **The copies of the fields**: all succeed, or the first one that fails ends it. -/
theorem cloneFields_spec (alloc : Nat → Bool) {src : Cell} : ∀ (fs : List SecField) (dest : Cell) (memory : Memory),
    fs.Nodup → src.Live memory →
    (∃ dest' memory', cloneFields alloc src fs dest memory = (true, dest', memory') ∧
      fieldsFate alloc src fs memory.tries = (.copied, memory'.tries) ∧
      FieldsCopied src fs dest memory dest' memory') ∨
    ∃ f dest' memory', cloneFields alloc src fs dest memory = (false, dest', memory') ∧
      fieldsFate alloc src fs memory.tries = (.failed f, memory'.tries) ∧ FieldFailed fs f dest memory dest' memory'
  | [], dest, memory, _, _ =>
      Or.inl ⟨dest, memory, rfl, rfl, Heap.Kept.refl _, rfl, fun _ _ => rfl, List.forall_mem_nil _⟩
  | f :: fs, dest, memory, hnodup, hlive => by
      obtain ⟨hf, hnodup⟩ := List.nodup_cons.mp hnodup
      rw [cloneFields, fieldsFate]
      rcases cloneBuffer_spec alloc f (hlive f) with
        ⟨hneeds, halloc, heq⟩ | ⟨b, memory', heq, hkept, hcopy, hfate⟩
      · rw [heq, if_pos hneeds, if_neg (by simp [halloc])]
        refine Or.inr ⟨f, dest.set f .empty, memory.tried, rfl, rfl, memory.kept_tried, ?_, [], fs, rfl, ?_, ?_⟩
        · rw [Cell.set_same]
          rfl
        · exact List.forall_mem_nil _
        · exact fun g _ hg => Cell.set_other dest hg _
      · rw [heq]
        dsimp only
        have hstep : (if needsBlock f (src.buffers f) = true then
              if alloc memory.tries = true then fieldsFate alloc src fs (memory.tries + 1)
              else (.failed f, memory.tries + 1)
            else fieldsFate alloc src fs memory.tries) = fieldsFate alloc src fs memory'.tries := by
          rcases hfate with ⟨hneeds, halloc, htries⟩ | ⟨hneeds, htries⟩
          · rw [if_pos hneeds, if_pos halloc, htries]
          · rw [if_neg (by simp [hneeds]), htries]
        rw [hstep]
        have hbelow : ∀ g a, (src.buffers g).data = some a → a < memory.next := fun g a ha => hlive.lt ha
        rcases cloneFields_spec alloc fs (dest.set f b) memory' hnodup (hlive.kept hkept).1 with
          ⟨dest', memory'', hclone, hcopied, h⟩ | ⟨g, dest', memory'', hclone, hfailed, h⟩
        · refine Or.inl ⟨dest', memory'', hclone, hcopied, hkept.trans h.kept, h.scalars, fun g hg => ?_, ?_⟩
          · obtain ⟨hgf, hgfs⟩ := not_or.mp fun hor => hg (List.mem_cons.mpr hor)
            rw [h.others g hgfs, Cell.set_other dest hgf]
          · refine List.forall_mem_cons.mpr ⟨?_, fun g hg => (h.copies g hg).earlier hkept (hbelow g)⟩
            rw [h.others f hf, Cell.set_same]
            exact hcopy.kept h.kept
        · obtain ⟨front, back, rfl, hfront, hother⟩ := h.place
          refine Or.inr ⟨g, dest', memory'', hclone, hfailed, hkept.trans h.kept, h.empty, f :: front, back, rfl,
            ?_, ?_⟩
          · refine List.forall_mem_cons.mpr ⟨fun a ha => ?_, fun x hx a ha => Nat.le_trans hkept.1 (hfront x hx a ha)⟩
            have hfg : f ≠ g := fun h => hf (by rw [h]; simp)
            rw [hother f (fun h => hf (List.mem_append_left _ h)) hfg, Cell.set_same] at ha
            exact hcopy.new a ha
          · intro x hx hxg
            obtain ⟨hxf, hxfront⟩ := not_or.mp fun hor => hx (List.mem_cons.mpr hor)
            rw [hother x hxfront hxg, Cell.set_other dest hxf]

/-! ## 8. The copies of all Instances -/

/-- A copy of an Instance, in blocks from an address on. -/
structure CellCopy (memory : Memory) (src : Cell) (memory' : Memory) (dest : Cell) : Prop where
  scalars : dest.scalars = src.scalars
  copies : ∀ f, IsCopy memory f (src.buffers f) memory' (dest.buffers f)

theorem CellCopy.contents {memory memory' : Memory} {src dest : Cell} (h : CellCopy memory src memory' dest) :
    dest.contents memory' = src.contents memory := by
  unfold Cell.contents
  exact Prod.ext h.scalars (funext fun f => (h.copies f).shown)

theorem CellCopy.kept {memory memory' memory'' : Memory} {src dest : Cell} (h : CellCopy memory src memory' dest)
    (hkept : memory'.Kept memory'') : CellCopy memory src memory'' dest :=
  ⟨h.scalars, fun f => (h.copies f).kept hkept⟩

theorem CellCopy.earlier {memory memory' memory'' : Memory} {src dest : Cell} (h : CellCopy memory' src memory'' dest)
    (hkept : memory.Kept memory') (hlive : src.Live memory) : CellCopy memory src memory'' dest :=
  ⟨h.scalars, fun f => (h.copies f).earlier hkept fun _ ha => hlive.lt ha⟩

/-- The Instances that are copied. -/
def copied (fates : List (Cell × Fate)) : List Cell := (fates.filter fun x => x.2 == .copied).map Prod.fst

/-- What `_anjay_sec_clone_instances` may come to. -/
inductive Cloned (bound : Nat) (memory : Memory) (retval : List Cell) (fates : List (Cell × Fate)) :
    Option (List Cell × Memory) → Prop
  | finished {copies : List Cell} {memory' : Memory} (hfates : ∀ x ∈ fates, x.2 = .copied ∨ x.2 = .skipped)
      (hkept : memory.Kept memory')
      (hcopies : List.Forall₂ (fun src dest => CellCopy memory src memory' dest) (copied fates) copies) :
      Cloned bound memory retval fates (some (retval ++ copies, memory'))
  | failed {before : List (Cell × Fate)} {src : Cell} {f : SecField} {memory' : Memory}
      (hfates : fates = before ++ [(src, .failed f)]) (hbefore : ∀ x ∈ before, x.2 = .copied ∨ x.2 = .skipped)
      (hblocks : ∀ a < bound, memory'.blocks a =
        if ∃ g ∈ f.after, (src.buffers g).data = some a then none else memory.blocks a) :
      Cloned bound memory retval fates (some ([], memory'))
  | noUri {x : Cell × Fate} (hmem : x ∈ fates) (hx : x.2 = .noUri) : Cloned bound memory retval fates none

theorem fieldsFate_ne_skipped (alloc : Nat → Bool) (src : Cell) : ∀ (fs : List SecField) (n : Nat),
    (fieldsFate alloc src fs n).1 ≠ .skipped
  | [], _ => fun h => (nomatch h)
  | f :: fs, n => by
      rw [fieldsFate]
      split
      · split
        · exact fieldsFate_ne_skipped alloc src fs (n + 1)
        · exact fun h => (nomatch h)
      · exact fieldsFate_ne_skipped alloc src fs n

theorem mem_fates {alloc : Nat → Bool} : ∀ {n : Nat} {cells : List Cell}, ∀ x ∈ fates alloc n cells, x.1 ∈ cells
  | _, [], _, hx => absurd hx List.not_mem_nil
  | n, src :: rest, x, hx => by
      rw [fates] at hx
      split at hx
      · split at hx
        · rw [List.mem_singleton.mp hx]
          exact List.mem_cons_self
        split at hx
        · rcases List.mem_cons.mp hx with rfl | hx
          · exact List.mem_cons_self
          · exact List.mem_cons_of_mem src (mem_fates x hx)
        · rw [List.mem_singleton.mp hx]
          exact List.mem_cons_self
      · rcases List.mem_cons.mp hx with rfl | hx
        · exact List.mem_cons_self
        · exact List.mem_cons_of_mem src (mem_fates x hx)

/-- One more Instance in front, which is copied or left out. -/
theorem Cloned.cons {bound : Nat} {memory memory' : Memory} {src : Cell} {fate : Fate} {retval new : List Cell}
    {fates : List (Cell × Fate)} {result : Option (List Cell × Memory)} (hbound : bound ≤ memory.next)
    (hkept : memory.Kept memory') (hlive : ∀ x ∈ fates, x.1.Live memory)
    (hfate : (fate = .skipped ∧ new = []) ∨ ∃ dest, fate = .copied ∧ new = [dest] ∧ CellCopy memory src memory' dest)
    (h : Cloned bound memory' (retval ++ new) fates result) :
    Cloned bound memory retval ((src, fate) :: fates) result := by
  have hok : fate = .copied ∨ fate = .skipped := by
    rcases hfate with ⟨h, -⟩ | ⟨_, h, -⟩
    · exact Or.inr h
    · exact Or.inl h
  cases h with
  | @finished copies memory'' hfates hkept' hcopies =>
      rw [List.append_assoc]
      refine Cloned.finished (List.forall_mem_cons.mpr ⟨hok, hfates⟩) (hkept.trans hkept') ?_
      have hcopies' : List.Forall₂ (fun src dest => CellCopy memory src memory'' dest) (copied fates) copies := by
        have himp : ∀ (cells dests : List Cell), (∀ c ∈ cells, c.Live memory) →
            List.Forall₂ (fun src dest => CellCopy memory' src memory'' dest) cells dests →
            List.Forall₂ (fun src dest => CellCopy memory src memory'' dest) cells dests := by
          intro cells dests hcells hall
          induction hall with
          | nil => exact List.Forall₂.nil
          | cons hcopy _ ih =>
              obtain ⟨hhead, htail⟩ := List.forall_mem_cons.mp hcells
              exact List.Forall₂.cons (hcopy.earlier hkept hhead) (ih htail)
        refine himp _ _ (fun c hc => ?_) hcopies
        obtain ⟨x, hx, rfl⟩ := List.mem_map.mp hc
        exact hlive x (List.mem_filter.mp hx).1
      rcases hfate with ⟨rfl, rfl⟩ | ⟨dest, rfl, rfl, hcopy⟩
      · exact hcopies'
      · exact List.Forall₂.cons (hcopy.kept hkept') hcopies'
  | @failed before src' f memory'' hfates hbefore hblocks =>
      refine Cloned.failed (show _ = ((src, fate) :: before) ++ _ by rw [hfates]; rfl)
        (List.forall_mem_cons.mpr ⟨hok, hbefore⟩) fun a ha => ?_
      rw [hblocks a ha, hkept.2 a (Nat.lt_of_lt_of_le ha hbound)]
  | noUri hmem hx => exact Cloned.noUri (List.mem_cons_of_mem _ hmem) hx

/-- **The copies of the Instances.** -/
theorem cloneInstances_spec (alloc : Nat → Bool) (bound : Nat) : ∀ (rest retval : List Cell) (memory : Memory),
    bound ≤ memory.next → (∀ c ∈ rest, c.Live memory) → (∀ d ∈ retval, d.Above bound) →
    Cloned bound memory retval (fates alloc memory.tries rest) (cloneInstances alloc rest retval memory)
  | [], retval, memory, _, _, _ => by
      have h : Cloned bound memory retval [] (some (retval ++ [], memory)) :=
        Cloned.finished (List.forall_mem_nil _) (Heap.Kept.refl memory) List.Forall₂.nil
      rwa [List.append_nil] at h
  | src :: rest, retval, memory, hbound, hlive, habove => by
      obtain ⟨hsrc, hrest⟩ := List.forall_mem_cons.mp hlive
      rw [cloneInstances, fates]
      by_cases halloc : alloc memory.tries = true
      swap
      · rw [if_neg halloc, if_neg halloc]
        have hrest' : ∀ c ∈ rest, c.Live memory.tried := fun c hc => ((hrest c hc).kept memory.kept_tried).1
        have h := cloneInstances_spec alloc bound rest retval memory.tried hbound hrest' habove
        refine Cloned.cons hbound memory.kept_tried (fun x hx => hrest _ (mem_fates x hx)) (Or.inl ⟨rfl, rfl⟩) ?_
        rw [List.append_nil]
        exact h
      rw [if_pos halloc, if_pos halloc, cloneInstance]
      by_cases huri : (src.buffers .serverUri).data.isNone = true
      · rw [if_pos huri, if_pos huri]
        exact Cloned.noUri List.mem_cons_self rfl
      rw [if_neg huri, if_neg huri]
      have hsrc' := (hsrc.kept memory.kept_tried).1
      rcases cloneFields_spec alloc SecField.all src memory.tried SecField.all_nodup hsrc' with
        ⟨dest, memory', hclone, hcopied, h⟩ | ⟨f, dest, memory', hclone, hfailed, h⟩
      · rw [hclone, show memory.tries + 1 = memory.tried.tries from rfl, hcopied]
        dsimp only
        have hkept : memory.Kept memory' := memory.kept_tried.trans h.kept
        have hcopy : CellCopy memory src memory' dest :=
          ⟨h.scalars, fun g => (h.copies g g.mem_all).earlier memory.kept_tried fun _ ha => hsrc.lt ha⟩
        have hnew : dest.Above bound := fun g a ha => Nat.le_trans hbound ((hcopy.copies g).new a ha)
        have hrest' : ∀ c ∈ rest, c.Live memory' := fun c hc => ((hrest c hc).kept hkept).1
        have habove' : ∀ d ∈ retval ++ [dest], d.Above bound := by
          intro d hd
          rcases List.mem_append.mp hd with hd | hd
          · exact habove d hd
          · rw [List.mem_singleton.mp hd]
            exact hnew
        exact Cloned.cons hbound hkept (fun x hx => hrest _ (mem_fates x hx)) (Or.inr ⟨dest, rfl, rfl, hcopy⟩)
          (cloneInstances_spec alloc bound rest (retval ++ [dest]) memory' (Nat.le_trans hbound hkept.1) hrest'
            habove')
      · rw [hclone, show memory.tries + 1 = memory.tried.tries from rfl, hfailed]
        dsimp only
        refine Cloned.failed (show _ = [] ++ _ from rfl) (List.forall_mem_nil _) fun a ha => ?_
        obtain ⟨front, back, hall, hfront, hother⟩ := h.place
        have hkept : memory'.blocks a = memory.blocks a := h.kept.2 a (Nat.lt_of_lt_of_le ha hbound)
        -- freed are the copies, which are new, and what the copy still shares with the source
        have hfreed : some a ∈ (retval ++ [dest]).flatMap Cell.pointers ↔
            ∃ g ∈ f.after, (src.buffers g).data = some a := by
          rw [List.mem_flatMap]
          constructor
          · rintro ⟨d, hd, hp⟩
            obtain ⟨g, hg⟩ := Cell.mem_pointers.mp hp
            rcases List.mem_append.mp hd with hd | hd
            · exact absurd ha (Nat.not_lt.mpr (habove d hd g a hg))
            · rw [List.mem_singleton.mp hd] at hg
              by_cases hgfront : g ∈ front
              · exact absurd ha (Nat.not_lt.mpr (Nat.le_trans hbound (hfront g hgfront a hg)))
              by_cases hgf : g = f
              · rw [hgf, h.empty] at hg
                cases hg
              · rw [hother g hgfront hgf] at hg
                exact ⟨g, (SecField.mem_after hall g).mpr ⟨hgfront, hgf⟩, hg⟩
          · rintro ⟨g, hg, hga⟩
            obtain ⟨hgfront, hgf⟩ := (SecField.mem_after hall g).mp hg
            refine ⟨dest, List.mem_append_right _ List.mem_cons_self, Cell.mem_pointers.mpr ⟨g, ?_⟩⟩
            rw [hother g hgfront hgf]
            exact hga
        unfold destroyInstances
        rw [Heap.freeAll_blocks, hkept]
        by_cases hex : ∃ g ∈ f.after, (src.buffers g).data = some a
        · rw [if_pos hex, if_pos (hfreed.mpr hex)]
        · rw [if_neg hex, if_neg fun h => hex (hfreed.mp h)]

/-! ## 9. The beginning of a transaction -/

theorem fates_fst {alloc : Nat → Bool} : ∀ {n : Nat} {cells : List Cell},
    (∀ x ∈ fates alloc n cells, x.2 = .copied ∨ x.2 = .skipped) → (fates alloc n cells).map Prod.fst = cells
  | _, [], _ => rfl
  | n, src :: rest, h => by
      rw [fates] at h ⊢
      split at h
      next halloc =>
        rw [if_pos halloc]
        split at h
        · exact absurd (h _ List.mem_cons_self) (by simp)
        next huri =>
        rw [if_neg huri]
        split at h
        next n' hfate =>
          exact congrArg (src :: ·) (fates_fst (List.forall_mem_cons.mp h).2)
        next fate n' hne heq =>
          rcases h _ List.mem_cons_self with hfate | hfate
          · exact absurd hfate hne
          · have hskipped := heq.trans (congrArg (fun fate => (fate, n')) hfate)
            exact absurd (congrArg Prod.fst hskipped) (fieldsFate_ne_skipped alloc src _ _)
      next halloc =>
        rw [if_neg halloc]
        exact congrArg (src :: ·) (fates_fst (List.forall_mem_cons.mp h).2)

theorem Idle.transactionBegin (s : Idle) (cloned : List Cell) :
    s.repr.transactionBegin cloned =
      if cloned.isEmpty = true ∧ s.repr.instances.isEmpty = false then some (errInternal, s.repr)
      else
        some (0, { s.repr with
          savedInstances := cloned
          savedModifiedSincePersist := s.repr.modifiedSincePersist
          inTransaction := true }) := by
  unfold ObjectRepr.transactionBegin
  rw [s.noSaved, s.noTransaction]
  rfl

/-- The copies restore what was copied. -/
theorem restorable_of_copies {memory memory' : Memory} {cells dests : List Cell}
    (h : List.Forall₂ (fun src dest => CellCopy memory src memory' dest) cells dests) :
    Restorable memory cells memory' dests := by
  intro later repr hin hsaved huntouched howned
  have hrollback : transactionRollback later repr = some (0, destroyInstances repr.instances later,
      { repr with
        instances := repr.savedInstances
        savedInstances := []
        modifiedSincePersist := repr.savedModifiedSincePersist
        inTransaction := false }) := by
    unfold transactionRollback ObjectRepr.transactionRollback
    rw [if_pos hin]
    rfl
  refine ⟨_, _, hrollback, rfl, ?_⟩
  have hblocks : ∀ d ∈ dests, d.contents (destroyInstances repr.instances later) = d.contents memory' := by
    intro d hd
    refine Cell.contents_congr fun f a ha => ?_
    unfold destroyInstances
    rw [Heap.freeAll_blocks, if_neg ?_]
    · exact huntouched d hd f a ha
    · intro hmem
      obtain ⟨c, hc, hp⟩ := List.mem_flatMap.mp hmem
      obtain ⟨g, hg⟩ := Cell.mem_pointers.mp hp
      exact howned c hc d hd g f a hg ha
  show SameContents memory cells _ repr.savedInstances
  rw [hsaved]
  refine (forall₂_imp_mem h.flip fun d hd c hcopy => ?_).flip
  show d.contents _ = c.contents memory
  rw [hblocks d hd]
  exact CellCopy.contents hcopy

/-- With copies of all or of none of the Instances, and none half done. -/
theorem meets_finished {alloc : Nat → Bool} (s : Idle) {copies : List Cell} {memory' : Memory}
    (hfates : ∀ x ∈ fates alloc s.memory.tries s.repr.instances, x.2 = .copied ∨ x.2 = .skipped)
    (hkept : s.memory.Kept memory')
    (hcopies : List.Forall₂ (fun src dest => CellCopy s.memory src memory' dest)
      (copied (fates alloc s.memory.tries s.repr.instances)) copies) :
    (∃ ret memory repr,
      (s.repr.transactionBegin copies).map (fun r => (r.1, memory', r.2)) = some (ret, memory, repr) ∧
      BeginMeets s ret memory repr) ↔ BeginSafe alloc s.memory.tries s.repr.instances := by
  have hfst := fates_fst hfates
  have hlength : copies.length = (copied (fates alloc s.memory.tries s.repr.instances)).length :=
    hcopies.length_eq.symm
  have hnoFailure : ∀ x ∈ fates alloc s.memory.tries s.repr.instances, x.2 ≠ .noUri ∧ ∀ f, x.2 ≠ .failed f := by
    intro x hx
    rcases hfates x hx with h | h
    · rw [h]
      exact ⟨nofun, nofun⟩
    · rw [h]
      exact ⟨nofun, nofun⟩
  rw [s.transactionBegin]
  generalize hfs : fates alloc s.memory.tries s.repr.instances = fs at *
  have hcells : fs.length = s.repr.instances.length := by rw [← hfst, List.length_map]
  have hcopiedLength : (copied fs).length = (fs.filter fun x => x.2 == .copied).length := List.length_map ..
  constructor
  · rintro ⟨ret, memory, repr, hbegin, hmeets⟩
    refine ⟨hfs ▸ fun x hx => (hnoFailure x hx).1, hfs ▸ fun x hx f hf => absurd hf ((hnoFailure x hx).2 f), ?_⟩
    rw [hfs]
    by_cases hempty : copies.isEmpty = true ∧ s.repr.instances.isEmpty = false
    · -- none has been copied
      refine Or.inr (Or.inr fun x hx => (hfates x hx).resolve_left fun hcopied => ?_)
      have hmem : x ∈ fs.filter fun x => x.2 == .copied := List.mem_filter.mpr ⟨hx, by rw [hcopied]; rfl⟩
      have hpos := List.length_pos_of_mem hmem
      rw [List.isEmpty_iff.mp hempty.1, List.length_nil] at hlength
      omega
    · rw [if_neg hempty] at hbegin
      obtain ⟨rfl, rfl, rfl⟩ : ret = 0 ∧ memory = memory' ∧ repr = _ := by
        obtain ⟨hret, heq⟩ := Prod.mk.inj (Option.some.inj hbegin)
        exact ⟨hret.symm, (Prod.mk.inj heq).1.symm, (Prod.mk.inj heq).2.symm⟩
      rcases hmeets.outcome with ⟨-, -, hsame, -⟩ | ⟨hret, -⟩
      · have hall : (fs.filter fun x => x.2 == .copied).length = fs.length := by
          have := hsame.length_eq
          dsimp only at this
          omega
        refine Or.inr (Or.inl fun x hx => ?_)
        exact eq_of_beq (List.length_filter_eq_length_iff.mp hall x hx)
      · exact absurd rfl hret
  · rintro ⟨-, -, helements⟩
    rw [hfs] at helements
    have huntouched : ∀ c ∈ s.repr.instances, c.Live memory' ∧ c.contents memory' = c.contents s.memory :=
      fun c hc => (s.live c hc).kept hkept
    have hall : (∀ x ∈ fs, x.2 = .copied) → copied fs = s.repr.instances := by
      intro h
      have hfilter : fs.filter (fun x => x.2 == .copied) = fs := by
        refine List.filter_eq_self.mpr fun x hx => ?_
        rw [h x hx]
        rfl
      rw [← hfst]
      exact congrArg (List.map Prod.fst) hfilter
    by_cases hempty : copies.isEmpty = true ∧ s.repr.instances.isEmpty = false
    · rw [if_pos hempty]
      exact ⟨errInternal, memory', s.repr, rfl, rfl, fun c hc => (huntouched c hc).1, fun c hc => (huntouched c hc).2,
        Or.inr ⟨by decide, s.noSaved, s.noTransaction⟩⟩
    · rw [if_neg hempty]
      have hcopied : copied fs = s.repr.instances := by
        rcases helements with ⟨x, hx, f, hf⟩ | h | h
        · exact absurd hf ((hnoFailure x hx).2 f)
        · exact hall h
        · -- nothing has been copied, so there was nothing to copy
          have hnone : fs.filter (fun x => x.2 == .copied) = [] := by
            refine List.filter_eq_nil_iff.mpr fun x hx hx' => ?_
            rw [h x hx] at hx'
            cases hx'
          have hcopiesNil : copies = [] := by
            rw [hnone] at hcopiedLength
            exact List.eq_nil_of_length_eq_zero (hlength.trans hcopiedLength)
          have hnil : s.repr.instances = [] := by
            rw [hcopiesNil] at hempty
            by_contra hne
            exact hempty ⟨rfl, List.isEmpty_eq_false_iff.mpr hne⟩
          unfold copied
          rw [hnone, hnil]
          rfl
      rw [hcopied] at hcopies
      refine ⟨0, memory', _, rfl, rfl, fun c hc => (huntouched c hc).1, fun c hc => (huntouched c hc).2,
        Or.inl ⟨rfl, rfl, ?_, restorable_of_copies hcopies⟩⟩
      exact hcopies.imp fun c d hcopy => CellCopy.contents hcopy

/-- With a copy that was given up. -/
theorem meets_failed {alloc : Nat → Bool} (s : Idle) {before : List (Cell × Fate)} {src : Cell} {f : SecField}
    {memory' : Memory} (hfates : fates alloc s.memory.tries s.repr.instances = before ++ [(src, .failed f)])
    (hbefore : ∀ x ∈ before, x.2 = .copied ∨ x.2 = .skipped)
    (hblocks : ∀ a < s.memory.next, memory'.blocks a =
      if ∃ g ∈ f.after, (src.buffers g).data = some a then none else s.memory.blocks a) :
    (∃ ret memory repr,
      (s.repr.transactionBegin []).map (fun r => (r.1, memory', r.2)) = some (ret, memory, repr) ∧
      BeginMeets s ret memory repr) ↔ BeginSafe alloc s.memory.tries s.repr.instances := by
  have hlast : (src, Fate.failed f) ∈ fates alloc s.memory.tries s.repr.instances := by
    rw [hfates]
    exact List.mem_append_right _ List.mem_cons_self
  have hsrc : src ∈ s.repr.instances := mem_fates _ hlast
  have hbegin : s.repr.transactionBegin [] = some (errInternal, s.repr) := by
    rw [s.transactionBegin]
    exact if_pos ⟨rfl, List.isEmpty_eq_false_iff.mpr (List.ne_nil_of_mem hsrc)⟩
  rw [hbegin]
  constructor
  · rintro ⟨ret, memory, repr, heq, hmeets⟩
    obtain rfl : memory' = memory := (Prod.mk.inj (Prod.mk.inj (Option.some.inj heq)).2).1
    refine ⟨fun x hx hnoUri => ?_, fun x hx g hg h hh => ?_, Or.inl ⟨_, hlast, f, rfl⟩⟩
    · rw [hfates] at hx
      rcases List.mem_append.mp hx with hx | hx
      · rcases hbefore x hx with h | h <;> rw [h] at hnoUri <;> cases hnoUri
      · rw [List.mem_singleton.mp hx] at hnoUri
        cases hnoUri
    · rw [hfates] at hx
      rcases List.mem_append.mp hx with hx | hx
      · rcases hbefore x hx with h | h <;> rw [h] at hg <;> cases hg
      · rw [List.mem_singleton.mp hx] at hg ⊢
        obtain rfl : f = g := Fate.failed.inj hg
        -- otherwise the live Instance has lost its block
        by_contra hne
        obtain ⟨a, ha⟩ := Option.ne_none_iff_exists'.mp hne
        have hlive := hmeets.live src hsrc h a ha
        rw [hblocks a ((s.live src hsrc).lt ha), if_pos ⟨h, hh, ha⟩] at hlive
        cases hlive
  · intro hsafe
    have hnone := hsafe.later _ hlast f rfl
    have hsame : ∀ c ∈ s.repr.instances, ∀ g a, (c.buffers g).data = some a →
        memory'.blocks a = s.memory.blocks a := by
      intro c hc g a ha
      rw [hblocks a ((s.live c hc).lt ha), if_neg]
      rintro ⟨h, hh, ha'⟩
      rw [hnone h hh] at ha'
      cases ha'
    refine ⟨errInternal, memory', s.repr, rfl, rfl, fun c hc g a ha => ?_,
      fun c hc => Cell.contents_congr (hsame c hc), Or.inr ⟨by decide, s.noSaved, s.noTransaction⟩⟩
    rw [hsame c hc g a ha]
    exact s.live c hc g a ha

/-- **A snapshot is taken, or all is left as it was, exactly in the safe cases.** -/
theorem transactionBegin_meets_iff (alloc : Nat → Bool) (s : Idle) :
    (∃ ret memory repr, transactionBegin alloc s.memory s.repr = some (ret, memory, repr) ∧
      BeginMeets s ret memory repr) ↔ BeginSafe alloc s.memory.tries s.repr.instances := by
  have hspec := cloneInstances_spec alloc s.memory.next s.repr.instances [] s.memory (Nat.le_refl _) s.live
    (List.forall_mem_nil _)
  unfold transactionBegin
  generalize cloneInstances alloc s.repr.instances [] s.memory = result at hspec
  cases hspec with
  | finished hfates hkept hcopies => exact meets_finished s hfates hkept hcopies
  | failed hfates hbefore hblocks => exact meets_failed s hfates hbefore hblocks
  | noUri hmem hx =>
      constructor
      · rintro ⟨ret, memory, repr, h, -⟩
        cases h
      · intro hsafe
        exact absurd hx (hsafe.uri _ hmem)

/-! ## 10. A copy that fails half way -/

theorem unused_two : ∀ a, 2 ≤ a → (fun a => if a = 0 then some [0x63] else if a = 1 then some [1, 2] else none) a =
    (none : Option (List UInt8)) := by
  intro a ha
  dsimp only
  rw [if_neg (by omega), if_neg (by omega)]

/-- An Instance with a Server URI and a key. -/
def cellWithKey : Cell where
  scalars := ⟨0, false, 0, 1, 0, 0, 0, true, true, true, false, false, false⟩
  buffers f := if f = .serverUri then ⟨some 0, 1⟩ else if f = .privateCertOrPskKey then ⟨some 1, 2⟩ else .empty

theorem cellWithKey_live : ∀ c ∈ [cellWithKey], c.Live ⟨_, 2, 0, unused_two⟩ := by
  refine List.forall_mem_singleton.mpr fun f a ha => ?_
  cases f <;> first | (obtain rfl := Option.some.inj ha; rfl) | cases ha

def idleWithKey : Idle where
  memory := ⟨_, 2, 0, unused_two⟩
  repr := ⟨[cellWithKey], [], false, false, false⟩
  noSaved := rfl
  noTransaction := rfl
  live := cellWithKey_live

/-- If the Server URI cannot be copied, the key of the Instance itself is freed. -/
theorem transactionBegin_not_meets :
    ¬∀ (alloc : Nat → Bool) (s : Idle), ∃ ret memory repr,
      transactionBegin alloc s.memory s.repr = some (ret, memory, repr) ∧ BeginMeets s ret memory repr := by
  intro h
  obtain ⟨ret, memory, repr, hbegin, hmeets⟩ := h (fun n => n == 0) idleWithKey
  have hfreed : (transactionBegin (fun n => n == 0) idleWithKey.memory idleWithKey.repr).map
      (fun r => r.2.1.blocks 1) = some none := rfl
  rw [hbegin] at hfreed
  have hnone : memory.blocks 1 = none := Option.some.inj hfreed
  have hlive := hmeets.live cellWithKey List.mem_cons_self .privateCertOrPskKey 1 rfl
  rw [hnone] at hlive
  cases hlive

end Anjay.Sec.Clone
