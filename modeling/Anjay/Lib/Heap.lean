/-
  File:      Anjay/Lib/Heap.lean
  Subject:   Blocks of memory that are allocated and freed, where each allocation may fail.

  * `Heap.allocate_spec`: what an allocation gives, and that the other blocks stay.
  * `Heap.freeAll_blocks`: what is left when some blocks have been freed.
-/
import Mathlib.Logic.Function.Basic

namespace Anjay.Lib

/-- The blocks that are in use, by their addresses, with all addresses from `next` on unused yet, and the number of
    allocations that were tried. -/
structure Heap (β : Type) where
  blocks : Nat → Option β
  next : Nat
  tries : Nat
  unused : ∀ a, next ≤ a → blocks a = none

namespace Heap

variable {β : Type}

theorem unused_allocate (heap : Heap β) (b : β) : ∀ a, heap.next + 1 ≤ a →
    Function.update heap.blocks heap.next (some b) a = none := by
  intro a ha
  rw [Function.update_of_ne (by omega)]
  exact heap.unused a (by omega)

theorem unused_free (heap : Heap β) (a : Nat) : ∀ c, heap.next ≤ c → Function.update heap.blocks a none c = none := by
  intro c hc
  by_cases h : c = a
  · rw [h, Function.update_self]
  · rw [Function.update_of_ne h]
    exact heap.unused c hc

/-- An allocation that is tried. -/
def tried (heap : Heap β) : Heap β := { heap with tries := heap.tries + 1 }

/-- An allocation of a block with the given content; `alloc` says which tries succeed. -/
def allocate (alloc : Nat → Bool) (b : β) (heap : Heap β) : Option Nat × Heap β :=
  if alloc heap.tries then
    (some heap.next,
      ⟨Function.update heap.blocks heap.next (some b), heap.next + 1, heap.tries + 1, heap.unused_allocate b⟩)
  else (none, heap.tried)

/-- The end of a block; a null pointer is let pass. -/
def free (heap : Heap β) : Option Nat → Heap β
  | none => heap
  | some a => ⟨Function.update heap.blocks a none, heap.next, heap.tries, heap.unused_free a⟩

def freeAll (heap : Heap β) (pointers : List (Option Nat)) : Heap β := pointers.foldl Heap.free heap

/-- The blocks of the first heap are in the second one as they were. -/
def Kept (heap heap' : Heap β) : Prop := heap.next ≤ heap'.next ∧ ∀ a < heap.next, heap'.blocks a = heap.blocks a

theorem Kept.refl (heap : Heap β) : heap.Kept heap := ⟨Nat.le_refl _, fun _ _ => rfl⟩

theorem Kept.trans {heap heap' heap'' : Heap β} (h : heap.Kept heap') (h' : heap'.Kept heap'') : heap.Kept heap'' :=
  ⟨Nat.le_trans h.1 h'.1, fun a ha => (h'.2 a (Nat.lt_of_lt_of_le ha h.1)).trans (h.2 a ha)⟩

theorem kept_tried (heap : Heap β) : heap.Kept heap.tried := ⟨Nat.le_refl _, fun _ _ => rfl⟩

/-- **An allocation gives a new block, or it fails; the others stay.** -/
theorem allocate_spec (alloc : Nat → Bool) (b : β) (heap : Heap β) :
    (alloc heap.tries = true ∧ ∃ heap', heap.allocate alloc b = (some heap.next, heap') ∧ heap.Kept heap' ∧
      heap'.blocks heap.next = some b ∧ heap'.next = heap.next + 1 ∧ heap'.tries = heap.tries + 1) ∨
    (alloc heap.tries = false ∧ heap.allocate alloc b = (none, heap.tried)) := by
  unfold allocate
  cases halloc : alloc heap.tries with
  | true =>
      refine Or.inl ⟨rfl, _, if_pos rfl, ⟨Nat.le_succ _, fun a ha => ?_⟩, Function.update_self .., rfl, rfl⟩
      exact Function.update_of_ne (Nat.ne_of_lt ha) ..
  | false => exact Or.inr ⟨rfl, if_neg Bool.false_ne_true⟩

theorem free_blocks (heap : Heap β) (p : Option Nat) (a : Nat) :
    (heap.free p).blocks a = if p = some a then none else heap.blocks a := by
  cases p with
  | none => exact (if_neg (by simp)).symm
  | some c =>
      show Function.update heap.blocks c none a = _
      by_cases h : a = c
      · rw [h, Function.update_self, if_pos rfl]
      · rw [Function.update_of_ne h, if_neg fun heq => h (Option.some.inj heq).symm]

/-- **Freed are exactly the blocks of the pointers.** -/
theorem freeAll_blocks (heap : Heap β) (pointers : List (Option Nat)) (a : Nat) :
    (heap.freeAll pointers).blocks a = if some a ∈ pointers then none else heap.blocks a := by
  unfold freeAll
  induction pointers generalizing heap with
  | nil => exact (if_neg List.not_mem_nil).symm
  | cons p pointers ih =>
      rw [List.foldl_cons, ih, free_blocks]
      by_cases hmem : some a ∈ pointers
      · rw [if_pos hmem, if_pos (List.mem_cons_of_mem p hmem)]
      · rw [if_neg hmem]
        by_cases hp : p = some a
        · rw [if_pos hp, if_pos (hp ▸ List.mem_cons_self)]
        · rw [if_neg hp, if_neg fun h => (List.mem_cons.mp h).elim (fun h => hp h.symm) hmem]

end Heap

end Anjay.Lib
