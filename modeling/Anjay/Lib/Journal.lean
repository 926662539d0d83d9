/-
  File:      Anjay/Lib/Journal.lean
  Subject:   A value in memory that is saved now and then, with a mark for what has not been saved, and
             transactions that can be taken back together with the mark.

  * `Journal.Kept.step`, `Journal.Kept.steps`: what is not marked as modified is what was saved last.

  A value that is changed without the mark has to be one that cannot be committed; what is saved in an open
  transaction has to be what the transaction began with, and nothing may have been changed since.
-/
import Mathlib.Logic.Relation

namespace Anjay.Lib

variable {α : Type}

/-- A value, and whether it has been modified since it was saved. -/
structure Marked (α : Type) where
  value : α
  modified : Bool

/-- The value in memory, that from before the open transaction, if there is one, and what was saved last. -/
structure Journal (α : Type) where
  current : Marked α
  snapshot : Option (Marked α)
  stored : α

namespace Journal

variable {valid : α → Prop}

/-- The steps; `valid` says which values can be committed. -/
inductive Step (valid : α → Prop) (j : Journal α) : Journal α → Prop
  | change (value : α) : Step valid j { j with current := ⟨value, true⟩ }
  | spoil (value : α) (hopen : j.snapshot ≠ none) (h : ¬ valid value) :
      Step valid j { j with current := ⟨value, j.current.modified⟩ }
  | begin (hclosed : j.snapshot = none) : Step valid j { j with snapshot := some j.current }
  | commit (h : valid j.current.value) : Step valid j { j with snapshot := none }
  | rollback {m : Marked α} (h : j.snapshot = some m) : Step valid j { j with current := m, snapshot := none }
  | discard {m : Marked α} (value : α) (h : j.snapshot = some m) (hm : m.modified = true) :
      Step valid j { j with snapshot := some ⟨value, true⟩ }
  | save (hclosed : j.snapshot = none) :
      Step valid j { j with current := ⟨j.current.value, false⟩, stored := j.current.value }
  | saveOpen {m : Marked α} (h : j.snapshot = some m) (hsame : j.current.value = m.value) :
      Step valid j { j with current := ⟨j.current.value, false⟩, stored := m.value }
  | load (value : α) (hclosed : j.snapshot = none) :
      Step valid j { j with current := ⟨value, false⟩, stored := value }

/-- What is not marked is what was saved, in the snapshot too; in an open transaction it may instead be what
    cannot be committed. -/
structure Kept (valid : α → Prop) (j : Journal α) : Prop where
  snapshot : ∀ m, j.snapshot = some m → m.modified = false → m.value = j.stored
  current : j.current.modified = false → j.current.value = j.stored ∨ j.snapshot ≠ none ∧ ¬ valid j.current.value

theorem Kept.closed {j : Journal α} (h : j.Kept valid) (hclosed : j.snapshot = none) (hclean : j.current.modified = false) :
    j.current.value = j.stored :=
  (h.current hclean).resolve_right fun hopen => hopen.1 hclosed

/-- **Every step keeps what is not marked the same as what was saved.** -/
theorem Kept.step {j j' : Journal α} (h : j.Kept valid) (hs : Step valid j j') : j'.Kept valid := by
  cases hs with
  | change value => exact ⟨h.snapshot, nofun⟩
  | spoil value hopen hinvalid => exact ⟨h.snapshot, fun _ => Or.inr ⟨hopen, hinvalid⟩⟩
  | begin hclosed =>
      refine ⟨fun m hm hclean => ?_, fun hclean => Or.inl (h.closed hclosed hclean)⟩
      cases hm
      exact h.closed hclosed hclean
  | commit hvalid =>
      refine ⟨nofun, fun hclean => Or.inl ((h.current hclean).resolve_right fun hopen => hopen.2 hvalid)⟩
  | rollback hm => exact ⟨nofun, fun hclean => Or.inl (h.snapshot _ hm hclean)⟩
  | discard value hm hmod =>
      refine ⟨fun m' hm' hclean => ?_, fun hclean => (h.current hclean).imp_right fun hopen => ⟨nofun, hopen.2⟩⟩
      cases hm'
      cases hclean
  | save hclosed =>
      refine ⟨fun m hm => ?_, fun _ => Or.inl rfl⟩
      exact nomatch hclosed.symm.trans hm
  | saveOpen hm hsame =>
      refine ⟨fun m' hm' _ => ?_, fun _ => Or.inl hsame⟩
      cases hm.symm.trans hm'
      rfl
  | load value hclosed =>
      refine ⟨fun m hm => ?_, fun _ => Or.inl rfl⟩
      exact nomatch hclosed.symm.trans hm

/-- Several steps. -/
abbrev Steps (valid : α → Prop) : Journal α → Journal α → Prop := Relation.ReflTransGen (Step valid)

theorem Kept.steps {j j' : Journal α} (h : j.Kept valid) (hs : Steps valid j j') : j'.Kept valid := by
  induction hs with
  | refl => exact h
  | tail _ hstep ih => exact ih.step hstep

theorem Step.steps {j j' : Journal α} (h : Step valid j j') : Steps valid j j' := Relation.ReflTransGen.single h

end Journal

end Anjay.Lib
