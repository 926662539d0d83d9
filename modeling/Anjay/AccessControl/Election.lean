/-
  File:      Anjay/AccessControl/Election.lean
  Subject:   The election of a new owner of an Access Control Instance (`anjay_access_utils.c`).

  * `readAcl_ascending`: the entries that `read_acl` hands out have strictly ascending SSIDs.
  * `electInstanceOwner_last`: the last entry of the highest weight is elected.
  * `electInstanceOwner_first_iff`: when that is the first entry of the highest rank.
-/
import Anjay.AccessControl.Access
import Anjay.Lib.Maximum
import Mathlib.Data.List.Pairwise
import Mathlib.Data.Nat.Bitwise

namespace Anjay.Ac

open Dm Lib

variable {σ : Type}

/-! ## 1. The entries -/

namespace AccessModel

/-- `read_acl_clb`, with `read_mask`. -/
def readAclClb (dm : AccessModel σ) (iid riid : Id) (acl : List AclEntry) : Int × List AclEntry :=
  let read := dm.readInstance oidAccessControl iid ridAcl riid
  if read.1 ≠ 0 then (read.1, acl)
  else (0, acl ++ [⟨Fin.ofNat 65536 (read.2 % 65536).toNat, riid⟩])

/-- `read_acl`. -/
def readAcl (dm : AccessModel σ) (ac : ObjectDef σ) (iid : Id) : Int × List AclEntry :=
  match dm.foreachAcl ac iid (dm.readAclClb iid) [] with
  | (result, acl) => if result ≠ 0 then (result, []) else (0, acl)

end AccessModel

/-- A list of entries in the order that `read_acl` makes. -/
structure Acl where
  entries : List AclEntry
  ascending : entries.Pairwise fun a b => a.ssid < b.ssid

/-- The loop of `process_orphaned_instances_clb` that deletes the entries of SSIDs that are not valid. -/
def Acl.removeInvalid (acl : Acl) (validSsids : List Id) : Acl where
  entries := acl.entries.filter fun e => e.ssid == ssidBootstrap || e.ssid == 0 || validSsids.contains e.ssid
  ascending := acl.ascending.filter _

/-! ## 2. The election -/

/-- `write_weight` and `delete_weight`. -/
def writeWeight : Nat := 1

def deleteWeight : Nat := 1

/-- `sum`: the bits of Write and Delete in the mask, weighted. -/
def AclEntry.sum (e : AclEntry) : Nat :=
  (e.mask.val &&& 1 <<< Right.write.bit) * writeWeight + (e.mask.val &&& 1 <<< Right.delete.bit) * deleteWeight

/-- `elect_instance_owner`. -/
def electInstanceOwner (acl : List AclEntry) : Id :=
  (acl.foldl (fun best entry => if best.2 ≤ entry.sum then (entry.ssid, entry.sum) else best)
    (ssidBootstrap, 0)).1

/-- The rank of an entry: 2 with both Write and Delete, 1 with one of these. -/
def AclEntry.rank (e : AclEntry) : Nat :=
  if e.mask.has .write && e.mask.has .delete then 2 else if e.mask.has .write || e.mask.has .delete then 1 else 0

/-- Write without Delete. -/
def AclEntry.writeAlone (e : AclEntry) : Bool := e.mask.has .write && !e.mask.has .delete

/-- Delete without Write. -/
def AclEntry.deleteAlone (e : AclEntry) : Bool := e.mask.has .delete && !e.mask.has .write

/-! ## 3. Reading the entries -/

namespace AccessModel

variable {dm : AccessModel σ} {ac : ObjectDef σ} {iid : Id}

theorem readAclClb_cases (dm : AccessModel σ) (iid riid : Id) (acl : List AclEntry) :
    (∃ mask, dm.readAclClb iid riid acl = (0, acl ++ [⟨mask, riid⟩])) ∨
      (∃ result, result ≠ 0 ∧ dm.readAclClb iid riid acl = (result, acl)) := by
  unfold readAclClb
  by_cases h : (dm.readInstance oidAccessControl iid ridAcl riid).1 ≠ 0
  · exact Or.inr ⟨_, h, if_pos h⟩
  · exact Or.inl ⟨_, if_neg h⟩

/-- `foreach_resource_instance_emit` lets ascending ids through only. -/
theorem emitLoop_readAcl : ∀ (ids : List Id) (last result : Int) (acl : List AclEntry),
    (acl.Pairwise fun a b => a.ssid < b.ssid) → (∀ e ∈ acl, (e.ssid.val : Int) ≤ last) →
    (emitLoop id (dm.readAclClb iid) ids last result acl).2.Pairwise fun a b => a.ssid < b.ssid
  | [], _, _, _, hasc, _ => hasc
  | riid :: ids, last, result, acl, hasc, hlast => by
      rw [emitLoop]
      split
      · exact emitLoop_readAcl ids last result acl hasc hlast
      split
      · exact emitLoop_readAcl ids last _ acl hasc hlast
      split
      · exact emitLoop_readAcl ids last _ acl hasc hlast
      next hgt =>
        have hbelow : ∀ e ∈ acl, e.ssid < riid := by
          intro e he
          have hle := hlast e he
          have hlt : last < (riid.val : Int) := not_le.mp hgt
          exact Fin.lt_def.mpr (by omega)
        rcases readAclClb_cases dm iid riid acl with ⟨mask, heq⟩ | ⟨code, -, heq⟩
        · rw [heq]
          refine emitLoop_readAcl ids _ _ _ ?_ fun e he => ?_
          · refine List.pairwise_append.mpr ⟨hasc, List.pairwise_singleton _ _, fun a ha b hb => ?_⟩
            rw [List.mem_singleton.mp hb]
            exact hbelow a ha
          · rcases List.mem_append.mp he with he | he
            · exact Int.ofNat_le.mpr (Fin.lt_def.mp (hbelow e he)).le
            · rw [List.mem_singleton.mp he]
              exact le_refl _
        · rw [heq]
          exact emitLoop_readAcl ids _ _ _ hasc fun e he => Int.ofNat_le.mpr (Fin.lt_def.mp (hbelow e he)).le

theorem foreachAcl_ascending :
    (dm.foreachAcl ac iid (dm.readAclClb iid) []).2.Pairwise fun a b => a.ssid < b.ssid := by
  have hwalk := @emitLoop_readAcl σ dm iid (ac.listResourceInstances dm.state iid ridAcl).1 (-1) 0 []
    List.Pairwise.nil (List.forall_mem_nil _)
  unfold foreachAcl
  split
  · exact List.Pairwise.nil
  split
  · split
    · exact List.Pairwise.nil
    · unfold ObjectDef.foreachResourceInstance foreach
      dsimp only
      split <;> exact hwalk
  · exact List.Pairwise.nil

/-- **The entries that `read_acl` hands out have strictly ascending SSIDs.** -/
theorem readAcl_ascending : (dm.readAcl ac iid).2.Pairwise fun a b => a.ssid < b.ssid := by
  have hwalk := @foreachAcl_ascending σ dm ac iid
  unfold readAcl
  dsimp only
  split
  · exact List.Pairwise.nil
  · exact hwalk

/-- What `read_acl` hands out, as a list that is in order. -/
def readEntries (dm : AccessModel σ) (ac : ObjectDef σ) (iid : Id) : Acl := ⟨(dm.readAcl ac iid).2, readAcl_ascending⟩

end AccessModel

/-! ## 4. Sums and ranks -/

/-- The bit of Write weighs 2, that of Delete 8. -/
theorem AclEntry.sum_eq (e : AclEntry) :
    e.sum = (if e.mask.has .write then 2 else 0) + (if e.mask.has .delete then 8 else 0) := by
  have hbit : ∀ n i : Nat, n &&& 1 <<< i = if n.testBit i then 2 ^ i else 0 := by
    intro n i
    rw [Nat.one_shiftLeft, Nat.and_two_pow]
    cases n.testBit i <;> simp
  unfold AclEntry.sum Mask.has
  rw [hbit, hbit, writeWeight, deleteWeight, Nat.mul_one, Nat.mul_one]
  rfl

/-- What a higher rank means for the sums. -/
theorem AclEntry.sum_lt_of_rank_lt {a b : AclEntry} (h : a.rank < b.rank) : a.sum < b.sum := by
  rw [sum_eq, sum_eq]
  unfold rank at h
  cases hwa : a.mask.has .write <;> cases hda : a.mask.has .delete <;> cases hwb : b.mask.has .write <;>
    cases hdb : b.mask.has .delete <;> simp_all

/-- Among entries of one rank only Write alone weighs less than Delete alone. -/
theorem AclEntry.sum_lt_iff_of_rank_eq {a b : AclEntry} (h : a.rank = b.rank) :
    a.sum < b.sum ↔ a.writeAlone = true ∧ b.deleteAlone = true := by
  rw [sum_eq, sum_eq]
  unfold rank at h
  unfold writeAlone deleteAlone
  cases hwa : a.mask.has .write <;> cases hda : a.mask.has .delete <;> cases hwb : b.mask.has .write <;>
    cases hdb : b.mask.has .delete <;> simp_all

/-! ## 5. Who is elected -/

/-- **The last entry of the highest sum is elected.** -/
theorem electInstanceOwner_last {acl : List AclEntry} (hne : acl ≠ []) :
    ∃ e, LastMax AclEntry.sum acl e ∧ electInstanceOwner acl = e.ssid := by
  obtain ⟨e, he, hfold⟩ := runningMax_last AclEntry.sum AclEntry.ssid ssidBootstrap hne
  refine ⟨e, he, ?_⟩
  unfold electInstanceOwner
  rw [hfold]

theorem Acl.ssid_injective (acl : Acl) {a b : AclEntry} (ha : a ∈ acl.entries) (hb : b ∈ acl.entries)
    (h : a.ssid = b.ssid) : a = b := by
  by_contra hne
  have hsym : Std.Symm fun a b : AclEntry => a.ssid ≠ b.ssid := ⟨fun _ _ h => h.symm⟩
  have hpair : acl.entries.Pairwise fun a b => a.ssid ≠ b.ssid := acl.ascending.imp fun hlt => Fin.ne_of_lt hlt
  exact hpair.forall ha hb hne h

/-- **When the first entry of the highest rank is elected**: it is the only one of that rank, or it has Delete
    alone and the others of that rank have Write alone. -/
theorem electInstanceOwner_first_iff (acl : Acl) (hne : acl.entries ≠ []) :
    ∃ e, FirstMax AclEntry.rank acl.entries e ∧
      (electInstanceOwner acl.entries = e.ssid ↔
        (∀ f ∈ acl.entries, f.rank = e.rank → f = e) ∨
          e.deleteAlone = true ∧ ∀ f ∈ acl.entries, f.rank = e.rank → f = e ∨ f.writeAlone = true) := by
  obtain ⟨e, he⟩ := FirstMax.exists AclEntry.rank hne
  obtain ⟨last, hlast, helected⟩ := electInstanceOwner_last hne
  refine ⟨e, he, ?_⟩
  rw [helected]
  constructor
  · intro hssid
    obtain rfl := acl.ssid_injective hlast.mem he.mem hssid
    -- all others of that rank come later, so they weigh less
    have hless : ∀ f ∈ acl.entries, f.rank = last.rank → f ≠ last → f.sum < last.sum := by
      intro f hf hrank hother
      obtain ⟨front, back, hxs, hfront, hback⟩ := he
      obtain ⟨front', back', hxs', -, hback'⟩ := hlast
      have hafter : last.ssid < f.ssid := by
        rw [hxs] at hf
        rcases List.mem_append.mp hf with hf | hf
        · exact absurd hrank (hfront f hf).ne
        · have hasc := acl.ascending
          rw [hxs] at hasc
          exact (List.pairwise_cons.mp (List.pairwise_append.mp hasc).2.1).1 f
            ((List.mem_cons.mp hf).resolve_left hother)
      rw [hxs'] at hf
      rcases List.mem_append.mp hf with hf | hf
      · have hasc := acl.ascending
        rw [hxs'] at hasc
        have hbefore := (List.pairwise_append.mp hasc).2.2 f hf last List.mem_cons_self
        exact absurd hbefore hafter.asymm
      · exact hback' f ((List.mem_cons.mp hf).resolve_left hother)
    by_cases hall : ∀ f ∈ acl.entries, f.rank = last.rank → f = last
    · exact Or.inl hall
    · push Not at hall
      obtain ⟨f, hf, hrank, hother⟩ := hall
      have hdelete := ((AclEntry.sum_lt_iff_of_rank_eq hrank).mp (hless f hf hrank hother)).2
      refine Or.inr ⟨hdelete, fun g hg hgrank => ?_⟩
      by_cases hglast : g = last
      · exact Or.inl hglast
      · exact Or.inr ((AclEntry.sum_lt_iff_of_rank_eq hgrank).mp (hless g hg hgrank hglast)).1
  · intro hcond
    by_contra hssid
    have hother : last ≠ e := fun h => hssid (congrArg AclEntry.ssid h)
    have hless : last.sum < e.sum := by
      rcases (he.le hlast.mem).lt_or_eq with hlt | hrank
      · exact AclEntry.sum_lt_of_rank_lt hlt
      · rcases hcond with honly | ⟨hdelete, hwrite⟩
        · exact absurd (honly last hlast.mem hrank) hother
        · have halone := (hwrite last hlast.mem hrank).resolve_left hother
          exact (AclEntry.sum_lt_iff_of_rank_eq hrank).mpr ⟨halone, hdelete⟩
    exact absurd (hlast.le he.mem) (not_le.mpr hless)

/-- Server 1 with Delete, server 2 with Write: server 1 is elected. -/
theorem electInstanceOwner_first_deleteThenWrite :
    ∃ e, FirstMax AclEntry.rank [(⟨8, 1⟩ : AclEntry), ⟨2, 2⟩] e ∧
      (electInstanceOwner [⟨8, 1⟩, ⟨2, 2⟩] = e.ssid ↔
        (∀ f ∈ [(⟨8, 1⟩ : AclEntry), ⟨2, 2⟩], f.rank = e.rank → f = e) ∨
          e.deleteAlone = true ∧
            ∀ f ∈ [(⟨8, 1⟩ : AclEntry), ⟨2, 2⟩], f.rank = e.rank → f = e ∨ f.writeAlone = true) :=
  electInstanceOwner_first_iff ⟨[⟨8, 1⟩, ⟨2, 2⟩], by decide⟩ (List.cons_ne_nil _ _)

/-- Of two servers with Write alone the second is elected. -/
theorem electInstanceOwner_not_first :
    ¬∀ acl : Acl, acl.entries ≠ [] →
      ∃ e, FirstMax AclEntry.rank acl.entries e ∧ electInstanceOwner acl.entries = e.ssid := by
  intro h
  have hfirst : FirstMax AclEntry.rank [(⟨2, 1⟩ : AclEntry), ⟨2, 2⟩] ⟨2, 1⟩ :=
    ⟨[], [⟨2, 2⟩], rfl, List.forall_mem_nil _, List.forall_mem_singleton.mpr (by decide)⟩
  obtain ⟨e, he, helected⟩ := h ⟨[⟨2, 1⟩, ⟨2, 2⟩], by decide⟩ (List.cons_ne_nil _ _)
  rw [he.unique hfirst] at helected
  exact absurd helected (by decide)

end Anjay.Ac
