/-
  File:      Anjay/Commons/LinkText.lean
  Subject:   Links of the CoRE link format as the client prints them.

  * `pathLink_inj`: a link can be read back, whatever stands behind it.
  * `comma_notMem_pathLink`: it has no comma in it.
-/
import Anjay.Commons.Basic
import Anjay.Commons.Parse
import Anjay.Lib.Separated

namespace Anjay.Text

open Lib

/-! ## 1. Printing -/

def slash : UInt8 := 0x2F
def comma : UInt8 := 0x2C
def closing : UInt8 := 0x3E
def quotation : UInt8 := 0x22

/-- `"</%u>"`, `"</%u/%u>"` and `"</%u/%u/%u>"`, by the number of ids. -/
def pathLink (ids : List Nat) : List UInt8 := 0x3C :: ids.flatMap (fun n => slash :: decimal n) ++ [closing]

/-- `";ver=\"%s\""`. -/
def versionAttr (version : CString) : List UInt8 :=
  [0x3B, 0x76, 0x65, 0x72, 0x3D, quotation] ++ version.bytes ++ [quotation]

example : pathLink [3, 0, 14] = [0x3C, 0x2F, 0x33, 0x2F, 0x30, 0x2F, 0x31, 0x34, 0x3E] := by decide +kernel

/-! ## 2. Reading back -/

theorem decimal_inj {m n : Nat} (h : decimal m = decimal n) : m = n := by
  rw [← foldl_decimal m, h, foldl_decimal]

theorem digit_ne {c : UInt8} (hc : isDigitOf 10 c = true) : c ≠ slash ∧ c ≠ comma ∧ c ≠ closing := by
  refine ⟨?_, ?_, ?_⟩ <;> rintro rfl <;> exact absurd hc (by decide)

theorem flatMap_decimal (ids : List Nat) :
    ids.flatMap (fun n => slash :: decimal n) = preceded slash (ids.map decimal) := by
  rw [preceded, List.flatMap_map]

theorem mem_flatMap_decimal {ids : List Nat} {c : UInt8} (hc : c ∈ ids.flatMap fun n => slash :: decimal n) :
    c = slash ∨ isDigitOf 10 c = true := by
  obtain ⟨n, -, hc⟩ := List.mem_flatMap.mp hc
  rcases List.mem_cons.mp hc with rfl | hc
  · exact Or.inl rfl
  · exact Or.inr (isDigitOf_of_mem_decimal hc)

theorem closing_notMem (ids : List Nat) : closing ∉ ids.flatMap fun n => slash :: decimal n := by
  intro hc
  rcases mem_flatMap_decimal hc with h | h
  · cases h
  · exact (digit_ne h).2.2 rfl

theorem comma_notMem_pathLink (ids : List Nat) : comma ∉ pathLink ids := by
  intro hc
  rcases List.mem_append.mp hc with hc | hc
  · rcases List.mem_cons.mp hc with h | hc
    · cases h
    rcases mem_flatMap_decimal hc with h | h
    · cases h
    · exact (digit_ne h).2.1 rfl
  · cases List.mem_singleton.mp hc

theorem nul_notMem_pathLink (ids : List Nat) : 0 ∉ pathLink ids := by
  intro hc
  rcases List.mem_append.mp hc with hc | hc
  · rcases List.mem_cons.mp hc with h | hc
    · cases h
    rcases mem_flatMap_decimal hc with h | h
    · cases h
    · cases h
  · cases List.mem_singleton.mp hc

/-- What stands in front of the first `sep` is the same if the whole is. -/
theorem append_cons_inj {sep : UInt8} {as bs rest rest' : List UInt8} (ha : sep ∉ as) (hb : sep ∉ bs)
    (h : as ++ sep :: rest = bs ++ sep :: rest') : as = bs ∧ rest = rest' := by
  induction as generalizing bs with
  | nil =>
      cases bs with
      | nil => exact ⟨rfl, (List.cons.inj h).2⟩
      | cons b bs => exact absurd (List.cons.inj h).1 (List.ne_of_not_mem_cons hb)
  | cons a as ih =>
      cases bs with
      | nil => exact absurd (List.cons.inj h).1.symm (List.ne_of_not_mem_cons ha)
      | cons b bs =>
          obtain ⟨hab, h⟩ := List.cons.inj h
          obtain ⟨has, hrest⟩ := ih (List.not_mem_of_not_mem_cons ha) (List.not_mem_of_not_mem_cons hb) h
          exact ⟨by rw [hab, has], hrest⟩

/-- **A link can be read back**, whatever stands behind it. -/
theorem pathLink_inj {ids ids' : List Nat} {rest rest' : List UInt8} (h : pathLink ids ++ rest = pathLink ids' ++ rest') :
    ids = ids' ∧ rest = rest' := by
  rw [pathLink, pathLink, List.append_assoc, List.append_assoc] at h
  obtain ⟨hids, hrest⟩ := append_cons_inj (closing_notMem ids) (closing_notMem ids') (List.cons.inj h).2
  rw [flatMap_decimal, flatMap_decimal] at hids
  have hslash : ∀ ids : List Nat, ∀ item ∈ ids.map decimal, slash ∉ item := by
    intro ids item hitem hc
    obtain ⟨n, -, rfl⟩ := List.mem_map.mp hitem
    exact (digit_ne (isDigitOf_of_mem_decimal hc)).1 rfl
  have hmap := preceded_inj (hslash ids) (hslash ids') hids
  exact ⟨List.map_injective_iff.mpr (fun _ _ => decimal_inj) hmap, hrest⟩

end Anjay.Text
