/-
  File:      Anjay/Dm/Registry.lean
  Subject:   The list of registered Objects (`anjay_dm_core.c`).

  * `ObjectList`: Objects in strictly ascending order of their ids, with versions that `sscanf` could read.
  * `validateVersion_char`: what such a version is made of.
  * `foreachObject_ok`, `foreachObject_total`: what an enumeration of the Objects does, and when it goes through.
-/
import Anjay.Commons.LinkText
import Anjay.Dm.Object

namespace Anjay.Dm

open Text

variable {σ τ : Type}

/-! ## 1. Versions -/

/-- `%u` of `sscanf`: white space, a sign, digits. What is left behind them, or `none` if there is no digit. -/
def scanUnsigned (text : List UInt8) : Option (List UInt8) :=
  let number := (splitSign (text.dropWhile isSpace)).2
  if number.takeWhile (isDigitOf 10) = [] then none else some (number.dropWhile (isDigitOf 10))

/-- `sscanf(version, "%u.%u%c", …)`: how many conversions are made, -1 at the end of the text before the first. -/
def scanVersion (text : List UInt8) : Int :=
  match scanUnsigned text with
  | none => if text.dropWhile isSpace = [] then -1 else 0
  | some [] => 1
  | some (dot :: rest) =>
      if dot ≠ 0x2E then 1
      else
        match scanUnsigned rest with
        | none => 1
        | some [] => 2
        | some (_ :: _) => 3

/-- `validate_version`. -/
def validateVersion (version : Option CString) : Int :=
  match version with
  | none => 0
  | some version => if scanVersion version.bytes ≠ 2 then -1 else 0

/-- The characters that a version can have: white space, signs, digits and dots. -/
def versionChar (c : UInt8) : Bool := isSpace c || c == 0x2B || c == 0x2D || isDigitOf 10 c || c == 0x2E

theorem splitSign_char {text : List UInt8} (h : ∀ c ∈ (splitSign text).2, versionChar c = true) :
    ∀ c ∈ text, versionChar c = true := by
  cases text with
  | nil => exact fun _ hc => nomatch hc
  | cons sign rest =>
      rw [splitSign] at h
      split at h
      next heq =>
        rw [heq]
        exact List.forall_mem_cons.mpr ⟨rfl, h⟩
      split at h
      next heq =>
        rw [heq]
        exact List.forall_mem_cons.mpr ⟨rfl, h⟩
      · exact h

theorem dropWhile_char {p : UInt8 → Bool} (hp : ∀ c, p c = true → versionChar c = true) {text : List UInt8}
    (h : ∀ c ∈ text.dropWhile p, versionChar c = true) : ∀ c ∈ text, versionChar c = true := by
  intro c hc
  rw [← List.takeWhile_append_dropWhile (p := p) (l := text)] at hc
  rcases List.mem_append.mp hc with hc | hc
  · exact hp c (List.all_eq_true.mp List.all_takeWhile c hc)
  · exact h c hc

theorem scanUnsigned_char {text rest : List UInt8} (h : scanUnsigned text = some rest)
    (hrest : ∀ c ∈ rest, versionChar c = true) : ∀ c ∈ text, versionChar c = true := by
  unfold scanUnsigned at h
  dsimp only at h
  split at h
  · cases h
  rw [← Option.some.inj h] at hrest
  refine dropWhile_char (fun c hc => ?_) (splitSign_char (dropWhile_char (fun c hc => ?_) hrest))
  · rw [versionChar, hc]
    rfl
  · simp [versionChar, hc]

/-- **A version that passes is made of white space, signs, digits and dots.** -/
theorem validateVersion_char {version : CString} (h : validateVersion (some version) = 0) :
    ∀ c ∈ version.bytes, versionChar c = true := by
  unfold validateVersion at h
  dsimp only at h
  split at h
  · cases h
  next hscan =>
  have hscan := not_not.mp hscan
  unfold scanVersion at hscan
  split at hscan
  · split at hscan <;> cases hscan
  · cases hscan
  next dot rest hmajor =>
  split at hscan
  · cases hscan
  next hdot =>
  split at hscan
  · cases hscan
  next hminor =>
    refine scanUnsigned_char hmajor (List.forall_mem_cons.mpr ⟨?_, scanUnsigned_char hminor (by simp)⟩)
    rw [not_not.mp hdot]
    rfl
  · cases hscan

/-- Such a version is printed without a comma. -/
theorem comma_notMem_versionAttr {version : CString} (h : validateVersion (some version) = 0) :
    comma ∉ versionAttr version := by
  intro hc
  rcases List.mem_append.mp hc with hc | hc
  · rcases List.mem_append.mp hc with hc | hc
    · exact absurd hc (by decide)
    · exact absurd (validateVersion_char h comma hc) (by decide)
  · exact absurd hc (by decide)

/-! ## 2. The list -/

/-- `anjay_dm_object_def_t` with the address of the pointer to it. -/
structure RegisteredObject (σ : Type) extends ObjectDef σ where
  ref : Nat
  version : Option CString

/-- `dm.objects`. -/
structure ObjectList (σ : Type) where
  objects : List (RegisteredObject σ)
  ascending : objects.Pairwise fun a b => a.oid < b.oid
  valid : ∀ o ∈ objects, o.oid ≠ idInvalid ∧ validateVersion o.version = 0

/-- The walk of `anjay_register_object` to the place of the new Object, where it is put in; `none` if there is one
    with this id. -/
def insertObject (new : RegisteredObject σ) : List (RegisteredObject σ) → Option (List (RegisteredObject σ))
  | [] => some [new]
  | o :: os =>
      if new.oid ≤ o.oid then if o.oid = new.oid then none else some (new :: o :: os)
      else (insertObject new os).map (o :: ·)

theorem mem_insertObject {new : RegisteredObject σ} {x : RegisteredObject σ} :
    ∀ {os os' : List (RegisteredObject σ)}, insertObject new os = some os' → (x ∈ os' ↔ x = new ∨ x ∈ os)
  | [], os', h => by
      rw [← Option.some.inj h]
      simp
  | o :: os, os', h => by
      unfold insertObject at h
      split at h
      · split at h
        · cases h
        · rw [← Option.some.inj h, List.mem_cons]
      · obtain ⟨tail, htail, rfl⟩ := Option.map_eq_some_iff.mp h
        rw [List.mem_cons, mem_insertObject htail, List.mem_cons]
        exact or_left_comm

theorem insertObject_ascending {new : RegisteredObject σ} :
    ∀ {os os' : List (RegisteredObject σ)}, (os.Pairwise fun a b => a.oid < b.oid) →
      insertObject new os = some os' → os'.Pairwise fun a b => a.oid < b.oid
  | [], os', _, h => by
      rw [← Option.some.inj h]
      exact List.pairwise_singleton _ _
  | o :: os, os', hs, h => by
      obtain ⟨ho, hos⟩ := List.pairwise_cons.mp hs
      unfold insertObject at h
      split at h
      next hle =>
        split at h
        · cases h
        next hne =>
        have hlt : new.oid < o.oid := lt_of_le_of_ne hle fun heq => hne heq.symm
        rw [← Option.some.inj h]
        refine List.pairwise_cons.mpr ⟨List.forall_mem_cons.mpr ⟨hlt, fun x hx => hlt.trans (ho x hx)⟩, hs⟩
      next hgt =>
        obtain ⟨tail, htail, rfl⟩ := Option.map_eq_some_iff.mp h
        refine List.pairwise_cons.mpr ⟨fun x hx => ?_, insertObject_ascending hos htail⟩
        rcases (mem_insertObject htail).mp hx with rfl | hx
        · exact not_le.mp hgt
        · exact ho x hx

namespace ObjectList

/-- What a registration that goes through leaves. -/
def inserted (objects : ObjectList σ) (new : RegisteredObject σ) (hoid : new.oid ≠ idInvalid)
    (hversion : validateVersion new.version = 0) {os : List (RegisteredObject σ)}
    (h : insertObject new objects.objects = some os) : ObjectList σ where
  objects := os
  ascending := insertObject_ascending objects.ascending h
  valid o ho := ((mem_insertObject h).mp ho).elim (fun heq => heq ▸ ⟨hoid, hversion⟩) (objects.valid o)

/-- `anjay_register_object`, where `memory` says whether there is room for the new element. -/
def registerObject (objects : ObjectList σ) (memory : Bool) (new : RegisteredObject σ) : Int × ObjectList σ :=
  if hoid : new.oid = idInvalid then (-1, objects)
  else if hversion : validateVersion new.version ≠ 0 then (-1, objects)
  else
    match h : insertObject new objects.objects with
    | none => (-1, objects)
    | some _ => if memory then (0, objects.inserted new hoid (not_not.mp hversion) h) else (-1, objects)

/-- `anjay_unregister_object`, as far as the list of Objects goes. -/
def unregisterObject (objects : ObjectList σ) (oid : Id) (ref : Nat) : Int × ObjectList σ :=
  match objects.objects.find? fun o => decide (oid ≤ o.oid) with
  | none => (-1, objects)
  | some found =>
      if found.oid ≠ oid ∨ found.ref ≠ ref then (-1, objects)
      else
        (0, { objects := objects.objects.eraseP fun o => decide (oid ≤ o.oid)
              ascending := objects.ascending.sublist List.eraseP_sublist
              valid := fun o ho => objects.valid o (List.mem_of_mem_eraseP ho) })

end ObjectList

/-! ## 3. Enumeration -/

/-- `_anjay_dm_foreach_object`. -/
def foreachObject (handler : RegisteredObject σ → τ → Int × τ) : List (RegisteredObject σ) → τ → Int × τ
  | [], t => (0, t)
  | obj :: objs, t =>
      match handler obj t with
      | (result, t) =>
          if result = foreachBreak then (0, t)
          else if result ≠ 0 then (result, t)
          else foreachObject handler objs t

/-- **An enumeration that succeeds, and whose callback never breaks, called it for every Object in turn.** -/
theorem foreachObject_ok {handler : RegisteredObject σ → τ → Int × τ} {next : τ → RegisteredObject σ → τ} :
    ∀ {objs : List (RegisteredObject σ)} {t : τ},
      (∀ obj ∈ objs, ∀ t, ((handler obj t).1 = 0 → (handler obj t).2 = next t obj) ∧ (handler obj t).1 ≠ foreachBreak) →
      (foreachObject handler objs t).1 = 0 → (foreachObject handler objs t).2 = objs.foldl next t
  | [], _, _, _ => rfl
  | obj :: objs, t, h, hret => by
      obtain ⟨hobj, hbreak⟩ := h obj List.mem_cons_self t
      rw [foreachObject] at hret ⊢
      dsimp only at hret ⊢
      rw [if_neg hbreak] at hret ⊢
      split at hret
      next hne => exact absurd hret hne
      next h0 =>
      have h0 := not_not.mp h0
      rw [if_neg (not_not.mpr h0), hobj h0]
      rw [hobj h0] at hret
      exact foreachObject_ok (fun o ho => h o (List.mem_cons_of_mem _ ho)) hret

/-- An enumeration goes through when its callback does so for as long as `I` holds. -/
theorem foreachObject_total {handler : RegisteredObject σ → τ → Int × τ} (I : τ → Prop) :
    ∀ {objs : List (RegisteredObject σ)} {t : τ},
      (∀ obj ∈ objs, ∀ t, I t → (handler obj t).1 = 0 ∧ I (handler obj t).2) → I t →
      (foreachObject handler objs t).1 = 0 ∧ I (foreachObject handler objs t).2
  | [], _, _, ht => ⟨rfl, ht⟩
  | obj :: objs, t, h, ht => by
      obtain ⟨h0, hI⟩ := h obj List.mem_cons_self t ht
      have hbreak : (0 : Int) ≠ foreachBreak := by decide
      rw [foreachObject]
      dsimp only
      rw [h0, if_neg hbreak, if_neg (not_not.mpr rfl)]
      exact foreachObject_total I (fun o ho => h o (List.mem_cons_of_mem _ ho)) hI

end Anjay.Dm
