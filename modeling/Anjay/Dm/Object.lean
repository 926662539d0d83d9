/-
  File:      Anjay/Dm/Object.lean
  Subject:   Objects as the library sees them: what the list handlers emit (`anjay_dm_core.c`).

  * `emitLoop_cons`: ids emitted in strictly ascending order go to the callback one after the other.
  * `foreach_preserves`, `foreach_foldl`, `foreach_ok`: what an enumeration does to the state of its callback.
  * `verifyInstancePresent_iff`, `resourceKindAndPresence_iff`: the two searches find exactly what
    the handlers list.
-/
import Anjay.Dm.Path

namespace Anjay.Dm

/-! ## 1. Kinds of Resources -/

/-- `anjay_dm_resource_kind_t`, the valid kinds. -/
inductive ResourceKind
  | r
  | w
  | rw
  | rm
  | wm
  | rwm
  | e
  | bsRw
  deriving DecidableEq, Repr

namespace ResourceKind

/-- `_anjay_dm_res_kind_readable`. -/
def readable (k : ResourceKind) : Bool := k = r ∨ k = rw ∨ k = rm ∨ k = rwm

/-- `_anjay_dm_res_kind_writable`. -/
def writable (k : ResourceKind) : Bool := k = w ∨ k = rw ∨ k = wm ∨ k = rwm

/-- `_anjay_dm_res_kind_multiple`. -/
def multiple (k : ResourceKind) : Bool := k = rm ∨ k = wm ∨ k = rwm

/-- `_anjay_dm_res_kind_bootstrappable`. -/
def bootstrappable (k : ResourceKind) : Bool := k = bsRw

end ResourceKind

/-! ## 2. Objects -/

/-- One `anjay_dm_emit_res`. -/
structure ResourceEntry where
  rid : Id
  kind : ResourceKind
  present : Bool
  deriving DecidableEq, Repr

/-- The list handlers of an Object, over the state `σ` of its data: the ids they emit and the code
    they return. A handler that is not implemented emits nothing and returns
    `errMethodNotAllowed`. -/
structure ObjectDef (σ : Type) where
  oid : Id
  listInstances : σ → List Id × Int
  listResources : σ → Id → List ResourceEntry × Int
  listResourceInstances : σ → Id → Id → List Id × Int

/-- `ANJAY_FOREACH_BREAK`. -/
def foreachBreak : Int := -2 ^ 31

variable {σ τ α : Type}

/-- `foreach_instance_emit`, `anjay_dm_emit_res` and their like, for each emitted element in turn:
    after an error or a break the rest is ignored. `last` is the id emitted last, -1 at first. -/
def emitLoop (idOf : α → Id) (handler : α → τ → Int × τ) : List α → Int → Int → τ → Int × τ
  | [], _, result, t => (result, t)
  | a :: as, last, result, t =>
      if result ≠ 0 then emitLoop idOf handler as last result t
      else if idOf a = idInvalid then emitLoop idOf handler as last errInternal t
      else if ((idOf a).val : Int) ≤ last then emitLoop idOf handler as last errInternal t
      else
        match handler a t with
        | (result, t) => emitLoop idOf handler as (idOf a).val result t

/-- `_anjay_dm_foreach_instance`, `_anjay_dm_foreach_resource` and
    `_anjay_dm_foreach_resource_instance`, on what the list handler does. -/
def foreach (idOf : α → Id) (listed : List α × Int) (handler : α → τ → Int × τ) (t : τ) : Int × τ :=
  match emitLoop idOf handler listed.1 (-1) 0 t with
  | (result, t) =>
      if listed.2 < 0 then (listed.2, t)
      else (if result = foreachBreak then 0 else result, t)

namespace ObjectDef

/-- `_anjay_dm_foreach_instance`. -/
def foreachInstance (obj : ObjectDef σ) (s : σ) (handler : Id → τ → Int × τ) (t : τ) : Int × τ :=
  foreach id (obj.listInstances s) handler t

/-- `_anjay_dm_foreach_resource`. -/
def foreachResource (obj : ObjectDef σ) (s : σ) (iid : Id) (handler : ResourceEntry → τ → Int × τ)
    (t : τ) : Int × τ :=
  foreach ResourceEntry.rid (obj.listResources s iid) handler t

/-- `_anjay_dm_foreach_resource_instance`. -/
def foreachResourceInstance (obj : ObjectDef σ) (s : σ) (iid rid : Id)
    (handler : Id → τ → Int × τ) (t : τ) : Int × τ :=
  foreach id (obj.listResourceInstances s iid rid) handler t

/-- `_anjay_dm_instance_present`, with `instance_present_clb`. -/
def instancePresent (obj : ObjectDef σ) (s : σ) (iid : Id) : Int :=
  match obj.foreachInstance s
    (fun i found => if iid ≤ i then (foreachBreak, decide (i = iid)) else (0, found)) false with
  | (retval, found) => if retval < 0 then retval else if found then 1 else 0

/-- `_anjay_dm_verify_instance_present`, with `_anjay_dm_map_present_result`. -/
def verifyInstancePresent (obj : ObjectDef σ) (s : σ) (iid : Id) : Int :=
  let result := obj.instancePresent s iid
  if result = 0 then errNotFound else if 0 < result then 0 else result

/-- `_anjay_dm_resource_kind_and_presence`, with `kind_and_presence_clb`. -/
def resourceKindAndPresence (obj : ObjectDef σ) (s : σ) (iid rid : Id) :
    Except Int (ResourceKind × Bool) :=
  match obj.foreachResource s iid
    (fun e found =>
      if rid ≤ e.rid then
        (foreachBreak, if e.rid = rid then some (e.kind, e.present) else found)
      else (0, found)) none with
  | (retval, found) =>
      if retval ≠ 0 then .error retval
      else
        match found with
        | none => .error errNotFound
        | some kp => .ok kp

/-- `_anjay_dm_verify_resource_present`, with the kind that it gives. -/
def verifyResourcePresent (obj : ObjectDef σ) (s : σ) (iid rid : Id) : Except Int ResourceKind :=
  match obj.resourceKindAndPresence s iid rid with
  | .error retval => .error retval
  | .ok (kind, present) => if present then .ok kind else .error errNotFound

end ObjectDef

/-! ## 3. Searches -/

theorem emitLoop_stopped (idOf : α → Id) (handler : α → τ → Int × τ) {result : Int}
    (h : result ≠ 0) : ∀ (as : List α) (last : Int) (t : τ),
      emitLoop idOf handler as last result t = (result, t)
  | [], _, _ => rfl
  | a :: as, last, t => by
      rw [emitLoop, if_pos h, emitLoop_stopped idOf handler h as last t]

/-- Valid ids in strictly ascending order, all above `last`. -/
def Ascending (idOf : α → Id) (last : Int) (as : List α) : Prop :=
  (∀ a ∈ as, idOf a ≠ idInvalid ∧ last < (idOf a).val) ∧ as.Pairwise fun a b => idOf a < idOf b

instance instDecidableAscending (idOf : α → Id) (last : Int) (as : List α) :
    Decidable (Ascending idOf last as) := inferInstanceAs (Decidable (_ ∧ _))

theorem ascending_tail {idOf : α → Id} {last : Int} {a : α} {as : List α}
    (h : Ascending idOf last (a :: as)) : Ascending idOf (idOf a).val as := by
  obtain ⟨hall, hpair⟩ := h
  obtain ⟨hhead, htail⟩ := List.pairwise_cons.mp hpair
  refine ⟨fun b hb => ⟨(hall b (List.mem_cons_of_mem _ hb)).1, ?_⟩, htail⟩
  have := Fin.lt_def.mp (hhead b hb)
  omega

/-- **Ids in strictly ascending order go to the callback one after the other.** -/
theorem emitLoop_cons {idOf : α → Id} {handler : α → τ → Int × τ} {last : Int} {a : α} {as : List α}
    (h : Ascending idOf last (a :: as)) (t : τ) :
    emitLoop idOf handler (a :: as) last 0 t
      = emitLoop idOf handler as (idOf a).val (handler a t).1 (handler a t).2 := by
  obtain ⟨hvalid, hlast⟩ := h.1 a List.mem_cons_self
  rw [emitLoop, if_neg (fun h0 => h0 rfl), if_neg hvalid, if_neg (by omega)]

/-- What the callback preserves on the elements that are emitted, the whole enumeration preserves, whatever the list
    handler does. -/
theorem emitLoop_preserves_of_mem {idOf : α → Id} {handler : α → τ → Int × τ} (I : τ → Prop) :
    ∀ (as : List α) (last result : Int) (t : τ), (∀ a ∈ as, ∀ t, I t → I (handler a t).2) → I t →
      I (emitLoop idOf handler as last result t).2
  | [], _, _, _, _, ht => ht
  | a :: as, last, result, t, h, ht => by
      have htail : ∀ b ∈ as, ∀ t, I t → I (handler b t).2 := fun b hb => h b (List.mem_cons_of_mem _ hb)
      rw [emitLoop]
      split
      · exact emitLoop_preserves_of_mem I as _ _ t htail ht
      split
      · exact emitLoop_preserves_of_mem I as _ _ t htail ht
      split
      · exact emitLoop_preserves_of_mem I as _ _ t htail ht
      · exact emitLoop_preserves_of_mem I as _ _ _ htail (h a List.mem_cons_self t ht)

theorem foreach_preserves_of_mem {idOf : α → Id} {handler : α → τ → Int × τ} (I : τ → Prop) {listed : List α × Int}
    (h : ∀ a ∈ listed.1, ∀ t, I t → I (handler a t).2) {t : τ} (ht : I t) : I (foreach idOf listed handler t).2 := by
  have hloop : I (emitLoop idOf handler listed.1 (-1) 0 t).2 := emitLoop_preserves_of_mem I listed.1 (-1) 0 t h ht
  unfold foreach
  split
  next result t' heq =>
  rw [heq] at hloop
  split <;> exact hloop

theorem foreach_preserves {idOf : α → Id} {handler : α → τ → Int × τ} (I : τ → Prop)
    (h : ∀ a t, I t → I (handler a t).2) (listed : List α × Int) {t : τ} (ht : I t) :
    I (foreach idOf listed handler t).2 :=
  foreach_preserves_of_mem I (fun a _ => h a) ht

theorem emitLoop_foldl {idOf : α → Id} {handler : α → τ → Int × τ} (h0 : ∀ a t, (handler a t).1 = 0) :
    ∀ {as : List α} {last : Int}, Ascending idOf last as → ∀ t,
      emitLoop idOf handler as last 0 t = (0, as.foldl (fun t a => (handler a t).2) t)
  | [], _, _, _ => rfl
  | a :: as, last, h, t => by
      rw [emitLoop_cons h, h0, emitLoop_foldl h0 (ascending_tail h), List.foldl_cons]

/-- **An enumeration that succeeds, with a callback that does, is a fold.** -/
theorem foreach_foldl {idOf : α → Id} {handler : α → τ → Int × τ} (h0 : ∀ a t, (handler a t).1 = 0)
    {listed : List α × Int} (hlist : Ascending idOf (-1) listed.1) (hcode : 0 ≤ listed.2) (t : τ) :
    foreach idOf listed handler t = (0, listed.1.foldl (fun t a => (handler a t).2) t) := by
  rw [foreach, emitLoop_foldl h0 hlist]
  simp only [if_neg (Int.not_lt.mpr hcode)]
  rfl

theorem emitLoop_ret {idOf : α → Id} {handler : α → τ → Int × τ} (h0 : ∀ a t, (handler a t).1 = 0) :
    ∀ (as : List α) (last : Int) (t : τ), Ascending idOf last as ∧ (emitLoop idOf handler as last 0 t).1 = 0 ∨
      (emitLoop idOf handler as last 0 t).1 = errInternal
  | [], _, _ => Or.inl ⟨⟨fun _ h => absurd h List.not_mem_nil, List.Pairwise.nil⟩, rfl⟩
  | a :: as, last, t => by
      have hstop : errInternal ≠ 0 := by decide
      rw [emitLoop, if_neg (fun h => h rfl)]
      split
      · rw [emitLoop_stopped idOf handler hstop]
        exact Or.inr rfl
      next hvalid =>
      split
      · rw [emitLoop_stopped idOf handler hstop]
        exact Or.inr rfl
      next hlast =>
      dsimp only
      rw [h0]
      rcases emitLoop_ret h0 as (idOf a).val (handler a t).2 with ⟨⟨hall, hpair⟩, hret⟩ | hret
      · refine Or.inl ⟨⟨List.forall_mem_cons.mpr ⟨⟨hvalid, by omega⟩, fun b hb => ⟨(hall b hb).1, ?_⟩⟩,
          List.pairwise_cons.mpr ⟨fun b hb => ?_, hpair⟩⟩, hret⟩
        · have := (hall b hb).2
          omega
        · exact Fin.lt_def.mpr (Int.ofNat_lt.mp (hall b hb).2)
      · exact Or.inr hret

/-- An enumeration that succeeds, with a callback that does, was in strictly ascending order. -/
theorem ascending_of_foreach {idOf : α → Id} {handler : α → τ → Int × τ} (h0 : ∀ a t, (handler a t).1 = 0)
    {listed : List α × Int} {t : τ} (hret : (foreach idOf listed handler t).1 = 0) :
    Ascending idOf (-1) listed.1 ∧ 0 ≤ listed.2 := by
  rw [foreach] at hret
  dsimp only at hret
  split at hret
  · next hneg =>
    dsimp only at hret
    omega
  next hcode =>
  rcases (emitLoop_ret h0 listed.1 (-1) t : Ascending idOf (-1) listed.1 ∧ _ ∨ _) with ⟨hasc, -⟩ | herr
  · exact ⟨hasc, not_lt.mp hcode⟩
  · rw [herr] at hret
    exact absurd hret (by decide : (if errInternal = foreachBreak then (0 : Int) else errInternal) ≠ 0)

/-- An enumeration goes through when its callback does so for as long as `I` holds. -/
theorem emitLoop_total {idOf : α → Id} {handler : α → τ → Int × τ} (I : τ → Prop)
    (h : ∀ a t, I t → (handler a t).1 = 0 ∧ I (handler a t).2) :
    ∀ {as : List α} {last : Int}, Ascending idOf last as → ∀ t, I t →
      (emitLoop idOf handler as last 0 t).1 = 0 ∧ I (emitLoop idOf handler as last 0 t).2
  | [], _, _, _, ht => ⟨rfl, ht⟩
  | a :: as, last, hasc, t, ht => by
      rw [emitLoop_cons hasc, (h a t ht).1]
      exact emitLoop_total I h (ascending_tail hasc) _ (h a t ht).2

theorem foreach_total {idOf : α → Id} {handler : α → τ → Int × τ} (I : τ → Prop)
    (h : ∀ a t, I t → (handler a t).1 = 0 ∧ I (handler a t).2) {listed : List α × Int}
    (hlist : Ascending idOf (-1) listed.1) (hcode : 0 ≤ listed.2) {t : τ} (ht : I t) :
    (foreach idOf listed handler t).1 = 0 ∧ I (foreach idOf listed handler t).2 := by
  obtain ⟨hret, hI⟩ := emitLoop_total I h hlist t ht
  have hbreak : (0 : Int) ≠ foreachBreak := by decide
  rw [foreach]
  dsimp only
  rw [if_neg (Int.not_lt.mpr hcode), hret, if_neg hbreak]
  exact ⟨rfl, hI⟩

/-- An enumeration never breaks off itself, unless the list handler fails with just that code. -/
theorem foreach_ne_break {idOf : α → Id} {handler : α → τ → Int × τ} {listed : List α × Int} (hcode : 0 ≤ listed.2)
    (t : τ) : (foreach idOf listed handler t).1 ≠ foreachBreak := by
  rw [foreach]
  dsimp only
  rw [if_neg (Int.not_lt.mpr hcode)]
  split
  · exact (by decide : (0 : Int) ≠ foreachBreak)
  next hne => exact hne

theorem emitLoop_ok {idOf : α → Id} {handler : α → τ → Int × τ} {P : α → Prop} {next : τ → α → τ}
    (h : ∀ a t, (handler a t).1 = 0 → P a ∧ (handler a t).2 = next t a) : ∀ {as : List α} {last : Int} {t : τ},
      (emitLoop idOf handler as last 0 t).1 = 0 →
        Ascending idOf last as ∧ (∀ a ∈ as, P a) ∧ (emitLoop idOf handler as last 0 t).2 = as.foldl next t
  | [], _, _, _ => ⟨⟨fun _ hm => absurd hm List.not_mem_nil, List.Pairwise.nil⟩,
      fun _ hm => absurd hm List.not_mem_nil, rfl⟩
  | a :: as, last, t, hret => by
      have hstop : errInternal ≠ 0 := by decide
      rw [emitLoop, if_neg (fun h0 => h0 rfl)] at hret ⊢
      split at hret
      · rw [emitLoop_stopped idOf handler hstop] at hret
        exact absurd hret hstop
      next hvalid =>
      split at hret
      · rw [emitLoop_stopped idOf handler hstop] at hret
        exact absurd hret hstop
      next hlast =>
      rw [if_neg hvalid, if_neg hlast]
      dsimp only at hret ⊢
      by_cases h0 : (handler a t).1 = 0
      · rw [h0] at hret ⊢
        obtain ⟨⟨hall, hpair⟩, hP, hfold⟩ := emitLoop_ok h hret
        refine ⟨⟨List.forall_mem_cons.mpr ⟨⟨hvalid, not_le.mp hlast⟩, fun b hb => ⟨(hall b hb).1, ?_⟩⟩,
          List.pairwise_cons.mpr ⟨fun b hb => Fin.lt_def.mpr (Int.ofNat_lt.mp (hall b hb).2), hpair⟩⟩,
          List.forall_mem_cons.mpr ⟨(h a t h0).1, hP⟩, ?_⟩
        · have := (hall b hb).2
          omega
        · rw [hfold, (h a t h0).2]
          rfl
      · rw [emitLoop_stopped idOf handler h0] at hret
        exact absurd hret h0

/-- **An enumeration that succeeds, and whose callback never breaks, called it for every element in strictly
    ascending order**, and it succeeded each time. -/
theorem foreach_ok {idOf : α → Id} {handler : α → τ → Int × τ} {P : α → Prop} {next : τ → α → τ}
    (h : ∀ a t, (handler a t).1 = 0 → P a ∧ (handler a t).2 = next t a)
    (hbreak : ∀ a t, (handler a t).1 ≠ foreachBreak) {listed : List α × Int} {t : τ}
    (hret : (foreach idOf listed handler t).1 = 0) :
    Ascending idOf (-1) listed.1 ∧ 0 ≤ listed.2 ∧ (∀ a ∈ listed.1, P a) ∧
      (foreach idOf listed handler t).2 = listed.1.foldl next t := by
  have hnever : ∀ (as : List α) (last result : Int) (t : τ), result ≠ foreachBreak →
      (emitLoop idOf handler as last result t).1 ≠ foreachBreak := by
    intro as
    induction as with
    | nil => exact fun _ _ _ hne => hne
    | cons a as ih =>
        intro last result t hne
        rw [emitLoop]
        split
        · exact ih _ _ _ hne
        split
        · exact ih _ _ _ (by decide)
        split
        · exact ih _ _ _ (by decide)
        · exact ih _ _ _ (hbreak a t)
  rw [foreach] at hret ⊢
  dsimp only at hret ⊢
  split at hret
  next hneg =>
    dsimp only at hret
    omega
  next hcode =>
  rw [if_neg (hnever listed.1 (-1) 0 t (by decide))] at hret ⊢
  rw [if_neg hcode]
  obtain ⟨hasc, hP, hfold⟩ := emitLoop_ok h hret
  exact ⟨hasc, not_lt.mp hcode, hP, hfold⟩

/-- A search that breaks at the first id from `x` on, and remembers what `pick` says if it is `x`. -/
theorem emitLoop_search {idOf : α → Id} {β : Type} (pick : α → β) (other : β → β) (x : Id) (t : β) :
    ∀ {as : List α} {last : Int}, Ascending idOf last as →
      emitLoop idOf (fun a t => if x ≤ idOf a then
          (foreachBreak, if idOf a = x then pick a else other t) else (0, t)) as last 0 t
        = match as.find? fun a => x ≤ idOf a with
          | none => (0, t)
          | some a => (foreachBreak, if idOf a = x then pick a else other t)
  | [], _, _ => rfl
  | a :: as, last, h => by
      rw [emitLoop_cons h]
      by_cases hx : x ≤ idOf a
      · rw [if_pos hx, List.find?_cons_of_pos (p := fun a => decide (x ≤ idOf a)) (decide_eq_true hx)]
        have hbreak : foreachBreak ≠ 0 := by decide
        exact emitLoop_stopped idOf _ hbreak _ _ _
      · rw [if_neg hx, List.find?_cons_of_neg (p := fun a => decide (x ≤ idOf a)) (by simpa using hx)]
        exact emitLoop_search pick other x t (ascending_tail h)

/-- In ascending order, the first id from `x` on is `x` iff `x` is there at all. -/
theorem find?_ascending {idOf : α → Id} {x : Id} {a : α} : ∀ {as : List α} {last : Int},
    Ascending idOf last as → idOf a = x →
      (as.find? (fun a => decide (x ≤ idOf a)) = some a ↔ a ∈ as)
  | [], _, _, _ => by simp
  | b :: as, last, h, hax => by
      have hhead := (List.pairwise_cons.mp h.2).1
      by_cases hx : x ≤ idOf b
      · rw [List.find?_cons_of_pos (p := fun a => decide (x ≤ idOf a)) (decide_eq_true hx)]
        constructor
        · intro he
          rw [Option.some.inj he]
          exact List.mem_cons_self
        · intro hm
          rcases List.mem_cons.mp hm with rfl | hm
          · rfl
          · exact absurd (hax ▸ hx) (not_le.mpr (hhead a hm))
      · rw [List.find?_cons_of_neg (p := fun a => decide (x ≤ idOf a)) (by simpa using hx),
          find?_ascending (ascending_tail h) hax, List.mem_cons]
        refine ⟨Or.inr, fun hm => hm.resolve_left fun e => hx ?_⟩
        rw [← e, hax]

namespace ObjectDef

variable {obj : ObjectDef σ} {s : σ}

/-- **An Instance is present iff the list handler emits it.** -/
theorem verifyInstancePresent_iff (hlist : Ascending id (-1) (obj.listInstances s).1)
    (hcode : 0 ≤ (obj.listInstances s).2) (iid : Id) :
    obj.verifyInstancePresent s iid = 0 ↔ iid ∈ (obj.listInstances s).1 := by
  have hsearch := emitLoop_search (fun _ => true) (fun _ => false) iid false hlist
  have hfun : (fun (i : Id) (found : Bool) =>
      if iid ≤ i then (foreachBreak, decide (i = iid)) else (0, found))
      = fun i found => if iid ≤ id i then (foreachBreak, if id i = iid then true else false)
        else (0, found) := by
    funext i found
    by_cases h : i = iid <;> simp [h]
  have hmem : iid ∈ (obj.listInstances s).1 ↔
      ((obj.listInstances s).1.find? fun a => decide (iid ≤ id a)) = some iid :=
    (find?_ascending hlist rfl).symm
  rw [hmem, verifyInstancePresent, instancePresent, foreachInstance, foreach, hfun, hsearch]
  simp only [if_neg (Int.not_lt.mpr hcode)]
  cases hf : (obj.listInstances s).1.find? fun a => decide (iid ≤ id a) with
  | none => simp [foreachBreak, errNotFound]
  | some i =>
      by_cases h : i = iid
      · simp [h]
      · simp [h, errNotFound]

/-- **A Resource has the kind and the presence that the list handler emits for it.** -/
theorem resourceKindAndPresence_iff {iid : Id}
    (hlist : Ascending ResourceEntry.rid (-1) (obj.listResources s iid).1)
    (hcode : 0 ≤ (obj.listResources s iid).2) (rid : Id) (kind : ResourceKind) (present : Bool) :
    obj.resourceKindAndPresence s iid rid = .ok (kind, present) ↔
      ⟨rid, kind, present⟩ ∈ (obj.listResources s iid).1 := by
  have hsearch := emitLoop_search (fun e : ResourceEntry => some (e.kind, e.present)) (fun t => t) rid
    none hlist
  rw [← find?_ascending hlist (rfl : ResourceEntry.rid ⟨rid, kind, present⟩ = rid),
    resourceKindAndPresence, foreachResource, foreach, hsearch]
  simp only [if_neg (Int.not_lt.mpr hcode)]
  cases hf : (obj.listResources s iid).1.find? fun a => decide (rid ≤ a.rid) with
  | none => simp [foreachBreak]
  | some e =>
      obtain ⟨r, k, p⟩ := e
      by_cases h : r = rid
      · simp [h]
      · simp [h]

/-- An Instance that is found is one that the list handler emits, whatever else the handler does. -/
theorem mem_of_verifyInstancePresent {iid : Id} (h : obj.verifyInstancePresent s iid = 0) :
    iid ∈ (obj.listInstances s).1 := by
  have hfound : (obj.foreachInstance s
      (fun i found => if iid ≤ i then (foreachBreak, decide (i = iid)) else (0, found)) false).2 = true →
      iid ∈ (obj.listInstances s).1 := by
    refine foreach_preserves_of_mem (fun found => found = true → iid ∈ (obj.listInstances s).1) ?_ (fun h => (nomatch h))
    intro i hi found hinv
    split
    · exact fun heq => of_decide_eq_true heq ▸ hi
    · exact hinv
  have hpresent : 0 < obj.instancePresent s iid := by
    unfold verifyInstancePresent at h
    dsimp only at h
    split at h
    · exact absurd h (by decide)
    next hne =>
    split at h
    next hpos => exact hpos
    · exact absurd h hne
  unfold instancePresent at hpresent
  dsimp only at hpresent
  split at hpresent
  · omega
  split at hpresent
  next htrue => exact hfound htrue
  · omega

/-- So is a Resource that is found. -/
theorem mem_of_verifyResourcePresent {iid rid : Id} {kind : ResourceKind}
    (h : obj.verifyResourcePresent s iid rid = .ok kind) : ⟨rid, kind, true⟩ ∈ (obj.listResources s iid).1 := by
  have hfound : ∀ kp : ResourceKind × Bool, (obj.foreachResource s iid (fun e found => if rid ≤ e.rid then
      (foreachBreak, if e.rid = rid then some (e.kind, e.present) else found) else (0, found)) none).2 = some kp →
      ⟨rid, kp.1, kp.2⟩ ∈ (obj.listResources s iid).1 := by
    refine foreach_preserves_of_mem
      (fun found => ∀ kp : ResourceKind × Bool, found = some kp → ⟨rid, kp.1, kp.2⟩ ∈ (obj.listResources s iid).1) ?_ ?_
    · intro e he found hinv
      split
      · split
        next hrid =>
          intro kp hkp
          rw [← Option.some.inj hkp, ← hrid]
          exact he
        · exact hinv
      · exact hinv
    · intro kp hnone
      cases hnone
  unfold verifyResourcePresent resourceKindAndPresence at h
  dsimp only at h
  split at h
  · cases h
  next kind' present hkp =>
  split at h
  next hpresent =>
    split at hkp
    · cases hkp
    split at hkp
    · cases hkp
    next kp hsome =>
    rw [← Except.ok.inj h, ← hpresent]
    exact (congrArg (fun kp : ResourceKind × Bool => (⟨rid, kp.1, kp.2⟩ : ResourceEntry) ∈ (obj.listResources s iid).1)
      (Except.ok.inj hkp)).mp (hfound kp hsome)
  · cases h

theorem resourceKindAndPresence_error {iid rid : Id} {retval : Int}
    (h : obj.resourceKindAndPresence s iid rid = .error retval) : retval ≠ 0 := by
  unfold resourceKindAndPresence at h
  dsimp only at h
  split at h
  next hne =>
    rw [← Except.error.inj h]
    exact hne
  · split at h
    · rw [← Except.error.inj h]
      decide
    · cases h

theorem verifyResourcePresent_error {iid rid : Id} {result : Int}
    (h : obj.verifyResourcePresent s iid rid = .error result) : result ≠ 0 := by
  unfold verifyResourcePresent at h
  split at h
  next retval hfound =>
    rw [← Except.error.inj h]
    exact resourceKindAndPresence_error hfound
  · split at h
    · cases h
    · rw [← Except.error.inj h]
      decide

end ObjectDef

end Anjay.Dm
