/-
  File:      Anjay/Dm/Transaction.lean
  Subject:   Transactions on the data model (`anjay_dm_handlers.c`): the nesting depth, the list of
             included objects, and the handlers called when the outermost transaction ends.

  * `run_extends`: between the outermost begin and finish the list of included objects grows by
    exactly the objects whose begin handler succeeded, also when begin handlers re-enter.
  * `transactionFinish_outermost`: what the outermost finish does to a list of included objects.
  * `transaction_outcome`: the two together, for a whole outermost transaction.
  * `run_depth`: calls in which every begin has its finish leave the depth as it is, at any depth.
-/
import Mathlib.Data.List.Perm.Basic
import Mathlib.Data.List.Nodup
import Mathlib.Data.List.TakeWhile

namespace Anjay.Dm.Transaction

/-! ## 1. The state -/

/-- A `const anjay_dm_object_def_t *const *`: the address of a registered object. -/
abbrev ObjPtr := Nat

/-- An element of `objs_in_transaction`; `addr` stands for the address of the list element. -/
structure Entry where
  addr : Nat
  obj : ObjPtr
  deriving DecidableEq, Repr

/-- A handler that was called, and what it returned. -/
inductive Call
  | transactionBegin (obj : ObjPtr) (result : Int)
  | transactionValidate (obj : ObjPtr) (result : Int)
  | transactionCommit (obj : ObjPtr) (result : Int)
  | transactionRollback (obj : ObjPtr) (result : Int)
  deriving DecidableEq, Repr

/-- `anjay->transaction_state`, the next free address for a list element, and the calls so far. -/
structure State where
  depth : Nat
  objsInTransaction : List Entry
  nextEntry : Nat
  calls : List Call
  deriving DecidableEq, Repr

/-- What the handlers of each object return when the outermost transaction ends. -/
structure EndHandlers where
  validate : ObjPtr → Int
  commit : ObjPtr → Int
  rollback : ObjPtr → Int

namespace State

def log (st : State) (c : Call) : State := { st with calls := st.calls ++ [c] }

/-- No transaction is open. -/
def Idle (st : State) : Prop := st.depth = 0 ∧ st.objsInTransaction = []

instance (st : State) : Decidable st.Idle := inferInstanceAs (Decidable (_ ∧ _))

def initial : State := ⟨0, [], 0, []⟩

end State

/-! ## 2. The functions -/

/-- `_anjay_dm_transaction_begin`, without its assertion that `depth` stays below `MAX_SANE_TRANSACTION_DEPTH`, which
    is 64: a client that nests deeper stops there, and all depths are covered here. -/
def transactionBegin (st : State) : State := { st with depth := st.depth + 1 }

/-- `AVS_LIST_ADVANCE_PTR` until the element is found, then `AVS_LIST_DELETE`; `none` when the end of
    the list is run over. -/
def deleteEntry : List Entry → Nat → Option (List Entry)
  | [], _ => none
  | e :: es, addr => if e.addr = addr then some es else (deleteEntry es addr).map (e :: ·)

/-- `deleteEntry` from the link `it`: the list head, or the `next` field of an element. The element
    that holds the link has to be in the list still. -/
def deleteFromLink : List Entry → Option Nat → Nat → Option (List Entry)
  | es, none, addr => deleteEntry es addr
  | [], some _, _ => none
  | e :: es, some p, addr =>
      if e.addr = p then (deleteEntry es addr).map (e :: ·)
      else (deleteFromLink es (some p) addr).map (e :: ·)

/-- `_anjay_dm_transaction_include_object`; `begin` is the call of the begin handler. -/
def includeObject (obj : ObjPtr) (allocated : Bool) (begin : State → Option (Int × State))
    (st : State) : Option (Int × State) :=
  let before := st.objsInTransaction.takeWhile fun e => decide (e.obj < obj)
  let after := st.objsInTransaction.dropWhile fun e => decide (e.obj < obj)
  if after.head?.map Entry.obj = some obj then some (0, st)
  else if !allocated then some (-1, st)
  else
    let newEntry : Entry := ⟨st.nextEntry, obj⟩
    match begin { st with objsInTransaction := before ++ newEntry :: after
                          nextEntry := st.nextEntry + 1 } with
    | none => none
    | some (result, st) =>
        let st := st.log (.transactionBegin obj result)
        if result ≠ 0 then
          -- the begin handler may have added entries between the link and the new one
          (deleteFromLink st.objsInTransaction (before.getLast?.map Entry.addr) newEntry.addr).map
            fun es => (result, { st with objsInTransaction := es })
        else some (0, st)

/-- `commit_or_rollback_object`. -/
def commitOrRollbackObject (h : EndHandlers) (obj : ObjPtr) (predicate : Int) (st : State) :
    Int × State :=
  if predicate ≠ 0 then
    let result := h.rollback obj
    (if result ≠ 0 then result else predicate, st.log (.transactionRollback obj result))
  else
    let result := h.commit obj
    (if result ≠ 0 then result else predicate, st.log (.transactionCommit obj result))

/-- The loop of `_anjay_dm_transaction_validate`. -/
def validateLoop (h : EndHandlers) : List Entry → State → Int × State
  | [], st => (0, st)
  | e :: es, st =>
      let result := h.validate e.obj
      let st := st.log (.transactionValidate e.obj result)
      if result ≠ 0 then (result, st) else validateLoop h es st

/-- `_anjay_dm_transaction_validate`. -/
def transactionValidate (h : EndHandlers) (st : State) : Int × State :=
  validateLoop h st.objsInTransaction st

/-- The `AVS_LIST_CLEAR` loop of `_anjay_dm_transaction_finish_without_validation`. -/
def clearLoop (h : EndHandlers) (result : Int) : List Entry → Int → State → Int × State
  | [], finalResult, st => (finalResult, { st with objsInTransaction := [] })
  | e :: es, finalResult, st =>
      let (commitResult, st) := commitOrRollbackObject h e.obj result st
      clearLoop h result es
        (if finalResult = 0 ∧ commitResult ≠ 0 then commitResult else finalResult)
        { st with objsInTransaction := es }

/-- `_anjay_dm_transaction_finish_without_validation`. -/
def transactionFinishWithoutValidation (h : EndHandlers) (result : Int) (st : State) : Int × State :=
  let st := { st with depth := st.depth - 1 }
  if st.depth ≠ 0 then (result, st) else clearLoop h result st.objsInTransaction result st

/-- `_anjay_dm_transaction_finish`. -/
def transactionFinish (h : EndHandlers) (result : Int) (st : State) : Int × State :=
  if result = 0 ∧ st.depth = 1 then
    let (result, st) := transactionValidate h st
    transactionFinishWithoutValidation h result st
  else transactionFinishWithoutValidation h result st

/-! ## 3. Sequences of calls -/

/-- A call of one of the three functions. What a begin handler does when it is called stands in the
    call that includes its object: the calls it makes itself, and the code it returns. -/
inductive Action
  | begin
  | includeObject (obj : ObjPtr) (allocated : Bool) (handler : List Action) (ret : Int)
  | finish (result : Int) (handlers : EndHandlers)

mutual

def Action.step : Action → State → Option State
  | .begin, st => some (transactionBegin st)
  | .includeObject obj allocated handler ret, st =>
      (Transaction.includeObject obj allocated (fun st => (run handler st).map fun st => (ret, st)) st).map
        Prod.snd
  | .finish result handlers, st => some (transactionFinish handlers result st).2

/-- One call after the other. -/
def run : List Action → State → Option State
  | [], st => some st
  | a :: as, st => (a.step st).bind (run as)

end

mutual

def Action.depthAfter : Action → Nat → Option Nat
  | .begin, depth => some (depth + 1)
  | .includeObject _ _ handler _, depth => if depthAfter handler 0 = some 0 then some depth else none
  | .finish _ _, 0 => none
  | .finish _ _, depth + 1 => some depth

/-- The number of transactions left open by the calls; `none` when a finish has no begin of its own,
    or a begin handler returns with one of its transactions open. -/
def depthAfter : List Action → Nat → Option Nat
  | [], depth => some depth
  | a :: as, depth => (a.depthAfter depth).bind (depthAfter as)

end

/-- Every begin has its finish. -/
def Balanced (acts : List Action) : Prop := depthAfter acts 0 = some 0

instance (acts : List Action) : Decidable (Balanced acts) := inferInstanceAs (Decidable (_ = _))

/-! ## 4. The list of included objects -/

namespace Call

def obj : Call → ObjPtr
  | transactionBegin obj _ | transactionValidate obj _ | transactionCommit obj _
  | transactionRollback obj _ => obj

def result : Call → Int
  | transactionBegin _ r | transactionValidate _ r | transactionCommit _ r
  | transactionRollback _ r => r

def isBegin : Call → Bool
  | transactionBegin _ _ => true
  | _ => false

def isValidate : Call → Bool
  | transactionValidate _ _ => true
  | _ => false

end Call

/-- The objects whose begin handler returned success. -/
def begun (calls : List Call) : List ObjPtr :=
  (calls.filter fun c => c.isBegin && c.result == 0).map Call.obj

theorem mem_begun {calls : List Call} (hb : ∀ c ∈ calls, c.isBegin = true) (o : ObjPtr) :
    o ∈ begun calls ↔ .transactionBegin o 0 ∈ calls := by
  constructor
  · intro h
    obtain ⟨c, hc, ho⟩ := List.mem_map.mp h
    obtain ⟨hmem, hcond⟩ := List.mem_filter.mp hc
    cases c with
    | transactionBegin obj r =>
        have hr : r = 0 := by simpa [Call.isBegin, Call.result] using hcond
        subst hr
        cases ho
        exact hmem
    | transactionValidate obj r | transactionCommit obj r | transactionRollback obj r =>
        exact absurd (hb _ hmem) Bool.false_ne_true
  · intro h
    exact List.mem_map.mpr ⟨_, List.mem_filter.mpr ⟨h, rfl⟩, rfl⟩

/-- What holds of the list at any time: it is sorted by the address of the object, and no two
    elements stand at the same address. -/
structure Sound (st : State) : Prop where
  sorted : st.objsInTransaction.Pairwise fun a b => a.obj < b.obj
  addrs : (st.objsInTransaction.map Entry.addr).Nodup
  fresh : ∀ e ∈ st.objsInTransaction, e.addr < st.nextEntry

theorem Sound.objs_nodup {st : State} (h : Sound st) : (st.objsInTransaction.map Entry.obj).Nodup :=
  List.pairwise_map.mpr (h.sorted.imp fun hlt => Nat.ne_of_lt hlt)

theorem Sound.sublist {st st' : State} (h : Sound st)
    (hsub : st'.objsInTransaction.Sublist st.objsInTransaction) (hnext : st.nextEntry ≤ st'.nextEntry) :
    Sound st' :=
  ⟨h.sorted.sublist hsub, h.addrs.sublist (hsub.map _),
    fun e he => Nat.lt_of_lt_of_le (h.fresh e (hsub.subset he)) hnext⟩

theorem deleteEntry_eq : ∀ (es : List Entry) (addr : Nat), addr ∈ es.map Entry.addr →
    deleteEntry es addr = some (es.eraseP fun e => decide (e.addr = addr))
  | [], _, h => absurd h List.not_mem_nil
  | e :: es, addr, h => by
      rw [deleteEntry, List.eraseP_cons]
      by_cases he : e.addr = addr
      · simp [he]
      · have hmem : addr ∈ es.map Entry.addr := (List.mem_cons.mp h).resolve_left fun h => he h.symm
        simp [he, deleteEntry_eq es addr hmem]

theorem deleteFromLink_none (es : List Entry) (addr : Nat) :
    deleteFromLink es none addr = deleteEntry es addr := by
  cases es <;> rfl

/-- The walk from a link finds an element behind it, wherever the link stands by now. -/
theorem deleteFromLink_eq {before after : List Entry} {e : Entry} : ∀ (es : List Entry),
    (before ++ e :: after).Sublist es → (es.map Entry.addr).Nodup →
    deleteFromLink es (before.getLast?.map Entry.addr) e.addr =
      some (es.eraseP fun x => decide (x.addr = e.addr)) := by
  intro es hsub hnodup
  have hmem : ∀ {l : List Entry}, (e :: after).Sublist l → e.addr ∈ l.map Entry.addr := fun h =>
    List.mem_map_of_mem (h.subset List.mem_cons_self)
  cases hlast : before.getLast? with
  | none =>
      rw [List.getLast?_eq_none_iff] at hlast
      subst hlast
      rw [Option.map_none, deleteFromLink_none]
      exact deleteEntry_eq es e.addr (hmem hsub)
  | some p =>
      obtain ⟨init, rfl⟩ := List.getLast?_eq_some_iff.mp hlast
      have hpe : (p :: e :: after).Sublist es :=
        (List.sublist_append_right init _).trans (by simpa using hsub)
      -- the elements before the one that holds the link are passed
      clear hsub hlast
      induction es with
      | nil => exact absurd (List.sublist_nil.mp hpe) (List.cons_ne_nil _ _)
      | cons x xs ih =>
          obtain ⟨hx, hxs⟩ := List.nodup_cons.mp hnodup
          have hbehind : x.addr = p.addr → (e :: after).Sublist xs := by
            intro hxp
            cases hpe with
            | cons _ h =>
                exact absurd (hxp ▸ List.mem_map_of_mem (h.subset List.mem_cons_self)) hx
            | cons_cons _ h => exact h
          have hne : decide (x.addr = e.addr) = false := by
            refine decide_eq_false fun hxe => ?_
            cases hpe with
            | cons _ h =>
                exact hx (hxe ▸ hmem (List.sublist_of_cons_sublist h))
            | cons_cons _ h => exact hx (hxe ▸ hmem h)
          rw [Option.map_some, deleteFromLink, List.eraseP_cons]
          by_cases hxp : x.addr = p.addr
          · rw [if_pos hxp, deleteEntry_eq xs e.addr (hmem (hbehind hxp))]
            simp [hne]
          · have hrest : (p :: e :: after).Sublist xs := by
              cases hpe with
              | cons _ h => exact h
              | cons_cons _ h => exact absurd rfl hxp
            rw [if_neg hxp]
            have h := ih hxs hrest
            rw [Option.map_some] at h
            simp [hne, h]

/-- What calls of the three functions do to the state as long as the outermost transaction is open:
    the entries stay, and the new ones are of the objects whose begin handler succeeded. -/
structure Extends (st st' : State) (new : List Call) : Prop where
  kept : st.objsInTransaction.Sublist st'.objsInTransaction
  sound : Sound st'
  next : st.nextEntry ≤ st'.nextEntry
  calls : st'.calls = st.calls ++ new
  begins : ∀ c ∈ new, c.isBegin = true
  objs : (st'.objsInTransaction.map Entry.obj).Perm (st.objsInTransaction.map Entry.obj ++ begun new)

theorem Extends.refl {st : State} (h : Sound st) : Extends st st [] :=
  ⟨List.Sublist.refl _, h, Nat.le_refl _, (List.append_nil _).symm, fun _ hc => absurd hc List.not_mem_nil,
    by simp [begun]⟩

theorem begun_append (xs ys : List Call) : begun (xs ++ ys) = begun xs ++ begun ys := by
  simp [begun]

theorem Extends.trans {st st1 st2 : State} {new1 new2 : List Call} (h1 : Extends st st1 new1)
    (h2 : Extends st1 st2 new2) : Extends st st2 (new1 ++ new2) where
  kept := h1.kept.trans h2.kept
  sound := h2.sound
  next := Nat.le_trans h1.next h2.next
  calls := by rw [h2.calls, h1.calls, List.append_assoc]
  begins := fun c hc => (List.mem_append.mp hc).elim (h1.begins c) (h2.begins c)
  objs := by
    rw [begun_append, ← List.append_assoc]
    exact h2.objs.trans (h1.objs.append_right _)

/-! ## 5. While the outermost transaction is open -/

/-- The entry of an object, put where the search for the object stops. -/
def insertEntry (obj : ObjPtr) (st : State) : State :=
  { st with
    objsInTransaction := st.objsInTransaction.takeWhile (fun e => decide (e.obj < obj)) ++
      ⟨st.nextEntry, obj⟩ :: st.objsInTransaction.dropWhile fun e => decide (e.obj < obj)
    nextEntry := st.nextEntry + 1 }

theorem insertEntry_perm (obj : ObjPtr) (st : State) :
    (insertEntry obj st).objsInTransaction.Perm (⟨st.nextEntry, obj⟩ :: st.objsInTransaction) := by
  refine List.perm_middle.trans (List.Perm.cons _ ?_)
  rw [List.takeWhile_append_dropWhile]

theorem insertEntry_sound {obj : ObjPtr} {st : State} (h : Sound st)
    (habsent : (st.objsInTransaction.dropWhile fun e => decide (e.obj < obj)).head?.map Entry.obj ≠
      some obj) : Sound (insertEntry obj st) := by
  have hsplit := List.takeWhile_append_dropWhile (p := fun e => decide (e.obj < obj))
    (l := st.objsInTransaction)
  have hbefore : ∀ e ∈ st.objsInTransaction.takeWhile fun e => decide (e.obj < obj), e.obj < obj :=
    fun e he => by
      have h := List.mem_takeWhile_imp he
      exact of_decide_eq_true h
  -- the first entry behind the place is not smaller and not the object itself
  have hafter : ∀ e ∈ st.objsInTransaction.dropWhile fun e => decide (e.obj < obj), obj < e.obj := by
    have hsorted := h.sorted.sublist (List.dropWhile_sublist fun e => decide (e.obj < obj))
    have hhead := List.head?_dropWhile_not (fun e : Entry => decide (e.obj < obj)) st.objsInTransaction
    cases hd : st.objsInTransaction.dropWhile fun e => decide (e.obj < obj) with
    | nil => exact fun _ he => absurd he List.not_mem_nil
    | cons x xs =>
        rw [hd] at hsorted hhead habsent
        have hx : obj < x.obj := by
          have hle : obj ≤ x.obj := by simpa using hhead
          exact Nat.lt_of_le_of_ne hle fun heq => habsent (by simp [heq])
        intro e he
        rcases List.mem_cons.mp he with rfl | he
        · exact hx
        · exact Nat.lt_trans hx ((List.pairwise_cons.mp hsorted).1 e he)
  refine ⟨?_, ?_, ?_⟩
  · have hs := h.sorted
    rw [← hsplit, List.pairwise_append] at hs
    refine List.pairwise_append.mpr ⟨hs.1, List.pairwise_cons.mpr ⟨hafter, hs.2.1⟩, ?_⟩
    intro a ha b hb
    rcases List.mem_cons.mp hb with rfl | hb
    · exact hbefore a ha
    · exact hs.2.2 a ha b hb
  · refine ((insertEntry_perm obj st).map Entry.addr).nodup_iff.mpr (List.nodup_cons.mpr ⟨?_, h.addrs⟩)
    intro hmem
    obtain ⟨e, he, heq⟩ := List.mem_map.mp hmem
    exact Nat.lt_irrefl _ (heq ▸ h.fresh e he)
  · intro e he
    rcases List.mem_cons.mp ((insertEntry_perm obj st).mem_iff.mp he) with rfl | he
    · exact Nat.lt_succ_self _
    · exact Nat.lt_succ_of_lt (h.fresh e he)

theorem insertEntry_kept (obj : ObjPtr) (st : State) :
    st.objsInTransaction.Sublist (insertEntry obj st).objsInTransaction := by
  have h := List.Sublist.append_left (List.sublist_cons_self (⟨st.nextEntry, obj⟩ : Entry)
    (st.objsInTransaction.dropWhile fun e => decide (e.obj < obj)))
    (st.objsInTransaction.takeWhile fun e => decide (e.obj < obj))
  rwa [List.takeWhile_append_dropWhile] at h

theorem insertEntry_erase {st : State} (h : Sound st) (obj : ObjPtr) :
    (insertEntry obj st).objsInTransaction.eraseP (fun x => decide (x.addr = st.nextEntry)) =
      st.objsInTransaction := by
  have hold : ∀ e ∈ st.objsInTransaction.takeWhile (fun e => decide (e.obj < obj)),
      ¬decide (e.addr = st.nextEntry) = true := fun e he heq =>
    Nat.ne_of_lt (h.fresh e ((List.takeWhile_sublist _).subset he)) (of_decide_eq_true heq)
  rw [insertEntry, List.eraseP_append_right _ hold, List.eraseP_cons_of_pos (by simp),
    List.takeWhile_append_dropWhile]

/-- Deleting an entry takes that entry out of the list and nothing else. -/
theorem Sound.eraseP_perm {st : State} (h : Sound st) {e : Entry} (he : e ∈ st.objsInTransaction) :
    st.objsInTransaction.Perm
      (e :: st.objsInTransaction.eraseP fun x => decide (x.addr = e.addr)) := by
  obtain ⟨b, l1, l2, -, hb, hsplit, herase⟩ :=
    List.exists_of_eraseP (p := fun x : Entry => decide (x.addr = e.addr)) he (by simp)
  have hbmem : b ∈ st.objsInTransaction := by rw [hsplit]; simp
  have hbe : b = e := List.inj_on_of_nodup_map h.addrs hbmem he (of_decide_eq_true hb)
  rw [herase, hsplit, ← hbe]
  exact List.perm_middle

/-- **An include keeps the list right**, whatever the begin handler includes meanwhile. -/
theorem includeObject_extends {obj : ObjPtr} {allocated : Bool} {ret : Int}
    {handler : State → Option State} {st : State} (h : Sound st)
    (hhandler : ∀ st1, Sound st1 → st1.depth = st.depth →
      ∃ st2 new, handler st1 = some st2 ∧ Extends st1 st2 new ∧ st2.depth = st1.depth) :
    ∃ r st' new, includeObject obj allocated (fun st => (handler st).map fun st => (ret, st)) st =
      some (r, st') ∧ Extends st st' new ∧ st'.depth = st.depth := by
  unfold includeObject
  dsimp only
  by_cases habsent : (st.objsInTransaction.dropWhile fun e => decide (e.obj < obj)).head?.map Entry.obj
      = some obj
  · rw [if_pos habsent]
    exact ⟨0, st, [], rfl, Extends.refl h, rfl⟩
  · rw [if_neg habsent]
    cases allocated with
    | false => exact ⟨-1, st, [], rfl, Extends.refl h, rfl⟩
    | true =>
        have hsound := insertEntry_sound h habsent
        obtain ⟨st2, new, hrun, hext, hdepth⟩ := hhandler (insertEntry obj st) hsound rfl
        rw [insertEntry] at hrun
        simp only [Bool.not_true, Bool.false_eq_true, if_false, hrun, Option.map_some]
        have hobjs : (st2.objsInTransaction.map Entry.obj).Perm
            (obj :: (st.objsInTransaction.map Entry.obj ++ begun new)) :=
          hext.objs.trans (((insertEntry_perm obj st).map Entry.obj).append_right _)
        have hnext : st.nextEntry ≤ st2.nextEntry := Nat.le_trans (Nat.le_succ _) hext.next
        have hcalls : st2.calls ++ [.transactionBegin obj ret]
            = st.calls ++ (new ++ [.transactionBegin obj ret]) := by
          rw [hext.calls, List.append_assoc]
          rfl
        have hbegins : ∀ c ∈ new ++ [.transactionBegin obj ret], c.isBegin = true := fun c hc =>
          (List.mem_append.mp hc).elim (hext.begins c) fun hc => by rw [List.mem_singleton.mp hc]; rfl
        by_cases hret : ret = 0
        · subst hret
          refine ⟨0, st2.log (.transactionBegin obj 0), new ++ [.transactionBegin obj 0], ?_, ?_, hdepth⟩
          · simp
          · refine ⟨(insertEntry_kept obj st).trans hext.kept, ⟨hext.sound.sorted, hext.sound.addrs,
              hext.sound.fresh⟩, hnext, hcalls, hbegins, hobjs.trans ?_⟩
            rw [begun_append, ← List.append_assoc]
            exact (List.perm_append_singleton obj _).symm
        · have hdel := deleteFromLink_eq st2.objsInTransaction hext.kept hext.sound.addrs
          let es := st2.objsInTransaction.eraseP fun x => decide (x.addr = st.nextEntry)
          have herased : st2.objsInTransaction.Perm (⟨st.nextEntry, obj⟩ :: es) := by
            have hmem : ⟨st.nextEntry, obj⟩ ∈ st2.objsInTransaction :=
              hext.kept.subset ((insertEntry_perm obj st).mem_iff.mpr List.mem_cons_self)
            exact hext.sound.eraseP_perm hmem
          refine ⟨ret, { st2.log (.transactionBegin obj ret) with objsInTransaction := es },
            new ++ [.transactionBegin obj ret], ?_, ?_, hdepth⟩
          · simp only [ne_eq, hret, not_false_eq_true, if_true, State.log, hdel, Option.map_some]
            rfl
          · refine ⟨?_, ?_, hnext, hcalls, hbegins, ?_⟩
            · have hkept := hext.kept.eraseP (p := fun x => decide (x.addr = st.nextEntry))
              rwa [insertEntry_erase h] at hkept
            · exact hext.sound.sublist List.eraseP_sublist (Nat.le_refl _)
            · have hbegun : begun (new ++ [.transactionBegin obj ret]) = begun new := by
                rw [begun_append]
                simp [begun, Call.isBegin, Call.result, hret]
              rw [hbegun]
              exact ((herased.map Entry.obj).symm.trans hobjs).cons_inv

theorem transactionFinish_nested {st : State} (hdepth : st.depth ≠ 0 ∧ st.depth ≠ 1) (h : EndHandlers)
    (result : Int) : transactionFinish h result st = (result, { st with depth := st.depth - 1 }) := by
  have hne : st.depth - 1 ≠ 0 := by omega
  rw [transactionFinish, if_neg fun hc => hdepth.2 hc.2, transactionFinishWithoutValidation]
  exact if_pos hne

mutual

theorem step_extends : ∀ (a : Action) {depth depth' : Nat}, a.depthAfter depth = some depth' →
    ∀ {st : State}, Sound st → depth < st.depth → ∃ st' new, a.step st = some st' ∧
      Extends st st' new ∧ st'.depth + depth = st.depth + depth'
  | .begin, depth, depth', hd, st, h, _ => by
      cases hd
      refine ⟨transactionBegin st, [], rfl, ?_, ?_⟩
      · exact ⟨List.Sublist.refl _, ⟨h.sorted, h.addrs, h.fresh⟩, Nat.le_refl _,
          (List.append_nil _).symm, fun _ hc => absurd hc List.not_mem_nil,
          by simp [begun, transactionBegin]⟩
      · show st.depth + 1 + depth = st.depth + (depth + 1)
        omega
  | .includeObject obj allocated handler ret, depth, depth', hd, st, h, hlt => by
      rw [Action.depthAfter] at hd
      split at hd
      · next hbal =>
          cases hd
          obtain ⟨r, st', new, hrun, hext, hdepth⟩ := @includeObject_extends obj allocated ret
            (run handler) st h fun st1 h1 hd1 => by
              obtain ⟨st2, new, hrun, hext, hdepth⟩ := run_extends handler hbal h1 (by omega)
              exact ⟨st2, new, hrun, hext, hdepth⟩
          exact ⟨st', new, by rw [Action.step, hrun]; rfl, hext, by rw [hdepth]⟩
      · cases hd
  | .finish _ _, 0, _, hd, _, _, _ => by cases hd
  | .finish result handlers, depth + 1, depth', hd, st, h, hlt => by
      cases hd
      rw [Action.step, transactionFinish_nested (by omega)]
      refine ⟨_, [], rfl, ?_, by show st.depth - 1 + (depth + 1) = st.depth + depth; omega⟩
      exact ⟨List.Sublist.refl _, ⟨h.sorted, h.addrs, h.fresh⟩, Nat.le_refl _,
        (List.append_nil _).symm, fun _ hc => absurd hc List.not_mem_nil, by simp [begun]⟩

/-- **The run of a sequence of calls inside the outermost transaction**: it never runs over the end of
    the list, and the entries it adds are of the objects whose begin handler succeeded. -/
theorem run_extends : ∀ (acts : List Action) {depth depth' : Nat}, depthAfter acts depth = some depth' →
    ∀ {st : State}, Sound st → depth < st.depth → ∃ st' new, run acts st = some st' ∧
      Extends st st' new ∧ st'.depth + depth = st.depth + depth'
  | [], depth, depth', hd, st, h, _ => by
      cases hd
      exact ⟨st, [], rfl, Extends.refl h, rfl⟩
  | a :: as, depth, depth', hd, st, h, hlt => by
      rw [depthAfter] at hd
      obtain ⟨depth1, ha, has⟩ := Option.bind_eq_some_iff.mp hd
      obtain ⟨st1, new1, hrun1, hext1, hdepth1⟩ := step_extends a ha h hlt
      obtain ⟨st2, new2, hrun2, hext2, hdepth2⟩ := run_extends as has hext1.sound (by omega)
      refine ⟨st2, new1 ++ new2, ?_, hext1.trans hext2, by omega⟩
      rw [run, hrun1, Option.bind_some, hrun2]

end

/-! ## 6. The outermost finish -/

/-- The handler called for an object when the outermost transaction ends with `result`. -/
def endCall (h : EndHandlers) (result : Int) (obj : ObjPtr) : Call :=
  if result = 0 then .transactionCommit obj (h.commit obj) else .transactionRollback obj (h.rollback obj)

theorem commitOrRollbackObject_eq (h : EndHandlers) (obj : ObjPtr) (result : Int) (st : State) :
    ∃ r, commitOrRollbackObject h obj result st = (r, st.log (endCall h result obj)) ∧
      (r = 0 ↔ result = 0 ∧ (endCall h result obj).result = 0) := by
  rw [commitOrRollbackObject, endCall]
  by_cases hr : result = 0
  · subst hr
    refine ⟨_, rfl, ?_⟩
    simp only [Call.result, if_true, true_and]
    split <;> simp_all
  · rw [if_pos hr, if_neg hr]
    refine ⟨_, rfl, ?_⟩
    split <;> simp_all

/-- A failing handler does not keep the others from being called. -/
theorem clearLoop_eq (h : EndHandlers) (result : Int) : ∀ (es : List Entry) (finalResult : Int)
    (st : State), ∃ ret, clearLoop h result es finalResult st =
      (ret, { st with objsInTransaction := []
                      calls := st.calls ++ (es.map Entry.obj).map (endCall h result) }) ∧
      (ret = 0 ↔ finalResult = 0 ∧
        ∀ e ∈ es, result = 0 ∧ (endCall h result e.obj).result = 0)
  | [], finalResult, st => by
      refine ⟨finalResult, ?_, by simp⟩
      simp [clearLoop]
  | e :: es, finalResult, st => by
      obtain ⟨r, hr, hr0⟩ := commitOrRollbackObject_eq h e.obj result st
      obtain ⟨ret, hloop, hret⟩ := clearLoop_eq h result es
        (if finalResult = 0 ∧ r ≠ 0 then r else finalResult)
        { st.log (endCall h result e.obj) with objsInTransaction := es }
      refine ⟨ret, ?_, ?_⟩
      · rw [clearLoop, hr]
        dsimp only
        rw [hloop]
        simp [State.log]
      · rw [hret, List.forall_mem_cons, ← hr0, ← and_assoc]
        refine and_congr_left fun _ => ?_
        by_cases hf : finalResult = 0 <;> by_cases hz : r = 0 <;> simp [hf, hz]

theorem validateLoop_eq (h : EndHandlers) : ∀ (es : List Entry) (st : State), ∃ ret checked,
    validateLoop h es st = (ret, { st with calls := st.calls ++ checked }) ∧
      (∀ c ∈ checked, c.isValidate = true) ∧ (ret = 0 ↔ ∀ e ∈ es, h.validate e.obj = 0) ∧
      (ret = 0 ↔ ∀ c ∈ checked, c.result = 0)
  | [], st => ⟨0, [], by simp [validateLoop], by simp, by simp, by simp⟩
  | e :: es, st => by
      by_cases hv : h.validate e.obj = 0
      · obtain ⟨ret, checked, hloop, hval, hret, hres⟩ :=
          validateLoop_eq h es (st.log (.transactionValidate e.obj (h.validate e.obj)))
        refine ⟨ret, .transactionValidate e.obj (h.validate e.obj) :: checked, ?_, ?_, ?_, ?_⟩
        · rw [validateLoop, if_neg (not_not.mpr hv), hloop]
          simp [State.log]
        · exact List.forall_mem_cons.mpr ⟨rfl, hval⟩
        · rw [hret, List.forall_mem_cons]
          exact (and_iff_right hv).symm
        · rw [hres, List.forall_mem_cons]
          exact (and_iff_right hv).symm
      · refine ⟨h.validate e.obj, [.transactionValidate e.obj (h.validate e.obj)], ?_, ?_, ?_, ?_⟩
        · rw [validateLoop, if_pos hv]
          rfl
        · exact List.forall_mem_cons.mpr ⟨rfl, by simp⟩
        · simp [hv]
        · simp [Call.result]

/-- **The outermost finish**: all included objects get a commit, or all get a rollback. -/
theorem transactionFinish_outermost {st : State} (hdepth : st.depth = 1) (h : EndHandlers)
    (result : Int) :
    let objs := st.objsInTransaction.map Entry.obj
    let final := if result = 0 ∧ ∀ o ∈ objs, h.validate o = 0 then 0 else 1
    ∃ ret st' checked, transactionFinish h result st = (ret, st') ∧ st'.Idle ∧
      st'.calls = st.calls ++ checked ++ objs.map (endCall h final) ∧
      (∀ c ∈ checked, c.isValidate = true) ∧
      (ret = 0 ↔ result = 0 ∧ ∀ c ∈ checked ++ objs.map (endCall h final), c.result = 0) := by
  intro objs final
  have hend : ∀ r : Int, (r = 0 ↔ final = 0) → endCall h r = endCall h final := by
    intro r hr
    funext o
    by_cases hz : r = 0
    · rw [endCall, endCall, if_pos hz, if_pos (hr.mp hz)]
    · rw [endCall, endCall, if_neg hz, if_neg fun hf => hz (hr.mpr hf)]
  by_cases hr : result = 0
  · subst hr
    obtain ⟨v, checked, hval, hcheck, hall, hres⟩ := validateLoop_eq h st.objsInTransaction st
    obtain ⟨ret, hclear, hret⟩ := clearLoop_eq h v st.objsInTransaction v
      { st with calls := st.calls ++ checked, depth := st.depth - 1 }
    have hv : v = 0 ↔ final = 0 := by
      have : (∀ o ∈ objs, h.validate o = 0) ↔ v = 0 := by rw [hall]; exact List.forall_mem_map
      by_cases hz : v = 0 <;> simp [final, this, hz]
    refine ⟨ret, { st with calls := st.calls ++ checked ++ objs.map (endCall h v), depth := st.depth - 1
                           objsInTransaction := [] }, checked, ?_, ⟨?_, rfl⟩, ?_, hcheck, ?_⟩
    · rw [transactionFinish, if_pos ⟨rfl, hdepth⟩, transactionValidate, hval]
      dsimp only
      rw [transactionFinishWithoutValidation]
      dsimp only
      rw [if_neg (by simp [hdepth]), hclear]
    · simp [hdepth]
    · rw [← hend v hv]
    · rw [hret, ← hend v hv, List.forall_mem_append, ← hres, List.forall_mem_map, List.forall_mem_map]
      by_cases hz : v = 0 <;> simp [hz]
  · obtain ⟨ret, hclear, hret⟩ := clearLoop_eq h result st.objsInTransaction result
      { st with depth := st.depth - 1 }
    have hv : result = 0 ↔ final = 0 := by simp [final, hr]
    refine ⟨ret, { st with calls := st.calls ++ objs.map (endCall h result), depth := st.depth - 1
                           objsInTransaction := [] }, [], ?_, ⟨?_, rfl⟩, ?_, by simp, ?_⟩
    · rw [transactionFinish, if_neg fun hc => hr hc.1, transactionFinishWithoutValidation]
      dsimp only
      rw [if_neg (by simp [hdepth]), hclear]
    · simp [hdepth]
    · rw [← hend result hv, List.append_nil]
    · rw [hret]
      simp [hr]

/-- What a whole outermost transaction does: `begins` are the calls up to the outermost finish,
    `validations` and `ends` the ones of that finish, and `objs` are the objects included. -/
structure Outcome (h : EndHandlers) (result ret : Int) (objs : List ObjPtr)
    (begins validations ends : List Call) : Prop where
  begins_only : ∀ c ∈ begins, c.isBegin = true
  validations_only : ∀ c ∈ validations, c.isValidate = true
  objs_nodup : objs.Nodup
  mem_objs : ∀ o, o ∈ objs ↔ .transactionBegin o 0 ∈ begins
  ends_eq : ends = objs.map fun o =>
    if result = 0 ∧ ∀ o ∈ objs, h.validate o = 0 then .transactionCommit o (h.commit o)
    else .transactionRollback o (h.rollback o)
  ret_eq_zero : ret = 0 ↔ result = 0 ∧ ∀ c ∈ validations ++ ends, c.result = 0

/-- **A whole outermost transaction**, from any state in which none is open: every object whose begin
    handler succeeded gets one commit or one rollback, at the outermost finish. -/
theorem transaction_outcome {st : State} (hidle : st.Idle) {body : List Action} (hb : Balanced body)
    (h : EndHandlers) (result : Int) :
    ∃ st1 st' ret objs begins validations ends, run (.begin :: body) st = some st1 ∧
      transactionFinish h result st1 = (ret, st') ∧ st'.Idle ∧
      st'.calls = st.calls ++ begins ++ validations ++ ends ∧
      Outcome h result ret objs begins validations ends := by
  have hsound : Sound (transactionBegin st) := by
    refine ⟨?_, ?_, ?_⟩ <;> simp [transactionBegin, hidle.2]
  have hdepth1 : (transactionBegin st).depth = 1 := by rw [transactionBegin, hidle.1]
  obtain ⟨st1, begins, hrun, hext, hdepth⟩ := run_extends body hb hsound (by omega)
  obtain ⟨ret, st', validations, hfin, hidle', hcalls, hval, hret⟩ :=
    transactionFinish_outermost (by omega : st1.depth = 1) h result
  refine ⟨st1, st', ret, st1.objsInTransaction.map Entry.obj, begins, validations, _, ?_, hfin, hidle', ?_,
    hext.begins, hval, hext.sound.objs_nodup, fun o => ?_, ?_, hret⟩
  · rw [run, Action.step, Option.bind_some, hrun]
  · rw [hcalls, hext.calls]
    rfl
  · rw [← mem_begun hext.begins, hext.objs.mem_iff]
    simp [transactionBegin, hidle.2]
  · refine List.map_congr_left fun o _ => ?_
    rw [endCall]
    split <;> simp_all

/-- The begin handler of the object at 30 includes 10 and 20 and fails, as does the one of 20; then 10
    is included again, and 40: the commit of 10 fails, and 40 is committed all the same. -/
theorem transaction_outcome_reentrant :
    let h : EndHandlers := ⟨fun _ => 0, fun o => if o = 10 then -1 else 0, fun _ => 0⟩
    ∃ st1 st' ret objs begins validations ends,
      run (.begin :: [.includeObject 30 true
          [.includeObject 10 true [] 0, .includeObject 20 true [] (-1)] (-5),
        .includeObject 10 true [] 0, .includeObject 40 true [] 0]) State.initial = some st1 ∧
      transactionFinish h 0 st1 = (ret, st') ∧ st'.Idle ∧
      st'.calls = State.initial.calls ++ begins ++ validations ++ ends ∧
      Outcome h 0 ret objs begins validations ends :=
  transaction_outcome (by decide) (by decide) _ 0

/-! ## 7. The depth -/

theorem validateLoop_depth (h : EndHandlers) (es : List Entry) (st : State) :
    (validateLoop h es st).2.depth = st.depth := by
  obtain ⟨ret, checked, hloop, -⟩ := validateLoop_eq h es st
  rw [hloop]

theorem transactionValidate_depth (h : EndHandlers) (st : State) : (transactionValidate h st).2.depth = st.depth :=
  validateLoop_depth h st.objsInTransaction st

theorem transactionValidate_objs (h : EndHandlers) (st : State) :
    (transactionValidate h st).2.objsInTransaction = st.objsInTransaction := by
  obtain ⟨ret, checked, hloop, -⟩ := validateLoop_eq h st.objsInTransaction st
  rw [transactionValidate, hloop]

/-- A transaction is valid iff every object in it is. -/
theorem transactionValidate_eq_zero_iff (h : EndHandlers) (st : State) :
    (transactionValidate h st).1 = 0 ↔ ∀ e ∈ st.objsInTransaction, h.validate e.obj = 0 := by
  obtain ⟨ret, checked, hloop, -, hret, -⟩ := validateLoop_eq h st.objsInTransaction st
  rw [transactionValidate, hloop]
  exact hret

theorem transactionFinishWithoutValidation_depth (h : EndHandlers) (result : Int) (st : State) :
    (transactionFinishWithoutValidation h result st).2.depth = st.depth - 1 := by
  rw [transactionFinishWithoutValidation]
  dsimp only
  split
  · rfl
  · obtain ⟨ret, hclear, -⟩ := clearLoop_eq h result st.objsInTransaction result { st with depth := st.depth - 1 }
    rw [hclear]

theorem transactionFinish_depth (h : EndHandlers) (result : Int) (st : State) :
    (transactionFinish h result st).2.depth = st.depth - 1 := by
  rw [transactionFinish]
  split
  · show (transactionFinishWithoutValidation h _ (transactionValidate h st).2).2.depth = st.depth - 1
    rw [transactionFinishWithoutValidation_depth, transactionValidate_depth]
  · exact transactionFinishWithoutValidation_depth h result st

/-- The outermost commit succeeds iff every object in the transaction commits. -/
theorem transactionFinishWithoutValidation_eq_zero_iff {st : State} (hdepth : st.depth = 1) (h : EndHandlers) :
    (transactionFinishWithoutValidation h 0 st).1 = 0 ↔ ∀ e ∈ st.objsInTransaction, h.commit e.obj = 0 := by
  obtain ⟨ret, hclear, hret⟩ := clearLoop_eq h 0 st.objsInTransaction 0 { st with depth := st.depth - 1 }
  rw [transactionFinishWithoutValidation]
  dsimp only
  rw [if_neg (by simp [hdepth]), hclear]
  refine hret.trans ((and_iff_right rfl).trans ?_)
  exact forall₂_congr fun e _ => (and_iff_right rfl).trans Iff.rfl

theorem includeObject_depth {obj : ObjPtr} {allocated : Bool} {handler : State → Option (Int × State)}
    (hhandler : ∀ st1 r st2, handler st1 = some (r, st2) → st2.depth = st1.depth) {st st' : State} {r : Int}
    (h : includeObject obj allocated handler st = some (r, st')) : st'.depth = st.depth := by
  unfold includeObject at h
  dsimp only at h
  split at h
  · cases h
    rfl
  split at h
  · cases h
    rfl
  split at h
  · cases h
  next r1 st1 hrun =>
    have hdepth : st1.depth = (insertEntry obj st).depth := hhandler (insertEntry obj st) r1 st1 hrun
    split at h
    · obtain ⟨es, -, hes⟩ := Option.map_eq_some_iff.mp h
      cases hes
      exact hdepth
    · cases h
      exact hdepth

mutual

theorem step_depth : ∀ (a : Action) {depth depth' : Nat}, a.depthAfter depth = some depth' →
    ∀ {st st' : State}, depth ≤ st.depth → a.step st = some st' → st'.depth + depth = st.depth + depth'
  | .begin, depth, depth', hd, st, st', _, h => by
      cases hd
      cases h
      show st.depth + 1 + depth = st.depth + (depth + 1)
      omega
  | .includeObject obj allocated handler ret, depth, depth', hd, st, st', _, h => by
      rw [Action.depthAfter] at hd
      split at hd
      · next hbal =>
          cases hd
          rw [Action.step] at h
          obtain ⟨⟨r, st1⟩, hrun, rfl⟩ := Option.map_eq_some_iff.mp h
          have hdepth : st1.depth = st.depth := includeObject_depth (fun st1 r st2 hst => by
            obtain ⟨st3, hst3, heq⟩ := Option.map_eq_some_iff.mp hst
            cases heq
            exact run_depth handler hbal (Nat.zero_le _) hst3) hrun
          show st1.depth + depth = st.depth + depth
          rw [hdepth]
      · cases hd
  | .finish _ _, 0, _, hd, _, _, _, _ => by cases hd
  | .finish result handlers, depth + 1, depth', hd, st, st', hle, h => by
      cases hd
      cases h
      rw [transactionFinish_depth]
      omega

/-- **Calls in which every begin has its finish leave the depth as it is.** -/
theorem run_depth : ∀ (acts : List Action) {depth depth' : Nat}, depthAfter acts depth = some depth' →
    ∀ {st st' : State}, depth ≤ st.depth → run acts st = some st' → st'.depth + depth = st.depth + depth'
  | [], depth, depth', hd, st, st', _, h => by
      cases hd
      cases h
      rfl
  | a :: as, depth, depth', hd, st, st', hle, h => by
      rw [depthAfter] at hd
      obtain ⟨depth1, ha, has⟩ := Option.bind_eq_some_iff.mp hd
      rw [run] at h
      obtain ⟨st1, h1, h2⟩ := Option.bind_eq_some_iff.mp h
      have hdepth1 := step_depth a ha hle h1
      have hdepth2 := run_depth as has (by omega) h2
      omega

end

end Anjay.Dm.Transaction
