/-
  File:      Anjay/Dm/WriteCursor.lean
  Subject:   Which entries of a payload for one Object Instance the Write operation delivers.

  * `handled`, `skipped`: the entries of a payload that the two loops write, and those the cursor
    jumps over.
  * `writeInstanceLoop_items`: the loops write exactly the handled entries, in order.
  * `dmWrite_writes_iff`: the handlers get exactly the values of the payload iff everything that is
    jumped over is an empty array of a Resource that is written elsewhere.
-/
import Anjay.Dm.Write

namespace Anjay.Dm

open Tlv

/-! ## 1. Entries of a payload for one Instance -/

/-- What a payload entry under an Object Instance can be. -/
inductive Item
  | single (rid : ValidId) (value : List UInt8)
  | inst (rid riid : ValidId) (value : List UInt8)
  | emptyArray (rid : ValidId)
  deriving DecidableEq, Repr

namespace Item

def rid : Item → ValidId
  | single rid _ | inst rid _ _ | emptyArray rid => rid

/-- The entry treats its Resource as a multiple one. -/
def multiple : Item → Bool
  | single _ _ => false
  | inst _ _ _ | emptyArray _ => true

/-- What the input context hands out for the entry. -/
def leaf (oid iid : Id) : Item → Leaf
  | single rid value => ⟨.resource oid iid rid, false, value⟩
  | inst rid riid value => ⟨.resourceInstance oid iid rid riid, false, value⟩
  | emptyArray rid => ⟨.resource oid iid rid, true, []⟩

/-- The handler call the entry asks for. -/
def call (iid : Id) : Item → Option WriteCall
  | single rid value => some ⟨iid, rid, idInvalid, .ok value⟩
  | inst rid riid value => some ⟨iid, rid, riid, .ok value⟩
  | emptyArray _ => none

/-- The Resource whose Resource Instances the cursor looks for behind this entry. -/
def open? : Item → Option ValidId
  | inst rid _ _ => some rid
  | single _ _ | emptyArray _ => none

theorem call_eq_none {iid : Id} {x : Item} : x.call iid = none ↔ ∃ rid, x = .emptyArray rid := by
  cases x <;> simp [call]

end Item

/-- The entries that are written, from the Resource still open: behind a Resource Instance the path
    of the next entry is fetched, and if it belongs to another Resource that entry is lost. -/
def handledFrom : Option ValidId → List Item → List Item
  | _, [] => []
  | none, x :: xs => x :: handledFrom x.open? xs
  | some r, x :: xs => if x.rid = r then x :: handledFrom x.open? xs else handledFrom none xs

/-- The entries that are lost. -/
def skippedFrom : Option ValidId → List Item → List Item
  | _, [] => []
  | none, x :: xs => skippedFrom x.open? xs
  | some r, x :: xs => if x.rid = r then skippedFrom x.open? xs else x :: skippedFrom none xs

def handled (items : List Item) : List Item := handledFrom none items

def skipped (items : List Item) : List Item := skippedFrom none items

theorem mem_handledFrom_or : ∀ (o : Option ValidId) (items : List Item) (x : Item),
    x ∈ items ↔ x ∈ handledFrom o items ∨ x ∈ skippedFrom o items
  | _, [], _ => by simp [handledFrom, skippedFrom]
  | none, y :: ys, x => by
      rw [handledFrom, skippedFrom, List.mem_cons, List.mem_cons, mem_handledFrom_or y.open? ys x,
        or_assoc]
  | some r, y :: ys, x => by
      rw [handledFrom, skippedFrom]
      by_cases h : y.rid = r
      · rw [if_pos h, if_pos h, List.mem_cons, List.mem_cons, mem_handledFrom_or y.open? ys x,
          or_assoc]
      · rw [if_neg h, if_neg h, List.mem_cons, List.mem_cons, mem_handledFrom_or none ys x,
          or_left_comm]

/-- The handler calls the entries ask for. -/
def calls (iid : Id) (items : List Item) : List WriteCall := items.filterMap (Item.call iid)

theorem calls_append (iid : Id) (xs ys : List Item) :
    calls iid (xs ++ ys) = calls iid xs ++ calls iid ys :=
  List.filterMap_append

theorem calls_cons (iid : Id) (x : Item) (xs : List Item) :
    calls iid (x :: xs) = calls iid [x] ++ calls iid xs :=
  calls_append iid [x] xs

theorem length_calls_cons (iid : Id) (x : Item) (xs : List Item) :
    (calls iid (x :: xs)).length = (calls iid [x]).length + (calls iid xs).length := by
  rw [calls_cons, List.length_append]

/-- What is asked for is called or lost. -/
theorem length_calls (iid : Id) : ∀ (o : Option ValidId) (items : List Item),
    (calls iid items).length
      = (calls iid (handledFrom o items)).length + (calls iid (skippedFrom o items)).length
  | _, [] => by simp [handledFrom, skippedFrom, calls]
  | none, y :: ys => by
      rw [handledFrom, skippedFrom, length_calls_cons, length_calls iid y.open? ys,
        length_calls_cons iid y (handledFrom _ _), Nat.add_assoc]
  | some r, y :: ys => by
      rw [handledFrom, skippedFrom]
      by_cases h : y.rid = r
      · rw [if_pos h, if_pos h, length_calls_cons, length_calls iid y.open? ys,
          length_calls_cons iid y (handledFrom _ _), Nat.add_assoc]
      · rw [if_neg h, if_neg h, length_calls_cons, length_calls iid none ys,
          length_calls_cons iid y (skippedFrom _ _)]
        omega

/-- Without a lost value the calls are those asked for, in order. -/
theorem calls_handledFrom {iid : Id} : ∀ (o : Option ValidId) (items : List Item),
    (∀ x ∈ skippedFrom o items, x.call iid = none) →
      calls iid (handledFrom o items) = calls iid items
  | _, [], _ => by simp [handledFrom]
  | none, y :: ys, h => by
      rw [skippedFrom] at h
      rw [handledFrom, calls_cons, calls_handledFrom y.open? ys h, ← calls_cons]
  | some r, y :: ys, h => by
      rw [skippedFrom] at h
      rw [handledFrom]
      by_cases hr : y.rid = r
      · rw [if_pos hr] at h ⊢
        rw [calls_cons, calls_handledFrom y.open? ys h, ← calls_cons]
      · rw [if_neg hr] at h ⊢
        have hy := h y List.mem_cons_self
        rw [calls_handledFrom none ys fun x hx => h x (List.mem_cons_of_mem _ hx), calls, calls,
          List.filterMap_cons_none hy]

/-- **The calls are those asked for iff only empty arrays are lost.** -/
theorem calls_handled_iff (iid : Id) (items : List Item) :
    calls iid (handled items) = calls iid items ↔
      ∀ x ∈ skipped items, ∃ rid, x = .emptyArray rid := by
  constructor
  · intro h x hx
    have hlen : (calls iid items).length
        = (calls iid (handled items)).length + (calls iid (skipped items)).length :=
      length_calls iid none items
    rw [h] at hlen
    have hnil : calls iid (skipped items) = [] := List.eq_nil_of_length_eq_zero (by omega)
    exact Item.call_eq_none.mp (List.filterMap_eq_nil_iff.mp hnil x hx)
  · intro h
    exact calls_handledFrom none items fun x hx => Item.call_eq_none.mpr (h x hx)

/-- **The written Resources are those of the payload iff each lost one is also written.** -/
theorem rids_handled_iff (items : List Item) :
    (∀ r : Id, (∃ x ∈ handled items, x.rid.val = r) ↔ ∃ x ∈ items, x.rid.val = r) ↔
      ∀ x ∈ skipped items, ∃ y ∈ handled items, y.rid = x.rid := by
  have hmem := mem_handledFrom_or none items
  constructor
  · intro h x hx
    obtain ⟨y, hy, hr⟩ := (h x.rid).mpr ⟨x, (hmem x).mpr (Or.inr hx), rfl⟩
    exact ⟨y, hy, Subtype.ext hr⟩
  · intro h r
    constructor
    · rintro ⟨x, hx, hr⟩
      exact ⟨x, (hmem x).mpr (Or.inl hx), hr⟩
    · rintro ⟨x, hx, hr⟩
      rcases (hmem x).mp hx with hx | hx
      · exact ⟨x, hx, hr⟩
      · obtain ⟨y, hy, he⟩ := h x hx
        exact ⟨y, hy, by rw [he]; exact hr⟩

/-! ## 2. Handlers that succeed -/

section Run

variable {σ : Type} {obj : ObjectDef σ} {h : WriteHandlers σ} {oid iid : ValidId} {items : List Item}
  {Good : σ → Prop}

/-- In every state that satisfies `Good`: the Instance is there and may be written, the Resources of
    the payload are writable and of the kind the payload uses, the handlers and the notifications
    succeed, and `resource_write` reads nothing but its own value. -/
structure Accepting (obj : ObjectDef σ) (h : WriteHandlers σ) (oid iid : ValidId) (items : List Item)
    (Good : σ → Prop) : Prop where
  present : ∀ s, Good s → obj.verifyInstancePresent s iid = 0
  allowed : ∀ s, Good s → h.instanceActionAllowed s = true
  kind : ∀ s, Good s → ∀ x ∈ items, ∃ k p, obj.resourceKindAndPresence s iid x.rid = .ok (k, p) ∧
    k.writable = true ∧ k.multiple = x.multiple
  instanceReset : ∀ s, Good s → ∃ s', h.instanceReset s iid = (0, s') ∧ Good s'
  resourceReset : ∀ s, Good s → ∀ x ∈ items, ∃ s', h.resourceReset s iid x.rid = (0, s') ∧ Good s'
  resourceWrite : ∀ s, Good s → ∀ x ∈ items, ∀ c ∈ x.call iid, ∀ ctx ls,
    Fetched (.instancePath oid iid) ctx (x.leaf oid iid) [] (x.leaf oid iid).value ls →
      ∃ s' ctx' done left, h.resourceWrite s iid c.rid c.riid ctx = (0, s', ctx') ∧ Good s' ∧
        Fetched (.instancePath oid iid) ctx' (x.leaf oid iid) done left ls
  notifies : ∀ s q, Good s → (h.notifyPerform s q).1 = 0

/-- In front of an entry, or at the end. -/
def Cursor (root : UriPath) (ctx : TlvIn) (ls : List Leaf) : Prop :=
  Between root ctx ls ∨ (ls = [] ∧ (getPath ctx).1 = .error getPathEnd)

/-- The next `_anjay_input_next_entry` leads to `ls`. -/
def Landing (root : UriPath) (ctx : TlvIn) (ls : List Leaf) : Prop :=
  ∃ ctx', nextEntry ctx = (0, ctx') ∧ Cursor root ctx' ls

theorem offered_fetched {root : UriPath} {ctx : TlvIn} {l : Leaf} {ls : List Leaf}
    (hF : Fetched root ctx l [] l.value ls) : offered ctx = .ok l.value := by
  obtain ⟨t, es, rest, hH, -⟩ := hF
  have hlen : l.value.length < ctx.stream.length + 1 := by
    rw [hH.stream, List.length_append]
    omega
  obtain ⟨ctx', he, -⟩ := readValueLoop_holding (by decide : 0 < 64) _ [] hH hlen
  rw [offered, he, List.nil_append]

theorem resource_length (rid : ValidId) : (UriPath.resource oid iid rid).length = 3 := by
  simp [UriPath.length, UriPath.lengthFrom, IdType.all, UriPath.ids, UriPath.resource, oid.property,
    iid.property, rid.property]

theorem resourceInstance_length (rid riid : ValidId) :
    (UriPath.resourceInstance oid iid rid riid).length = 4 := by
  simp [UriPath.length, UriPath.lengthFrom, IdType.all, UriPath.ids, UriPath.resourceInstance,
    oid.property, iid.property, rid.property, riid.property]

theorem leaf_ids (x : Item) : (x.leaf oid iid).path.oid = oid ∧ (x.leaf oid iid).path.iid = iid ∧
    (x.leaf oid iid).path.rid = x.rid := by
  cases x <;> exact ⟨rfl, rfl, rfl⟩

theorem leaf_length (x : Item) : 3 ≤ (x.leaf oid iid).path.length := by
  cases x with
  | single rid value => exact (resource_length rid).ge
  | inst rid riid value => exact (by decide : 3 ≤ 4).trans (resourceInstance_length rid riid).ge
  | emptyArray rid => exact (resource_length rid).ge

/-- A handler that is called for an entry gets its value, and stays inside it. -/
theorem callResourceWrite_item (acc : Accepting obj h oid iid items Good) {st : WriteState σ}
    (hg : Good st.dm) {x : Item} (hx : x ∈ items) {c : WriteCall} (hc : c ∈ x.call iid)
    {ls : List Leaf}
    (hF : Fetched (.instancePath oid iid) st.ctx (x.leaf oid iid) [] (x.leaf oid iid).value ls) :
    ∃ st', callResourceWrite h st iid c.rid c.riid = (0, st') ∧ Good st'.dm ∧
      st'.queue = st.queue ∧ st'.writes = st.writes ++ [c] ∧ ∃ ctx', nextEntry st'.ctx = (0, ctx') ∧
        Between (.instancePath oid iid) ctx' ls := by
  obtain ⟨s', ctx', done, left, he, hg', hF'⟩ := acc.resourceWrite st.dm hg x hx c hc st.ctx ls hF
  have hcall : (⟨iid, c.rid, c.riid, offered st.ctx⟩ : WriteCall) = c := by
    rw [offered_fetched hF]
    cases x with
    | single rid value => cases hc; rfl
    | inst rid riid value => cases hc; rfl
    | emptyArray rid => cases hc
  refine ⟨{ st with dm := s', ctx := ctx', writes := st.writes ++ [c] }, ?_, hg', rfl, rfl,
    nextEntry_fetched hF'⟩
  rw [callResourceWrite, he, hcall]

/-! ## 3. One Resource -/

/-- The cursor fetches the next entry, or it is at the end. -/
theorem inputGetPath_item (st : WriteState σ) {x : Item} {xs : List Item}
    (hB : Between (.instancePath oid iid) st.ctx ((x :: xs).map (Item.leaf oid iid))) :
    ∃ ctx', inputGetPath st =
        (.ok ((x.leaf oid iid).path, (x.leaf oid iid).isArray), { st with ctx := ctx' }) ∧
      ctx'.finished = false ∧ Fetched (.instancePath oid iid) ctx' (x.leaf oid iid) []
        (x.leaf oid iid).value (xs.map (Item.leaf oid iid)) := by
  obtain ⟨ctx', he, hfin, hF⟩ := getPath_between hB
  exact ⟨ctx', by rw [inputGetPath, he], hfin, hF⟩

/-- What one pass of `write_resource_impl` leaves behind: `hs` is written, `rest` comes next. -/
structure Passed (iid : ValidId) (Good : σ → Prop) (st st' : WriteState σ) (hs : List Item) :
    Prop where
  good : Good st'.dm
  queue : st'.queue = st.queue
  writes : st'.writes = st.writes ++ calls iid hs

/-- **The loop over the Resource Instances of `r`** writes those that stand together, and fetches the
    path of what follows them. -/
theorem writeMultipleLoop_items (acc : Accepting obj h oid iid items Good) {r : ValidId}
    (hmult : ∀ x ∈ items, x.rid = r → x.multiple = true) (first : UriPath)
    (hfirst : first.iid = iid ∧ first.rid = r) :
    ∀ (fuel : Nat) (rest : List Item) {s : WriteState σ} {riid : ValidId} {value : List UInt8},
      Good s.dm → .inst r riid value ∈ items → rest ⊆ items → rest.length < fuel →
      Fetched (.instancePath oid iid) s.ctx ((Item.inst r riid value).leaf oid iid) [] value
        (rest.map (Item.leaf oid iid)) →
      ∃ st' hs rest', writeMultipleLoop h first fuel s (.resourceInstance oid iid r riid) = (0, st') ∧
        Passed iid Good s st' (.inst r riid value :: hs) ∧ (∀ x ∈ hs, x.rid = r) ∧
        Landing (.instancePath oid iid) st'.ctx (rest'.map (Item.leaf oid iid)) ∧
        handledFrom (some r) rest = hs ++ handledFrom none rest' ∧ rest' <:+ rest
  | 0, _, _, _, _, _, _, _, hfuel, _ => absurd hfuel (Nat.not_lt_zero _)
  | fuel + 1, rest, st, riid, value, hg, hx, hsub, hfuel, hF => by
      obtain ⟨st1, he1, hg1, hq1, hw1, ctx2, he2, hB⟩ := callResourceWrite_item acc hg hx rfl hF
      have hleaf : (UriPath.resourceInstance oid iid r riid).leafIs .riid = true := by
        rw [UriPath.leafIs, resourceInstance_length]
        rfl
      have hnext : inputNextEntry st1 = (0, { st1 with ctx := ctx2 }) := by
        rw [inputNextEntry, he2]
      rw [writeMultipleLoop, if_neg (by simp [hleaf])]
      simp only [UriPath.resourceInstance] at he1 ⊢
      simp only [he1, hnext, ne_eq, not_true_eq_false, if_false]
      have hpass : ∀ {st' : WriteState σ}, Good st'.dm → st'.queue = st1.queue →
          st'.writes = st1.writes → Passed iid Good st st' [.inst r riid value] :=
        fun hg' hq' hw' => ⟨hg', hq'.trans hq1, hw'.trans hw1⟩
      cases rest with
      | nil =>
          obtain ⟨ctx3, ctx4, he3, he4, hend⟩ := getPath_end_next hB
          have hget : inputGetPath { st1 with ctx := ctx2 }
              = (.error getPathEnd, { st1 with ctx := ctx3 }) := by rw [inputGetPath, he3]
          refine ⟨{ st1 with ctx := ctx3 }, [], [], ?_, hpass hg1 rfl rfl,
            fun _ h => absurd h List.not_mem_nil, ⟨ctx4, he4, Or.inr ⟨rfl, hend⟩⟩, rfl,
            List.suffix_refl _⟩
          simp only [hget, if_true]
      | cons y ys =>
          obtain ⟨ctx3, hget, -, hF3⟩ := inputGetPath_item { st1 with ctx := ctx2 } hB
          obtain ⟨hpoid, hpiid, hprid⟩ := @leaf_ids oid iid y
          simp only [hget, hpiid, hprid, hfirst.1, hfirst.2]
          by_cases hr : y.rid = r
          · rw [if_neg (by simp [hr])]
            have hy : y ∈ items := hsub List.mem_cons_self
            have hys : ys ⊆ items := fun _ hz => hsub (List.mem_cons_of_mem _ hz)
            have hlen : ys.length < fuel := Nat.lt_of_succ_lt_succ hfuel
            cases y with
            | single rid v => exact absurd (hmult _ hy hr) (by simp [Item.multiple])
            | inst rid riid' v =>
                cases hr
                obtain ⟨st', hs, rest', hrun, hp, hrid, hland, hsplit, hsuf⟩ :=
                  writeMultipleLoop_items acc hmult first hfirst fuel ys
                    (s := { st1 with ctx := ctx3 }) hg1 hy hys hlen hF3
                refine ⟨st', .inst rid riid' v :: hs, rest', hrun, ⟨hp.good, hp.queue.trans hq1, ?_⟩,
                  ?_, hland, ?_, hsuf.trans (List.suffix_cons _ _)⟩
                · rw [hp.writes]
                  show st1.writes ++ _ = _
                  rw [hw1, List.append_assoc]
                  rfl
                · intro x hx
                  rcases List.mem_cons.mp hx with rfl | hx
                  · rfl
                  · exact hrid x hx
                · rw [handledFrom, if_pos rfl, List.cons_append]
                  exact congrArg _ hsplit
            | emptyArray rid =>
                cases hr
                obtain ⟨fuel', rfl⟩ : ∃ n, fuel = n + 1 := ⟨fuel - 1, by omega⟩
                obtain ⟨ctx4, he4, hB4⟩ := nextEntry_fetched hF3
                refine ⟨{ st1 with ctx := ctx3 }, [.emptyArray rid], ys, ?_, ⟨hg1, hq1, hw1⟩, ?_,
                  ⟨ctx4, he4, Or.inl hB4⟩, ?_, List.suffix_cons _ _⟩
                · have hno : (UriPath.resource oid iid rid).leafIs .riid = false := by
                    rw [UriPath.leafIs, resource_length]
                    rfl
                  show writeMultipleLoop h first (fuel' + 1) _ (UriPath.resource oid iid rid) = _
                  rw [writeMultipleLoop, if_pos hno]
                · intro x hx
                  rw [List.mem_singleton.mp hx]
                · rw [handledFrom, if_pos rfl, List.singleton_append, Item.open?]
          · rw [if_pos (Or.inr fun he => hr (Subtype.ext he))]
            obtain ⟨ctx4, he4, hB4⟩ := nextEntry_fetched hF3
            refine ⟨{ st1 with ctx := ctx3 }, [], ys, rfl, hpass hg1 rfl rfl,
              fun _ h => absurd h List.not_mem_nil, ⟨ctx4, he4, Or.inl hB4⟩, ?_, List.suffix_cons _ _⟩
            rw [handledFrom, if_neg hr, List.nil_append]

/-- The entries of one call of `write_resource_impl` and the cursor in front of the next one. -/
structure ResourcePassed (oid iid : ValidId) (Good : σ → Prop) (st st' : WriteState σ)
    (before after : List Item) : Prop where
  good : Good st'.dm
  cursor : Cursor (.instancePath oid iid) st'.ctx (after.map (Item.leaf oid iid))
  passed : ∃ hs, handled before = hs ++ handled after ∧ st'.writes = st.writes ++ calls iid hs ∧
    ∀ o i r, st'.queue.Names o i r ↔
      st.queue.Names o i r ∨ (o = oid ∧ i = iid ∧ ∃ x ∈ hs, x.rid.val = r)

/-- `write_single_resource` or `write_multiple_resource`, according to the kind of the entry. -/
theorem writeOfKind_item (acc : Accepting obj h oid iid items Good) {st : WriteState σ}
    (hg : Good st.dm) {x : Item} {xs : List Item} (hx : x ∈ items) (hsub : xs ⊆ items)
    {kind : ResourceKind} (hkind : kind.multiple = x.multiple) (writeType : WriteType)
    (hF : Fetched (.instancePath oid iid) st.ctx (x.leaf oid iid) [] (x.leaf oid iid).value
      (xs.map (Item.leaf oid iid))) :
    ∃ st' hs rest, (if kind.multiple then
          writeMultipleResource h st (x.leaf oid iid).path (x.leaf oid iid).isArray writeType
        else writeSingleResource h st (x.leaf oid iid).path (x.leaf oid iid).isArray) = (0, st') ∧
      Passed iid Good st st' (x :: hs) ∧ (∀ y ∈ hs, y.rid = x.rid) ∧
      Landing (.instancePath oid iid) st'.ctx (rest.map (Item.leaf oid iid)) ∧
      handledFrom x.open? xs = hs ++ handledFrom none rest ∧ rest <:+ xs := by
  rw [hkind]
  cases x with
  | single rid value =>
      obtain ⟨st1, he1, hg1, hq1, hw1, ctx2, he2, hB⟩ := callResourceWrite_item acc hg hx rfl hF
      refine ⟨st1, [], xs, ?_, ⟨hg1, hq1, hw1⟩, fun _ h => absurd h List.not_mem_nil,
        ⟨ctx2, he2, Or.inl hB⟩, (List.nil_append _).symm, List.suffix_refl _⟩
      have hno : (UriPath.resource oid iid rid).has .riid = false := by
        rw [UriPath.has, resource_length]
        rfl
      show writeSingleResource h st (UriPath.resource oid iid rid) false = _
      rw [writeSingleResource, if_neg (by simp [hno])]
      exact he1
  | inst rid riid value =>
      have hmult : ∀ y ∈ items, y.rid = rid → y.multiple = true := by
        intro y hy hr
        obtain ⟨k, p, hk, -, hm⟩ := acc.kind st.dm hg y hy
        obtain ⟨k', p', hk', -, hm'⟩ := acc.kind st.dm hg _ hx
        rw [hr] at hk
        simp only [Item.rid] at hk'
        rw [hk'] at hk
        cases hk
        rw [← hm, hm']
        rfl
      have hlen : ∀ {n : Nat}, n = st.ctx.stream.length + 1 → xs.length < n := by
        obtain ⟨t, es, rest, hH, hacc⟩ := hF
        have h1 := accepts_length hacc
        rw [List.length_map] at h1
        rw [hH.stream, List.length_append]
        omega
      have hrid : (UriPath.resourceInstance oid iid rid riid).leafIs .rid = false := by
        rw [UriPath.leafIs, resourceInstance_length]
        rfl
      show ∃ st' hs rest, writeMultipleResource h st (UriPath.resourceInstance oid iid rid riid) false
        writeType = _ ∧ _
      rw [writeMultipleResource, if_neg (by simp [hrid])]
      by_cases hu : writeType = .update
      · rw [if_pos hu]
        obtain ⟨st', hs, rest, hrun, hp, hr, hland, hsplit, hsuf⟩ := writeMultipleLoop_items acc hmult
          (.resourceInstance oid iid rid riid) ⟨rfl, rfl⟩ _ xs hg hx hsub (hlen rfl) hF
        exact ⟨st', hs, rest, hrun, hp, hr, hland, hsplit, hsuf⟩
      · rw [if_neg hu]
        obtain ⟨s', hreset, hg'⟩ := acc.resourceReset st.dm hg _ hx
        have hcall : callResourceReset h st iid rid = (0, { st with dm := s' }) := by
          rw [callResourceReset]
          simp only [Item.rid] at hreset
          rw [hreset]
        obtain ⟨st', hs, rest, hrun, hp, hr, hland, hsplit, hsuf⟩ := writeMultipleLoop_items acc hmult
          (.resourceInstance oid iid rid riid) ⟨rfl, rfl⟩ _ xs
          (s := { st with dm := s' }) hg' hx hsub (hlen rfl) hF
        refine ⟨st', hs, rest, ?_, ⟨hp.good, hp.queue, hp.writes⟩, hr, hland, hsplit, hsuf⟩
        simp only [UriPath.resourceInstance] at hrun ⊢
        simp only [hcall, ne_eq, not_true_eq_false, if_false]
        exact hrun
  | emptyArray rid =>
      obtain ⟨ctx2, he2, hB⟩ := nextEntry_fetched hF
      have hloop : ∀ st1 : WriteState σ, writeMultipleLoop h (.resource oid iid rid)
          (st1.ctx.stream.length + 1) st1 (.resource oid iid rid) = (0, st1) := by
        intro st1
        have hno : (UriPath.resource oid iid rid).leafIs .riid = false := by
          rw [UriPath.leafIs, resource_length]
          rfl
        rw [writeMultipleLoop, if_pos hno]
      show ∃ st' hs rest, writeMultipleResource h st (UriPath.resource oid iid rid) true writeType = _ ∧ _
      rw [writeMultipleResource, if_neg (by simp)]
      by_cases hu : writeType = .update
      · rw [if_pos hu, hloop]
        exact ⟨st, [], xs, rfl, ⟨hg, rfl, (List.append_nil _).symm⟩,
          fun _ h => absurd h List.not_mem_nil, ⟨ctx2, he2, Or.inl hB⟩, (List.nil_append _).symm,
          List.suffix_refl _⟩
      · rw [if_neg hu]
        obtain ⟨s', hreset, hg'⟩ := acc.resourceReset st.dm hg _ hx
        have hcall : callResourceReset h st iid rid = (0, { st with dm := s' }) := by
          rw [callResourceReset]
          simp only [Item.rid] at hreset
          rw [hreset]
        refine ⟨{ st with dm := s' }, [], xs, ?_, ⟨hg', rfl, (List.append_nil _).symm⟩,
          fun _ h => absurd h List.not_mem_nil, ⟨ctx2, he2, Or.inl hB⟩, (List.nil_append _).symm,
          List.suffix_refl _⟩
        simp only [UriPath.resource] at hloop ⊢
        simp only [hcall, ne_eq, not_true_eq_false, if_false, hloop { st with dm := s' }]

/-- **One call of `write_resource_impl`** writes its first entry and what the loop over the Resource
    Instances takes along, queues one notification, and goes on to the next entry. -/
theorem writeResource_item (acc : Accepting obj h oid iid items Good) (st : WriteState σ)
    (hg : Good st.dm) {x : Item} {xs : List Item} (hx : x ∈ items) (hsub : xs ⊆ items)
    (writeType : WriteType) (hfin : st.ctx.finished = false)
    (hF : Fetched (.instancePath oid iid) st.ctx (x.leaf oid iid) [] (x.leaf oid iid).value
      (xs.map (Item.leaf oid iid))) :
    ∃ st' rest, writeResource obj h st true writeType = (0, st') ∧
      ResourcePassed oid iid Good st st' (x :: xs) rest ∧ rest <:+ xs := by
  obtain ⟨kind, p, hk, hw, hm⟩ := acc.kind st.dm hg x hx
  obtain ⟨st1, hs, rest, hrun, hp, hrid, ⟨ctx2, he2, hcur⟩, hsplit, hsuf⟩ :=
    writeOfKind_item acc hg hx hsub hm writeType hF
  obtain ⟨hpoid, hpiid, hprid⟩ := @leaf_ids oid iid x
  have hget : inputGetPath st = (.ok ((x.leaf oid iid).path, (x.leaf oid iid).isArray), st) := by
    rw [inputGetPath, getPath_fetched hF hfin]
  have haccepts : kind.acceptsWrite false = true := by simp [ResourceKind.acceptsWrite, hw]
  have hof : writeResourceOfKind h st kind (x.leaf oid iid).path (x.leaf oid iid).isArray true writeType
      = (0, { st1 with queue := queueResourceChange st1.queue oid iid x.rid }) := by
    rw [writeResourceOfKind, hrun]
    simp [hpoid, hpiid, hprid]
  refine ⟨{ st1 with ctx := ctx2, queue := queueResourceChange st1.queue oid iid x.rid }, rest, ?_,
    ⟨hp.good, hcur, x :: hs, ?_, hp.writes, ?_⟩, hsuf⟩
  · rw [writeResource, writeResourceImpl, hget]
    simp only [hpiid, hprid, hk, haccepts, if_true, hof, inputNextEntry, he2]
    rfl
  · rw [handled, handledFrom, hsplit]
    rfl
  · intro o i r
    rw [queueResourceChange_names, hp.queue]
    refine or_congr Iff.rfl (and_congr Iff.rfl (and_congr Iff.rfl ⟨fun hr => ?_, ?_⟩))
    · exact ⟨x, List.mem_cons_self, hr.symm⟩
    · rintro ⟨y, hy, hr⟩
      rcases List.mem_cons.mp hy with rfl | hy
      · exact hr.symm
      · rw [← hr, hrid y hy]

/-! ## 4. The whole payload -/

/-- **The loops write exactly the handled entries, in order.** -/
theorem writeInstanceLoop_items (acc : Accepting obj h oid iid items Good)
    (writeType : WriteType) (hint : WriteInstanceHint) :
    ∀ (fuel : Nat) (xs : List Item) {s : WriteState σ}, Good s.dm → xs ⊆ items → xs.length < fuel →
      Cursor (.instancePath oid iid) s.ctx (xs.map (Item.leaf oid iid)) →
      ∃ st', writeInstanceLoop obj h iid true hint writeType fuel s = (0, st') ∧ Good st'.dm ∧
        st'.writes = s.writes ++ calls iid (handled xs) ∧
        ∀ o i r, st'.queue.Names o i r ↔
          s.queue.Names o i r ∨ (o = oid ∧ i = iid ∧ ∃ x ∈ handled xs, x.rid.val = r)
  | 0, _, _, _, _, hfuel, _ => absurd hfuel (Nat.not_lt_zero _)
  | fuel + 1, [], st, hg, _, _, hcur => by
      have hend : (getPath st.ctx).1 = .error getPathEnd := hcur.elim getPath_end And.right
      refine ⟨{ st with ctx := (getPath st.ctx).2 }, ?_, hg, (List.append_nil _).symm, ?_⟩
      · rw [writeInstanceLoop, inputGetPath]
        simp only [hend, if_true]
      · intro o i r
        simp [handled, handledFrom]
  | fuel + 1, x :: xs, st, hg, hsub, hfuel, hcur => by
      have hB := hcur.resolve_right fun hc => List.cons_ne_nil _ _ hc.1
      obtain ⟨ctx1, hget, hfin, hF⟩ := inputGetPath_item st hB
      have hx : x ∈ items := hsub List.mem_cons_self
      have hxs : xs ⊆ items := fun _ hy => hsub (List.mem_cons_of_mem _ hy)
      obtain ⟨st2, rest, hrun, hp, hsuf⟩ := writeResource_item acc { st with ctx := ctx1 } hg hx
        hxs writeType hfin hF
      have hlen : rest.length < fuel :=
        Nat.lt_of_le_of_lt hsuf.length_le (Nat.lt_of_succ_lt_succ hfuel)
      obtain ⟨st3, hloop, hg3, hw3, hn3⟩ := writeInstanceLoop_items acc writeType hint fuel rest hp.good
        (fun _ hy => hxs (hsuf.subset hy)) hlen hp.cursor
      obtain ⟨hs, hsplit, hw2, hn2⟩ := hp.passed
      obtain ⟨hpoid, hpiid, hprid⟩ := @leaf_ids oid iid x
      have hlength := @leaf_length oid iid x
      have hiid : (x.leaf oid iid).path.has .iid = true := decide_eq_true (by
        show 1 < _
        omega)
      have hrid : (x.leaf oid iid).path.has .rid = true := decide_eq_true (by
        show 2 < _
        omega)
      refine ⟨st3, ?_, hg3, ?_, fun o i r => ?_⟩
      · rw [writeInstanceLoop, hget]
        simp only [hiid, hrid, hpiid, hrun, ne_eq, not_true_eq_false, or_self, or_true, if_true,
          Bool.true_eq_false, if_false, hloop]
      · rw [hw3, hw2, hsplit, calls_append, List.append_assoc]
      · rw [hn3, hn2, or_assoc, hsplit]
        refine or_congr Iff.rfl ⟨?_, ?_⟩
        · rintro (⟨ho, hi, y, hy, hr⟩ | ⟨ho, hi, y, hy, hr⟩)
          · exact ⟨ho, hi, y, List.mem_append_left _ hy, hr⟩
          · exact ⟨ho, hi, y, List.mem_append_right _ hy, hr⟩
        · rintro ⟨ho, hi, y, hy, hr⟩
          rcases List.mem_append.mp hy with hy | hy
          · exact Or.inl ⟨ho, hi, y, hy, hr⟩
          · exact Or.inr ⟨ho, hi, y, hy, hr⟩

theorem writeAddressed_instance {st st1 st2 : WriteState σ} {uri : UriPath} {writeType : WriteType}
    {result : Int} (hleaf : uri.leafIs .iid = true)
    (hreset : (if writeType = .update then (0, st) else callInstanceReset h st uri.iid) = (0, st1))
    (hwrite : writeInstance obj h st1 uri.iid true .failOnUnsupported writeType = (result, st2)) :
    writeAddressed obj h st uri writeType = writeNotify h result st2 := by
  rw [writeAddressed, if_pos hleaf, hreset]
  simp only [ne_eq, not_true_eq_false, if_false, hwrite]

/-- `_anjay_dm_write` on an Instance succeeds, writes the handled entries and queues their
    Resources. -/
theorem dmWrite_handled {chunk : Nat} (hchunk : 0 < chunk) (acc : Accepting obj h oid iid items Good)
    {dm : σ} (hgood : Good dm) (action : WriteAction) {payload : List UInt8}
    (hwalk : walk chunk (.instancePath oid iid) payload = (items.map (Item.leaf oid iid), getPathEnd)) :
    ∃ st q, dmWrite obj h dm (.instancePath oid iid) action
        (inputTlvCreate payload (some (.instancePath oid iid))) = (0, st) ∧
      st.writes = calls iid (handled items) ∧ st.notified = some q ∧
      ∀ o i r, q.Names o i r ↔ o = oid ∧ i = iid ∧ ∃ x ∈ handled items, x.rid.val = r := by
  have hacc := (walk_end_iff hchunk).mp hwalk
  have hlen : items.length < payload.length + 1 := by
    have := accepts_length hacc
    rw [List.length_map] at this
    omega
  have hpath : (UriPath.instancePath oid iid).length = 2 := by
    simp [UriPath.length, UriPath.lengthFrom, IdType.all, UriPath.ids, UriPath.instancePath,
      oid.property, iid.property]
  have hhas : (UriPath.instancePath oid iid).has .iid = true := by
    rw [UriPath.has, hpath]
    rfl
  have hleaf : (UriPath.instancePath oid iid).leafIs .iid = true := by
    rw [UriPath.leafIs, hpath]
    rfl
  let ctx := inputTlvCreate payload (some (.instancePath oid iid))
  -- the state the loop starts from, with and without the reset of the Instance
  obtain ⟨s0, hreset, hg0⟩ : ∃ s0, (if action.writeType = .update then (0, .start dm ctx)
      else callInstanceReset h (.start dm ctx) iid) = (0, .start s0 ctx) ∧ Good s0 := by
    by_cases hu : action.writeType = .update
    · exact ⟨dm, if_pos hu, hgood⟩
    · obtain ⟨s0, he, hg0⟩ := acc.instanceReset dm hgood
      refine ⟨s0, ?_, hg0⟩
      rw [if_neg hu, callInstanceReset]
      simp only [WriteState.start, he]
  obtain ⟨st, hloop, hg, hw, hn⟩ := writeInstanceLoop_items acc action.writeType .failOnUnsupported
    (payload.length + 1) items (s := .start s0 ctx) hg0 (List.Subset.refl _) hlen
    (Or.inl (between_create hacc))
  obtain ⟨st', hnotify, hwrites, hnotified⟩ : ∃ st', writeNotify h 0 st = (0, st') ∧
      st'.writes = st.writes ∧ st'.notified = some st.queue := by
    rw [writeNotify, if_pos rfl]
    exact ⟨_, Prod.ext (acc.notifies st.dm st.queue hg) rfl, rfl, rfl⟩
  refine ⟨st', st.queue, ?_, ?_, hnotified, fun o i r => ?_⟩
  · rw [dmWrite, if_neg (by simp [hhas])]
    simp only [UriPath.instancePath, acc.present dm hgood, acc.allowed dm hgood, ne_eq,
      not_true_eq_false, if_false, Bool.true_eq_false]
    exact (writeAddressed_instance hleaf hreset hloop).trans hnotify
  · rw [hwrites, hw]
    exact List.nil_append _
  · rw [hn]
    exact or_iff_right (not_names_empty o i r)

/-- **The handlers get the values of the payload, each once and in order, and the notifications name
    its Resources, iff every entry that is jumped over is an empty array of a Resource that is also
    written.** -/
theorem dmWrite_writes_iff {chunk : Nat} (hchunk : 0 < chunk)
    (acc : Accepting obj h oid iid items Good) {dm : σ} (hgood : Good dm) (action : WriteAction)
    {payload : List UInt8}
    (hwalk : walk chunk (.instancePath oid iid) payload = (items.map (Item.leaf oid iid), getPathEnd)) :
    (∃ st q, dmWrite obj h dm (.instancePath oid iid) action
        (inputTlvCreate payload (some (.instancePath oid iid))) = (0, st) ∧
      st.writes = calls iid items ∧ st.notified = some q ∧
      ∀ o i r, q.Names o i r ↔ o = oid ∧ i = iid ∧ ∃ x ∈ items, x.rid.val = r) ↔
    ∀ x ∈ skipped items, (∃ rid, x = .emptyArray rid) ∧ ∃ y ∈ handled items, y.rid = x.rid := by
  obtain ⟨st, q, hrun, hw, hq, hn⟩ := dmWrite_handled hchunk acc hgood action hwalk
  constructor
  · rintro ⟨st', q', hrun', hw', hq', hn'⟩
    obtain rfl : st = st' := by
      rw [hrun, Prod.mk.injEq] at hrun'
      exact hrun'.2
    obtain rfl : q = q' := Option.some.inj (hq.symm.trans hq')
    have hcalls := (calls_handled_iff iid items).mp (hw.symm.trans hw')
    have hrids := (rids_handled_iff items).mp fun r => by
      have h1 := (hn oid iid r).symm.trans (hn' oid iid r)
      simpa using h1
    exact fun x hx => ⟨hcalls x hx, hrids x hx⟩
  · intro hsk
    refine ⟨st, q, hrun, hw.trans ((calls_handled_iff iid items).mpr fun x hx => (hsk x hx).1), hq,
      fun o i r => ?_⟩
    rw [hn o i r, (rids_handled_iff items).mpr (fun x hx => (hsk x hx).2) r]

end Run

/-! ## 5. An Object that stores what it is given -/

/-- Instance 0 of Object 3 with a multiple Resource 7 and a single Resource 9. -/
def storingObject : ObjectDef (List (Id × Id × List UInt8)) where
  oid := 3
  listInstances := fun _ => ([0], 0)
  listResources := fun _ _ => ([⟨7, .rwm, true⟩, ⟨9, .rw, true⟩], 0)
  listResourceInstances := fun _ _ _ => ([], 0)

/-- `resource_write` stores up to 64 bytes of the value. -/
def storingHandlers : WriteHandlers (List (Id × Id × List UInt8)) where
  instanceReset := fun _ _ => (0, [])
  resourceReset := fun s _ rid => (0, s.filter fun e => e.1 ≠ rid)
  resourceWrite := fun s _ rid riid ctx =>
    match getBytes ctx 64 with
    | (r, ctx) => (r.code, s ++ [(rid, riid, r.bytes)], ctx)
  instanceActionAllowed := fun _ => true
  notifyPerform := fun s _ => (0, s)

theorem storing_accepting {oid : ValidId} {items : List Item}
    (hitems : ∀ x ∈ items, (x.rid.val = 7 ∧ x.multiple = true) ∨ (x.rid.val = 9 ∧ x.multiple = false)) :
    Accepting storingObject storingHandlers oid ⟨0, by decide⟩ items fun _ => True where
  present := fun _ _ => rfl
  allowed := fun _ _ => rfl
  kind := by
    intro s _ x hx
    rcases hitems x hx with ⟨hr, hm⟩ | ⟨hr, hm⟩ <;> rw [hr, hm]
    · exact ⟨.rwm, true, rfl, rfl, rfl⟩
    · exact ⟨.rw, true, rfl, rfl, rfl⟩
  instanceReset := fun _ _ => ⟨_, rfl, trivial⟩
  resourceReset := fun _ _ _ _ => ⟨_, rfl, trivial⟩
  resourceWrite := by
    intro s _ x _ c _ ctx ls hF
    obtain ⟨t, es, rest, hH, hacc⟩ := hF
    obtain ⟨ctx', he, hH'⟩ := getBytes_holding hH 64
    refine ⟨s ++ [(c.rid, c.riid, (x.leaf oid 0).value.take 64)], ctx', _, _, ?_, trivial, t, es, rest,
      hH', hacc⟩
    simp only [storingHandlers, he]
  notifies := fun _ _ _ => rfl

/-- Resource 9 and then both Instances of Resource 7: everything is stored. -/
theorem dmWrite_writes_single_first :
    let items : List Item := [.single ⟨9, by decide⟩ [77], .inst ⟨7, by decide⟩ ⟨0, by decide⟩ [5],
      .inst ⟨7, by decide⟩ ⟨1, by decide⟩ [6]]
    ∃ st q, dmWrite storingObject storingHandlers [] (.instancePath 3 0) .write
        (inputTlvCreate [0xC1, 0x09, 77, 0x86, 0x07, 0x41, 0x00, 5, 0x41, 0x01, 6]
          (some (.instancePath 3 0))) = (0, st) ∧
      st.writes = calls 0 items ∧ st.notified = some q ∧
      ∀ o i r, q.Names o i r ↔ o = 3 ∧ i = 0 ∧ ∃ x ∈ items, x.rid.val = r := by
  intro items
  have hacc : Accepting storingObject storingHandlers ⟨3, by decide⟩ ⟨0, by decide⟩ items
      fun _ => True := storing_accepting (by decide)
  exact (dmWrite_writes_iff (by decide : 0 < 64) hacc trivial .write
    (by decide +kernel)).mpr (by decide)

/-- An Instance of Resource 7 and then Resource 9: the Write succeeds, and Resource 9 keeps its old
    value. -/
theorem dmWrite_loses_resource :
    let items : List Item := [.inst ⟨7, by decide⟩ ⟨0, by decide⟩ [5], .single ⟨9, by decide⟩ [77]]
    let ctx := inputTlvCreate [0x83, 0x07, 0x41, 0x00, 5, 0xC1, 0x09, 77] (some (.instancePath 3 0))
    let r := dmWrite storingObject storingHandlers [] (.instancePath 3 0) .writeUpdate ctx
    walk 64 (.instancePath 3 0) ctx.stream = (items.map (Item.leaf 3 0), getPathEnd) ∧
      Accepting storingObject storingHandlers ⟨3, by decide⟩ ⟨0, by decide⟩ items (fun _ => True) ∧
      r.1 = 0 ∧ r.2.writes = [⟨0, 7, 0, .ok [5]⟩] ∧ r.2.writes ≠ calls 0 items :=
  ⟨by decide +kernel, storing_accepting (by decide), by decide +kernel, by decide +kernel,
    by decide +kernel⟩

end Anjay.Dm
