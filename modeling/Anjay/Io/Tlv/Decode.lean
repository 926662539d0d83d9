/-
  File:      Anjay/Io/Tlv/Decode.lean
  Subject:   What the TLV input context reads from a byte string, entry by entry.

  * `Accepts`: from a stack of open entries and a current path, the bytes hold the given leaves and
    end where the context reports the end. One constructor for each thing a header can be.
  * `Between`, `Holding` and `Fetched`: the context in front of an entry, and with the path of a
    leaf fetched.
  * `getPath_between`, `getSomeBytes_fetched`, `nextEntry_fetched`: every operation of the context,
    as a step on the list of leaves.
-/
import Anjay.Io.Tlv.In

namespace Anjay.Tlv

open Lib

/-! ## 1. Leaves and accepted byte strings -/

/-- A value the context hands out: its path, the array flag and the bytes. -/
structure Leaf where
  path : UriPath
  isArray : Bool
  value : List UInt8
  deriving DecidableEq, Repr

/-- `out_has_value` of `get_id`: an entry without payload is returned, with an empty value. -/
def Header.hasValue (h : Header) : Bool := h.length = 0 ∨ h.tlvType = .riid ∨ h.tlvType = .rid

/-- The path a header leads to. -/
def Header.path (h : Header) (cur : UriPath) : UriPath := cur.setId h.tlvType.idType h.id

/-- The whole size of the entry a header opens. -/
def Header.size (h : Header) : Nat := h.length + h.headerLen

/-- The innermost open entry counts `k` more bytes as read. -/
def chargeTop (k : Nat) : List InEntry → List InEntry
  | [] => []
  | p :: es => { p with bytesRead := p.bytesRead + k } :: es

/-- The innermost open entry has `k` bytes left. -/
def roomTop (k : Nat) : List InEntry → Prop
  | [] => True
  | p :: _ => p.bytesRead + k ≤ p.length

/-- Leaving every entry that is read to its end. -/
def leave : List InEntry → UriPath → List InEntry × UriPath
  | [], cur => ([], cur)
  | e :: es, cur =>
      if e.length = e.bytesRead then leave es (cur.setId e.type idInvalid) else (e :: es, cur)

/-- What `tlv_get_path` checks of a header before it uses it. -/
structure HeaderOk (root cur : UriPath) (es : List InEntry) (h : Header) : Prop where
  id_valid : h.id ≠ idInvalid
  inside_parent : roomTop h.size es
  inside_root : (h.path cur).outsideBase root = false

/-- **The bytes from here to a regular end, with the leaves they hold.** -/
inductive Accepts (root : UriPath) :
    List InEntry → UriPath → List UInt8 → List Leaf → Prop
  /-- The stream ends in front of a header. The stack of open entries is not looked at. -/
  | eof (es : List InEntry) (cur : UriPath) : Accepts root es cur [] []
  | leaf {es : List InEntry} {cur : UriPath} {s v rest : List UInt8} {h : Header} {ls : List Leaf}
      (parse : parseHeader s = some (h, v ++ rest)) (value : h.hasValue = true)
      (length : v.length = h.length) (ok : HeaderOk root cur es h)
      (next : Accepts root
        (leave (chargeTop h.size es) ((h.path cur).setId h.tlvType.idType idInvalid)).1
        (leave (chargeTop h.size es) ((h.path cur).setId h.tlvType.idType idInvalid)).2 rest ls) :
      Accepts root es cur s (⟨h.path cur, h.tlvType = .ridArray, v⟩ :: ls)
  | node {es : List InEntry} {cur : UriPath} {s rest : List UInt8} {h : Header} {ls : List Leaf}
      (parse : parseHeader s = some (h, rest)) (value : h.hasValue = false)
      (ok : HeaderOk root cur es h)
      (next : Accepts root (⟨h.tlvType.idType, h.length, 0⟩ :: chargeTop h.size es) (h.path cur)
        rest ls) :
      Accepts root es cur s ls

theorem accepts_nil {root : UriPath} {es : List InEntry} {cur : UriPath} {s : List UInt8}
    {ls : List Leaf} (h : Accepts root es cur s ls) (hs : s = []) : ls = [] := by
  cases h with
  | eof => rfl
  | leaf parse => subst hs; cases parse
  | node parse => subst hs; cases parse

/-! ## 2. Headers -/

theorem popLoop_eq : ∀ (es : List InEntry) (cur : UriPath) (len : Nat),
    ∃ len', popLoop es cur len = ((leave es cur).1, (leave es cur).2, len')
  | [], cur, len => ⟨len, rfl⟩
  | e :: es, cur, len => by
      unfold popLoop leave
      split
      · exact popLoop_eq es _ _
      · exact ⟨len, rfl⟩

/-- The context after `get_id` took a header off the stream. -/
def TlvIn.afterHeader (ctx : TlvIn) (h : Header) (rest : List UInt8) : TlvIn :=
  { ctx with
    stream := rest
    isArray := decide (h.tlvType = TlvIdType.ridArray)
    entries := ⟨h.tlvType.idType, h.length, 0⟩ :: ctx.entries.tail }

theorem getId_nil {ctx : TlvIn} (hs : ctx.stream = []) : getId ctx = (.error getPathEnd, ctx) := by
  unfold getId
  rw [hs]

/-- **A header on the stream is what `get_id` reports.** -/
theorem getId_some {ctx : TlvIn} {h : Header} {rest : List UInt8}
    (hp : parseHeader ctx.stream = some (h, rest)) :
    getId ctx = (.ok ⟨h.tlvType.idType, h.id, h.hasValue, h.headerLen⟩, ctx.afterHeader h rest) := by
  unfold getId
  cases hs : ctx.stream with
  | nil => rw [hs] at hp; cases hp
  | cons typefield s =>
      rw [hs] at hp
      simp only [parseHeader] at hp
      cases h1 : readShortened s (idLength typefield) with
      | none => simp only [h1] at hp; cases hp
      | some r1 =>
          simp only [h1] at hp
          by_cases h0 : lengthLength typefield = 0
          · simp only [if_pos h0, Option.some.injEq, Prod.mk.injEq] at hp
            obtain ⟨rfl, rfl⟩ := hp
            simp only [h1, if_pos h0, getIdFinish, TlvIn.afterHeader, Header.hasValue, convertIdType]
          · rw [if_neg h0] at hp
            cases h2 : readShortened r1.2 (lengthLength typefield) with
            | none => simp only [h2] at hp; cases hp
            | some r2 =>
                simp only [h2, Option.some.injEq, Prod.mk.injEq] at hp
                obtain ⟨rfl, rfl⟩ := hp
                simp only [h1, if_neg h0, h2, getIdFinish, TlvIn.afterHeader, Header.hasValue,
                  convertIdType]

/-- A header that is cut off is an error and not the end. -/
theorem getId_none {ctx : TlvIn} (hs : ctx.stream ≠ []) (hp : parseHeader ctx.stream = none) :
    (getId ctx).1 = .error (-1) := by
  unfold getId
  cases hc : ctx.stream with
  | nil => exact absurd hc hs
  | cons typefield s =>
      rw [hc] at hp
      simp only [parseHeader] at hp
      cases h1 : readShortened s (idLength typefield) with
      | none => simp only [h1]
      | some r1 =>
          simp only [h1] at hp
          by_cases h0 : lengthLength typefield = 0
          · rw [if_pos h0] at hp; cases hp
          · rw [if_neg h0] at hp
            cases h2 : readShortened r1.2 (lengthLength typefield) with
            | none => simp only [h1, if_neg h0, h2]
            | some r2 => simp only [h2] at hp; cases hp

theorem chargeParent_cons (ctx : TlvIn) {e : InEntry} {ps : List InEntry} (k : Nat)
    (he : ctx.entries = e :: ps) :
    ctx.chargeParent k = { ctx with entries := e :: chargeTop (e.length + k) ps } := by
  unfold TlvIn.chargeParent
  rw [he]
  cases ps with
  | nil => cases ctx; cases he; rfl
  | cons p ps => rfl

theorem parentOverrun_charged (ctx : TlvIn) {e : InEntry} {ps : List InEntry} {k : Nat}
    (he : ctx.entries = e :: chargeTop k ps) : ctx.parentOverrun = false ↔ roomTop k ps := by
  unfold TlvIn.parentOverrun
  rw [he]
  cases ps with
  | nil => simp [chargeTop, roomTop]
  | cons p ps => simp [chargeTop, roomTop]

/-- The context inside the loop of `tlv_get_path` once a header passed the checks. -/
def TlvIn.opened (ctx : TlvIn) (h : Header) (rest : List UInt8) : TlvIn :=
  { ctx with
    stream := rest
    isArray := decide (h.tlvType = TlvIdType.ridArray)
    currentPath := h.path ctx.currentPath
    currentPathLen := h.tlvType.idType.toNat + 1
    entries := ⟨h.tlvType.idType, h.length, 0⟩ :: chargeTop h.size ctx.entries }

/-- One pass of the loop of `tlv_get_path`, when there is a header. -/
theorem getPathLoop_header {ctx : TlvIn} {h : Header} {rest : List UInt8} (fuel : Nat)
    (hp : parseHeader ctx.stream = some (h, rest))
    (hok : HeaderOk ctx.uriPath ctx.currentPath ctx.entries h) :
    getPathLoop (fuel + 1) ctx =
      if h.hasValue then (.brk 0, ctx.opened h rest) else getPathLoop fuel (ctx.opened h rest) := by
  have hid : getId ctx.entryPush = _ := getId_some hp
  rw [getPathLoop, hid]
  simp only [if_neg hok.id_valid]
  have hcharge := chargeParent_cons (ctx.entryPush.afterHeader h rest) h.headerLen rfl
  rw [hcharge]
  have hroom := (parentOverrun_charged { ctx.entryPush.afterHeader h rest with
    entries := ⟨h.tlvType.idType, h.length, 0⟩ :: chargeTop h.size ctx.entries } rfl).mpr
    hok.inside_parent
  have hin := hok.inside_root
  simp only [TlvIn.entryPush, TlvIn.afterHeader, List.tail_cons, Header.size] at hroom ⊢
  simp only [hroom]
  simp only [Header.path] at hin
  simp only [hin]
  rfl

/-! ## 3. The states of the context -/

/-- The context in front of an entry (or of the end): `ls` is what it will still hand out. -/
structure Between (root : UriPath) (ctx : TlvIn) (ls : List Leaf) : Prop where
  hasPath : ctx.hasPath = false
  uriPath : ctx.uriPath = root
  accepts : Accepts root ctx.entries ctx.currentPath ctx.stream ls
  finished : ctx.finished = true → ctx.stream = []

/-- The context with the path of leaf `l` fetched from an entry of kind `t` inside `es`: of its value
    `done` is read and `left` is not, and `rest` follows it in the stream. -/
structure Holding (root : UriPath) (ctx : TlvIn) (t : IdType) (l : Leaf)
    (done left rest : List UInt8) (es : List InEntry) : Prop where
  hasPath : ctx.hasPath = true
  uriPath : ctx.uriPath = root
  path : ctx.currentPath = l.path
  isArray : ctx.isArray = l.isArray
  value : l.value = done ++ left
  entries : ctx.entries = ⟨t, l.value.length, done.length⟩ :: es
  stream : ctx.stream = left ++ rest
  finished : ctx.finished = true → ctx.stream = []

/-- The leaf `l` is fetched, and `ls` comes after it. -/
def Fetched (root : UriPath) (ctx : TlvIn) (l : Leaf) (done left : List UInt8) (ls : List Leaf) :
    Prop :=
  ∃ t es rest, Holding root ctx t l done left rest es ∧
    Accepts root (leave es (l.path.setId t idInvalid)).1 (leave es (l.path.setId t idInvalid)).2
      rest ls

theorem between_create {root : UriPath} {s : List UInt8} {ls : List Leaf}
    (h : Accepts root [] root s ls) : Between root (inputTlvCreate s (some root)) ls :=
  ⟨rfl, rfl, h, fun hf => by cases hf⟩

/-! ## 4. Fetching a path -/

/-- The loop of `tlv_get_path` goes down to the next leaf, or meets the end of the stream. -/
theorem getPathLoop_accepts {root : UriPath} {es : List InEntry} {cur : UriPath} {s : List UInt8}
    {ls : List Leaf} (ha : Accepts root es cur s ls) :
    ∀ (ctx : TlvIn) (fuel : Nat), ctx.uriPath = root → ctx.entries = es → ctx.currentPath = cur →
      ctx.stream = s → (ctx.finished = true → ctx.stream = []) → s.length < fuel →
      (ls = [] → ∃ ctx' es', getPathLoop fuel ctx = (.brk getPathEnd, ctx') ∧ ctx'.stream = [] ∧
        ctx'.entries = ⟨.oid, 0, 0⟩ :: es') ∧
      (∀ l ls', ls = l :: ls' → ∃ ctx', getPathLoop fuel ctx = (.brk 0, ctx') ∧
        ctx'.finished = ctx.finished ∧
        Fetched root { ctx' with hasPath := true } l [] l.value ls') := by
  induction ha with
  | eof es cur =>
      intro ctx fuel _ _ _ hs _ hfuel
      refine ⟨fun _ => ⟨ctx.entryPush, ctx.entries, ?_, hs, rfl⟩, fun l ls' h => by cases h⟩
      cases fuel with
      | zero => cases hfuel
      | succ fuel =>
          have hs' : ctx.entryPush.stream = [] := hs
          rw [getPathLoop, getId_nil hs']
  | @leaf es cur s v rest h ls parse value length ok next =>
      intro ctx fuel hroot hes hcur hs hfin hfuel
      refine ⟨fun h => absurd h (List.cons_ne_nil _ _), fun l ls' hl => ?_⟩
      cases fuel with
      | zero => cases hfuel
      | succ fuel =>
          subst hroot hes hcur hs
          rw [getPathLoop_header fuel parse ok, if_pos value]
          simp only [List.cons.injEq] at hl
          obtain ⟨rfl, rfl⟩ := hl
          refine ⟨_, rfl, rfl, h.tlvType.idType, _, rest, ⟨rfl, rfl, rfl, rfl, rfl, ?_, rfl, ?_⟩, next⟩
          · simp only [TlvIn.opened, length, List.length_nil]
          · intro hf
            obtain ⟨pre, hpre, -, -, -⟩ := parseHeader_some parse
            have hnil : ctx.stream = [] := hfin hf
            rw [hpre, List.append_eq_nil_iff] at hnil
            exact hnil.2
  | @node es cur s rest h ls parse value ok next ih =>
      intro ctx fuel hroot hes hcur hs hfin hfuel
      cases fuel with
      | zero => cases hfuel
      | succ fuel =>
          subst hroot hes hcur hs
          obtain ⟨pre, hpre, hlen, h2, -⟩ := parseHeader_some parse
          rw [getPathLoop_header fuel parse ok, if_neg (by simp [value])]
          refine ih (ctx.opened h rest) fuel rfl rfl rfl rfl (fun hf => ?_) ?_
          · have hnil : ctx.stream = [] := hfin hf
            rw [hpre, List.append_eq_nil_iff] at hnil
            exact hnil.2
          · rw [hpre, List.length_append] at hfuel
            omega

theorem getPath_finished {ctx : TlvIn} (hf : ctx.finished = true) :
    getPath ctx = (.error getPathEnd, ctx) := by
  unfold getPath
  rw [if_pos hf]

/-- With nothing left, `tlv_get_path` reports the end, and `tlv_next_entry` leaves it at the end. -/
theorem getPath_end_next {root : UriPath} {ctx : TlvIn} (h : Between root ctx []) :
    ∃ ctx' ctx'', getPath ctx = (.error getPathEnd, ctx') ∧ nextEntry ctx' = (0, ctx'') ∧
      (getPath ctx'').1 = .error getPathEnd := by
  by_cases hf : ctx.finished = true
  · have he := getPath_finished hf
    refine ⟨ctx, ctx, he, ?_, by rw [he]⟩
    unfold nextEntry
    rw [if_neg (by simp [h.hasPath])]
  · obtain ⟨ctx1, es, he, hs, hes⟩ := (getPathLoop_accepts h.accepts ctx (ctx.stream.length + 1)
      h.uriPath rfl rfl rfl h.finished (Nat.lt_succ_self _)).1 rfl
    -- the entry pushed for the missing header is empty: reading it meets the end of the stream
    obtain ⟨ctx2, hnext, hfin⟩ : ∃ ctx2, nextEntry { ctx1 with hasPath := true } = (0, ctx2) ∧
        ctx2.finished = true := by
      obtain ⟨stream, uriPath, hasPath, isArray, currentPath, len, entries, finished⟩ := ctx1
      simp only at hs hes
      subst hs hes
      exact ⟨_, rfl, rfl⟩
    refine ⟨{ ctx1 with hasPath := true }, ctx2, ?_, hnext, by rw [getPath_finished hfin]⟩
    unfold getPath
    rw [if_neg hf, if_neg (by simp [h.hasPath]), he]
    rfl

/-- **With nothing left, `tlv_get_path` reports the end.** -/
theorem getPath_end {root : UriPath} {ctx : TlvIn} (h : Between root ctx []) :
    (getPath ctx).1 = .error getPathEnd := by
  obtain ⟨ctx', ctx'', he, -⟩ := getPath_end_next h
  rw [he]

/-- **In front of a leaf, `tlv_get_path` fetches its path.** -/
theorem getPath_between {root : UriPath} {ctx : TlvIn} {l : Leaf} {ls : List Leaf}
    (h : Between root ctx (l :: ls)) :
    ∃ ctx', getPath ctx = (.ok (l.path, l.isArray), ctx') ∧ ctx'.finished = false ∧
      Fetched root ctx' l [] l.value ls := by
  have hf : ¬ ctx.finished = true := fun hf => by
    have := accepts_nil h.accepts (h.finished hf)
    cases this
  obtain ⟨ctx', he, hfin, hF⟩ := (getPathLoop_accepts h.accepts ctx (ctx.stream.length + 1) h.uriPath
    rfl rfl rfl h.finished (Nat.lt_succ_self _)).2 l ls rfl
  refine ⟨{ ctx' with hasPath := true }, ?_, hfin.trans (Bool.eq_false_iff.mpr hf), hF⟩
  obtain ⟨t, es, rest, hH, -⟩ := hF
  unfold getPath
  rw [if_neg hf, if_neg (by simp [h.hasPath]), he]
  simp only [if_pos, hH.path.symm, hH.isArray.symm]

/-- A fetched path is handed out again, as long as the stream has not been read to its end. -/
theorem getPath_fetched {root : UriPath} {ctx : TlvIn} {l : Leaf} {done left : List UInt8}
    {ls : List Leaf} (h : Fetched root ctx l done left ls) (hf : ctx.finished = false) :
    getPath ctx = (.ok (l.path, l.isArray), ctx) := by
  obtain ⟨t, es, rest, hH, -⟩ := h
  unfold getPath
  rw [if_neg (by simp [hf]), if_pos hH.hasPath, hH.path, hH.isArray]

/-! ## 5. Reading a value -/

section Value

variable {root : UriPath} {ctx : TlvIn} {t : IdType} {l : Leaf} {done left rest : List UInt8}
  {es : List InEntry} {ls : List Leaf}

/-- **`tlv_get_some_bytes` reads as much of the value as the buffer takes.** -/
theorem getSomeBytes_holding (h : Holding root ctx t l done left rest es) (n : Nat) :
    ∃ ctx', getSomeBytes ctx n = (⟨0, left.take n, decide (left.length ≤ n)⟩, ctx') ∧
      Holding root ctx' t l (done ++ left.take n) (left.drop n) rest es := by
  have hsub : l.value.length - done.length = left.length := by
    rw [h.value, List.length_append]; omega
  have hmin : (left ++ rest).take (min n left.length) = left.take n := by
    rw [List.take_append_of_le_length (Nat.min_le_right _ _)]
    rcases Nat.le_total n left.length with hn | hn
    · rw [Nat.min_eq_left hn]
    · rw [Nat.min_eq_right hn, List.take_length, List.take_of_length_le hn]
  have hdrop : (left ++ rest).drop (min n left.length) = left.drop n ++ rest := by
    rw [List.drop_append_of_le_length (Nat.min_le_right _ _)]
    rcases Nat.le_total n left.length with hn | hn
    · rw [Nat.min_eq_left hn]
    · rw [Nat.min_eq_right hn, List.drop_length, List.drop_of_length_le hn]
  have hcount : done.length + (left.take n).length = l.value.length ↔ left.length ≤ n := by
    rw [h.value, List.length_append, List.length_take]
    omega
  refine ⟨{ ctx with
      stream := left.drop n ++ rest
      entries := ⟨t, l.value.length, done.length + (left.take n).length⟩ :: es
      finished := (left.drop n ++ rest).isEmpty }, ?_, h.hasPath, h.uriPath, h.path, h.isArray, ?_,
    ?_, rfl, fun hf => List.isEmpty_iff.mp hf⟩
  · unfold getSomeBytes
    rw [if_pos h.hasPath]
    unfold readSomeBytes
    simp only [h.entries, h.stream, streamRead, hsub, hmin, hdrop]
    have hgood : ¬ (done.length + (left.take n).length ≠ l.value.length ∧
        (left.drop n ++ rest).isEmpty = true) := by
      rintro ⟨hne, hempty⟩
      rw [List.isEmpty_iff, List.append_eq_nil_iff, List.drop_eq_nil_iff] at hempty
      exact hne (hcount.mpr hempty.1)
    rw [if_neg hgood]
    simp only [hcount]
  · rw [List.append_assoc, List.take_append_drop, h.value]
  · simp

theorem getSomeBytes_fetched (h : Fetched root ctx l done left ls) (n : Nat) :
    ∃ ctx', getSomeBytes ctx n = (⟨0, left.take n, decide (left.length ≤ n)⟩, ctx') ∧
      Fetched root ctx' l (done ++ left.take n) (left.drop n) ls := by
  obtain ⟨t, es, rest, hH, hacc⟩ := h
  obtain ⟨ctx', he, hH'⟩ := getSomeBytes_holding hH n
  exact ⟨ctx', he, t, es, rest, hH', hacc⟩

/-- **`tlv_read_to_end` reads a value that fits the buffer, whole.** -/
theorem readToEnd_fetched (h : Fetched root ctx l done left ls) {room : Nat}
    (hroom : left.length ≤ room) :
    ∃ ctx', readToEnd ctx room = ((0, left), ctx') ∧ Fetched root ctx' l (done ++ left) [] ls := by
  obtain ⟨ctx', he, hF⟩ := getSomeBytes_fetched h room
  rw [List.take_of_length_le hroom, List.drop_of_length_le hroom] at hF
  refine ⟨ctx', ?_, hF⟩
  rw [readToEnd, readToEndLoop, he]
  simp [hroom, List.take_of_length_le hroom]

theorem readWholeEntry_fetched (h : Fetched root ctx l [] l.value ls) {room : Nat}
    (hroom : l.value.length ≤ room) :
    ∃ ctx', readWholeEntry ctx room = ((0, l.value), ctx') ∧ Fetched root ctx' l l.value [] ls := by
  obtain ⟨t, es, rest, hH, hacc⟩ := h
  have hstart : ctx.valueStarted = false := by
    unfold TlvIn.valueStarted
    rw [hH.entries]
    rfl
  obtain ⟨ctx', hr, hF⟩ := readToEnd_fetched ⟨t, es, rest, hH, hacc⟩ hroom
  refine ⟨ctx', ?_, hF⟩
  unfold readWholeEntry
  rw [if_pos hH.hasPath, if_neg (by simp [hstart]), hr]

end Value

/-! ## 6. The next entry -/

theorem skipLoop_holding {root : UriPath} {t : IdType} {l : Leaf} {rest : List UInt8}
    {es : List InEntry} : ∀ (fuel : Nat) {ctx : TlvIn} {done left : List UInt8},
      Holding root ctx t l done left rest es → left.length < fuel →
      ∃ ctx', skipLoop fuel ctx = (0, ctx') ∧ Holding root ctx' t l l.value [] rest es
  | 0, _, _, _, _, hfuel => absurd hfuel (Nat.not_lt_zero _)
  | fuel + 1, ctx, done, left, h, hfuel => by
      obtain ⟨ctx', he, hH⟩ := getSomeBytes_holding h 64
      rw [skipLoop, he]
      by_cases hlen : left.length ≤ 64
      · have hdone : done ++ left.take 64 = l.value := by
          rw [List.take_of_length_le hlen, h.value]
        rw [hdone, List.drop_of_length_le hlen] at hH
        exact ⟨ctx', by simp [hlen], hH⟩
      · have hfuel' : (left.drop 64).length < fuel := by
          rw [List.length_drop]
          omega
        obtain ⟨ctx2, he2, hH2⟩ := skipLoop_holding fuel hH hfuel'
        exact ⟨ctx2, by simp [hlen, he2], hH2⟩

/-- `tlv_next_entry` drops what is left of the value and leaves the entries that are read. -/
theorem nextEntry_holding {root : UriPath} {ctx : TlvIn} {t : IdType} {l : Leaf}
    {done left rest : List UInt8} {es : List InEntry}
    (h : Holding root ctx t l done left rest es) :
    ∃ ctx', nextEntry ctx = (0, ctx') ∧ ctx'.hasPath = false ∧ ctx'.uriPath = root ∧
      ctx'.entries = (leave es (l.path.setId t idInvalid)).1 ∧
      ctx'.currentPath = (leave es (l.path.setId t idInvalid)).2 ∧ ctx'.stream = rest ∧
      (ctx'.finished = true → ctx'.stream = []) := by
  have hfuel : left.length < l.value.length + 1 := by
    rw [h.value, List.length_append]
    omega
  obtain ⟨ctx1, hskip, hH⟩ := skipLoop_holding _ h hfuel
  obtain ⟨len', hpop⟩ := popLoop_eq ctx1.entries ctx1.currentPath ctx1.currentPathLen
  have hleave : leave ctx1.entries ctx1.currentPath = leave es (l.path.setId t idInvalid) := by
    rw [hH.entries, hH.path, leave, if_pos rfl]
  have hs := hH.stream
  rw [List.nil_append] at hs
  unfold nextEntry
  rw [if_pos h.hasPath, h.entries]
  simp only [hskip, hpop]
  exact ⟨_, rfl, rfl, hH.uriPath, congrArg Prod.fst hleave, congrArg Prod.snd hleave, hs,
    hH.finished⟩

/-- **`tlv_next_entry` goes on to the leaf that follows.** -/
theorem nextEntry_fetched {root : UriPath} {ctx : TlvIn} {l : Leaf} {done left : List UInt8}
    {ls : List Leaf} (h : Fetched root ctx l done left ls) :
    ∃ ctx', nextEntry ctx = (0, ctx') ∧ Between root ctx' ls := by
  obtain ⟨t, es, rest, hH, hacc⟩ := h
  obtain ⟨ctx', he, h1, h2, h3, h4, h5, h6⟩ := nextEntry_holding hH
  refine ⟨ctx', he, h1, h2, ?_, h6⟩
  rw [h3, h4, h5]
  exact hacc

end Anjay.Tlv
