/-
  File:      Anjay/Io/Tlv/Grammar.lean
  Subject:   Which payloads the TLV input context takes as complete.

  * `Entries`: a concatenation of complete TLV entries, with the current path threaded through them.
  * `Truncated`: a payload that stops inside a parent entry, between two of its children.
  * `accepts_iff`: the accepted byte strings are exactly these two.
  * `walk_end_iff_entries`: on a payload that does not stop inside a parent, the walk ends regularly
    iff the payload is a concatenation of complete entries, and it reads exactly their leaves.
-/
import Anjay.Io.Tlv.Walk

namespace Anjay.Tlv

/-! ## 1. Complete payloads -/

/-- The checks on the id and the path of a header; `h.path cur` is the path of the entry. -/
structure EntryOk (root cur : UriPath) (h : Header) : Prop where
  id_valid : h.id ≠ idInvalid
  inside_root : (h.path cur).outsideBase root = false

/-- The path after an entry: the id of its kind is taken out again. -/
def Header.exitPath (h : Header) (cur : UriPath) : UriPath := cur.setId h.tlvType.idType idInvalid

/-- **A concatenation of complete entries**, read from the current path `cur`; the last argument is
    the current path behind it. An entry is a leaf when its kind holds a value or it is empty, and
    otherwise its payload is again a concatenation of complete entries. -/
inductive Entries (root : UriPath) : UriPath → List UInt8 → List Leaf → UriPath → Prop
  | nil (cur : UriPath) : Entries root cur [] [] cur
  | leaf {cur cur' : UriPath} {hdr v rest : List UInt8} {h : Header} {ls : List Leaf}
      (parse : parseHeader hdr = some (h, [])) (value : h.hasValue = true)
      (length : v.length = h.length) (ok : EntryOk root cur h)
      (next : Entries root (h.exitPath (h.path cur)) rest ls cur') :
      Entries root cur (hdr ++ (v ++ rest)) (⟨h.path cur, h.tlvType = .ridArray, v⟩ :: ls) cur'
  | node {cur cur₁ cur' : UriPath} {hdr body rest : List UInt8} {h : Header} {ls₁ ls₂ : List Leaf}
      (parse : parseHeader hdr = some (h, [])) (value : h.hasValue = false)
      (length : body.length = h.length) (ok : EntryOk root cur h)
      (children : Entries root (h.path cur) body ls₁ cur₁)
      (next : Entries root (h.exitPath cur₁) rest ls₂ cur') :
      Entries root cur (hdr ++ (body ++ rest)) (ls₁ ++ ls₂) cur'

/-- **A payload that stops inside a parent entry**: complete entries, then the header of an entry
    with children whose declared length goes beyond the end, and a part of its children. Inside an
    enclosing parent the declared length still has to fit, which is the bound. -/
inductive Truncated (root : UriPath) : Option Nat → UriPath → List UInt8 → List Leaf → Prop
  | here {bound : Option Nat} {cur cur₁ cur₂ : UriPath} {pre hdr body : List UInt8} {h : Header}
      {ls₁ ls₂ : List Leaf}
      (before : Entries root cur pre ls₁ cur₁)
      (parse : parseHeader hdr = some (h, [])) (value : h.hasValue = false)
      (ok : EntryOk root cur₁ h) (fits : ∀ n, bound = some n → pre.length + h.size ≤ n)
      (cut : body.length < h.length) (children : Entries root (h.path cur₁) body ls₂ cur₂) :
      Truncated root bound cur (pre ++ (hdr ++ body)) (ls₁ ++ ls₂)
  | inside {bound : Option Nat} {cur cur₁ : UriPath} {pre hdr body : List UInt8} {h : Header}
      {ls₁ ls₂ : List Leaf}
      (before : Entries root cur pre ls₁ cur₁)
      (parse : parseHeader hdr = some (h, [])) (value : h.hasValue = false)
      (ok : EntryOk root cur₁ h) (fits : ∀ n, bound = some n → pre.length + h.size ≤ n)
      (cut : body.length < h.length)
      (children : Truncated root (some h.length) (h.path cur₁) body ls₂) :
      Truncated root bound cur (pre ++ (hdr ++ body)) (ls₁ ++ ls₂)

theorem parseHeader_whole {s rest : List UInt8} {h : Header} (hp : parseHeader s = some (h, rest)) :
    ∃ hdr, s = hdr ++ rest ∧ hdr.length = h.headerLen ∧ 0 < h.headerLen ∧
      parseHeader hdr = some (h, []) := by
  obtain ⟨hdr, hs, hlen, h2, hre⟩ := parseHeader_some hp
  refine ⟨hdr, hs, hlen, by omega, ?_⟩
  have h0 := hre []
  rwa [List.append_nil] at h0

theorem parseHeader_extend {hdr : List UInt8} {h : Header} (hp : parseHeader hdr = some (h, []))
    (rest : List UInt8) : parseHeader (hdr ++ rest) = some (h, rest) ∧ hdr.length = h.headerLen := by
  obtain ⟨pre, hs, hlen, -, hre⟩ := parseHeader_some hp
  rw [List.append_nil] at hs
  subst hs
  exact ⟨hre rest, hlen⟩

theorem entries_append {root cur c₁ c₂ : UriPath} {a b : List UInt8} {l₁ l₂ : List Leaf}
    (ha : Entries root cur a l₁ c₁) (hb : Entries root c₁ b l₂ c₂) :
    Entries root cur (a ++ b) (l₁ ++ l₂) c₂ := by
  induction ha with
  | nil => exact hb
  | leaf parse value length ok _ ih =>
      rw [List.append_assoc, List.append_assoc]
      exact .leaf parse value length ok (ih hb)
  | node parse value length ok children _ _ ih =>
      rw [List.append_assoc, List.append_assoc, List.append_assoc]
      exact .node parse value length ok children (ih hb)

theorem entries_nil {root cur cur' : UriPath} {s : List UInt8} {ls : List Leaf}
    (h : Entries root cur s ls cur') (hs : s = []) : ls = [] ∧ cur' = cur := by
  cases h with
  | nil => exact ⟨rfl, rfl⟩
  | leaf parse =>
      rw [List.append_eq_nil_iff] at hs
      rw [hs.1] at parse
      cases parse
  | node parse =>
      rw [List.append_eq_nil_iff] at hs
      rw [hs.1] at parse
      cases parse

theorem truncated_prepend {root cur c₁ : UriPath} {a b : List UInt8} {l₁ l₂ : List Leaf}
    {bound bound' : Option Nat} (ha : Entries root cur a l₁ c₁) (hb : Truncated root bound c₁ b l₂)
    (hbound : ∀ n, bound' = some n → bound = some (n - a.length) ∧ a.length ≤ n) :
    Truncated root bound' cur (a ++ b) (l₁ ++ l₂) := by
  have hfits : ∀ {p : List UInt8} {k : Nat}, (∀ n, bound = some n → p.length + k ≤ n) →
      ∀ n, bound' = some n → (a ++ p).length + k ≤ n := by
    intro p k hf n hn
    obtain ⟨h1, h2⟩ := hbound n hn
    have h3 := hf _ h1
    rw [List.length_append]
    omega
  cases hb with
  | here before parse value ok fits cut children =>
      rw [← List.append_assoc a, ← List.append_assoc l₁]
      exact .here (entries_append ha before) parse value ok (hfits fits) cut children
  | inside before parse value ok fits cut children =>
      rw [← List.append_assoc a, ← List.append_assoc l₁]
      exact .inside (entries_append ha before) parse value ok (hfits fits) cut children

/-! ## 2. From the accepted byte strings to the grammar -/

/-- Complete, or stopping inside a parent. -/
def Rest (root : UriPath) (bound : Option Nat) (cur : UriPath) (s : List UInt8) (ls : List Leaf) :
    Prop :=
  (∃ cur', Entries root cur s ls cur') ∨ Truncated root bound cur s ls

/-- What the bytes are for a stack of open entries: either they finish the innermost one and go on
    with the others, or they stop inside it. -/
def Residual (root : UriPath) : List InEntry → UriPath → List UInt8 → List Leaf → Prop
  | [], cur, s, ls => Rest root none cur s ls
  | e :: es, cur, s, ls =>
      (∃ b s' l₁ l₂ c, s = b ++ s' ∧ ls = l₁ ++ l₂ ∧ e.bytesRead + b.length = e.length ∧
        Entries root cur b l₁ c ∧ Residual root es (c.setId e.type idInvalid) s' l₂) ∨
      e.bytesRead + s.length < e.length ∧ Rest root (some (e.length - e.bytesRead)) cur s ls

/-- No open entry has been read beyond its length. -/
def StackOk (es : List InEntry) : Prop := ∀ e ∈ es, e.bytesRead ≤ e.length

theorem stackOk_chargeTop {k : Nat} : ∀ {es : List InEntry}, StackOk es → roomTop k es →
    StackOk (chargeTop k es)
  | [], h, _ => h
  | _ :: _, h, hroom => fun e he => by
      rcases List.mem_cons.mp he with rfl | he
      · exact hroom
      · exact h e (List.mem_cons_of_mem _ he)

theorem stackOk_leave : ∀ {es : List InEntry} (cur : UriPath), StackOk es → StackOk (leave es cur).1
  | [], _, h => h
  | e :: es, cur, h => by
      unfold leave
      split
      · exact stackOk_leave _ fun e' he' => h e' (List.mem_cons_of_mem _ he')
      · exact h

theorem residual_nil (root : UriPath) : ∀ {es : List InEntry} (cur : UriPath), StackOk es →
    Residual root es cur [] []
  | [], cur, _ => Or.inl ⟨cur, .nil cur⟩
  | e :: es, cur, h => by
      have hes : StackOk es := fun e' he' => h e' (List.mem_cons_of_mem _ he')
      rcases Nat.lt_or_ge e.bytesRead e.length with hlt | hge
      · exact Or.inr ⟨hlt, Or.inl ⟨cur, .nil cur⟩⟩
      · have heq : e.bytesRead = e.length := Nat.le_antisymm (h e List.mem_cons_self) hge
        exact Or.inl ⟨[], [], [], [], cur, rfl, rfl, heq, .nil cur, residual_nil root _ hes⟩

theorem residual_leave {root : UriPath} {s : List UInt8} {ls : List Leaf} :
    ∀ {es : List InEntry} {cur : UriPath},
      Residual root (leave es cur).1 (leave es cur).2 s ls → Residual root es cur s ls
  | [], _, h => h
  | e :: es, cur, h => by
      unfold leave at h
      split at h
      · rename_i heq
        exact Or.inl ⟨[], s, [], ls, cur, rfl, rfl, heq.symm, .nil cur, residual_leave h⟩
      · exact h

/-- Complete entries in front, charged to the innermost open entry. -/
theorem residual_prepend {root : UriPath} {a s : List UInt8} {l₁ l₂ : List Leaf} {cur c₁ : UriPath}
    (ha : Entries root cur a l₁ c₁) :
    ∀ {es : List InEntry}, roomTop a.length es → Residual root (chargeTop a.length es) c₁ s l₂ →
      Residual root es cur (a ++ s) (l₁ ++ l₂)
  | [], _, h => by
      rcases h with ⟨c₂, hb⟩ | hb
      · exact Or.inl ⟨c₂, entries_append ha hb⟩
      · exact Or.inr (truncated_prepend ha hb fun n hn => by cases hn)
  | e :: es, hroom, h => by
      have hroom' : e.bytesRead + a.length ≤ e.length := hroom
      rcases h with ⟨b, s', m₁, m₂, c, rfl, rfl, hlen, hb, hres⟩ | ⟨hlt, hrest⟩
      · refine Or.inl ⟨a ++ b, s', l₁ ++ m₁, m₂, c, (List.append_assoc _ _ _).symm,
          (List.append_assoc _ _ _).symm, ?_, entries_append ha hb, hres⟩
        have hlen' : e.bytesRead + a.length + b.length = e.length := hlen
        rw [List.length_append]
        omega
      · have hlt' : e.bytesRead + a.length + s.length < e.length := hlt
        refine Or.inr ⟨by rw [List.length_append]; omega, ?_⟩
        rcases hrest with ⟨c₂, hb⟩ | hb
        · exact Or.inl ⟨c₂, entries_append ha hb⟩
        · refine Or.inr (truncated_prepend ha hb fun n hn => ?_)
          simp only [Option.some.injEq] at hn
          subst hn
          refine ⟨?_, by omega⟩
          show some (e.length - (e.bytesRead + a.length)) = _
          rw [Nat.sub_add_eq]

theorem accepts_residual {root : UriPath} {es : List InEntry} {cur : UriPath} {s : List UInt8}
    {ls : List Leaf} (h : Accepts root es cur s ls) : StackOk es → Residual root es cur s ls := by
  induction h with
  | eof es cur => exact residual_nil root cur
  | @leaf es cur s v rest h ls parse value length ok next ih =>
      intro hes
      obtain ⟨hdr, rfl, hlen, -, hparse⟩ := parseHeader_whole parse
      have hsize : (hdr ++ v).length = h.size := by
        rw [List.length_append, hlen, length, Header.size, Nat.add_comm]
      have hone : Entries root cur (hdr ++ v) [⟨h.path cur, h.tlvType = .ridArray, v⟩]
          (h.exitPath (h.path cur)) := by
        have h0 : Entries root (h.exitPath (h.path cur)) [] [] _ := .nil _
        have hl := Entries.leaf hparse value length ⟨ok.id_valid, ok.inside_root⟩ h0
        rwa [List.append_nil] at hl
      have hres := residual_leave
        (ih (stackOk_leave _ (stackOk_chargeTop hes (ok.inside_parent))))
      rw [← List.append_assoc]
      refine residual_prepend hone (by rw [hsize]; exact ok.inside_parent) ?_
      rw [hsize]
      exact hres
  | @node es cur s rest h ls parse value ok next ih =>
      intro hes
      obtain ⟨hdr, rfl, hlen, -, hparse⟩ := parseHeader_whole parse
      have hok : EntryOk root cur h := ⟨ok.id_valid, ok.inside_root⟩
      have hstack : StackOk (⟨h.tlvType.idType, h.length, 0⟩ :: chargeTop h.size es) := fun e he => by
        rcases List.mem_cons.mp he with rfl | he
        · exact Nat.zero_le _
        · exact stackOk_chargeTop hes ok.inside_parent e he
      rcases ih hstack with ⟨b, s', m₁, m₂, c, rfl, rfl, hblen, hb, hres⟩ | ⟨hlt, hrest⟩
      · have hblen' : b.length = h.length := (Nat.zero_add _).symm.trans hblen
        have hsize : (hdr ++ b).length = h.size := by
          rw [List.length_append, hlen, hblen', Header.size, Nat.add_comm]
        have hone : Entries root cur (hdr ++ b) m₁ (h.exitPath c) := by
          have h0 : Entries root (h.exitPath c) [] [] _ := .nil _
          have hn := Entries.node hparse value hblen' hok hb h0
          rwa [List.append_nil, List.append_nil] at hn
        rw [← List.append_assoc]
        refine residual_prepend hone (by rw [hsize]; exact ok.inside_parent) ?_
        rw [hsize]
        exact hres
      · have hcut : rest.length < h.length := by
          have : 0 + rest.length < h.length := hlt
          omega
        have htrunc : ∀ bound : Option Nat, (∀ n, bound = some n → h.size ≤ n) →
            Truncated root bound cur (hdr ++ rest) ls := by
          intro bound hbound
          have hfits : ∀ n, bound = some n → ([] : List UInt8).length + h.size ≤ n := fun n hn => by
            rw [List.length_nil, Nat.zero_add]
            exact hbound n hn
          rcases hrest with ⟨c₂, hb⟩ | hb
          · exact .here (.nil cur) hparse value hok hfits hcut hb
          · exact .inside (.nil cur) hparse value hok hfits hcut hb
        cases es with
        | nil => exact Or.inr (htrunc none fun n hn => by cases hn)
        | cons e es =>
            have hroom : e.bytesRead + h.size ≤ e.length := ok.inside_parent
            have hsize : h.size = h.length + h.headerLen := rfl
            refine Or.inr ⟨?_, Or.inr (htrunc _ fun n hn => ?_)⟩
            · rw [List.length_append, hlen]
              omega
            · simp only [Option.some.injEq] at hn
              omega

/-! ## 3. From the grammar to the accepted byte strings -/

theorem chargeTop_chargeTop (j k : Nat) : ∀ es : List InEntry,
    chargeTop k (chargeTop j es) = chargeTop (j + k) es
  | [] => rfl
  | e :: es => by
      show (⟨e.type, e.length, e.bytesRead + j + k⟩ :: es : List InEntry) = _
      rw [Nat.add_assoc]
      rfl

theorem roomTop_mono {j k : Nat} (h : j ≤ k) : ∀ {es : List InEntry}, roomTop k es → roomTop j es
  | [], _ => trivial
  | _ :: _, hk => Nat.le_trans (Nat.add_le_add_left h _) hk

theorem roomTop_chargeTop {j k : Nat} : ∀ {es : List InEntry}, roomTop (j + k) es →
    roomTop k (chargeTop j es)
  | [], _ => trivial
  | e :: es, h => by
      show e.bytesRead + j + k ≤ e.length
      have h' : e.bytesRead + (j + k) ≤ e.length := h
      omega

/-- An entry with room left is not left. -/
theorem leave_room {k : Nat} (hk : 0 < k) (cur : UriPath) : ∀ {es : List InEntry}, roomTop k es →
    leave es cur = (es, cur)
  | [], _ => rfl
  | e :: es, h => by
      have h' : e.bytesRead + k ≤ e.length := h
      rw [leave, if_neg (by omega)]

theorem hasValue_false_length {h : Header} (hv : h.hasValue = false) : 0 < h.length := by
  unfold Header.hasValue at hv
  rw [decide_eq_false_iff_not, not_or] at hv
  exact Nat.pos_of_ne_zero hv.1

/-- Going on behind an entry: the entries after it (if any) come first. -/
theorem accepts_continue {root : UriPath} {k : Nat} {rest s : List UInt8} {l₁ l₂ : List Leaf}
    {c₁ c₂ : UriPath} {es : List InEntry} (hroom : roomTop (k + rest.length) es)
    (hrest : Entries root c₁ rest l₁ c₂)
    (ih : rest ≠ [] → ∀ es' : List InEntry, roomTop rest.length es' →
      Accepts root (leave (chargeTop rest.length es') c₂).1 (leave (chargeTop rest.length es') c₂).2
        s l₂ → Accepts root es' c₁ (rest ++ s) (l₁ ++ l₂))
    (hnext : Accepts root (leave (chargeTop (k + rest.length) es) c₂).1
      (leave (chargeTop (k + rest.length) es) c₂).2 s l₂) :
    Accepts root (leave (chargeTop k es) c₁).1 (leave (chargeTop k es) c₁).2 (rest ++ s)
      (l₁ ++ l₂) := by
  by_cases hne : rest = []
  · obtain ⟨rfl, rfl⟩ := entries_nil hrest hne
    subst hne
    exact hnext
  · have hpos : 0 < rest.length := List.length_pos_of_ne_nil hne
    rw [leave_room hpos c₁ (roomTop_chargeTop hroom)]
    refine ih hne _ (roomTop_chargeTop hroom) ?_
    rw [chargeTop_chargeTop]
    exact hnext

/-- **Complete entries inside the innermost open entry are accepted, whatever comes after.** -/
theorem accepts_entries {root cur cur' : UriPath} {b : List UInt8} {l₁ : List Leaf}
    (h : Entries root cur b l₁ cur') : ∀ {s : List UInt8} {l₂ : List Leaf} (es : List InEntry),
      b ≠ [] → roomTop b.length es →
      Accepts root (leave (chargeTop b.length es) cur').1 (leave (chargeTop b.length es) cur').2
        s l₂ → Accepts root es cur (b ++ s) (l₁ ++ l₂) := by
  induction h with
  | nil cur =>
      intro s l₂ es hne _ _
      exact absurd rfl hne
  | @leaf cur cur' hdr v rest h ls parse value length ok hrest ih =>
      intro s l₂ es _ hroom hnext
      have hsplit : (hdr ++ (v ++ rest)).length = h.size + rest.length := by
        have := (parseHeader_extend parse []).2
        simp only [List.length_append, Header.size]
        omega
      rw [hsplit] at hroom hnext
      rw [List.append_assoc, List.append_assoc]
      exact .leaf (parseHeader_extend parse _).1 value length
        ⟨ok.id_valid, roomTop_mono (Nat.le_add_right _ _) hroom, ok.inside_root⟩
        (accepts_continue hroom hrest (fun hne es' hr ha => ih es' hne hr ha) hnext)
  | @node cur cur₁ cur' hdr body rest h ls₁ ls₂ parse value length ok hbody hrest ihb ih =>
      intro s l₂ es _ hroom hnext
      have hsplit : (hdr ++ (body ++ rest)).length = h.size + rest.length := by
        have := (parseHeader_extend parse []).2
        simp only [List.length_append, Header.size]
        omega
      rw [hsplit] at hroom hnext
      have hbne : body ≠ [] := by
        have := hasValue_false_length value
        rintro rfl
        rw [List.length_nil] at length
        omega
      rw [List.append_assoc, List.append_assoc, List.append_assoc]
      refine .node (parseHeader_extend parse _).1 value
        ⟨ok.id_valid, roomTop_mono (Nat.le_add_right _ _) hroom, ok.inside_root⟩ ?_
      refine ihb _ hbne ?_ ?_
      · show 0 + body.length ≤ h.length
        omega
      · have hpop : leave (chargeTop body.length
            (⟨h.tlvType.idType, h.length, 0⟩ :: chargeTop h.size es)) cur₁
            = leave (chargeTop h.size es) (h.exitPath cur₁) := by
          show leave (⟨h.tlvType.idType, h.length, 0 + body.length⟩ :: _) cur₁ = _
          rw [leave, if_pos (by show h.length = 0 + body.length; omega)]
          rfl
        rw [hpop]
        exact accepts_continue hroom hrest (fun hne es' hr ha => ih es' hne hr ha) hnext

/-- Entries that do not fill the innermost open entry, at the end of the stream. -/
theorem accepts_entries_end {root cur cur' : UriPath} {b : List UInt8} {ls : List Leaf}
    (h : Entries root cur b ls cur') {es : List InEntry} (hroom : roomTop b.length es) :
    Accepts root es cur b ls := by
  by_cases hne : b = []
  · obtain ⟨rfl, -⟩ := entries_nil h hne
    subst hne
    exact .eof _ _
  · have hacc := accepts_entries h es hne hroom (Accepts.eof _ _)
    rwa [List.append_nil, List.append_nil] at hacc

/-- The innermost open entry has exactly `bound` bytes left. -/
def roomIs : Option Nat → List InEntry → Prop
  | none, es => es = []
  | some n, es => ∃ e es', es = e :: es' ∧ e.bytesRead + n = e.length

theorem accepts_before {root cur cur₁ : UriPath} {pre s : List UInt8} {l₁ l₂ : List Leaf}
    {k : Nat} (hk : 0 < k) {es : List InEntry} (hpre : Entries root cur pre l₁ cur₁)
    (hroom : roomTop (pre.length + k) es)
    (hs : Accepts root (chargeTop pre.length es) cur₁ s l₂) :
    Accepts root es cur (pre ++ s) (l₁ ++ l₂) := by
  by_cases hne : pre = []
  · obtain ⟨rfl, rfl⟩ := entries_nil hpre hne
    subst hne
    cases es with
    | nil => exact hs
    | cons e es => exact hs
  · refine accepts_entries hpre es hne (roomTop_mono (Nat.le_add_right _ _) hroom) ?_
    rw [leave_room hk cur₁ (roomTop_chargeTop hroom)]
    exact hs

theorem roomTop_of_fits {bound : Option Nat} {k : Nat} {es : List InEntry} (his : roomIs bound es)
    (hfits : ∀ n, bound = some n → k ≤ n) : roomTop k es := by
  cases bound with
  | none =>
      have hes : es = [] := his
      subst hes
      trivial
  | some n =>
      obtain ⟨e, es', rfl, he⟩ := his
      have := hfits n rfl
      show e.bytesRead + k ≤ e.length
      omega

theorem size_pos (h : Header) (hv : h.hasValue = false) : 0 < h.size :=
  Nat.lt_of_lt_of_le (hasValue_false_length hv) (Nat.le_add_right _ _)

theorem accepts_truncated {root : UriPath} {bound : Option Nat} {cur : UriPath} {s : List UInt8}
    {ls : List Leaf} (h : Truncated root bound cur s ls) :
    ∀ {es : List InEntry}, roomIs bound es → Accepts root es cur s ls := by
  induction h with
  | here before parse value ok fits cut children =>
      intro es his
      have hroom := roomTop_of_fits his fits
      refine accepts_before (size_pos _ value) before hroom ?_
      refine .node (parseHeader_extend parse _).1 value
        ⟨ok.id_valid, roomTop_chargeTop hroom, ok.inside_root⟩ ?_
      exact accepts_entries_end children ((Nat.zero_add _).le.trans (Nat.le_of_lt cut))
  | inside before parse value ok fits cut children ih =>
      intro es his
      have hroom := roomTop_of_fits his fits
      refine accepts_before (size_pos _ value) before hroom ?_
      refine .node (parseHeader_extend parse _).1 value
        ⟨ok.id_valid, roomTop_chargeTop hroom, ok.inside_root⟩ ?_
      exact ih ⟨_, _, rfl, Nat.zero_add _⟩

/-- **The accepted payloads are the concatenations of complete entries and the payloads that stop
    inside a parent.** -/
theorem accepts_iff {root : UriPath} {s : List UInt8} {ls : List Leaf} :
    Accepts root [] root s ls ↔
      (∃ cur', Entries root root s ls cur') ∨ Truncated root none root s ls := by
  constructor
  · intro h
    exact accepts_residual h fun e he => absurd he List.not_mem_nil
  · rintro (⟨cur', h⟩ | h)
    · exact accepts_entries_end h trivial
    · exact accepts_truncated h rfl

/-! ## 4. Complete payloads and the walk -/

/-- The payload stops inside a parent entry, between two of its children. -/
def EndsInParent (root : UriPath) (payload : List UInt8) : Prop :=
  ∃ ls, Truncated root none root payload ls

theorem parseHeader_unique {hdr hdr' r r' : List UInt8} {h h' : Header}
    (hp : parseHeader hdr = some (h, [])) (hp' : parseHeader hdr' = some (h', []))
    (he : hdr ++ r = hdr' ++ r') : h = h' ∧ r = r' := by
  have h1 := (parseHeader_extend hp r).1
  rw [he, (parseHeader_extend hp' r').1] at h1
  simp only [Option.some.injEq, Prod.mk.injEq] at h1
  exact ⟨h1.1.symm, h1.2.symm⟩

/-- Complete entries do not have an open parent at their end. -/
theorem entries_not_open {root cur₀ cur₁ : UriPath} {pre hdr body : List UInt8} {l₁ : List Leaf}
    {h : Header} (hpre : Entries root cur₀ pre l₁ cur₁) (parse : parseHeader hdr = some (h, []))
    (value : h.hasValue = false) (cut : body.length < h.length) :
    ∀ {cur cur' : UriPath} {ls : List Leaf} {s : List UInt8}, s = pre ++ (hdr ++ body) →
      Entries root cur s ls cur' → False := by
  induction hpre with
  | nil =>
      intro cur cur' ls s hs hE
      rw [List.nil_append] at hs
      cases hE with
      | nil =>
          have hnil := (List.append_eq_nil_iff.mp hs.symm).1
          rw [hnil] at parse
          cases parse
      | leaf parse' value' =>
          obtain ⟨rfl, -⟩ := parseHeader_unique parse' parse hs
          rw [value'] at value
          cases value
      | node parse' value' length' =>
          obtain ⟨rfl, hbody⟩ := parseHeader_unique parse' parse hs
          rw [← hbody, List.length_append, length'] at cut
          omega
  | leaf parse₁ value₁ length₁ _ _ ih =>
      intro cur cur' ls s hs hE
      rw [List.append_assoc, List.append_assoc] at hs
      cases hE with
      | nil =>
          have hnil := (List.append_eq_nil_iff.mp hs.symm).1
          rw [hnil] at parse₁
          cases parse₁
      | leaf parse' value' length' _ next' =>
          obtain ⟨rfl, hrest⟩ := parseHeader_unique parse' parse₁ hs
          exact ih (List.append_inj_right hrest (length'.trans length₁.symm)) next'
      | node parse' value' =>
          obtain ⟨rfl, -⟩ := parseHeader_unique parse' parse₁ hs
          rw [value'] at value₁
          cases value₁
  | node parse₁ value₁ length₁ _ _ _ _ ih =>
      intro cur cur' ls s hs hE
      rw [List.append_assoc, List.append_assoc] at hs
      cases hE with
      | nil =>
          have hnil := (List.append_eq_nil_iff.mp hs.symm).1
          rw [hnil] at parse₁
          cases parse₁
      | leaf parse' value' =>
          obtain ⟨rfl, -⟩ := parseHeader_unique parse' parse₁ hs
          rw [value'] at value₁
          cases value₁
      | node parse' value' length' _ _ next' =>
          obtain ⟨rfl, hrest⟩ := parseHeader_unique parse' parse₁ hs
          exact ih (List.append_inj_right hrest (length'.trans length₁.symm)) next'

/-- **A complete payload does not end inside a parent.** -/
theorem not_endsInParent_of_entries {root cur' : UriPath} {s : List UInt8} {ls : List Leaf}
    (h : Entries root root s ls cur') : ¬ EndsInParent root s := by
  rintro ⟨l', ht⟩
  cases ht with
  | here before parse value _ _ cut _ => exact entries_not_open before parse value cut rfl h
  | inside before parse value _ _ cut _ => exact entries_not_open before parse value cut rfl h

/-- **Away from payloads that stop inside a parent, the walk ends regularly exactly on the
    concatenations of complete entries, and reads their leaves in order.** -/
theorem walk_end_iff_entries {chunk : Nat} (hc : 0 < chunk) {root : UriPath}
    {payload : List UInt8} (hcut : ¬ EndsInParent root payload) (ls : List Leaf) :
    walk chunk root payload = (ls, getPathEnd) ↔ ∃ cur', Entries root root payload ls cur' := by
  rw [walk_end_iff hc, accepts_iff]
  constructor
  · rintro (h | h)
    · exact h
    · exact absurd ⟨ls, h⟩ hcut
  · exact Or.inl

/-- `/3` with the instance `0` that holds the resource `1` with the value `A`. -/
theorem walk_end_iff_entries_nested :
    ¬ EndsInParent (.object 3) [0x03, 0x00, 0xC1, 0x01, 0x41] ∧
      (walk 1 (.object 3) [0x03, 0x00, 0xC1, 0x01, 0x41]
          = ([⟨.resource 3 0 1, false, [0x41]⟩], getPathEnd) ↔
        ∃ cur', Entries (.object 3) (.object 3) [0x03, 0x00, 0xC1, 0x01, 0x41]
          [⟨.resource 3 0 1, false, [0x41]⟩] cur') := by
  have hleaf := Entries.leaf (show parseHeader [0xC1, 0x01] = some (⟨.rid, 1, 1, 2⟩, []) by decide)
    (by decide) (show [0x41].length = 1 from rfl)
    (show EntryOk (.object 3) (.instancePath 3 0) ⟨.rid, 1, 1, 2⟩ from ⟨by decide, by decide⟩) (.nil _)
  have hE := Entries.node (show parseHeader [0x03, 0x00] = some (⟨.iid, 0, 3, 2⟩, []) by decide)
    (by decide) rfl (show EntryOk (.object 3) (.object 3) ⟨.iid, 0, 3, 2⟩ from
      ⟨by decide, by decide⟩) hleaf (.nil _)
  exact ⟨not_endsInParent_of_entries hE,
    walk_end_iff_entries (by decide) (not_endsInParent_of_entries hE) _⟩

/-! ## 5. Strict nesting -/

/-- The kinds of entry an Object Instance or a Multiple-Resource entry holds by its definition. -/
def nests : TlvIdType → TlvIdType → Bool
  | .iid, child => child = .rid ∨ child = .ridArray
  | .ridArray, child => child = .riid
  | _, _ => false

/-- Complete entries in which every kind of entry holds only the kinds it should, and in which the
    path of an entry is its parent's path with the id of the entry. -/
inductive Strict (root : UriPath) : (TlvIdType → Bool) → UriPath → List UInt8 → List Leaf → Prop
  | nil (kinds : TlvIdType → Bool) (cur : UriPath) : Strict root kinds cur [] []
  | leaf {kinds : TlvIdType → Bool} {cur : UriPath} {hdr v rest : List UInt8} {h : Header}
      {ls : List Leaf} (parse : parseHeader hdr = some (h, [])) (kind : kinds h.tlvType = true)
      (value : h.hasValue = true) (length : v.length = h.length) (ok : EntryOk root cur h)
      (next : Strict root kinds cur rest ls) :
      Strict root kinds cur (hdr ++ (v ++ rest)) (⟨h.path cur, h.tlvType = .ridArray, v⟩ :: ls)
  | node {kinds : TlvIdType → Bool} {cur : UriPath} {hdr body rest : List UInt8} {h : Header}
      {ls₁ ls₂ : List Leaf} (parse : parseHeader hdr = some (h, [])) (kind : kinds h.tlvType = true)
      (value : h.hasValue = false) (length : body.length = h.length) (ok : EntryOk root cur h)
      (children : Strict root (nests h.tlvType) (h.path cur) body ls₁)
      (next : Strict root kinds cur rest ls₂) :
      Strict root kinds cur (hdr ++ (body ++ rest)) (ls₁ ++ ls₂)

/-- An Object Instance entry inside an Object Instance entry is read as a leaf `/3/2`. -/
theorem walk_end_not_strict :
    ¬ ∀ (chunk : Nat) (root : UriPath) (payload : List UInt8) (ls : List Leaf), 0 < chunk →
      (walk chunk root payload = (ls, getPathEnd) ↔ Strict root (fun _ => true) root payload ls) := by
  intro hclaim
  have hwalk : walk 1 (.object 3) [0x02, 0x01, 0x00, 0x02]
      = ([⟨.instancePath 3 2, false, []⟩], getPathEnd) := by decide
  have hstrict := (hclaim 1 _ _ _ (by decide)).mp hwalk
  have hchild : ∀ {cur : UriPath} {s : List UInt8} {ls : List Leaf}, s = [0x00, 0x02] →
      ¬ Strict (.object 3) (nests .iid) cur s ls := by
    intro cur s ls hs h
    have hh : parseHeader [0x00, 0x02] = some (⟨.iid, 2, 0, 2⟩, []) := by decide
    cases h with
    | nil => cases hs
    | leaf parse kind =>
        obtain ⟨rfl, -⟩ := parseHeader_unique parse hh (hs.trans (List.append_nil _).symm)
        exact absurd kind (by decide)
    | node parse kind =>
        obtain ⟨rfl, -⟩ := parseHeader_unique parse hh (hs.trans (List.append_nil _).symm)
        exact absurd kind (by decide)
  have hpayload : ∀ {s : List UInt8} {ls : List Leaf}, s = [0x02, 0x01] ++ [0x00, 0x02] →
      ¬ Strict (.object 3) (fun _ => true) (.object 3) s ls := by
    intro s ls hs h
    have hh : parseHeader [0x02, 0x01] = some (⟨.iid, 1, 2, 2⟩, []) := by decide
    cases h with
    | nil => cases hs
    | leaf parse _ value =>
        obtain ⟨rfl, -⟩ := parseHeader_unique parse hh hs
        exact absurd value (by decide)
    | node parse _ _ length _ children =>
        obtain ⟨rfl, hbody⟩ := parseHeader_unique parse hh hs
        exact hchild (List.append_inj_left (hbody.trans (List.append_nil _).symm) length)
          children
  exact hpayload rfl hstrict

end Anjay.Tlv
