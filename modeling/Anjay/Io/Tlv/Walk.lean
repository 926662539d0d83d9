/-
  File:      Anjay/Io/Tlv/Walk.lean
  Subject:   A whole payload read through the TLV input context.

  * `walk`: path, value, next entry, until the end or an error, as a caller of the context does it;
    values are read with `anjay_get_bytes` in pieces of any size.
  * `walk_end_iff`: the walk ends regularly with the leaves `ls` iff the payload is `Accepts`ed with
    these leaves.
-/
import Anjay.Io.Tlv.Decode

namespace Anjay.Tlv

open Lib

/-! ## 1. The walk -/

/-- Reading one value with `anjay_get_bytes` and a buffer of `chunk` bytes until it is finished. -/
def readValueLoop (chunk : Nat) : Nat → TlvIn → List UInt8 → Except Int (List UInt8) × TlvIn
  | 0, ctx, _ => (.error errInternal, ctx)
  | fuel + 1, ctx, acc =>
      match getBytes ctx chunk with
      | (r, ctx) =>
          if r.code ≠ 0 then (.error r.code, ctx)
          else if r.finished then (.ok (acc ++ r.bytes), ctx)
          else readValueLoop chunk fuel ctx (acc ++ r.bytes)

/-- `get_path`, the value, `next_entry`, again and again: the leaves read and the code the walk
    stopped with, which is `getPathEnd` at a regular end. -/
def walkLoop (chunk : Nat) : Nat → TlvIn → List Leaf × Int
  | 0, _ => ([], errInternal)
  | fuel + 1, ctx =>
      match getPath ctx with
      | (.error e, _) => ([], e)
      | (.ok (path, isArray), ctx) =>
          match readValueLoop chunk (ctx.stream.length + 1) ctx [] with
          | (.error e, _) => ([], e)
          | (.ok value, ctx) =>
              match nextEntry ctx with
              | (code, ctx) =>
                  if code ≠ 0 then ([⟨path, isArray, value⟩], code)
                  else
                    match walkLoop chunk fuel ctx with
                    | (leaves, code) => (⟨path, isArray, value⟩ :: leaves, code)

/-- The walk over a whole payload; there are fewer leaves than bytes. -/
def walk (chunk : Nat) (root : UriPath) (payload : List UInt8) : List Leaf × Int :=
  walkLoop chunk (payload.length + 1) (inputTlvCreate payload (some root))

/-! ## 2. Reading a value in pieces -/

theorem getBytes_holding {root : UriPath} {ctx : TlvIn} {t : IdType} {l : Leaf}
    {done left rest : List UInt8} {es : List InEntry} (h : Holding root ctx t l done left rest es)
    (n : Nat) :
    ∃ ctx', getBytes ctx n = (⟨0, left.take n, decide (left.length ≤ n)⟩, ctx') ∧
      Holding root ctx' t l (done ++ left.take n) (left.drop n) rest es := by
  obtain ⟨ctx', he, hH⟩ := getSomeBytes_holding h n
  refine ⟨ctx', ?_, hH⟩
  have hstop : decide (left.length ≤ n) = true ∨ n - (left.take n).length = 0 := by
    rw [List.length_take, decide_eq_true_eq]
    omega
  rw [getBytes, getBytesLoop, he]
  show (if _ ∨ decide (left.length ≤ n) = true ∨ n - (left.take n).length = 0 then _ else _) = _
  rw [if_pos (Or.inr hstop), List.nil_append]

theorem readValueLoop_holding {root : UriPath} {t : IdType} {l : Leaf} {rest : List UInt8}
    {es : List InEntry} {chunk : Nat} (hc : 0 < chunk) :
    ∀ (fuel : Nat) {ctx : TlvIn} {done left : List UInt8} (acc : List UInt8),
      Holding root ctx t l done left rest es → left.length < fuel →
      ∃ ctx', readValueLoop chunk fuel ctx acc = (.ok (acc ++ left), ctx') ∧
        Holding root ctx' t l l.value [] rest es
  | 0, _, _, _, _, _, hfuel => absurd hfuel (Nat.not_lt_zero _)
  | fuel + 1, ctx, done, left, acc, h, hfuel => by
      obtain ⟨ctx', he, hH⟩ := getBytes_holding h chunk
      rw [readValueLoop, he]
      by_cases hlen : left.length ≤ chunk
      · have hdone : done ++ left.take chunk = l.value := by
          rw [List.take_of_length_le hlen, h.value]
        rw [hdone, List.drop_of_length_le hlen] at hH
        exact ⟨ctx', by simp [hlen, List.take_of_length_le hlen], hH⟩
      · have hfuel' : (left.drop chunk).length < fuel := by
          rw [List.length_drop]
          omega
        obtain ⟨ctx2, he2, hH2⟩ := readValueLoop_holding hc fuel (acc ++ left.take chunk) hH hfuel'
        refine ⟨ctx2, ?_, hH2⟩
        rw [List.append_assoc, List.take_append_drop] at he2
        simp [hlen, he2]

/-- The entry whose value is being read is longer than what is left of the stream. -/
def Short (ctx : TlvIn) : Prop :=
  ctx.hasPath = true ∧ ∃ e es, ctx.entries = e :: es ∧ e.bytesRead + ctx.stream.length < e.length

/-- A read from a value that is cut off: it either meets the end of the stream, which is an error,
    or takes a full buffer and leaves the value as short as before. -/
theorem getSomeBytes_short {ctx : TlvIn} (h : Short ctx) (n : Nat) :
    (∃ bs ctx', getSomeBytes ctx n = (⟨errBadRequest, bs, false⟩, ctx')) ∨
      ∃ ctx', getSomeBytes ctx n = (⟨0, ctx.stream.take n, false⟩, ctx') ∧ n < ctx.stream.length ∧
        Short ctx' := by
  obtain ⟨hp, e, es, he, hlt⟩ := h
  rw [getSomeBytes, if_pos hp, readSomeBytes]
  simp only [he, streamRead]
  by_cases hend : ctx.stream.length ≤ min n (e.length - e.bytesRead)
  · left
    have hne : e.bytesRead + (ctx.stream.take (min n (e.length - e.bytesRead))).length ≠ e.length := by
      rw [List.length_take]
      omega
    have hempty : (ctx.stream.drop (min n (e.length - e.bytesRead))).isEmpty = true := by
      rw [List.isEmpty_iff, List.drop_eq_nil_iff]
      exact hend
    exact ⟨_, _, if_pos ⟨hne, hempty⟩⟩
  · right
    have hmin : min n (e.length - e.bytesRead) = n := by omega
    have htake : (ctx.stream.take n).length = n := by
      rw [List.length_take]
      omega
    have hmore : ¬ (ctx.stream.drop n).isEmpty = true := by
      rw [List.isEmpty_iff, List.drop_eq_nil_iff]
      omega
    have hne : ¬ e.bytesRead + n = e.length := by omega
    simp only [hmin, htake, hne, decide_false]
    refine ⟨_, if_neg (fun hc => hmore hc.2), by omega, hp, _, es, rfl, ?_⟩
    simp only [List.length_drop]
    omega

theorem getBytes_short {ctx : TlvIn} (h : Short ctx) (n : Nat) :
    (∃ bs ctx', getBytes ctx n = (⟨errBadRequest, bs, false⟩, ctx')) ∨
      ∃ bs ctx', getBytes ctx n = (⟨0, bs, false⟩, ctx') ∧ Short ctx' := by
  rw [getBytes, getBytesLoop]
  rcases getSomeBytes_short h n with ⟨bs, ctx', he⟩ | ⟨ctx', he, hlt, hS⟩
  · left
    rw [he]
    exact ⟨_, _, rfl⟩
  · right
    have hfull : n - (ctx.stream.take n).length = 0 := by
      rw [List.length_take]
      omega
    rw [he]
    simp only [hfull, or_true, if_true]
    exact ⟨_, _, rfl, hS⟩

theorem readValueLoop_short (chunk : Nat) :
    ∀ (fuel : Nat) {ctx : TlvIn} (acc : List UInt8), Short ctx →
      ∃ e ctx', readValueLoop chunk fuel ctx acc = (.error e, ctx') ∧ e ≠ getPathEnd
  | 0, ctx, _, _ => ⟨errInternal, ctx, rfl, by decide⟩
  | fuel + 1, ctx, acc, h => by
      rw [readValueLoop]
      rcases getBytes_short h chunk with ⟨bs, ctx', he⟩ | ⟨bs, ctx', he, hS⟩
      · rw [he]
        exact ⟨errBadRequest, ctx', rfl, by decide⟩
      · rw [he]
        exact readValueLoop_short chunk fuel (acc ++ bs) hS

/-! ## 3. From the walk to the grammar -/

theorem getPathLoop_bad {ctx : TlvIn} {h : Header} {rest : List UInt8} (fuel : Nat)
    (hp : parseHeader ctx.stream = some (h, rest))
    (hok : ¬ HeaderOk ctx.uriPath ctx.currentPath ctx.entries h) :
    (getPathLoop (fuel + 1) ctx).1 = .ret errBadRequest := by
  have hid : getId ctx.entryPush = _ := getId_some hp
  rw [getPathLoop, hid]
  by_cases h1 : h.id = idInvalid
  · simp only [if_pos h1]
  · simp only [if_neg h1]
    have hover := parentOverrun_charged { ctx.entryPush.afterHeader h rest with
      entries := ⟨h.tlvType.idType, h.length, 0⟩ :: chargeTop h.size ctx.entries } rfl
    rw [chargeParent_cons (ctx.entryPush.afterHeader h rest) h.headerLen rfl]
    simp only [TlvIn.entryPush, TlvIn.afterHeader, List.tail_cons, Header.size] at hover ⊢
    by_cases h2 : roomTop h.size ctx.entries
    · have h3 : (h.path ctx.currentPath).outsideBase ctx.uriPath = true := by
        by_contra h3
        exact hok ⟨h1, h2, Bool.eq_false_iff.mpr h3⟩
      simp only [Header.path] at h3
      simp only [hover.mpr h2, h3]
      rfl
    · have h2' := Bool.eq_true_of_not_eq_false (fun hf => h2 (hover.mp hf))
      simp only [h2']
      rfl

/-- What the loop of `tlv_get_path` found, read back as a piece of the grammar. -/
def LoopSpec (ctx : TlvIn) : LoopExit × TlvIn → Prop
  | (.ret code, _) => code ≠ getPathEnd
  | (.brk result, ctx') =>
      (result = getPathEnd → Accepts ctx.uriPath ctx.entries ctx.currentPath ctx.stream []) ∧
      (result = 0 → ctx'.hasPath = ctx.hasPath ∧ ctx'.uriPath = ctx.uriPath ∧
        ctx'.stream.length < ctx.stream.length ∧ (ctx'.finished = true → ctx.finished = true) ∧
        ∃ t len es, ctx'.entries = ⟨t, len, 0⟩ :: es ∧
          ∀ v rest ls, ctx'.stream = v ++ rest → v.length = len →
            Accepts ctx.uriPath (leave es (ctx'.currentPath.setId t idInvalid)).1
              (leave es (ctx'.currentPath.setId t idInvalid)).2 rest ls →
            Accepts ctx.uriPath ctx.entries ctx.currentPath ctx.stream
              (⟨ctx'.currentPath, ctx'.isArray, v⟩ :: ls))

theorem getPathLoop_spec : ∀ (fuel : Nat) (ctx : TlvIn), LoopSpec ctx (getPathLoop fuel ctx)
  | 0, ctx => by
      show errInternal ≠ getPathEnd
      decide
  | fuel + 1, ctx => by
      cases hs : ctx.stream with
      | nil =>
          have hs' : ctx.entryPush.stream = [] := hs
          rw [getPathLoop, getId_nil hs']
          refine ⟨fun _ => ?_, fun h => absurd h (by decide)⟩
          rw [hs]
          exact .eof _ _
      | cons b s =>
          cases hp : parseHeader ctx.stream with
          | none =>
              have hne : ctx.entryPush.stream ≠ [] := by
                show ctx.stream ≠ []
                rw [hs]
                exact List.cons_ne_nil b s
              have he := getId_none hne hp
              rw [getPathLoop]
              cases hg : getId ctx.entryPush with
              | mk r ctx1 =>
                  rw [hg] at he
                  simp only at he
                  subst he
                  exact ⟨fun h => absurd h (by decide), fun h => absurd h (by decide)⟩
          | some r =>
              obtain ⟨h, rest⟩ := r
              obtain ⟨pre, hpre, hlen, h2, -⟩ := parseHeader_some hp
              have hlt : rest.length < ctx.stream.length := by
                rw [hpre, List.length_append]
                omega
              by_cases hok : HeaderOk ctx.uriPath ctx.currentPath ctx.entries h
              · rw [getPathLoop_header fuel hp hok]
                by_cases hv : h.hasValue = true
                · rw [if_pos hv]
                  refine ⟨fun h => absurd h (by decide), fun _ => ⟨rfl, rfl, hlt, id, _, _, _, rfl, ?_⟩⟩
                  intro v rest' ls hrest hvlen hacc
                  have hrest' : rest = v ++ rest' := hrest
                  rw [hrest'] at hp
                  exact .leaf hp hv hvlen hok hacc
                · rw [if_neg hv]
                  have hv' : h.hasValue = false := Bool.eq_false_iff.mpr hv
                  have ih := getPathLoop_spec fuel (ctx.opened h rest)
                  cases hg : getPathLoop fuel (ctx.opened h rest) with
                  | mk exit ctx' =>
                      rw [hg] at ih
                      cases exit with
                      | ret code => exact ih
                      | brk result =>
                          refine ⟨fun hr => .node hp hv' hok (ih.1 hr), fun hr => ?_⟩
                          obtain ⟨i1, i2, i3, i4, t, len, es, i5, i6⟩ := ih.2 hr
                          refine ⟨i1, i2, lt_trans i3 hlt, i4, t, len, es, i5, ?_⟩
                          intro v rest' ls hrest hvlen hacc
                          exact .node hp hv' hok (i6 v rest' ls hrest hvlen hacc)
              · have hbad := getPathLoop_bad fuel hp hok
                cases hg : getPathLoop (fuel + 1) ctx with
                | mk exit ctx' =>
                    rw [hg] at hbad
                    simp only at hbad
                    subst hbad
                    show errBadRequest ≠ getPathEnd
                    decide

/-! ## 4. Regular ends -/

theorem accepts_length {root : UriPath} {es : List InEntry} {cur : UriPath} {s : List UInt8}
    {ls : List Leaf} (h : Accepts root es cur s ls) : ls.length ≤ s.length := by
  induction h with
  | eof => exact Nat.le_refl _
  | leaf parse _ _ _ _ ih =>
      obtain ⟨pre, hpre, hlen, h2, -⟩ := parseHeader_some parse
      rw [hpre, List.length_cons, List.length_append, List.length_append]
      omega
  | node parse _ _ _ ih =>
      obtain ⟨pre, hpre, -, -, -⟩ := parseHeader_some parse
      rw [hpre, List.length_append]
      omega

/-- The walk hands out exactly the pending leaves and meets the end. -/
theorem walkLoop_between {root : UriPath} {chunk : Nat} (hc : 0 < chunk) :
    ∀ (fuel : Nat) {ctx : TlvIn} {ls : List Leaf}, Between root ctx ls → ls.length < fuel →
      walkLoop chunk fuel ctx = (ls, getPathEnd)
  | 0, _, _, _, hfuel => absurd hfuel (Nat.not_lt_zero _)
  | fuel + 1, ctx, [], h, _ => by
      have he := getPath_end h
      rw [walkLoop]
      cases hg : getPath ctx with
      | mk r ctx1 =>
          rw [hg] at he
          simp only at he
          subst he
          rfl
  | fuel + 1, ctx, l :: ls, h, hfuel => by
      obtain ⟨ctx1, he, -, t, es, rest, hH, hacc⟩ := getPath_between h
      have hlen : l.value.length < ctx1.stream.length + 1 := by
        rw [hH.stream, List.length_append]
        omega
      obtain ⟨ctx2, hr, hH2⟩ := readValueLoop_holding hc _ [] hH hlen
      obtain ⟨ctx3, hn, hB⟩ := nextEntry_fetched ⟨t, es, rest, hH2, hacc⟩
      have ih := walkLoop_between hc fuel hB (Nat.lt_of_succ_lt_succ hfuel)
      rw [walkLoop, he]
      simp only [hr, hn, ih, List.nil_append]
      rfl

/-- A walk that meets a regular end read leaves the grammar accepts. -/
theorem walkLoop_accepts {chunk : Nat} (hc : 0 < chunk) :
    ∀ (fuel : Nat) {ctx : TlvIn} {ls : List Leaf}, ctx.hasPath = false →
      (ctx.finished = true → ctx.stream = []) → walkLoop chunk fuel ctx = (ls, getPathEnd) →
      Accepts ctx.uriPath ctx.entries ctx.currentPath ctx.stream ls
  | 0, _, _, _, _, h => by
      rw [walkLoop, Prod.mk.injEq] at h
      exact absurd h.2 (by decide)
  | fuel + 1, ctx, ls, hp, hf, h => by
      rw [walkLoop, getPath] at h
      by_cases hfin : ctx.finished = true
      · rw [if_pos hfin, Prod.mk.injEq] at h
        obtain ⟨rfl, -⟩ := h
        rw [hf hfin]
        exact .eof _ _
      · rw [if_neg hfin, if_neg (by simp [hp])] at h
        have hspec := getPathLoop_spec (ctx.stream.length + 1) ctx
        cases hg : getPathLoop (ctx.stream.length + 1) ctx with
        | mk exit ctx1 =>
            rw [hg] at hspec h
            cases exit with
            | ret code =>
                simp only [Prod.mk.injEq] at h
                exact absurd h.2 hspec
            | brk result =>
                by_cases hr : result = 0
                · obtain ⟨-, hroot, hlt, hfin1, t, len, es, hes, hacc⟩ := hspec.2 hr
                  simp only [if_pos hr] at h
                  by_cases hlen : len ≤ ctx1.stream.length
                  · -- the value is all there: it is read, and the walk goes on behind it
                    obtain ⟨v, rest, hv, hvlen⟩ : ∃ v rest, ctx1.stream = v ++ rest ∧ v.length = len :=
                      ⟨ctx1.stream.take len, ctx1.stream.drop len, (List.take_append_drop _ _).symm,
                        by rw [List.length_take, Nat.min_eq_left hlen]⟩
                    have hH : Holding ctx.uriPath { ctx1 with hasPath := true } t
                        ⟨ctx1.currentPath, ctx1.isArray, v⟩ [] v rest es :=
                      ⟨rfl, hroot, rfl, rfl, rfl, by rw [hvlen]; exact hes, hv,
                        fun hf1 => absurd (hfin1 hf1) hfin⟩
                    have hfuel : v.length < ctx1.stream.length + 1 := by omega
                    obtain ⟨ctx2, h2, hH2⟩ := readValueLoop_holding hc _ [] hH hfuel
                    obtain ⟨ctx3, h3, e1, e2, e3, e4, e5, e6⟩ := nextEntry_holding hH2
                    simp only [h2, h3, List.nil_append, ne_eq, not_true_eq_false, if_false,
                      Prod.mk.injEq] at h
                    obtain ⟨rfl, hend⟩ := h
                    have ih := walkLoop_accepts hc fuel e1 e6 (Prod.ext rfl hend)
                    rw [e2, e3, e4, e5] at ih
                    exact hacc v rest _ hv hvlen ih
                  · -- the value is cut off: reading it fails, and not with the code of the end
                    have hS : Short { ctx1 with hasPath := true } :=
                      ⟨rfl, _, es, hes, by simp only; omega⟩
                    obtain ⟨e, ctx2, h2, hne⟩ :=
                      readValueLoop_short chunk (ctx1.stream.length + 1) [] hS
                    simp only [h2, Prod.mk.injEq] at h
                    exact absurd h.2 hne
                · simp only [if_neg hr, Prod.mk.injEq] at h
                  obtain ⟨rfl, hend⟩ := h
                  exact hspec.1 hend

/-- **The walk ends regularly with exactly the leaves of an accepted payload.** -/
theorem walk_end_iff {chunk : Nat} (hc : 0 < chunk) {root : UriPath} {payload : List UInt8}
    {ls : List Leaf} :
    walk chunk root payload = (ls, getPathEnd) ↔ Accepts root [] root payload ls := by
  constructor
  · intro h
    exact walkLoop_accepts hc _ rfl (fun hf => by cases hf) h
  · intro h
    exact walkLoop_between hc _ (between_create h) (Nat.lt_succ_of_le (accepts_length h))

end Anjay.Tlv
