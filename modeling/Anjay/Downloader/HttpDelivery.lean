/-
  File:      Anjay/Downloader/HttpDelivery.lean
  Subject:   What the HTTP downloader passes to the block handler.

  * `readStartByteFromContentRange_standard`: the start byte of a range as the standard writes it.
  * `writeLoop_spec`: the loop that feeds the handler passes the bytes behind the local offset, and ends
    with the local offset at or behind the remote one.
  * `reachable_delivers`: the bytes delivered in any run are those of the resource, in order, and all of
    them when success is reported.
-/
import Anjay.Downloader.Http
import Mathlib.Data.List.Basic
import Mathlib.Data.List.Infix

namespace Anjay.Http

/-! ## 1. The start byte -/

/-- `bytes start-last/total`, the total being left out or the size of a range to the end. -/
def contentRange (start last : Nat) (total : Bool) : List UInt8 :=
  ascii "bytes " ++ (Text.decimal start ++ 0x2D :: (Text.decimal last ++ 0x2F ::
    if total then Text.decimal (last + 1) else [0x2A]))

theorem parseNumber_decimal {n : Nat} (hn : n ≤ Text.ullongMax) {c : UInt8} (hc : Text.isDigitOf 10 c = false)
    (rest : List UInt8) : parseNumber (Text.decimal n ++ c :: rest) = some (n, c :: rest) := by
  have hconv := Text.strtoull_decimal hn (c :: rest) (by rintro d ⟨⟩; exact hc)
  obtain ⟨b, bs, hbs⟩ := List.exists_cons_of_ne_nil (Text.decimal_ne_nil n)
  obtain ⟨d, hd, rfl⟩ := Text.mem_decimal (n := n) (c := b) (by rw [hbs]; exact List.mem_cons_self)
  have hminus : (Text.decimal n ++ c :: rest).head? ≠ some 0x2D := by
    rw [hbs]
    simpa using (Text.digitByte_not_space d hd).2.1
  rw [parseNumber, if_neg hminus, hconv]
  rfl

/-- **The start byte of a range as the standard writes it.** -/
theorem readStartByteFromContentRange_standard {start last : Nat} (hstart : start ≤ Text.ullongMax)
    (hlast : last < Text.ullongMax) (total : Bool) :
    readStartByteFromContentRange (contentRange start last total) = some start := by
  have hbytes : ascii "bytes " = [98, 121, 116, 101, 115, 32] := rfl
  have hmatch : ∀ text, Text.matchToken (ascii "bytes " ++ text) (ascii "bytes") = some text := by
    intro text
    rw [hbytes]
    rfl
  rw [readStartByteFromContentRange, contentRange, hmatch]
  simp only [Option.bind_eq_bind, Option.bind_some, parseNumber_decimal hstart (by decide : Text.isDigitOf 10 0x2D = false),
    parseNumber_decimal (Nat.le_of_lt hlast) (by decide : Text.isDigitOf 10 0x2F = false), expectChar, if_true]
  cases total with
  | false => rfl
  | true =>
      obtain ⟨d, cs, hd, -, hcs⟩ := Text.decimal_eq_cons (Nat.succ_ne_zero last)
      have hstar : Text.decimal (last + 1) ≠ [0x2A] := by
        rw [hcs]
        intro h
        have hcases : ∀ d < 10, Text.digitByte d ≠ 0x2A := by decide
        exact hcases d hd (List.cons.inj h).1
      have hminus : (Text.decimal (last + 1)).head? ≠ some 0x2D := by
        rw [hcs]
        simpa using (Text.digitByte_not_space d hd).2.1
      simp only [if_true, Text.decimal_ne_nil, if_false, hstar, hminus,
        Text.safeStrtoull_decimal (Nat.succ_ne_zero last) hlast]
      rw [if_pos ⟨by omega, by omega⟩]

/-! ## 2. Deliveries -/

/-- The local offset after a call of the handler. -/
def Delivery.next (d : Delivery) : Nat := d.chosen.getD (d.offset + d.data.length)

/-- The byte was delivered in the call, or skipped by the offset that the handler chose in it. -/
def Delivery.Covers (d : Delivery) (p : Nat) : Prop :=
  (d.offset ≤ p ∧ p < d.offset + d.data.length) ∨
    ∃ c, d.chosen = some c ∧ d.offset + d.data.length ≤ p ∧ p < c

/-- The calls follow one another: each is at the offset the one before left, and moves it on. -/
def Chained : Nat → List Delivery → Nat → Prop
  | k, [], w => k = w
  | k, d :: ds, w => d.offset = k ∧ k < d.next ∧ Chained d.next ds w

theorem Chained.concat {d : Delivery} : ∀ {ds : List Delivery} {k w : Nat}, Chained k ds w →
    d.offset = w → w < d.next → Chained k (ds ++ [d]) d.next
  | [], _, _, rfl, hoff, hnext => ⟨hoff, hnext, rfl⟩
  | _ :: _, _, _, ⟨ho, hlt, hrest⟩, hoff, hnext => ⟨ho, hlt, Chained.concat hrest hoff hnext⟩

theorem Chained.covers {p : Nat} : ∀ {ds : List Delivery} {k w : Nat}, Chained k ds w → k ≤ p → p < w →
    ∃ d ∈ ds, d.Covers p
  | [], _, _, rfl, hk, hw => absurd hw (Nat.not_lt.mpr hk)
  | d :: ds, k, w, ⟨ho, hlt, hrest⟩, hk, hw => by
      by_cases hp : p < d.next
      · refine ⟨d, List.mem_cons_self, ?_⟩
        rw [Delivery.next] at hp
        by_cases hdata : p < d.offset + d.data.length
        · exact Or.inl ⟨by omega, hdata⟩
        · cases hc : d.chosen with
          | none =>
              rw [hc] at hp
              exact absurd hp hdata
          | some c =>
              rw [hc] at hp
              exact Or.inr ⟨c, hc, Nat.not_lt.mp hdata, hp⟩
      · obtain ⟨d', hd', hcov⟩ := Chained.covers hrest (Nat.not_lt.mp hp) hw
        exact ⟨d', List.mem_cons_of_mem _ hd', hcov⟩

theorem Chained.le_offset : ∀ {ds : List Delivery} {k w : Nat}, Chained k ds w → ∀ d ∈ ds, k ≤ d.offset
  | d :: ds, k, w, ⟨ho, hlt, hrest⟩, d', hd' => by
      rcases List.mem_cons.mp hd' with rfl | hd'
      · exact Nat.le_of_eq ho.symm
      · exact Nat.le_trans (Nat.le_of_lt hlt) (Chained.le_offset hrest d' hd')

/-- No call is below the offset that an earlier one left. -/
theorem Chained.pairwise : ∀ {ds : List Delivery} {k w : Nat}, Chained k ds w →
    ds.Pairwise fun d d' => d.next ≤ d'.offset
  | [], _, _, _ => .nil
  | _ :: _, _, _, ⟨_, _, hrest⟩ => .cons hrest.le_offset hrest.pairwise

/-- **What is to hold of the calls of the block handler.** -/
structure Delivers (resource : List UInt8) (startOffset : Nat) (t : Transfer) : Prop where
  slices : ∀ d ∈ t.log, d.data ≠ [] ∧ d.data <+: resource.drop d.offset
  chained : ∃ w, Chained startOffset t.log w ∧ (t.status = none → w = t.bytesWritten)
  forward : t.log.Pairwise fun d d' => d.next ≤ d'.offset
  complete : t.status = some .finished → ∀ p, startOffset ≤ p → p < resource.length →
    ∃ d ∈ t.log, d.Covers p
  asserts : t.assertionFailed = false

/-! ## 3. The receive loop -/

section Receiving

variable {resource : List UInt8} {startOffset : Nat}
variable (handler : List Delivery → Nat → List UInt8 → HandlerRun)

/-- What was delivered so far, up to the local offset `w`. -/
structure Sent (resource : List UInt8) (startOffset : Nat) (t : Transfer) (w : Nat) : Prop where
  slices : ∀ d ∈ t.log, d.data ≠ [] ∧ d.data <+: resource.drop d.offset
  chained : Chained startOffset t.log w
  asserts : t.assertionFailed = false

theorem Sent.delivers_of_failed {t : Transfer} {w : Nat} (h : Sent resource startOffset t w)
    {status : DownloadStatus} (hstatus : t.status = some status) (hne : status ≠ .finished) :
    Delivers resource startOffset t :=
  ⟨h.slices, ⟨w, h.chained, fun hnone => by rw [hstatus] at hnone; cases hnone⟩, h.chained.pairwise,
    (fun hfin => by rw [hstatus] at hfin; exact absurd (Option.some.inj hfin) hne), h.asserts⟩

theorem le_foldl_setNext (offsets : List Nat) (w : Nat) : w ≤ offsets.foldl setNextHttpBlockOffset w := by
  induction offsets generalizing w with
  | nil => exact Nat.le_refl w
  | cons c offsets ih =>
      refine Nat.le_trans ?_ (ih _)
      rw [setNextHttpBlockOffset]
      split <;> omega

/-- **The loop that feeds the handler**, the buffer being the bytes of the resource from `base` on. -/
theorem writeLoop_spec {buffer : List UInt8} {base : Nat} (hbuffer : buffer <+: resource.drop base) :
    ∀ (fuel : Nat) {t : Transfer}, t.bytesDownloaded = base + buffer.length →
      t.bytesDownloaded - t.bytesWritten ≤ fuel → base ≤ t.bytesWritten → t.status = none →
      Sent resource startOffset t t.bytesWritten →
      ∃ t', writeLoop handler buffer fuel t = t' ∧
        ((t'.status = none ∧ t'.bytesDownloaded = t.bytesDownloaded ∧ t'.bytesDownloaded ≤ t'.bytesWritten ∧
            t'.stream = t.stream ∧ t'.nextActionJob = t.nextActionJob ∧
            Sent resource startOffset t' t'.bytesWritten) ∨
          ∃ err w, t'.status = some (.failed err) ∧ Sent resource startOffset t' w)
  | 0, t, _, hfuel, _, hstatus, hsent =>
      ⟨t, rfl, Or.inl ⟨hstatus, rfl, Nat.le_of_sub_eq_zero (Nat.le_zero.mp hfuel), rfl, rfl, hsent⟩⟩
  | fuel + 1, t, hdown, hfuel, hbase, hstatus, hsent => by
      rw [writeLoop]
      by_cases hdone : t.bytesDownloaded ≤ t.bytesWritten
      · rw [if_pos hdone]
        exact ⟨t, rfl, Or.inl ⟨hstatus, rfl, hdone, rfl, rfl, hsent⟩⟩
      rw [if_neg hdone]
      dsimp only
      -- the block is the part of the buffer behind the local offset
      have hskip : buffer.length - (t.bytesDownloaded - t.bytesWritten) = t.bytesWritten - base := by omega
      have hblock : buffer.drop (t.bytesWritten - base) <+: resource.drop t.bytesWritten := by
        have := hbuffer.drop (t.bytesWritten - base)
        rwa [List.drop_drop, Nat.add_sub_cancel' hbase] at this
      have hlen : (buffer.drop (t.bytesWritten - base)).length = t.bytesDownloaded - t.bytesWritten := by
        rw [List.length_drop]
        omega
      have hassert : decide (t.bytesDownloaded - t.bytesWritten ≤ buffer.length) = true :=
        decide_eq_true (by omega)
      rw [hskip, Transfer.check, hassert]
      dsimp only
      generalize buffer.drop (t.bytesWritten - base) = block at hblock hlen
      have hne : block ≠ [] := List.ne_nil_of_length_pos (by omega)
      generalize handler t.log t.bytesWritten block = run
      have hle := le_foldl_setNext run.offsets t.bytesWritten
      generalize run.offsets.foldl setNextHttpBlockOffset t.bytesWritten = w at hle
      generalize hchosen : (if w = t.bytesWritten then none else some w) = chosen
      -- the offset behind the call
      have hnext : Delivery.next ⟨t.bytesWritten, block, chosen⟩ =
          if w = t.bytesWritten then w + (t.bytesDownloaded - t.bytesWritten) else w := by
        rw [← hchosen, Delivery.next]
        split
        · next hw => rw [hw, ← hlen]; rfl
        · rfl
      have hsent' : ∀ {t' : Transfer}, t'.log = t.log ++ [⟨t.bytesWritten, block, chosen⟩] →
          t'.assertionFailed = (t.assertionFailed || !true) →
          Sent resource startOffset t' (Delivery.next ⟨t.bytesWritten, block, chosen⟩) := by
        intro t' hlog hasserts
        refine ⟨?_, ?_, by rw [hasserts, hsent.asserts]; rfl⟩
        · rw [hlog]
          intro d hd
          rcases List.mem_append.mp hd with hd | hd
          · exact hsent.slices d hd
          · rw [List.mem_singleton.mp hd]
            exact ⟨hne, hblock⟩
        · rw [hlog]
          refine hsent.chained.concat rfl ?_
          rw [hnext]
          split <;> omega
      rw [hnext] at hsent'
      split
      · exact ⟨_, rfl, Or.inr ⟨run.err, _, rfl, hsent' rfl rfl⟩⟩
      split
      · next hw =>
        rw [if_pos hw] at hsent'
        exact writeLoop_spec hbuffer fuel hdown (by dsimp only; omega) (by dsimp only; omega) hstatus
          (hsent' rfl rfl)
      · next hw =>
        rw [if_neg hw] at hsent'
        exact writeLoop_spec hbuffer fuel hdown (by dsimp only; omega) (by dsimp only; omega) hstatus
          (hsent' rfl rfl)

/-- Between two events: what was delivered, and where the stream is. -/
structure Inv (resource : List UInt8) (startOffset : Nat) (t : Transfer) : Prop where
  sent : Sent resource startOffset t t.bytesWritten
  status : t.status = none
  stream : ∀ body, t.stream = some body → body = resource.drop t.bytesDownloaded ∧
    t.bytesDownloaded ≤ t.bytesWritten ∧ t.nextActionJob = some .timeout

theorem Inv.delivers {t : Transfer} (h : Inv resource startOffset t) : Delivers resource startOffset t :=
  ⟨h.sent.slices, ⟨_, h.sent.chained, fun _ => rfl⟩, h.sent.chained.pairwise,
    (fun hfin => by rw [h.status] at hfin; cases hfin), h.sent.asserts⟩

theorem Inv.abort {t : Transfer} (h : Inv resource startOffset t) {status : DownloadStatus}
    (hne : status ≠ .finished) : Delivers resource startOffset (abortTransfer t status) := by
  have hsent : Sent resource startOffset (abortTransfer t status) t.bytesWritten :=
    ⟨h.sent.slices, h.sent.chained, h.sent.asserts⟩
  exact hsent.delivers_of_failed rfl hne

/-- The state after an event: the invariant, or the end of the transfer. -/
def After (resource : List UInt8) (startOffset : Nat) (t : Transfer) : Prop :=
  Inv resource startOffset t ∨ (t.status ≠ none ∧ Delivers resource startOffset t)

theorem Inv.abort_after {t : Transfer} (h : Inv resource startOffset t) {status : DownloadStatus}
    (hne : status ≠ .finished) : After resource startOffset (abortTransfer t status) :=
  Or.inr ⟨by simp [abortTransfer], h.abort hne⟩

/-- **One round of the receive loop**: the bytes read go to the handler, as far as they are new. -/
theorem receive_spec {buffer rest : List UInt8} {t : Transfer} (hsent : Sent resource startOffset t t.bytesWritten)
    (hstatus : t.status = none) (hbody : buffer ++ rest = resource.drop t.bytesDownloaded)
    (hle : t.bytesDownloaded ≤ t.bytesWritten) (hstream : t.stream = some rest)
    (hjob : t.nextActionJob = some .timeout) :
    ∃ t', receive handler buffer t = t' ∧
      ((Inv resource startOffset t' ∧ t'.stream = some rest) ∨
        ∃ err w, t'.status = some (.failed err) ∧ Sent resource startOffset t' w) := by
  rw [receive]
  by_cases hbuffer : buffer = []
  · subst hbuffer
    rw [if_pos rfl]
    refine ⟨t, rfl, Or.inl ⟨⟨hsent, hstatus, fun body hb => ?_⟩, hstream⟩⟩
    rw [hstream] at hb
    cases hb
    exact ⟨hbody, hle, hjob⟩
  rw [if_neg hbuffer, Transfer.check, decide_eq_true hle]
  dsimp only
  have hsent' : Sent resource startOffset { t with
      assertionFailed := t.assertionFailed || !true
      bytesDownloaded := t.bytesDownloaded + buffer.length } t.bytesWritten :=
    ⟨hsent.slices, hsent.chained, by rw [hsent.asserts]; rfl⟩
  obtain ⟨t', hloop, ⟨hnone, hdown, hle', hstr, hjob', hs⟩ | ⟨err, w, hfailed, hs⟩⟩ :=
    writeLoop_spec handler ⟨rest, hbody⟩ _ (t := { t with
      assertionFailed := t.assertionFailed || !true
      bytesDownloaded := t.bytesDownloaded + buffer.length }) rfl (Nat.le_refl _) hle hstatus hsent'
  · refine ⟨t', hloop, Or.inl ⟨⟨hs, hnone, fun body hb => ?_⟩, hstr.trans hstream⟩⟩
    rw [hstr.trans hstream] at hb
    cases hb
    refine ⟨?_, hle', hjob'.trans hjob⟩
    rw [hdown]
    show rest = resource.drop (t.bytesDownloaded + buffer.length)
    rw [← List.drop_drop, ← hbody, List.drop_left]
  · exact ⟨t', hloop, Or.inr ⟨err, w, hfailed, hs⟩⟩

theorem readPacket_spec (read : ReadResult) {t : Transfer} (h : Inv resource startOffset t)
    (hsome : t.stream.isSome) :
    (Inv resource startOffset (readPacket handler read t) ∧ (readPacket handler read t).stream.isSome) ∨
      ((readPacket handler read t).status ≠ none ∧ Delivers resource startOffset (readPacket handler read t)) := by
  obtain ⟨body, hbody⟩ := Option.isSome_iff_exists.mp hsome
  obtain ⟨hdrop, hle, hjob⟩ := h.stream body hbody
  rw [readPacket]
  split
  · exact Or.inr ⟨by simp [abortTransfer], h.abort (by simp)⟩
  rw [hbody, Option.getD_some]
  have hsent : Sent resource startOffset { t with stream := some (body.drop read.count) } t.bytesWritten :=
    ⟨h.sent.slices, h.sent.chained, h.sent.asserts⟩
  have hparts : body.take read.count ++ body.drop read.count = resource.drop t.bytesDownloaded := by
    rw [List.take_append_drop, hdrop]
  obtain ⟨t', hreceive, ⟨hinv, hstream⟩ | ⟨err, w, hfailed, hsent'⟩⟩ :=
    receive_spec handler (t := { t with stream := some (body.drop read.count) }) hsent h.status hparts hle rfl hjob
  · dsimp only
    rw [hreceive, if_neg (not_not.mpr hinv.status)]
    split
    · -- the body was read to its end, and the remote offset is at the end of the resource
      next hfinished =>
      refine Or.inr ⟨by simp [abortTransfer], hinv.sent.slices, ⟨_, hinv.sent.chained, fun _ => rfl⟩,
        hinv.sent.chained.pairwise, fun _ p hstart hp => ?_, hinv.sent.asserts⟩
      obtain ⟨hrest, hle', -⟩ := hinv.stream _ hstream
      rw [List.drop_eq_nil_of_le hfinished.2] at hrest
      have hend := List.drop_eq_nil_iff.mp hrest.symm
      exact hinv.sent.chained.covers hstart (by omega)
    · exact Or.inl ⟨hinv, by rw [hstream]; rfl⟩
  · dsimp only
    have hstatus : t'.status ≠ none := by rw [hfailed]; simp
    rw [hreceive, if_pos hstatus]
    exact Or.inr ⟨hstatus, hsent'.delivers_of_failed hfailed (by simp)⟩

/-- **The receive loop.** -/
theorem handleHttpPacket_spec : ∀ (more : List ReadResult) (read : ReadResult) {t : Transfer},
    Inv resource startOffset t → t.stream.isSome →
    After resource startOffset (handleHttpPacket handler read more t)
  | [], read, t, h, hsome => by
      rw [handleHttpPacket]
      rcases readPacket_spec handler read h hsome with ⟨hinv, hsome'⟩ | ⟨hstatus, hdelivers⟩
      · rw [if_neg (not_not.mpr hinv.status)]
        obtain ⟨body, hbody⟩ := Option.isSome_iff_exists.mp hsome'
        obtain ⟨-, -, hjob⟩ := hinv.stream body hbody
        have hasserts : ((readPacket handler read t).assertionFailed ||
            !(readPacket handler read t).nextActionJob.isSome) = false := by
          rw [hinv.sent.asserts, hjob]
          rfl
        exact Or.inl ⟨⟨hinv.sent.slices, hinv.sent.chained, hasserts⟩, hinv.status, hinv.stream⟩
      · rw [if_pos hstatus]
        exact Or.inr ⟨hstatus, hdelivers⟩
  | next :: more, read, t, h, hsome => by
      rw [handleHttpPacket]
      rcases readPacket_spec handler read h hsome with ⟨hinv, hsome'⟩ | ⟨hstatus, hdelivers⟩
      · rw [if_neg (not_not.mpr hinv.status)]
        exact handleHttpPacket_spec more next hinv hsome'
      · rw [if_pos hstatus]
        exact Or.inr ⟨hstatus, hdelivers⟩

/-! ## 4. Requests and events -/

/-- The start byte that the header fields of a response give: that of the last Content-Range, or 0. -/
def startByteFrom (start : Nat) : List (List UInt8 × List UInt8) → Option Nat
  | [] => some start
  | (key, value) :: headers =>
      if Text.caseEqual key (ascii "Content-Range") then
        (readStartByteFromContentRange value).bind fun start => startByteFrom start headers
      else startByteFrom start headers

def Response.startByte (response : Response) : Option Nat := startByteFrom 0 response.headers

/-- The body of a response is the resource from the start byte on. -/
def Response.Faithful (resource : List UInt8) (response : Response) : Prop :=
  ∀ start, response.startByte = some start → response.body = resource.drop start

/-- **The loop over the header fields**: it aborts the transfer, or the remote offset is the start byte. -/
theorem handleHeaders_spec (etagAllocated : Bool) : ∀ (headers : List (List UInt8 × List UInt8)) (t : Transfer),
    t.bytesDownloaded ≤ t.bytesWritten →
    ∃ etag down, (∃ status, status ≠ .finished ∧ handleHeaders etagAllocated headers t =
        abortTransfer { t with etag := etag, bytesDownloaded := down } status) ∨
      (handleHeaders etagAllocated headers t = { t with etag := etag, bytesDownloaded := down } ∧
        down ≤ t.bytesWritten ∧ startByteFrom t.bytesDownloaded headers = some down)
  | [], t, hle => ⟨t.etag, t.bytesDownloaded, Or.inr ⟨rfl, hle, rfl⟩⟩
  | (key, value) :: headers, t, hle => by
      rw [handleHeaders, startByteFrom]
      split
      · split
        · next start hstart =>
          split
          · exact ⟨t.etag, t.bytesDownloaded, Or.inl ⟨_, by simp, rfl⟩⟩
          · next hlt =>
            rw [hstart, Option.bind_some]
            exact handleHeaders_spec etagAllocated headers { t with bytesDownloaded := start } (Nat.not_lt.mp hlt)
        · exact ⟨t.etag, t.bytesDownloaded, Or.inl ⟨_, by simp, rfl⟩⟩
      split
      · split
        · split
          · exact handleHeaders_spec etagAllocated headers t hle
          · exact ⟨t.etag, t.bytesDownloaded, Or.inl ⟨_, by simp, rfl⟩⟩
        · exact handleHeaders_spec etagAllocated headers { t with etag := readEtag etagAllocated value } hle
      · exact handleHeaders_spec etagAllocated headers t hle

theorem sendRequest_spec {response : Response} (hbody : response.Faithful resource) {t : Transfer}
    (h : Inv resource startOffset t) : After resource startOffset (sendRequest handler response t) := by
  have habort : ∀ {t' : Transfer} {status : DownloadStatus}, t'.log = t.log → t'.assertionFailed = t.assertionFailed →
      status ≠ .finished → After resource startOffset (abortTransfer t' status) := by
    intro t' status hlog hasserts hne
    have hsent : Sent resource startOffset (abortTransfer t' status) t.bytesWritten := by
      refine ⟨?_, ?_, hasserts.trans h.sent.asserts⟩
      · rw [show (abortTransfer t' status).log = t.log from hlog]
        exact h.sent.slices
      · rw [show (abortTransfer t' status).log = t.log from hlog]
        exact h.sent.chained
    exact Or.inr ⟨by simp [abortTransfer], hsent.delivers_of_failed rfl hne⟩
  rw [sendRequest]
  dsimp only
  split
  · exact habort rfl rfl (by simp)
  split
  · exact habort rfl rfl (by simp)
  split
  · exact habort rfl rfl (by simp)
  generalize (if response.finishMessage.category = httpErrorCategory then response.statusCode else 200) = httpStatus
  split
  · split
    · split
      · exact habort rfl rfl (by simp)
      · exact habort rfl rfl (by simp)
    · exact habort rfl rfl (by simp)
  obtain ⟨etag, down, ⟨status, hne, hheaders⟩ | ⟨hheaders, hle, hstart⟩⟩ :=
    handleHeaders_spec response.etagAllocated response.headers
      { t with nextActionJob := none, stream := some response.body, bytesDownloaded := 0 } (Nat.zero_le _)
  · rw [hheaders, if_pos (by simp [abortTransfer])]
    exact habort rfl rfl hne
  rw [hheaders, if_neg (not_not.mpr h.status)]
  split
  · exact habort rfl rfl (by simp)
  have hinv : Inv resource startOffset { t with
      nextActionJob := some .timeout
      stream := some response.body
      etag := etag
      bytesDownloaded := down } := by
    refine ⟨⟨h.sent.slices, h.sent.chained, h.sent.asserts⟩, h.status, ?_⟩
    rintro body ⟨⟩
    exact ⟨hbody down hstart, hle, rfl⟩
  split
  · exact handleHttpPacket_spec handler _ _ hinv rfl
  · exact Or.inl hinv

/-- The responses of an event. -/
def Event.Faithful (resource : List UInt8) : Event → Prop
  | .sendRequest response => response.Faithful resource
  | .timeout | .packet _ _ | .suspend | .reconnect _ | .abort => True

/-- **What one event keeps.** -/
theorem step_after {t t' : Transfer} {event : Event} (h : Inv resource startOffset t)
    (hevent : event.Faithful resource) (hstep : step handler t event = some t') :
    After resource startOffset t' := by
  unfold step at hstep
  rw [if_neg (not_not.mpr h.status)] at hstep
  cases event with
  | sendRequest response =>
      dsimp only at hstep
      split at hstep
      · cases hstep
        exact sendRequest_spec handler hevent h
      · cases hstep
  | timeout =>
      dsimp only at hstep
      split at hstep
      · cases hstep
        exact h.abort_after (by simp)
      · cases hstep
  | packet read more =>
      dsimp only at hstep
      split at hstep
      · next hsome =>
        cases hstep
        exact handleHttpPacket_spec handler more read h hsome
      · cases hstep
  | suspend =>
      cases hstep
      exact Or.inl ⟨⟨h.sent.slices, h.sent.chained, h.sent.asserts⟩, h.status, fun _ hb => by cases hb⟩
  | reconnect scheduled =>
      cases hstep
      have hinv : Inv resource startOffset { t with stream := none } :=
        ⟨⟨h.sent.slices, h.sent.chained, h.sent.asserts⟩, h.status, fun _ hb => by cases hb⟩
      rw [reconnectHttpTransfer]
      dsimp only
      split
      · exact Or.inl ⟨⟨h.sent.slices, h.sent.chained, h.sent.asserts⟩, h.status, fun _ hb => by cases hb⟩
      · exact hinv.abort_after (by simp)
  | abort =>
      cases hstep
      exact h.abort_after (by simp)

/-- The states of a transfer whose responses are right. -/
inductive Reachable (resource : List UInt8) (startOffset : Nat) : Transfer → Prop
  | new (etag : Option (List UInt8)) : Reachable resource startOffset (.new startOffset etag)
  | step {t t' : Transfer} (event : Event) (h : Reachable resource startOffset t)
      (hevent : event.Faithful resource) (hstep : step handler t event = some t') :
      Reachable resource startOffset t'

theorem reachable_after {t : Transfer} (h : Reachable handler resource startOffset t) :
    After resource startOffset t := by
  induction h with
  | new etag =>
      exact Or.inl ⟨⟨fun _ hd => absurd hd List.not_mem_nil, rfl, rfl⟩, rfl, fun _ hb => by cases hb⟩
  | step event _ hevent hstep ih =>
      rcases ih with hinv | ⟨hended, -⟩
      · exact step_after handler hinv hevent hstep
      · unfold Http.step at hstep
        rw [if_pos hended] at hstep
        cases hstep

/-- **In every run** the block handler gets the bytes of the resource from the local offset on, in order,
    and all of them when success is reported; and no assertion of the receive loop fails. -/
theorem reachable_delivers {t : Transfer} (h : Reachable handler resource startOffset t) :
    Delivers resource startOffset t := by
  rcases reachable_after handler h with hinv | ⟨-, hdelivers⟩
  · exact hinv.delivers
  · exact hdelivers

end Receiving

/-- A handler that moves to offset 3 in its first call, and leaves the offset alone afterwards. -/
def moveOnce : List Delivery → Nat → List UInt8 → HandlerRun
  | [], _, _ => ⟨[3], .ok⟩
  | _ :: _, _, _ => ⟨[], .ok⟩

/-- A response with these header fields and this body. -/
def Response.plain (headers : List (List UInt8 × List UInt8)) (body : List UInt8) : Response :=
  ⟨.ok, true, true, true, .ok, 200, headers, true, body, true, none⟩

/-- A transfer that is interrupted, and resumed by a server that starts two bytes earlier than asked. -/
theorem reachable_delivers_resumed :
    ∃ t, t.status = some .finished ∧
      t.log = [⟨0, [1, 2, 3, 4], some 3⟩, ⟨3, [4], none⟩, ⟨4, [5, 6], none⟩] ∧
      Delivers [1, 2, 3, 4, 5, 6] 0 t := by
  have hnew : Reachable moveOnce [1, 2, 3, 4, 5, 6] 0 (.new 0 none) := .new none
  have hfirst := hnew.step (.sendRequest (.plain [] [1, 2, 3, 4, 5, 6]))
    (by intro start hstart; cases hstart; rfl) rfl
  have hread := hfirst.step (.packet ⟨.ok, 4, false⟩ []) trivial rfl
  have hsuspend := hread.step .suspend trivial rfl
  have hreconnect := hsuspend.step (.reconnect true) trivial rfl
  have hsecond := hreconnect.step
    (.sendRequest (.plain [(ascii "Content-Range", contentRange 2 5 true)] [3, 4, 5, 6]))
    (by
      intro start hstart
      have h2 : start = 2 := Option.some.inj (hstart.symm.trans (by decide +kernel))
      rw [h2]
      rfl) rfl
  have hlast := hsecond.step (.packet ⟨.ok, 4, true⟩ []) trivial (by rfl)
  exact ⟨_, by decide +kernel, by decide +kernel, reachable_delivers _ hlast⟩

end Anjay.Http
