/-
  File:      Anjay/Servers/PathAndQuery.lean
  Subject:   The segments of a relative URL: `url_parse_chunks` and `_anjay_url_parse_path_and_query` of
             `anjay_utils_core.c`, with each allocation and with what is in the lists when they fail.

  * `urlParseChunks_eq`: the scan is a split at the delimiters.
  * `urlPercentDecode_append`: a delimiter ends what is decoded before it.
  * `decodes_of_valid`: what the validation accepts can be decoded.
  * `urlParsePathAndQuery_memory_eq`: with memory for all or for nothing it is the function of `Url.lean`.
  * `segments_meet_iff`: the segments are the decoded pieces where no piece holds a null byte.
-/
import Anjay.Lib.Separated
import Anjay.Servers.Url

namespace Anjay.Servers.PathAndQuery

/-! ## 1. The code -/

/-- What the code does not decide: whether there is memory for a chunk, and what the decoder leaves of a chunk
    that it cannot decode. -/
structure World where
  alloc : Nat → Bool
  undecoded : List UInt8 → CString

/-- `*out_chunks`, and how many chunks were allocated so far for either list. -/
structure Chunks where
  list : List CString
  allocs : Nat

/-- A chunk joins `*out_chunks` and is decoded there: whether that worked. -/
def appendChunk (world : World) (chunk : List UInt8) (out : Chunks) : Bool × Chunks :=
  if world.alloc out.allocs then
    if chunk.isEmpty then (true, ⟨out.list ++ [.ofBytes []], out.allocs + 1⟩)
    else
      match urlPercentDecode chunk with
      | none => (false, ⟨out.list ++ [world.undecoded chunk], out.allocs + 1⟩)
      | some bytes => (true, ⟨out.list ++ [.ofBytes bytes], out.allocs + 1⟩)
  else (false, ⟨out.list, out.allocs + 1⟩)

/-- `url_parse_chunks`: `*url` where it succeeds, and `*out_chunks`. -/
def urlParseChunks (world : World) (delimiter : UInt8) (terminator : Option UInt8) (skipTrailingSeparator : Bool) :
    List UInt8 → List UInt8 → Chunks → Option (List UInt8) × Chunks
  | chunk, [], out =>
      if skipTrailingSeparator && chunk.isEmpty then (some [], out)
      else
        match appendChunk world chunk out with
        | (false, out) => (none, out)
        | (true, out) => (some [], out)
  | chunk, b :: rest, out =>
      if b = delimiter then
        match appendChunk world chunk out with
        | (false, out) => (none, out)
        | (true, out) => urlParseChunks world delimiter terminator skipTrailingSeparator [] rest out
      else if some b = terminator then
        if skipTrailingSeparator && chunk.isEmpty then (some (b :: rest), out)
        else
          match appendChunk world chunk out with
          | (false, out) => (none, out)
          | (true, out) => (some (b :: rest), out)
      else urlParseChunks world delimiter terminator skipTrailingSeparator (chunk ++ [b]) rest out

/-- The result of `_anjay_url_parse_path_and_query`, `*out_path` and `*out_query`. -/
structure Parsed where
  result : Int
  outPath : List CString
  outQuery : List CString
  deriving DecidableEq, Repr

/-- The end of `_anjay_url_parse_path_and_query`. -/
def Parsed.clear (parsed : Parsed) : Parsed :=
  if parsed.result ≠ 0 then ⟨parsed.result, [], []⟩ else parsed

/-- `if (*path == '/') ++path`. -/
def skipSlash (path : List UInt8) : List UInt8 := if path.head? = some 47 then path.tail else path

/-- `_anjay_url_parse_path_and_query` between the validation and the end. -/
def parseSegments (world : World) (path : List UInt8) : Parsed :=
  match urlParseChunks world 47 (some 63) true [] (skipSlash path) ⟨[], 0⟩ with
  | (none, out) => ⟨-1, out.list, []⟩
  | (some [], out) => ⟨0, out.list, []⟩
  | (some (b :: query), out) =>
      if b = 63 then
        match urlParseChunks world 38 none false [] query ⟨[], out.allocs⟩ with
        | (none, outQuery) => ⟨-1, out.list, outQuery.list⟩
        | (some _, outQuery) => ⟨0, out.list, outQuery.list⟩
      else ⟨0, out.list, []⟩

/-- `_anjay_url_parse_path_and_query`, for lists that are empty. -/
def urlParsePathAndQuery (world : World) : Option CString → Parsed
  | none => Parsed.clear ⟨0, [], []⟩
  | some path =>
      if isValidUrlPart isValidUrlPathChar path.bytes then (parseSegments world path.bytes).clear
      else ⟨-1, [], []⟩

/-! ## 2. The scan is a split -/

/-- The pieces that become segments: all, or all but an empty one at the end. -/
def keptPieces (skipTrailingSeparator : Bool) : List (List UInt8) → List (List UInt8)
  | [] => []
  | [piece] => if skipTrailingSeparator && piece.isEmpty then [] else [piece]
  | piece :: next :: pieces => piece :: keptPieces skipTrailingSeparator (next :: pieces)

theorem keptPieces_cons (skip : Bool) (piece : List UInt8) {pieces : List (List UInt8)} (hne : pieces ≠ []) :
    keptPieces skip (piece :: pieces) = piece :: keptPieces skip pieces := by
  obtain ⟨next, rest, rfl⟩ := List.exists_cons_of_ne_nil hne
  rfl

theorem keptPieces_false : ∀ pieces : List (List UInt8), keptPieces false pieces = pieces
  | [] => rfl
  | [_] => rfl
  | piece :: next :: pieces => congrArg (piece :: ·) (keptPieces_false (next :: pieces))

/-- Chunks that join the list one after the other, up to the first that does not. -/
def appendChunks (world : World) : List (List UInt8) → Chunks → Bool × Chunks
  | [], out => (true, out)
  | chunk :: chunks, out =>
      match appendChunk world chunk out with
      | (false, out) => (false, out)
      | (true, out) => appendChunks world chunks out

/-- A byte that stands before the terminator. -/
def inPart (terminator : Option UInt8) (b : UInt8) : Bool := decide (some b ≠ terminator)

/-- What the scan returns when the chunks have joined the list. -/
def scanned (rest : List UInt8) : Bool × Chunks → Option (List UInt8) × Chunks
  | (false, out) => (none, out)
  | (true, out) => (some rest, out)

theorem scanned_last (world : World) (skip : Bool) (chunk rest : List UInt8) (out : Chunks) :
    (if (skip && chunk.isEmpty) = true then (some rest, out)
      else
        match appendChunk world chunk out with
        | (false, out) => (none, out)
        | (true, out) => (some rest, out)) =
      scanned rest (appendChunks world (keptPieces skip [chunk]) out) := by
  unfold keptPieces
  split
  · rfl
  · unfold appendChunks
    cases appendChunk world chunk out with
    | mk ok out => cases ok <;> rfl

/-- **`url_parse_chunks` splits what stands before the terminator at the delimiters.** -/
theorem urlParseChunks_eq (world : World) {delimiter : UInt8} {terminator : Option UInt8}
    (hdiffer : some delimiter ≠ terminator) (skip : Bool) (rest : List UInt8) :
    ∀ (chunk : List UInt8) (_ : delimiter ∉ chunk) (out : Chunks),
      urlParseChunks world delimiter terminator skip chunk rest out =
        scanned (rest.dropWhile (inPart terminator))
          (appendChunks world
            (keptPieces skip ((chunk ++ rest.takeWhile (inPart terminator)).splitOn delimiter)) out) := by
  induction rest with
  | nil =>
      intro chunk hchunk out
      rw [urlParseChunks, scanned_last, List.takeWhile_nil, List.append_nil, List.splitOn_eq_singleton hchunk]
      rfl
  | cons b rest ih =>
      intro chunk hchunk out
      by_cases hd : b = delimiter
      · have hkeep : inPart terminator b = true := decide_eq_true (by rw [hd]; exact hdiffer)
        rw [urlParseChunks, if_pos hd, List.takeWhile_cons_of_pos hkeep, List.dropWhile_cons_of_pos hkeep, hd,
          List.splitOn_append_cons_self_of_not_mem hchunk, keptPieces_cons skip chunk (List.splitOn_ne_nil _ _),
          appendChunks]
        cases appendChunk world chunk out with
        | mk ok out =>
            cases ok with
            | false => rfl
            | true => exact ih [] List.not_mem_nil out
      · by_cases ht : some b = terminator
        · have hstop : ¬inPart terminator b = true := fun h => of_decide_eq_true h ht
          rw [urlParseChunks, if_neg hd, if_pos ht, scanned_last, List.takeWhile_cons_of_neg hstop,
            List.dropWhile_cons_of_neg hstop, List.append_nil, List.splitOn_eq_singleton hchunk]
        · have hkeep : inPart terminator b = true := decide_eq_true ht
          have hnext : delimiter ∉ chunk ++ [b] := by
            intro h
            rcases List.mem_append.mp h with h | h
            · exact hchunk h
            · exact hd (List.mem_singleton.mp h).symm
          rw [urlParseChunks, if_neg hd, if_neg ht, List.takeWhile_cons_of_pos hkeep,
            List.dropWhile_cons_of_pos hkeep, ih (chunk ++ [b]) hnext out, List.append_assoc, List.singleton_append]

/-! ## 3. Memory for all chunks, or for none -/

theorem appendChunk_eq {world : World} {memory : Bool} (halloc : ∀ n, world.alloc n = memory) (chunk : List UInt8)
    (out : Chunks) :
    Servers.appendChunk memory chunk out.list =
      if (appendChunk world chunk out).1 then some (appendChunk world chunk out).2.list else none := by
  unfold Servers.appendChunk appendChunk
  rw [halloc]
  cases memory with
  | false => rfl
  | true =>
      rw [if_pos rfl, if_pos rfl]
      by_cases hempty : chunk.isEmpty = true
      · rw [if_pos hempty, List.isEmpty_iff.mp hempty]
        rfl
      · rw [if_neg hempty]
        cases urlPercentDecode chunk <;> rfl

/-- What `Url.lean` makes of a scan: the list and what is left, or nothing. -/
def memoryScan : Option (List UInt8) × Chunks → Option (List CString × List UInt8)
  | (none, _) => none
  | (some rest, out) => some (out.list, rest)

theorem urlParseChunks_last {world : World} {memory : Bool} (halloc : ∀ n, world.alloc n = memory) (skip : Bool)
    (chunk rest : List UInt8) (out : Chunks) :
    (if (skip && chunk.isEmpty) = true then some (out.list, rest)
      else (Servers.appendChunk memory chunk out.list).map (·, rest)) =
      memoryScan (scanned rest (appendChunks world (keptPieces skip [chunk]) out)) := by
  unfold keptPieces
  split
  · rfl
  · rw [appendChunk_eq halloc]
    unfold appendChunks
    obtain ⟨⟨ok, mid⟩, hchunk⟩ : ∃ r, appendChunk world chunk out = r := ⟨_, rfl⟩
    rw [hchunk]
    cases ok <;> rfl

theorem urlParseChunks_memory {world : World} {memory : Bool} (halloc : ∀ n, world.alloc n = memory)
    (delimiter : UInt8) (terminator : Option UInt8) (skip : Bool) (rest : List UInt8) :
    ∀ (chunk : List UInt8) (out : Chunks),
      Servers.urlParseChunks delimiter terminator skip memory chunk rest out.list =
        memoryScan (urlParseChunks world delimiter terminator skip chunk rest out) := by
  induction rest with
  | nil =>
      intro chunk out
      rw [Servers.urlParseChunks, urlParseChunks, scanned_last]
      exact urlParseChunks_last halloc skip chunk [] out
  | cons b rest ih =>
      intro chunk out
      rw [Servers.urlParseChunks, urlParseChunks]
      by_cases hd : b = delimiter
      · rw [if_pos hd, if_pos hd, appendChunk_eq halloc]
        obtain ⟨⟨ok, mid⟩, hchunk⟩ : ∃ r, appendChunk world chunk out = r := ⟨_, rfl⟩
        rw [hchunk]
        cases ok with
        | false => rfl
        | true => exact ih [] mid
      · rw [if_neg hd, if_neg hd]
        by_cases ht : some b = terminator
        · rw [if_pos ht, if_pos ht, scanned_last]
          exact urlParseChunks_last halloc skip chunk (b :: rest) out
        · rw [if_neg ht, if_neg ht]
          exact ih (chunk ++ [b]) out

/-! ## 4. Decoding and delimiters -/

/-- A byte that is no part of an escape. -/
structure Delimiter (d : UInt8) : Prop where
  ne : d ≠ 37
  notDigit : isXdigit d = false

theorem urlPercentDecode_cons {b : UInt8} (hb : b ≠ 37) (rest : List UInt8) :
    urlPercentDecode (b :: rest) = (urlPercentDecode rest).map (b :: ·) := by
  rw [urlPercentDecode.eq_def]
  exact if_neg hb

theorem urlPercentDecode_escape {high low : UInt8} (h : (isXdigit high && isXdigit low) = true) (rest : List UInt8) :
    urlPercentDecode (37 :: high :: low :: rest) =
      (urlPercentDecode rest).map ((xdigitValue high * 16 + xdigitValue low) :: ·) := by
  rw [urlPercentDecode.eq_def]
  exact (if_pos rfl).trans (if_pos h)

theorem urlPercentDecode_noEscape {high low : UInt8} (h : ¬(isXdigit high && isXdigit low) = true) (rest : List UInt8) :
    urlPercentDecode (37 :: high :: low :: rest) = none := by
  rw [urlPercentDecode.eq_def]
  exact (if_pos rfl).trans (if_neg h)

/-- **A delimiter ends what is decoded before it.** -/
theorem urlPercentDecode_append {d : UInt8} (hd : Delimiter d) (after : List UInt8) :
    ∀ before : List UInt8,
      urlPercentDecode (before ++ d :: after) =
        (urlPercentDecode before).bind fun x => (urlPercentDecode after).map fun y => x ++ d :: y
  | [] => by
      rw [List.nil_append, urlPercentDecode_cons hd.ne]
      rfl
  | [b] => by
      by_cases hb : b = 37
      · rw [hb, List.singleton_append]
        cases after with
        | nil => rfl
        | cons low after =>
            refine urlPercentDecode_noEscape (fun h => ?_) after
            rw [hd.notDigit] at h
            cases h
      · rw [List.singleton_append, urlPercentDecode_cons hb, urlPercentDecode_cons hd.ne, urlPercentDecode_cons hb,
          Option.map_map]
        rfl
  | [b, high] => by
      by_cases hb : b = 37
      · rw [hb]
        refine urlPercentDecode_noEscape (fun h => ?_) after
        rw [hd.notDigit, Bool.and_false] at h
        cases h
      · have ih := urlPercentDecode_append hd after [high]
        rw [List.cons_append, urlPercentDecode_cons hb, ih, urlPercentDecode_cons hb]
        cases urlPercentDecode [high] with
        | none => rfl
        | some x => cases urlPercentDecode after <;> rfl
  | b :: high :: low :: before => by
      by_cases hb : b = 37
      · rw [hb]
        by_cases h : (isXdigit high && isXdigit low) = true
        · have ih := urlPercentDecode_append hd after before
          rw [List.cons_append, List.cons_append, List.cons_append, urlPercentDecode_escape h, ih,
            urlPercentDecode_escape h]
          cases urlPercentDecode before with
          | none => rfl
          | some x => cases urlPercentDecode after <;> rfl
        · rw [List.cons_append, List.cons_append, List.cons_append, urlPercentDecode_noEscape h,
            urlPercentDecode_noEscape h]
          rfl
      · have ih := urlPercentDecode_append hd after (high :: low :: before)
        rw [List.cons_append, urlPercentDecode_cons hb, ih, urlPercentDecode_cons hb]
        cases urlPercentDecode (high :: low :: before) with
        | none => rfl
        | some x => cases urlPercentDecode after <;> rfl

/-- A byte that the validation accepts: it is no percent sign, or an escape starts there. -/
theorem isValidUrlPart_cases {valid : UInt8 → Bool} (h37 : valid 37 = false) {b : UInt8} {rest : List UInt8}
    (h : isValidUrlPart valid (b :: rest) = true) :
    (b ≠ 37 ∧ isValidUrlPart valid rest = true) ∨
      ∃ high low after, b = 37 ∧ rest = high :: low :: after ∧ (isXdigit high && isXdigit low) = true ∧
        isValidUrlPart valid after = true := by
  rw [isValidUrlPart.eq_def] at h
  dsimp only at h
  split at h
  · next hvalid =>
      refine .inl ⟨?_, h⟩
      rintro rfl
      rw [h37] at hvalid
      cases hvalid
  · split at h
    · next hb =>
        split at h
        · next high low after =>
            obtain ⟨hdigits, hafter⟩ := Bool.and_eq_true_iff.mp h
            exact .inr ⟨high, low, after, hb, rfl, hdigits, hafter⟩
        · cases h
    · cases h

theorem xdigitValue_spec (b : UInt8) : isXdigit b = true → xdigitValue b < 16 ∧ (xdigitValue b = 0 ↔ b = 48) := by
  revert b
  exact forall_byte (by decide +kernel)

/-- The null byte has one escape only. -/
theorem escape_eq_zero {high low : UInt8} (hhigh : isXdigit high = true) (hlow : isXdigit low = true) :
    xdigitValue high * 16 + xdigitValue low = 0 ↔ high = 48 ∧ low = 48 := by
  obtain ⟨hh, hhigh⟩ := xdigitValue_spec high hhigh
  obtain ⟨hl, hlow⟩ := xdigitValue_spec low hlow
  rw [← hhigh, ← hlow]
  rw [UInt8.lt_iff_toNat_lt] at hh hl
  constructor
  · intro h
    have hsum := congrArg UInt8.toNat h
    rw [UInt8.toNat_add, UInt8.toNat_mul] at hsum
    change (xdigitValue high).toNat < 16 at hh
    change (xdigitValue low).toNat < 16 at hl
    change (((xdigitValue high).toNat * 16) % 256 + (xdigitValue low).toNat) % 256 = 0 at hsum
    constructor
    · exact UInt8.toNat_inj.mp (show (xdigitValue high).toNat = 0 by omega)
    · exact UInt8.toNat_inj.mp (show (xdigitValue low).toNat = 0 by omega)
  · rintro ⟨h1, h2⟩
    rw [h1, h2]
    rfl

theorem nulEscape_infix {high low : UInt8} (hhigh : isXdigit high = true) (hlow : isXdigit low = true)
    (after : List UInt8) :
    [37, 48, 48] <:+: 37 :: high :: low :: after ↔ (high = 48 ∧ low = 48) ∨ [37, 48, 48] <:+: after := by
  have hno : ∀ {b : UInt8} {rest : List UInt8}, isXdigit b = true → ¬[37, 48, 48] <+: b :: rest := by
    intro b rest hb h
    rw [← (List.cons_prefix_cons.mp h).1] at hb
    cases hb
  rw [List.infix_cons_iff, List.infix_cons_iff, List.infix_cons_iff, or_iff_right (hno hhigh), or_iff_right (hno hlow)]
  refine or_congr ⟨fun h => ?_, ?_⟩ Iff.rfl
  · obtain ⟨-, h⟩ := List.cons_prefix_cons.mp h
    obtain ⟨h1, h⟩ := List.cons_prefix_cons.mp h
    exact ⟨h1.symm, (List.cons_prefix_cons.mp h).1.symm⟩
  · rintro ⟨rfl, rfl⟩
    exact ⟨after, rfl⟩

/-- **What the validation accepts can be decoded**, and a null byte in it comes from the escape `%00`. -/
theorem decodes_of_valid {valid : UInt8 → Bool} (h37 : valid 37 = false) (bytes : List UInt8)
    (h : isValidUrlPart valid bytes = true) (hnul : 0 ∉ bytes) :
    ∃ out, urlPercentDecode bytes = some out ∧ (0 ∈ out ↔ [37, 48, 48] <:+: bytes) := by
  induction hlen : bytes.length using Nat.strong_induction_on generalizing bytes with
  | _ n ih =>
      cases bytes with
      | nil => exact ⟨[], rfl, by simp⟩
      | cons b rest =>
          obtain ⟨hb0, hrest0⟩ := not_or.mp (List.mem_cons.not.mp hnul)
          rcases isValidUrlPart_cases h37 h with ⟨hb, hrest⟩ | ⟨high, low, after, hb, rfl, hdigits, hafter⟩
          · obtain ⟨out, hout, hiff⟩ := ih rest.length (by simp [← hlen]) rest hrest hrest0 rfl
            refine ⟨b :: out, by rw [urlPercentDecode_cons hb, hout]; rfl, ?_⟩
            have hfront : ¬[37, 48, 48] <+: b :: rest := fun h => hb (List.cons_prefix_cons.mp h).1.symm
            rw [List.infix_cons_iff, ← hiff, List.mem_cons, or_iff_right hb0, or_iff_right hfront]
          · obtain ⟨-, hafter0⟩ := not_or.mp (List.mem_cons.not.mp (not_or.mp (List.mem_cons.not.mp hrest0)).2)
            obtain ⟨out, hout, hiff⟩ := ih after.length (by simp [← hlen]; omega) after hafter hafter0 rfl
            obtain ⟨hhigh, hlow⟩ := Bool.and_eq_true_iff.mp hdigits
            refine ⟨_, by rw [hb, urlPercentDecode_escape hdigits, hout]; rfl, ?_⟩
            rw [hb, nulEscape_infix hhigh hlow, ← hiff, List.mem_cons, eq_comm, escape_eq_zero hhigh hlow]

/-! ## 5. The pieces of a relative URL -/

/-- The part before the first question mark, without one leading slash. -/
def pathPart (path : List UInt8) : List UInt8 := skipSlash (path.takeWhile (inPart (some 63)))

/-- The pieces between slashes, without an empty one at the end. -/
def pathPieces (path : List UInt8) : List (List UInt8) := keptPieces true ((pathPart path).splitOn 47)

/-- The pieces between ampersands behind the first question mark. -/
def queryPieces (path : List UInt8) : List (List UInt8) :=
  match path.dropWhile (inPart (some 63)) with
  | [] => []
  | _ :: query => query.splitOn 38

theorem skipSlash_cons_ne {b : UInt8} (hb : b ≠ 47) (rest : List UInt8) : skipSlash (b :: rest) = b :: rest :=
  if_neg fun h => hb (Option.some.inj h)

theorem takeWhile_skipSlash (path : List UInt8) :
    (skipSlash path).takeWhile (inPart (some 63)) = pathPart path := by
  unfold pathPart
  cases path with
  | nil => rfl
  | cons b rest =>
      by_cases hb : b = 47
      · rw [hb]
        rfl
      · rw [skipSlash_cons_ne hb]
        by_cases hin : inPart (some 63) b = true
        · rw [List.takeWhile_cons_of_pos hin, skipSlash_cons_ne hb]
        · rw [List.takeWhile_cons_of_neg hin]
          rfl

theorem dropWhile_skipSlash (path : List UInt8) :
    (skipSlash path).dropWhile (inPart (some 63)) = path.dropWhile (inPart (some 63)) := by
  cases path with
  | nil => rfl
  | cons b rest =>
      by_cases hb : b = 47
      · rw [hb]
        rfl
      · rw [skipSlash_cons_ne hb]

/-- The segment that a piece becomes. -/
def segment (piece : List UInt8) : CString := .ofBytes ((urlPercentDecode piece).getD [])

theorem appendChunk_true {world : World} {chunk : List UInt8} {out out' : Chunks}
    (h : appendChunk world chunk out = (true, out')) : out'.list = out.list ++ [segment chunk] := by
  unfold appendChunk at h
  split at h
  · split at h
    · next hempty =>
        rw [List.isEmpty_iff] at hempty
        rw [← (Prod.mk.inj h).2, hempty]
        rfl
    · split at h
      · cases h
      · next bytes hbytes =>
          rw [← (Prod.mk.inj h).2, segment, hbytes]
          rfl
  · cases h

theorem appendChunk_succeeds {world : World} (halloc : ∀ n, world.alloc n = true) {chunk : List UInt8}
    (hdecodes : ∃ bytes, urlPercentDecode chunk = some bytes) (out : Chunks) :
    (appendChunk world chunk out).1 = true := by
  obtain ⟨bytes, hbytes⟩ := hdecodes
  unfold appendChunk
  rw [if_pos (halloc _), hbytes]
  split <;> rfl

theorem appendChunks_true {world : World} : ∀ {chunks : List (List UInt8)} {out out' : Chunks},
    appendChunks world chunks out = (true, out') → out'.list = out.list ++ chunks.map segment
  | [], out, out', h => by rw [← (Prod.mk.inj h).2, List.map_nil, List.append_nil]
  | chunk :: chunks, out, out', h => by
      rw [appendChunks] at h
      obtain ⟨⟨ok, mid⟩, hchunk⟩ : ∃ r, appendChunk world chunk out = r := ⟨_, rfl⟩
      rw [hchunk] at h
      cases ok with
      | false => cases h
      | true => rw [appendChunks_true h, appendChunk_true hchunk, List.append_assoc, List.singleton_append, List.map_cons]

theorem appendChunks_succeeds {world : World} (halloc : ∀ n, world.alloc n = true) :
    ∀ {chunks : List (List UInt8)} (_ : ∀ chunk ∈ chunks, ∃ bytes, urlPercentDecode chunk = some bytes) (out : Chunks),
      (appendChunks world chunks out).1 = true
  | [], _, _ => rfl
  | chunk :: chunks, hdecodes, out => by
      rw [appendChunks]
      have hfirst := appendChunk_succeeds halloc (hdecodes chunk List.mem_cons_self) out
      obtain ⟨⟨ok, mid⟩, hchunk⟩ : ∃ r, appendChunk world chunk out = r := ⟨_, rfl⟩
      rw [hchunk] at hfirst ⊢
      obtain rfl : ok = true := hfirst
      exact appendChunks_succeeds halloc (fun c hc => hdecodes c (List.mem_cons_of_mem _ hc)) mid

/-- The scan of the path stops at a question mark only. -/
theorem eq_of_dropWhile {path query : List UInt8} {b : UInt8} (h : path.dropWhile (inPart (some 63)) = b :: query) :
    b = 63 := by
  have hstop := List.head?_dropWhile_not (inPart (some 63)) path
  rw [h] at hstop
  simpa [inPart] using hstop

theorem takeWhile_inPart_none (bytes : List UInt8) : bytes.takeWhile (inPart none) = bytes :=
  List.takeWhile_eq_self_iff.mpr fun _ _ => rfl

/-- The first scan: up to the question mark. -/
theorem urlParseChunks_path (world : World) (path : List UInt8) (out : Chunks) :
    urlParseChunks world 47 (some 63) true [] (skipSlash path) out =
      scanned (path.dropWhile (inPart (some 63))) (appendChunks world (pathPieces path) out) := by
  rw [urlParseChunks_eq world (by decide) true (skipSlash path) [] List.not_mem_nil, List.nil_append,
    takeWhile_skipSlash, dropWhile_skipSlash]
  rfl

/-- The second scan: everything behind the question mark. -/
theorem urlParseChunks_query (world : World) (query : List UInt8) (out : Chunks) :
    urlParseChunks world 38 none false [] query out =
      scanned (query.dropWhile (inPart none)) (appendChunks world (query.splitOn 38) out) := by
  rw [urlParseChunks_eq world (by decide) false query [] List.not_mem_nil, keptPieces_false, List.nil_append,
    takeWhile_inPart_none]

/-- The code between the validation and the end, over the pieces. -/
theorem parseSegments_eq (world : World) (path : List UInt8) :
    parseSegments world path =
      match appendChunks world (pathPieces path) ⟨[], 0⟩ with
      | (false, out) => ⟨-1, out.list, []⟩
      | (true, out) =>
          match path.dropWhile (inPart (some 63)) with
          | [] => ⟨0, out.list, []⟩
          | _ :: query =>
              match appendChunks world (query.splitOn 38) ⟨[], out.allocs⟩ with
              | (false, outQuery) => ⟨-1, out.list, outQuery.list⟩
              | (true, outQuery) => ⟨0, out.list, outQuery.list⟩ := by
  unfold parseSegments
  rw [urlParseChunks_path]
  obtain ⟨⟨ok, out⟩, hpath⟩ : ∃ r, appendChunks world (pathPieces path) ⟨[], 0⟩ = r := ⟨_, rfl⟩
  rw [hpath]
  cases ok with
  | false => rfl
  | true =>
      cases hrest : path.dropWhile (inPart (some 63)) with
      | nil => rfl
      | cons b query =>
          dsimp only [scanned]
          rw [if_pos (eq_of_dropWhile hrest), urlParseChunks_query]
          obtain ⟨⟨ok, outQuery⟩, hquery⟩ : ∃ r, appendChunks world (query.splitOn 38) ⟨[], out.allocs⟩ = r := ⟨_, rfl⟩
          rw [hquery]
          cases ok <;> rfl

/-- **Where the code succeeds, each piece has become a segment.** -/
theorem parseSegments_zero {world : World} {path : List UInt8} (h : (parseSegments world path).result = 0) :
    (parseSegments world path).outPath = (pathPieces path).map segment ∧
      (parseSegments world path).outQuery = (queryPieces path).map segment := by
  rw [parseSegments_eq] at h ⊢
  unfold queryPieces
  obtain ⟨⟨ok, out⟩, hpath⟩ : ∃ r, appendChunks world (pathPieces path) ⟨[], 0⟩ = r := ⟨_, rfl⟩
  rw [hpath] at h ⊢
  cases ok with
  | false => cases h
  | true =>
      have hout := appendChunks_true hpath
      cases hrest : path.dropWhile (inPart (some 63)) with
      | nil => exact ⟨hout, rfl⟩
      | cons b query =>
          rw [hrest] at h
          dsimp only at h ⊢
          obtain ⟨⟨ok, outQuery⟩, hquery⟩ : ∃ r, appendChunks world (query.splitOn 38) ⟨[], out.allocs⟩ = r := ⟨_, rfl⟩
          rw [hquery] at h ⊢
          cases ok with
          | false => cases h
          | true => exact ⟨hout, appendChunks_true hquery⟩

/-- With memory for every chunk, the code succeeds on pieces that can be decoded. -/
theorem parseSegments_succeeds {world : World} (halloc : ∀ n, world.alloc n = true) {path : List UInt8}
    (hpieces : ∀ piece ∈ pathPieces path ++ queryPieces path, ∃ bytes, urlPercentDecode piece = some bytes) :
    (parseSegments world path).result = 0 := by
  rw [parseSegments_eq]
  unfold queryPieces at hpieces
  have hpath := appendChunks_succeeds halloc (fun p hp => hpieces p (List.mem_append_left _ hp)) ⟨[], 0⟩
  obtain ⟨⟨ok, out⟩, hout⟩ : ∃ r, appendChunks world (pathPieces path) ⟨[], 0⟩ = r := ⟨_, rfl⟩
  rw [hout] at hpath ⊢
  obtain rfl : ok = true := hpath
  cases hrest : path.dropWhile (inPart (some 63)) with
  | nil => rfl
  | cons b query =>
      rw [hrest] at hpieces
      have hquery := appendChunks_succeeds halloc (fun p hp => hpieces p (List.mem_append_right _ hp)) ⟨[], out.allocs⟩
      obtain ⟨⟨ok, outQuery⟩, hout⟩ : ∃ r, appendChunks world (query.splitOn 38) ⟨[], out.allocs⟩ = r := ⟨_, rfl⟩
      dsimp only at hquery ⊢
      rw [hout] at hquery ⊢
      obtain rfl : ok = true := hquery
      rfl

/-! ## 6. What the pieces hold -/

def Decodes (bytes : List UInt8) : Prop := ∃ out, urlPercentDecode bytes = some out

/-- A null byte is decoded from the bytes. -/
def HoldsNul (bytes : List UInt8) : Prop := ∃ out, urlPercentDecode bytes = some out ∧ 0 ∈ out

theorem decodes_append {d : UInt8} (hd : Delimiter d) {before after : List UInt8} (h : Decodes (before ++ d :: after)) :
    Decodes before ∧ Decodes after := by
  obtain ⟨out, hout⟩ := h
  rw [urlPercentDecode_append hd] at hout
  obtain ⟨x, hx, hout⟩ := Option.bind_eq_some_iff.mp hout
  obtain ⟨y, hy, -⟩ := Option.map_eq_some_iff.mp hout
  exact ⟨⟨x, hx⟩, ⟨y, hy⟩⟩

theorem holdsNul_append {d : UInt8} (hd : Delimiter d) (hd0 : d ≠ 0) {before after : List UInt8}
    (h : Decodes (before ++ d :: after)) : HoldsNul (before ++ d :: after) ↔ HoldsNul before ∨ HoldsNul after := by
  obtain ⟨⟨x, hx⟩, ⟨y, hy⟩⟩ := decodes_append hd h
  unfold HoldsNul
  rw [urlPercentDecode_append hd, hx, hy]
  simp [hd0.symm]

/-- Pieces of a whole: they can be decoded where it can, and a null byte is in one of them where it is in the whole. -/
structure PiecesOf (whole : List UInt8) (pieces : List (List UInt8)) : Prop where
  decodes : Decodes whole → ∀ piece ∈ pieces, Decodes piece
  nul : Decodes whole → (HoldsNul whole ↔ ∃ piece ∈ pieces, HoldsNul piece)

theorem PiecesOf.single (bytes : List UInt8) : PiecesOf bytes [bytes] where
  decodes := fun h piece hmem => by rwa [List.mem_singleton.mp hmem]
  nul := fun _ => by simp

theorem not_holdsNul_nil : ¬HoldsNul [] := by
  rintro ⟨out, hout, hmem⟩
  obtain rfl := Option.some.inj hout
  cases hmem

/-- What stands before a delimiter and what stands behind it. -/
theorem PiecesOf.append {d : UInt8} (hd : Delimiter d) (hd0 : d ≠ 0) {before after : List UInt8}
    {bs as : List (List UInt8)} (hb : PiecesOf before bs) (ha : PiecesOf after as) :
    PiecesOf (before ++ d :: after) (bs ++ as) where
  decodes := by
    intro h piece hmem
    obtain ⟨hbefore, hafter⟩ := decodes_append hd h
    rcases List.mem_append.mp hmem with hmem | hmem
    · exact hb.decodes hbefore piece hmem
    · exact ha.decodes hafter piece hmem
  nul := by
    intro h
    obtain ⟨hbefore, hafter⟩ := decodes_append hd h
    rw [holdsNul_append hd hd0 h, hb.nul hbefore, ha.nul hafter]
    simp only [List.mem_append, or_and_right, exists_or]

theorem PiecesOf.intercalate {d : UInt8} (hd : Delimiter d) (hd0 : d ≠ 0) :
    ∀ {pieces : List (List UInt8)}, pieces ≠ [] → PiecesOf ([d].intercalate pieces) pieces
  | [], h => absurd rfl h
  | [piece], _ => by
      rw [List.intercalate_singleton]
      exact .single piece
  | piece :: next :: pieces, _ => by
      rw [List.intercalate_cons_cons, List.append_assoc]
      exact (PiecesOf.single piece).append hd hd0 (.intercalate hd hd0 (List.cons_ne_nil next pieces))

theorem PiecesOf.splitOn {d : UInt8} (hd : Delimiter d) (hd0 : d ≠ 0) (bytes : List UInt8) :
    PiecesOf bytes (bytes.splitOn d) := by
  have h := PiecesOf.intercalate hd hd0 (List.splitOn_ne_nil d bytes)
  rwa [List.intercalate_splitOn] at h

theorem mem_keptPieces (skip : Bool) (piece : List UInt8) : ∀ pieces : List (List UInt8),
    (piece ∈ keptPieces skip pieces → piece ∈ pieces) ∧ (piece ∈ pieces → piece ∈ keptPieces skip pieces ∨ piece = [])
  | [] => ⟨id, nofun⟩
  | [last] => by
      unfold keptPieces
      split
      · next h =>
          have hlast := List.isEmpty_iff.mp (Bool.and_eq_true_iff.mp h).2
          exact ⟨nofun, fun hmem => .inr ((List.mem_singleton.mp hmem).trans hlast)⟩
      · exact ⟨id, .inl⟩
  | first :: next :: pieces => by
      have ih := mem_keptPieces skip piece (next :: pieces)
      rw [keptPieces, List.mem_cons, List.mem_cons]
      constructor
      · exact Or.imp_right ih.1
      · rintro (h | h)
        · exact .inl (.inl h)
        · exact (ih.2 h).imp_left .inr

theorem PiecesOf.kept (skip : Bool) {whole : List UInt8} {pieces : List (List UInt8)} (h : PiecesOf whole pieces) :
    PiecesOf whole (keptPieces skip pieces) where
  decodes := fun hd piece hmem => h.decodes hd piece ((mem_keptPieces skip piece pieces).1 hmem)
  nul := by
    intro hd
    rw [h.nul hd]
    constructor
    · rintro ⟨piece, hmem, hnul⟩
      rcases (mem_keptPieces skip piece pieces).2 hmem with hkept | rfl
      · exact ⟨piece, hkept, hnul⟩
      · exact absurd hnul not_holdsNul_nil
    · rintro ⟨piece, hmem, hnul⟩
      exact ⟨piece, (mem_keptPieces skip piece pieces).1 hmem, hnul⟩

theorem PiecesOf.skipSlash {bytes : List UInt8} {pieces : List (List UInt8)} (h : PiecesOf (skipSlash bytes) pieces) :
    PiecesOf bytes pieces := by
  unfold PathAndQuery.skipSlash at h
  split at h
  · next hhead =>
      obtain ⟨rest, rfl⟩ := List.head?_eq_some_iff.mp hhead
      have hnil : PiecesOf [] [] := ⟨fun _ => nofun, fun _ => by simp [not_holdsNul_nil]⟩
      exact hnil.append ⟨by decide, by decide⟩ (by decide) h
  · exact h

/-- **The pieces of a relative URL.** -/
theorem piecesOf_path (path : List UInt8) : PiecesOf path (pathPieces path ++ queryPieces path) := by
  have hslash : Delimiter 47 := ⟨by decide, by decide⟩
  have hmark : Delimiter 63 := ⟨by decide, by decide⟩
  have hamp : Delimiter 38 := ⟨by decide, by decide⟩
  have hpath : PiecesOf (path.takeWhile (inPart (some 63))) (pathPieces path) :=
    ((PiecesOf.splitOn hslash (by decide) (pathPart path)).kept true).skipSlash
  have hsplit := List.takeWhile_append_dropWhile (p := inPart (some 63)) (l := path)
  unfold queryPieces
  cases hrest : path.dropWhile (inPart (some 63)) with
  | nil =>
      rw [hrest, List.append_nil] at hsplit
      rw [hsplit] at hpath
      rw [List.append_nil]
      exact hpath
  | cons b query =>
      have hall := hpath.append hmark (by decide) (PiecesOf.splitOn hamp (by decide) query)
      rw [hrest, eq_of_dropWhile hrest] at hsplit
      rwa [hsplit] at hall

/-! ## 7. Segments that are joined again -/

/-- The segments, encoded and joined with the delimiters. Behind an empty last segment stands the slash that
    makes no segment of its own. -/
def joined (path query : List CString) : List UInt8 :=
  47 :: [47].intercalate (path.map renderSegment) ++ (if path.getLast? = some (.ofBytes []) then [47] else []) ++
    (if query = [] then [] else 63 :: [38].intercalate (query.map renderSegment))

theorem keptPieces_append_nil : ∀ pieces : List (List UInt8), keptPieces true (pieces ++ [[]]) = pieces
  | [] => rfl
  | piece :: pieces => by
      rw [List.cons_append, keptPieces_cons true piece (by simp), keptPieces_append_nil pieces]

theorem keptPieces_last : ∀ {pieces : List (List UInt8)}, (∀ piece ∈ pieces.getLast?, piece ≠ []) →
    keptPieces true pieces = pieces
  | [], _ => rfl
  | [piece], h => by
      have hne : ¬(true && piece.isEmpty) = true := fun hempty => h piece rfl (List.isEmpty_iff.mp hempty)
      rw [keptPieces, if_neg hne]
  | piece :: next :: pieces, h => by
      have ih : keptPieces true (next :: pieces) = next :: pieces :=
        keptPieces_last fun p hp => h p (by rwa [List.getLast?_cons_cons])
      rw [keptPieces, ih]

theorem renderSegment_eq_nil {s : CString} (h : renderSegment s = []) : s = CString.ofBytes [] := by
  have hdecode := urlPercentDecode_render s.bytes
  rw [← renderSegment, h] at hdecode
  obtain ⟨bytes, hnul⟩ := s
  obtain rfl : [] = bytes := Option.some.inj hdecode
  rfl

/-- The path of the joined URL, without its first slash. -/
theorem splitOn_joined (path : List CString) :
    keptPieces true (([47].intercalate (path.map renderSegment) ++
      (if path.getLast? = some (CString.ofBytes []) then [47] else [])).splitOn 47) = path.map renderSegment := by
  have hslash : ∀ piece ∈ path.map renderSegment, (47 : UInt8) ∉ piece := by
    intro piece hmem
    obtain ⟨s, -, rfl⟩ := List.mem_map.mp hmem
    exact renderSegment_ne (by decide) (by decide) s
  by_cases hnil : path = []
  · rw [hnil]
    rfl
  have hne : path.map renderSegment ≠ [] := fun h => hnil (List.map_eq_nil_iff.mp h)
  by_cases hlast : path.getLast? = some (CString.ofBytes [])
  · have hjoin := Lib.intercalate_append (47 : UInt8) hne [[]]
    rw [Lib.preceded_cons, Lib.preceded_nil, List.append_nil] at hjoin
    rw [if_pos hlast, ← hjoin, List.splitOn_intercalate (47 : UInt8) ?_ (by simp), keptPieces_append_nil]
    intro piece hmem
    rcases List.mem_append.mp hmem with hmem | hmem
    · exact hslash piece hmem
    · rw [List.mem_singleton.mp hmem]
      exact List.not_mem_nil
  · rw [if_neg hlast, List.append_nil, List.splitOn_intercalate (47 : UInt8) hslash hne]
    refine keptPieces_last fun piece hmem hempty => hlast ?_
    rw [List.getLast?_map] at hmem
    obtain ⟨s, hs, rfl⟩ := Option.map_eq_some_iff.mp hmem
    rw [hs, renderSegment_eq_nil hempty]

theorem mem_intercalate {sep b : UInt8} : ∀ {items : List (List UInt8)}, b ∈ [sep].intercalate items →
    b = sep ∨ ∃ item ∈ items, b ∈ item
  | [], h => by cases h
  | [item], h => by
      rw [List.intercalate_singleton] at h
      exact .inr ⟨item, List.mem_singleton_self item, h⟩
  | item :: next :: items, h => by
      rw [List.intercalate_cons_cons] at h
      rcases List.mem_append.mp h with h | h
      · rcases List.mem_append.mp h with h | h
        · exact .inr ⟨item, List.mem_cons_self, h⟩
        · exact .inl (List.mem_singleton.mp h)
      · exact (mem_intercalate h).imp_right fun ⟨other, hmem, hb⟩ => ⟨other, List.mem_cons_of_mem _ hmem, hb⟩

/-- The path of the joined URL ends where its query begins. -/
theorem inPart_joined (path : List CString) :
    ∀ b ∈ 47 :: [47].intercalate (path.map renderSegment) ++ (if path.getLast? = some (CString.ofBytes []) then [47] else []),
      inPart (some 63) b = true := by
  intro b hb
  refine decide_eq_true fun h => ?_
  obtain rfl := Option.some.inj h
  rcases List.mem_append.mp hb with hb | hb
  · rcases List.mem_cons.mp hb with hb | hb
    · exact absurd hb (by decide)
    · rcases mem_intercalate hb with hb | ⟨item, hitem, hb⟩
      · exact absurd hb (by decide)
      · obtain ⟨s, -, rfl⟩ := List.mem_map.mp hitem
        exact renderSegment_ne (by decide) (by decide) s hb
  · split at hb
    · exact absurd (List.mem_singleton.mp hb) (by decide)
    · cases hb

theorem pathPieces_joined (path query : List CString) : pathPieces (joined path query) = path.map renderSegment := by
  unfold pathPieces pathPart joined
  rw [List.takeWhile_append_of_pos (inPart_joined path)]
  have hquery : (if query = [] then [] else 63 :: [38].intercalate (query.map renderSegment)).takeWhile
      (inPart (some 63)) = [] := by
    split <;> rfl
  rw [hquery, List.append_nil, List.cons_append]
  exact splitOn_joined path

theorem queryPieces_joined (path query : List CString) : queryPieces (joined path query) = query.map renderSegment := by
  unfold queryPieces joined
  rw [List.dropWhile_append_of_pos (inPart_joined path)]
  by_cases hquery : query = []
  · rw [if_pos hquery, hquery]
    rfl
  · rw [if_neg hquery]
    show ([38].intercalate (query.map renderSegment)).splitOn 38 = _
    refine List.splitOn_intercalate (38 : UInt8) (fun piece hmem => ?_) fun h => hquery (List.map_eq_nil_iff.mp h)
    obtain ⟨s, -, rfl⟩ := List.mem_map.mp hmem
    exact renderSegment_ne (by decide) (by decide) s

theorem isValidUrlPart_joined (path query : List CString) :
    isValidUrlPart isValidUrlPathChar (joined path query) = true := by
  have hslash : isValidUrlPathChar 47 = true := by decide
  have hend : isValidUrlPart isValidUrlPathChar
      (if query = [] then [] else 63 :: [38].intercalate (query.map renderSegment)) = true := by
    split
    · rfl
    · have hquery := isValidUrlPart_segments (show isValidUrlPathChar 38 = true by decide) query []
      rw [List.append_nil] at hquery
      rw [isValidUrlPart.eq_def]
      exact (if_pos (by decide)).trans (hquery.trans rfl)
  unfold joined
  rw [List.cons_append, List.cons_append, List.append_assoc, isValidUrlPart.eq_def]
  dsimp only
  rw [if_pos hslash, isValidUrlPart_segments hslash]
  split
  · rw [List.singleton_append, isValidUrlPart.eq_def]
    exact (if_pos hslash).trans hend
  · exact hend

/-! ## 8. What the function is to do -/

/-- Two relative URLs have the same segments in the path and in the query. -/
def Equivalent (a b : List UInt8) : Prop :=
  (pathPieces a).map urlPercentDecode = (pathPieces b).map urlPercentDecode ∧
    (queryPieces a).map urlPercentDecode = (queryPieces b).map urlPercentDecode

/-- The segments are the decoded pieces, and joined again they are a URL like the one they are from. -/
structure Segments (path : CString) (parsed : Parsed) : Prop where
  ofPath : (pathPieces path.bytes).map urlPercentDecode = parsed.outPath.map fun s => some s.bytes
  ofQuery : (queryPieces path.bytes).map urlPercentDecode = parsed.outQuery.map fun s => some s.bytes
  valid : isValidUrlPart isValidUrlPathChar (joined parsed.outPath parsed.outQuery) = true
  equivalent : Equivalent (joined parsed.outPath parsed.outQuery) path.bytes

/-- What `_anjay_url_parse_path_and_query` is to do with a relative URL. -/
structure Meets (path : CString) : Prop where
  cleared : ∀ world, (urlParsePathAndQuery world (some path)).result ≠ 0 →
    (urlParsePathAndQuery world (some path)).outPath = [] ∧ (urlParsePathAndQuery world (some path)).outQuery = []
  succeeds : isValidUrlPart isValidUrlPathChar path.bytes = true → ∀ world, (∀ n, world.alloc n = true) →
    (urlParsePathAndQuery world (some path)).result = 0
  segments : isValidUrlPart isValidUrlPathChar path.bytes = true →
    ∀ world, (urlParsePathAndQuery world (some path)).result = 0 →
      Segments path (urlParsePathAndQuery world (some path))

theorem Parsed.clear_cleared (parsed : Parsed) (h : parsed.clear.result ≠ 0) :
    parsed.clear.outPath = [] ∧ parsed.clear.outQuery = [] := by
  unfold Parsed.clear at h ⊢
  split
  · exact ⟨rfl, rfl⟩
  · next hzero =>
      rw [if_neg hzero] at h
      exact absurd h hzero

theorem Parsed.clear_result (parsed : Parsed) : parsed.clear.result = parsed.result := by
  unfold Parsed.clear
  split <;> rfl

theorem Parsed.clear_of_zero {parsed : Parsed} (h : parsed.result = 0) : parsed.clear = parsed :=
  if_neg fun hne => hne h

/-- **On a failure both lists are empty**, whatever failed. -/
theorem urlParsePathAndQuery_cleared (world : World) (path : Option CString)
    (h : (urlParsePathAndQuery world path).result ≠ 0) :
    (urlParsePathAndQuery world path).outPath = [] ∧ (urlParsePathAndQuery world path).outQuery = [] := by
  cases path with
  | none => exact Parsed.clear_cleared _ h
  | some path =>
      unfold urlParsePathAndQuery at h ⊢
      dsimp only at h ⊢
      split
      · next hvalid =>
          rw [if_pos hvalid] at h
          exact Parsed.clear_cleared _ h
      · exact ⟨rfl, rfl⟩

theorem urlParsePathAndQuery_valid {path : CString} (hvalid : isValidUrlPart isValidUrlPathChar path.bytes = true)
    (world : World) : urlParsePathAndQuery world (some path) = (parseSegments world path.bytes).clear := if_pos hvalid

/-- The lists where the function succeeds. -/
def Parsed.lists (parsed : Parsed) : Option (List CString × List CString) :=
  if parsed.result = 0 then some (parsed.outPath, parsed.outQuery) else none

theorem Parsed.lists_clear (parsed : Parsed) : parsed.clear.lists = parsed.lists := by
  by_cases h : parsed.result = 0
  · rw [Parsed.clear_of_zero h]
  · have hclear : parsed.clear = ⟨parsed.result, [], []⟩ := if_pos h
    unfold Parsed.lists
    rw [hclear, if_neg h, if_neg h]

/-- **With memory for all chunks or for none, it is the function of `Url.lean`.** -/
theorem urlParsePathAndQuery_memory_eq {world : World} {memory : Bool} (halloc : ∀ n, world.alloc n = memory)
    (path : Option CString) :
    Servers.urlParsePathAndQuery memory path = (urlParsePathAndQuery world path).lists := by
  cases path with
  | none => rfl
  | some path =>
      unfold Servers.urlParsePathAndQuery
      dsimp only
      by_cases hvalid : isValidUrlPart isValidUrlPathChar path.bytes = true
      · rw [if_pos hvalid, urlParsePathAndQuery_valid hvalid, Parsed.lists_clear]
        have hfirst : Servers.urlParseChunks 47 (some 63) true memory [] (skipSlash path.bytes) [] =
            memoryScan (scanned (path.bytes.dropWhile (inPart (some 63)))
              (appendChunks world (pathPieces path.bytes) ⟨[], 0⟩)) := by
          rw [← urlParseChunks_path]
          exact urlParseChunks_memory halloc 47 (some 63) true (skipSlash path.bytes) [] ⟨[], 0⟩
        have hsecond : ∀ (query : List UInt8) (n : Nat), Servers.urlParseChunks 38 none false memory [] query [] =
            memoryScan (scanned (query.dropWhile (inPart none)) (appendChunks world (query.splitOn 38) ⟨[], n⟩)) := by
          intro query n
          rw [← urlParseChunks_query]
          exact urlParseChunks_memory halloc 38 none false query [] ⟨[], n⟩
        rw [parseSegments_eq, ← skipSlash, Servers.parseSegments, hfirst]
        obtain ⟨⟨ok, out⟩, hpath⟩ : ∃ r, appendChunks world (pathPieces path.bytes) ⟨[], 0⟩ = r := ⟨_, rfl⟩
        rw [hpath]
        cases ok with
        | false => rfl
        | true =>
            cases hrest : path.bytes.dropWhile (inPart (some 63)) with
            | nil => rfl
            | cons b query =>
                dsimp only [scanned, memoryScan]
                rw [hsecond query out.allocs]
                obtain ⟨⟨ok, outQuery⟩, hquery⟩ : ∃ r, appendChunks world (query.splitOn 38) ⟨[], out.allocs⟩ = r :=
                  ⟨_, rfl⟩
                rw [hquery]
                cases ok <;> rfl
      · rw [if_neg hvalid, show urlParsePathAndQuery world (some path) = ⟨-1, [], []⟩ from if_neg hvalid]
        rfl

theorem map_renderSegment_decode (segments : List CString) :
    (segments.map renderSegment).map urlPercentDecode = segments.map fun s => some s.bytes := by
  rw [List.map_map]
  exact List.map_congr_left fun s _ => urlPercentDecode_render s.bytes

theorem segments_of_maps {path : CString} {parsed : Parsed}
    (hpath : (pathPieces path.bytes).map urlPercentDecode = parsed.outPath.map fun s => some s.bytes)
    (hquery : (queryPieces path.bytes).map urlPercentDecode = parsed.outQuery.map fun s => some s.bytes) :
    Segments path parsed where
  ofPath := hpath
  ofQuery := hquery
  valid := isValidUrlPart_joined _ _
  equivalent := by
    unfold Equivalent
    rw [pathPieces_joined, queryPieces_joined, map_renderSegment_decode, map_renderSegment_decode, hpath, hquery]
    exact ⟨rfl, rfl⟩

/-- A piece without a null byte is what its segment holds. -/
theorem segment_bytes {piece : List UInt8} (hdecodes : Decodes piece) (hnul : ¬HoldsNul piece) :
    urlPercentDecode piece = some (segment piece).bytes := by
  obtain ⟨out, hout⟩ := hdecodes
  have h0 : 0 ∉ out := fun h => hnul ⟨out, hout, h⟩
  have hbytes : (segment piece).bytes = out := by
    rw [segment, hout]
    exact congrArg CString.bytes (ofBytes_bytes ⟨out, h0⟩)
  rw [hbytes, hout]

/-- A piece with a null byte is held by no string. -/
theorem urlPercentDecode_ne {piece : List UInt8} (hnul : HoldsNul piece) (s : CString) :
    urlPercentDecode piece ≠ some s.bytes := by
  obtain ⟨out, hout, h0⟩ := hnul
  intro h
  rw [hout] at h
  obtain rfl := Option.some.inj h
  exact s.noNul h0

/-- **The segments of a relative URL are its decoded pieces, unless it is accepted with the escape `%00` in it:**
    a segment then ends where the null byte is. -/
theorem segments_meet_iff (path : CString) :
    Meets path ↔ ¬(isValidUrlPart isValidUrlPathChar path.bytes = true ∧ [37, 48, 48] <:+: path.bytes) := by
  have hpieces := piecesOf_path path.bytes
  constructor
  · rintro h ⟨hvalid, hescape⟩
    obtain ⟨out, hout, hiff⟩ := decodes_of_valid (by decide) path.bytes hvalid path.noNul
    obtain ⟨piece, hmem, hnul⟩ := (hpieces.nul ⟨out, hout⟩).mp ⟨out, hout, hiff.mpr hescape⟩
    have hworld := h.segments hvalid ⟨fun _ => true, fun _ => .ofBytes []⟩ (h.succeeds hvalid _ fun _ => rfl)
    -- the piece with the null byte would be the bytes of a string
    have hheld : ∀ (pieces : List (List UInt8)) (strings : List CString), piece ∈ pieces →
        pieces.map urlPercentDecode ≠ strings.map fun s => some s.bytes := by
      intro pieces strings hin hmap
      have hin' := List.mem_map_of_mem (f := urlPercentDecode) hin
      rw [hmap] at hin'
      obtain ⟨s, -, hs⟩ := List.mem_map.mp hin'
      exact urlPercentDecode_ne hnul s hs.symm
    rcases List.mem_append.mp hmem with hmem | hmem
    · exact hheld _ _ hmem hworld.ofPath
    · exact hheld _ _ hmem hworld.ofQuery
  · intro h
    refine ⟨fun world => urlParsePathAndQuery_cleared world _, fun hvalid world halloc => ?_, fun hvalid world hzero => ?_⟩
    · obtain ⟨out, hout, -⟩ := decodes_of_valid (by decide) path.bytes hvalid path.noNul
      rw [urlParsePathAndQuery_valid hvalid, Parsed.clear_result]
      exact parseSegments_succeeds halloc (hpieces.decodes ⟨out, hout⟩)
    · obtain ⟨out, hout, hiff⟩ := decodes_of_valid (by decide) path.bytes hvalid path.noNul
      have hnul : ¬HoldsNul path.bytes := by
        rintro ⟨out', hout', hmem⟩
        rw [hout] at hout'
        obtain rfl := Option.some.inj hout'
        exact h ⟨hvalid, hiff.mp hmem⟩
      have hbytes : ∀ piece ∈ pathPieces path.bytes ++ queryPieces path.bytes,
          urlPercentDecode piece = some (segment piece).bytes := fun piece hmem =>
        segment_bytes (hpieces.decodes ⟨out, hout⟩ piece hmem)
          fun hp => hnul ((hpieces.nul ⟨out, hout⟩).mpr ⟨piece, hmem, hp⟩)
      rw [urlParsePathAndQuery_valid hvalid, Parsed.clear_result] at hzero
      rw [urlParsePathAndQuery_valid hvalid, Parsed.clear_of_zero hzero]
      obtain ⟨hpath, hquery⟩ := parseSegments_zero hzero
      refine segments_of_maps ?_ ?_
      · rw [hpath, List.map_map]
        exact List.map_congr_left fun piece hmem => hbytes piece (List.mem_append_left _ hmem)
      · rw [hquery, List.map_map]
        exact List.map_congr_left fun piece hmem => hbytes piece (List.mem_append_right _ hmem)

/-- `/a%00b` is accepted, and its segment is `a`. -/
theorem nulEscape_not_meet : ¬Meets (.ofBytes [47, 97, 37, 48, 48, 98]) := by
  intro h
  have hvalid : isValidUrlPart isValidUrlPathChar (CString.ofBytes [47, 97, 37, 48, 48, 98]).bytes = true := by
    decide +kernel
  have hsegments := (h.segments hvalid ⟨fun _ => true, fun _ => .ofBytes []⟩ (by decide +kernel)).ofPath
  exact absurd hsegments (by decide +kernel)

end Anjay.Servers.PathAndQuery
