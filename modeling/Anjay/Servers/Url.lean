/-
  File:      Anjay/Servers/Url.lean
  Subject:   The URL of a server and what the client takes from it: host, port, and the segments of the path and
             of the query (`avs_url.c`, `anjay_utils_core.c`).

  * `urlFromAvsUrl_parsed`: what is filled in is a function of the URL.
  * `urlParsePathAndQuery_rendered`: segments that are written into a URL are read back.
-/
import Mathlib.Data.List.TakeWhile
import Anjay.Security.Object

namespace Anjay.Servers

/-! ## 1. Percent-encoding -/

/-- `isxdigit`. -/
def isXdigit (b : UInt8) : Bool :=
  (decide (48 ≤ b) && decide (b ≤ 57)) || (decide (65 ≤ b) && decide (b ≤ 70)) || (decide (97 ≤ b) && decide (b ≤ 102))

/-- `isalnum`, in the C locale. -/
def isAlnum (b : UInt8) : Bool :=
  (decide (48 ≤ b) && decide (b ≤ 57)) || (decide (65 ≤ b) && decide (b ≤ 90)) || (decide (97 ≤ b) && decide (b ≤ 122))

/-- `strtoul` on one hexadecimal digit. -/
def xdigitValue (b : UInt8) : UInt8 :=
  if b ≤ 57 then b - 48 else if b ≤ 70 then b - 55 else b - 87

/-- `avs_url_percent_decode`. -/
def urlPercentDecode : List UInt8 → Option (List UInt8)
  | [] => some []
  | b :: rest =>
      if b = 37 then
        match rest with
        | high :: low :: rest =>
            if isXdigit high && isXdigit low then
              (urlPercentDecode rest).map ((xdigitValue high * 16 + xdigitValue low) :: ·)
            else none
        | _ => none
      else (urlPercentDecode rest).map (b :: ·)

/-- `is_valid_url_path_char`: a letter, a digit, or one of `/?~;:@&=$-_.+!*'(),`. -/
def isValidUrlPathChar (b : UInt8) : Bool :=
  isAlnum b || [47, 63, 126, 59, 58, 64, 38, 61, 36, 45, 95, 46, 43, 33, 42, 39, 40, 41, 44].contains b

/-- `is_valid_url_part`. -/
def isValidUrlPart (isUnescapedCharacterValid : UInt8 → Bool) : List UInt8 → Bool
  | [] => true
  | b :: rest =>
      if isUnescapedCharacterValid b then isValidUrlPart isUnescapedCharacterValid rest
      else if b = 37 then
        match rest with
        | high :: low :: rest => isXdigit high && isXdigit low && isValidUrlPart isUnescapedCharacterValid rest
        | _ => false
      else false

/-! ## 2. Path and query -/

/-- A chunk joins the list, unless there is no `memory` for it or it cannot be decoded. -/
def appendChunk (memory : Bool) (chunk : List UInt8) (chunks : List CString) : Option (List CString) :=
  if memory then (urlPercentDecode chunk).map fun bytes => chunks ++ [CString.ofBytes bytes] else none

/-- `url_parse_chunks`: `chunk` lies between `chunk_begin` and `chunk_end`, and the null byte is the end of the
    list. What is left starts with the terminator. -/
def urlParseChunks (delimiter : UInt8) (terminator : Option UInt8) (skipTrailingSeparator memory : Bool) :
    List UInt8 → List UInt8 → List CString → Option (List CString × List UInt8)
  | chunk, [], chunks =>
      if skipTrailingSeparator && chunk.isEmpty then some (chunks, [])
      else (appendChunk memory chunk chunks).map (·, [])
  | chunk, b :: rest, chunks =>
      if b = delimiter then
        match appendChunk memory chunk chunks with
        | none => none
        | some chunks => urlParseChunks delimiter terminator skipTrailingSeparator memory [] rest chunks
      else if some b = terminator then
        if skipTrailingSeparator && chunk.isEmpty then some (chunks, b :: rest)
        else (appendChunk memory chunk chunks).map (·, b :: rest)
      else urlParseChunks delimiter terminator skipTrailingSeparator memory (chunk ++ [b]) rest chunks

/-- The part of `_anjay_url_parse_path_and_query` after the first slash. -/
def parseSegments (memory : Bool) (path : List UInt8) : Option (List CString × List CString) :=
  match urlParseChunks 47 (some 63) true memory [] path [] with
  | none => none
  | some (uriPath, []) => some (uriPath, [])
  | some (uriPath, _ :: query) => (urlParseChunks 38 none false memory [] query []).map (uriPath, ·.1)

/-- `_anjay_url_parse_path_and_query`, for lists that are empty. -/
def urlParsePathAndQuery (memory : Bool) : Option CString → Option (List CString × List CString)
  | none => some ([], [])
  | some path =>
      if isValidUrlPart isValidUrlPathChar path.bytes then
        parseSegments memory (if path.bytes.head? = some 47 then path.bytes.tail else path.bytes)
      else none

/-! ## 3. URLs -/

/-- `avs_url_t`: the parts that a URL has. -/
structure AvsUrl where
  protocol : Option CString
  user : Option CString
  password : Option CString
  host : Option CString
  port : Option CString
  path : Option CString
  deriving DecidableEq, Repr

/-- `anjay_url_t`. -/
structure Url where
  host : CString
  port : CString
  uriPath : List CString
  uriQuery : List CString
  deriving DecidableEq, Repr

/-- `ANJAY_URL_EMPTY`. -/
def Url.empty : Url := ⟨.ofBytes [], .ofBytes [], [], []⟩

/-- `_anjay_url_cleanup`: the host and the port stay. -/
def Url.cleanup (url : Url) : Url := { url with uriPath := [], uriQuery := [] }

theorem Url.cleanup_eq {url : Url} (hpath : url.uriPath = []) (hquery : url.uriQuery = []) : url.cleanup = url := by
  obtain ⟨host, port, uriPath, uriQuery⟩ := url
  dsimp only at hpath hquery
  rw [hpath, hquery]
  rfl

/-- `copy_nullable_string`. -/
def copyNullableString (outSize : Nat) : Option CString → Option CString
  | none => some (.ofBytes [])
  | some s => if outSize ≤ s.bytes.length then none else some s

/-- `ANJAY_MAX_URL_HOSTNAME_SIZE`, `ANJAY_MAX_URL_PORT_SIZE`. -/
def maxUrlHostnameSize : Nat := 245
def maxUrlPortSize : Nat := 6

/-- `default_port` of `TRANSPORTS`: "5683", and "5684" where the transport is encrypted. -/
def defaultPort (info : Sec.SchemeInfo) : CString :=
  if info.security = .encrypted then .ofBytes [53, 54, 56, 52] else .ofBytes [53, 54, 56, 51]

/-- `_anjay_url_from_avs_url`: whether it succeeds, and what it leaves in `out`. -/
def urlFromAvsUrl (memory : Bool) (avsUrl : AvsUrl) (out : Url) : Bool × Url :=
  if avsUrl.user.isSome || avsUrl.password.isSome then (false, out)
  else
    match copyNullableString maxUrlHostnameSize avsUrl.host with
    | none => (false, out)
    | some host =>
        if avsUrl.port = some (.ofBytes []) then (false, { out with host := host })
        else
          match copyNullableString maxUrlPortSize avsUrl.port with
          | none => (false, { out with host := host })
          | some port =>
              match urlParsePathAndQuery memory avsUrl.path with
              | none => (false, ⟨host, port, [], []⟩)
              | some (uriPath, uriQuery) =>
                  if port.bytes.isEmpty then
                    (true, ⟨host, ((avsUrl.protocol.bind Sec.schemeInfoByUri).map defaultPort).getD port, uriPath, uriQuery⟩)
                  else (true, ⟨host, port, uriPath, uriQuery⟩)

/-- Host, port and segments of a URL. -/
def AvsUrl.parsed (avsUrl : AvsUrl) : Url := (urlFromAvsUrl true avsUrl .empty).2

/-! ## 4. What is filled in depends on the URL only -/

theorem appendChunk_memory {memory : Bool} {chunk : List UInt8} {chunks chunks' : List CString}
    (h : appendChunk memory chunk chunks = some chunks') : appendChunk true chunk chunks = some chunks' := by
  cases memory with
  | false => cases h
  | true => exact h

theorem urlParseChunks_memory {delimiter : UInt8} {terminator : Option UInt8} {skip memory : Bool} :
    ∀ {rest chunk : List UInt8} {chunks : List CString} {result : List CString × List UInt8},
      urlParseChunks delimiter terminator skip memory chunk rest chunks = some result →
      urlParseChunks delimiter terminator skip true chunk rest chunks = some result := by
  intro rest
  induction rest with
  | nil =>
      intro chunk chunks result h
      unfold urlParseChunks at h ⊢
      split at h
      · next hskip => rw [if_pos hskip]; exact h
      · next hskip =>
          rw [if_neg hskip]
          obtain ⟨chunks', hchunk, rfl⟩ := Option.map_eq_some_iff.mp h
          rw [appendChunk_memory hchunk]
          rfl
  | cons b rest ih =>
      intro chunk chunks result h
      unfold urlParseChunks at h ⊢
      by_cases hd : b = delimiter
      · rw [if_pos hd] at h ⊢
        cases hchunk : appendChunk memory chunk chunks with
        | none => rw [hchunk] at h; cases h
        | some chunks' =>
            rw [hchunk] at h
            rw [appendChunk_memory hchunk]
            exact ih h
      · rw [if_neg hd] at h ⊢
        by_cases ht : some b = terminator
        · rw [if_pos ht] at h ⊢
          split at h
          · next hskip => rw [if_pos hskip]; exact h
          · next hskip =>
              rw [if_neg hskip]
              obtain ⟨chunks', hchunk, rfl⟩ := Option.map_eq_some_iff.mp h
              rw [appendChunk_memory hchunk]
              rfl
        · rw [if_neg ht] at h ⊢
          exact ih h

theorem parseSegments_memory {memory : Bool} {path : List UInt8} {result : List CString × List CString}
    (h : parseSegments memory path = some result) : parseSegments true path = some result := by
  unfold parseSegments at h ⊢
  cases hpath : urlParseChunks 47 (some 63) true memory [] path [] with
  | none => rw [hpath] at h; cases h
  | some r =>
      obtain ⟨uriPath, rest⟩ := r
      rw [hpath] at h
      rw [urlParseChunks_memory hpath]
      cases rest with
      | nil => exact h
      | cons b query =>
          obtain ⟨r, hquery, rfl⟩ := Option.map_eq_some_iff.mp h
          dsimp only
          rw [urlParseChunks_memory hquery]
          rfl

theorem urlParsePathAndQuery_memory {memory : Bool} {path : Option CString} {result : List CString × List CString}
    (h : urlParsePathAndQuery memory path = some result) : urlParsePathAndQuery true path = some result := by
  cases path with
  | none => exact h
  | some path =>
      unfold urlParsePathAndQuery at h ⊢
      dsimp only at h ⊢
      split at h
      · next hvalid =>
          rw [if_pos hvalid]
          exact parseSegments_memory h
      · cases h

/-- **What a URL is filled with** is the same for all memory that is enough, and for all that was there before. -/
theorem urlFromAvsUrl_parsed {memory : Bool} {avsUrl : AvsUrl} {out : Url}
    (h : (urlFromAvsUrl memory avsUrl out).1 = true) : (urlFromAvsUrl memory avsUrl out).2 = avsUrl.parsed := by
  unfold AvsUrl.parsed
  unfold urlFromAvsUrl at h ⊢
  by_cases hcredentials : (avsUrl.user.isSome || avsUrl.password.isSome) = true
  · rw [if_pos hcredentials] at h
    cases h
  rw [if_neg hcredentials] at h ⊢
  rw [if_neg hcredentials]
  cases hhost : copyNullableString maxUrlHostnameSize avsUrl.host with
  | none => rw [hhost] at h; cases h
  | some host =>
      rw [hhost] at h
      dsimp only at h ⊢
      by_cases hempty : avsUrl.port = some (.ofBytes [])
      · rw [if_pos hempty] at h
        cases h
      rw [if_neg hempty] at h ⊢
      rw [if_neg hempty]
      cases hport : copyNullableString maxUrlPortSize avsUrl.port with
      | none => rw [hport] at h; cases h
      | some port =>
          rw [hport] at h
          dsimp only at h ⊢
          cases hpath : urlParsePathAndQuery memory avsUrl.path with
          | none => rw [hpath] at h; cases h
          | some segments => rw [urlParsePathAndQuery_memory hpath]

/-! ## 5. Segments that are written into a URL -/

/-- The upper case hexadecimal digit of a number below 16. -/
def xdigit (n : UInt8) : UInt8 := if n < 10 then n + 48 else n + 55

/-- A byte of a segment: letters and digits as they are. -/
def renderByte (b : UInt8) : List UInt8 :=
  if isAlnum b then [b] else [37, xdigit (b / 16), xdigit (b % 16)]

def renderSegment (segment : CString) : List UInt8 := segment.bytes.flatMap renderByte

/-- A relative URL with these segments. -/
def renderPathAndQuery (path query : List CString) : List UInt8 :=
  [47].intercalate (path.map renderSegment) ++
    (if query = [] then [] else 63 :: [38].intercalate (query.map renderSegment))

theorem forall_byte {P : UInt8 → Prop} (h : ∀ n : Fin 256, P (.ofFin n)) (b : UInt8) : P b := h b.toFin

theorem isXdigit_xdigit (b : UInt8) : (isXdigit (xdigit (b / 16)) && isXdigit (xdigit (b % 16))) = true := by
  revert b
  exact forall_byte (by decide +kernel)

theorem xdigitValue_xdigit (b : UInt8) : xdigitValue (xdigit (b / 16)) * 16 + xdigitValue (xdigit (b % 16)) = b := by
  revert b
  exact forall_byte (by decide +kernel)

theorem all_renderByte (b : UInt8) : (renderByte b).all (fun c => decide (c = 37) || isAlnum c) = true := by
  revert b
  exact forall_byte (by decide +kernel)

theorem isAlnum_renderByte (b : UInt8) : ∀ c ∈ renderByte b, c = 37 ∨ isAlnum c = true := by
  intro c hc
  have h := List.all_eq_true.mp (all_renderByte b) c hc
  rw [Bool.or_eq_true, decide_eq_true_eq] at h
  exact h

theorem urlPercentDecode_renderByte (b : UInt8) (rest : List UInt8) :
    urlPercentDecode (renderByte b ++ rest) = (urlPercentDecode rest).map (b :: ·) := by
  unfold renderByte
  by_cases h : isAlnum b = true
  · have hne : b ≠ 37 := by
      rintro rfl
      exact absurd h (by decide)
    rw [if_pos h, List.singleton_append, urlPercentDecode.eq_def]
    exact if_neg hne
  · rw [if_neg h]
    show urlPercentDecode (37 :: xdigit (b / 16) :: xdigit (b % 16) :: rest) = _
    rw [urlPercentDecode.eq_def]
    dsimp only
    rw [if_pos rfl, if_pos (isXdigit_xdigit b), xdigitValue_xdigit]

theorem isValidUrlPart_renderByte (b : UInt8) (rest : List UInt8) :
    isValidUrlPart isValidUrlPathChar (renderByte b ++ rest) = isValidUrlPart isValidUrlPathChar rest := by
  unfold renderByte
  by_cases h : isAlnum b = true
  · have hvalid : isValidUrlPathChar b = true := by
      unfold isValidUrlPathChar
      rw [h, Bool.true_or]
    rw [if_pos h, List.singleton_append, isValidUrlPart.eq_def]
    exact if_pos hvalid
  · rw [if_neg h]
    show isValidUrlPart _ (37 :: xdigit (b / 16) :: xdigit (b % 16) :: rest) = _
    rw [isValidUrlPart.eq_def]
    dsimp only
    rw [if_neg (by decide), if_pos rfl, isXdigit_xdigit, Bool.true_and]

theorem urlPercentDecode_render : ∀ bytes : List UInt8, urlPercentDecode (bytes.flatMap renderByte) = some bytes
  | [] => rfl
  | b :: bytes => by
      rw [List.flatMap_cons, urlPercentDecode_renderByte, urlPercentDecode_render bytes]
      rfl

theorem isValidUrlPart_renderSegment (segment : CString) (rest : List UInt8) :
    isValidUrlPart isValidUrlPathChar (renderSegment segment ++ rest) = isValidUrlPart isValidUrlPathChar rest := by
  unfold renderSegment
  induction segment.bytes with
  | nil => rfl
  | cons b bytes ih => rw [List.flatMap_cons, List.append_assoc, isValidUrlPart_renderByte, ih]

theorem ofBytes_bytes (s : CString) : CString.ofBytes s.bytes = s := by
  have htake : s.bytes.takeWhile (fun b => decide (b ≠ 0)) = s.bytes := by
    refine List.takeWhile_eq_self_iff.mpr fun b hb => decide_eq_true ?_
    rintro rfl
    exact s.noNul hb
  obtain ⟨bytes, hnul⟩ := s
  unfold CString.ofBytes
  congr

theorem appendChunk_renderSegment (segment : CString) (chunks : List CString) :
    appendChunk true (renderSegment segment) chunks = some (chunks ++ [segment]) := by
  show (urlPercentDecode _).map _ = _
  rw [renderSegment, urlPercentDecode_render]
  exact congrArg (fun s => some (chunks ++ [s])) (ofBytes_bytes segment)

/-- No byte of a rendered segment ends a chunk. -/
theorem renderSegment_ne {d : UInt8} (hne : d ≠ 37) (halnum : isAlnum d = false) (segment : CString) :
    d ∉ renderSegment segment := by
  intro hmem
  obtain ⟨b, -, hb⟩ := List.mem_flatMap.mp hmem
  rcases isAlnum_renderByte b d hb with h | h
  · exact hne h
  · rw [halnum] at h
    cases h

/-- Bytes that end no chunk join the chunk. -/
theorem urlParseChunks_append {delimiter : UInt8} {terminator : Option UInt8} {skip memory : Bool} :
    ∀ {bytes : List UInt8} (_ : delimiter ∉ bytes) (_ : ∀ b ∈ bytes, some b ≠ terminator) (chunk rest : List UInt8)
      (chunks : List CString),
      urlParseChunks delimiter terminator skip memory chunk (bytes ++ rest) chunks =
        urlParseChunks delimiter terminator skip memory (chunk ++ bytes) rest chunks
  | [], _, _, chunk, rest, chunks => by rw [List.append_nil, List.nil_append]
  | b :: bytes, hd, ht, chunk, rest, chunks => by
      have hb : b ≠ delimiter := fun h => hd (h ▸ List.mem_cons_self)
      rw [List.cons_append, urlParseChunks, if_neg hb, if_neg (ht b List.mem_cons_self),
        urlParseChunks_append (fun h => hd (List.mem_cons_of_mem _ h)) (fun b h => ht b (List.mem_cons_of_mem _ h)),
        List.append_assoc, List.singleton_append]

/-- What ends a chunk of the path or of the query: no letter, no digit and no percent sign. -/
structure Separators (delimiter : UInt8) (terminator : Option UInt8) : Prop where
  notMem : ∀ segment, delimiter ∉ renderSegment segment
  ne : ∀ segment, ∀ b ∈ renderSegment segment, some b ≠ terminator
  differ : some delimiter ≠ terminator

theorem urlParseChunks_segment {delimiter : UInt8} {terminator : Option UInt8} (hs : Separators delimiter terminator)
    (skip : Bool) (segment : CString) (rest : List UInt8) (chunks : List CString) :
    urlParseChunks delimiter terminator skip true [] (renderSegment segment ++ rest) chunks =
      urlParseChunks delimiter terminator skip true (renderSegment segment) rest chunks :=
  urlParseChunks_append (hs.notMem segment) (hs.ne segment) [] rest chunks

/-- The end of the chunks: there is nothing left, or the terminator comes. -/
theorem urlParseChunks_end {delimiter : UInt8} {terminator : Option UInt8} (hs : Separators delimiter terminator)
    {skip : Bool} {segment : CString} (hskip : skip = true → renderSegment segment ≠ []) {rest : List UInt8}
    (hrest : ∀ b ∈ rest.head?, some b = terminator) (chunks : List CString) :
    urlParseChunks delimiter terminator skip true (renderSegment segment) rest chunks =
      some (chunks ++ [segment], rest) := by
  have hkeep : ¬(skip && (renderSegment segment).isEmpty) = true := by
    intro h
    obtain ⟨h1, h2⟩ := Bool.and_eq_true_iff.mp h
    exact hskip h1 (List.isEmpty_iff.mp h2)
  cases rest with
  | nil =>
      rw [urlParseChunks, if_neg hkeep, appendChunk_renderSegment]
      rfl
  | cons b rest =>
      have hb := hrest b rfl
      have hd : b ≠ delimiter := fun h => hs.differ (h ▸ hb)
      rw [urlParseChunks, if_neg hd, if_pos hb, if_neg hkeep, appendChunk_renderSegment]
      rfl

theorem urlParseChunks_segments {delimiter : UInt8} {terminator : Option UInt8} (hs : Separators delimiter terminator)
    {skip : Bool} {rest : List UInt8} (hrest : ∀ b ∈ rest.head?, some b = terminator) :
    ∀ (segments : List CString) (_ : segments ≠ [])
      (_ : skip = true → ∀ segment ∈ segments.getLast?, renderSegment segment ≠ []) (chunks : List CString),
      urlParseChunks delimiter terminator skip true [] ([delimiter].intercalate (segments.map renderSegment) ++ rest) chunks =
        some (chunks ++ segments, rest)
  | [], hne, _, _ => absurd rfl hne
  | [segment], _, hlast, chunks => by
      show urlParseChunks _ _ _ _ _ ([delimiter].intercalate [renderSegment segment] ++ rest) _ = _
      rw [List.intercalate_singleton, urlParseChunks_segment hs]
      exact urlParseChunks_end hs (fun h => hlast h segment rfl) hrest chunks
  | segment :: next :: segments, _, hlast, chunks => by
      have ih := urlParseChunks_segments hs hrest (next :: segments) (List.cons_ne_nil _ _)
        (fun h s hmem => hlast h s (by rw [List.getLast?_cons_cons]; exact hmem)) (chunks ++ [segment])
      rw [List.map_cons, List.map_cons, List.intercalate_cons_cons, List.append_assoc, List.append_assoc,
        urlParseChunks_segment hs, List.singleton_append, urlParseChunks, if_pos rfl, appendChunk_renderSegment]
      rw [List.map_cons] at ih
      dsimp only
      rw [ih, List.append_assoc, List.singleton_append]

theorem separators_path : Separators 47 (some 63) where
  notMem := renderSegment_ne (by decide) (by decide)
  ne := by
    intro segment b hb h
    rw [Option.some.injEq] at h
    rw [h] at hb
    exact renderSegment_ne (by decide) (by decide) segment hb
  differ := by decide

theorem separators_query : Separators 38 none where
  notMem := renderSegment_ne (by decide) (by decide)
  ne := fun _ _ _ h => nomatch h
  differ := nofun

theorem isValidUrlPart_segments {delimiter : UInt8} (hd : isValidUrlPathChar delimiter = true) :
    ∀ (segments : List CString) (rest : List UInt8),
      isValidUrlPart isValidUrlPathChar ([delimiter].intercalate (segments.map renderSegment) ++ rest) =
        isValidUrlPart isValidUrlPathChar rest
  | [], _ => rfl
  | [segment], rest => by
      rw [List.map_cons, List.map_nil, List.intercalate_singleton, isValidUrlPart_renderSegment]
  | segment :: next :: segments, rest => by
      have ih := isValidUrlPart_segments hd (next :: segments) rest
      rw [List.map_cons] at ih
      rw [List.map_cons, List.map_cons, List.intercalate_cons_cons, List.append_assoc, List.append_assoc,
        isValidUrlPart_renderSegment, List.singleton_append, isValidUrlPart.eq_def]
      exact (if_pos hd).trans ih

theorem isValidUrlPart_render (path query : List CString) :
    isValidUrlPart isValidUrlPathChar (47 :: renderPathAndQuery path query) = true := by
  have hslash : isValidUrlPathChar 47 = true := by decide
  rw [isValidUrlPart.eq_def]
  dsimp only
  rw [if_pos hslash, renderPathAndQuery, isValidUrlPart_segments hslash]
  split
  · rfl
  · have hquery := isValidUrlPart_segments (show isValidUrlPathChar 38 = true by decide) query []
    rw [List.append_nil] at hquery
    rw [isValidUrlPart.eq_def]
    exact (if_pos (by decide)).trans (hquery.trans rfl)

/-- The path of the URL: nothing, or the segments. -/
theorem urlParseChunks_path (path : List CString) (hlast : ∀ segment ∈ path.getLast?, segment.bytes ≠ [])
    {rest : List UInt8} (hrest : ∀ b ∈ rest.head?, some b = some 63) :
    urlParseChunks 47 (some 63) true true [] ([47].intercalate (path.map renderSegment) ++ rest) [] = some (path, rest) := by
  by_cases hnil : path = []
  · rw [hnil]
    cases rest with
    | nil => rfl
    | cons b rest =>
        obtain rfl := Option.some.inj (hrest b rfl)
        rfl
  · refine urlParseChunks_segments separators_path hrest path hnil (fun _ segment hmem hempty => ?_) []
    have h := urlPercentDecode_render segment.bytes
    rw [← renderSegment, hempty] at h
    exact hlast segment hmem (Option.some.inj h).symm

/-- **Segments that are written into a URL are read back**, as long as the path does not end in an empty one. -/
theorem urlParsePathAndQuery_rendered (path query : List CString) (hlast : ∀ segment ∈ path.getLast?, segment.bytes ≠ [])
    {s : CString} (hs : s.bytes = 47 :: renderPathAndQuery path query) :
    urlParsePathAndQuery true (some s) = some (path, query) := by
  unfold urlParsePathAndQuery
  dsimp only
  rw [hs, if_pos (isValidUrlPart_render path query), List.head?_cons, if_pos rfl, List.tail_cons]
  unfold parseSegments renderPathAndQuery
  have hend : ∀ terminator : Option UInt8, ∀ b ∈ ([] : List UInt8).head?, some b = terminator := fun _ => nofun
  by_cases hquery : query = []
  · rw [if_pos hquery, urlParseChunks_path path hlast (hend _), hquery]
  · have hmark : ∀ b ∈ (63 :: [38].intercalate (query.map renderSegment)).head?, some b = some 63 :=
      fun b h => h.symm
    have hskip : false = true → ∀ segment ∈ query.getLast?, renderSegment segment ≠ [] := nofun
    have h := urlParseChunks_segments separators_query (hend none) query hquery hskip []
    rw [List.append_nil] at h
    rw [if_neg hquery, urlParseChunks_path path hlast hmark]
    dsimp only
    rw [h]
    rfl

end Anjay.Servers
