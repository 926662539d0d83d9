/-
  File:      Anjay/Request/Uri.lean
  Subject:   The target in the Uri-Path options of a request (`anjay_core.c`).

  * `Denotes`: the sequences that denote a target, for a given notation of ids.
  * `parseRequestUri_iff`: accepted are those with ids in the notation of the C language.
  * `parseRequestUri_meets_iff`: when these are the ones with plain decimal ids.
-/
import Anjay.Dm.Path
import Anjay.Request.Options

namespace Anjay.Request

open Lib Text

/-! ## 1. The code -/

/-- `parse_request_uri_segment`. -/
def parseRequestUriSegment (uri : List UInt8) : Option Id :=
  match safeStrtoll uri with
  | none => none
  | some num => if num < 0 ∨ 65535 ≤ num then none else some (Fin.ofNat 65536 num.toNat)

/-- `bs`. -/
def bsUri : List UInt8 := [0x62, 0x73]

/-- `parse_bs_uri`; `size` is `ANJAY_MAX_URI_SEGMENT_SIZE`, and there is no result where an error is returned. -/
def parseBsUri (size : Nat) (opts : List CoapOption) : Option Bool :=
  match optionsGetStringIt optionUriPath (size - 1) opts with
  | .missing => some false
  | .failed => none
  | .text buffer it =>
      if cString buffer = bsUri then
        match optionsGetStringIt optionUriPath (size - 1) it with
        | .missing => some true
        | .failed => none
        | .text _ _ => some false
      else some false

/-- The loop of `parse_dm_uri`. -/
def parseDmUriLoop (size : Nat) (it : List CoapOption) (segmentIndex : Nat) (expectNoMoreOptions : Bool)
    (outUri : UriPath) : Option UriPath :=
  match h : optionsGetStringIt optionUriPath (size - 1) it with
  | .missing => some outUri
  | .failed => none
  | .text buffer rest =>
      have : rest.length < it.length := optionsGetStringIt_length h
      if segmentIndex = 0 ∧ cString buffer = [] then parseDmUriLoop size rest (segmentIndex + 1) true outUri
      else if expectNoMoreOptions = true ∨ cString buffer = [] then none
      else
        match IdType.all[segmentIndex]? with
        | none => none
        | some type =>
            match parseRequestUriSegment (cString buffer) with
            | none => none
            | some id => parseDmUriLoop size rest (segmentIndex + 1) expectNoMoreOptions (outUri.setId type id)
termination_by it.length

/-- `parse_dm_uri`. -/
def parseDmUri (size : Nat) (opts : List CoapOption) : Option UriPath := parseDmUriLoop size opts 0 false .root

/-- `parse_request_uri`: whether it is the Bootstrap URI, and the path. -/
def parseRequestUri (size : Nat) (opts : List CoapOption) : Option (Bool × UriPath) :=
  match parseBsUri size opts with
  | none => none
  | some true => some (true, .root)
  | some false =>
      match parseDmUri size opts with
      | none => none
      | some uri => some (false, uri)

/-! ## 2. What the segments denote -/

/-- The path of the given ids. -/
def pathOf (ids : List Id) : UriPath :=
  ⟨ids[0]?.getD idInvalid, ids[1]?.getD idInvalid, ids[2]?.getD idInvalid, ids[3]?.getD idInvalid⟩

/-- The targets that sequences of segments denote, where `idText` says which texts denote an id. -/
inductive Denotes (idText : List UInt8 → Id → Prop) : List (List UInt8) → Bool × UriPath → Prop
  | root : Denotes idText [] (false, .root)
  | emptySegment : Denotes idText [[]] (false, .root)
  | bs : Denotes idText [bsUri] (true, .root)
  | path {segments : List (List UInt8)} {ids : List Id} (hids : List.Forall₂ idText segments ids) (hne : ids ≠ [])
      (hlen : ids.length ≤ 4) : Denotes idText segments (false, pathOf ids)

/-- The plain decimal representation of an id from 0 to 65534. -/
def PlainId (text : List UInt8) (id : Id) : Prop := text = decimal id.val ∧ id ≠ idInvalid

/-- A text that denotes such an id in the notation of the C language. -/
def LaxId (text : List UInt8) (id : Id) : Prop := IntegerText text id.val ∧ id ≠ idInvalid

/-- **What parsing should give.** -/
def UriMeets (segments : List (List UInt8)) (result : Option (Bool × UriPath)) : Prop :=
  ∀ target, result = some target ↔ Denotes PlainId segments target

/-- No sign, and no zero in front of anything. -/
def PlainNotation (text : List UInt8) : Prop :=
  ∀ c cs, text = c :: cs → c ≠ 0x2B ∧ c ≠ 0x2D ∧ (c = 0x30 → cs = [])

/-- Where the code gives it: if the segments denote a target, they fit into the buffer; if they fit, and what is in
    front of their NULs denotes a target in the notation of the C language, they have no NULs, signs, prefixes and
    superfluous zeros. -/
structure UriHarmless (size : Nat) (segments : List (List UInt8)) : Prop where
  fits : ∀ target, Denotes PlainId segments target → ∀ s ∈ segments, s.length + 1 ≤ size - 1
  noNul : ∀ target, Denotes LaxId (segments.map cString) target → (∀ s ∈ segments, s.length + 1 ≤ size - 1) →
    ∀ s ∈ segments, 0 ∉ s
  plain : ∀ target, Denotes LaxId (segments.map cString) target → (∀ s ∈ segments, s.length + 1 ≤ size - 1) →
    ∀ s ∈ segments, PlainNotation (cString s)

/-! ## 3. One segment -/

/-- **Accepted is the notation of the C language.** -/
theorem parseRequestUriSegment_iff (uri : List UInt8) (id : Id) :
    parseRequestUriSegment uri = some id ↔ LaxId uri id := by
  have hllong : ∀ i : Id, llongMin ≤ (i.val : Int) ∧ (i.val : Int) ≤ llongMax := by
    intro i
    have hlt := i.isLt
    unfold llongMin llongMax
    omega
  unfold parseRequestUriSegment
  constructor
  · intro h
    cases hnum : safeStrtoll uri with
    | none =>
        rw [hnum] at h
        cases h
    | some num =>
        rw [hnum] at h
        dsimp only at h
        split at h
        · cases h
        next hrange =>
        obtain ⟨hmin, hmax⟩ := not_or.mp hrange
        obtain rfl := Option.some.inj h
        have hval : (Fin.ofNat 65536 num.toNat : Id).val = num.toNat := Nat.mod_eq_of_lt (by omega)
        have htext := ((safeStrtoll_iff uri num).mp hnum).1
        refine ⟨?_, fun hinvalid => ?_⟩
        · rw [hval, Int.toNat_of_nonneg (Int.not_lt.mp hmin)]
          exact htext
        · have hv : num.toNat = 65535 := hval.symm.trans (congrArg Fin.val hinvalid)
          omega
  · rintro ⟨htext, hvalid⟩
    have hlt : id.val < 65535 := by
      have hne : id.val ≠ 65535 := fun h => hvalid (Fin.ext h)
      have := id.isLt
      omega
    rw [(safeStrtoll_iff uri id.val).mpr ⟨htext, hllong id⟩]
    dsimp only
    rw [if_neg (by omega)]
    refine congrArg some (Fin.ext ?_)
    exact Nat.mod_eq_of_lt id.isLt

theorem LaxId.ne_nil {text : List UInt8} {id : Id} (h : LaxId text id) : text ≠ [] := by
  rintro rfl
  obtain ⟨htext, -⟩ := h
  generalize (id.val : Int) = n at htext
  cases htext with
  | plain hnatural =>
      obtain ⟨c, cs, hcs, -⟩ := hnatural.head
      cases hcs

theorem LaxId.ne_bs {id : Id} : ¬LaxId bsUri id := by
  intro h
  have hparse := (parseRequestUriSegment_iff bsUri id).mpr h
  cases hparse

/-! ## 4. All segments -/

theorem parseDmUriLoop_nil {size : Nat} {it : List CoapOption} (h : optionValues optionUriPath it = [])
    (k : Nat) (expect : Bool) (uri : UriPath) : parseDmUriLoop size it k expect uri = some uri := by
  have hnext : optionsGetStringIt optionUriPath (size - 1) it = .missing := optionsGetStringIt_missing h
  rw [parseDmUriLoop.eq_def]
  split
  · rfl
  · next heq =>
    rw [hnext] at heq
    cases heq
  · next heq =>
    rw [hnext] at heq
    cases heq

theorem parseDmUriLoop_failed {size : Nat} {it : List CoapOption} {s : List UInt8} {segments : List (List UInt8)}
    (h : optionValues optionUriPath it = s :: segments) (hsize : ¬s.length + 1 ≤ size - 1)
    (k : Nat) (expect : Bool) (uri : UriPath) : parseDmUriLoop size it k expect uri = none := by
  have hnext := optionsGetStringIt_failed h (Nat.not_le.mp hsize)
  rw [parseDmUriLoop.eq_def]
  split
  · next heq =>
    rw [hnext] at heq
    cases heq
  · rfl
  · next heq =>
    rw [hnext] at heq
    cases heq

theorem parseDmUriLoop_cons {size : Nat} {it : List CoapOption} {s : List UInt8} {segments : List (List UInt8)}
    (h : optionValues optionUriPath it = s :: segments) (hsize : s.length + 1 ≤ size - 1) :
    ∃ rest, optionValues optionUriPath rest = segments ∧ ∀ (k : Nat) (expect : Bool) (uri : UriPath),
      parseDmUriLoop size it k expect uri =
        if k = 0 ∧ cString s = [] then parseDmUriLoop size rest (k + 1) true uri
        else if expect = true ∨ cString s = [] then none
        else
          match IdType.all[k]? with
          | none => none
          | some type =>
              (parseRequestUriSegment (cString s)).bind fun id =>
                parseDmUriLoop size rest (k + 1) expect (uri.setId type id) := by
  obtain ⟨rest, hnext, hrest⟩ := optionsGetStringIt_text h (Nat.not_lt.mpr hsize)
  refine ⟨rest, hrest, fun k expect uri => ?_⟩
  rw [parseDmUriLoop.eq_def]
  split
  · next heq =>
    rw [hnext] at heq
    cases heq
  · next heq =>
    rw [hnext] at heq
    cases heq
  · next heq =>
    rw [hnext] at heq
    cases heq
    dsimp only
    cases IdType.all[k]? with
    | none => rfl
    | some type => cases parseRequestUriSegment (cString s) <;> rfl

/-- Behind an empty first segment nothing is accepted. -/
theorem parseDmUriLoop_expect {size : Nat} {it : List CoapOption} {k : Nat} (hk : k ≠ 0) (uri uri' : UriPath) :
    parseDmUriLoop size it k true uri = some uri' ↔ optionValues optionUriPath it = [] ∧ uri' = uri := by
  cases hsegments : optionValues optionUriPath it with
  | nil =>
      rw [parseDmUriLoop_nil hsegments]
      exact ⟨fun h => ⟨rfl, (Option.some.inj h).symm⟩, fun h => congrArg some h.2.symm⟩
  | cons s segments =>
      refine ⟨fun h => ?_, fun h => absurd h.1 (List.cons_ne_nil _ _)⟩
      by_cases hsize : s.length + 1 ≤ size - 1
      · obtain ⟨rest, -, hstep⟩ := parseDmUriLoop_cons hsegments hsize
        rw [hstep, if_neg fun h => hk h.1, if_pos (Or.inl rfl)] at h
        cases h
      · rw [parseDmUriLoop_failed hsegments hsize] at h
        cases h

/-- The ids put into a path, from an index on. -/
def setFrom : Nat → UriPath → List Id → UriPath
  | _, uri, [] => uri
  | k, uri, id :: ids =>
      match IdType.all[k]? with
      | none => uri
      | some type => setFrom (k + 1) (uri.setId type id) ids

theorem setFrom_root : ∀ ids : List Id, ids.length ≤ 4 → setFrom 0 .root ids = pathOf ids
  | [], _ => rfl
  | [_], _ => rfl
  | [_, _], _ => rfl
  | [_, _, _], _ => rfl
  | [_, _, _, _], _ => rfl
  | _ :: _ :: _ :: _ :: _ :: _, h => absurd h (by simp)

/-- **What the loop accepts, if the first segment is not empty.** -/
theorem parseDmUriLoop_iff {size : Nat} {uri' : UriPath} : ∀ (segments : List (List UInt8)) (it : List CoapOption)
    (k : Nat) (uri : UriPath), optionValues optionUriPath it = segments → k ≤ 4 →
    (∀ s ∈ segments.head?, k = 0 → cString s ≠ []) →
    (parseDmUriLoop size it k false uri = some uri' ↔ (∀ s ∈ segments, s.length + 1 ≤ size - 1) ∧
      ∃ ids, List.Forall₂ LaxId (segments.map cString) ids ∧ k + ids.length ≤ 4 ∧ uri' = setFrom k uri ids)
  | [], it, k, uri, hsegments, hk, _ => by
      rw [parseDmUriLoop_nil hsegments]
      constructor
      · intro h
        exact ⟨List.forall_mem_nil _, [], List.Forall₂.nil, hk, (Option.some.inj h).symm⟩
      · rintro ⟨-, ids, hids, -, rfl⟩
        cases hids
        rfl
  | s :: segments, it, k, uri, hsegments, hk, hfirst => by
      have hempty : ¬(k = 0 ∧ cString s = []) := fun h => hfirst s rfl h.1 h.2
      constructor
      · intro h
        by_cases hsize : s.length + 1 ≤ size - 1
        swap
        · rw [parseDmUriLoop_failed hsegments hsize] at h
          cases h
        obtain ⟨rest, hrest, hstep⟩ := parseDmUriLoop_cons hsegments hsize
        rw [hstep, if_neg hempty] at h
        split at h
        · cases h
        cases htype : IdType.all[k]? with
        | none =>
            rw [htype] at h
            cases h
        | some type =>
            rw [htype] at h
            obtain ⟨id, hid, hloop⟩ := Option.bind_eq_some_iff.mp h
            have hk4 : k < 4 := (List.getElem?_eq_some_iff.mp htype).1
            obtain ⟨hfits, ids, hids, hlen, rfl⟩ :=
              (parseDmUriLoop_iff segments rest (k + 1) _ hrest hk4 fun _ _ h0 =>
                absurd h0 (Nat.succ_ne_zero k)).mp hloop
            refine ⟨List.forall_mem_cons.mpr ⟨hsize, hfits⟩, id :: ids, ?_, ?_, ?_⟩
            · exact List.Forall₂.cons ((parseRequestUriSegment_iff _ _).mp hid) hids
            · rw [List.length_cons]
              omega
            · rw [setFrom, htype]
      · rintro ⟨hfits, ids, hids, hlen, rfl⟩
        obtain ⟨hsize, hfits⟩ := List.forall_mem_cons.mp hfits
        obtain ⟨rest, hrest, hstep⟩ := parseDmUriLoop_cons hsegments hsize
        rw [List.map_cons] at hids
        cases hids with
        | @cons _ id _ ids hid hids =>
            rw [List.length_cons] at hlen
            obtain ⟨type, htype⟩ : ∃ type, IdType.all[k]? = some type :=
              ⟨_, List.getElem?_eq_getElem (show k < IdType.all.length by show k < 4; omega)⟩
            rw [hstep, if_neg hempty, if_neg (not_or.mpr ⟨Bool.false_ne_true, hid.ne_nil⟩), htype]
            dsimp only
            rw [(parseRequestUriSegment_iff _ _).mpr hid]
            refine (parseDmUriLoop_iff segments rest (k + 1) _ hrest (by omega)
              fun _ _ h0 => absurd h0 (Nat.succ_ne_zero k)).mpr ⟨hfits, ids, hids, by omega, ?_⟩
            rw [setFrom, htype]

theorem parseDmUri_iff (size : Nat) (opts : List CoapOption) (uri : UriPath) :
    parseDmUri size opts = some uri ↔ (∀ s ∈ optionValues optionUriPath opts, s.length + 1 ≤ size - 1) ∧
      (((optionValues optionUriPath opts).map cString = [[]] ∧ uri = .root) ∨
        ∃ ids, List.Forall₂ LaxId ((optionValues optionUriPath opts).map cString) ids ∧ ids.length ≤ 4 ∧
          uri = setFrom 0 .root ids) := by
  unfold parseDmUri
  cases hsegments : optionValues optionUriPath opts with
  | nil =>
      rw [parseDmUriLoop_iff [] opts 0 .root hsegments (by decide) fun s hs => (nomatch hs)]
      refine and_congr_right fun _ => ?_
      simp only [Nat.zero_add]
      exact ⟨Or.inr, fun h => h.elim (fun h => absurd h.1 (by simp)) id⟩
  | cons s segments =>
      by_cases hs : cString s = []
      swap
      · rw [parseDmUriLoop_iff (s :: segments) opts 0 .root hsegments (by decide) fun s' hs' _ => by
          rwa [← Option.some.inj hs']]
        refine and_congr_right fun _ => ?_
        simp only [Nat.zero_add]
        refine ⟨Or.inr, fun h => h.elim (fun h => absurd h.1 ?_) id⟩
        rw [List.map_cons]
        exact fun h => hs (List.cons.inj h).1
      have hlax : ∀ ids, ¬List.Forall₂ LaxId ((s :: segments).map cString) ids := by
        intro ids h
        rw [List.map_cons, hs] at h
        cases h with
        | cons hid _ => exact hid.ne_nil rfl
      constructor
      · intro h
        by_cases hsize : s.length + 1 ≤ size - 1
        swap
        · rw [parseDmUriLoop_failed hsegments hsize] at h
          cases h
        obtain ⟨rest, hrest, hstep⟩ := parseDmUriLoop_cons hsegments hsize
        rw [hstep, if_pos ⟨rfl, hs⟩, parseDmUriLoop_expect (Nat.succ_ne_zero 0), hrest] at h
        obtain ⟨rfl, rfl⟩ := h
        refine ⟨List.forall_mem_singleton.mpr hsize, Or.inl ⟨?_, rfl⟩⟩
        rw [List.map_singleton, hs]
      · rintro ⟨hfits, ⟨hmap, rfl⟩ | ⟨ids, hids, -⟩⟩
        · obtain ⟨hsize, -⟩ := List.forall_mem_cons.mp hfits
          obtain ⟨rest, hrest, hstep⟩ := parseDmUriLoop_cons hsegments hsize
          rw [hstep, if_pos ⟨rfl, hs⟩, parseDmUriLoop_expect (Nat.succ_ne_zero 0), hrest]
          rw [List.map_cons] at hmap
          exact ⟨List.map_eq_nil_iff.mp (List.cons.inj hmap).2, rfl⟩
        · exact absurd hids (hlax ids)

theorem parseBsUri_nil {size : Nat} {opts : List CoapOption} (h : optionValues optionUriPath opts = []) :
    parseBsUri size opts = some false := by
  unfold parseBsUri
  rw [optionsGetStringIt_missing h]

theorem parseBsUri_failed {size : Nat} {opts : List CoapOption} {s : List UInt8} {segments : List (List UInt8)}
    (h : optionValues optionUriPath opts = s :: segments) (hsize : ¬s.length + 1 ≤ size - 1) :
    parseBsUri size opts = none := by
  unfold parseBsUri
  rw [optionsGetStringIt_failed h (Nat.not_le.mp hsize)]

theorem parseBsUri_other {size : Nat} {opts : List CoapOption} {s : List UInt8} {segments : List (List UInt8)}
    (h : optionValues optionUriPath opts = s :: segments) (hsize : s.length + 1 ≤ size - 1) (hs : cString s ≠ bsUri) :
    parseBsUri size opts = some false := by
  obtain ⟨rest, hnext, -⟩ := optionsGetStringIt_text h (Nat.not_lt.mpr hsize)
  unfold parseBsUri
  rw [hnext]
  exact if_neg hs

/-- With `bs` in front, a second option decides. -/
theorem parseBsUri_bs {size : Nat} {opts : List CoapOption} {s : List UInt8} {segments : List (List UInt8)}
    (h : optionValues optionUriPath opts = s :: segments) (hsize : s.length + 1 ≤ size - 1) (hs : cString s = bsUri) :
    (segments = [] ∧ parseBsUri size opts = some true) ∨
      segments ≠ [] ∧ (parseBsUri size opts = none ∨ parseBsUri size opts = some false) := by
  obtain ⟨rest, hnext, hrest⟩ := optionsGetStringIt_text h (Nat.not_lt.mpr hsize)
  unfold parseBsUri
  rw [hnext]
  dsimp only
  rw [if_pos hs]
  cases segments with
  | nil =>
      rw [optionsGetStringIt_missing hrest]
      exact Or.inl ⟨rfl, rfl⟩
  | cons s' segments =>
      refine Or.inr ⟨List.cons_ne_nil _ _, ?_⟩
      by_cases hsize' : s'.length + 1 ≤ size - 1
      · obtain ⟨rest', hnext', -⟩ := optionsGetStringIt_text hrest (Nat.not_lt.mpr hsize')
        rw [hnext']
        exact Or.inr rfl
      · rw [optionsGetStringIt_failed hrest (Nat.not_le.mp hsize')]
        exact Or.inl rfl

theorem Denotes.cons_cons {idText : List UInt8 → Id → Prop} {s s' : List UInt8} {segments : List (List UInt8)}
    {target : Bool × UriPath} (h : Denotes idText (s :: s' :: segments) target) : ∃ id, idText s id := by
  cases h with
  | path hids => cases hids with
    | cons hid _ => exact ⟨_, hid⟩

/-- **Accepted are the sequences with ids in the notation of the C language.** -/
theorem parseRequestUri_iff (size : Nat) (opts : List CoapOption) (target : Bool × UriPath) :
    parseRequestUri size opts = some target ↔
      (∀ s ∈ optionValues optionUriPath opts, s.length + 1 ≤ size - 1) ∧
        Denotes LaxId ((optionValues optionUriPath opts).map cString) target := by
  have hdm := parseDmUri_iff size opts
  -- what follows when the sequence is not taken for the Bootstrap URI
  have hpath : parseBsUri size opts = some false → (optionValues optionUriPath opts).map cString ≠ [bsUri] →
      (parseRequestUri size opts = some target ↔
        (∀ s ∈ optionValues optionUriPath opts, s.length + 1 ≤ size - 1) ∧
          Denotes LaxId ((optionValues optionUriPath opts).map cString) target) := by
    intro hbs hother
    have hresult : parseRequestUri size opts = (parseDmUri size opts).map fun uri => (false, uri) := by
      unfold parseRequestUri
      rw [hbs]
      dsimp only
      cases parseDmUri size opts <;> rfl
    rw [hresult, Option.map_eq_some_iff]
    constructor
    · rintro ⟨uri, huri, rfl⟩
      obtain ⟨hfits, ⟨hempty, rfl⟩ | ⟨ids, hids, hlen, rfl⟩⟩ := (hdm uri).mp huri
      · rw [hempty]
        exact ⟨hfits, Denotes.emptySegment⟩
      · refine ⟨hfits, ?_⟩
        cases hids' : ids with
        | nil =>
            rw [hids'] at hids
            rw [List.forall₂_nil_right_iff.mp hids]
            exact Denotes.root
        | cons id ids' =>
            rw [← hids', setFrom_root ids hlen]
            exact Denotes.path hids (by rw [hids']; exact List.cons_ne_nil _ _) hlen
    · rintro ⟨hfits, h⟩
      generalize hmap : (optionValues optionUriPath opts).map cString = segments at h hother hdm
      cases h with
      | root => exact ⟨_, (hdm .root).mpr ⟨hfits, Or.inr ⟨[], List.Forall₂.nil, by decide, rfl⟩⟩, rfl⟩
      | emptySegment => exact ⟨_, (hdm .root).mpr ⟨hfits, Or.inl ⟨rfl, rfl⟩⟩, rfl⟩
      | bs => exact absurd rfl hother
      | @path _ ids hids hne hlen =>
          exact ⟨_, (hdm (pathOf ids)).mpr ⟨hfits, Or.inr ⟨ids, hids, hlen, (setFrom_root ids hlen).symm⟩⟩, rfl⟩
  cases hsegments : optionValues optionUriPath opts with
  | nil =>
      rw [← hsegments]
      refine hpath (parseBsUri_nil hsegments) ?_
      rw [hsegments]
      exact fun h => (nomatch h)
  | cons s segments =>
      rw [← hsegments]
      by_cases hsize : s.length + 1 ≤ size - 1
      swap
      · constructor
        · intro h
          unfold parseRequestUri at h
          rw [parseBsUri_failed hsegments hsize] at h
          cases h
        · rintro ⟨hfits, -⟩
          rw [hsegments] at hfits
          exact absurd (hfits s List.mem_cons_self) hsize
      by_cases hs : cString s = bsUri
      swap
      · refine hpath (parseBsUri_other hsegments hsize hs) ?_
        rw [hsegments, List.map_cons]
        exact fun h => hs (List.cons.inj h).1
      rcases parseBsUri_bs hsegments hsize hs with ⟨rfl, hbs⟩ | ⟨hne, hbs | hbs⟩
      · have hresult : parseRequestUri size opts = some (true, .root) := by
          unfold parseRequestUri
          rw [hbs]
        rw [hresult, hsegments, List.map_singleton, hs]
        constructor
        · intro h
          rw [← Option.some.inj h]
          exact ⟨List.forall_mem_singleton.mpr hsize, Denotes.bs⟩
        · rintro ⟨-, h⟩
          generalize hb : [bsUri] = segments at h
          cases h with
          | root => cases hb
          | emptySegment => exact absurd hb (by decide)
          | bs => rfl
          | path hids =>
              rw [← hb] at hids
              cases hids with
              | cons hid _ => exact absurd hid LaxId.ne_bs
      · constructor
        · intro h
          unfold parseRequestUri at h
          rw [hbs] at h
          cases h
        · rintro ⟨-, h⟩
          obtain ⟨s', segments', rfl⟩ := List.exists_cons_of_ne_nil hne
          rw [hsegments, List.map_cons, List.map_cons, hs] at h
          obtain ⟨id, hid⟩ := h.cons_cons
          exact absurd hid LaxId.ne_bs
      · refine hpath hbs ?_
        obtain ⟨s', segments', rfl⟩ := List.exists_cons_of_ne_nil hne
        rw [hsegments, List.map_cons, List.map_cons]
        exact fun h => (nomatch (List.cons.inj h).2)

/-! ## 5. Plain and lax ids -/

theorem PlainId.lax {text : List UInt8} {id : Id} (h : PlainId text id) : LaxId text id := by
  obtain ⟨rfl, hvalid⟩ := h
  exact ⟨IntegerText.plain (naturalText_decimal id.val), hvalid⟩

theorem PlainId.plain {text : List UInt8} {id : Id} (h : PlainId text id) : PlainNotation text := by
  obtain ⟨rfl, -⟩ := h
  intro c cs hcs
  have hdigit : isDigitOf 10 c = true := isDigitOf_of_mem_decimal (hcs ▸ List.mem_cons_self)
  obtain ⟨-, hminus, hplus, -⟩ := digit_plain (isDigitOf_mono (by decide) hdigit)
  refine ⟨hplus, hminus, fun hzero => ?_⟩
  by_cases hid : id.val = 0
  · rw [hid] at hcs
    exact (List.cons.inj hcs).2.symm
  · obtain ⟨d, ds, hd, hd0, hds⟩ := decimal_eq_cons hid
    have hcd : digitByte d = 0x30 := ((List.cons.inj (hds.symm.trans hcs)).1).trans hzero
    exact absurd (Option.some.inj (by rw [← digitValue_digitByte hd, hcd]; rfl)) hd0

theorem PlainId.noNul {text : List UInt8} {id : Id} (h : PlainId text id) : 0 ∉ text := h.lax.1.noNul

/-- **A text in the notation of the C language without sign, prefix and superfluous zero is plain.** -/
theorem LaxId.plain {text : List UInt8} {id : Id} (h : LaxId text id) (hplain : PlainNotation text) :
    PlainId text id := by
  obtain ⟨htext, hvalid⟩ := h
  refine ⟨?_, hvalid⟩
  generalize hn : (id.val : Int) = n at htext
  cases htext with
  | @plain _ m hnatural =>
      obtain ⟨c, cs, rfl, -⟩ := hnatural.head
      rw [hnatural.eq_decimal (hplain c cs rfl).2.2, Int.ofNat_inj.mp hn]
  | plus hnatural => exact absurd rfl (hplain _ _ rfl).1
  | minus hnatural => exact absurd rfl (hplain _ _ rfl).2.1

theorem Denotes.imp {idText idText' : List UInt8 → Id → Prop} {segments : List (List UInt8)} {target : Bool × UriPath}
    (h : Denotes idText segments target) (himp : ∀ s ∈ segments, ∀ id, idText s id → idText' s id) :
    Denotes idText' segments target := by
  cases h with
  | root => exact Denotes.root
  | emptySegment => exact Denotes.emptySegment
  | bs => exact Denotes.bs
  | path hids hne hlen => exact Denotes.path (forall₂_imp_mem hids himp) hne hlen

theorem Denotes.noNul {segments : List (List UInt8)} {target : Bool × UriPath} (h : Denotes PlainId segments target) :
    ∀ s ∈ segments, 0 ∉ s := by
  cases h with
  | root => exact List.forall_mem_nil _
  | emptySegment => exact List.forall_mem_singleton.mpr List.not_mem_nil
  | bs => exact List.forall_mem_singleton.mpr (by decide)
  | path hids =>
      intro s hs
      obtain ⟨id, -, hid⟩ := forall₂_left hids s hs
      exact hid.noNul

theorem Denotes.plain {segments : List (List UInt8)} {target : Bool × UriPath} (h : Denotes PlainId segments target) :
    ∀ s ∈ segments, PlainNotation s := by
  cases h with
  | root => exact List.forall_mem_nil _
  | emptySegment => exact List.forall_mem_singleton.mpr fun c cs hcs => (nomatch hcs)
  | bs =>
      refine List.forall_mem_singleton.mpr fun c cs hcs => ?_
      obtain ⟨rfl, -⟩ := List.cons.inj hcs
      exact ⟨by decide, by decide, fun h => absurd h (by decide)⟩
  | path hids =>
      intro s hs
      obtain ⟨id, -, hid⟩ := forall₂_left hids s hs
      exact hid.plain

/-! ## 6. Targets -/

theorem validIds_pathOf : ∀ ids : List Id, ids.length ≤ 4 → (∀ id ∈ ids, id ≠ idInvalid) → (pathOf ids).validIds = ids
  | [], _, _ => rfl
  | [a], _, h => by
      have ha := h a (by simp)
      show (if a = idInvalid then _ else _) = _
      rw [if_neg ha]
      rfl
  | [a, b], _, h => by
      have ha := h a (by simp)
      have hb := h b (by simp)
      show (if a = idInvalid then _ else a :: (if b = idInvalid then _ else _)) = _
      rw [if_neg ha, if_neg hb]
      rfl
  | [a, b, c], _, h => by
      have ha := h a (by simp)
      have hb := h b (by simp)
      have hc := h c (by simp)
      show (if a = idInvalid then _ else a :: (if b = idInvalid then _ else b :: (if c = idInvalid then _ else _))) = _
      rw [if_neg ha, if_neg hb, if_neg hc]
      rfl
  | [a, b, c, d], _, h => by
      have ha := h a (by simp)
      have hb := h b (by simp)
      have hc := h c (by simp)
      have hd := h d (by simp)
      show (if a = idInvalid then _ else a :: (if b = idInvalid then _ else b :: (if c = idInvalid then _ else
        c :: (if d = idInvalid then _ else _)))) = _
      rw [if_neg ha, if_neg hb, if_neg hc, if_neg hd]
      rfl
  | _ :: _ :: _ :: _ :: _ :: _, h, _ => absurd h (by simp)

/-- The representations of the root. -/
def rootForms : List (List (List UInt8)) := [[], [[]]]

/-- **Two sequences that denote one target are equal, but for the two representations of the root.** -/
theorem Denotes.injective {segments segments' : List (List UInt8)} {target : Bool × UriPath}
    (h : Denotes PlainId segments target) (h' : Denotes PlainId segments' target) :
    segments = segments' ∨ segments ∈ rootForms ∧ segments' ∈ rootForms := by
  have hids : ∀ {texts : List (List UInt8)} {ids : List Id}, List.Forall₂ PlainId texts ids →
      texts = ids.map (fun id => decimal id.val) ∧ ∀ id ∈ ids, id ≠ idInvalid := by
    intro texts ids hall
    induction hall with
    | nil => exact ⟨rfl, List.forall_mem_nil _⟩
    | cons hid _ ih => exact ⟨by rw [ih.1, hid.1]; rfl, List.forall_mem_cons.mpr ⟨hid.2, ih.2⟩⟩
  have hpath : ∀ {texts : List (List UInt8)} {ids : List Id}, List.Forall₂ PlainId texts ids → ids ≠ [] →
      ids.length ≤ 4 → pathOf ids ≠ .root := by
    intro texts ids hall hne hlen heq
    have hvalid := validIds_pathOf ids hlen (hids hall).2
    rw [heq] at hvalid
    exact hne hvalid.symm
  cases h with
  | root =>
      generalize hroot : (false, UriPath.root) = t at h'
      cases h' with
      | root => exact Or.inl rfl
      | emptySegment => exact Or.inr ⟨by decide, by decide⟩
      | bs => cases hroot
      | path hall hne hlen => exact absurd (Prod.mk.inj hroot).2.symm (hpath hall hne hlen)
  | emptySegment =>
      generalize hroot : (false, UriPath.root) = t at h'
      cases h' with
      | root => exact Or.inr ⟨by decide, by decide⟩
      | emptySegment => exact Or.inl rfl
      | bs => cases hroot
      | path hall hne hlen => exact absurd (Prod.mk.inj hroot).2.symm (hpath hall hne hlen)
  | bs =>
      cases h' with
      | bs => exact Or.inl rfl
  | @path _ ids hall hne hlen =>
      generalize htarget : (false, pathOf ids) = t at h'
      cases h' with
      | root => exact absurd (Prod.mk.inj htarget).2 (hpath hall hne hlen)
      | emptySegment => exact absurd (Prod.mk.inj htarget).2 (hpath hall hne hlen)
      | bs => cases htarget
      | @path _ ids' hall' hne' hlen' =>
          refine Or.inl ?_
          have hvalid := validIds_pathOf ids hlen (hids hall).2
          rw [(Prod.mk.inj htarget).2, validIds_pathOf ids' hlen' (hids hall').2] at hvalid
          rw [(hids hall).1, (hids hall').1, hvalid]

/-! ## 7. When parsing gives what it should -/

/-- **Parsing gives what it should exactly on the sequences that are harmless**, and of these no two have one target,
    but for the root. -/
theorem parseRequestUri_meets_iff (size : Nat) (opts : List CoapOption) :
    (UriMeets (optionValues optionUriPath opts) (parseRequestUri size opts) ↔
        UriHarmless size (optionValues optionUriPath opts)) ∧
      ∀ (opts' : List CoapOption) (target : Bool × UriPath),
        UriHarmless size (optionValues optionUriPath opts) → UriHarmless size (optionValues optionUriPath opts') →
        parseRequestUri size opts = some target → parseRequestUri size opts' = some target →
        optionValues optionUriPath opts = optionValues optionUriPath opts' ∨
          optionValues optionUriPath opts ∈ rootForms ∧ optionValues optionUriPath opts' ∈ rootForms := by
  have hsound : ∀ (opts : List CoapOption) (target : Bool × UriPath),
      UriHarmless size (optionValues optionUriPath opts) → parseRequestUri size opts = some target →
      Denotes PlainId (optionValues optionUriPath opts) target := by
    intro opts target hharmless hparse
    obtain ⟨hfits, hlax⟩ := (parseRequestUri_iff size opts target).mp hparse
    have hnul := hharmless.noNul target hlax hfits
    have hplain := hharmless.plain target hlax hfits
    rw [map_cString hnul] at hlax
    refine hlax.imp fun s hs id hid => hid.plain ?_
    have hplains := hplain s hs
    rwa [cString_eq_self (hnul s hs)] at hplains
  refine ⟨⟨fun hmeets => ⟨?_, ?_, ?_⟩, fun hharmless target => ⟨hsound opts target hharmless, ?_⟩⟩, ?_⟩
  · intro target h
    exact ((parseRequestUri_iff size opts target).mp ((hmeets target).mpr h)).1
  · intro target h hfits
    exact ((hmeets target).mp ((parseRequestUri_iff size opts target).mpr ⟨hfits, h⟩)).noNul
  · intro target h hfits s hs
    have hplain := (hmeets target).mp ((parseRequestUri_iff size opts target).mpr ⟨hfits, h⟩)
    rw [cString_eq_self (hplain.noNul s hs)]
    exact hplain.plain s hs
  · intro h
    refine (parseRequestUri_iff size opts target).mpr ⟨hharmless.fits target h, ?_⟩
    rw [map_cString h.noNul]
    exact h.imp fun s _ id hid => hid.lax
  · intro opts' target hharmless hharmless' hparse hparse'
    exact (hsound opts target hharmless hparse).injective (hsound opts' target hharmless' hparse')

/-- The segments of `/3/0/13`. -/
def threeSegments : List (List UInt8) := [[0x33], [0x30], [0x31, 0x33]]

/-- The options of a request to it. -/
def threeOptions : List CoapOption := threeSegments.map (⟨optionUriPath, ·⟩)

/-- The same options between a Uri-Host and a Uri-Query. -/
def threeOfFive : List CoapOption := ⟨3, [0x61]⟩ :: threeOptions ++ [⟨15, [0x62]⟩]

theorem uriHarmless_threeSegments : UriHarmless 256 threeSegments where
  fits _ _ := by decide
  noNul _ _ _ := by decide
  plain _ _ _ s hs c cs hcs := by
    obtain rfl | rfl | rfl : s = [0x33] ∨ s = [0x30] ∨ s = [0x31, 0x33] := by simpa [threeSegments] using hs
    · obtain ⟨rfl, -⟩ := List.cons.inj (hcs : [0x33] = c :: cs)
      exact ⟨by decide, by decide, fun h => absurd h (by decide)⟩
    · obtain ⟨rfl, rfl⟩ := List.cons.inj (hcs : [0x30] = c :: cs)
      decide
    · obtain ⟨rfl, -⟩ := List.cons.inj (hcs : [0x31, 0x33] = c :: cs)
      exact ⟨by decide, by decide, fun h => absurd h (by decide)⟩

/-- `/3/0/13`, with options of another number around it. -/
theorem parseRequestUri_meets_several :
    UriMeets threeSegments (parseRequestUri 256 threeOptions) ∧
      (optionValues optionUriPath threeOptions = optionValues optionUriPath threeOfFive ∨
        optionValues optionUriPath threeOptions ∈ rootForms ∧ optionValues optionUriPath threeOfFive ∈ rootForms) :=
  ⟨(parseRequestUri_meets_iff 256 threeOptions).1.mpr uriHarmless_threeSegments,
    (parseRequestUri_meets_iff 256 threeOptions).2 threeOfFive (false, pathOf [3, 0, 13]) uriHarmless_threeSegments
      uriHarmless_threeSegments (by decide +kernel) (by decide +kernel)⟩

/-- The segment `010` is taken for the Object 8. -/
theorem parseRequestUri_not_meets :
    ¬∀ (size : Nat) (opts : List CoapOption),
      UriMeets (optionValues optionUriPath opts) (parseRequestUri size opts) := by
  intro h
  have hlax : LaxId [0x30, 0x31, 0x30] 8 := (parseRequestUriSegment_iff _ _).mp (by decide)
  have hparse : parseRequestUri 256 [⟨11, [0x30, 0x31, 0x30]⟩] = some (false, pathOf [8]) :=
    (parseRequestUri_iff 256 _ _).mpr ⟨List.forall_mem_singleton.mpr (by decide),
      Denotes.path (List.Forall₂.cons hlax List.Forall₂.nil) (List.cons_ne_nil _ _) (by decide)⟩
  have hplain := ((h 256 [⟨11, [0x30, 0x31, 0x30]⟩] _).mp hparse).plain [0x30, 0x31, 0x30] List.mem_cons_self
  exact absurd ((hplain _ _ rfl).2.2 rfl) (by decide)

end Anjay.Request
