/-
  File:      Anjay/Request/QueryParse.lean
  Subject:   Which sequences of Uri-Query options `parse_attributes` accepts, and what it stores.

  * `parseAttribute_iff`: what one option does to the attributes read so far.
  * `parseAttributesLoop_some`, `parseAttributesLoop_of_reads`: the sequences that are accepted, and what is stored.
  * `parseAttributes_meets_iff`: when these are the ones that should be.
-/
import Anjay.Request.Query

namespace Anjay.Request

open AttrStorage Dm Lib Text

/-! ## 1. Names and values -/

theorem Attribute.name_plain (a : Attribute) : ∀ c ∈ a.name, (c != 0x3D) = true := by
  have hall : a.name.all (· != 0x3D) = true := by cases a <;> rfl
  exact List.all_eq_true.mp hall

theorem Attribute.kinds (a : Attribute) : a.isPeriod = true ∨ a.isDouble = true ∨ a = .con := by
  cases a <;> decide

theorem Attribute.not_period_of_double {a : Attribute} (h : a.isDouble = true) : ¬a.isPeriod = true := by
  revert h
  cases a <;> decide

theorem Attribute.name_injective {a b : Attribute} (h : a.name = b.name) : a = b := by
  revert h
  cases a <;> cases b <;> decide

theorem splitQueryString_option (a : Attribute) (value : Option (List UInt8)) :
    splitQueryString (a.option value) = (a.name, value) := by
  unfold splitQueryString
  cases value with
  | none =>
      have hall := takeWhile_all a.name_plain
      show ((a.name.takeWhile _), (a.name.dropWhile _).tail?) = _
      rw [hall.1, hall.2]
      rfl
  | some text =>
      show (((a.name ++ 0x3D :: text).takeWhile _), ((a.name ++ 0x3D :: text).dropWhile _).tail?) = _
      rw [List.takeWhile_append_of_pos a.name_plain, List.dropWhile_append_of_pos a.name_plain,
        List.takeWhile_cons_of_neg (by decide), List.dropWhile_cons_of_neg (by decide), List.append_nil]
      rfl

theorem option_of_splitQueryString {query : List UInt8} {a : Attribute} (h : (splitQueryString query).1 = a.name) :
    query = a.option (splitQueryString query).2 := by
  unfold splitQueryString at h ⊢
  dsimp only at h ⊢
  have happend := List.takeWhile_append_dropWhile (p := (· != (0x3D : UInt8))) (l := query)
  have hhead := List.head?_dropWhile_not (· != (0x3D : UInt8)) query
  cases hdrop : query.dropWhile (· != 0x3D) with
  | nil =>
      rw [hdrop, List.append_nil, h] at happend
      exact happend.symm
  | cons c text =>
      rw [hdrop] at hhead happend
      have hc : c = 0x3D := by simpa using hhead
      rw [h, hc] at happend
      exact happend.symm

/-- The value that `parse_attribute` stores for a key and a value, if the attribute does not occur before. -/
def readValue (strtod : List UInt8 → Strtod) (a : Attribute) (value : Option (List UInt8)) : Option Stored :=
  match a with
  | .pmin | .pmax | .epmin | .epmax => (parseNullablePeriod value false).map .period
  | .gt | .lt | .st => (parseNullableDouble strtod value false).map .double
  | .con => (parseCon value false).map .con

/-- How it is stored. -/
def RequestAttributes.put (attrs : RequestAttributes) : Attribute → Stored → RequestAttributes
  | .pmin, .period minPeriod =>
      { attrs with hasMinPeriod := true, values := attrs.setCommon { attrs.common with minPeriod } }
  | .pmax, .period maxPeriod =>
      { attrs with hasMaxPeriod := true, values := attrs.setCommon { attrs.common with maxPeriod } }
  | .epmin, .period minEvalPeriod =>
      { attrs with hasMinEvalPeriod := true, values := attrs.setCommon { attrs.common with minEvalPeriod } }
  | .epmax, .period maxEvalPeriod =>
      { attrs with hasMaxEvalPeriod := true, values := attrs.setCommon { attrs.common with maxEvalPeriod } }
  | .gt, .double greaterThan =>
      { attrs with
        hasGreaterThan := true
        values := { attrs.values with standard := { attrs.values.standard with greaterThan } } }
  | .lt, .double lessThan =>
      { attrs with
        hasLessThan := true
        values := { attrs.values with standard := { attrs.values.standard with lessThan } } }
  | .st, .double value =>
      { attrs with
        hasStep := true
        values := { attrs.values with standard := { attrs.values.standard with step := value } } }
  | .con, .con value => { attrs with hasCon := true, values := { attrs.values with con := value } }
  | _, _ => attrs

/-- Each of the three parsers refuses an attribute that is present already. -/
theorem map_unless_present {α : Type} (parse : Bool → Option α) (hpresent : parse true = none) (present : Bool)
    (store : α → Stored) (f : α → RequestAttributes) (put : Stored → RequestAttributes)
    (hput : ∀ v, put (store v) = f v) :
    (parse present).map f = if present then none else ((parse false).map store).map put := by
  cases present with
  | true => rw [hpresent]; rfl
  | false =>
      rw [if_neg Bool.false_ne_true, Option.map_map]
      exact congrArg (fun g => (parse false).map g) (funext fun v => (hput v).symm)

theorem parseAttribute_name (strtod : List UInt8 → Strtod) (attrs : RequestAttributes) (a : Attribute)
    (value : Option (List UInt8)) :
    attrs.parseAttribute strtod a.name value =
      if attrs.has a then none else (readValue strtod a value).map (attrs.put a) := by
  have period := map_unless_present (parseNullablePeriod value) rfl
  have double := map_unless_present (parseNullableDouble strtod value) rfl
  cases a with
  | pmin => exact period attrs.hasMinPeriod .period _ (attrs.put .pmin) fun _ => rfl
  | pmax => exact period attrs.hasMaxPeriod .period _ (attrs.put .pmax) fun _ => rfl
  | epmin => exact period attrs.hasMinEvalPeriod .period _ (attrs.put .epmin) fun _ => rfl
  | epmax => exact period attrs.hasMaxEvalPeriod .period _ (attrs.put .epmax) fun _ => rfl
  | gt => exact double attrs.hasGreaterThan .double _ (attrs.put .gt) fun _ => rfl
  | lt => exact double attrs.hasLessThan .double _ (attrs.put .lt) fun _ => rfl
  | st => exact double attrs.hasStep .double _ (attrs.put .st) fun _ => rfl
  | con => exact map_unless_present (parseCon value) rfl attrs.hasCon .con _ (attrs.put .con) fun _ => rfl

theorem parseAttribute_other {strtod : List UInt8 → Strtod} {attrs : RequestAttributes} {key : List UInt8}
    (h : ∀ a : Attribute, key ≠ a.name) (value : Option (List UInt8)) :
    attrs.parseAttribute strtod key value = none := by
  unfold RequestAttributes.parseAttribute
  rw [if_neg (show key ≠ attrPmin from h .pmin), if_neg (show key ≠ attrPmax from h .pmax),
    if_neg (show key ≠ attrEpmin from h .epmin), if_neg (show key ≠ attrEpmax from h .epmax),
    if_neg (show key ≠ attrGt from h .gt), if_neg (show key ≠ attrLt from h .lt),
    if_neg (show key ≠ attrSt from h .st), if_neg (show key ≠ customAttrCon from h .con)]

/-! ## 2. What is stored -/

/-- What is stored for a number. -/
def toStored (a : Attribute) (number : Option Number) : Stored :=
  if a.isPeriod then
    match number with
    | some (.int n) => .period (BitVec.ofInt 32 n)
    | _ => .period periodNone
  else if a.isDouble then
    match number with
    | some (.double x) => .double x
    | _ => .double .nan
  else
    match number with
    | some (.int n) => .con (if n = 0 then .non else .con)
    | _ => .con .default

theorem parseNullablePeriod_eq_some_iff {text : Option (List UInt8)} {v : BitVec 32} :
    parseNullablePeriod text false = some v ↔
      (text = none ∧ v = periodNone) ∨
        ∃ cs n, text = some cs ∧ IntegerText cs n ∧ 0 ≤ n ∧ n ≤ llongMax ∧ v = BitVec.ofInt 32 n := by
  cases text with
  | none =>
      constructor
      · intro h
        exact Or.inl ⟨rfl, (Option.some.inj h).symm⟩
      · rintro (⟨-, rfl⟩ | ⟨cs, n, h, -⟩)
        · rfl
        · cases h
  | some cs =>
      have hparse : parseNullablePeriod (some cs) false =
          (safeStrtoll cs).bind fun num => if num < 0 then none else some (BitVec.ofInt 32 num) := by
        unfold parseNullablePeriod
        dsimp only
        cases safeStrtoll cs <;> rfl
      rw [hparse]
      constructor
      · intro h
        obtain ⟨num, hnum, h⟩ := Option.bind_eq_some_iff.mp h
        obtain ⟨htext, -, hmax⟩ := (safeStrtoll_iff cs num).mp hnum
        by_cases hneg : num < 0
        · rw [if_pos hneg] at h
          cases h
        · rw [if_neg hneg] at h
          exact Or.inr ⟨cs, num, rfl, htext, Int.not_lt.mp hneg, hmax, (Option.some.inj h).symm⟩
      · rintro (⟨h, -⟩ | ⟨ds, n, h, htext, hmin, hmax, rfl⟩)
        · cases h
        · obtain rfl := Option.some.inj h
          have hlow : llongMin ≤ n := Int.le_trans (by decide) hmin
          rw [(safeStrtoll_iff cs n).mpr ⟨htext, hlow, hmax⟩]
          exact if_neg (Int.not_lt.mpr hmin)

theorem safeStrtod_eq_some_iff {strtod : List UInt8 → Strtod} {text : List UInt8} {x : Double} :
    safeStrtod strtod text = some x ↔ ∃ c cs, text = c :: cs ∧ isSpace c = false ∧ (strtod text).erange = false ∧
      (strtod text).rest = [] ∧ x = (strtod text).value := by
  cases text with
  | nil =>
      refine ⟨fun h => (nomatch h), ?_⟩
      rintro ⟨c, cs, h, -⟩
      cases h
  | cons c cs =>
      have hread : safeStrtod strtod (c :: cs) =
          if isSpace c || (strtod (c :: cs)).erange || !(strtod (c :: cs)).rest.isEmpty then none
          else some (strtod (c :: cs)).value := rfl
      rw [hread]
      constructor
      · intro h
        split at h
        · cases h
        · next hok =>
          rw [Bool.or_eq_true, Bool.or_eq_true, not_or, not_or, Bool.not_eq_true, Bool.not_eq_true, Bool.not_eq_true,
            Bool.not_eq_false', List.isEmpty_iff] at hok
          exact ⟨c, cs, rfl, hok.1.1, hok.1.2, hok.2, (Option.some.inj h).symm⟩
      · rintro ⟨c', cs', heq, hspace, herange, hrest, rfl⟩
        obtain ⟨rfl, rfl⟩ := List.cons.inj heq
        rw [hspace, herange, hrest]
        rfl

theorem parseNullableDouble_eq_some_iff {strtod : List UInt8 → Strtod} {text : Option (List UInt8)} {v : Double} :
    parseNullableDouble strtod text false = some v ↔
      (text = none ∧ v = .nan) ∨ ∃ cs, text = some cs ∧ safeStrtod strtod cs = some v ∧ v.isNaN = false := by
  cases text with
  | none =>
      constructor
      · intro h
        exact Or.inl ⟨rfl, (Option.some.inj h).symm⟩
      · rintro (⟨-, rfl⟩ | ⟨cs, h, -⟩)
        · rfl
        · cases h
  | some cs =>
      have hparse : parseNullableDouble strtod (some cs) false =
          (safeStrtod strtod cs).bind fun value => if value.isNaN then none else some value := by
        unfold parseNullableDouble
        dsimp only
        cases safeStrtod strtod cs <;> rfl
      rw [hparse]
      constructor
      · intro h
        obtain ⟨x, hx, h⟩ := Option.bind_eq_some_iff.mp h
        cases hnan : x.isNaN with
        | true =>
            rw [if_pos hnan] at h
            cases h
        | false =>
            rw [if_neg (by simp [hnan])] at h
            obtain rfl := Option.some.inj h
            exact Or.inr ⟨cs, rfl, hx, hnan⟩
      · rintro (⟨h, -⟩ | ⟨ds, h, hx, hnan⟩)
        · cases h
        · obtain rfl := Option.some.inj h
          rw [hx]
          exact if_neg (by simp [hnan])

theorem parseCon_eq_some_iff {text : Option (List UInt8)} {v : ConAttr} :
    parseCon text false = some v ↔
      (text = none ∧ v = .default) ∨ (text = some [0x30] ∧ v = .non) ∨ (text = some [0x31] ∧ v = .con) := by
  cases text with
  | none =>
      constructor
      · intro h
        exact Or.inl ⟨rfl, (Option.some.inj h).symm⟩
      · rintro (⟨-, rfl⟩ | ⟨h, -⟩ | ⟨h, -⟩)
        · rfl
        · cases h
        · cases h
  | some cs =>
      have hparse : parseCon (some cs) false =
          if cs = [0x30] then some .non else if cs = [0x31] then some .con else none := rfl
      rw [hparse]
      constructor
      · intro h
        split at h
        · next h0 => exact Or.inr (Or.inl ⟨congrArg some h0, (Option.some.inj h).symm⟩)
        split at h
        · next h1 => exact Or.inr (Or.inr ⟨congrArg some h1, (Option.some.inj h).symm⟩)
        · cases h
      · rintro (⟨h, -⟩ | ⟨h, rfl⟩ | ⟨h, rfl⟩)
        · cases h
        · rw [if_pos (Option.some.inj h)]
        · rw [Option.some.inj h]
          decide

/-- **What is stored is what the value denotes.** -/
theorem readValue_eq_some_iff {strtod : List UInt8 → Strtod} {a : Attribute} {value : Option (List UInt8)}
    (hnul : ∀ text ∈ value, 0 ∉ text) {v : Stored} :
    readValue strtod a value = some v ↔
      ∃ number, ValueText strtod .converted a value number ∧ v = toStored a number := by
  rcases a.kinds with hperiod | hdouble | rfl
  · have hread : readValue strtod a value = (parseNullablePeriod value false).map .period := by
      cases a <;> first | rfl | cases hperiod
    have hstored : ∀ number, toStored a number =
        match (number : Option Number) with
        | some (.int n) => .period (BitVec.ofInt 32 n)
        | _ => .period periodNone := fun _ => if_pos hperiod
    rw [hread, Option.map_eq_some_iff]
    constructor
    · rintro ⟨p, hp, rfl⟩
      rcases parseNullablePeriod_eq_some_iff.mp hp with ⟨rfl, rfl⟩ | ⟨cs, n, rfl, htext, hmin, hmax, rfl⟩
      · exact ⟨none, ValueText.bare a, (hstored none).symm⟩
      · exact ⟨some (.int n), ValueText.period hperiod htext hmin hmax, (hstored (some (.int n))).symm⟩
    · rintro ⟨number, h, rfl⟩
      rw [hstored]
      cases h with
      | bare a => exact ⟨_, parseNullablePeriod_eq_some_iff.mpr (Or.inl ⟨rfl, rfl⟩), rfl⟩
      | period ha htext hmin hmax =>
          exact ⟨_, parseNullablePeriod_eq_some_iff.mpr (Or.inr ⟨_, _, rfl, htext, hmin, hmax, rfl⟩), rfl⟩
      | double ha => exact absurd hperiod (Attribute.not_period_of_double ha)
      | non => cases hperiod
      | con => cases hperiod
  · have hread : readValue strtod a value = (parseNullableDouble strtod value false).map .double := by
      cases a <;> first | rfl | cases hdouble
    have hstored : ∀ number, toStored a number =
        match (number : Option Number) with
        | some (.double x) => .double x
        | _ => .double .nan := by
      intro number
      cases a <;> first | rfl | cases hdouble
    rw [hread, Option.map_eq_some_iff]
    constructor
    · rintro ⟨x, hx, rfl⟩
      rcases parseNullableDouble_eq_some_iff.mp hx with ⟨rfl, rfl⟩ | ⟨text, rfl, hread, hnan⟩
      · exact ⟨none, ValueText.bare a, (hstored none).symm⟩
      · obtain ⟨c, cs, rfl, hspace, herange, hrest, rfl⟩ := safeStrtod_eq_some_iff.mp hread
        refine ⟨some (.double (strtod (c :: cs)).value), ?_, (hstored (some (.double (strtod (c :: cs)).value))).symm⟩
        exact ValueText.double hdouble hspace (hnul _ rfl) hrest hnan fun _ => herange
    · rintro ⟨number, h, rfl⟩
      rw [hstored]
      cases h with
      | bare a => exact ⟨_, parseNullableDouble_eq_some_iff.mpr (Or.inl ⟨rfl, rfl⟩), rfl⟩
      | period ha => exact absurd ha (Attribute.not_period_of_double hdouble)
      | double ha hspace hnul hrest hnan herange =>
          have hread := safeStrtod_eq_some_iff.mpr ⟨_, _, rfl, hspace, herange rfl, hrest, rfl⟩
          exact ⟨_, parseNullableDouble_eq_some_iff.mpr (Or.inr ⟨_, rfl, hread, hnan⟩), rfl⟩
      | non => cases hdouble
      | con => cases hdouble
  · rw [show readValue strtod .con value = (parseCon value false).map .con from rfl, Option.map_eq_some_iff]
    constructor
    · rintro ⟨c, hc, rfl⟩
      rcases parseCon_eq_some_iff.mp hc with ⟨rfl, rfl⟩ | ⟨rfl, rfl⟩ | ⟨rfl, rfl⟩
      · exact ⟨none, ValueText.bare _, rfl⟩
      · exact ⟨_, ValueText.non, rfl⟩
      · exact ⟨_, ValueText.con, rfl⟩
    · rintro ⟨number, h, rfl⟩
      cases h with
      | bare a => exact ⟨_, parseCon_eq_some_iff.mpr (Or.inl ⟨rfl, rfl⟩), rfl⟩
      | period ha => cases ha
      | double ha => cases ha
      | non => exact ⟨_, parseCon_eq_some_iff.mpr (Or.inr (Or.inl ⟨rfl, rfl⟩)), rfl⟩
      | con => exact ⟨_, parseCon_eq_some_iff.mpr (Or.inr (Or.inr ⟨rfl, rfl⟩)), rfl⟩

/-- What a value that is stored changes. -/
theorem put_toStored (attrs : RequestAttributes) (a : Attribute) (number : Option Number) (b : Attribute) :
    (attrs.put a (toStored a number)).has b = (decide (b = a) || attrs.has b) ∧
      (attrs.put a (toStored a number)).stored b = if b = a then toStored a number else attrs.stored b := by
  obtain ⟨p, hp⟩ | ⟨x, hx⟩ | ⟨c, hc⟩ : (∃ p, a.isPeriod = true ∧ toStored a number = .period p) ∨
      (∃ x, a.isDouble = true ∧ toStored a number = .double x) ∨ ∃ c, a = .con ∧ toStored a number = .con c := by
    rcases a.kinds with hperiod | hdouble | rfl
    · refine Or.inl ?_
      unfold toStored
      rw [if_pos hperiod]
      split <;> exact ⟨_, hperiod, rfl⟩
    · refine Or.inr (Or.inl ?_)
      unfold toStored
      rw [if_neg (Attribute.not_period_of_double hdouble), if_pos hdouble]
      split <;> exact ⟨_, hdouble, rfl⟩
    · refine Or.inr (Or.inr ?_)
      unfold toStored
      rw [if_neg (by decide), if_neg (by decide)]
      split <;> exact ⟨_, rfl, rfl⟩
  · rw [hp.2]
    cases a <;> first | (cases b <;> exact ⟨rfl, rfl⟩) | cases hp.1
  · rw [hx.2]
    cases a <;> first | (cases b <;> exact ⟨rfl, rfl⟩) | cases hx.1
  · obtain ⟨rfl, hc⟩ := hc
    rw [hc]
    cases b <;> exact ⟨rfl, rfl⟩

/-! ## 3. One option, and all of them -/

/-- **What one option does to the attributes read so far.** -/
theorem parseAttribute_iff {strtod : List UInt8 → Strtod} {query : List UInt8} (hnul : 0 ∉ query)
    (attrs attrs' : RequestAttributes) :
    attrs.parseAttribute strtod (splitQueryString query).1 (splitQueryString query).2 = some attrs' ↔
      ∃ r : Reading, Reads strtod .converted query r ∧ attrs.has r.1 = false ∧
        attrs' = attrs.put r.1 (toStored r.1 r.2) := by
  have hvalue : ∀ {a : Attribute} {value : Option (List UInt8)}, query = a.option value →
      ∀ text ∈ value, 0 ∉ text := by
    intro a value hquery text htext hmem
    rw [Option.mem_def.mp htext] at hquery
    refine hnul (hquery ▸ ?_)
    exact List.mem_append_right _ (List.mem_cons_of_mem _ hmem)
  constructor
  · intro h
    by_cases hname : ∃ a : Attribute, (splitQueryString query).1 = a.name
    · obtain ⟨a, ha⟩ := hname
      have hquery := option_of_splitQueryString ha
      rw [ha, parseAttribute_name] at h
      cases hhas : attrs.has a with
      | true =>
          rw [if_pos hhas] at h
          cases h
      | false =>
          rw [if_neg (by simp [hhas]), Option.map_eq_some_iff] at h
          obtain ⟨v, hread, rfl⟩ := h
          obtain ⟨number, hnumber, rfl⟩ := (readValue_eq_some_iff (hvalue hquery)).mp hread
          exact ⟨(a, number), ⟨_, hquery, hnumber⟩, hhas, rfl⟩
    · rw [parseAttribute_other fun a ha => hname ⟨a, ha⟩] at h
      cases h
  · rintro ⟨⟨a, number⟩, ⟨value, hquery, hnumber⟩, hhas, rfl⟩
    have hread := (readValue_eq_some_iff (hvalue hquery)).mpr ⟨number, hnumber, rfl⟩
    rw [hquery, splitQueryString_option, parseAttribute_name, if_neg (by simp [hhas]), hread]
    rfl

theorem parseAttributesLoop_nil {strtod : List UInt8 → Strtod} {size : Nat} {it : List CoapOption}
    (h : optionValues optionUriQuery it = []) (attrs : RequestAttributes) :
    parseAttributesLoop strtod size it attrs = some attrs := by
  have hnext : optionsGetStringIt optionUriQuery (size - 1) it = .missing := optionsGetStringIt_missing h
  rw [parseAttributesLoop.eq_def]
  split
  · rfl
  · next heq =>
    rw [hnext] at heq
    cases heq
  · next heq =>
    rw [hnext] at heq
    cases heq

theorem parseAttributesLoop_failed {strtod : List UInt8 → Strtod} {size : Nat} {it : List CoapOption}
    {query : List UInt8} {queries : List (List UInt8)} (h : optionValues optionUriQuery it = query :: queries)
    (hsize : ¬query.length + 1 ≤ size - 1) (attrs : RequestAttributes) :
    parseAttributesLoop strtod size it attrs = none := by
  have hnext := optionsGetStringIt_failed h (Nat.not_le.mp hsize)
  rw [parseAttributesLoop.eq_def]
  split
  · next heq =>
    rw [hnext] at heq
    cases heq
  · rfl
  · next heq =>
    rw [hnext] at heq
    cases heq

theorem parseAttributesLoop_cons {strtod : List UInt8 → Strtod} {size : Nat} {it : List CoapOption}
    {query : List UInt8} {queries : List (List UInt8)} (h : optionValues optionUriQuery it = query :: queries)
    (hsize : query.length + 1 ≤ size - 1) :
    ∃ rest, optionValues optionUriQuery rest = queries ∧ ∀ attrs : RequestAttributes,
      parseAttributesLoop strtod size it attrs =
        (attrs.parseAttribute strtod (splitQueryString (cString query)).1 (splitQueryString (cString query)).2).bind
          fun attrs => parseAttributesLoop strtod size rest attrs := by
  obtain ⟨rest, hnext, hrest⟩ := optionsGetStringIt_text h (Nat.not_lt.mpr hsize)
  refine ⟨rest, hrest, fun attrs => ?_⟩
  rw [parseAttributesLoop.eq_def]
  split
  · next heq =>
    rw [hnext] at heq
    cases heq
  · next heq =>
    rw [hnext] at heq
    cases heq
  · next heq =>
    rw [hnext] at heq
    cases heq
    dsimp only
    cases attrs.parseAttribute strtod (splitQueryString (cString query)).1 (splitQueryString (cString query)).2 <;> rfl

/-- What the readings leave in the attributes. -/
structure Describes (attrs : RequestAttributes) (readings : List Reading) (attrs' : RequestAttributes) : Prop where
  once : (readings.map Prod.fst).Nodup
  fresh : ∀ r ∈ readings, attrs.has r.1 = false
  has : ∀ a, attrs'.has a = true ↔ attrs.has a = true ∨ ∃ r ∈ readings, r.1 = a
  stored : ∀ r ∈ readings, attrs'.stored r.1 = toStored r.1 r.2
  kept : ∀ a, (∀ r ∈ readings, r.1 ≠ a) → attrs'.stored a = attrs.stored a

/-- One more reading in front. -/
theorem Describes.cons {attrs attrs' : RequestAttributes} {r : Reading} {readings : List Reading}
    (hr : attrs.has r.1 = false) (h : Describes (attrs.put r.1 (toStored r.1 r.2)) readings attrs') :
    Describes attrs (r :: readings) attrs' := by
  have hput := put_toStored attrs r.1 r.2
  have hother : ∀ q ∈ readings, q.1 ≠ r.1 ∧ attrs.has q.1 = false := by
    intro q hq
    have hfresh := h.fresh q hq
    rw [(hput q.1).1, Bool.or_eq_false_iff] at hfresh
    exact ⟨of_decide_eq_false hfresh.1, hfresh.2⟩
  constructor
  · rw [List.map_cons]
    refine List.nodup_cons.mpr ⟨fun hmem => ?_, h.once⟩
    obtain ⟨q, hq, heq⟩ := List.mem_map.mp hmem
    exact (hother q hq).1 heq
  · exact List.forall_mem_cons.mpr ⟨hr, fun q hq => (hother q hq).2⟩
  · intro a
    rw [h.has a, (hput a).1, Bool.or_eq_true, decide_eq_true_iff, List.exists_mem_cons_iff]
    constructor
    · rintro ((rfl | hhas) | hmem)
      · exact Or.inr (Or.inl rfl)
      · exact Or.inl hhas
      · exact Or.inr (Or.inr hmem)
    · rintro (hhas | rfl | hmem)
      · exact Or.inl (Or.inr hhas)
      · exact Or.inl (Or.inl rfl)
      · exact Or.inr hmem
  · refine List.forall_mem_cons.mpr ⟨?_, h.stored⟩
    rw [h.kept r.1 fun q hq => (hother q hq).1, (hput r.1).2, if_pos rfl]
  · intro a ha
    obtain ⟨hra, hrest⟩ := List.forall_mem_cons.mp ha
    rw [h.kept a hrest, (hput a).2, if_neg (Ne.symm hra)]

theorem parseAttributesLoop_some {strtod : List UInt8 → Strtod} {size : Nat} {attrs' : RequestAttributes} :
    ∀ (queries : List (List UInt8)) (it : List CoapOption) (attrs : RequestAttributes),
      optionValues optionUriQuery it = queries → parseAttributesLoop strtod size it attrs = some attrs' →
      (∀ query ∈ queries, query.length + 1 ≤ size - 1) ∧
        ∃ readings, List.Forall₂ (Reads strtod .converted) (queries.map cString) readings ∧
          Describes attrs readings attrs'
  | [], it, attrs, hvalues, h => by
      rw [parseAttributesLoop_nil hvalues] at h
      obtain rfl := Option.some.inj h
      refine ⟨List.forall_mem_nil _, [], List.Forall₂.nil, List.nodup_nil, List.forall_mem_nil _, fun a => ?_,
        List.forall_mem_nil _, fun a _ => rfl⟩
      exact ⟨Or.inl, fun h => h.elim id fun ⟨r, hr, _⟩ => absurd hr List.not_mem_nil⟩
  | query :: queries, it, attrs, hvalues, h => by
      by_cases hsize : query.length + 1 ≤ size - 1
      · obtain ⟨rest, hrest, hstep⟩ := @parseAttributesLoop_cons strtod size it query queries hvalues hsize
        rw [hstep, Option.bind_eq_some_iff] at h
        obtain ⟨next, hparse, hloop⟩ := h
        obtain ⟨r, hreads, hfresh, rfl⟩ := (parseAttribute_iff (cString_noNul query) attrs next).mp hparse
        obtain ⟨hfits, readings, heach, hdescribes⟩ := parseAttributesLoop_some queries rest _ hrest hloop
        exact ⟨List.forall_mem_cons.mpr ⟨hsize, hfits⟩, r :: readings, List.Forall₂.cons hreads heach,
          hdescribes.cons hfresh⟩
      · rw [parseAttributesLoop_failed hvalues hsize] at h
        cases h

theorem parseAttributesLoop_of_reads {strtod : List UInt8 → Strtod} {size : Nat} :
    ∀ (queries : List (List UInt8)) (it : List CoapOption) (attrs : RequestAttributes) (readings : List Reading),
      optionValues optionUriQuery it = queries → (∀ query ∈ queries, query.length + 1 ≤ size - 1) →
      List.Forall₂ (Reads strtod .converted) (queries.map cString) readings → (readings.map Prod.fst).Nodup →
      (∀ r ∈ readings, attrs.has r.1 = false) → ∃ attrs', parseAttributesLoop strtod size it attrs = some attrs'
  | [], it, attrs, readings, hvalues, _, _, _, _ => ⟨attrs, parseAttributesLoop_nil hvalues attrs⟩
  | query :: queries, it, attrs, readings, hvalues, hfits, heach, honce, hfresh => by
      obtain ⟨hsize, hfits⟩ := List.forall_mem_cons.mp hfits
      rw [List.map_cons] at heach
      cases heach with
      | @cons _ r _ readings hreads heach =>
          rw [List.map_cons, List.nodup_cons] at honce
          obtain ⟨hr, hfresh⟩ := List.forall_mem_cons.mp hfresh
          obtain ⟨rest, hrest, hstep⟩ := @parseAttributesLoop_cons strtod size it query queries hvalues hsize
          have hnext : ∀ q ∈ readings, (attrs.put r.1 (toStored r.1 r.2)).has q.1 = false := by
            intro q hq
            rw [(put_toStored attrs r.1 r.2 q.1).1, hfresh q hq, Bool.or_false]
            exact decide_eq_false fun heq => honce.1 (List.mem_map.mpr ⟨q, hq, heq⟩)
          obtain ⟨attrs', h⟩ := parseAttributesLoop_of_reads queries rest _ readings hrest hfits heach honce.2 hnext
          refine ⟨attrs', ?_⟩
          rw [hstep, (parseAttribute_iff (cString_noNul query) attrs _).mpr ⟨r, hreads, hr, rfl⟩]
          exact h

/-! ## 4. What the sequences denote -/

variable {strtod : List UInt8 → Strtod} {ranges ranges' : Ranges}

theorem Attribute.name_noNul (a : Attribute) : 0 ∉ a.name := by
  cases a <;> decide

theorem ValueText.noNul {a : Attribute} {text : List UInt8} {number : Option Number}
    (h : ValueText strtod ranges a (some text) number) : 0 ∉ text := by
  cases h with
  | period ha h => exact h.noNul
  | double ha hspace hnul => exact hnul
  | non => decide
  | con => decide

theorem Reads.noNul {query : List UInt8} {r : Reading} (h : Reads strtod ranges query r) : 0 ∉ query := by
  obtain ⟨value, rfl, hvalue⟩ := h
  cases value with
  | none => exact r.1.name_noNul
  | some text =>
      intro hmem
      rcases List.mem_append.mp hmem with hmem | hmem
      · exact r.1.name_noNul hmem
      · exact (List.mem_cons.mp hmem).elim (by decide) hvalue.noNul

theorem ValueText.unique {a : Attribute} {value : Option (List UInt8)} {m n : Option Number}
    (hm : ValueText strtod ranges a value m) (hn : ValueText strtod ranges' a value n) : m = n := by
  cases hm with
  | bare =>
      cases hn with
      | bare => rfl
  | period ha h =>
      cases hn with
      | period _ h' => rw [h.unique h']
      | double ha' => exact absurd ha (Attribute.not_period_of_double ha')
      | non => cases ha
      | con => cases ha
  | double ha =>
      cases hn with
      | period ha' => exact absurd ha' (Attribute.not_period_of_double ha)
      | double => rfl
      | non => cases ha
      | con => cases ha
  | non =>
      cases hn with
      | period ha => cases ha
      | double ha => cases ha
      | non => rfl
  | con =>
      cases hn with
      | period ha => cases ha
      | double ha => cases ha
      | con => rfl

theorem Attribute.option_injective {a b : Attribute} {v w : Option (List UInt8)} (h : a.option v = b.option w) :
    a = b ∧ v = w := by
  have hsplit := congrArg splitQueryString h
  rw [splitQueryString_option, splitQueryString_option] at hsplit
  exact ⟨Attribute.name_injective (Prod.mk.inj hsplit).1, (Prod.mk.inj hsplit).2⟩

/-- **An option denotes one reading only.** -/
theorem Reads.unique {query : List UInt8} {r r' : Reading} (h : Reads strtod ranges query r)
    (h' : Reads strtod ranges' query r') : r = r' := by
  obtain ⟨value, rfl, hvalue⟩ := h
  obtain ⟨value', heq, hvalue'⟩ := h'
  obtain ⟨a, number⟩ := r
  obtain ⟨a', number'⟩ := r'
  obtain ⟨rfl, rfl⟩ := Attribute.option_injective heq
  exact congrArg (Prod.mk a) (hvalue.unique hvalue')

/-- What is stored for a period that is in range, and for every other number. -/
theorem toStored_is {a : Attribute} {value : Option (List UInt8)} {number : Option Number}
    (h : ValueText strtod .proper a value number) : (toStored a number).Is number := by
  cases h with
  | bare => cases a <;> rfl
  | @period _ text n ha h hmin hmax =>
      have hmax : n ≤ 2147483647 := hmax
      have hstored : toStored a (some (.int n)) = .period (BitVec.ofInt 32 n) := if_pos ha
      rw [hstored]
      refine congrArg Number.int ?_
      rw [BitVec.toInt_ofInt, Int.bmod_eq_of_le (by omega) (by omega)]
  | double ha =>
      unfold toStored
      rw [if_neg (Attribute.not_period_of_double ha), if_pos ha]
      rfl
  | non => exact ⟨by decide, rfl⟩
  | con => exact ⟨by decide, rfl⟩

/-! ## 5. When parsing gives what it should -/

/-- **Parsing gives what it should exactly on the sequences that are harmless.** -/
theorem parseAttributes_meets_iff (strtod : List UInt8 → Strtod) (size : Nat) (opts : List CoapOption) :
    Meets strtod (optionValues optionUriQuery opts) (parseAttributes strtod size opts) ↔
      Harmless strtod size (optionValues optionUriQuery opts) := by
  have hsome := @parseAttributesLoop_some strtod size
  have hof := @parseAttributesLoop_of_reads strtod size
  generalize hqueries : optionValues optionUriQuery opts = queries at *
  constructor
  · intro hmeets
    -- what is accepted denotes something
    have haccepted : ∀ readings, ReadsAll strtod .converted (queries.map cString) readings →
        (∀ query ∈ queries, query.length + 1 ≤ size - 1) → ∃ readings', ReadsAll strtod .proper queries readings' := by
      intro readings hreads hfits
      obtain ⟨attrs, hattrs⟩ := hof queries opts .empty readings hqueries hfits hreads.each hreads.once fun r _ => by
        cases r.1 <;> rfl
      obtain ⟨readings', h, -⟩ := hmeets.sound attrs hattrs
      exact ⟨readings', h⟩
    constructor
    · intro readings hreads
      obtain ⟨attrs, hattrs⟩ := hmeets.succeeds readings hreads
      exact (hsome queries opts .empty hqueries hattrs).1
    · intro readings hreads query hquery a text heq ha
      obtain ⟨attrs, hattrs⟩ := hmeets.succeeds readings hreads
      obtain ⟨-, readings', heach, -⟩ := hsome queries opts .empty hqueries hattrs
      have hnul : ∀ query ∈ queries, 0 ∉ query := fun q hq => by
        obtain ⟨r, -, hr⟩ := forall₂_left hreads.each q hq
        exact hr.noNul
      rw [map_cString hnul] at heach
      obtain ⟨⟨b, number⟩, -, value, hoption, hvalue⟩ := forall₂_left heach query hquery
      obtain ⟨rfl, rfl⟩ := Attribute.option_injective (heq.symm.trans hoption)
      cases hvalue with
      | period hperiod => exact absurd hperiod (Attribute.not_period_of_double ha)
      | double _ _ _ _ _ herange => exact herange rfl
      | non => cases ha
      | con => cases ha
    · intro readings hreads hfits query hquery
      obtain ⟨readings', hproper⟩ := haccepted readings hreads hfits
      obtain ⟨r, -, hr⟩ := forall₂_left hproper.each query hquery
      exact hr.noNul
    · rintro readings hreads hfits ⟨a, number⟩ hr n hperiod hn
      obtain ⟨readings', hproper⟩ := haccepted readings hreads hfits
      have hnul : ∀ query ∈ queries, 0 ∉ query := fun q hq => by
        obtain ⟨r, -, hr⟩ := forall₂_left hproper.each q hq
        exact hr.noNul
      have heach := hreads.each
      rw [map_cString hnul] at heach
      obtain ⟨query, hquery, hquerys⟩ := forall₂_left heach.flip (a, number) hr
      obtain ⟨r', -, hr'⟩ := forall₂_left hproper.each query hquery
      obtain rfl := Reads.unique hquerys hr'
      obtain ⟨value, -, hvalue⟩ := hr'
      dsimp only at hn hvalue
      subst hn
      cases hvalue with
      | period _ _ _ hmax => exact hmax
      | non => decide
      | con => decide
  · intro hharmless
    constructor
    · intro readings hreads
      have hnul : ∀ query ∈ queries, 0 ∉ query := fun q hq => by
        obtain ⟨r, -, hr⟩ := forall₂_left hreads.each q hq
        exact hr.noNul
      have hconverted : ∀ query ∈ queries, ∀ r, Reads strtod .proper query r → Reads strtod .converted query r := by
        rintro query hquery ⟨a, number⟩ ⟨value, heq, hvalue⟩
        refine ⟨value, heq, ?_⟩
        dsimp only at heq hvalue ⊢
        cases hvalue with
        | bare => exact ValueText.bare a
        | period ha h hmin hmax => exact ValueText.period ha h hmin (Int.le_trans hmax (by decide))
        | double ha hspace hnul hrest hnan _ =>
            exact ValueText.double ha hspace hnul hrest hnan fun _ =>
              hharmless.inRange readings hreads query hquery a _ heq ha
        | non => exact ValueText.non
        | con => exact ValueText.con
      have heach : List.Forall₂ (Reads strtod .converted) (queries.map cString) readings := by
        rw [map_cString hnul]
        exact forall₂_imp_mem hreads.each hconverted
      exact hof queries opts .empty readings hqueries (hharmless.fits readings hreads) heach hreads.once fun r _ => by
        cases r.1 <;> rfl
    · intro attrs hattrs
      obtain ⟨hfits, readings, heach, hdescribes⟩ := hsome queries opts .empty hqueries hattrs
      have hreads : ReadsAll strtod .converted (queries.map cString) readings := ⟨heach, hdescribes.once⟩
      have hnul := hharmless.noNul readings hreads hfits
      have hsmall := hharmless.small readings hreads hfits
      rw [map_cString hnul] at heach
      have hproper : ∀ query r, r ∈ readings → Reads strtod .converted query r → Reads strtod .proper query r := by
        rintro query ⟨a, number⟩ hr ⟨value, heq, hvalue⟩
        refine ⟨value, heq, ?_⟩
        dsimp only at hvalue ⊢
        cases hvalue with
        | bare => exact ValueText.bare a
        | period ha h hmin hmax => exact ValueText.period ha h hmin (hsmall _ hr _ ha rfl)
        | double ha hspace hnul hrest hnan _ => exact ValueText.double ha hspace hnul hrest hnan (fun h => nomatch h)
        | non => exact ValueText.non
        | con => exact ValueText.con
      have heach' : List.Forall₂ (Reads strtod .proper) queries readings :=
        (forall₂_imp_mem heach.flip fun r hr query hquery => hproper query r hr hquery).flip
      refine ⟨readings, ⟨heach', hdescribes.once⟩, fun a => ?_, fun r hr => ?_⟩
      · rw [hdescribes.has a]
        refine ⟨fun h => h.resolve_left ?_, Or.inr⟩
        cases a <;> decide
      · obtain ⟨query, -, hquery⟩ := forall₂_left heach'.flip r hr
        obtain ⟨value, -, hvalue⟩ := hquery
        rw [hdescribes.stored r hr]
        exact toStored_is hvalue

/-- `pmin=4294967296` is stored as 0. -/
theorem parseAttributes_not_meets :
    ¬∀ (strtod : List UInt8 → Strtod) (size : Nat) (opts : List CoapOption),
      Meets strtod (optionValues optionUriQuery opts) (parseAttributes strtod size opts) := by
  intro h
  let strtod : List UInt8 → Strtod := fun text => ⟨.nan, false, text⟩
  let text : List UInt8 := [0x34, 0x32, 0x39, 0x34, 0x39, 0x36, 0x37, 0x32, 0x39, 0x36]
  let opts : List CoapOption := [⟨15, Attribute.pmin.option (some text)⟩]
  have hmeets := h strtod 256 opts
  have hnumber : IntegerText text 4294967296 :=
    IntegerText.plain (NaturalText.decimal (by decide) (List.all_eq_true.mp (by decide)))
  have hreads : Reads strtod .converted (Attribute.pmin.option (some text)) (.pmin, some (.int 4294967296)) :=
    ⟨_, rfl, ValueText.period rfl hnumber (by decide) (by decide)⟩
  obtain ⟨attrs, hattrs⟩ : ∃ attrs, parseAttributes strtod 256 opts = some attrs :=
    parseAttributesLoop_of_reads [Attribute.pmin.option (some text)] opts .empty
      [(.pmin, some (.int 4294967296))] rfl (List.forall_mem_singleton.mpr (by decide))
      (List.Forall₂.cons hreads List.Forall₂.nil) (List.nodup_singleton _) (List.forall_mem_singleton.mpr rfl)
  obtain ⟨readings, hproper, -⟩ := hmeets.sound attrs hattrs
  obtain ⟨r, -, hr⟩ := forall₂_left hproper.each _ List.mem_cons_self
  obtain rfl := hreads.unique hr
  obtain ⟨value, -, hvalue⟩ := hr
  cases hvalue with
  | period _ _ _ hmax => exact absurd hmax (by decide)

end Anjay.Request
