/-
  File:      Anjay/Request/Query.lean
  Subject:   The attributes in the Uri-Query options of a request (`anjay_core.c`), with ANJAY_WITH_CON_ATTR.

  * `Reads`, `ReadsAll`: what an option and a sequence of options denote.
  * `Meets`: what parsing should give; `Harmless`: the sequences on which it does.
-/
import Anjay.Dm.Attributes
import Anjay.Request.Options

namespace Anjay.Request

open AttrStorage Dm Text

/-! ## 1. The code -/

/-- `anjay_request_attributes_t`. -/
structure RequestAttributes where
  hasMinPeriod : Bool
  hasMaxPeriod : Bool
  hasGreaterThan : Bool
  hasLessThan : Bool
  hasStep : Bool
  hasMinEvalPeriod : Bool
  hasMaxEvalPeriod : Bool
  hasCon : Bool
  values : InternalRAttrs
  deriving DecidableEq, Repr

/-- What a call of `strtod` gives: the value, whether it sets `ERANGE`, and `*endptr`. -/
structure Strtod where
  value : Double
  erange : Bool
  rest : List UInt8

/-- `_anjay_safe_strtod`. -/
def safeStrtod (strtod : List UInt8 → Strtod) (text : List UInt8) : Option Double :=
  match text with
  | [] => none
  | c :: _ =>
      if isSpace c || (strtod text).erange || !(strtod text).rest.isEmpty then none else some (strtod text).value

/-- `split_query_string`. -/
def splitQueryString (query : List UInt8) : List UInt8 × Option (List UInt8) :=
  (query.takeWhile (· != 0x3D), (query.dropWhile (· != 0x3D)).tail?)

/-- `parse_nullable_period`; there is no result where it returns -1. -/
def parseNullablePeriod (text : Option (List UInt8)) (present : Bool) : Option (BitVec 32) :=
  if present then none
  else
    match text with
    | none => some periodNone
    | some text =>
        match safeStrtoll text with
        | none => none
        | some num => if num < 0 then none else some (BitVec.ofInt 32 num)

/-- `parse_nullable_double`. -/
def parseNullableDouble (strtod : List UInt8 → Strtod) (text : Option (List UInt8)) (present : Bool) : Option Double :=
  if present then none
  else
    match text with
    | none => some .nan
    | some text =>
        match safeStrtod strtod text with
        | none => none
        | some value => if value.isNaN then none else some value

/-- `parse_con`. -/
def parseCon (value : Option (List UInt8)) (present : Bool) : Option ConAttr :=
  if present then none
  else
    match value with
    | none => some .default
    | some value => if value = [0x30] then some .non else if value = [0x31] then some .con else none

/-- `ANJAY_ATTR_PMIN` and so on. -/
def attrPmin : List UInt8 := [0x70, 0x6D, 0x69, 0x6E]

def attrPmax : List UInt8 := [0x70, 0x6D, 0x61, 0x78]

def attrEpmin : List UInt8 := [0x65, 0x70, 0x6D, 0x69, 0x6E]

def attrEpmax : List UInt8 := [0x65, 0x70, 0x6D, 0x61, 0x78]

def attrGt : List UInt8 := [0x67, 0x74]

def attrLt : List UInt8 := [0x6C, 0x74]

def attrSt : List UInt8 := [0x73, 0x74]

def customAttrCon : List UInt8 := [0x63, 0x6F, 0x6E]

namespace RequestAttributes

/-- The attributes for which the request stores a value. -/
def setCommon (attrs : RequestAttributes) (common : OiAttributes) : InternalRAttrs :=
  { attrs.values with standard := { attrs.values.standard with common } }

def common (attrs : RequestAttributes) : OiAttributes := attrs.values.standard.common

/-- `parse_attribute`. -/
def parseAttribute (strtod : List UInt8 → Strtod) (attrs : RequestAttributes) (key : List UInt8)
    (value : Option (List UInt8)) : Option RequestAttributes :=
  if key = attrPmin then
    (parseNullablePeriod value attrs.hasMinPeriod).map fun minPeriod =>
      { attrs with hasMinPeriod := true, values := attrs.setCommon { attrs.common with minPeriod } }
  else if key = attrPmax then
    (parseNullablePeriod value attrs.hasMaxPeriod).map fun maxPeriod =>
      { attrs with hasMaxPeriod := true, values := attrs.setCommon { attrs.common with maxPeriod } }
  else if key = attrEpmin then
    (parseNullablePeriod value attrs.hasMinEvalPeriod).map fun minEvalPeriod =>
      { attrs with hasMinEvalPeriod := true, values := attrs.setCommon { attrs.common with minEvalPeriod } }
  else if key = attrEpmax then
    (parseNullablePeriod value attrs.hasMaxEvalPeriod).map fun maxEvalPeriod =>
      { attrs with hasMaxEvalPeriod := true, values := attrs.setCommon { attrs.common with maxEvalPeriod } }
  else if key = attrGt then
    (parseNullableDouble strtod value attrs.hasGreaterThan).map fun greaterThan =>
      { attrs with
        hasGreaterThan := true
        values := { attrs.values with standard := { attrs.values.standard with greaterThan } } }
  else if key = attrLt then
    (parseNullableDouble strtod value attrs.hasLessThan).map fun lessThan =>
      { attrs with
        hasLessThan := true
        values := { attrs.values with standard := { attrs.values.standard with lessThan } } }
  else if key = attrSt then
    (parseNullableDouble strtod value attrs.hasStep).map fun value =>
      { attrs with
        hasStep := true
        values := { attrs.values with standard := { attrs.values.standard with step := value } } }
  else if key = customAttrCon then
    (parseCon value attrs.hasCon).map fun value =>
      { attrs with hasCon := true, values := { attrs.values with con := value } }
  else none

/-- What `parse_attributes` starts with. -/
def empty : RequestAttributes := ⟨false, false, false, false, false, false, false, false, internalRAttrsEmpty⟩

end RequestAttributes

/-- The loop of `parse_attributes`; `size` is `ANJAY_MAX_URI_QUERY_SEGMENT_SIZE`. -/
def parseAttributesLoop (strtod : List UInt8 → Strtod) (size : Nat) (it : List CoapOption) (attrs : RequestAttributes) :
    Option RequestAttributes :=
  match h : optionsGetStringIt optionUriQuery (size - 1) it with
  | .missing => some attrs
  | .failed => none
  | .text buffer rest =>
      have : rest.length < it.length := optionsGetStringIt_length h
      match attrs.parseAttribute strtod (splitQueryString (cString buffer)).1 (splitQueryString (cString buffer)).2 with
      | none => none
      | some attrs => parseAttributesLoop strtod size rest attrs
termination_by it.length

/-- `parse_attributes`; there is no result where it returns -1. -/
def parseAttributes (strtod : List UInt8 → Strtod) (size : Nat) (opts : List CoapOption) : Option RequestAttributes :=
  parseAttributesLoop strtod size opts .empty

/-! ## 2. What an option denotes -/

inductive Attribute
  | pmin
  | pmax
  | epmin
  | epmax
  | gt
  | lt
  | st
  | con
  deriving DecidableEq, Repr

/-- A number in an option. -/
inductive Number
  | int (n : Int)
  | double (x : Double)
  deriving DecidableEq, Repr

/-- A value that is stored. -/
inductive Stored
  | period (value : BitVec 32)
  | double (value : Double)
  | con (value : ConAttr)
  deriving DecidableEq, Repr

/-- The value stored is the number, or the one for none. -/
def Stored.Is : Stored → Option Number → Prop
  | .period value, none => value = periodNone
  | .period value, some number => number = .int value.toInt
  | .double value, none => value = .nan
  | .double value, some number => number = .double value
  | .con value, none => value = .default
  | .con value, some number => value ≠ .default ∧ number = .int value.toInt

namespace Attribute

def name : Attribute → List UInt8
  | pmin => attrPmin
  | pmax => attrPmax
  | epmin => attrEpmin
  | epmax => attrEpmax
  | gt => attrGt
  | lt => attrLt
  | st => attrSt
  | con => customAttrCon

def isPeriod : Attribute → Bool
  | pmin | pmax | epmin | epmax => true
  | _ => false

def isDouble : Attribute → Bool
  | gt | lt | st => true
  | _ => false

/-- A name, with the value behind `=` if there is one. -/
def option (a : Attribute) : Option (List UInt8) → List UInt8
  | none => a.name
  | some text => a.name ++ 0x3D :: text

end Attribute

namespace RequestAttributes

/-- The `has_*` flag of an attribute. -/
def has (attrs : RequestAttributes) : Attribute → Bool
  | .pmin => attrs.hasMinPeriod
  | .pmax => attrs.hasMaxPeriod
  | .epmin => attrs.hasMinEvalPeriod
  | .epmax => attrs.hasMaxEvalPeriod
  | .gt => attrs.hasGreaterThan
  | .lt => attrs.hasLessThan
  | .st => attrs.hasStep
  | .con => attrs.hasCon

def stored (attrs : RequestAttributes) : Attribute → Stored
  | .pmin => .period attrs.values.standard.common.minPeriod
  | .pmax => .period attrs.values.standard.common.maxPeriod
  | .epmin => .period attrs.values.standard.common.minEvalPeriod
  | .epmax => .period attrs.values.standard.common.maxEvalPeriod
  | .gt => .double attrs.values.standard.greaterThan
  | .lt => .double attrs.values.standard.lessThan
  | .st => .double attrs.values.standard.step
  | .con => .con attrs.values.con

end RequestAttributes

/-- Which periods are in range, and whether a `double` must not be at the end of its range (`ERANGE`). -/
structure Ranges where
  maxPeriod : Int
  noErange : Bool

/-- What the value of an attribute denotes. A period is read in the notation of the C language: it may have a sign, and is
    octal after a 0 and hexadecimal after 0x. -/
inductive ValueText (strtod : List UInt8 → Strtod) (ranges : Ranges) :
    Attribute → Option (List UInt8) → Option Number → Prop
  | bare (a : Attribute) : ValueText strtod ranges a none none
  | period {a : Attribute} {text : List UInt8} {n : Int} (ha : a.isPeriod = true) (h : IntegerText text n)
      (hmin : 0 ≤ n) (hmax : n ≤ ranges.maxPeriod) : ValueText strtod ranges a (some text) (some (.int n))
  | double {a : Attribute} {c : UInt8} {cs : List UInt8} (ha : a.isDouble = true) (hspace : isSpace c = false)
      (hnul : 0 ∉ c :: cs) (hrest : (strtod (c :: cs)).rest = []) (hnan : (strtod (c :: cs)).value.isNaN = false)
      (herange : ranges.noErange = true → (strtod (c :: cs)).erange = false) :
      ValueText strtod ranges a (some (c :: cs)) (some (.double (strtod (c :: cs)).value))
  | non : ValueText strtod ranges .con (some [0x30]) (some (.int 0))
  | con : ValueText strtod ranges .con (some [0x31]) (some (.int 1))

/-- An attribute with the number that an option gives it. -/
abbrev Reading := Attribute × Option Number

/-- What an option denotes. -/
def Reads (strtod : List UInt8 → Strtod) (ranges : Ranges) (query : List UInt8) (reading : Reading) : Prop :=
  ∃ value, query = reading.1.option value ∧ ValueText strtod ranges reading.1 value reading.2

/-- What a sequence of options denotes: no attribute occurs twice. -/
structure ReadsAll (strtod : List UInt8 → Strtod) (ranges : Ranges) (queries : List (List UInt8))
    (readings : List Reading) : Prop where
  each : List.Forall₂ (Reads strtod ranges) queries readings
  once : (readings.map Prod.fst).Nodup

/-- Periods from 0 to 2147483647, and every number that is no NaN. -/
def Ranges.proper : Ranges := ⟨int32Max, false⟩

/-- What the conversions take. -/
def Ranges.converted : Ranges := ⟨llongMax, true⟩

/-- **What parsing should give**: success exactly for the sequences that denote something, and then the flags of
    the attributes that occur, with their numbers. -/
structure Meets (strtod : List UInt8 → Strtod) (queries : List (List UInt8)) (result : Option RequestAttributes) :
    Prop where
  succeeds : ∀ readings, ReadsAll strtod .proper queries readings → ∃ attrs, result = some attrs
  sound : ∀ attrs, result = some attrs → ∃ readings, ReadsAll strtod .proper queries readings ∧
    (∀ a, attrs.has a = true ↔ ∃ r ∈ readings, r.1 = a) ∧ ∀ r ∈ readings, (attrs.stored r.1).Is r.2

/-- Where the code does so. If the options denote something: they fit into the buffer, and no number is at the end of
    the range of `strtod`. If what is in front of their NULs denotes something, with periods up to the end of the
    range of `strtoll`: they have no NULs, and no period is above 2147483647. -/
structure Harmless (strtod : List UInt8 → Strtod) (size : Nat) (queries : List (List UInt8)) : Prop where
  fits : ∀ readings, ReadsAll strtod .proper queries readings → ∀ query ∈ queries, query.length + 1 ≤ size - 1
  inRange : ∀ readings, ReadsAll strtod .proper queries readings → ∀ query ∈ queries, ∀ a text,
    query = Attribute.option a (some text) → a.isDouble = true → (strtod text).erange = false
  noNul : ∀ readings, ReadsAll strtod .converted (queries.map cString) readings →
    (∀ query ∈ queries, query.length + 1 ≤ size - 1) → ∀ query ∈ queries, 0 ∉ query
  small : ∀ readings, ReadsAll strtod .converted (queries.map cString) readings →
    (∀ query ∈ queries, query.length + 1 ≤ size - 1) → ∀ r ∈ readings, ∀ n, r.1.isPeriod = true →
      r.2 = some (.int n) → n ≤ int32Max

end Anjay.Request
