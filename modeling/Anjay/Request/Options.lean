/-
  File:      Anjay/Request/Options.lean
  Subject:   The options of a CoAP message, as `avs_coap_options_get_string_it` iterates over them.

  * `optionsGetStringIt_values`: one call takes the next value with the given number.
-/
import Anjay.Commons.Integer
import Anjay.Lib.Forall2

namespace Anjay.Request

open Text

/-! ## 1. Options -/

/-- An option of a CoAP message. -/
structure CoapOption where
  number : Nat
  value : List UInt8
  deriving DecidableEq, Repr

/-- `AVS_COAP_OPTION_URI_PATH` and `AVS_COAP_OPTION_URI_QUERY`. -/
def optionUriPath : Nat := 11

def optionUriQuery : Nat := 15

/-- What a call of `avs_coap_options_get_string_it` gives: `AVS_COAP_OPTION_MISSING`, another error, or what is put
    into the buffer and where the iterator is then. -/
inductive StringIt
  | missing
  | failed
  | text (buffer : List UInt8) (it : List CoapOption)
  deriving DecidableEq, Repr

/-- `avs_coap_options_get_string_it`, with `_avs_coap_option_string_value`, which needs room for a NUL. -/
def optionsGetStringIt (number bufferSize : Nat) : List CoapOption → StringIt
  | [] => .missing
  | o :: it =>
      if o.number = number then
        if bufferSize < o.value.length + 1 then .failed else .text o.value it
      else optionsGetStringIt number bufferSize it

/-- What string functions see of a buffer: the bytes in front of the first NUL. -/
def cString (buffer : List UInt8) : List UInt8 := buffer.takeWhile (· != 0)

/-- The values of the options with a number. -/
def optionValues (number : Nat) (opts : List CoapOption) : List (List UInt8) :=
  (opts.filter fun o => o.number == number).map CoapOption.value

/-- **One call takes the next value with the number.** -/
theorem optionsGetStringIt_values (number bufferSize : Nat) : ∀ it : List CoapOption,
    match optionValues number it with
    | [] => optionsGetStringIt number bufferSize it = .missing
    | value :: values =>
        if bufferSize < value.length + 1 then optionsGetStringIt number bufferSize it = .failed
        else ∃ rest, optionsGetStringIt number bufferSize it = .text value rest ∧ optionValues number rest = values
  | [] => rfl
  | o :: it => by
      by_cases ho : o.number = number
      · have hvalues : optionValues number (o :: it) = o.value :: optionValues number it := by
          unfold optionValues
          rw [List.filter_cons_of_pos (by simpa using ho), List.map_cons]
        rw [hvalues, optionsGetStringIt, if_pos ho]
        dsimp only
        by_cases hsize : bufferSize < o.value.length + 1
        · rw [if_pos hsize, if_pos hsize]
        · rw [if_neg hsize, if_neg hsize]
          exact ⟨it, rfl, rfl⟩
      · have hvalues : optionValues number (o :: it) = optionValues number it := by
          unfold optionValues
          rw [List.filter_cons_of_neg (by simpa using ho)]
        rw [hvalues, optionsGetStringIt, if_neg ho]
        exact optionsGetStringIt_values number bufferSize it

theorem optionsGetStringIt_missing {number bufferSize : Nat} {it : List CoapOption}
    (h : optionValues number it = []) : optionsGetStringIt number bufferSize it = .missing := by
  have hnext := optionsGetStringIt_values number bufferSize it
  rw [h] at hnext
  exact hnext

theorem optionsGetStringIt_failed {number bufferSize : Nat} {it : List CoapOption} {value : List UInt8}
    {values : List (List UInt8)} (h : optionValues number it = value :: values)
    (hsize : bufferSize < value.length + 1) : optionsGetStringIt number bufferSize it = .failed := by
  have hnext := optionsGetStringIt_values number bufferSize it
  rw [h] at hnext
  dsimp only at hnext
  rwa [if_pos hsize] at hnext

theorem optionsGetStringIt_text {number bufferSize : Nat} {it : List CoapOption} {value : List UInt8}
    {values : List (List UInt8)} (h : optionValues number it = value :: values)
    (hsize : ¬bufferSize < value.length + 1) :
    ∃ rest, optionsGetStringIt number bufferSize it = .text value rest ∧ optionValues number rest = values := by
  have hnext := optionsGetStringIt_values number bufferSize it
  rw [h] at hnext
  dsimp only at hnext
  rwa [if_neg hsize] at hnext

/-- The iterator moves on. -/
theorem optionsGetStringIt_length {number bufferSize : Nat} : ∀ {it rest : List CoapOption} {buffer : List UInt8},
    optionsGetStringIt number bufferSize it = .text buffer rest → rest.length < it.length
  | [], _, _, h => nomatch h
  | o :: it, rest, buffer, h => by
      rw [optionsGetStringIt] at h
      split at h
      · split at h
        · cases h
        · cases h
          exact Nat.lt_succ_self _
      · exact Nat.lt_succ_of_lt (optionsGetStringIt_length h)

/-! ## 2. Strings -/

theorem cString_noNul (buffer : List UInt8) : 0 ∉ cString buffer := by
  intro h
  have hne := List.mem_takeWhile_imp h
  simp at hne

theorem cString_eq_self {buffer : List UInt8} (h : 0 ∉ buffer) : cString buffer = buffer := by
  have hall : ∀ c ∈ buffer, (c != 0) = true := by
    intro c hc
    rw [bne_iff_ne]
    rintro rfl
    exact h hc
  exact (takeWhile_all hall).1

theorem map_cString {queries : List (List UInt8)} (h : ∀ query ∈ queries, 0 ∉ query) :
    queries.map cString = queries := by
  have hmap := List.map_congr_left fun query hq => cString_eq_self (h query hq)
  rwa [List.map_id'] at hmap

end Anjay.Request
