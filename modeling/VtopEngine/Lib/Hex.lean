import Mathlib.Tactic.Common
import Mathlib.Tactic.IntervalCases

/-! # Hexadecimal text

Bytes as hexadecimal digits: read in either case, written in lower case.

* `hexDecode_hexEncode` — bytes are read back from their text.
* `toLower_of_hexDecode` — digits that are read as bytes are their text, up to the case of letters.
-/

namespace VtopEngine.Lib

open Option

/-- The value of a hexadecimal digit. -/
def hexDigit (digit : Char) : Option Nat :=
  if '0' ≤ digit ∧ digit ≤ '9' then some (digit.toNat - '0'.toNat)
  else if 'a' ≤ digit ∧ digit ≤ 'f' then some (digit.toNat - 'a'.toNat + 10)
  else if 'A' ≤ digit ∧ digit ≤ 'F' then some (digit.toNat - 'A'.toNat + 10)
  else none

/-- Two digits a byte; an odd number of digits is refused. -/
def hexDecode : List Char → Option (List UInt8)
  | [] => some []
  | [_] => none
  | high :: low :: rest => do
    let high ← hexDigit high
    let low ← hexDigit low
    let rest ← hexDecode rest
    return UInt8.ofNat (16 * high + low) :: rest

/-- The digit of a value below 16, in lower case. -/
def hexChar (value : Nat) : Char := Char.ofNat (if value < 10 then '0'.toNat + value else 'a'.toNat + (value - 10))

def hexEncode (bytes : List UInt8) : String :=
  String.ofList (bytes.flatMap fun byte => [hexChar (byte.toNat / 16), hexChar (byte.toNat % 16)])

variable {value : Nat}

theorem hexDigit_hexChar (small : value < 16) : hexDigit (hexChar value) = some value := by interval_cases value <;> decide

/-- A digit's code, and its value. -/
theorem hexDigit_cases (isDigit : hexDigit digit = some value) :
    (48 ≤ digit.toNat ∧ digit.toNat ≤ 57 ∧ value = digit.toNat - 48) ∨
      (97 ≤ digit.toNat ∧ digit.toNat ≤ 102 ∧ value = digit.toNat - 97 + 10) ∨
      (65 ≤ digit.toNat ∧ digit.toNat ≤ 70 ∧ value = digit.toNat - 65 + 10) := by
  unfold hexDigit at isDigit
  split_ifs at isDigit with decimal lower upper
  · exact .inl ⟨decimal.1, decimal.2, (some.inj isDigit).symm⟩
  · exact .inr (.inl ⟨lower.1, lower.2, (some.inj isDigit).symm⟩)
  · exact .inr (.inr ⟨upper.1, upper.2, (some.inj isDigit).symm⟩)

theorem hexDigit_lt (isDigit : hexDigit digit = some value) : value < 16 := by
  have cases := hexDigit_cases isDigit
  omega

/-- A digit in lower case is the one its value is written as. -/
theorem toLower_of_hexDigit (isDigit : hexDigit digit = some value) : digit.toLower = hexChar value := by
  have cases := hexDigit_cases isDigit
  rw [← Char.ofNat_toNat digit]
  generalize digit.toNat = code at cases ⊢
  rcases cases with ⟨first, last, rfl⟩ | ⟨first, last, rfl⟩ | ⟨first, last, rfl⟩
  all_goals interval_cases code <;> decide

theorem hexDecode_hexEncode (bytes) : hexDecode (hexEncode bytes).toList = some bytes := by
  rw [hexEncode, String.toList_ofList]
  induction bytes with
  | nil => rfl
  | cons byte bytes ih =>
    have small : byte.toNat < 256 := byte.toNat_lt
    have joined : 16 * (byte.toNat / 16) + byte.toNat % 16 = byte.toNat := Nat.div_add_mod _ _
    simp only [List.flatMap_cons, List.cons_append, List.nil_append, hexDecode,
      hexDigit_hexChar (show byte.toNat / 16 < 16 by omega), hexDigit_hexChar (show byte.toNat % 16 < 16 by omega),
      ih, joined, UInt8.ofNat_toNat, bind_eq_bind, bind_some, pure_def]

/-- Read digits, in lower case, are the text of the bytes they were read as. -/
theorem toLower_of_hexDecode (isBytes : hexDecode digits = some bytes) :
    digits.map Char.toLower = (hexEncode bytes).toList := by
  rw [hexEncode, String.toList_ofList]
  induction digits using hexDecode.induct generalizing bytes with
  | case1 =>
    obtain rfl := some.inj isBytes
    rfl
  | case2 => cases isBytes
  | case3 high low rest ih =>
    simp only [hexDecode, bind_eq_bind, bind_eq_some_iff, pure_def, some.injEq] at isBytes
    obtain ⟨highValue, isHigh, lowValue, isLow, restBytes, isRest, rfl⟩ := isBytes
    have highSmall := hexDigit_lt isHigh
    have lowSmall := hexDigit_lt isLow
    have spelled : (UInt8.ofNat (16 * highValue + lowValue)).toNat = 16 * highValue + lowValue := by
      simp only [UInt8.toNat_ofNat']
      omega
    have first : (16 * highValue + lowValue) / 16 = highValue := by omega
    have second : (16 * highValue + lowValue) % 16 = lowValue := by omega
    simp only [List.map_cons, toLower_of_hexDigit isHigh, toLower_of_hexDigit isLow, ih isRest,
      List.flatMap_cons, spelled, first, second, List.cons_append, List.nil_append]

end VtopEngine.Lib
