import VtopEngine.Lib.Hex

/-! # Compact JSON text

JSON values with their members in the order they are written, and their compact text: no blank
between tokens, strings with the escapes that are required and no other, integers in decimal.

* `Json.write` — the text of a value.
* `Json.write_injective` — a text is written by one value only.

The text of a value determines where it ends, once a comma, a closing brace or nothing follows
(`Ends`): the lemmas are stated on a text and what follows it, so that they compose.
-/

namespace VtopEngine.Lib

open List

mutual

inductive Json
  | null
  | num (value : Int)
  | str (text : String)
  | obj (members : Members)

/-- The members of an object, in the order they are written. -/
inductive Members
  | nil
  | cons (name : String) (value : Json) (rest : Members)

end

def Members.ofList : List (String × Json) → Members
  | [] => .nil
  | (name, value) :: rest => .cons name value (.ofList rest)

theorem Members.ofList_injective : Function.Injective ofList := by
  intro members members' same
  induction members generalizing members' with
  | nil =>
    cases members' with
    | nil => rfl
    | cons _ _ => cases same
  | cons member members ih =>
    cases members' with
    | nil => cases same
    | cons member' members' =>
      obtain ⟨sameName, sameValue, later⟩ := cons.inj same
      rw [Prod.ext sameName sameValue, ih later]

namespace Json

def object (members : List (String × Json)) : Json := .obj (.ofList members)

@[simp] theorem object_inj : object members = object members' ↔ members = members' := by
  constructor
  · exact fun same => Members.ofList_injective (Json.obj.inj same)
  · exact congrArg object

/-- A value that may be absent; written as `null` where it is. -/
def optStr : Option String → Json
  | none => .null
  | some text => .str text

@[simp] theorem optStr_inj : optStr text = optStr text' ↔ text = text' := by
  cases text <;> cases text' <;> simp [optStr]

def optNum : Option Nat → Json
  | none => .null
  | some value => .num value

@[simp] theorem optNum_inj : optNum value = optNum value' ↔ value = value' := by
  cases value <;> cases value' <;> simp [optNum]

/-- A quote, a backslash and the control characters are escaped. -/
def escape (char : Char) : List Char :=
  if char = '"' then ['\\', '"']
  else if char = '\\' then ['\\', '\\']
  else if char = Char.ofNat 8 then ['\\', 'b']
  else if char = '\t' then ['\\', 't']
  else if char = '\n' then ['\\', 'n']
  else if char = Char.ofNat 12 then ['\\', 'f']
  else if char = '\r' then ['\\', 'r']
  else if char.toNat < 32 then ['\\', 'u', '0', '0', hexChar (char.toNat / 16), hexChar (char.toNat % 16)]
  else [char]

def writeStr (text : String) : List Char := '"' :: text.toList.flatMap escape ++ ['"']

def writeNum : Int → List Char
  | .ofNat value => Nat.toDigits 10 value
  | .negSucc value => '-' :: Nat.toDigits 10 (value + 1)

mutual

def write : Json → List Char
  | .null => ['n', 'u', 'l', 'l']
  | .num value => writeNum value
  | .str text => writeStr text
  | .obj .nil => ['{', '}']
  | .obj (.cons name value rest) => '{' :: writeStr name ++ ':' :: write value ++ writeRest rest

/-- The members that follow another, and the closing brace. -/
def writeRest : Members → List Char
  | .nil => ['}']
  | .cons name value rest => ',' :: writeStr name ++ ':' :: write value ++ writeRest rest

end

/-! ## Strings -/

/-- The character at the beginning of a text, and what follows it. -/
def unescape : List Char → Option (Char × List Char)
  | '\\' :: '"' :: rest => some ('"', rest)
  | '\\' :: '\\' :: rest => some ('\\', rest)
  | '\\' :: 'b' :: rest => some (Char.ofNat 8, rest)
  | '\\' :: 't' :: rest => some ('\t', rest)
  | '\\' :: 'n' :: rest => some ('\n', rest)
  | '\\' :: 'f' :: rest => some (Char.ofNat 12, rest)
  | '\\' :: 'r' :: rest => some ('\r', rest)
  | '\\' :: 'u' :: '0' :: '0' :: high :: low :: rest => do
    let high ← hexDigit high
    let low ← hexDigit low
    return (Char.ofNat (16 * high + low), rest)
  | char :: rest => some (char, rest)
  | [] => none

theorem unescape_escape (char rest) : unescape (escape char ++ rest) = some (char, rest) := by
  unfold escape
  split_ifs with quote backslash backspace tab newline formFeed carriageReturn control
  pick_goal 8
  · have joined : 16 * (char.toNat / 16) + char.toNat % 16 = char.toNat := Nat.div_add_mod _ _
    simp only [cons_append, nil_append, unescape, hexDigit_hexChar (show char.toNat / 16 < 16 by omega),
      hexDigit_hexChar (show char.toNat % 16 < 16 by omega), joined, Char.ofNat_toNat, Option.bind_eq_bind,
      Option.bind_some, Option.pure_def]
  pick_goal 8
  · simp [unescape, backslash]
  all_goals
    subst char
    rfl

variable {rest rest' : List Char}

theorem escape_append_inj (same : escape first ++ rest = escape second ++ rest') : first = second ∧ rest = rest' := by
  have read := unescape_escape first rest
  rw [same, unescape_escape] at read
  exact ⟨(Prod.mk.inj (Option.some.inj read)).1.symm, (Prod.mk.inj (Option.some.inj read)).2.symm⟩

/-- No escape begins with a quote. -/
theorem escape_append_ne_quote (char rest after) : escape char ++ rest ≠ '"' :: after := by
  unfold escape
  split_ifs <;> simp_all

theorem chars_append_inj {chars chars' rest rest' : List Char}
    (same : chars.flatMap escape ++ '"' :: rest = chars'.flatMap escape ++ '"' :: rest') :
    chars = chars' ∧ rest = rest' := by
  induction chars generalizing chars' with
  | nil =>
    cases chars' with
    | nil => exact ⟨rfl, (cons.inj same).2⟩
    | cons char' chars' =>
      rw [flatMap_cons, append_assoc] at same
      exact absurd same.symm (escape_append_ne_quote _ _ _)
  | cons char chars ih =>
    cases chars' with
    | nil =>
      rw [flatMap_cons, append_assoc] at same
      exact absurd same (escape_append_ne_quote _ _ _)
    | cons char' chars' =>
      rw [flatMap_cons, append_assoc, flatMap_cons, append_assoc] at same
      obtain ⟨rfl, later⟩ := escape_append_inj same
      obtain ⟨rfl, rfl⟩ := ih later
      exact ⟨rfl, rfl⟩

theorem writeStr_append_inj (same : writeStr text ++ rest = writeStr text' ++ rest') : text = text' ∧ rest = rest' := by
  simp only [writeStr, cons_append, append_assoc, cons.injEq, true_and, nil_append] at same
  obtain ⟨chars, isRest⟩ := chars_append_inj same
  exact ⟨String.toList_injective chars, isRest⟩

/-! ## Numbers -/

/-- What may follow a value inside an object: nothing of a number can. -/
def Ends (rest : List Char) : Prop := ∀ char ∈ rest.head?, char = ',' ∨ char = '\x7d'

theorem digits_append_inj (all : ∀ char ∈ digits, char.isDigit)
    (all' : ∀ char ∈ digits', char.isDigit) (ends : Ends rest) (ends' : Ends rest')
    (same : digits ++ rest = digits' ++ rest') : digits = digits' ∧ rest = rest' := by
  have notDigit : ∀ {char chars}, Ends (char :: chars) → char.isDigit = false := by
    intro char chars ends
    rcases ends char rfl with rfl | rfl <;> rfl
  induction digits generalizing digits' with
  | nil =>
    cases digits' with
    | nil => exact ⟨rfl, same⟩
    | cons digit' digits' =>
      obtain rfl : rest = digit' :: digits' ++ rest' := same
      exact absurd (all' digit' mem_cons_self) (by simp [notDigit ends])
  | cons digit digits ih =>
    cases digits' with
    | nil =>
      obtain rfl : digit :: digits ++ rest = rest' := same
      exact absurd (all digit mem_cons_self) (by simp [notDigit ends'])
    | cons digit' digits' =>
      obtain ⟨rfl, later⟩ := cons.inj same
      obtain ⟨rfl, rfl⟩ := ih (fun char member => all char (.tail _ member))
        (fun char member => all' char (.tail _ member)) later
      exact ⟨rfl, rfl⟩

theorem toDigits_isDigit (value) : ∀ char ∈ Nat.toDigits 10 value, char.isDigit :=
  fun _ member => Nat.isDigit_of_mem_toDigits (by decide) (by decide) member

theorem toDigits_append_inj (ends : Ends rest) (ends' : Ends rest')
    (same : Nat.toDigits 10 value ++ rest = Nat.toDigits 10 value' ++ rest') : value = value' ∧ rest = rest' := by
  obtain ⟨digits, isRest⟩ := digits_append_inj (toDigits_isDigit value) (toDigits_isDigit value') ends ends' same
  have read := congrArg (Nat.ofDigitChars 10 · 0) digits
  rw [Nat.ofDigitChars_toDigits (by decide) (by decide), Nat.ofDigitChars_toDigits (by decide) (by decide)] at read
  exact ⟨read, isRest⟩

/-- A number begins with a digit, and with a sign only if it is negative. -/
theorem toDigits_append_ne_sign {after} : Nat.toDigits 10 value ++ rest ≠ '-' :: after := by
  intro same
  cases isDigits : Nat.toDigits 10 value with
  | nil => exact absurd isDigits (by simp)
  | cons digit digits =>
    have isDigit := toDigits_isDigit value digit (by simp [isDigits])
    rw [isDigits] at same
    obtain ⟨rfl, -⟩ := cons.inj same
    exact absurd isDigit (by decide)

theorem writeNum_append_inj (ends : Ends rest) (ends' : Ends rest')
    (same : writeNum value ++ rest = writeNum value' ++ rest') : value = value' ∧ rest = rest' := by
  cases value with
  | ofNat value =>
    cases value' with
    | ofNat value' =>
      obtain ⟨rfl, isRest⟩ := toDigits_append_inj ends ends' same
      exact ⟨rfl, isRest⟩
    | negSucc value' => exact absurd same toDigits_append_ne_sign
  | negSucc value =>
    cases value' with
    | ofNat value' => exact absurd same.symm toDigits_append_ne_sign
    | negSucc value' =>
      obtain ⟨isSame, isRest⟩ := toDigits_append_inj ends ends' (cons.inj same).2
      obtain rfl := Nat.succ.inj isSame
      exact ⟨rfl, isRest⟩

/-! ## Values -/

/-- What a text begins with tells the kind of its value. -/
def kindOf (char : Char) : Nat :=
  if char = 'n' then 0 else if char = '"' then 1 else if char = '\x7b' then 2 else 3

def kind : Json → Nat
  | .null => 0
  | .str _ => 1
  | .obj _ => 2
  | .num _ => 3

theorem kindOf_digit {char : Char} (isDigit : char.isDigit) : kindOf char = 3 := by
  unfold kindOf
  split_ifs <;> simp_all

theorem write_head (value : Json) : ∃ char rest, value.write = char :: rest ∧ kindOf char = value.kind := by
  cases value with
  | null | str text => exact ⟨_, _, rfl, rfl⟩
  | obj members => cases members <;> exact ⟨_, _, rfl, rfl⟩
  | num value =>
    cases value with
    | negSucc value => exact ⟨_, _, rfl, rfl⟩
    | ofNat value =>
      show ∃ char rest, Nat.toDigits 10 value = char :: rest ∧ kindOf char = 3
      cases isDigits : Nat.toDigits 10 value with
      | nil => exact absurd isDigits (by simp)
      | cons digit digits => exact ⟨digit, digits, rfl, kindOf_digit (toDigits_isDigit value digit (by simp [isDigits]))⟩

theorem kind_eq_of_write {value value' : Json}
    (same : value.write ++ rest = value'.write ++ rest') : value.kind = value'.kind := by
  obtain ⟨char, chars, isText, isKind⟩ := write_head value
  obtain ⟨char', chars', isText', isKind'⟩ := write_head value'
  rw [isText, isText'] at same
  rw [← isKind, ← isKind', (cons.inj same).1]

theorem writeRest_ends (members rest) : Ends (writeRest members ++ rest) := by
  cases members with
  | nil => exact fun char isHead => .inr (Option.some.inj isHead).symm
  | cons name value rest => exact fun char isHead => .inl (Option.some.inj isHead).symm

mutual

theorem write_append_inj (value value' : Json) (rest rest') (ends : Ends rest) (ends' : Ends rest')
    (same : value.write ++ rest = value'.write ++ rest') : value = value' ∧ rest = rest' := by
  have sameKind := kind_eq_of_write same
  match value, value' with
  | .null, .null => simpa [write] using same
  | .num number, .num number' =>
    obtain ⟨rfl, isRest⟩ := writeNum_append_inj ends ends' same
    exact ⟨rfl, isRest⟩
  | .str text, .str text' =>
    obtain ⟨rfl, isRest⟩ := writeStr_append_inj same
    exact ⟨rfl, isRest⟩
  | .obj .nil, .obj .nil => simpa [write] using same
  | .obj (.cons name member members), .obj (.cons name' member' members') =>
    simp only [write, cons_append, append_assoc, cons.injEq, true_and] at same
    obtain ⟨rfl, later⟩ := writeStr_append_inj same
    obtain ⟨rfl, others⟩ := write_append_inj member member' _ _ (writeRest_ends _ _) (writeRest_ends _ _) (cons.inj later).2
    obtain ⟨rfl, isRest⟩ := writeRest_append_inj members members' _ _ others
    exact ⟨rfl, isRest⟩
  | .obj .nil, .obj (.cons ..) | .obj (.cons ..), .obj .nil => simp [write, writeStr] at same
  | .null, .num _ | .null, .str _ | .null, .obj _ | .num _, .null | .num _, .str _ | .num _, .obj _
  | .str _, .null | .str _, .num _ | .str _, .obj _ | .obj _, .null | .obj _, .num _ | .obj _, .str _ => cases sameKind

theorem writeRest_append_inj (members members' rest rest')
    (same : writeRest members ++ rest = writeRest members' ++ rest') : members = members' ∧ rest = rest' := by
  match members, members' with
  | .nil, .nil => simpa [writeRest] using same
  | .cons name member members, .cons name' member' members' =>
    simp only [writeRest, cons_append, append_assoc, cons.injEq, true_and] at same
    obtain ⟨rfl, later⟩ := writeStr_append_inj same
    obtain ⟨rfl, others⟩ := write_append_inj member member' _ _ (writeRest_ends _ _) (writeRest_ends _ _) (cons.inj later).2
    obtain ⟨rfl, isRest⟩ := writeRest_append_inj members members' _ _ others
    exact ⟨rfl, isRest⟩
  | .nil, .cons .. | .cons .., .nil => simp [writeRest] at same

end

theorem write_injective : Function.Injective write := by
  intro value value' same
  have ends : Ends [] := fun _ isHead => nomatch isHead
  exact (write_append_inj value value' [] [] ends ends (congrArg (· ++ []) same)).1

/-- The bytes of a text: strings are UTF-8. -/
def toVec (value : Json) : List UInt8 := (String.ofList value.write).toByteArray.data.toList

theorem toVec_injective : Function.Injective toVec := by
  intro value value' same
  refine write_injective (String.ofList_inj.mp (String.toByteArray_inj.mp ?_))
  exact ByteArray.ext (Array.toList_inj.mp same)

end Json

/-- A way to write values as bytes, in which no two values are the same. -/
structure JsonWriter where
  toVec : Json → List UInt8
  injective : Function.Injective toVec

/-- The compact text. -/
def JsonWriter.compact : JsonWriter := ⟨Json.toVec, Json.toVec_injective⟩

end VtopEngine.Lib
