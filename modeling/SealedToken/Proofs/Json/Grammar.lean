import SealedToken.Json.Parser

/-!
# The grammar of JSON

The texts that spell a value, as rules apart from any reader. Blanks may stand around a value; a
number is kept as it is written; a character of a string has several spellings.

* `Json.IsNumeral`: numbers. A leading zero stands alone, and a point or an exponent has digits
  behind it.
* `Json.SpelledChar`, `Json.SpelledChars`: the spellings of characters inside a string.
* `Json.SpelledBy`: the spellings of values, one rule for each way to write one.
-/

namespace SealedToken.Json

/-- The characters are blanks. -/
def AllBlank (cs : List Char) : Prop := ∀ c ∈ cs, isBlank c = true

/-! ## Numbers -/

/-- Digits, at least one. -/
structure AllDigits (cs : List Char) : Prop where
  ne_nil : cs ≠ []
  digits : ∀ c ∈ cs, isDigit c = true

/-- The digits of an unsigned integer: zero, or digits of which the first is not zero. -/
inductive IsInteger : List Char → Prop where
  | zero : IsInteger ['0']
  | digits {c : Char} {cs : List Char} (hc : c ≠ '0') (h : AllDigits (c :: cs)) :
    IsInteger (c :: cs)

/-- A fraction, or none. -/
inductive IsFraction : List Char → Prop where
  | none : IsFraction []
  | digits {cs : List Char} (h : AllDigits cs) : IsFraction ('.' :: cs)

/-- An exponent with its letter and sign, or nothing. -/
inductive IsExponent : List Char → Prop where
  | none : IsExponent []
  | digits {e : Char} {sign cs : List Char} (he : e = 'e' ∨ e = 'E')
    (hsign : sign ∈ [[], ['+'], ['-']])
    (h : AllDigits cs) : IsExponent (e :: (sign ++ cs))

/-- A number literal. -/
inductive IsNumeral : List Char → Prop where
  | mk {minus integer fraction exponent : List Char} (hminus : minus ∈ [[], ['-']])
    (hinteger : IsInteger integer)
    (hfraction : IsFraction fraction) (hexponent : IsExponent exponent) :
    IsNumeral (minus ++ integer ++ fraction ++ exponent)

/-! ## Strings -/

/-- The letters of escapes, with the characters that they stand for. -/
def letterEscapes : List (Char × Char) :=
  [('"', '"'), ('\\', '\\'), ('/', '/'), ('b', '\x08'), ('f', '\x0c'), ('n', '\n'),
    ('r', '\r'), ('t', '\t')]

/-- Four hexadecimal digits and their number. -/
inductive IsUnit : List Char → Nat → Prop where
  | mk {a b c d : Char} {w x y z : Nat} (ha : hexValue? a = some w) (hb : hexValue? b = some x)
    (hc : hexValue? c = some y) (hd : hexValue? d = some z) : IsUnit [a, b, c, d]
    (((w * 16 + x) * 16 + y) * 16 + z)

/-- `SpelledChar c text`: the characters `text` spell `c` inside a string. -/
inductive SpelledChar : Char → List Char → Prop where
  /-- a character that is no quote, backslash or control character may stand for itself -/
  | self {c : Char} (hquote : c ≠ '"') (hslash : c ≠ '\\') (hcontrol : 0x20 ≤ c.toNat) :
    SpelledChar c [c]
  /-- a letter behind a backslash -/
  | letter {letter c : Char} (h : (letter, c) ∈ letterEscapes) : SpelledChar c ['\\', letter]
  /-- the code point in four hexadecimal digits -/
  | unit {c : Char} {digits : List Char} (h : IsUnit digits c.toNat) :
    SpelledChar c ('\\' :: 'u' :: digits)
  /-- the surrogate pair of a code point above 65535 -/
  | pair {c : Char} {highDigits lowDigits : List Char} {high low : Nat}
    (hhigh : IsUnit highDigits high)
    (hlow : IsUnit lowDigits low) (hhighRange : 0xd800 ≤ high ∧ high < 0xdc00)
    (hlowRange : 0xdc00 ≤ low ∧ low < 0xe000)
    (hc : c.toNat = 0x10000 + (high - 0xd800) * 0x400 + (low - 0xdc00)) :
    SpelledChar c ('\\' :: 'u' :: (highDigits ++ '\\' :: 'u' :: lowDigits))

/-- Spellings of the characters, one after the other. -/
inductive SpelledChars : (characters text : List Char) → Prop where
  | nil : SpelledChars [] []
  | cons {c : Char} {spelling cs text : List Char} (hc : SpelledChar c spelling)
    (hcs : SpelledChars cs text) :
    SpelledChars (c :: cs) (spelling ++ text)

/-- A string literal of the key, with blanks around it. -/
def SpelledKey (key : String) (text : List Char) : Prop :=
  ∃ before characters after, AllBlank before ∧ SpelledChars key.toList characters ∧ AllBlank after ∧
    text = before ++ '"' :: (characters ++ '"' :: after)

/-! ## Values -/

/-- A value with its text. -/
structure Item where
  value : Json
  text : List Char

/-- A member of an object and how its key and its value are written. -/
structure Member where
  key : String
  keyText : List Char
  value : Json
  valueText : List Char

/-- The text of the member: key, colon and value. -/
def Member.text (member : Member) : List Char := member.keyText ++ ':' :: member.valueText

/-- A member without its writing. -/
def Member.pair (member : Member) : String × Json := (member.key, member.value)

/-- The texts with commas between them. -/
def withCommas (texts : List (List Char)) : List Char := [','].intercalate texts

/-- The value is spelled by the text. -/
inductive SpelledBy : Json → List Char → Prop where
  | blankBefore {json : Json} {c : Char} {cs : List Char} (hc : isBlank c = true)
    (h : SpelledBy json cs) :
    SpelledBy json (c :: cs)
  | blankAfter {json : Json} {c : Char} {cs : List Char} (hc : isBlank c = true)
    (h : SpelledBy json cs) :
    SpelledBy json (cs ++ [c])
  | null : SpelledBy .null "null".toList
  | true : SpelledBy (.bool true) "true".toList
  | false : SpelledBy (.bool false) "false".toList
  | number {literal : String} (h : IsNumeral literal.toList) :
    SpelledBy (.number literal) literal.toList
  | string {text : String} {cs : List Char} (h : SpelledChars text.toList cs) :
    SpelledBy (.string text) ('"' :: (cs ++ ['"']))
  | emptyArray {cs : List Char} (h : AllBlank cs) : SpelledBy (.array []) ('[' :: (cs ++ [']']))
  | array {items : List Item} (hne : items ≠ [])
    (h : ∀ item ∈ items, SpelledBy item.value item.text) :
    SpelledBy (.array (items.map Item.value)) ('[' :: (withCommas (items.map Item.text) ++ [']']))
  | emptyObject {cs : List Char} (h : AllBlank cs) :
    SpelledBy (.object []) ('\x7b' :: (cs ++ ['\x7d']))
  | object {members : List Member} (hne : members ≠ [])
    (hkeys : ∀ member ∈ members, SpelledKey member.key member.keyText)
    (hvalues : ∀ member ∈ members, SpelledBy member.value member.valueText) :
    SpelledBy (.object (members.map Member.pair))
      ('\x7b' :: (withCommas (members.map Member.text) ++ ['\x7d']))

variable {json : Json} {cs : List Char}

theorem allBlank_nil : AllBlank [] := nofun

theorem AllBlank.append {bs : List Char} (h : AllBlank bs) (h' : AllBlank cs) :
    AllBlank (bs ++ cs) :=
  List.forall_mem_append.mpr ⟨h, h'⟩

theorem SpelledBy.blanksBefore {before : List Char} (hbefore : AllBlank before)
    (h : json.SpelledBy cs) :
    json.SpelledBy (before ++ cs) := by
  induction before with
  | nil => exact h
  | cons c before ih =>
    obtain ⟨hc, hbefore⟩ := List.forall_mem_cons.mp hbefore
    exact .blankBefore hc (ih hbefore)

theorem SpelledBy.blanksAfter {after : List Char} (hafter : AllBlank after)
    (h : json.SpelledBy cs) :
    json.SpelledBy (cs ++ after) := by
  induction after generalizing cs with
  | nil => rwa [List.append_nil]
  | cons c after ih =>
    obtain ⟨hc, hafter⟩ := List.forall_mem_cons.mp hafter
    have hmore := ih hafter (.blankAfter hc h)
    rwa [List.append_assoc] at hmore

/-- The literal of a number that a text spells is a number literal. -/
theorem SpelledBy.isNumeral {literal : String} (h : SpelledBy (.number literal) cs) :
    IsNumeral literal.toList := by
  generalize hjson : Json.number literal = json at h
  induction h with
  | blankBefore hc h ih | blankAfter hc h ih => exact ih hjson
  | number h => cases hjson; exact h
  | null | true | false | string | emptyArray | array | emptyObject | object => cases hjson

/-- Every value of an object is spelled by a part of its text. -/
theorem SpelledBy.exists_member {members : List (String × Json)}
    (h : SpelledBy (.object members) cs)
    {member : String × Json} (hmem : member ∈ members) : ∃ text, member.2.SpelledBy text := by
  generalize hjson : Json.object members = json at h
  induction h with
  | blankBefore hc h ih | blankAfter hc h ih => exact ih hjson
  | object hne hkeys hvalues ih =>
    cases hjson
    obtain ⟨written, hwritten, rfl⟩ := List.mem_map.mp hmem
    exact ⟨written.valueText, hvalues written hwritten⟩
  | emptyObject => cases hjson; cases hmem
  | null | true | false | number | string | emptyArray | array => cases hjson

end SealedToken.Json
