import SealedToken.Json.Basic

/-!
# Reading JSON

Only the strict form is read: no comments, no trailing commas, no leading zeros, no control
characters in strings, no half of a surrogate pair, and nothing but blanks around the value.

* `Json.parse?`: the value that a text spells.
* `Json.readValue`: the value at the start of a text, and the rest of the text.
-/

namespace SealedToken.Json

/-- A reader takes a value from the start of a text and returns the rest. -/
abbrev Reader (α : Type) := List Char → Option (α × List Char)

/-! ## Blanks and literals -/

/-- Space, tab, line feed and carriage return. -/
def isBlank (c : Char) : Bool := c = ' ' || c = '\t' || c = '\n' || c = '\r'

/-- The text after its leading blanks. -/
def skipBlanks (cs : List Char) : List Char := cs.dropWhile isBlank

/-- The text after `word`, with which it must start. -/
def readWord : (word : List Char) → List Char → Option (List Char)
  | [], cs => some cs
  | w :: word, c :: cs => if w = c then readWord word cs else none
  | _ :: _, [] => none

/-! ## Numbers -/

/-- A decimal digit. -/
def isDigit (c : Char) : Bool := '0' ≤ c && c ≤ '9'

/-- The leading digits, of which there must be some. -/
def readDigits : Reader (List Char) := fun cs =>
  match cs.takeWhile isDigit with
  | [] => none
  | digits => some (digits, cs.dropWhile isDigit)

/-- An integer without sign. A leading zero stands alone. -/
def readInteger : Reader (List Char)
  | '0' :: cs => some (['0'], cs)
  | cs => readDigits cs

/-- A fraction, if there is one. -/
def readFraction : Reader (List Char)
  | '.' :: cs => do
    let (digits, cs) ← readDigits cs
    some ('.' :: digits, cs)
  | cs => some ([], cs)

/-- The sign of an exponent, if there is one. -/
def readSign : List Char → List Char × List Char
  | '+' :: cs => (['+'], cs)
  | '-' :: cs => (['-'], cs)
  | cs => ([], cs)

/-- An exponent, if there is one. -/
def readExponent : Reader (List Char)
  | c :: cs =>
    if c = 'e' ∨ c = 'E' then do
      let (sign, cs) := readSign cs
      let (digits, cs) ← readDigits cs
      some (c :: (sign ++ digits), cs)
    else some ([], c :: cs)
  | [] => some ([], [])

/-- A number, as it is written. -/
def readNumber : Reader String := fun cs => do
  let (minus, cs) := match cs with
    | '-' :: cs => (['-'], cs)
    | cs => ([], cs)
  let (integer, cs) ← readInteger cs
  let (fraction, cs) ← readFraction cs
  let (exponent, cs) ← readExponent cs
  some (String.ofList (minus ++ integer ++ fraction ++ exponent), cs)

/-! ## Strings -/

/-- The value of a hexadecimal digit of either case. -/
def hexValue? (c : Char) : Option Nat :=
  if '0' ≤ c ∧ c ≤ '9' then some (c.toNat - 48)
  else if 'a' ≤ c ∧ c ≤ 'f' then some (c.toNat - 87)
  else if 'A' ≤ c ∧ c ≤ 'F' then some (c.toNat - 55)
  else none

/-- The value of four hexadecimal digits. -/
def readUnit : Reader Nat
  | a :: b :: c :: d :: cs => do
    let a ← hexValue? a
    let b ← hexValue? b
    let c ← hexValue? c
    let d ← hexValue? d
    some (((a * 16 + b) * 16 + c) * 16 + d, cs)
  | _ => none

/-- The character of an escape by number, after its `u`. One beyond the first 65536 takes two, the
halves of a surrogate pair. -/
def readUnicodeEscape : Reader Char := fun cs => do
  let (unit, cs) ← readUnit cs
  if 0xd800 ≤ unit ∧ unit < 0xdc00 then
    match cs with
    | '\\' :: 'u' :: cs => do
      let (low, cs) ← readUnit cs
      if 0xdc00 ≤ low ∧ low < 0xe000 then
        some (Char.ofNat (0x10000 + (unit - 0xd800) * 0x400 + (low - 0xdc00)), cs)
      else none
    | _ => none
  else if 0xdc00 ≤ unit ∧ unit < 0xe000 then none
  else some (Char.ofNat unit, cs)

/-- The character of an escape, after its backslash. -/
def readEscape : Reader Char
  | '"' :: cs => some ('"', cs)
  | '\\' :: cs => some ('\\', cs)
  | '/' :: cs => some ('/', cs)
  | 'b' :: cs => some ('\x08', cs)
  | 'f' :: cs => some ('\x0c', cs)
  | 'n' :: cs => some ('\n', cs)
  | 'r' :: cs => some ('\r', cs)
  | 't' :: cs => some ('\t', cs)
  | 'u' :: cs => readUnicodeEscape cs
  | _ => none

/-- The rest of a string after its opening quote. The text has at most `fuel` characters. -/
def readCharacters : (fuel : Nat) → Reader (List Char)
  | 0, _ => none
  | _ + 1, [] => none
  | fuel + 1, c :: cs =>
    if c = '"' then some ([], cs)
    else if c = '\\' then do
      let (c, cs) ← readEscape cs
      let (rest, cs) ← readCharacters fuel cs
      some (c :: rest, cs)
    else if c.toNat < 0x20 then none
    else do
      let (rest, cs) ← readCharacters fuel cs
      some (c :: rest, cs)

/-- A string, from its opening quote on. -/
def readString : Reader String
  | '"' :: cs => do
    let (characters, cs) ← readCharacters cs.length cs
    some (String.ofList characters, cs)
  | _ => none

/-! ## Values -/

/-- One or more items separated by commas, and `close` after the last. The text has at most `fuel`
characters. -/
def readItems {α : Type} (item : Reader α) (close : Char) : (fuel : Nat) → Reader (List α)
  | 0, _ => none
  | fuel + 1, cs => do
    let (first, cs) ← item cs
    match skipBlanks cs with
    | c :: cs =>
      if c = close then some ([first], cs)
      else if c = ',' then do
        let (rest, cs) ← readItems item close fuel cs
        some (first :: rest, cs)
      else none
    | [] => none

/-- The items of an array or the members of an object after the opening bracket; there
may be none. -/
def readSequence {α : Type} (item : Reader α) (close : Char) : Reader (List α) := fun cs =>
  match skipBlanks cs with
  | c :: cs => if c = close then some ([], cs) else readItems item close (cs.length + 1) (c :: cs)
  | [] => none

/-- A key, a colon and a value. -/
def readMember (value : Reader Json) : Reader (String × Json) := fun cs => do
  let (key, cs) ← readString (skipBlanks cs)
  match skipBlanks cs with
  | ':' :: cs => do
    let (value, cs) ← value cs
    some ((key, value), cs)
  | _ => none

/-- A value, after any blanks. Values are nested at most `fuel` deep. -/
def readValue : (fuel : Nat) → Reader Json
  | 0, _ => none
  | fuel + 1, cs =>
    match skipBlanks cs with
    | '[' :: cs => do
      let (items, cs) ← readSequence (readValue fuel) ']' cs
      some (.array items, cs)
    | '\x7b' :: cs => do
      let (members, cs) ← readSequence (readMember (readValue fuel)) '\x7d' cs
      some (.object members, cs)
    | '"' :: cs => do
      let (text, cs) ← readString ('"' :: cs)
      some (.string text, cs)
    | 'n' :: cs => (readWord "ull".toList cs).map fun cs => (.null, cs)
    | 't' :: cs => (readWord "rue".toList cs).map fun cs => (.bool true, cs)
    | 'f' :: cs => (readWord "alse".toList cs).map fun cs => (.bool false, cs)
    | cs => (readNumber cs).map fun (literal, cs) => (.number literal, cs)

/-- The value that a text spells, nothing but blanks around it. -/
def parse? (text : String) : Option Json := do
  let cs := text.toList
  let (value, rest) ← readValue (cs.length + 1) cs
  if skipBlanks rest = [] then some value else none

end SealedToken.Json
