import Mathlib.Data.List.TakeWhile
import SealedToken.Proofs.Json.Grammar
import SealedToken.Proofs.Text.Utf8

/-!
# The tokens of JSON

Each reader takes the longest piece of its kind. There are two lemmas for each: it takes a piece of
the grammar in front of a text that does not go on with more of it (`_append`), and what it takes is
such a piece (`exists_of_`).

* `StopsBefore`: a text that does not go on.
* `exists_blanks`: blanks.
* `readNumber_append`, `exists_of_readNumber`: numbers, by their parts.
* `readString_append`, `exists_of_readString`: strings, by their characters.
-/

namespace SealedToken.Json

variable {cs rest : List Char}

/-- The text is empty or begins with a character outside the class. -/
def StopsBefore (class? : Char → Bool) (rest : List Char) : Prop :=
  ∀ c ∈ rest.head?, class? c = false

theorem StopsBefore.append {class? : Char → Bool} (h : StopsBefore class? cs)
    (hrest : StopsBefore class? rest) :
    StopsBefore class? (cs ++ rest) := by
  cases cs with
  | nil => exact hrest
  | cons c cs => exact h

theorem StopsBefore.mono {class? wider? : Char → Bool} (h : StopsBefore wider? rest)
    (hle : ∀ c, class? c = true → wider? c = true) : StopsBefore class? rest := by
  intro c hc
  have hwider := h c hc
  rw [Bool.eq_false_iff] at hwider ⊢
  exact fun hclass => hwider (hle c hclass)

/-- The characters that extend an integer: a digit or a decimal point. -/
def afterInteger (c : Char) : Bool := isDigit c || c = '.'

/-- A character that a number may go on with. -/
def inNumber (c : Char) : Bool := afterInteger c || c = 'e' || c = 'E'

theorem StopsBefore.afterInteger (h : StopsBefore inNumber rest) : StopsBefore afterInteger rest :=
  h.mono fun c hc => by simp [inNumber, hc]

theorem StopsBefore.isDigit (h : StopsBefore Json.afterInteger rest) : StopsBefore isDigit rest :=
  h.mono fun c hc => by simp [Json.afterInteger, hc]

/-! ## Blanks -/

theorem skipBlanks_append (h : AllBlank cs) : skipBlanks (cs ++ rest) = skipBlanks rest :=
  List.dropWhile_append_of_pos h

theorem skipBlanks_cons {c : Char} (h : isBlank c = false) : skipBlanks (c :: cs) = c :: cs :=
  List.dropWhile_cons_of_neg (by simp [h])

/-- `skipBlanks` drops the leading blanks of a text and nothing else. -/
theorem exists_blanks (cs : List Char) : ∃ blanks, AllBlank blanks ∧ cs = blanks ++ skipBlanks cs :=
  ⟨cs.takeWhile isBlank, fun _ hc => List.mem_takeWhile_imp hc,
    (List.takeWhile_append_dropWhile ..).symm⟩

theorem skipBlanks_skipBlanks (cs : List Char) : skipBlanks (skipBlanks cs) = skipBlanks cs := by
  obtain ⟨blanks, hblanks, hcs⟩ := exists_blanks cs
  conv => rhs; rw [hcs, skipBlanks_append hblanks]

/-! ## Numbers -/

theorem readDigits_append {digits : List Char} (h : AllDigits digits)
    (hrest : StopsBefore isDigit rest) :
    readDigits (digits ++ rest) = some (digits, rest) := by
  have hstop : rest.takeWhile isDigit = [] ∧ rest.dropWhile isDigit = rest := by
    cases rest with
    | nil => exact ⟨rfl, rfl⟩
    | cons c rest =>
      have hc := hrest c rfl
      exact ⟨List.takeWhile_cons_of_neg (by simp [hc]), List.dropWhile_cons_of_neg (by simp [hc])⟩
  rw [readDigits, List.takeWhile_append_of_pos h.digits,
    List.dropWhile_append_of_pos h.digits, hstop.1, hstop.2, List.append_nil]
  cases digits with
  | nil => exact absurd rfl h.ne_nil
  | cons c digits => rfl

theorem exists_of_readDigits {digits : List Char} (h : readDigits cs = some (digits, rest)) :
    cs = digits ++ rest ∧ AllDigits digits := by
  rw [readDigits] at h
  split at h
  · cases h
  · next hne =>
    cases h
    exact ⟨(List.takeWhile_append_dropWhile ..).symm, hne, fun _ hc => List.mem_takeWhile_imp hc⟩

theorem readInteger_append {integer : List Char} (h : IsInteger integer)
    (hrest : StopsBefore isDigit rest) :
    readInteger (integer ++ rest) = some (integer, rest) := by
  cases h with
  | zero => rfl
  | @digits c cs hc h =>
    rw [List.cons_append, readInteger]
    · exact readDigits_append h hrest
    · rintro _ ⟨⟩
      exact hc rfl

theorem exists_of_readInteger {integer : List Char} (h : readInteger cs = some (integer, rest)) :
    cs = integer ++ rest ∧ IsInteger integer := by
  unfold readInteger at h
  split at h
  · cases h
    exact ⟨rfl, .zero⟩
  · next hzero =>
    obtain ⟨rfl, hdigits⟩ := exists_of_readDigits h
    refine ⟨rfl, ?_⟩
    cases integer with
    | nil => exact absurd rfl hdigits.ne_nil
    | cons c integer => exact .digits (fun hc => hzero _ (by rw [hc]; rfl)) hdigits

theorem readFraction_append {fraction : List Char} (h : IsFraction fraction)
    (hrest : StopsBefore afterInteger rest) :
    readFraction (fraction ++ rest) = some (fraction, rest) := by
  cases h with
  | none =>
    rw [List.nil_append, readFraction]
    rintro tail rfl
    simpa [afterInteger] using hrest '.' rfl
  | digits h =>
    rw [List.cons_append, readFraction, readDigits_append h hrest.isDigit]
    rfl

theorem exists_of_readFraction {fraction : List Char}
    (h : readFraction cs = some (fraction, rest)) :
    cs = fraction ++ rest ∧ IsFraction fraction := by
  unfold readFraction at h
  split at h
  · simp only [Option.bind_eq_bind, Option.bind_eq_some_iff, Prod.exists] at h
    obtain ⟨digits, tail, hread, he⟩ := h
    obtain ⟨rfl, hdigits⟩ := exists_of_readDigits hread
    cases he
    exact ⟨rfl, .digits hdigits⟩
  · cases h
    exact ⟨rfl, .none⟩

theorem readSign_append {sign : List Char} (h : sign ∈ [[], ['+'], ['-']])
    (hrest : StopsBefore (fun c => c = '+' || c = '-') rest) :
    readSign (sign ++ rest) = (sign, rest) := by
  simp only [List.mem_cons, List.not_mem_nil, or_false] at h
  rcases h with rfl | rfl | rfl
  · rw [List.nil_append, readSign]
    · rintro tail rfl
      simpa using hrest '+' rfl
    · rintro tail rfl
      simpa using hrest '-' rfl
  · rfl
  · rfl

theorem exists_of_readSign {sign : List Char} (h : readSign cs = (sign, rest)) :
    cs = sign ++ rest ∧ sign ∈ [[], ['+'], ['-']] := by
  unfold readSign at h
  split at h <;> cases h <;> simp

theorem readExponent_append {exponent : List Char} (h : IsExponent exponent)
    (hrest : StopsBefore inNumber rest) :
    readExponent (exponent ++ rest) = some (exponent, rest) := by
  cases h with
  | none =>
    cases rest with
    | nil => rfl
    | cons c rest =>
      have hc := hrest c rfl
      simp only [inNumber, Bool.or_eq_false_iff, decide_eq_false_iff_not] at hc
      rw [List.nil_append, readExponent, if_neg (by simp [hc])]
  | @digits e sign digits he hsign h =>
    have hsigned : StopsBefore (fun c => c = '+' || c = '-') (digits ++ rest) := by
      cases digits with
      | nil => exact absurd rfl h.ne_nil
      | cons d digits =>
        rintro _ ⟨⟩
        have hd := h.digits d List.mem_cons_self
        rw [Bool.or_eq_false_iff, decide_eq_false_iff_not, decide_eq_false_iff_not]
        exact ⟨by rintro rfl; simp [isDigit] at hd, by rintro rfl; simp [isDigit] at hd⟩
    rw [List.cons_append, readExponent, if_pos he, List.append_assoc, readSign_append hsign hsigned]
    dsimp only
    rw [readDigits_append h hrest.afterInteger.isDigit]
    rfl

theorem exists_of_readExponent {exponent : List Char}
    (h : readExponent cs = some (exponent, rest)) :
    cs = exponent ++ rest ∧ IsExponent exponent := by
  unfold readExponent at h
  split at h
  · next c tail =>
    split at h
    · next he =>
      rcases hsigned : readSign tail with ⟨sign, left⟩
      obtain ⟨rfl, hsign⟩ := exists_of_readSign hsigned
      simp only [hsigned, Option.bind_eq_bind, Option.bind_eq_some_iff, Prod.exists] at h
      obtain ⟨digits, left, hread, hsome⟩ := h
      obtain ⟨rfl, hdigits⟩ := exists_of_readDigits hread
      cases hsome
      exact ⟨by simp, .digits he hsign hdigits⟩
    · cases h
      exact ⟨rfl, .none⟩
  · cases h
    exact ⟨rfl, .none⟩

theorem IsFraction.stopsBefore {fraction : List Char} (h : IsFraction fraction) :
    StopsBefore isDigit fraction := by
  cases h with
  | none => exact nofun
  | digits h =>
    rintro _ ⟨⟩
    rfl

theorem IsExponent.stopsBefore {exponent : List Char} (h : IsExponent exponent) :
    StopsBefore afterInteger exponent := by
  cases h with
  | none => exact nofun
  | digits he hsign h =>
    rintro _ ⟨⟩
    rcases he with rfl | rfl <;> rfl

theorem readNumber_append {literal : List Char} (h : IsNumeral literal)
    (hrest : StopsBefore inNumber rest) :
    readNumber (literal ++ rest) = some (String.ofList literal, rest) := by
  obtain ⟨hminus, hinteger, hfraction, hexponent⟩ := h
  rename_i minus integer fraction exponent
  -- each part ends where the next one begins
  have hafterFraction : StopsBefore afterInteger (exponent ++ rest) :=
    hexponent.stopsBefore.append hrest.afterInteger
  have hafterInteger : StopsBefore isDigit (fraction ++ (exponent ++ rest)) :=
    hfraction.stopsBefore.append hafterFraction.isDigit
  have hread := readInteger_append hinteger hafterInteger
  have hunsigned : ∀ tail, integer ++ (fraction ++ (exponent ++ rest)) ≠ '-' :: tail := by
    intro tail he
    rw [he] at hread
    simp [readInteger, readDigits, isDigit] at hread
  simp only [List.mem_cons, List.not_mem_nil, or_false] at hminus
  simp only [List.append_assoc, readNumber]
  rcases hminus with rfl | rfl
  · rw [List.nil_append]
    split
    · next tail he => exact absurd he (hunsigned tail)
    · simp [hread, readFraction_append hfraction hafterFraction,
        readExponent_append hexponent hrest]
  · simp [hread, readFraction_append hfraction hafterFraction, readExponent_append hexponent hrest]

theorem exists_of_readNumber {literal : String} (h : readNumber cs = some (literal, rest)) :
    cs = literal.toList ++ rest ∧ IsNumeral literal.toList := by
  unfold readNumber at h
  split at h
  next minus unsigned hsplit =>
  have hminus : cs = minus ++ unsigned ∧ minus ∈ [[], ['-']] := by
    split at hsplit <;> cases hsplit <;> simp
  obtain ⟨rfl, hminus⟩ := hminus
  simp only [Option.bind_eq_bind, Option.bind_eq_some_iff, Prod.exists] at h
  obtain ⟨integer, _, hread, fraction, _, hread', exponent, _, hread'', hsome⟩ := h
  obtain ⟨rfl, hinteger⟩ := exists_of_readInteger hread
  obtain ⟨rfl, hfraction⟩ := exists_of_readFraction hread'
  obtain ⟨rfl, hexponent⟩ := exists_of_readExponent hread''
  cases hsome
  rw [String.toList_ofList]
  exact ⟨by simp only [List.append_assoc], .mk hminus hinteger hfraction hexponent⟩

/-! ## Strings -/

theorem readUnit_append {digits : List Char} {n : Nat} (h : IsUnit digits n) :
    readUnit (digits ++ rest) = some (n, rest) := by
  obtain ⟨ha, hb, hc, hd⟩ := h
  simp [readUnit, ha, hb, hc, hd]

theorem exists_of_readUnit {n : Nat} (h : readUnit cs = some (n, rest)) :
    ∃ digits, cs = digits ++ rest ∧ IsUnit digits n := by
  unfold readUnit at h
  split at h
  · next a b c d cs =>
    simp only [Option.bind_eq_bind, Option.bind_eq_some_iff] at h
    obtain ⟨w, ha, x, hb, y, hc, z, hd, hsome⟩ := h
    cases hsome
    exact ⟨[a, b, c, d], rfl, .mk ha hb hc hd⟩
  · cases h

theorem hexValue?_lt {c : Char} {n : Nat} (h : hexValue? c = some n) : n < 16 := by
  have hsub : ∀ {low high : Char} {k : Nat}, low ≤ c ∧ c ≤ high →
      high.toNat < k + 16 → c.toNat - k < 16 := by
    intro low high k hc hhigh
    have hle : c.toNat ≤ high.toNat := UInt32.le_iff_toNat_le.mp hc.2
    omega
  unfold hexValue? at h
  split at h
  · next hc =>
    cases h
    exact hsub hc (by decide)
  split at h
  · next hc =>
    cases h
    exact hsub hc (by decide)
  split at h
  · next hc =>
    cases h
    exact hsub hc (by decide)
  · cases h

theorem IsUnit.lt {digits : List Char} {n : Nat} (h : IsUnit digits n) : n < 0x10000 := by
  obtain ⟨ha, hb, hc, hd⟩ := h
  have hw := hexValue?_lt ha
  have hx := hexValue?_lt hb
  have hy := hexValue?_lt hc
  have hz := hexValue?_lt hd
  omega

/-- `readEscape` reads the spelling of a character behind its backslash. -/
theorem readEscape_append {c : Char} {spelling : List Char} (h : SpelledChar c ('\\' :: spelling)) :
    readEscape (spelling ++ rest) = some (c, rest) := by
  cases h with
  | self hquote hslash hcontrol => exact absurd rfl hslash
  | letter h =>
    simp only [letterEscapes, List.mem_cons, List.not_mem_nil, or_false, Prod.mk.injEq] at h
    rcases h with ⟨rfl, rfl⟩ | ⟨rfl, rfl⟩ | ⟨rfl, rfl⟩ | ⟨rfl, rfl⟩ | ⟨rfl, rfl⟩ | ⟨rfl, rfl⟩
      | ⟨rfl, rfl⟩ | ⟨rfl, rfl⟩ <;> rfl
  | unit h =>
    have hvalid : c.toNat.isValidChar := c.valid
    unfold Nat.isValidChar at hvalid
    rw [List.cons_append, readEscape, readUnicodeEscape, readUnit_append h]
    simp only [Option.bind_eq_bind, Option.bind_some]
    rw [if_neg (by omega), if_neg (by omega), Char.ofNat_toNat]
  | pair hhigh hlow hhighRange hlowRange hc =>
    rw [List.cons_append, List.append_assoc, readEscape, readUnicodeEscape, readUnit_append hhigh]
    simp only [Option.bind_eq_bind, Option.bind_some]
    rw [if_pos hhighRange, List.cons_append, List.cons_append]
    simp only [readUnit_append hlow, Option.bind_some]
    rw [if_pos hlowRange, ← hc, Char.ofNat_toNat]

theorem exists_of_readUnicodeEscape {c : Char} (h : readUnicodeEscape cs = some (c, rest)) :
    ∃ spelling, cs = spelling ++ rest ∧ SpelledChar c ('\\' :: 'u' :: spelling) := by
  unfold readUnicodeEscape at h
  simp only [Option.bind_eq_bind, Option.bind_eq_some_iff, Prod.exists] at h
  obtain ⟨unit, tail, hread, h⟩ := h
  obtain ⟨digits, rfl, hunit⟩ := exists_of_readUnit hread
  have hlt := hunit.lt
  split at h
  · next hhigh =>
    split at h
    · simp only [Option.bind_eq_some_iff, Prod.exists] at h
      obtain ⟨low, tail, hread, h⟩ := h
      obtain ⟨lowDigits, rfl, hlow⟩ := exists_of_readUnit hread
      split at h
      · next hrange =>
        rw [Option.some.injEq, Prod.mk.injEq] at h
        obtain ⟨rfl, rfl⟩ := h
        refine ⟨digits ++ '\\' :: 'u' :: lowDigits,
          by simp, .pair hunit hlow hhigh hrange (toNat_charOfNat ?_)⟩
        unfold Nat.isValidChar
        omega
      · cases h
    · cases h
  · split at h
    · cases h
    · rw [Option.some.injEq, Prod.mk.injEq] at h
      obtain ⟨rfl, rfl⟩ := h
      have hvalid : unit.isValidChar := by
        unfold Nat.isValidChar
        omega
      refine ⟨digits, rfl, .unit ?_⟩
      rwa [toNat_charOfNat hvalid]

theorem exists_of_readEscape {c : Char} (h : readEscape cs = some (c, rest)) :
    ∃ spelling, cs = spelling ++ rest ∧ SpelledChar c ('\\' :: spelling) := by
  have hletter : ∀ letter, (letter, c) ∈ letterEscapes → cs = letter :: rest →
      ∃ spelling, cs = spelling ++ rest ∧ SpelledChar c ('\\' :: spelling) := by
    intro letter hmem hcs
    exact ⟨[letter], hcs, .letter hmem⟩
  unfold readEscape at h
  split at h
  case h_9 tail =>
    obtain ⟨spelling, rfl, hspelled⟩ := exists_of_readUnicodeEscape h
    exact ⟨'u' :: spelling, rfl, hspelled⟩
  case h_10 => cases h
  all_goals
    cases h
    exact hletter _ (by decide) rfl

/-- A character is spelled by itself, or by a spelling that begins with a backslash. -/
theorem SpelledChar.self_or_escape {c : Char} {spelling : List Char} (h : SpelledChar c spelling) :
    (spelling = [c] ∧ c ≠ '"' ∧ c ≠ '\\' ∧ ¬ c.toNat < 0x20) ∨
      ∃ escape, spelling = '\\' :: escape := by
  cases h with
  | self hquote hslash hcontrol => exact .inl ⟨rfl, hquote, hslash, Nat.not_lt_of_le hcontrol⟩
  | letter | unit | pair => exact .inr ⟨_, rfl⟩

theorem readCharacters_append {characters text : List Char} {fuel : Nat}
    (h : SpelledChars characters text) (hfuel : text.length < fuel) :
    readCharacters fuel (text ++ '"' :: rest) = some (characters, rest) := by
  induction h generalizing fuel with
  | nil =>
    obtain ⟨fuel, rfl⟩ := Nat.exists_eq_succ_of_ne_zero (Nat.ne_of_gt hfuel)
    rfl
  | @cons c spelling cs text hc hcs ih =>
    obtain ⟨fuel, rfl⟩ := Nat.exists_eq_succ_of_ne_zero (Nat.ne_of_gt (Nat.zero_lt_of_lt hfuel))
    rw [List.length_append] at hfuel
    rcases hc.self_or_escape with ⟨rfl, hquote, hslash, hcontrol⟩ | ⟨escape, rfl⟩
    · rw [List.length_singleton] at hfuel
      rw [List.append_assoc, List.singleton_append, readCharacters, if_neg hquote,
        if_neg hslash, if_neg hcontrol, ih (by omega)]
      rfl
    · rw [List.length_cons] at hfuel
      rw [List.append_assoc, List.cons_append, readCharacters, if_neg (by decide),
        if_pos rfl, readEscape_append hc]
      simp only [Option.bind_eq_bind, Option.bind_some]
      rw [ih (by omega)]
      rfl

theorem exists_of_readCharacters {fuel : Nat} {characters : List Char}
    (h : readCharacters fuel cs = some (characters, rest)) :
    ∃ text, cs = text ++ '"' :: rest ∧ SpelledChars characters text := by
  fun_induction readCharacters fuel cs generalizing characters rest with
  | case1 | case2 => cases h
  | case3 fuel cs =>
    cases h
    exact ⟨[], rfl, .nil⟩
  | case4 fuel cs hquote ih =>
    simp only [Option.bind_eq_bind, Option.bind_eq_some_iff, Prod.exists] at h
    obtain ⟨c, tail, hread, others, left, hreads, hsome⟩ := h
    obtain ⟨spelling, rfl, hspelled⟩ := exists_of_readEscape hread
    obtain ⟨text, rfl, htext⟩ := ih _ hreads
    cases hsome
    exact ⟨'\\' :: spelling ++ text, by simp, .cons hspelled htext⟩
  | case5 => cases h
  | case6 fuel c cs hquote hslash hcontrol ih =>
    simp only [Option.bind_eq_bind, Option.bind_eq_some_iff, Prod.exists] at h
    obtain ⟨others, left, hreads, hsome⟩ := h
    obtain ⟨text, rfl, htext⟩ := ih hreads
    cases hsome
    exact ⟨[c] ++ text, rfl, .cons (.self hquote hslash (Nat.le_of_not_lt hcontrol)) htext⟩

theorem readString_append {text : String} {spelling : List Char}
    (h : SpelledChars text.toList spelling) :
    readString ('"' :: (spelling ++ '"' :: rest)) = some (text, rest) := by
  have hlen : spelling.length < (spelling ++ '"' :: rest).length := by
    rw [List.length_append, List.length_cons]
    omega
  rw [readString, readCharacters_append h hlen]
  simp

theorem exists_of_readString {text : String} (h : readString cs = some (text, rest)) :
    ∃ spelling, cs = '"' :: (spelling ++ '"' :: rest) ∧ SpelledChars text.toList spelling := by
  unfold readString at h
  split at h
  · simp only [Option.bind_eq_bind, Option.bind_eq_some_iff, Prod.exists] at h
    obtain ⟨characters, tail, hread, hsome⟩ := h
    obtain ⟨spelling, rfl, hspelled⟩ := exists_of_readCharacters hread
    cases hsome
    rw [String.toList_ofList]
    exact ⟨spelling, rfl, hspelled⟩
  · cases h

end SealedToken.Json
