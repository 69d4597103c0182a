import Mathlib.Data.List.Basic
import SealedToken.Proofs.Text.Canonical
import SealedToken.Text.Quoted

/-!
# Quoted text can be read back

The spelling of a character inside quotes determines the character, and tells where it ends. So a
text in quotes ends at its closing quote, whatever follows.

* `toString_inj`: decimal numerals. `ofHexDigits_toDigits`: hexadecimal ones are read back.
* `unescaped`: reads one character. `unescaped_escaped`: it inverts `escaped`.
* `quotedText_append_inj`: `quotedText` is injective, even with different texts behind.
-/

namespace SealedToken

/-! ## Numerals -/

/-- Different numbers have different decimal numerals. -/
theorem toString_inj {m n : Nat} : toString m = toString n ↔ m = n := by
  constructor
  · intro h
    rw [Nat.toString_eq_ofList_toDigits, Nat.toString_eq_ofList_toDigits, String.ofList_inj] at h
    rw [← @Nat.ofDigitChars_ten_toDigits m, h, Nat.ofDigitChars_ten_toDigits]
  · rintro rfl
    rfl

/-- The number that hexadecimal digits in lower case spell. -/
def ofHexDigits (cs : List Char) : Nat :=
  cs.foldl (fun n c => 16 * n + TextForm.hex.alphabet.toList.idxOf c) 0

theorem idxOf_digitChar {d : Nat} (h : d < 16) :
    TextForm.hex.alphabet.toList.idxOf d.digitChar = d := by
  revert d
  decide

theorem digitChar_ne_brace {d : Nat} (h : d < 16) : d.digitChar ≠ '\x7d' := by
  revert d
  decide

/-- The numeral of a number from 16 on is that of its sixteenth and one more digit. -/
theorem toDigits_of_le {n : Nat} (h : 16 ≤ n) :
    Nat.toDigits 16 n = Nat.toDigits 16 (n / 16) ++ [(n % 16).digitChar] := by
  have hlow : n % 16 < 16 := Nat.mod_lt n (by decide)
  rw [← Nat.toDigits_of_lt_base hlow,
    Nat.toDigits_append_toDigits (by decide) (by omega) hlow, Nat.div_add_mod]

/-- `ofHexDigits` reads a numeral back, and the numeral contains no brace. -/
theorem ofHexDigits_toDigits (n : Nat) :
    ofHexDigits (Nat.toDigits 16 n) = n ∧ ∀ c ∈ Nat.toDigits 16 n, c ≠ '\x7d' := by
  induction n using Nat.strongRecOn with
  | ind n ih =>
    by_cases hsmall : n < 16
    · rw [Nat.toDigits_of_lt_base hsmall, List.forall_mem_singleton]
      exact ⟨by simp [ofHexDigits, idxOf_digitChar hsmall], digitChar_ne_brace hsmall⟩
    · have hlow : n % 16 < 16 := Nat.mod_lt n (by decide)
      obtain ⟨hvalue, hbrace⟩ := ih (n / 16) (by omega)
      rw [ofHexDigits] at hvalue
      rw [toDigits_of_le (Nat.le_of_not_lt hsmall), List.forall_mem_append,
        List.forall_mem_singleton, ofHexDigits, List.foldl_append, hvalue, List.foldl_cons,
        List.foldl_nil, idxOf_digitChar hlow]
      exact ⟨Nat.div_add_mod n 16, hbrace, digitChar_ne_brace hlow⟩

/-! ## Characters -/

/-- The character that an escape spells, given what follows its backslash, and the rest
of the text. -/
def afterBackslash : List Char → Option (Char × List Char)
  | [] => none
  | c :: rest =>
    if c = '0' then some ('\x00', rest)
    else if c = 't' then some ('\t', rest)
    else if c = 'r' then some ('\r', rest)
    else if c = 'n' then some ('\n', rest)
    else if c = 'u' then
      let numeral := rest.tail.takeWhile (· ≠ '\x7d')
      some (Char.ofNat (ofHexDigits numeral), rest.tail.drop (numeral.length + 1))
    else some (c, rest)

/-- The first character inside double quotes and the rest of the text, or nothing at the closing
quote. -/
def unescaped : List Char → Option (Char × List Char)
  | [] => none
  | c :: rest =>
    if c = '"' then none
    else if c = '\\' then afterBackslash rest
    else some (c, rest)

theorem afterBackslash_numeral (c : Char) (rest : List Char) :
    afterBackslash (['u', '\x7b'] ++ Nat.toDigits 16 c.toNat ++ ['\x7d'] ++ rest) =
      some (c, rest) := by
  obtain ⟨hvalue, hbrace⟩ := ofHexDigits_toDigits c.toNat
  have hnumeral : (Nat.toDigits 16 c.toNat ++ ('\x7d' :: rest)).takeWhile (· ≠ '\x7d') =
      Nat.toDigits 16 c.toNat := by
    rw [List.takeWhile_append_of_pos fun d hd => decide_eq_true (hbrace d hd),
      List.takeWhile_cons_of_neg (by decide), List.append_nil]
  have hread : afterBackslash (['u', '\x7b'] ++ Nat.toDigits 16 c.toNat ++ ['\x7d'] ++ rest) =
      some (Char.ofNat (ofHexDigits
          ((Nat.toDigits 16 c.toNat ++ ('\x7d' :: rest)).takeWhile (· ≠ '\x7d'))),
        (Nat.toDigits 16 c.toNat ++ ('\x7d' :: rest)).drop
          (((Nat.toDigits 16 c.toNat ++ ('\x7d' :: rest)).takeWhile (· ≠ '\x7d')).length + 1)) := by
    simp [afterBackslash]
  rw [hread, hnumeral, hvalue, Char.ofNat_toNat, List.drop_length_add_append]
  rfl

/-- `unescaped` reads back what `escaped` writes for a character. -/
theorem unescaped_escaped (c : Char) (rest : List Char) :
    unescaped (escaped '"' c ++ rest) = some (c, rest) := by
  unfold escaped
  split
  · next h => rw [h]; rfl
  split
  · next h => rw [h]; rfl
  split
  · next h => rw [h]; rfl
  split
  · next h => rw [h]; rfl
  split
  · next h => rw [h]; rfl
  split
  · next h => rw [h]; rfl
  split
  · exact afterBackslash_numeral c rest
  · next hslash hquote _ => exact (if_neg hquote).trans (if_neg hslash)

/-! ## Texts -/

/-- Quoted texts that begin the same text have the same characters. -/
theorem flatMap_escaped_append_inj {cs ds rest rest' : List Char}
    (h : cs.flatMap (escaped '"') ++ '"' :: rest = ds.flatMap (escaped '"') ++ '"' :: rest') :
    cs = ds := by
  have hend : ∀ {tail tail' : List Char} {c : Char}, '"' :: tail ≠ escaped '"' c ++ tail' := by
    intro tail tail' c heq
    have hread := congrArg unescaped heq
    rw [unescaped_escaped] at hread
    cases hread
  induction cs generalizing ds with
  | nil =>
    match ds with
    | [] => rfl
    | d :: ds =>
      rw [List.flatMap_cons, List.append_assoc] at h
      exact (hend h).elim
  | cons c cs ih =>
    match ds with
    | [] =>
      rw [List.flatMap_cons, List.append_assoc] at h
      exact (hend h.symm).elim
    | d :: ds =>
      have hread := congrArg unescaped h
      rw [List.flatMap_cons, List.flatMap_cons, List.append_assoc,
        List.append_assoc, unescaped_escaped, unescaped_escaped,
        Option.some.injEq, Prod.mk.injEq] at hread
      rw [hread.1, ih hread.2]

theorem toList_quotedText (text : String) :
    (quotedText text).toList = '"' :: (text.toList.flatMap (escaped '"') ++ ['"']) := by
  rw [quotedText, String.toList_ofList, List.cons_append]

/-- Two texts are equal if the same text begins with `quotedText` of both. -/
theorem quotedText_append_inj {s t : String} {rest rest' : List Char}
    (h : (quotedText s).toList ++ rest = (quotedText t).toList ++ rest') : s = t := by
  rw [toList_quotedText, toList_quotedText, List.cons_append, List.cons_append,
    List.append_assoc, List.append_assoc]
    at h
  exact String.toList_inj.mp (flatMap_escaped_append_inj (List.cons.inj h).2)

theorem quotedText_inj {s t : String} : quotedText s = quotedText t ↔ s = t := by
  constructor
  · intro h
    exact @quotedText_append_inj s t [] [] (by rw [h])
  · rintro rfl
    rfl

end SealedToken
