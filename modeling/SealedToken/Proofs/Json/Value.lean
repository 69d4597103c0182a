import SealedToken.Proofs.Json.Token

/-!
# Reading JSON follows the grammar

`readValue` takes a whole spelling and leaves the blanks after it; between the items of a sequence
these stand before a comma or before the end. So `parse?` reads a text as a value exactly if the
text spells it, and no text spells two.

* `readSequence_withCommas`, `exists_of_readSequence`: sequences of any items.
* `Takes.readMember`, `exists_of_readMember`: members of objects.
* `takes_readValue`: spellings are read, by induction on the rules. `exists_of_readValue`: what is
  read is spelled, by induction on the depth.
* `parse?_eq_some_iff`: whole texts.
-/

namespace SealedToken.Json

variable {cs rest : List Char}

theorem withCommas_singleton (text : List Char) : withCommas [text] = text :=
  List.intercalate_singleton

theorem withCommas_cons_cons (text text' : List Char) (texts : List (List Char)) :
    withCommas (text :: text' :: texts) = text ++ ',' :: withCommas (text' :: texts) := by
  rw [withCommas, withCommas, List.intercalate_cons_cons, List.append_assoc, List.singleton_append]

theorem withCommas_append_cons (before text : List Char) (texts : List (List Char)) :
    withCommas ((before ++ text) :: texts) = before ++ withCommas (text :: texts) := by
  cases texts with
  | nil => rw [withCommas_singleton, withCommas_singleton]
  | cons text' texts => rw [withCommas_cons_cons, withCommas_cons_cons, List.append_assoc]

theorem length_le_withCommas {texts : List (List Char)} {text : List Char} (h : text ∈ texts) :
    text.length ≤ (withCommas texts).length := by
  induction texts with
  | nil => cases h
  | cons first texts ih =>
    cases texts with
    | nil =>
      rw [List.mem_singleton.mp h, withCommas_singleton]
    | cons second texts =>
      rw [withCommas_cons_cons, List.length_append, List.length_cons]
      rcases List.mem_cons.mp h with rfl | h
      · omega
      · have hle := ih h
        omega

/-! ## Sequences -/

/-- `item` reads `text` as `value` in front of every rest that does not continue a number, and
leaves at most blanks of the text. -/
def Takes {α : Type} (item : Reader α) (text : List Char) (value : α) : Prop :=
  ∀ rest, StopsBefore inNumber rest →
    ∃ blanks, AllBlank blanks ∧ item (text ++ rest) = some (value, blanks ++ rest)

theorem Takes.of_eq {α : Type} {item : Reader α} {text : List Char} {value : α}
    (h : ∀ rest, StopsBefore inNumber rest → item (text ++ rest) = some (value, rest)) :
    Takes item text value :=
  fun rest hrest => ⟨[], allBlank_nil, h rest hrest⟩

/-- `close` is neither a blank nor a comma, and no number goes on with it. -/
structure Closes (close : Char) : Prop where
  not_blank : isBlank close = false
  ne_comma : close ≠ ','
  not_inNumber : inNumber close = false

section Sequences

variable {α β : Type} {item : Reader α} {close : Char} {value : β → α}
  {text : β → List Char} {pieces : List β}

theorem readItems_withCommas {fuel : Nat} (hclose : Closes close)
    (hitem : ∀ p ∈ pieces, Takes item (text p) (value p))
    (hne : pieces ≠ []) (hfuel : pieces.length ≤ fuel) :
    readItems item close fuel (withCommas (pieces.map text) ++ close :: rest) =
      some (pieces.map value, rest) := by
  induction pieces generalizing fuel with
  | nil => exact absurd rfl hne
  | cons p pieces ih =>
    obtain ⟨hp, hpieces⟩ := List.forall_mem_cons.mp hitem
    rw [List.length_cons] at hfuel
    obtain ⟨fuel, rfl⟩ := Nat.exists_eq_succ_of_ne_zero (Nat.ne_of_gt (Nat.zero_lt_of_lt hfuel))
    cases pieces with
    | nil =>
      obtain ⟨blanks, hblanks, hread⟩ :=
        hp (close :: rest) (by rintro _ ⟨⟩; exact hclose.not_inNumber)
      rw [List.map_singleton, List.map_singleton, withCommas_singleton, readItems, hread]
      simp only [Option.bind_eq_bind, Option.bind_some]
      rw [skipBlanks_append hblanks, skipBlanks_cons hclose.not_blank]
      simp
    | cons p' pieces =>
      obtain ⟨blanks, hblanks, hread⟩ :=
        hp (',' :: (withCommas ((p' :: pieces).map text) ++ close :: rest))
        (by rintro _ ⟨⟩; rfl)
      have hmore := ih hpieces (List.cons_ne_nil _ _) (Nat.le_of_succ_le_succ hfuel)
      rw [List.map_cons, List.map_cons, withCommas_cons_cons, ← List.map_cons,
        List.append_assoc, List.cons_append, readItems, hread]
      simp only [Option.bind_eq_bind, Option.bind_some]
      rw [skipBlanks_append hblanks, skipBlanks_cons (by decide)]
      dsimp only
      rw [if_neg hclose.ne_comma.symm, if_pos rfl, hmore]
      rfl

theorem readSequence_blank (hclose : Closes close) (h : AllBlank cs) :
    readSequence item close (cs ++ close :: rest) = some ([], rest) := by
  rw [readSequence, skipBlanks_append h, skipBlanks_cons hclose.not_blank]
  dsimp only
  rw [if_pos rfl]

/-- `skipBlanks` drops no characters other than blanks. -/
theorem countP_le_length_skipBlanks (cs : List Char) :
    cs.countP (fun c => !isBlank c) ≤ (skipBlanks cs).length := by
  obtain ⟨blanks, hblanks, hcs⟩ := exists_blanks cs
  have hnone : blanks.countP (fun c => !isBlank c) = 0 := by
    rw [List.countP_eq_zero]
    intro c hc
    simp [hblanks c hc]
  conv => lhs; rw [hcs, List.countP_append, hnone, Nat.zero_add]
  exact List.countP_le_length

theorem length_le_countP_withCommas (texts : List (List Char)) :
    texts.length ≤ (withCommas texts).countP (fun c => !isBlank c) + 1 := by
  induction texts with
  | nil => exact Nat.zero_le _
  | cons text texts ih =>
    cases texts with
    | nil => exact Nat.le_add_left 1 _
    | cons text' texts =>
      rw [withCommas_cons_cons, List.countP_append,
        List.countP_cons_of_pos (by decide), List.length_cons]
      omega

theorem readSequence_withCommas (hclose : Closes close)
    (hskip : ∀ cs, item (skipBlanks cs) = item cs) (hnone : ∀ cs, item (close :: cs) = none)
    (hitem : ∀ p ∈ pieces, Takes item (text p) (value p)) (hne : pieces ≠ []) :
    readSequence item close (withCommas (pieces.map text) ++ close :: rest) =
      some (pieces.map value, rest) := by
  -- the fuel of the reader is enough: there are as many commas as items but one, and the end, and
  -- none is blank
  have hlen :
      pieces.length ≤ (skipBlanks (withCommas (pieces.map text) ++ close :: rest)).length := by
    have hcommas := length_le_countP_withCommas (pieces.map text)
    have hcount := countP_le_length_skipBlanks (withCommas (pieces.map text) ++ close :: rest)
    rw [List.countP_append, List.countP_cons_of_pos (by simp [hclose.not_blank])] at hcount
    rw [List.length_map] at hcommas
    omega
  have hread : ∀ fuel, pieces.length ≤ fuel →
      readItems item close fuel (skipBlanks (withCommas (pieces.map text) ++ close :: rest)) =
        some (pieces.map value, rest) := by
    intro fuel hfuel
    rw [← readItems_withCommas hclose hitem hne hfuel]
    cases fuel with
    | zero => rfl
    | succ fuel => rw [readItems, readItems, hskip]
  rw [readSequence]
  split
  · next c tail hcs =>
    rw [hcs, List.length_cons] at hlen
    split
    · next hc =>
      have hfirst := hread pieces.length (Nat.le_refl _)
      obtain ⟨fuel, hfuel⟩ := Nat.exists_eq_succ_of_ne_zero (mt List.length_eq_zero_iff.mp hne)
      rw [hcs, hc, hfuel, readItems, hnone] at hfirst
      cases hfirst
    · rw [← hcs]
      exact hread _ hlen
  · next hcs =>
    rw [hcs] at hlen
    exact absurd (List.eq_nil_of_length_eq_zero (Nat.eq_zero_of_le_zero hlen)) hne

variable {Legal : β → Prop}

theorem exists_of_readItems {fuel : Nat} {values : List α}
    (hitem : ∀ cs v rest, item cs = some (v, rest) →
      ∃ p, Legal p ∧ value p = v ∧ cs = text p ++ rest)
    (hblank : ∀ p before after, Legal p → AllBlank before → AllBlank after →
      ∃ p', Legal p' ∧ value p' = value p ∧ text p' = before ++ text p ++ after)
    (h : readItems item close fuel cs = some (values, rest)) :
    ∃ pieces : List β, pieces ≠ [] ∧ (∀ p ∈ pieces, Legal p) ∧ pieces.map value = values ∧
      cs = withCommas (pieces.map text) ++ close :: rest := by
  induction fuel generalizing cs rest values with
  | zero => cases h
  | succ fuel ih =>
    simp only [readItems, Option.bind_eq_bind, Option.bind_eq_some_iff, Prod.exists] at h
    obtain ⟨first, left, hread, h⟩ := h
    obtain ⟨p, hp, rfl, rfl⟩ := hitem _ _ _ hread
    obtain ⟨blanks, hblanks, hleft⟩ := exists_blanks left
    obtain ⟨p', hp', hvalue, htext⟩ := hblank p [] blanks hp allBlank_nil hblanks
    rw [List.nil_append] at htext
    split at h
    · next c tail hcs =>
      rw [hcs] at hleft
      split at h
      · next hc =>
        cases h
        refine ⟨[p'], List.cons_ne_nil _ _, List.forall_mem_singleton.mpr hp',
          by rw [List.map_singleton, hvalue], ?_⟩
        rw [List.map_singleton, withCommas_singleton, htext, hleft, hc, List.append_assoc]
      split at h
      · next hc =>
        simp only [Option.bind_eq_some_iff, Prod.exists] at h
        obtain ⟨others, left', hreads, hsome⟩ := h
        obtain ⟨pieces, hne, hpieces, rfl, rfl⟩ := ih hreads
        cases hsome
        refine ⟨p' :: pieces, List.cons_ne_nil _ _, List.forall_mem_cons.mpr ⟨hp', hpieces⟩,
          by rw [List.map_cons, hvalue], ?_⟩
        cases pieces with
        | nil => exact absurd rfl hne
        | cons p'' pieces =>
          rw [List.map_cons, List.map_cons, withCommas_cons_cons, htext,
            hleft, hc, List.append_assoc, List.append_assoc, List.cons_append]
          rfl
      · cases h
    · cases h

theorem exists_of_readSequence {values : List α}
    (hitem : ∀ cs v rest, item cs = some (v, rest) →
      ∃ p, Legal p ∧ value p = v ∧ cs = text p ++ rest)
    (hblank : ∀ p before after, Legal p → AllBlank before → AllBlank after →
      ∃ p', Legal p' ∧ value p' = value p ∧ text p' = before ++ text p ++ after)
    (h : readSequence item close cs = some (values, rest)) :
    (values = [] ∧ ∃ blanks, AllBlank blanks ∧ cs = blanks ++ close :: rest) ∨
      ∃ pieces : List β, pieces ≠ [] ∧ (∀ p ∈ pieces, Legal p) ∧ pieces.map value = values ∧
        cs = withCommas (pieces.map text) ++ close :: rest := by
  obtain ⟨blanks, hblanks, hcs⟩ := exists_blanks cs
  rw [readSequence] at h
  split at h
  · next c tail hskip =>
    rw [hskip] at hcs
    split at h
    · next hc =>
      cases h
      exact .inl ⟨rfl, blanks, hblanks, by rw [hcs, hc]⟩
    · obtain ⟨pieces, hne, hpieces, rfl, htail⟩ := exists_of_readItems hitem hblank h
      cases pieces with
      | nil => exact absurd rfl hne
      | cons p pieces =>
        obtain ⟨hp, hpieces⟩ := List.forall_mem_cons.mp hpieces
        obtain ⟨p', hp', hvalue, htext⟩ := hblank p blanks [] hp hblanks allBlank_nil
        refine .inr ⟨p' :: pieces, List.cons_ne_nil _ _, List.forall_mem_cons.mpr ⟨hp', hpieces⟩,
          by rw [List.map_cons, List.map_cons, hvalue], ?_⟩
        rw [hcs, htail, List.map_cons, List.map_cons, htext,
          List.append_nil, withCommas_append_cons, List.append_assoc]
  · cases h

end Sequences

/-! ## Members -/

theorem readMember_skipBlanks (value : Reader Json) (cs : List Char) :
    readMember value (skipBlanks cs) = readMember value cs := by
  rw [readMember, readMember, skipBlanks_skipBlanks]

theorem Takes.readMember {value : Reader Json} {member : Member}
    (hkey : SpelledKey member.key member.keyText)
    (hvalue : Takes value member.valueText member.value) :
    Takes (readMember value) member.text member.pair := by
  intro rest hrest
  obtain ⟨before, characters, after, hbefore, hcharacters, hafter, hkeyText⟩ := hkey
  obtain ⟨blanks, hblanks, hread⟩ := hvalue rest hrest
  refine ⟨blanks, hblanks, ?_⟩
  rw [Member.text, hkeyText, List.append_assoc, List.append_assoc, Json.readMember,
    skipBlanks_append hbefore, List.cons_append, skipBlanks_cons (by decide), List.append_assoc,
    List.cons_append, readString_append hcharacters]
  simp only [Option.bind_eq_bind, Option.bind_some]
  rw [skipBlanks_append hafter, List.cons_append, skipBlanks_cons (by decide)]
  simp only [hread, Option.bind_some]
  rfl

/-- The texts of the member spell its key and its value. -/
def Member.Spelled (member : Member) : Prop :=
  SpelledKey member.key member.keyText ∧ member.value.SpelledBy member.valueText

/-- Blanks around a member belong to its key and its value. -/
theorem Member.Spelled.blanks {member : Member} {before after : List Char} (h : member.Spelled)
    (hbefore : AllBlank before) (hafter : AllBlank after) :
    ∃ padded : Member, padded.Spelled ∧ padded.pair = member.pair ∧
      padded.text = before ++ member.text ++ after := by
  obtain ⟨⟨blanks, characters, blanks', hblanks, hcharacters, hblanks', hkeyText⟩, hvalue⟩ := h
  refine ⟨⟨member.key, before ++ member.keyText, member.value, member.valueText ++ after⟩,
    ⟨⟨before ++ blanks, characters, blanks', hbefore.append hblanks, hcharacters, hblanks', ?_⟩,
      hvalue.blanksAfter hafter⟩, rfl, ?_⟩
  · rw [hkeyText, List.append_assoc]
  · simp only [Member.text, List.append_assoc, List.cons_append]

theorem exists_of_readMember {value : Reader Json} {pair : String × Json}
    (hvalue : ∀ {cs rest json}, value cs = some (json, rest) →
      ∃ text, cs = text ++ rest ∧ json.SpelledBy text)
    (h : readMember value cs = some (pair, rest)) :
    ∃ member : Member, member.Spelled ∧ member.pair = pair ∧ cs = member.text ++ rest := by
  obtain ⟨before, hbefore, hcs⟩ := exists_blanks cs
  simp only [Json.readMember, Option.bind_eq_bind, Option.bind_eq_some_iff, Prod.exists] at h
  obtain ⟨key, left, hread, h⟩ := h
  obtain ⟨characters, hskip, hcharacters⟩ := exists_of_readString hread
  obtain ⟨after, hafter, hleft⟩ := exists_blanks left
  split at h
  · next tail hcolon =>
    simp only [Option.bind_eq_some_iff, Prod.exists] at h
    obtain ⟨json, left', hreads, hsome⟩ := h
    obtain ⟨valueText, rfl, hspelled⟩ := hvalue hreads
    cases hsome
    refine ⟨⟨key, before ++ '"' :: (characters ++ '"' :: after), json, valueText⟩,
      ⟨⟨before, characters, after, hbefore, hcharacters, hafter, rfl⟩, hspelled⟩, rfl, ?_⟩
    rw [hcs, hskip, hleft, hcolon]
    simp [Member.text]
  · cases h

/-! ## Values -/

theorem eq_of_readWord {word : List Char} (h : readWord word cs = some rest) :
    cs = word ++ rest := by
  induction word generalizing cs with
  | nil => cases h; rfl
  | cons c word ih =>
    cases cs with
    | nil => cases h
    | cons c' cs =>
      rw [readWord] at h
      split at h
      · next hc => rw [hc, ih h, List.cons_append]
      · cases h

theorem eq_of_map_readWord {word : List Char} {value json : Json}
    (h : (readWord word cs).map (fun cs => (value, cs)) = some (json, rest)) :
    json = value ∧ cs = word ++ rest := by
  obtain ⟨_, hword, hsome⟩ := Option.map_eq_some_iff.mp h
  cases hsome
  exact ⟨rfl, eq_of_readWord hword⟩

theorem readValue_skipBlanks (fuel : Nat) (cs : List Char) :
    readValue fuel (skipBlanks cs) = readValue fuel cs := by
  cases fuel with
  | zero => rfl
  | succ fuel => rw [readValue, readValue, skipBlanks_skipBlanks]

theorem closes_bracket : Closes ']' := ⟨by decide, by decide, by decide⟩

theorem closes_brace : Closes '\x7d' := ⟨by decide, by decide, by decide⟩

theorem IsNumeral.exists_head {literal : List Char} (h : IsNumeral literal) :
    ∃ c tail, literal = c :: tail ∧ (isDigit c = true ∨ c = '-') := by
  obtain ⟨hminus, hinteger, hfraction, hexponent⟩ := h
  simp only [List.mem_cons, List.not_mem_nil, or_false] at hminus
  rcases hminus with rfl | rfl
  · cases hinteger with
    | zero => exact ⟨_, _, rfl, .inl rfl⟩
    | digits hc h => exact ⟨_, _, rfl, .inl (h.digits _ List.mem_cons_self)⟩
  · exact ⟨_, _, rfl, .inr rfl⟩

theorem readValue_number {fuel : Nat} {literal : List Char} (h : IsNumeral literal) :
    readValue (fuel + 1) (literal ++ rest) =
      (readNumber (literal ++ rest)).map fun (literal, cs) => (.number literal, cs) := by
  obtain ⟨c, tail, rfl, hc⟩ := h.exists_head
  -- no other value begins as a number does
  have hne : ∀ d, isDigit d = false ∧ d ≠ '-' → c ≠ d := by
    rintro d ⟨hdigit, hminus⟩ rfl
    rcases hc with hc | hc
    · rw [hc] at hdigit
      cases hdigit
    · exact hminus hc
  have hblank : isBlank c = false := by
    simp only [isBlank, Bool.or_eq_false_iff, decide_eq_false_iff_not]
    exact ⟨⟨⟨hne _ (by decide), hne _ (by decide)⟩, hne _ (by decide)⟩, hne _ (by decide)⟩
  rw [List.cons_append, readValue, skipBlanks_cons hblank]
  split
  case h_7 => rfl
  all_goals
    next he =>
      cases he
      exact absurd rfl (hne _ (by decide))

theorem readValue_bracket (fuel : Nat) (cs : List Char) : readValue (fuel + 1) ('[' :: cs) =
    (readSequence (readValue fuel) ']' cs).bind fun (items, cs) => some (.array items, cs) := rfl

theorem readValue_brace (fuel : Nat) (cs : List Char) : readValue (fuel + 1) ('\x7b' :: cs) =
    (readSequence (readMember (readValue fuel)) '\x7d' cs).bind fun (members, cs) =>
      some (.object members, cs) := rfl

theorem readValue_quote (fuel : Nat) (cs : List Char) : readValue (fuel + 1) ('"' :: cs) =
    (readString ('"' :: cs)).bind fun (text, cs) => some (.string text, cs) := rfl

theorem readValue_closingBracket (fuel : Nat) (cs : List Char) :
    readValue fuel (']' :: cs) = none := by
  cases fuel with
  | zero => rfl
  | succ fuel => rfl

theorem inNumber_of_isBlank {c : Char} (h : isBlank c = true) : inNumber c = false := by
  simp only [isBlank, Bool.or_eq_true, decide_eq_true_eq] at h
  rcases h with ((rfl | rfl) | rfl) | rfl <;> rfl

/-- `readValue` reads every spelling of a value, given more fuel than the text has characters. -/
theorem takes_readValue {json : Json} {text : List Char} {fuel : Nat} (h : json.SpelledBy text)
    (hfuel : text.length < fuel) : Takes (readValue fuel) text json := by
  obtain ⟨fuel, rfl⟩ := Nat.exists_eq_succ_of_ne_zero (Nat.ne_of_gt (Nat.zero_lt_of_lt hfuel))
  induction h generalizing fuel with
  | @blankBefore json c cs hc h ih =>
    intro rest hrest
    obtain ⟨blanks, hblanks, hread⟩ := ih fuel (Nat.lt_of_succ_lt hfuel) rest hrest
    refine ⟨blanks, hblanks, ?_⟩
    have hskip : skipBlanks (c :: (cs ++ rest)) = skipBlanks (cs ++ rest) :=
      List.dropWhile_cons_of_pos hc
    rw [List.cons_append, ← readValue_skipBlanks, hskip, readValue_skipBlanks, hread]
  | @blankAfter json c cs hc h ih =>
    intro rest hrest
    rw [List.length_append, List.length_singleton] at hfuel
    have hstops : StopsBefore inNumber (c :: rest) := by
      rintro _ ⟨⟩
      exact inNumber_of_isBlank hc
    obtain ⟨blanks, hblanks, hread⟩ := ih fuel (Nat.lt_of_succ_lt hfuel) (c :: rest) hstops
    refine ⟨blanks ++ [c], hblanks.append (List.forall_mem_singleton.mpr hc), ?_⟩
    rw [List.append_assoc, List.singleton_append, hread, List.append_assoc, List.singleton_append]
  | null | true | false => exact .of_eq fun rest _ => rfl
  | number h =>
    refine .of_eq fun rest hrest => ?_
    rw [readValue_number h, readNumber_append h hrest, String.ofList_toList]
    rfl
  | string h =>
    refine .of_eq fun rest _ => ?_
    rw [List.cons_append, List.append_assoc, List.singleton_append,
      readValue_quote, readString_append h]
    rfl
  | emptyArray h =>
    refine .of_eq fun rest _ => ?_
    rw [List.cons_append, List.append_assoc, List.singleton_append, readValue_bracket,
      readSequence_blank closes_bracket h]
    rfl
  | emptyObject h =>
    refine .of_eq fun rest _ => ?_
    rw [List.cons_append, List.append_assoc, List.singleton_append, readValue_brace,
      readSequence_blank closes_brace h]
    rfl
  | @array items hne h ih =>
    -- the items are shorter than the array, so the fuel that is left is enough for them
    have hitems : ∀ item ∈ items, Takes (readValue fuel) item.text item.value := by
      intro item hitem
      have hle := length_le_withCommas (List.mem_map_of_mem (f := Item.text) hitem)
      rw [List.length_cons, List.length_append, List.length_singleton] at hfuel
      obtain ⟨fuel, rfl⟩ :=
        Nat.exists_eq_add_of_lt (Nat.zero_lt_of_lt (Nat.lt_of_succ_lt_succ hfuel))
      exact ih item hitem _ (by omega)
    refine .of_eq fun rest _ => ?_
    rw [List.cons_append, List.append_assoc, List.singleton_append, readValue_bracket,
      readSequence_withCommas closes_bracket (readValue_skipBlanks fuel)
        (readValue_closingBracket fuel) hitems hne]
    rfl
  | @object members hne hkeys hvalues ih =>
    have hmembers : ∀ member ∈ members,
        Takes (readMember (readValue fuel)) member.text member.pair := by
      intro member hmember
      have hle := length_le_withCommas (List.mem_map_of_mem (f := Member.text) hmember)
      rw [Member.text, List.length_append, List.length_cons] at hle
      rw [List.length_cons, List.length_append, List.length_singleton] at hfuel
      obtain ⟨fuel, rfl⟩ :=
        Nat.exists_eq_add_of_lt (Nat.zero_lt_of_lt (Nat.lt_of_succ_lt_succ hfuel))
      exact Takes.readMember (hkeys member hmember) (ih member hmember _ (by omega))
    refine .of_eq fun rest _ => ?_
    rw [List.cons_append, List.append_assoc, List.singleton_append, readValue_brace,
      readSequence_withCommas closes_brace (readMember_skipBlanks _) (fun _ => rfl) hmembers hne]
    rfl

/-- The text of the item spells its value. -/
def Item.Spelled (item : Item) : Prop := item.value.SpelledBy item.text

theorem Item.Spelled.blanks {item : Item} {before after : List Char} (h : item.Spelled)
    (hbefore : AllBlank before) (hafter : AllBlank after) :
    ∃ padded : Item, padded.Spelled ∧ padded.value = item.value ∧
      padded.text = before ++ item.text ++ after :=
  ⟨⟨item.value, before ++ item.text ++ after⟩,
    (SpelledBy.blanksBefore hbefore h).blanksAfter hafter, rfl, rfl⟩

/-- What `readValue` reads is spelled by the characters that it consumed. -/
theorem exists_of_readValue {fuel : Nat} {json : Json} (h : readValue fuel cs = some (json, rest)) :
    ∃ text, cs = text ++ rest ∧ json.SpelledBy text := by
  induction fuel generalizing cs rest json with
  | zero => cases h
  | succ fuel ih =>
    obtain ⟨before, hbefore, hcs⟩ := exists_blanks cs
    -- it is enough to look at the text after the blanks
    suffices hskipped : ∃ text, skipBlanks cs = text ++ rest ∧ json.SpelledBy text by
      obtain ⟨text, htext, hspelled⟩ := hskipped
      exact ⟨before ++ text, by rw [hcs, htext, List.append_assoc], hspelled.blanksBefore hbefore⟩
    rw [readValue] at h
    split at h
    case h_1 tail hskip =>
      simp only [Option.bind_eq_bind, Option.bind_eq_some_iff, Prod.exists] at h
      obtain ⟨values, left, hread, hsome⟩ := h
      cases hsome
      have hitem : ∀ cs json rest, readValue fuel cs = some (json, rest) →
          ∃ item : Item, item.Spelled ∧ item.value = json ∧ cs = item.text ++ rest := by
        intro cs json rest hread
        obtain ⟨text, rfl, hspelled⟩ := ih hread
        exact ⟨⟨json, text⟩, hspelled, rfl, rfl⟩
      rcases exists_of_readSequence hitem (fun _ _ _ => Item.Spelled.blanks) hread
        with ⟨rfl, blanks, hblanks, rfl⟩ | ⟨items, hne, hitems, rfl, rfl⟩
      · exact ⟨'[' :: (blanks ++ [']']), by simp [hskip], .emptyArray hblanks⟩
      · exact ⟨_, by simp [hskip], .array hne hitems⟩
    case h_2 tail hskip =>
      simp only [Option.bind_eq_bind, Option.bind_eq_some_iff, Prod.exists] at h
      obtain ⟨values, left, hread, hsome⟩ := h
      cases hsome
      rcases exists_of_readSequence (fun _ _ _ => exists_of_readMember ih)
        (fun _ _ _ => Member.Spelled.blanks) hread
        with ⟨rfl, blanks, hblanks, rfl⟩ | ⟨members, hne, hmembers, rfl, rfl⟩
      · exact ⟨'\x7b' :: (blanks ++ ['\x7d']), by simp [hskip], .emptyObject hblanks⟩
      · exact ⟨_, by simp [hskip],
          .object hne (fun m hm => (hmembers m hm).1) fun m hm => (hmembers m hm).2⟩
    case h_3 tail hskip =>
      simp only [Option.bind_eq_bind, Option.bind_eq_some_iff, Prod.exists] at h
      obtain ⟨text, left, hread, hsome⟩ := h
      obtain ⟨characters, htail, hcharacters⟩ := exists_of_readString hread
      cases hsome
      exact ⟨'"' :: (characters ++ ['"']), by simp [hskip, htail], .string hcharacters⟩
    case h_4 tail hskip =>
      obtain ⟨rfl, rfl⟩ := eq_of_map_readWord h
      exact ⟨_, hskip, .null⟩
    case h_5 tail hskip =>
      obtain ⟨rfl, rfl⟩ := eq_of_map_readWord h
      exact ⟨_, hskip, .true⟩
    case h_6 tail hskip =>
      obtain ⟨rfl, rfl⟩ := eq_of_map_readWord h
      exact ⟨_, hskip, .false⟩
    case h_7 =>
      obtain ⟨⟨literal, left⟩, hread, hsome⟩ := Option.map_eq_some_iff.mp h
      obtain ⟨hskip, hliteral⟩ := exists_of_readNumber hread
      cases hsome
      exact ⟨_, hskip, .number hliteral⟩

/-- `parse?` reads a text as exactly the value that it spells. -/
theorem parse?_eq_some_iff {text : String} {json : Json} :
    parse? text = some json ↔ json.SpelledBy text.toList := by
  simp only [parse?, Option.bind_eq_bind, Option.bind_eq_some_iff, Prod.exists]
  constructor
  · rintro ⟨json, rest, hread, h⟩
    obtain ⟨spelling, htext, hspelled⟩ := exists_of_readValue hread
    obtain ⟨after, hafter, hrest⟩ := exists_blanks rest
    split at h
    · next hnil =>
      cases h
      rw [hnil, List.append_nil] at hrest
      rw [htext, hrest]
      exact hspelled.blanksAfter hafter
    · cases h
  · intro h
    obtain ⟨blanks, hblanks, hread⟩ := takes_readValue h (Nat.lt_succ_self _) [] nofun
    rw [List.append_nil, List.append_nil] at hread
    refine ⟨json, blanks, hread, if_pos ?_⟩
    have hskip : skipBlanks (blanks ++ []) = skipBlanks [] := skipBlanks_append hblanks
    rwa [List.append_nil] at hskip

end SealedToken.Json
