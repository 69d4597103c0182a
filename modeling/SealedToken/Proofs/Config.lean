import SealedToken.Config.Json
import SealedToken.Proofs.Json.Value
import SealedToken.Proofs.Text.Quoted

/-!
# Reading settings

`Config.parse?` takes the settings that the members of an object give, in any order and with keys in
any JSON spelling, and the defaults for the others. It refuses a member that it does not know and a
key given twice.

* `Choice.ofJson?_eq_some_iff`, `sizeOfJson?_eq_some_iff`: the accepted values, and the choice or
  size of each.
* `Setting`, `Setting.WrittenAs`, `Setting.GivenBy`: one setting, its JSON values, and the members
  that give it.
* `ConfigOverrides.set?_eq_some_iff`: the step for one member. `ConfigOverrides.of_foldlM_set?`,
  `ConfigOverrides.exists_foldlM_set?`: the fold over all members, by induction.
* `Config.parse_strict_any_order`: the texts that `Config.parse?` accepts, and the settings of each.
-/

namespace SealedToken

/-! ## Choices -/

/-- `choices` lists every value of the type, and different values have different names. -/
class LawfulChoice (α : Type) [Choice α] : Prop where
  mem_choices : ∀ choice : α, choice ∈ Choice.choices
  name_inj : ∀ {choice choice' : α}, Choice.name choice = Choice.name choice' → choice = choice'

instance : LawfulChoice CipherSuite where
  mem_choices choice := by cases choice <;> decide
  name_inj := by
    intro a b
    cases a <;> cases b <;> decide

instance : LawfulChoice HashAlgorithm where
  mem_choices choice := by cases choice <;> decide
  name_inj := by
    intro a b
    cases a <;> cases b <;> decide

instance : LawfulChoice TextForm where
  mem_choices choice := by cases choice <;> decide
  name_inj := by
    intro a b
    cases a <;> cases b <;> decide

section Choices

variable {α : Type} [Choice α] [LawfulChoice α] {choice : α}

theorem Choice.ofName?_eq_some_iff {name : String} :
    Choice.ofName? name = some choice ↔ Choice.name choice = name := by
  constructor
  · intro h
    simpa using List.find?_some h
  · rintro rfl
    unfold Choice.ofName?
    cases hfound : Choice.choices.find? fun other : α => Choice.name other = Choice.name choice with
    | none => simpa using List.find?_eq_none.mp hfound choice (LawfulChoice.mem_choices choice)
    | some found =>
      have hname : Choice.name found = Choice.name choice := by simpa using List.find?_some hfound
      rw [LawfulChoice.name_inj hname]

theorem Choice.ofJson?_eq_some_iff {value : Json} : Choice.ofJson? value = some choice ↔
    value = .string (Choice.name choice) ∨ value = .object [(Choice.name choice, .null)] := by
  unfold Choice.ofJson?
  split
  · rw [Choice.ofName?_eq_some_iff]
    simp [eq_comm]
  · rw [Choice.ofName?_eq_some_iff]
    simp [eq_comm]
  · next hstring hobject =>
    simp only [reduceCtorEq, false_iff]
    rintro (rfl | rfl)
    · exact hstring _ rfl
    · exact hobject _ rfl

end Choices

/-! ## Sizes -/

theorem decimalValue_eq_ofDigitChars (digits : List Char) :
    decimalValue digits = Nat.ofDigitChars 10 digits 0 := by
  simp only [decimalValue, Nat.ofDigitChars, Nat.mul_comm]
  rfl

theorem Json.toDigits_of_isDigit {c : Char} (h : isDigit c = true) :
    c.toNat - '0'.toNat < 10 ∧ Nat.toDigits 10 (c.toNat - '0'.toNat) = [c] := by
  rw [isDigit, Bool.and_eq_true, decide_eq_true_eq, decide_eq_true_eq] at h
  have hlow : '0'.toNat ≤ c.toNat := UInt32.le_iff_toNat_le.mp h.1
  have hhigh : c.toNat ≤ '9'.toNat := UInt32.le_iff_toNat_le.mp h.2
  have hlt : c.toNat - '0'.toNat < 10 := Nat.lt_succ_of_le (Nat.sub_le_sub_right hhigh _)
  refine ⟨hlt, ?_⟩
  rw [Nat.toDigits_of_lt_base hlt, List.singleton_inj, ← Char.toNat_inj,
    Nat.toNat_digitChar_of_lt_ten hlt]
  exact Nat.add_sub_cancel' hlow

/-- A numeral goes on with the digits that its number goes on with. -/
theorem toDigits_append {n : Nat} {digits : List Char} (hn : 0 < n)
    (h : ∀ c ∈ digits, Json.isDigit c = true) :
    Nat.toDigits 10 n ++ digits = Nat.toDigits 10 (Nat.ofDigitChars 10 digits n) := by
  induction digits generalizing n with
  | nil => rw [List.append_nil, Nat.ofDigitChars_nil]
  | cons c digits ih =>
    obtain ⟨hc, hdigits⟩ := List.forall_mem_cons.mp h
    obtain ⟨hlt, hdigit⟩ := Json.toDigits_of_isDigit hc
    rw [Nat.ofDigitChars_cons, ← ih (by omega) hdigits,
      ← Nat.toDigits_append_toDigits (by decide) hn hlt, hdigit,
      List.append_assoc, List.singleton_append]

/-- The digits of an integer literal are the decimal digits of its value. -/
theorem Json.IsInteger.toDigits_eq {digits : List Char} (h : IsInteger digits) :
    Nat.toDigits 10 (decimalValue digits) = digits := by
  rw [decimalValue_eq_ofDigitChars]
  cases h with
  | zero => rfl
  | @digits c cs hc h =>
    obtain ⟨hdigit, hdigits⟩ := List.forall_mem_cons.mp h.digits
    obtain ⟨-, hfirst⟩ := toDigits_of_isDigit hdigit
    have hpos : 0 < c.toNat - '0'.toNat := by
      rw [Nat.pos_iff_ne_zero]
      intro hzero
      rw [hzero] at hfirst
      exact hc (List.singleton_inj.mp hfirst).symm
    rw [Nat.ofDigitChars_cons, Nat.mul_zero, Nat.zero_add, ← toDigits_append hpos hdigits, hfirst,
      List.singleton_append]

/-- A number literal of nothing but digits is an integer literal. -/
theorem Json.IsNumeral.isInteger {literal : List Char} (h : IsNumeral literal)
    (hdigits : ∀ c ∈ literal, isDigit c = true) : IsInteger literal := by
  obtain ⟨hminus, hinteger, hfraction, hexponent⟩ := h
  simp only [List.mem_cons, List.not_mem_nil, or_false] at hminus
  rcases hminus with rfl | rfl
  · cases hfraction with
    | digits h => exact absurd (hdigits '.' (by simp)) (by decide)
    | none =>
      cases hexponent with
      | none => simpa using hinteger
      | @digits e _ _ he _ _ =>
        have he' := hdigits e (by simp)
        rcases he with rfl | rfl <;> exact absurd he' (by decide)
  · exact absurd (hdigits '-' (by simp)) (by decide)

/-- `sizeOfJson?` reads a size from its decimal numeral and from no other value. -/
theorem sizeOfJson?_eq_some_iff {value : Json} {size : UInt8} (h : ∃ text, value.SpelledBy text) :
    sizeOfJson? value = some size ↔ value = .number (toString size.toNat) := by
  constructor
  · intro hsize
    unfold sizeOfJson? at hsize
    split at hsize
    · next literal =>
      obtain ⟨text, hspelled⟩ := h
      dsimp only at hsize
      split at hsize
      · next hliteral =>
        have hinteger := hspelled.isNumeral.isInteger (List.all_eq_true.mp hliteral.1)
        cases hsize
        rw [UInt8.toNat_ofNat_of_lt' hliteral.2,
          Nat.toString_eq_ofList_toDigits, hinteger.toDigits_eq, String.ofList_toList]
      · cases hsize
    · cases hsize
  · rintro rfl
    have hvalue : decimalValue (toString size.toNat).toList = size.toNat := by
      rw [decimalValue_eq_ofDigitChars, Nat.toString_eq_ofList_toDigits, String.toList_ofList,
        Nat.ofDigitChars_ten_toDigits]
    have hdigits : (toString size.toNat).toList.all Json.isDigit = true := by
      rw [Nat.toString_eq_ofList_toDigits, String.toList_ofList, List.all_eq_true]
      exact fun c hc => Nat.isDigit_of_mem_toDigits (by decide) (by decide) hc
    rw [sizeOfJson?, hvalue, if_pos ⟨hdigits, size.toNat_lt⟩, UInt8.ofNat_toNat]

/-! ## Settings -/

/-- One field of `Config` with its value. -/
inductive Setting where
  | cipher (suite : CipherSuite)
  | hash (algorithm : HashAlgorithm)
  | encoding (form : TextForm)
  | csrfNonceSize (size : UInt8)

namespace Setting

/-- The member key under which `set?` takes the setting. -/
def key : Setting → String
  | cipher _ => "cipher"
  | hash _ => "hash"
  | encoding _ => "encoding"
  | csrfNonceSize _ => "csrf_nonce_size"

/-- The settings that are chosen by name, each with that name. -/
def names : List (Setting × String) :=
  [(cipher .aesGcm, "aes_gcm"), (cipher .chaCha20Poly1305, "chacha20_poly1305"),
    (hash .sha1, "sha1"), (hash .sha224, "sha224"), (hash .sha256, "sha256"),
    (hash .sha384, "sha384"), (hash .sha512, "sha512"), (hash .sha512_224, "sha512_224"),
    (hash .sha512_256, "sha512_256"), (encoding .base64Url, "base64_url_no_pad"),
    (encoding .base64Standard, "base64_std_no_pad"), (encoding .hex, "hex")]

/-- `setting.WrittenAs value`: `value` is a JSON value from which the setting is read. -/
inductive WrittenAs : Setting → Json → Prop where
  | name {setting : Setting} {name : String} (h : (setting, name) ∈ names) :
    WrittenAs setting (.string name)
  /-- the name as the only key of an object -/
  | object {setting : Setting} {name : String} (h : (setting, name) ∈ names) :
    WrittenAs setting (.object [(name, .null)])
  | size (size : UInt8) : WrittenAs (csrfNonceSize size) (.number (toString size.toNat))

/-- `setting.GivenBy member`: the member has the key of the setting and a value from which
it is read. -/
def GivenBy (setting : Setting) (member : String × Json) : Prop :=
  member.1 = setting.key ∧ setting.WrittenAs member.2

/-- The field of the `Config` has the value of the setting. -/
def HeldBy : Setting → Config → Prop
  | cipher suite, config => config.cipher = suite
  | hash algorithm, config => config.hash = algorithm
  | encoding form, config => config.encoding = form
  | csrfNonceSize size, config => config.csrfNonceSize = size

/-- The settings of the `Config` that `ConfigOverrides.config` makes of no overrides. -/
def defaults : List Setting :=
  [cipher .chaCha20Poly1305, hash .sha256, encoding .base64Url, csrfNonceSize 16]

theorem exists_iff {p : Setting → Prop} : (∃ setting, p setting) ↔
    (∃ suite, p (cipher suite)) ∨ (∃ algorithm, p (hash algorithm)) ∨ (∃ form, p (encoding form)) ∨
      ∃ size, p (csrfNonceSize size) := by
  constructor
  · rintro ⟨suite | algorithm | form | size, hp⟩
    · exact .inl ⟨suite, hp⟩
    · exact .inr (.inl ⟨algorithm, hp⟩)
    · exact .inr (.inr (.inl ⟨form, hp⟩))
    · exact .inr (.inr (.inr ⟨size, hp⟩))
  · rintro (⟨_, hp⟩ | ⟨_, hp⟩ | ⟨_, hp⟩ | ⟨_, hp⟩) <;> exact ⟨_, hp⟩

section Values

variable {value : Json} {suite : CipherSuite} {algorithm : HashAlgorithm}
  {form : TextForm} {size : UInt8}

/-- `Choice.ofJson?` reads a choice from exactly the values that its setting is written as. -/
theorem writtenAs_iff {α : Type} [Choice α] [LawfulChoice α] {setting : Setting} {choice : α}
    (hnames : ∀ name, (setting, name) ∈ names ↔ Choice.name choice = name)
    (hsize : ∀ size, setting ≠ csrfNonceSize size) :
    setting.WrittenAs value ↔ Choice.ofJson? value = some choice := by
  rw [Choice.ofJson?_eq_some_iff]
  constructor
  · intro h
    cases h with
    | name h => exact .inl (by rw [(hnames _).mp h])
    | object h => exact .inr (by rw [(hnames _).mp h])
    | size size => exact absurd rfl (hsize size)
  · rintro (rfl | rfl)
    · exact .name ((hnames _).mpr rfl)
    · exact .object ((hnames _).mpr rfl)

theorem cipher_writtenAs_iff : (cipher suite).WrittenAs value ↔ Choice.ofJson? value = some suite :=
  writtenAs_iff (fun name => by cases suite <;> simp [names, Choice.name, eq_comm]) nofun

theorem hash_writtenAs_iff :
    (hash algorithm).WrittenAs value ↔ Choice.ofJson? value = some algorithm :=
  writtenAs_iff (fun name => by cases algorithm <;> simp [names, Choice.name, eq_comm]) nofun

theorem encoding_writtenAs_iff :
    (encoding form).WrittenAs value ↔ Choice.ofJson? value = some form :=
  writtenAs_iff (fun name => by cases form <;> simp [names, Choice.name, eq_comm]) nofun

theorem csrfNonceSize_writtenAs_iff :
    (csrfNonceSize size).WrittenAs value ↔ value = .number (toString size.toNat) := by
  constructor
  · intro h
    cases h with
    | name h | object h => simp [names] at h
    | size => rfl
  · rintro rfl
    exact .size size

end Values

/-- A member gives at most one setting. -/
theorem GivenBy.unique {setting other : Setting} {member : String × Json}
    (h : setting.GivenBy member) :
    other.GivenBy member ↔ other = setting := by
  constructor
  · intro hother
    have hkey : other.key = setting.key := hother.1.symm.trans h.1
    have hvalue := h.2
    have hvalue' := hother.2
    cases setting <;> cases other <;> simp only [key, String.reduceEq] at hkey
    case cipher.cipher =>
      rw [cipher_writtenAs_iff] at hvalue hvalue'
      exact congrArg cipher (Option.some_inj.mp (hvalue'.symm.trans hvalue))
    case hash.hash =>
      rw [hash_writtenAs_iff] at hvalue hvalue'
      exact congrArg hash (Option.some_inj.mp (hvalue'.symm.trans hvalue))
    case encoding.encoding =>
      rw [encoding_writtenAs_iff] at hvalue hvalue'
      exact congrArg encoding (Option.some_inj.mp (hvalue'.symm.trans hvalue))
    case csrfNonceSize.csrfNonceSize =>
      rw [csrfNonceSize_writtenAs_iff] at hvalue hvalue'
      rw [hvalue, Json.number.injEq, toString_inj, UInt8.toNat_inj] at hvalue'
      exact congrArg csrfNonceSize hvalue'.symm
  · rintro rfl
    exact h

end Setting

namespace ConfigOverrides

variable {overrides : ConfigOverrides} {setting other : Setting} {key : String} {value : Json}

/-- The field of the overrides is present and has the value of the setting. -/
def Gives (overrides : ConfigOverrides) : Setting → Prop
  | .cipher suite => overrides.cipher = some suite
  | .hash algorithm => overrides.hash = some algorithm
  | .encoding form => overrides.encoding = some form
  | .csrfNonceSize size => overrides.csrfNonceSize = some size

/-- The overrides with the field of the setting set to its value. -/
def put (overrides : ConfigOverrides) : Setting → ConfigOverrides
  | .cipher suite => { overrides with cipher := some suite }
  | .hash algorithm => { overrides with hash := some algorithm }
  | .encoding form => { overrides with encoding := some form }
  | .csrfNonceSize size => { overrides with csrfNonceSize := some size }

/-- The field of the overrides with this key is present. -/
def HasKey (overrides : ConfigOverrides) (key : String) : Prop :=
  ∃ setting : Setting, setting.key = key ∧ overrides.Gives setting

theorem eq_of_gives {overrides' : ConfigOverrides}
    (h : ∀ setting, overrides.Gives setting ↔ overrides'.Gives setting) :
    overrides = overrides' := by
  cases overrides
  cases overrides'
  congr
  · exact Option.ext fun suite => h (.cipher suite)
  · exact Option.ext fun hash => h (.hash hash)
  · exact Option.ext fun form => h (.encoding form)
  · exact Option.ext fun size => h (.csrfNonceSize size)

theorem gives_put :
    (overrides.put setting).Gives other ↔
      other = setting ∨ other.key ≠ setting.key ∧ overrides.Gives other := by
  cases setting <;> cases other <;> simp [put, Gives, Setting.key, eq_comm]

theorem ite_isSome_eq_some_iff {α : Type} {field given : Option α} {put : α → ConfigOverrides}
    {result : ConfigOverrides} :
    (if field.isSome then none else given.map put) = some result ↔
      field = none ∧ ∃ a, given = some a ∧ result = put a := by
  cases field with
  | none => simp [eq_comm]
  | some a => simp

/-- `set?` takes a member exactly if it gives a setting and the field of its key is not
present yet. -/
theorem set?_eq_some_iff {result : ConfigOverrides} (hvalue : ∃ text, value.SpelledBy text) :
    overrides.set? key value = some result ↔
      (∃ setting : Setting, setting.GivenBy (key, value) ∧ result = overrides.put setting) ∧
        ¬ overrides.HasKey key := by
  unfold set?
  split
  case h_5 hcipher hhash hencoding hsize =>
    -- no setting is given by another key
    refine iff_of_false nofun ?_
    rintro ⟨⟨setting, ⟨hkey, -⟩, -⟩, -⟩
    cases setting with
    | cipher => exact hcipher hkey
    | hash => exact hhash hkey
    | encoding => exact hencoding hkey
    | csrfNonceSize => exact hsize hkey
  all_goals
    rw [ite_isSome_eq_some_iff]
    simp [Setting.exists_iff, Setting.GivenBy, Setting.key, Setting.cipher_writtenAs_iff,
      Setting.hash_writtenAs_iff, Setting.encoding_writtenAs_iff,
      Setting.csrfNonceSize_writtenAs_iff, sizeOfJson?_eq_some_iff hvalue, put, HasKey,
      Gives, Option.eq_none_iff_forall_ne_some, and_comm]

theorem hasKey_put :
    (overrides.put setting).HasKey key ↔ key = setting.key ∨ overrides.HasKey key := by
  constructor
  · rintro ⟨other, rfl, hother⟩
    rcases gives_put.mp hother with rfl | ⟨-, hother⟩
    · exact .inl rfl
    · exact .inr ⟨other, rfl, hother⟩
  · rintro (rfl | ⟨other, rfl, hother⟩)
    · exact ⟨setting, rfl, gives_put.mpr (.inl rfl)⟩
    · by_cases hkey : other.key = setting.key
      · exact ⟨setting, hkey.symm, gives_put.mpr (.inl rfl)⟩
      · exact ⟨other, rfl, gives_put.mpr (.inr ⟨hkey, hother⟩)⟩

theorem gives_put_of_not_hasKey (h : ¬ overrides.HasKey setting.key) :
    (overrides.put setting).Gives other ↔ other = setting ∨ overrides.Gives other := by
  rw [gives_put, and_iff_right_of_imp]
  exact fun hother hkey => h ⟨other, hkey, hother⟩

/-- If a run of `set?` over members succeeds, every member gives a setting, the keys are different
and new, and the result has the settings that were there before and those of the members. -/
theorem of_foldlM_set? {members : List (String × Json)} {result : ConfigOverrides}
    (hvalues : ∀ member ∈ members, ∃ text, member.2.SpelledBy text)
    (h : members.foldlM (fun overrides (key, value) => overrides.set? key value) overrides =
      some result) :
    (∀ member ∈ members, ∃ setting : Setting, setting.GivenBy member) ∧
    (members.map Prod.fst).Nodup ∧
    (∀ member ∈ members, ¬ overrides.HasKey member.1) ∧
    ∀ setting, result.Gives setting ↔
      overrides.Gives setting ∨ ∃ member ∈ members, setting.GivenBy member := by
  induction members generalizing overrides with
  | nil =>
    cases h
    simp
  | cons member members ih =>
    obtain ⟨hvalue, hvalues⟩ := List.forall_mem_cons.mp hvalues
    rw [List.foldlM_cons, Option.bind_eq_bind, Option.bind_eq_some_iff] at h
    obtain ⟨next, hset, hrun⟩ := h
    obtain ⟨⟨setting, hgiven, rfl⟩, hfree⟩ := (set?_eq_some_iff hvalue).mp hset
    obtain ⟨hwritten, hnodup, hfresh, hgives⟩ := ih hvalues hrun
    -- the first key has a value from here on, so the others differ from it
    simp only [hasKey_put, not_or, ← hgiven.1] at hfresh
    refine ⟨List.forall_mem_cons.mpr ⟨⟨setting, hgiven⟩, hwritten⟩,
      List.nodup_cons.mpr ⟨?_, hnodup⟩,
      List.forall_mem_cons.mpr ⟨hfree, fun other hother => (hfresh other hother).2⟩, ?_⟩
    · intro hkey
      obtain ⟨other, hother, hkey⟩ := List.mem_map.mp hkey
      exact (hfresh other hother).1 hkey
    · intro other
      rw [hgiven.1] at hfree
      rw [hgives, gives_put_of_not_hasKey hfree, List.exists_mem_cons_iff,
        hgiven.unique, or_left_comm, or_assoc]

/-- A run of `set?` succeeds over members that give settings and have different keys that are not
present yet. -/
theorem exists_foldlM_set? {members : List (String × Json)}
    (hvalues : ∀ member ∈ members, ∃ text, member.2.SpelledBy text)
    (hwritten : ∀ member ∈ members, ∃ setting : Setting, setting.GivenBy member)
    (hnodup : (members.map Prod.fst).Nodup)
    (hfresh : ∀ member ∈ members, ¬ overrides.HasKey member.1) :
    ∃ result, members.foldlM (fun overrides (key, value) => overrides.set? key value) overrides =
      some result := by
  induction members generalizing overrides with
  | nil => exact ⟨overrides, rfl⟩
  | cons member members ih =>
    obtain ⟨hvalue, hvalues⟩ := List.forall_mem_cons.mp hvalues
    obtain ⟨⟨setting, hgiven⟩, hwritten⟩ := List.forall_mem_cons.mp hwritten
    obtain ⟨hfree, hfresh⟩ := List.forall_mem_cons.mp hfresh
    obtain ⟨hkey, hnodup⟩ := List.nodup_cons.mp hnodup
    obtain ⟨result, hrun⟩ := ih hvalues hwritten hnodup fun other hother hhas => by
      rcases hasKey_put.mp hhas with h | h
      · exact hkey (List.mem_map.mpr ⟨other, hother, h.trans hgiven.1.symm⟩)
      · exact hfresh other hother h
    refine ⟨result, ?_⟩
    rw [List.foldlM_cons, Option.bind_eq_bind, Option.bind_eq_some_iff]
    exact ⟨overrides.put setting,
      (set?_eq_some_iff hvalue).mpr ⟨⟨setting, hgiven, rfl⟩, hfree⟩, hrun⟩

theorem not_gives_empty : ¬ Gives {} setting := by
  cases setting <;> exact nofun

theorem not_hasKey_empty : ¬ HasKey {} key := fun ⟨_, _, h⟩ => not_gives_empty h

/-- `ofMembers?` succeeds exactly if every member gives a setting and the keys are different; the
result gives the settings of the members and no others. -/
theorem ofMembers?_eq_some_iff {members : List (String × Json)}
    (hvalues : ∀ member ∈ members, ∃ text, member.2.SpelledBy text) :
    ofMembers? members = some overrides ↔
      (∀ member ∈ members, ∃ setting : Setting, setting.GivenBy member) ∧
      (members.map Prod.fst).Nodup ∧
      ∀ setting, overrides.Gives setting ↔ ∃ member ∈ members, setting.GivenBy member := by
  have hof : ∀ {result}, ofMembers? members = some result →
      (∀ member ∈ members, ∃ setting : Setting, setting.GivenBy member) ∧
      (members.map Prod.fst).Nodup ∧
      ∀ setting, result.Gives setting ↔ ∃ member ∈ members, setting.GivenBy member := by
    intro result h
    obtain ⟨hwritten, hnodup, -, hgives⟩ := of_foldlM_set? hvalues h
    simp only [not_gives_empty, false_or] at hgives
    exact ⟨hwritten, hnodup, hgives⟩
  refine ⟨hof, ?_⟩
  rintro ⟨hwritten, hnodup, hgives⟩
  obtain ⟨result, hrun⟩ := exists_foldlM_set? hvalues hwritten hnodup fun _ _ => not_hasKey_empty
  obtain ⟨-, -, hgives'⟩ := hof hrun
  rw [eq_of_gives fun setting => (hgives setting).trans (hgives' setting).symm]
  exact hrun

/-- A field of the `Config` has the value that the overrides give, or its default if they
give none. -/
theorem heldBy_config :
    setting.HeldBy overrides.config ↔
      overrides.Gives setting ∨ ¬ overrides.HasKey setting.key ∧ setting ∈ Setting.defaults := by
  have hfield : ∀ {α : Type} (field : Option α) (a given : α),
      field.getD a = given ↔ field = some given ∨ (∀ b, field ≠ some b) ∧ given = a := by
    intro α field a given
    cases field <;> simp [eq_comm]
  cases setting
  all_goals
    simp [Setting.HeldBy, config, hfield, Gives, HasKey, Setting.exists_iff,
      Setting.key, Setting.defaults]
    rfl

end ConfigOverrides

/-! ## Settings of a text -/

namespace Setting

variable {setting : Setting}

theorem key_mem (setting : Setting) :
    setting.key ∈ ["cipher", "hash", "encoding", "csrf_nonce_size"] := by
  cases setting <;> simp [key]

theorem WrittenAs.ne_null {value : Json} (h : setting.WrittenAs value) : value ≠ .null := by
  cases h <;> exact nofun

/-- A number from which a setting is read is the decimal numeral of a byte. -/
theorem WrittenAs.exists_eq_toString {literal : String} (h : setting.WrittenAs (.number literal)) :
    ∃ n < 256, literal = toString n := by
  cases h with
  | size size => exact ⟨size.toNat, size.toNat_lt, rfl⟩

end Setting

namespace Config

variable {text : String} {members : List (String × Json)}

theorem parse?_of_object (htext : Json.SpelledBy (.object members) text.toList) :
    parse? text = (ConfigOverrides.ofMembers? members).map ConfigOverrides.config := by
  rw [parse?, Json.parse?_eq_some_iff.mpr htext, Option.map_eq_bind]
  rfl

theorem parse?_eq_none_of_not_spelled (h : ∀ json : Json, ¬ json.SpelledBy text.toList) :
    parse? text = none := by
  have hjson : Json.parse? text = none :=
    Option.eq_none_iff_forall_ne_some.mpr fun json hjson =>
      h json (Json.parse?_eq_some_iff.mp hjson)
  rw [parse?, hjson]
  rfl

theorem exists_parse?_iff (htext : Json.SpelledBy (.object members) text.toList) :
    (∃ config, parse? text = some config) ↔
      (∀ member ∈ members, ∃ setting : Setting, setting.GivenBy member) ∧
      (members.map Prod.fst).Nodup := by
  have hvalues : ∀ member ∈ members, ∃ text, member.2.SpelledBy text := fun _ => htext.exists_member
  rw [parse?_of_object htext]
  constructor
  · rintro ⟨config, h⟩
    obtain ⟨overrides, hoverrides, -⟩ := Option.map_eq_some_iff.mp h
    obtain ⟨hgiven, hnodup, -⟩ := (ConfigOverrides.ofMembers?_eq_some_iff hvalues).mp hoverrides
    exact ⟨hgiven, hnodup⟩
  · rintro ⟨hgiven, hnodup⟩
    obtain ⟨overrides, hoverrides⟩ :=
      ConfigOverrides.exists_foldlM_set? hvalues hgiven hnodup fun _ _ =>
        ConfigOverrides.not_hasKey_empty
    exact ⟨overrides.config, Option.map_eq_some_iff.mpr ⟨overrides, hoverrides, rfl⟩⟩

theorem heldBy_of_parse? {config : Config} (htext : Json.SpelledBy (.object members) text.toList)
    (h : parse? text = some config) (setting : Setting) :
    setting.HeldBy config ↔
      (∃ member ∈ members, setting.GivenBy member) ∨
        setting.key ∉ members.map Prod.fst ∧ setting ∈ Setting.defaults := by
  rw [parse?_of_object htext] at h
  obtain ⟨overrides, hoverrides, rfl⟩ := Option.map_eq_some_iff.mp h
  obtain ⟨hgiven, -, hgives⟩ :=
    (ConfigOverrides.ofMembers?_eq_some_iff fun _ => htext.exists_member).mp hoverrides
  have hkey : ∀ key, overrides.HasKey key ↔ key ∈ members.map Prod.fst := by
    intro key
    rw [List.mem_map]
    constructor
    · rintro ⟨setting, rfl, hsetting⟩
      obtain ⟨member, hmember, hmemberGiven⟩ := (hgives setting).mp hsetting
      exact ⟨member, hmember, hmemberGiven.1⟩
    · rintro ⟨member, hmember, rfl⟩
      obtain ⟨setting, hsetting⟩ := hgiven member hmember
      exact ⟨setting, hsetting.1.symm, (hgives setting).mpr ⟨member, hmember, hsetting⟩⟩
  rw [ConfigOverrides.heldBy_config, hgives, hkey]

theorem parse?_eq_of_perm {text' : String} {members' : List (String × Json)}
    (htext : Json.SpelledBy (.object members) text.toList)
    (htext' : Json.SpelledBy (.object members') text'.toList)
    (hperm : members'.Perm members) : parse? text' = parse? text := by
  have hmembers : ConfigOverrides.ofMembers? members' = ConfigOverrides.ofMembers? members := by
    apply Option.ext
    intro overrides
    rw [ConfigOverrides.ofMembers?_eq_some_iff fun _ => htext'.exists_member,
      ConfigOverrides.ofMembers?_eq_some_iff fun _ => htext.exists_member]
    simp only [hperm.mem_iff, (hperm.map Prod.fst).nodup_iff]
  rw [parse?_of_object htext', parse?_of_object htext, hmembers]

/-- `Config.parse?` refuses a text that spells no JSON value. It accepts one that spells an object
if and only if every member gives a setting and the keys are different; the `Config` then has the
settings of the members, and the defaults for the keys that are absent, whatever the order of the
members and the spelling of the text. A repeated or unknown key, an explicit null, or a number other
than the numeral of a byte has the whole text refused. -/
theorem parse_strict_any_order (text : String) :
    ((∀ json : Json, ¬ json.SpelledBy text.toList) → parse? text = none) ∧
    ∀ members : List (String × Json), Json.SpelledBy (.object members) text.toList →
      ((∃ config, parse? text = some config) ↔
        (∀ member ∈ members, ∃ setting : Setting, setting.GivenBy member) ∧
        (members.map Prod.fst).Nodup) ∧
      (∀ config, parse? text = some config → ∀ setting : Setting, setting.HeldBy config ↔
        (∃ member ∈ members, setting.GivenBy member) ∨
          setting.key ∉ members.map Prod.fst ∧ setting ∈ Setting.defaults) ∧
      (∀ (text' : String) (members' : List (String × Json)),
        Json.SpelledBy (.object members') text'.toList →
        members'.Perm members → parse? text' = parse? text) ∧
      ((¬ (members.map Prod.fst).Nodup ∨
        (∃ member ∈ members, member.1 ∉ ["cipher", "hash", "encoding", "csrf_nonce_size"]) ∨
        (∃ member ∈ members, member.2 = .null) ∨
        (∃ member ∈ members, ∃ literal, member.2 = .number literal ∧
          ∀ n < 256, literal ≠ toString n)) →
        parse? text = none) := by
  refine ⟨parse?_eq_none_of_not_spelled, fun members htext => ⟨exists_parse?_iff htext,
    fun config h => heldBy_of_parse? htext h,
    fun text' members' htext' => parse?_eq_of_perm htext htext', ?_⟩⟩
  intro hrefused
  rw [Option.eq_none_iff_forall_ne_some]
  intro config h
  obtain ⟨hgiven, hnodup⟩ := (exists_parse?_iff htext).mp ⟨config, h⟩
  rcases hrefused with hrepeated | ⟨member, hmember, hunknown⟩ | ⟨member, hmember, hnull⟩ |
    ⟨member, hmember, literal, hliteral, hrange⟩
  · exact hrepeated hnodup
  all_goals obtain ⟨setting, hsetting⟩ := hgiven member hmember
  · exact hunknown (hsetting.1 ▸ setting.key_mem)
  · exact hsetting.2.ne_null hnull
  · have hvalue := hsetting.2
    rw [hliteral] at hvalue
    obtain ⟨n, hn, hnumeral⟩ := hvalue.exists_eq_toString
    exact hrange n hn hnumeral

/-- Two members in either order, once with blanks and an escape in a key. -/
theorem parse_strict_any_order_escaped :
    ∃ config,
      parse? "\x7b \"h\\u0061sh\" :\t\x7b\"sha512\":null\x7d,\n\"csrf_nonce_size\":255 \x7d" =
        some config ∧
      parse? "\x7b\"csrf_nonce_size\":255,\"hash\":\x7b\"sha512\":null\x7d\x7d" = some config ∧
      config.hash = .sha512 ∧ config.csrfNonceSize = 255 ∧ config.cipher = .chaCha20Poly1305 := by
  obtain ⟨-, hobject⟩ := parse_strict_any_order
    "\x7b \"h\\u0061sh\" :\t\x7b\"sha512\":null\x7d,\n\"csrf_nonce_size\":255 \x7d"
  obtain ⟨haccepted, hheld, hperm, -⟩ :=
    hobject [("hash", .object [("sha512", .null)]), ("csrf_nonce_size", .number "255")]
      (Json.parse?_eq_some_iff.mp rfl)
  have hhash : (Setting.hash .sha512).GivenBy ("hash", .object [("sha512", .null)]) :=
    ⟨rfl, .object (by simp [Setting.names])⟩
  have hsize : (Setting.csrfNonceSize 255).GivenBy ("csrf_nonce_size", .number "255") :=
    ⟨rfl, .size 255⟩
  obtain ⟨config, hconfig⟩ := haccepted.mpr ⟨by simpa using ⟨⟨_, hhash⟩, ⟨_, hsize⟩⟩, by decide⟩
  have hswapped := hperm "\x7b\"csrf_nonce_size\":255,\"hash\":\x7b\"sha512\":null\x7d\x7d" _
    (Json.parse?_eq_some_iff.mp rfl) (.swap ..)
  exact ⟨config, hconfig, hswapped.trans hconfig,
    (hheld config hconfig (.hash .sha512)).mpr (.inl ⟨_, List.mem_cons_self, hhash⟩),
    (hheld config hconfig (.csrfNonceSize 255)).mpr
      (.inl ⟨_, List.mem_cons_of_mem _ List.mem_cons_self, hsize⟩),
    (hheld config hconfig (.cipher .chaCha20Poly1305)).mpr (.inr ⟨by decide, List.mem_cons_self⟩)⟩

end Config

end SealedToken
