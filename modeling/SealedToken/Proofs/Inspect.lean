import SealedToken.Inspect
import SealedToken.Proofs.Text.Quoted

/-!
# Diagnostic texts

`inspect` is injective in the public parts of a value and does not depend on its secrets. The text
of a whole is made of the texts of its parts one after the other, so each part has to tell where it
ends.

* `Inspect.Told`: two texts that differ still do when any texts follow them. `Inspect.Apart`: the
  texts have different first characters.
* `Inspect.Tells`: types on which `inspect` is injective and its texts are told where they end.
* `Inspect.Told.inspectTuple`, `Inspect.Told.inspectRecord`: constructors and structures of such
  texts.
* `Inspect.inspectRecord_eq_iff`: `inspectRecord` is injective in the texts of the fields.
* `inspect_tells_public_parts`: two keys, ciphers, services or stored secrets have one text exactly
  if their public parts are equal.
-/

namespace SealedToken

namespace Inspect

/-! ## Texts that tell where they end -/

/-- The rest of a text behind the text of a value is empty, or begins with a comma, a blank or a
parenthesis. -/
def Ends : List Char → Prop
  | [] => True
  | c :: _ => c = ',' ∨ c = ' ' ∨ c = ')'

/-- `v` and `w` are equal if they are equal once rests of diagnostic texts are appended. -/
def Told (v w : String) : Prop :=
  ∀ rest rest', Ends rest → Ends rest' → v.toList ++ rest = w.toList ++ rest' → v = w

variable {v w : String}

theorem Ends.append {cs : List Char} (h : Ends cs) (hne : cs ≠ []) (rest : List Char) :
    Ends (cs ++ rest) := by
  cases cs with
  | nil => exact absurd rfl hne
  | cons c cs => exact h

/-- The first characters of the texts differ. -/
def Apart (v w : String) : Prop := ∃ c d, v.toList.head? = some c ∧ w.toList.head? = some d ∧ c ≠ d

namespace Apart

theorem symm (h : Apart v w) : Apart w v := by
  obtain ⟨c, d, hv, hw, hne⟩ := h
  exact ⟨d, c, hw, hv, hne.symm⟩

theorem told (h : Apart v w) : Told v w := by
  obtain ⟨c, d, hv, hw, hne⟩ := h
  intro rest rest' _ _ heq
  have hhead := congrArg List.head? heq
  rw [List.head?_append, List.head?_append, hv, hw] at hhead
  exact absurd (Option.some.inj hhead) hne

theorem ne (h : Apart v w) : v ≠ w := by
  obtain ⟨c, d, hv, hw, hne⟩ := h
  rintro rfl
  exact hne (Option.some.inj (hv.symm.trans hw))

end Apart

namespace Told

theorem refl (v : String) : Told v v := fun _ _ _ _ _ => rfl

theorem quotedText (s t : String) : Told (quotedText s) (quotedText t) := by
  intro rest rest' _ _ h
  rw [quotedText_append_inj h]

/-- Texts that contain no comma, blank or parenthesis. -/
theorem of_no_end (hv : ∀ c ∈ v.toList, ¬ Ends [c]) (hw : ∀ c ∈ w.toList, ¬ Ends [c]) :
    Told v w := by
  intro rest rest' hrest hrest' h
  rw [← String.toList_inj]
  generalize v.toList = cs at hv h ⊢
  generalize w.toList = ds at hw h ⊢
  induction cs generalizing ds with
  | nil =>
    match ds with
    | [] => rfl
    | d :: ds =>
      rw [List.nil_append] at h
      rw [h] at hrest
      exact absurd hrest (hw d List.mem_cons_self)
  | cons c cs ih =>
    match ds with
    | [] =>
      rw [List.nil_append] at h
      rw [← h] at hrest'
      exact absurd hrest' (hv c List.mem_cons_self)
    | d :: ds =>
      obtain ⟨hhead, htail⟩ := List.cons.inj h
      rw [hhead, ih (List.forall_mem_cons.mp hv).2 ds (List.forall_mem_cons.mp hw).2 htail]

/-- The same text before both, and the same text behind both, which ends them. -/
theorem wrap (h : Told v w) {before behind : String}
    (hends : Ends behind.toList) (hne : behind ≠ "") :
    Told (before ++ v ++ behind) (before ++ w ++ behind) := by
  intro rest rest' _ _ heq
  have hbehind : behind.toList ≠ [] := fun hnil => hne (String.toList_inj.mp hnil)
  simp only [String.toList_append, List.append_assoc, List.append_cancel_left_eq] at heq
  rw [h _ _ (hends.append hbehind rest) (hends.append hbehind rest') heq]

theorem inspectTuple (h : Told v w) (name : String) :
    Told (SealedToken.inspectTuple name v) (SealedToken.inspectTuple name w) :=
  h.wrap (.inr (.inr rfl)) (by decide)

end Told

/-! ## Structures -/

/-- The characters of a record text behind the value of a field: the other fields and the closing
brace. -/
def behindField (more : Bool) : List (String × String) → List Char
  | [] => (if more then ", .. \x7d" else " \x7d").toList
  | (field, value) :: fields => (", " ++ field ++ ": " ++ value).toList ++ behindField more fields

theorem ends_behindField (more : Bool) (fields : List (String × String)) (rest : List Char) :
    Ends (behindField more fields ++ rest) := by
  cases fields with
  | nil =>
    cases more
    · exact .inr (.inl rfl)
    · exact .inl rfl
  | cons entry fields =>
    rw [behindField, String.append_assoc, String.append_assoc,
      String.toList_append, List.append_assoc]
    exact .inl rfl

theorem toList_inspectRecord (name field value : String)
    (fields : List (String × String)) (more : Bool) :
    (inspectRecord name ((field, value) :: fields) more).toList =
      (name ++ " \x7b " ++ field ++ ": " ++ value).toList ++ behindField more fields := by
  suffices hshown : (", ".intercalate (if more then
      ((field, value) :: fields).map (fun entry => entry.1 ++ ": " ++ entry.2) ++ [".."]
      else ((field, value) :: fields).map fun entry => entry.1 ++ ": " ++ entry.2) ++
        " \x7d").toList =
        (field ++ ": " ++ value).toList ++ behindField more fields by
    rw [inspectRecord, String.append_assoc, String.toList_append]
    refine (congrArg _ hshown).trans ?_
    simp only [String.toList_append, List.append_assoc]
  induction fields generalizing field value with
  | nil => cases more <;> simp [behindField]
  | cons entry fields ih =>
    obtain ⟨field', value'⟩ := entry
    have hrest := ih field' value'
    cases more <;>
      simp only [Bool.false_eq_true, ↓reduceIte, List.map_cons, List.cons_append,
        String.intercalate_cons_cons, String.toList_append, List.append_assoc,
        behindField] at hrest ⊢ <;>
      rw [hrest]

/-- The lists have the same field names in the same order, and the values in each place satisfy
`Told`. -/
def FieldsTold (fields fields' : List (String × String)) : Prop :=
  List.Forall₂ (fun entry entry' => entry.1 = entry'.1 ∧ Told entry.2 entry'.2) fields fields'

theorem eq_of_behindField {more : Bool} {fields fields' : List (String × String)}
    (h : FieldsTold fields fields') {rest rest' : List Char}
    (heq : behindField more fields ++ rest = behindField more fields' ++ rest') :
    fields = fields' := by
  induction h with
  | nil => rfl
  | @cons entry entry' fields fields' hentry _ ih =>
    obtain ⟨hname, htold⟩ := hentry
    simp only [behindField, String.toList_append, List.append_assoc, hname,
      List.append_cancel_left_eq] at heq
    have hvalue :=
      htold _ _ (ends_behindField more fields rest) (ends_behindField more fields' rest') heq
    rw [hvalue, List.append_cancel_left_eq] at heq
    rw [ih heq, Prod.ext hname hvalue]

variable {name : String} {more : Bool} {fields fields' : List (String × String)}

theorem inspectRecord_append_inj (h : FieldsTold fields fields') {rest rest' : List Char}
    (heq : (inspectRecord name fields more).toList ++ rest =
      (inspectRecord name fields' more).toList ++ rest') :
    fields = fields' := by
  cases h with
  | nil => rfl
  | @cons entry entry' fields fields' hentry hfields =>
    obtain ⟨hname, htold⟩ := hentry
    rw [toList_inspectRecord, toList_inspectRecord, hname] at heq
    simp only [String.toList_append, List.append_assoc, List.append_cancel_left_eq] at heq
    have hvalue :=
      htold _ _ (ends_behindField more fields rest) (ends_behindField more fields' rest') heq
    rw [hvalue, List.append_cancel_left_eq] at heq
    rw [eq_of_behindField hfields heq, Prod.ext hname hvalue]

theorem Told.inspectRecord (h : FieldsTold fields fields') :
    Told (SealedToken.inspectRecord name fields more)
    (SealedToken.inspectRecord name fields' more) := by
  intro rest rest' _ _ heq
  rw [inspectRecord_append_inj h heq]

/-- `inspectRecord` gives equal texts exactly for equal fields. -/
theorem inspectRecord_eq_iff (h : FieldsTold fields fields') :
    inspectRecord name fields more = inspectRecord name fields' more ↔ fields = fields' := by
  constructor
  · intro heq
    exact @inspectRecord_append_inj name more fields fields' h [] [] (by rw [heq])
  · rintro rfl
    rfl

/-! ## Values without secrets -/

/-- `inspect` is injective on the type, and any two of its texts are told where they end. -/
class Tells (α : Type) [Inspect α] : Prop where
  told : ∀ a b : α, Told (inspect a) (inspect b)
  inj : ∀ {a b : α}, inspect a = inspect b ↔ a = b

theorem inspectTuple_inj : inspectTuple name v = inspectTuple name w ↔ v = w := by
  rw [inspectTuple, inspectTuple, String.append_left_inj, String.append_right_inj]

theorem head?_append {c : Char} (h : v.toList.head? = some c) : (v ++ w).toList.head? = some c := by
  rw [String.toList_append, List.head?_append, h]
  rfl

/-- The text of a constructor begins with the first character of its name. -/
theorem head?_inspectTuple {c : Char} (h : name.toList.head? = some c) :
    (inspectTuple name v).toList.head? = some c :=
  head?_append (head?_append (head?_append h))

theorem apart_some_none (v : String) : Apart (inspectTuple "Some" v) "None" :=
  ⟨'S', 'N', head?_inspectTuple rfl, rfl, by decide⟩

theorem apart_label_number (v w : String) :
    Apart (inspectTuple "Label" v) (inspectTuple "Number" w) :=
  ⟨'L', 'N', head?_inspectTuple rfl, head?_inspectTuple rfl, by decide⟩

/-- The text consists of letters, digits and underscores. -/
def isWord (v : String) : Bool := v.toList.all fun c => c.isAlphanum || c == '_'

theorem Told.of_isWord (hv : isWord v) (hw : isWord w) : Told v w := by
  have hword : ∀ {text : String}, isWord text → ∀ c ∈ text.toList, ¬ Ends [c] := by
    intro text htext c hc hends
    have hchar := List.all_eq_true.mp htext c hc
    rcases hends with rfl | rfl | rfl <;> exact absurd hchar (by decide)
  exact .of_no_end (hword hv) (hword hw)

instance : Tells CipherSuite where
  told a b := .of_isWord (by cases a <;> decide) (by cases b <;> decide)
  inj := by
    intro a b
    cases a <;> cases b <;> decide

instance : Tells HashAlgorithm where
  told a b := .of_isWord (by cases a <;> decide) (by cases b <;> decide)
  inj := by
    intro a b
    cases a <;> cases b <;> decide

instance : Tells TextForm where
  told a b := .of_isWord (by cases a <;> decide) (by cases b <;> decide)
  inj := by
    intro a b
    cases a <;> cases b <;> decide

instance : Tells String where
  told := Told.quotedText
  inj := quotedText_inj

theorem isWord_toString (n : Nat) : isWord (toString n) := by
  rw [isWord, Nat.toString_eq_ofList_toDigits, String.toList_ofList, List.all_eq_true]
  intro c hc
  rw [Char.isAlphanum, Nat.isDigit_of_mem_toDigits (by decide) (by decide) hc,
    Bool.or_true, Bool.true_or]

instance : Tells Nat where
  told m n := .of_isWord (isWord_toString m) (isWord_toString n)
  inj := toString_inj

instance {α : Type} [Inspect α] [Tells α] : Tells (Option α) where
  told
    | none, none => .refl _
    | some a, some b => (Tells.told a b).inspectTuple "Some"
    | some a, none => (apart_some_none (inspect a)).told
    | none, some b => (apart_some_none (inspect b)).symm.told
  inj := by
    intro a b
    match a, b with
    | none, none => exact iff_of_true rfl rfl
    | some a, some b => exact inspectTuple_inj.trans (Tells.inj.trans Option.some_inj.symm)
    | some a, none => exact iff_of_false (apart_some_none (inspect a)).ne nofun
    | none, some b => exact iff_of_false (apart_some_none (inspect b)).symm.ne nofun

instance : Tells KeyVersion where
  told
    | .label text, .label text' => (Tells.told text text').inspectTuple "Label"
    | .number value, .number value' => (Tells.told value.toNat value'.toNat).inspectTuple "Number"
    | .label _, .number _ => (apart_label_number _ _).told
    | .number _, .label _ => (apart_label_number _ _).symm.told
  inj := by
    intro a b
    match a, b with
    | .label text, .label text' =>
      exact inspectTuple_inj.trans (Tells.inj.trans (by rw [KeyVersion.label.injEq]))
    | .number value, .number value' =>
      exact inspectTuple_inj.trans
        (Tells.inj.trans (by rw [UInt64.toNat_inj, KeyVersion.number.injEq]))
    | .label _, .number _ => exact iff_of_false (apart_label_number _ _).ne nofun
    | .number _, .label _ => exact iff_of_false (apart_label_number _ _).symm.ne nofun

end Inspect

open Inspect

/-! ## Values with secrets -/

theorem told_inspectSecret {α β : Type} (a : Option α) (b : Option β) :
    Told (inspectSecret a) (inspectSecret b) :=
  match a, b with
  | none, none | some _, some _ => .refl _
  | some _, none => (apart_some_none redacted).told
  | none, some _ => (apart_some_none redacted).symm.told

theorem inspectSecret_eq_iff {α β : Type} {a : Option α} {b : Option β} :
    inspectSecret a = inspectSecret b ↔ a.isSome = b.isSome := by
  match a, b with
  | none, none | some _, some _ => exact iff_of_true rfl rfl
  | some _, none => exact iff_of_false (apart_some_none redacted).ne nofun
  | none, some _ => exact iff_of_false (apart_some_none redacted).symm.ne nofun

/-- `inspect` of a fixed key depends on its version only, and is told where it ends. -/
theorem FixedKey.told_and_inspect_eq_iff (a b : FixedKey) :
    Told (inspect a) (inspect b) ∧ (inspect a = inspect b ↔ a.version = b.version) := by
  have hfields : FieldsTold [("key", redacted), ("version", inspect a.version)]
      [("key", redacted), ("version", inspect b.version)] :=
    .cons ⟨rfl, .refl _⟩ (.cons ⟨rfl, Tells.told _ _⟩ .nil)
  refine ⟨.inspectRecord hfields, (inspectRecord_eq_iff hfields).trans ?_⟩
  simp [Tells.inj]

/-- `inspect` of a key with a version depends on the length of the key and the version, and
determines them. -/
theorem VersionedKey.inspect_eq_iff {a b : VersionedKey} :
    inspect a = inspect b ↔ a.key.length = b.key.length ∧ a.version = b.version := by
  have hlength : Told ("<" ++ inspect a.key.length ++ " bytes redacted>")
      ("<" ++ inspect b.key.length ++ " bytes redacted>") :=
    (Tells.told a.key.length b.key.length).wrap (.inr (.inl rfl)) (by decide)
  have hfields : FieldsTold
      [("key", "<" ++ inspect a.key.length ++ " bytes redacted>"), ("version", inspect a.version)]
      [("key", "<" ++ inspect b.key.length ++ " bytes redacted>"),
        ("version", inspect b.version)] :=
    .cons ⟨rfl, hlength⟩ (.cons ⟨rfl, Tells.told _ _⟩ .nil)
  refine (inspectRecord_eq_iff hfields).trans ?_
  simp [Tells.inj]

/-- `inspect` of a cipher depends on its suite and the length of its key, and determines them. -/
theorem Cipher.inspect_eq_iff {a b : Cipher} :
    inspect a = inspect b ↔ a.suite = b.suite ∧ a.key.length = b.key.length := by
  have hname : inspect a = inspect b ↔ cipherName a = cipherName b :=
    inspectTuple_inj.trans Tells.inj
  rw [hname]
  cases a with
  | aes128Gcm k | aes192Gcm k | aes256Gcm k | chaCha20Poly1305 k =>
    cases b with
    | aes128Gcm l | aes192Gcm l | aes256Gcm l | chaCha20Poly1305 l =>
      simp [cipherName, suite, key, k.length_bytes, l.length_bytes]

theorem SecretAnswer.inspect_eq_iff {a b : SecretAnswer} :
    inspect a = inspect b ↔
      a.binary.isSome = b.binary.isSome ∧ a.string.isSome = b.string.isSome ∧
      a.versionId = b.versionId := by
  have hfields : FieldsTold
      [("binary", inspectSecret a.binary), ("string", inspectSecret a.string),
        ("version_id", inspect a.versionId)]
      [("binary", inspectSecret b.binary), ("string", inspectSecret b.string),
        ("version_id", inspect b.versionId)] :=
    .cons ⟨rfl, told_inspectSecret _ _⟩ <|
      .cons ⟨rfl, told_inspectSecret _ _⟩ <| .cons ⟨rfl, Tells.told _ _⟩ .nil
  refine (inspectRecord_eq_iff hfields).trans ?_
  simp [Tells.inj, inspectSecret_eq_iff]

theorem ParameterAnswer.inspect_eq_iff {a b : ParameterAnswer} :
    inspect a = inspect b ↔ a.version = b.version := by
  have hfields : FieldsTold [("value", redacted), ("version", inspect a.version.toNat)]
      [("value", redacted), ("version", inspect b.version.toNat)] :=
    .cons ⟨rfl, .refl _⟩ (.cons ⟨rfl, Tells.told _ _⟩ .nil)
  refine (inspectRecord_eq_iff hfields).trans ?_
  simp [Tells.inj, UInt64.toNat_inj]

/-! ## Services -/

section

variable {κ : Type} [Inspect κ] (hkeys : ∀ k l : κ, Told (inspect k) (inspect l))

include hkeys

theorem Codec.inspect_eq_iff {a b : Codec κ} :
    inspect a = inspect b ↔
      a.suite = b.suite ∧ a.encoding = b.encoding ∧ inspect a.keys = inspect b.keys := by
  have hfields : FieldsTold
      [("cipher", inspect a.suite), ("encoding", inspect a.encoding), ("keys", inspect a.keys)]
      [("cipher", inspect b.suite), ("encoding", inspect b.encoding), ("keys", inspect b.keys)] :=
    .cons ⟨rfl, Tells.told _ _⟩ (.cons ⟨rfl, Tells.told _ _⟩ (.cons ⟨rfl, hkeys _ _⟩ .nil))
  refine (inspectRecord_eq_iff hfields).trans ?_
  simp [Tells.inj]

/-- `inspect` of a signer depends on its hash and on `inspect` of its keys, and determines them; the
source of its nonces is not in it. -/
theorem Signer.told_and_inspect_eq_iff (a b : Signer κ) :
    Told (inspect a) (inspect b) ∧
      (inspect a = inspect b ↔ a.hash = b.hash ∧ inspect a.keys = inspect b.keys) := by
  have hfields : FieldsTold [("hash", inspect a.hash), ("keys", inspect a.keys)]
      [("hash", inspect b.hash), ("keys", inspect b.keys)] :=
    .cons ⟨rfl, Tells.told _ _⟩ (.cons ⟨rfl, hkeys _ _⟩ .nil)
  refine ⟨.inspectRecord hfields, (inspectRecord_eq_iff hfields).trans ?_⟩
  simp [Tells.inj]

theorem Csrf.inspect_eq_iff {a b : Csrf κ} : inspect a = inspect b ↔
    inspect a.signer = inspect b.signer ∧ a.encoding = b.encoding ∧ a.nonceSize = b.nonceSize := by
  have hfields : FieldsTold
      [("signer", inspect a.signer), ("encoding", inspect a.encoding),
        ("nonce_size", inspect a.nonceSize.toNat)]
      [("signer", inspect b.signer), ("encoding", inspect b.encoding),
        ("nonce_size", inspect b.nonceSize.toNat)] :=
    .cons ⟨rfl, (Signer.told_and_inspect_eq_iff hkeys _ _).1⟩
      (.cons ⟨rfl, Tells.told _ _⟩ (.cons ⟨rfl, Tells.told _ _⟩ .nil))
  refine (inspectRecord_eq_iff hfields).trans ?_
  simp [Tells.inj, UInt8.toNat_inj]

end

/-- Two values have the same diagnostic text exactly if their public parts are equal: versions, the
names of suites, text forms and hashes, the sizes of nonces, the length of a key that was looked up
or is a cipher's, and whether a secret is there. The text does not depend on the bytes of a key or
of a secret, and for a fixed key not even on their number. -/
theorem inspect_tells_public_parts :
    (∀ a b : FixedKey, inspect a = inspect b ↔ a.version = b.version) ∧
    (∀ a b : VersionedKey, inspect a = inspect b ↔
      a.key.length = b.key.length ∧ a.version = b.version) ∧
    (∀ a b : Cipher, inspect a = inspect b ↔ a.suite = b.suite ∧ a.key.length = b.key.length) ∧
    (∀ a b : Codec FixedKey, inspect a = inspect b ↔
      a.suite = b.suite ∧ a.encoding = b.encoding ∧ a.keys.version = b.keys.version) ∧
    (∀ a b : Signer FixedKey, inspect a = inspect b ↔
      a.hash = b.hash ∧ a.keys.version = b.keys.version) ∧
    (∀ a b : Csrf FixedKey, inspect a = inspect b ↔
      (a.signer.hash = b.signer.hash ∧ a.signer.keys.version = b.signer.keys.version) ∧
        a.encoding = b.encoding ∧ a.nonceSize = b.nonceSize) ∧
    (∀ a b : SecretAnswer, inspect a = inspect b ↔
      a.binary.isSome = b.binary.isSome ∧ a.string.isSome = b.string.isSome ∧
      a.versionId = b.versionId) ∧
    ∀ a b : ParameterAnswer, inspect a = inspect b ↔ a.version = b.version := by
  -- the text of a key is a part of those of the services, and has to tell where it ends there
  have hkeys : ∀ k l : FixedKey, Told (inspect k) (inspect l) :=
    fun k l => (k.told_and_inspect_eq_iff l).1
  have hversion : ∀ k l : FixedKey, inspect k = inspect l ↔ k.version = l.version := fun k l =>
    (k.told_and_inspect_eq_iff l).2
  have hsigner : ∀ a b : Signer FixedKey, inspect a = inspect b ↔
      a.hash = b.hash ∧ a.keys.version = b.keys.version := by
    intro a b
    rw [(Signer.told_and_inspect_eq_iff hkeys a b).2, hversion]
  refine ⟨hversion, fun a b => VersionedKey.inspect_eq_iff,
    fun a b => Cipher.inspect_eq_iff, ?_, hsigner, ?_, fun a b => SecretAnswer.inspect_eq_iff,
    fun a b => ParameterAnswer.inspect_eq_iff⟩
  · intro a b
    rw [Codec.inspect_eq_iff hkeys, hversion]
  · intro a b
    rw [Csrf.inspect_eq_iff hkeys, hsigner]

end SealedToken
