import Mathlib.Data.List.Induction
import Mathlib.Data.List.Nodup
import Mathlib.Data.Nat.Find
import SealedToken.Proofs.Envelope.Fault

/-!
# The grammar of envelopes

The outcome of `Envelope.decode` is settled by one cut of the byte string: before it the longest row
of complete and legal entries, after it a rest whose first bytes decide how reading ends.

* `Entry`, `Row.bytes`: entries, and the bytes of a row of them.
* `Row.Legal`: every entry has a place and fits, each is the first of its tag, and the version can
  be read.
* `IsCut`: a byte string and its longest legal row. `exists_isCut`, `IsCut.unique`: it has exactly
  one.
* `Ending`: the outcomes of reading after a row, one rule for each. `read_of_ending`: the reader
  follows the rules; `IsCut.exists_ending`: after a longest row one of them applies.
* `Envelope.decode_follows_grammar`: the outcome of `Envelope.decode` is the `Ending` of the cut.
-/

namespace SealedToken

/-- Entries of the tag may occur in the dialect. The terminal tag has no entry. -/
def Dialect.Allows (options : Dialect) : EntryTag → Prop
  | .terminal => False
  | .version => True
  | .nonce => options.allowNonce = true

/-- A tag with the value that follows its length byte. -/
structure Entry where
  tag : EntryTag
  value : Bytes
deriving DecidableEq, Repr

namespace Entry

/-- The bytes of an entry: tag, length byte and value. -/
def bytes (item : Entry) : Bytes := Envelope.entry item.tag (some item.value)

/-- The dialect allows the tag, the value is at most 255 bytes long, and `KeyVersion.ofBytes` reads
the value of a version entry. -/
structure Legal (options : Dialect) (item : Entry) : Prop where
  allowed : options.Allows item.tag
  length_le : item.value.length ≤ 255
  readable : item.tag = .version →
    ∃ version, KeyVersion.ofBytes options.kind item.value = .ok version

end Entry

/-- Entries one after the other. -/
abbrev Row := List Entry

namespace Row

/-- The wire form of a row. -/
def bytes (row : Row) : Bytes := row.flatMap Entry.bytes

/-- The tags of the entries, in order. -/
def tags (row : Row) : List EntryTag := row.map Entry.tag

/-- The value of the first entry of a tag. -/
def value? (row : Row) (tag : EntryTag) : Option Bytes :=
  (row.find? fun item => item.tag = tag).map Entry.value

/-- Every entry of the row is legal, and no tag occurs twice. -/
structure Legal (options : Dialect) (row : Row) : Prop where
  legal : ∀ item ∈ row, item.Legal options
  nodup : row.tags.Nodup

/-- The entries that `Found.record` has after the row. -/
def found (options : Dialect) (row : Row) : Found where
  version := (row.value? .version).bind fun value =>
    (KeyVersion.ofBytes options.kind value).toOption
  nonce := row.value? .nonce

/-- The envelope with the entries of the row and the payload. -/
def envelope (options : Dialect) (row : Row) (payload : Bytes) : Envelope :=
  ⟨(row.found options).version, (row.found options).nonce, payload⟩

end Row

/-- `row` is the longest legal row that `bytes` begin with, and `rest` is what follows it. -/
structure IsCut (options : Dialect) (bytes : Bytes) (row : Row) (rest : Bytes) : Prop where
  legal : row.Legal options
  bytes_eq : bytes = row.bytes ++ rest
  longest : ∀ row' rest', Row.Legal options row' → bytes = row'.bytes ++ rest' →
    rest.length ≤ rest'.length

/-- The results of `Envelope.decode` by the bytes that follow the longest legal row. -/
inductive Ending (options : Dialect) (row : Row) :
    (rest : Bytes) → Except EnvelopeError Envelope → Prop where
  /-- no bytes follow -/
  | missingTerminal : Ending options row [] (.error .missingTerminal)
  /-- all bytes after the terminal tag are the payload -/
  | terminal (payload : Bytes) :
    Ending options row (EntryTag.terminal.code :: payload) (.ok (row.envelope options payload))
  /-- a byte that is no tag of the dialect -/
  | unexpectedTag {byte : UInt8} (tail : Bytes) (hterminal : byte ≠ EntryTag.terminal.code)
    (hplace : ∀ tag, options.Allows tag → byte ≠ tag.code) :
    Ending options row (byte :: tail) (.error (.unexpectedTag byte))
  /-- a tag without a length byte -/
  | truncated {tag : EntryTag} (hplace : options.Allows tag) :
    Ending options row [tag.code] (.error (.truncated tag))
  /-- fewer bytes than the length byte says, whatever the tag -/
  | lengthOutOfRange {tag : EntryTag} {length : UInt8} {tail : Bytes} (hplace : options.Allows tag)
    (hshort : tail.length < length.toNat) :
    Ending options row (tag.code :: length :: tail)
      (.error (.lengthOutOfRange tag length.toNat tail.length))
  /-- a complete entry whose tag is in the row already, whatever its value -/
  | duplicateEntry {tag : EntryTag} {length : UInt8} {tail : Bytes} (hplace : options.Allows tag)
    (hcomplete : length.toNat ≤ tail.length) (hseen : tag ∈ row.tags) :
    Ending options row (tag.code :: length :: tail) (.error (.duplicateEntry tag))
  /-- a complete first version entry whose value `KeyVersion.ofBytes` refuses -/
  | invalidVersion {length : UInt8} {tail : Bytes} {reason : String}
    (hcomplete : length.toNat ≤ tail.length)
    (hfirst : .version ∉ row.tags)
    (hvalue : KeyVersion.ofBytes options.kind (tail.take length.toNat) =
      .error (.invalidVersion reason)) :
    Ending options row (EntryTag.version.code :: length :: tail) (.error (.invalidVersion reason))

variable {options : Dialect} {bytes rest : Bytes} {row row' : Row} {item : Entry} {tag : EntryTag}

/-! ## Entries and rows -/

theorem EntryTag.code_injective {tag tag' : EntryTag} (h : tag.code = tag'.code) : tag = tag' := by
  have hcode := EntryTag.ofCode?_eq_some_iff.mpr h
  rw [EntryTag.ofCode?_eq_some_iff.mpr rfl] at hcode
  exact Option.some.inj hcode

theorem Dialect.Allows.ne_terminal (h : options.Allows tag) : tag ≠ .terminal := by
  rintro rfl
  exact h

theorem Dialect.Allows.nonce_allowed (h : options.Allows tag) :
    tag = .nonce → options.allowNonce = true := by
  rintro rfl
  exact h

theorem Dialect.tag?_code (h : options.Allows tag) : options.tag? tag.code = some tag :=
  Dialect.tag?_eq_some_iff.mpr ⟨rfl, h.nonce_allowed⟩

theorem Dialect.allows_of_tag? {byte : UInt8} (h : options.tag? byte = some tag)
    (hne : tag ≠ .terminal) :
    options.Allows tag := by
  obtain ⟨-, hnonce⟩ := Dialect.tag?_eq_some_iff.mp h
  cases tag with
  | terminal => exact absurd rfl hne
  | version => trivial
  | nonce => exact hnonce rfl

theorem Dialect.tag?_eq_none_iff {byte : UInt8} :
    options.tag? byte = none ↔
      byte ≠ EntryTag.terminal.code ∧ ∀ tag, options.Allows tag → byte ≠ tag.code := by
  constructor
  · intro h
    have hne : ∀ tag, (tag = EntryTag.nonce → options.allowNonce = true) → byte ≠ tag.code := by
      rintro tag hnonce rfl
      rw [Dialect.tag?_eq_some_iff.mpr ⟨rfl, hnonce⟩] at h
      cases h
    exact ⟨hne .terminal nofun, fun tag hplace => hne tag hplace.nonce_allowed⟩
  · rintro ⟨hterminal, hplace⟩
    cases h : options.tag? byte with
    | none => rfl
    | some tag =>
      have hbyte := (Dialect.tag?_eq_some_iff.mp h).1
      by_cases hne : tag = .terminal
      · exact absurd (hne ▸ hbyte) hterminal
      · exact absurd hbyte (hplace tag (Dialect.allows_of_tag? h hne))

theorem Entry.bytes_eq (item : Entry) :
    item.bytes = item.tag.code :: UInt8.ofNat item.value.length :: item.value := rfl

/-- Entries with values of at most 255 bytes that begin the same byte string are equal. -/
theorem Entry.append_inj {item' : Entry} {tail tail' : Bytes} (hlen : item.value.length ≤ 255)
    (hlen' : item'.value.length ≤ 255) (h : item.bytes ++ tail = item'.bytes ++ tail') :
    item = item' ∧ tail = tail' := by
  simp only [Entry.bytes_eq, List.cons_append, List.cons.injEq] at h
  obtain ⟨htag, hlength, hvalue⟩ := h
  have hsame : item.value.length = item'.value.length := by
    rw [← toNat_ofNat_of_le hlen, hlength, toNat_ofNat_of_le hlen']
  obtain ⟨hvalue, htail⟩ := List.append_inj hvalue hsame
  obtain ⟨tag, value⟩ := item
  obtain ⟨tag', value'⟩ := item'
  obtain rfl : tag = tag' := EntryTag.code_injective htag
  obtain rfl : value = value' := hvalue
  exact ⟨rfl, htail⟩

namespace Row

theorem bytes_cons (item : Entry) (row : Row) :
    Row.bytes (item :: row) = item.bytes ++ row.bytes := rfl

theorem bytes_concat (row : Row) (item : Entry) :
    Row.bytes (row ++ [item]) = row.bytes ++ item.bytes := by
  simp [bytes]

theorem tags_concat (row : Row) (item : Entry) :
    Row.tags (row ++ [item]) = row.tags ++ [item.tag] :=
  List.map_append

/-- Rows with the same bytes are equal if their values are at most 255 bytes long. -/
theorem eq_of_bytes_eq (h : row.bytes = row'.bytes) (hlen : ∀ item ∈ row, item.value.length ≤ 255)
    (hlen' : ∀ item ∈ row', item.value.length ≤ 255) : row = row' := by
  induction row generalizing row' with
  | nil =>
    cases row' with
    | nil => rfl
    | cons item' row' => cases h
  | cons item row ih =>
    cases row' with
    | nil => cases h
    | cons item' row' =>
      obtain ⟨hitem, htail⟩ := List.forall_mem_cons.mp hlen
      obtain ⟨hitem', htail'⟩ := List.forall_mem_cons.mp hlen'
      rw [bytes_cons, bytes_cons] at h
      obtain ⟨rfl, hbytes⟩ := Entry.append_inj hitem hitem' h
      rw [ih hbytes htail htail']

theorem legal_nil : Row.Legal options [] where
  legal := nofun
  nodup := List.nodup_nil

/-- A row is legal exactly if it is without its last entry, and that is legal and has a new tag. -/
theorem legal_concat_iff :
    Row.Legal options (row ++ [item]) ↔
      row.Legal options ∧ item.Legal options ∧ item.tag ∉ row.tags := by
  constructor
  · rintro ⟨hlegal, hnodup⟩
    rw [tags_concat, List.nodup_append] at hnodup
    obtain ⟨hnodup, -, hne⟩ := hnodup
    have hitem : item.Legal options := hlegal item (by simp)
    refine ⟨⟨fun other hmem => hlegal other (List.mem_append_left _ hmem), hnodup⟩,
      hitem, fun hmem => ?_⟩
    exact hne _ hmem _ (List.mem_singleton_self _) rfl
  · rintro ⟨⟨hlegal, hnodup⟩, hitem, hfirst⟩
    refine ⟨?_, ?_⟩
    · intro other hmem
      rcases List.mem_append.mp hmem with hmem | hmem
      · exact hlegal other hmem
      · rw [List.mem_singleton.mp hmem]
        exact hitem
    · rw [tags_concat, List.nodup_append]
      refine ⟨hnodup, List.nodup_singleton _, ?_⟩
      rintro seen hseen new hnew rfl
      rw [List.mem_singleton.mp hnew] at hseen
      exact hfirst hseen

/-! ## The entries found in a row -/

theorem value?_eq_none_iff : row.value? tag = none ↔ tag ∉ row.tags := by
  simp [value?, tags]

theorem value?_concat_self (h : item.tag ∉ row.tags) :
    Row.value? (row ++ [item]) item.tag = some item.value := by
  have hnone : row.find? (fun other => other.tag = item.tag) = none :=
    Option.map_eq_none_iff.mp (value?_eq_none_iff.mpr h)
  simp [value?, hnone]

theorem value?_concat_of_ne (h : item.tag ≠ tag) :
    Row.value? (row ++ [item]) tag = row.value? tag := by
  simp [value?, h]

/-- A legal row with a version entry has a version. -/
theorem isSome_found_version (hrow : row.Legal options) (h : .version ∈ row.tags) :
    (row.found options).version.isSome := by
  cases hvalue : row.find? fun item => item.tag = .version with
  | none => exact absurd h (value?_eq_none_iff.mp (by rw [value?, hvalue]; rfl))
  | some item =>
    have htag : item.tag = .version := by simpa using List.find?_some hvalue
    obtain ⟨version, hof⟩ := (hrow.legal item (List.mem_of_find?_eq_some hvalue)).readable htag
    rw [found, value?, hvalue]
    show ((KeyVersion.ofBytes options.kind item.value).toOption).isSome
    rw [hof]
    rfl

theorem isSome_found_nonce (h : .nonce ∈ row.tags) : (row.found options).nonce.isSome := by
  cases hvalue : row.value? .nonce with
  | none => exact absurd h (value?_eq_none_iff.mp hvalue)
  | some value =>
    rw [found, hvalue]
    rfl

/-- `record` refuses a second entry of a tag as a duplicate. -/
theorem record_of_mem (hrow : row.Legal options) (hplace : options.Allows tag) (h : tag ∈ row.tags)
    (value : Bytes) :
    (row.found options).record options tag value = .error (.duplicateEntry tag) := by
  cases tag with
  | terminal => exact absurd rfl hplace.ne_terminal
  | version => rw [Found.record, if_pos (isSome_found_version hrow h)]
  | nonce => rw [Found.record, if_pos (isSome_found_nonce h)]

/-- `record` of a first version entry succeeds exactly if `KeyVersion.ofBytes` reads its value. -/
theorem record_version (h : .version ∉ row.tags) (value : Bytes) :
    (row.found options).record options .version value =
      (KeyVersion.ofBytes options.kind value).map fun version =>
        { row.found options with version := some version } := by
  have hnone : (row.found options).version = none := by
    rw [found, value?_eq_none_iff.mpr h]
    rfl
  rw [Found.record, hnone]
  rfl

/-- `record` succeeds for an entry that keeps the row legal. -/
theorem record_of_legal (h : Row.Legal options (row ++ [item])) :
    (row.found options).record options item.tag item.value =
      .ok (Row.found options (row ++ [item])) := by
  obtain ⟨-, ⟨hplace, -, hread⟩, hfirst⟩ := legal_concat_iff.mp h
  obtain ⟨tag, value⟩ := item
  have hself : Row.value? (row ++ [⟨tag, value⟩]) tag = some value := value?_concat_self hfirst
  cases tag with
  | terminal => exact absurd rfl hplace.ne_terminal
  | version =>
    obtain ⟨version, hof⟩ := hread rfl
    have hother : Row.value? (row ++ [⟨.version, value⟩]) .nonce = row.value? .nonce :=
      value?_concat_of_ne nofun
    rw [record_version hfirst, hof, found, found, hself, hother, Option.bind_some, hof]
    rfl
  | nonce =>
    have hother : Row.value? (row ++ [⟨.nonce, value⟩]) .version = row.value? .version :=
      value?_concat_of_ne nofun
    have hnone : (row.found options).nonce = none := value?_eq_none_iff.mpr hfirst
    rw [Found.record, hnone, found, found, hself, hother]
    rfl

/-- `Found.read` goes over a legal row and continues with its entries recorded. -/
theorem read_append (hrow : row.Legal options) (rest : Bytes) :
    Found.read options {} (row.bytes ++ rest) = (row.found options).read options rest := by
  induction row using List.reverseRecOn generalizing rest with
  | nil => rfl
  | append_singleton row item ih =>
    obtain ⟨hinit, hitem, -⟩ := legal_concat_iff.mp hrow
    rw [bytes_concat, List.append_assoc, ih hinit, Entry.bytes,
      Found.read_entry hitem.allowed.ne_terminal hitem.allowed.nonce_allowed hitem.length_le,
      record_of_legal hrow]
    rfl

end Row

/-! ## The cut -/

/-- Every byte string begins with a longest legal row. -/
theorem exists_isCut (options : Dialect) (bytes : Bytes) :
    ∃ row rest, IsCut options bytes row rest := by
  classical
  have hsome : ∃ left, ∃ row rest, Row.Legal options row ∧
      bytes = row.bytes ++ rest ∧ rest.length = left :=
    ⟨bytes.length, [], bytes, Row.legal_nil, rfl, rfl⟩
  obtain ⟨row, rest, hrow, hbytes, hleft⟩ := Nat.find_spec hsome
  refine ⟨row, rest, hrow, hbytes, fun row' rest' hrow' hbytes' => ?_⟩
  rw [hleft]
  exact Nat.find_min' hsome ⟨row', rest', hrow', hbytes', rfl⟩

namespace IsCut

/-- The longest legal row and the rest are unique. -/
theorem unique {rest' : Bytes} (h : IsCut options bytes row rest)
    (h' : IsCut options bytes row' rest') :
    row' = row ∧ rest' = rest := by
  have hlen : rest'.length = rest.length :=
    Nat.le_antisymm (h'.longest row rest h.legal h.bytes_eq)
      (h.longest row' rest' h'.legal h'.bytes_eq)
  obtain ⟨hrow, hrest⟩ := List.append_inj' (h'.bytes_eq.symm.trans h.bytes_eq) hlen
  exact ⟨Row.eq_of_bytes_eq hrow (fun item hmem => (h'.legal.legal item hmem).length_le)
    fun item hmem => (h.legal.legal item hmem).length_le, hrest⟩

/-- The rest after a longest row does not begin with an entry that keeps the row legal. -/
theorem not_legal_concat {tail : Bytes} (h : IsCut options bytes row (item.bytes ++ tail)) :
    ¬ Row.Legal options (row ++ [item]) := by
  intro hlegal
  have hbytes : bytes = Row.bytes (row ++ [item]) ++ tail := by
    rw [Row.bytes_concat, List.append_assoc]
    exact h.bytes_eq
  have hle := h.longest _ _ hlegal hbytes
  rw [Entry.bytes_eq, List.length_append, List.length_cons] at hle
  omega

end IsCut

/-! ## The ending of a cut -/

theorem Found.read_tag {found : Found} (hplace : options.Allows tag)
    (length : UInt8) (tail : Bytes) :
    found.read options (tag.code :: length :: tail) =
      if length.toNat ≤ tail.length then do
        (← found.record options tag (tail.take length.toNat)).read options (tail.drop length.toNat)
      else .error (.lengthOutOfRange tag length.toNat tail.length) := by
  rw [Found.read, Dialect.tag?_code hplace]
  cases tag with
  | terminal => exact absurd rfl hplace.ne_terminal
  | version => rfl
  | nonce => rfl

/-- `Found.read` after a legal row gives the result of every `Ending` that applies. -/
theorem read_of_ending {result : Except EnvelopeError Envelope} (hrow : row.Legal options)
    (h : Ending options row rest result) : (row.found options).read options rest = result := by
  cases h with
  | missingTerminal => rw [Found.read]
  | terminal payload => exact Found.read_terminal payload
  | unexpectedTag tail hterminal hplace =>
    rw [Found.read, Dialect.tag?_eq_none_iff.mpr ⟨hterminal, hplace⟩]
  | @truncated tag hplace =>
    rw [Found.read, Dialect.tag?_code hplace]
    cases tag with
    | terminal => exact absurd rfl hplace.ne_terminal
    | version => rfl
    | nonce => rfl
  | lengthOutOfRange hplace hshort => rw [Found.read_tag hplace, if_neg (Nat.not_le_of_lt hshort)]
  | duplicateEntry hplace hcomplete hseen =>
    rw [Found.read_tag hplace, if_pos hcomplete, Row.record_of_mem hrow hplace hseen]
    rfl
  | invalidVersion hcomplete hfirst hvalue =>
    have hplace : options.Allows .version := trivial
    rw [Found.read_tag hplace, if_pos hcomplete, Row.record_version hfirst, hvalue]
    rfl

/-- A complete entry of a new tag after the longest row is a version entry whose value
`KeyVersion.ofBytes` refuses. -/
theorem IsCut.unreadable_of_complete {length : UInt8} {tail : Bytes}
    (h : IsCut options bytes row (tag.code :: length :: tail)) (hplace : options.Allows tag)
    (hcomplete : length.toNat ≤ tail.length) (hfirst : tag ∉ row.tags) :
    tag = .version ∧
      ∃ reason, KeyVersion.ofBytes options.kind (tail.take length.toNat) =
        .error (.invalidVersion reason) := by
  have hlen : (tail.take length.toNat).length = length.toNat := List.length_take_of_le hcomplete
  have hfits : (tail.take length.toNat).length ≤ 255 := by
    rw [hlen]
    exact Nat.le_of_lt_succ length.toNat_lt
  have hitem : IsCut options bytes row
      (Entry.bytes ⟨tag, tail.take length.toNat⟩ ++ tail.drop length.toNat) := by
    rw [Entry.bytes_eq, hlen, UInt8.ofNat_toNat, List.cons_append,
      List.cons_append, List.take_append_drop]
    exact h
  have hstuck : ¬ Entry.Legal options ⟨tag, tail.take length.toNat⟩ :=
    fun hlegal => hitem.not_legal_concat (Row.legal_concat_iff.mpr ⟨h.legal, hlegal, hfirst⟩)
  cases tag with
  | terminal => exact absurd rfl hplace.ne_terminal
  | nonce => exact absurd ⟨hplace, hfits, nofun⟩ hstuck
  | version =>
    cases hof : KeyVersion.ofBytes options.kind (tail.take length.toNat) with
    | ok version => exact absurd ⟨hplace, hfits, fun _ => ⟨version, hof⟩⟩ hstuck
    | error e =>
      obtain ⟨reason, rfl⟩ := KeyVersion.exists_reason_of_ofBytes hof
      exact ⟨rfl, reason, rfl⟩

/-- An `Ending` applies to the bytes after the longest row. -/
theorem IsCut.exists_ending (h : IsCut options bytes row rest) :
    ∃ result, Ending options row rest result := by
  match rest with
  | [] => exact ⟨_, .missingTerminal⟩
  | byte :: tail =>
    cases htag : options.tag? byte with
    | none =>
      obtain ⟨hterminal, hplace⟩ := Dialect.tag?_eq_none_iff.mp htag
      exact ⟨_, .unexpectedTag tail hterminal hplace⟩
    | some tag =>
      obtain ⟨rfl, -⟩ := Dialect.tag?_eq_some_iff.mp htag
      by_cases hne : tag = .terminal
      · subst hne
        exact ⟨_, .terminal tail⟩
      have hplace := Dialect.allows_of_tag? htag hne
      match tail with
      | [] => exact ⟨_, .truncated hplace⟩
      | length :: tail =>
        by_cases hshort : tail.length < length.toNat
        · exact ⟨_, .lengthOutOfRange hplace hshort⟩
        have hcomplete := Nat.le_of_not_lt hshort
        by_cases hseen : tag ∈ row.tags
        · exact ⟨_, .duplicateEntry hplace hcomplete hseen⟩
        obtain ⟨rfl, reason, hvalue⟩ := h.unreadable_of_complete hplace hcomplete hseen
        exact ⟨_, .invalidVersion hcomplete hseen hvalue⟩

theorem Envelope.decode_of_ending {result : Except EnvelopeError Envelope}
    (hrow : row.Legal options) (h : Ending options row rest result) :
    Envelope.decode options (row.bytes ++ rest) = result := by
  rw [Envelope.decode_eq_read, Row.read_append hrow]
  exact read_of_ending hrow h

theorem Envelope.decode_of_isCut {result : Except EnvelopeError Envelope}
    (hcut : IsCut options bytes row rest) (h : Ending options row rest result) :
    Envelope.decode options bytes = result := by
  rw [hcut.bytes_eq]
  exact Envelope.decode_of_ending hcut.legal h

/-- Every byte string has exactly one longest legal row, `Envelope.decode` gives the result of the
`Ending` that applies to the bytes after it, and it never fails with a fault of the writer. -/
theorem Envelope.decode_follows_grammar (options : Dialect) (bytes : Bytes) :
    (∃ row rest, IsCut options bytes row rest ∧
      ∀ row' rest', IsCut options bytes row' rest' → row' = row ∧ rest' = rest) ∧
    (∀ result, Envelope.decode options bytes = result ↔
      ∃ row rest, IsCut options bytes row rest ∧ Ending options row rest result) ∧
    ∀ e, Envelope.decode options bytes = .error e → e.isWriterFault = false := by
  obtain ⟨row, rest, hcut⟩ := exists_isCut options bytes
  refine ⟨⟨row, rest, hcut, fun _ _ => hcut.unique⟩, fun result => ⟨?_, ?_⟩, fun e => ?_⟩
  · rintro rfl
    obtain ⟨result, hending⟩ := hcut.exists_ending
    refine ⟨row, rest, hcut, ?_⟩
    rw [Envelope.decode_of_isCut hcut hending]
    exact hending
  · rintro ⟨row', rest', hcut', hending⟩
    exact Envelope.decode_of_isCut hcut' hending
  · exact Envelope.isWriterFault_of_decode

/-- A second version that is also too long is too long in the first place. -/
example : Envelope.decode {} [1, 0, 1, 5] = .error (.lengthOutOfRange .version 5 0) := by cbv

end SealedToken
