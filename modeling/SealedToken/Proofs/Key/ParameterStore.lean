import Mathlib.Logic.Function.Basic
import SealedToken.Key.ParameterStore
import SealedToken.Proofs.Service.Recorded
import SealedToken.Proofs.Service.Signer
import SealedToken.Proofs.Text.Quoted

/-!
# Keys of a parameter store and their names

A parameter store is asked by full name, and the number of a version is part of it. Different
numbers give different names, and none is that of the current key unless the label reads as the
number. The number 0 stands for no version: it asks for the current key.

* `ParameterStore.fullName_eq_fullName_iff`, `ParameterStore.fullName_eq_current_iff`: the equations
  between full names.
* `ParameterStore.PinnedTo`: an action that asks for the key of one number, and does not depend on
  the answer for the current key.
* `ParameterStore.pinsNumbers`: every number but 0 has its own name, apart from the current one's
  unless it is the label, and a token is read with the key of its number.
  `ParameterStore.not_all_numbers_pin`: the exceptions occur.
* `ParameterStore.Holds`: the store has a history of values; `ParameterStore.Fetches`: the outcomes
  of `lookup` for the answer to a query.
* `ParameterStore.honoursContract`: a key that was current is found under its number after any
  changes, with one query, whose answer decides.
-/

namespace SealedToken

namespace ParameterStore

variable {store : ParameterStore} {n m : UInt64} {values later : List String} {value : String}
  {client : ParameterQuery → Except KeyError ParameterAnswer} {α : Type}

/-- The source with another client for the same parameter. -/
def withClient (store : ParameterStore)
    (client : ParameterQuery → Except KeyError ParameterAnswer) :
    ParameterStore :=
  { store with client }

/-- The query of the source for the number `n`; for `n = 0` it is the query for the current key. -/
def query (store : ParameterStore) (n : UInt64) : ParameterQuery :=
  ⟨store.fullName n, store.withDecryption⟩

theorem answer_withClient (query : ParameterQuery) (h : client query = store.client query) :
    (store.withClient client).answer query = store.answer query := by
  simp only [answer, withClient, h]

/-! ## Names -/

/-- Different numbers have different numerals. -/
theorem toString_toNat_inj : toString n.toNat = toString m.toNat ↔ n = m :=
  toString_inj.trans UInt64.toNat_inj

theorem fullName_of_ne_zero (h : n ≠ 0) :
    store.fullName n = store.name ++ ":" ++ toString n.toNat :=
  if_neg h

theorem fullName_zero_of_label {label : String} (h : store.label = some label) :
    store.fullName 0 = store.name ++ ":" ++ label := by
  simp [fullName, h]

theorem fullName_zero_of_no_label (h : store.label = none) : store.fullName 0 = store.name := by
  simp [fullName, h]

theorem fullName_eq_fullName_iff (hn : n ≠ 0) (hm : m ≠ 0) :
    store.fullName n = store.fullName m ↔ n = m := by
  rw [fullName_of_ne_zero hn, fullName_of_ne_zero hm, String.append_right_inj, toString_toNat_inj]

/-- The name asked for a number other than 0 is that asked for the current key exactly if the label
is the numeral of the number. -/
theorem fullName_eq_current_iff (hn : n ≠ 0) :
    store.fullName n = store.fullName 0 ↔ store.label = some (toString n.toNat) := by
  rw [fullName_of_ne_zero hn]
  cases hlabel : store.label with
  | none =>
    rw [fullName_zero_of_no_label hlabel]
    constructor
    · -- the name of a number is longer than the parameter's own
      intro h
      have hlength := congrArg String.length h
      simp only [String.length_append] at hlength
      have hcolon : (":" : String).length = 1 := rfl
      omega
    · nofun
  | some label =>
    rw [fullName_zero_of_label hlabel, String.append_right_inj, Option.some.injEq, eq_comm]

theorem query_ne_current (hn : n ≠ 0) (hlabel : store.label ≠ some (toString n.toNat)) :
    store.query n ≠ store.query 0 :=
  fun h => hlabel ((fullName_eq_current_iff hn).mp (congrArg ParameterQuery.name h))

/-! ## Reading with the key of a number -/

/-- The action asks the store once, with the query for `n`. If that differs from the query for the
current key, its outcome does not depend on the answer to the latter. -/
structure PinnedTo (store : ParameterStore) (n : UInt64)
    (action : ParameterStore → Action TokenError α) : Prop where
  asks_once : ∀ before, ((action store).run before).2.calls =
    before.calls ++ [.resolve (some (.number n)), .fetch (.parameter (store.query n))]
  current_unread : n ≠ 0 → store.label ≠ some (toString n.toNat) → ∀ answer before,
    ((action
      (store.withClient (Function.update store.client (store.query 0) answer))).run before).1 =
      ((action store).run before).1

theorem sameKey_withClient (h : client (store.query n) = store.client (store.query n)) :
    KeySource.SameKey (store.withClient client) store (some (.number n)) :=
  congrArg (Except.map VersionedKey.key) (answer_withClient _ h)

/-- An action that uses the key of the recorded version is pinned to the number of that version. -/
theorem pinnedTo_of_usesRecordedKey {read : Except EnvelopeError Envelope} {envelope : Envelope}
    {action : ∀ (κ : Type) [KeySource κ], κ → Action TokenError α}
    (huses : UsesRecordedKey .number read action)
    (hread : read = .ok envelope) (hversion : envelope.version = some (.number n)) :
    store.PinnedTo n (action ParameterStore) where
  asks_once before := by
    rw [huses.asks_once ParameterStore store before envelope rfl hread, hversion]
    rfl
  current_unread hn hlabel answer before := by
    refine huses.outcome_eq _ _ _ _ before before envelope rfl rfl hread ?_
    rw [hversion]
    exact sameKey_withClient (Function.update_of_ne (query_ne_current hn hlabel) _ _)

/-- `lookup` asks for a number under its own name, which differs from the names of all other
numbers, and from that of the current key unless the label is the numeral. `Codec.decode` and
`Signer.verify` of an envelope with the number `n` are pinned to `n`. -/
structure PinsNumbers (store : ParameterStore) : Prop where
  queries_number :
    ∀ n, (KeySource.lookup store (some (.number n))).queries = [.parameter (store.query n)]
  queries_current : (KeySource.lookup store none).queries = [.parameter (store.query 0)]
  name_eq_iff : ∀ n m, n ≠ 0 → m ≠ 0 → ((store.query n).name = (store.query m).name ↔ n = m)
  name_eq_current_iff : ∀ n, n ≠ 0 →
    ((store.query n).name = (store.query 0).name ↔ store.label = some (toString n.toNat))
  decode_pinned : ∀ suite form bytes envelope n,
    Envelope.decode (Dialect.codec .number) bytes = .ok envelope →
      envelope.version = some (.number n) →
      store.PinnedTo n fun keys => Codec.decode ⟨suite, form, keys⟩ bytes
  verify_pinned : ∀ hash nonces signature payload envelope n,
    Envelope.decode (Dialect.signer .number) signature = .ok envelope →
      envelope.version = some (.number n) →
      store.PinnedTo n fun keys => Signer.verify ⟨hash, keys, nonces⟩ signature payload

/-- Numbers other than 0 have names of their own, and only the label can make one of them the name
of the current key. So the outcome of reading a token whose number is neither 0 nor the label does
not depend on the current key of the store. -/
theorem pinsNumbers (store : ParameterStore) : store.PinsNumbers where
  queries_number _ := rfl
  queries_current := rfl
  name_eq_iff _ _ := fullName_eq_fullName_iff
  name_eq_current_iff _ := fullName_eq_current_iff
  decode_pinned suite form bytes _ _ hread hversion :=
    pinnedTo_of_usesRecordedKey (Codec.usesRecordedKey suite form .number bytes) hread hversion
  verify_pinned hash nonces signature payload _ _ hread hversion :=
    pinnedTo_of_usesRecordedKey
      (Signer.usesRecordedKey hash nonces .number signature payload) hread hversion

/-- A source of the parameter `key` with one version, optionally asked by a label that
stands at it. -/
def ofEntry (label : Option String) : ParameterStore :=
  let table : ParameterTable := [⟨"key", .ok ⟨"k", 3⟩⟩, ⟨"key:5", .ok ⟨"k", 3⟩⟩]
  { client := table.client, name := "key", label, decoder := .raw }

/-- `lookup` of the number 0 sends the query for the current key, and a token with the number 0 is
verified with that key. So does `lookup` of the number 5 under the label `5`. -/
theorem not_all_numbers_pin :
    (KeySource.lookup (ofEntry none) (some (.number 0))).queries =
      (KeySource.lookup (ofEntry none) none).queries ∧
    (KeySource.lookup (ofEntry (some "5")) (some (.number 5))).queries =
      (KeySource.lookup (ofEntry (some "5")) none).queries ∧
    (KeySource.lookup (ofEntry (some "5")) (some (.number 5))).queries =
      (KeySource.lookup (ofEntry (some "5")) (some (.number 0))).queries ∧
    ((Signer.verify ⟨.sha256, ofEntry none, .system⟩
      ([1, 8, 0, 0, 0, 0, 0, 0, 0, 0, 0] ++ HashAlgorithm.sha256.mac (utf8 "k") [4] [])
      [4]).run ⟨[], [], []⟩).1 = .ok true := by
  refine ⟨rfl, rfl, rfl, ?_⟩
  have hframe : Envelope.encode
      ⟨some (.number 0), some [], HashAlgorithm.sha256.mac (utf8 "k") [4] []⟩ =
      .ok ([1, 8, 0, 0, 0, 0, 0, 0, 0, 0, 0] ++ HashAlgorithm.sha256.mac (utf8 "k") [4] []) := rfl
  exact (Signer.verify_of_encode_eq_ok_iff hframe).mpr
    ⟨some (.number 0), ⟨utf8 "k", some (.number 3)⟩, rfl, rfl, rfl⟩

/-! ## Histories -/

/-- The value under a number in a list of values, of which the first has the number 1. -/
def valueOf? (values : List String) (n : UInt64) : Option String :=
  if n = 0 then none else values[n.toNat - 1]?

theorem ne_zero_of_valueOf? (h : valueOf? values n = some value) : n ≠ 0 := by
  rintro rfl
  cases h

/-- A number keeps its value when values are appended. -/
theorem valueOf?_of_prefix (hgrown : values <+: later) (h : valueOf? values n = some value) :
    valueOf? later n = some value := by
  have hn := ne_zero_of_valueOf? h
  rw [valueOf?, if_neg hn] at h ⊢
  obtain ⟨added, rfl⟩ := hgrown
  obtain ⟨hlt, -⟩ := List.getElem?_eq_some_iff.mp h
  rw [List.getElem?_append_left hlt]
  exact h

/-- The store answers the query for each number in `values` with its value, and the query for
the current key, by the bare name or by the label, with one of `values` and its number,
unless it fails. -/
structure Holds (store : ParameterStore) (values : List String) : Prop where
  numbered : ∀ n value, valueOf? values n = some value →
    store.client ⟨store.name ++ ":" ++ toString n.toNat, store.withDecryption⟩ = .ok ⟨value, n⟩
  unlabelled : ∀ answer, store.label = none →
    store.client ⟨store.name, store.withDecryption⟩ = .ok answer →
    valueOf? values answer.version = some answer.value
  labelled : ∀ label answer, store.label = some label →
    store.client ⟨store.name ++ ":" ++ label, store.withDecryption⟩ = .ok answer →
      valueOf? values answer.version = some answer.value

theorem Holds.client_query (h : store.Holds values) (hn : valueOf? values n = some value) :
    store.client (store.query n) = .ok ⟨value, n⟩ := by
  rw [query, fullName_of_ne_zero (ne_zero_of_valueOf? hn)]
  exact h.numbered n value hn

theorem Holds.valueOf?_of_current {answer : ParameterAnswer} (h : store.Holds values)
    (hanswer : store.client (store.query 0) = .ok answer) :
    valueOf? values answer.version = some answer.value := by
  rw [query] at hanswer
  cases hlabel : store.label with
  | none =>
    rw [fullName_zero_of_no_label hlabel] at hanswer
    exact h.unlabelled answer hlabel hanswer
  | some label =>
    rw [fullName_zero_of_label hlabel] at hanswer
    exact h.labelled label answer hlabel hanswer

/-! ## Outcomes of a query -/

/-- The outcomes of `lookup` for the answer of the store to a query. -/
inductive Fetches (store : ParameterStore) (query : ParameterQuery) :
    Except KeyError VersionedKey → Prop where
  /-- the store fails -/
  | refused {e : KeyError} : store.client query = .error e → Fetches store query (.error e)
  /-- the decoder refuses the value -/
  | undecodable {answer : ParameterAnswer} {fault : SecretFault} : store.client query = .ok answer →
    store.decoder.decode answer.value = .error fault →
      Fetches store query (.error (.undecodable fault))
  /-- the answer has the number 0, so the key has no version -/
  | unnumbered {answer : ParameterAnswer} {key : Bytes} : store.client query = .ok answer →
    answer.version = 0 →
    store.decoder.decode answer.value = .ok key → Fetches store query (.ok ⟨key, none⟩)
  | numbered {answer : ParameterAnswer} {key : Bytes} : store.client query = .ok answer →
    answer.version ≠ 0 →
    store.decoder.decode answer.value = .ok key →
      Fetches store query (.ok ⟨key, some (.number answer.version)⟩)

theorem answer_of_client_ok {query : ParameterQuery} {answer : ParameterAnswer}
    (h : store.client query = .ok answer) :
    store.answer query = ((store.decoder.decode answer.value).mapError KeyError.undecodable).map
      fun key => ⟨key, versionOf answer⟩ := by
  rw [ParameterStore.answer, h]
  show ((store.decoder.decode answer.value).mapError KeyError.undecodable >>= _) = _
  cases store.decoder.decode answer.value <;> rfl

/-- `ParameterStore.answer` has exactly the outcomes of `Fetches`. -/
theorem answer_eq_iff_fetches {query : ParameterQuery} {outcome : Except KeyError VersionedKey} :
    store.answer query = outcome ↔ store.Fetches query outcome := by
  constructor
  · rintro rfl
    cases hclient : store.client query with
    | error e =>
      rw [answer, hclient]
      exact .refused hclient
    | ok value =>
      rw [answer_of_client_ok hclient]
      cases hdecode : store.decoder.decode value.value with
      | error fault => exact .undecodable hclient hdecode
      | ok key =>
        by_cases hversion : value.version = 0
        · rw [versionOf, if_pos hversion]
          exact .unnumbered hclient hversion hdecode
        · rw [versionOf, if_neg hversion]
          exact .numbered hclient hversion hdecode
  · intro h
    cases h with
    | refused hclient =>
      rw [answer, hclient]
      rfl
    | undecodable hclient hdecode =>
      rw [answer_of_client_ok hclient, hdecode]
      rfl
    | unnumbered hclient hversion hdecode =>
      rw [answer_of_client_ok hclient, hdecode, versionOf, if_pos hversion]
      rfl
    | numbered hclient hversion hdecode =>
      rw [answer_of_client_ok hclient, hdecode, versionOf, if_neg hversion]
      rfl

/-! ## The contract of key sources -/

/-- The key that `lookup` gives as the current one has a number other than 0, under which `lookup`
gives it again when values have been appended. -/
theorem exists_number_of_current {resolved : VersionedKey} (hnow : store.Holds values)
    (hgrown : values <+: later) (hlater : (store.withClient client).Holds later)
    (hcurrent : (KeySource.lookup store none).answer = .ok resolved) :
    ∃ n ≠ 0, resolved.version = some (.number n) ∧
      (KeySource.lookup (store.withClient client) (some (.number n))).answer = .ok resolved := by
  cases answer_eq_iff_fetches.mp hcurrent with
  | unnumbered hclient hversion hdecode =>
    exact absurd hversion (ne_zero_of_valueOf? (hnow.valueOf?_of_current hclient))
  | @numbered answer key hclient hversion hdecode =>
    refine ⟨answer.version, hversion, rfl, answer_eq_iff_fetches.mpr ?_⟩
    have hkept := valueOf?_of_prefix hgrown (hnow.valueOf?_of_current hclient)
    exact .numbered (hlater.client_query hkept) hversion hdecode

/-- The contract of key sources for a parameter store. A key that `resolve` gave as the current one
is given again under its number, however many values were appended since. `resolve` of the current
key and of a number send one query and have the outcomes of `Fetches`; of a label it fails without a
query. -/
structure HonoursContract (store : ParameterStore) : Prop where
  recalls : ∀ values later client resolved before, store.Holds values → values <+: later →
    (store.withClient client).Holds later →
      ((KeySource.resolve store none).run before).1 = .ok resolved →
      ∃ n ≠ 0, resolved.version = some (.number n) ∧ ∀ after,
        ((KeySource.resolve (store.withClient client) (some (.number n))).run after).1 =
          .ok resolved
  current : ∀ before,
    (∀ outcome, ((KeySource.resolve store none).run before).1 = outcome ↔
      store.Fetches (store.query 0) outcome) ∧
    ((KeySource.resolve store none).run before).2.calls =
      before.calls ++ [.resolve none, .fetch (.parameter (store.query 0))]
  numbered : ∀ n before,
    (∀ outcome, ((KeySource.resolve store (some (.number n))).run before).1 = outcome ↔
      store.Fetches (store.query n) outcome) ∧
    ((KeySource.resolve store (some (.number n))).run before).2.calls =
      before.calls ++ [.resolve (some (.number n)), .fetch (.parameter (store.query n))]
  labelled : ∀ text before,
    (∃ e, ((KeySource.resolve store (some (.label text))).run before).1 = .error e) ∧
    ((KeySource.resolve store (some (.label text))).run before).2.calls =
      before.calls ++ [.resolve (some (.label text))]

theorem honoursContract (store : ParameterStore) : store.HonoursContract where
  recalls values later client resolved before hnow hgrown hlater hcurrent := by
    simp only [KeySource.run_resolve] at hcurrent ⊢
    obtain ⟨n, hn, hversion, hfound⟩ := exists_number_of_current hnow hgrown hlater hcurrent
    exact ⟨n, hn, hversion, fun _ => hfound⟩
  current before := by
    rw [KeySource.run_resolve]
    exact ⟨fun _ => answer_eq_iff_fetches, rfl⟩
  numbered n before := by
    rw [KeySource.run_resolve]
    exact ⟨fun _ => answer_eq_iff_fetches, rfl⟩
  labelled text before := by
    rw [KeySource.run_resolve]
    exact ⟨⟨_, rfl⟩, rfl⟩

/-- A source of the parameter `key` with two values, asked by a label that stands at one of them. -/
def ofLabel (current : ParameterAnswer) : ParameterStore :=
  let table : ParameterTable :=
    [⟨"key:1", .ok ⟨"k", 1⟩⟩, ⟨"key:2", .ok ⟨"l", 2⟩⟩, ⟨"key:live", .ok current⟩]
  { client := table.client, name := "key", label := some "live", decoder := .raw }

theorem holds_ofLabel {current : ParameterAnswer}
    (h : valueOf? ["k", "l"] current.version = some current.value) :
    (ofLabel current).Holds ["k", "l"] where
  numbered n value hn := by
    have hne := ne_zero_of_valueOf? hn
    rw [valueOf?, if_neg hne] at hn
    obtain ⟨hlt, -⟩ := List.getElem?_eq_some_iff.mp hn
    have hpos : n.toNat ≠ 0 := fun h0 => hne (UInt64.toNat_inj.mp h0)
    have hcases : n.toNat = 1 ∨ n.toNat = 2 := by
      simp only [List.length_cons, List.length_nil] at hlt
      omega
    rcases hcases with h1 | h2
    · obtain rfl : n = 1 := UInt64.toNat_inj.mp h1
      cases hn
      rfl
    · obtain rfl : n = 2 := UInt64.toNat_inj.mp h2
      cases hn
      rfl
  unlabelled _ hlabel := nomatch hlabel
  labelled := by
    rintro _ answer ⟨⟩ hanswer
    cases hanswer
    exact h

/-- After the label `live` has moved from the first value to the second, the first is found under
its number. -/
theorem found_after_label_moves :
    ((KeySource.resolve ((ofLabel ⟨"k", 1⟩).withClient (ofLabel ⟨"l", 2⟩).client)
      (some (.number 1))).run ⟨[], [], []⟩).1 = .ok ⟨utf8 "k", some (.number 1)⟩ := by
  obtain ⟨n, -, hversion, hfound⟩ :=
    (honoursContract (ofLabel ⟨"k", 1⟩)).recalls _ _ (ofLabel ⟨"l", 2⟩).client
      ⟨utf8 "k", some (.number 1)⟩ ⟨[], [], []⟩
      (holds_ofLabel rfl) List.prefix_rfl (holds_ofLabel rfl) rfl
  cases hversion
  exact hfound _

end ParameterStore

end SealedToken
