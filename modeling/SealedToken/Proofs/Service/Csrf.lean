import SealedToken.Key.Fixed
import SealedToken.Proofs.Service.Signer
import SealedToken.Proofs.Text.Form
import SealedToken.Service.Csrf

/-!
# Tokens against request forgery, issued and checked

The code in a token is over the session id followed by the nonce, without a separator, and the nonce
is read from the token. So the code does not tell where the id ends.

* `Csrf.envelope_of_issue`: the envelope of an issued token.
* `Csrf.Rebinds`: a code of one session and nonce, framed with another nonce, is accepted for
  another session under every key.
* `Csrf.rebinds_iff`: this happens exactly if the codes agree under every key, as they do if session
  and nonce make up one byte string.
* `foldl_copies_eq_true_iff`: the flag over the copies of a token stays true exactly if none
  differs. `copies_match_iff`: `copiesMatch` is true exactly if every copy is the first one, which
  is not empty.
-/

namespace SealedToken.Csrf

variable {κ κ' : Type}

/-- The service with another key source in place of its own. -/
def withKeys (csrf : Csrf κ) (keys : κ') : Csrf κ' where
  signer := csrf.signer.withKeys keys
  encoding := csrf.encoding
  nonceSize := csrf.nonceSize
  nonceSize_ne_zero := csrf.nonceSize_ne_zero

theorem withNonceSize_eq_ok_iff {csrf csrf' : Csrf κ} {size : UInt8} :
    csrf.withNonceSize size = .ok csrf' ↔
      ∃ h : size ≠ 0, csrf' = ⟨csrf.signer, csrf.encoding, size, h⟩ := by
  rw [withNonceSize]
  by_cases h : size = 0
  · simp [h]
  · simp [h, eq_comm]

variable [KeySource κ] [KeySource κ'] {csrf : Csrf κ} {before after : Ambient} {session : String}
  {token : String} {bytes : Bytes}

/-! ## Issuing and checking -/

theorem run_issue_eq_ok_iff :
    (csrf.issue session).run before = (.ok token, after) ↔
      ∃ signature, (csrf.signer.sign (utf8 session) csrf.nonceSize).run before =
        (.ok signature, after) ∧
        token = csrf.encoding.encode signature := by
  rw [issue, Action.run_bind_eq_ok_iff]
  constructor
  · rintro ⟨signature, _, hsign, he⟩
    cases he
    exact ⟨signature, hsign, rfl⟩
  · rintro ⟨signature, hsign, rfl⟩
    exact ⟨signature, after, hsign, rfl⟩

/-- The outcome of `validate` is that of `verify` on the bytes that `readToken` reads. -/
theorem outcome_validate (csrf : Csrf κ) (token session : String) (ambient : Ambient) :
    ((csrf.validate token session).run ambient).1 = (do
      let signature ← csrf.encoding.readToken token
      ((csrf.signer.verify signature (utf8 session)).run ambient).1) := by
  simp only [validate, Action.outcome_bind, Action.run_ofExcept]

theorem outcome_validate_encode {ι : Type} (csrf : Csrf ι) (later : κ') (signature : Bytes)
    (session : String) (ambient : Ambient) :
    (((csrf.withKeys later).validate (csrf.encoding.encode signature) session).run ambient).1 =
      (((csrf.signer.withKeys later).verify signature (utf8 session)).run ambient).1 := by
  rw [outcome_validate]
  show (csrf.encoding.readToken (csrf.encoding.encode signature) >>= _) = _
  rw [TextForm.readToken_encode]
  rfl

/-- An issued token carries a nonce of the size of the service, and the code of the session and that
nonce under the current key. -/
theorem envelope_of_issue {resolved : VersionedKey} {envelope : Envelope}
    (hissued : (csrf.issue session).run before = (.ok token, after))
    (hcurrent : (KeySource.lookup csrf.signer.keys none).answer = .ok resolved)
    (hread : csrf.encoding.readToken token = .ok bytes)
    (hopen : Envelope.decode (Dialect.signer (KeySource.kind csrf.signer.keys)) bytes =
      .ok envelope) :
    ∃ nonce, envelope.nonce = some nonce ∧ nonce.length = csrf.nonceSize.toNat ∧
      envelope.payload = csrf.signer.hash.mac resolved.key (utf8 session) nonce := by
  obtain ⟨signature, hsign, rfl⟩ := run_issue_eq_ok_iff.mp hissued
  obtain ⟨nonce, middle, resolved', hdraw, hanswer, hframe, -⟩ := Signer.run_sign_eq_ok_iff.mp hsign
  obtain rfl : resolved = resolved' := Except.ok.inj (hcurrent.symm.trans hanswer)
  rw [TextForm.readToken_encode] at hread
  obtain rfl : signature = bytes := Except.ok.inj hread
  have hlen : nonce.length = csrf.nonceSize.toNat := NonceSource.length_of_draw hdraw
  have hne : nonce ≠ [] := by
    rintro rfl
    exact csrf.nonceSize_ne_zero (UInt8.toNat_inj.mp hlen.symm)
  rw [Envelope.decode_of_encode hframe (fun _ => rfl), map_eq_ok_iff] at hopen
  obtain ⟨version, -, rfl⟩ := hopen
  exact ⟨nonce, Envelope.writtenNonce_some hne, hlen, rfl⟩

/-! ## Tokens with another nonce -/

/-- The code of the session and the nonce under the key, framed with `nonce'`, makes a token that
`validate` accepts for `session'` over every source in which its version has that key. -/
def RebindsUnder (csrf : Csrf κ) (key : Bytes) (version : Option KeyVersion) (session : String)
    (nonce : Bytes) (session' : String) (nonce' : Bytes) : Prop :=
  ∀ bytes : Bytes,
    Envelope.encode
      ⟨version, some nonce', csrf.signer.hash.mac key (utf8 session) nonce⟩ = .ok bytes →
    ∀ (κ' : Type) [KeySource κ'] (later : κ') (found : VersionedKey) (ambient : Ambient),
      KeySource.kind later = KeySource.kind csrf.signer.keys →
      (KeySource.lookup later version).answer = .ok found → found.key = key →
      (((csrf.withKeys later).validate (csrf.encoding.encode bytes) session').run ambient).1 =
        .ok true

/-- `RebindsUnder` holds for every key, so the key need not be known to make such a token. -/
def Rebinds (csrf : Csrf κ) (version : Option KeyVersion) (session : String) (nonce : Bytes)
    (session' : String) (nonce' : Bytes) : Prop :=
  ∀ key, csrf.RebindsUnder key version session nonce session' nonce'

variable {version : Option KeyVersion} {raw : Option Bytes}
  {session' : String} {nonce nonce' : Bytes}

/-- The reframed token is accepted for the other session exactly if both sessions and nonces have
the same code. -/
theorem rebindsUnder_iff {key : Bytes}
    (hkind : ∀ v ∈ version, v.kind = KeySource.kind csrf.signer.keys)
    (hraw : Envelope.versionBytes version = .ok raw) (hlen : nonce'.length ≤ maxNonceLength) :
    csrf.RebindsUnder key version session nonce session' nonce' ↔
      csrf.signer.hash.mac key (utf8 session') nonce' =
        csrf.signer.hash.mac key (utf8 session) nonce := by
  constructor
  · intro hrebinds
    have hfits : ∀ bs ∈ some nonce', bs.length ≤ maxNonceLength := by
      rintro _ ⟨⟩
      exact hlen
    have hframe : Envelope.encode
        ⟨version, some nonce', csrf.signer.hash.mac key (utf8 session) nonce⟩ = .ok _ :=
      Envelope.encode_eq_ok_iff.mpr ⟨hfits, raw, hraw, rfl⟩
    let later : KeyRing := .ofList (KeySource.kind csrf.signer.keys) [⟨key, version⟩]
    have hfound : (KeySource.lookup later version).answer = .ok ⟨key, version⟩ :=
      KeyRing.lookup_single_self _ ⟨key, version⟩
    have hvalid := hrebinds _ hframe KeyRing later _ ⟨[], [], []⟩ rfl hfound rfl
    have hread : Envelope.reread (KeySource.kind later) version = .ok version :=
      Envelope.reread_of_kind_eq hraw hkind
    rw [outcome_validate_encode, Signer.verify_of_encode_eq_ok_iff hframe] at hvalid
    obtain ⟨read, found, hread', hfound', hcode⟩ := hvalid
    obtain rfl : version = read := Except.ok.inj (hread.symm.trans hread')
    obtain rfl := Except.ok.inj (hfound.symm.trans hfound')
    exact hcode
  · intro hcode bytes hframe κ' _ later found ambient hsame hfound hkey
    have hread : Envelope.reread (KeySource.kind later) version = .ok version :=
      Envelope.reread_of_kind_eq hraw fun v hv => (hkind v hv).trans hsame.symm
    rw [outcome_validate_encode, Signer.verify_of_encode_eq_ok_iff hframe]
    refine ⟨version, found, hread, hfound, ?_⟩
    rw [hkey]
    exact hcode

/-- Sessions and nonces that make up the same bytes have the same code under every key. -/
theorem mac_eq_of_append_eq (hash : HashAlgorithm) (key : Bytes)
    (h : utf8 session' ++ nonce' = utf8 session ++ nonce) :
    hash.mac key (utf8 session') nonce' = hash.mac key (utf8 session) nonce := by
  rw [HashAlgorithm.mac, HashAlgorithm.mac, h]

/-- An issued token can be reframed for another session exactly if both sessions and nonces have the
same code under every key, as they do if they make up the same bytes. -/
theorem rebinds_iff {resolved : VersionedKey} {envelope : Envelope}
    (hissued : (csrf.issue session).run before = (.ok token, after))
    (hcurrent : (KeySource.lookup csrf.signer.keys none).answer = .ok resolved)
    (hread : csrf.encoding.readToken token = .ok bytes)
    (hopen : Envelope.decode (Dialect.signer (KeySource.kind csrf.signer.keys)) bytes =
      .ok envelope) :
    ∃ nonce, envelope.nonce = some nonce ∧
      envelope.payload = csrf.signer.hash.mac resolved.key (utf8 session) nonce ∧
      ∀ session' nonce', nonce'.length ≤ maxNonceLength →
        (csrf.Rebinds envelope.version session nonce session' nonce' ↔
          ∀ key, csrf.signer.hash.mac key (utf8 session') nonce' =
            csrf.signer.hash.mac key (utf8 session) nonce) ∧
        (utf8 session' ++ nonce' = utf8 session ++ nonce →
          csrf.Rebinds envelope.version session nonce session' nonce') := by
  obtain ⟨nonce, hnonce, -, hpayload⟩ := envelope_of_issue hissued hcurrent hread hopen
  obtain ⟨hfits, raw, hraw, -⟩ := Envelope.decode_eq_ok_iff.mp hopen
  refine ⟨nonce, hnonce, hpayload, fun session' nonce' hlen => ⟨?_, fun hsame key => ?_⟩⟩
  · exact forall_congr' fun key => rebindsUnder_iff hfits.kind_eq hraw hlen
  · exact (rebindsUnder_iff hfits.kind_eq hraw hlen).mpr (mac_eq_of_append_eq _ key hsame)

/-- A service over one key, with nonces of one byte and hexadecimal text. -/
def ofKey (key : Bytes) : Csrf FixedKey := ⟨.ofHash .sha256 ⟨key, none⟩, .hex, 1, by decide⟩

theorem run_issue_ofKey (key : Bytes) : ∃ after,
    ((ofKey key).issue "ab").run ⟨[48], [], []⟩ =
      (.ok (TextForm.hex.encode ([2, 1, 48, 0] ++ HashAlgorithm.sha256.mac key (utf8 "ab") [48])),
        after) := by
  have hdraw : (NonceSource.system.draw 1).run ⟨[48], [], []⟩ =
      (.ok [48], ⟨[], [.draw 1], []⟩) := rfl
  have hanswer : (KeySource.lookup (FixedKey.mk key none) none).answer = .ok ⟨key, none⟩ := rfl
  have hframe : Envelope.encode ⟨none, some [48], HashAlgorithm.sha256.mac key (utf8 "ab") [48]⟩ =
      .ok ([2, 1, 48, 0] ++ HashAlgorithm.sha256.mac key (utf8 "ab") [48]) := rfl
  have hsign : ((ofKey key).signer.sign (utf8 "ab") 1).run ⟨[48], [], []⟩ = (.ok _, _) :=
    Signer.run_sign_eq_ok_iff.mpr ⟨[48], _, ⟨key, none⟩, hdraw, hanswer, hframe, rfl⟩
  exact ⟨_, run_issue_eq_ok_iff.mpr ⟨_, hsign, rfl⟩⟩

/-- A token of the session `ab` can be reframed for the session `a`, with the byte of `b` in the
nonce. -/
theorem rebinds_shorter :
    ∃ token after, ((ofKey [1, 2, 3]).issue "ab").run ⟨[48], [], []⟩ = (.ok token, after) ∧
      (ofKey [1, 2, 3]).Rebinds none "ab" [48] "a" [98, 48] := by
  obtain ⟨after, hissued⟩ := run_issue_ofKey [1, 2, 3]
  have hcurrent : (KeySource.lookup (ofKey [1, 2, 3]).signer.keys none).answer =
      .ok ⟨[1, 2, 3], none⟩ := rfl
  have hread : (ofKey [1, 2, 3]).encoding.readToken (TextForm.hex.encode
      ([2, 1, 48, 0] ++ HashAlgorithm.sha256.mac [1, 2, 3] (utf8 "ab") [48])) = .ok _ :=
    TextForm.readToken_encode _ _
  have hframe : Envelope.encode
      ⟨none, some [48], HashAlgorithm.sha256.mac [1, 2, 3] (utf8 "ab") [48]⟩ =
      .ok ([2, 1, 48, 0] ++ HashAlgorithm.sha256.mac [1, 2, 3] (utf8 "ab") [48]) := rfl
  have hopen : Envelope.decode (Dialect.signer .label) _ = .ok ⟨none, some [48], _⟩ :=
    Envelope.decode_of_encode hframe fun _ => rfl
  obtain ⟨nonce, hnonce, -, hall⟩ := rebinds_iff hissued hcurrent hread hopen
  obtain rfl : [48] = nonce := Option.some.inj hnonce
  exact ⟨_, after, hissued, (hall "a" [98, 48] (by decide)).2 (by decide)⟩

/-- Under every key, `validate` accepts the code in a token of the session `ab` with the nonce `0`
for the session `a` when it is reframed with the nonce `b0`. -/
theorem not_bound_to_session :
    "ab" ≠ "a" ∧ ∀ key, ∃ code after,
      ((ofKey key).issue "ab").run ⟨[48], [], []⟩ =
        (.ok (TextForm.hex.encode ([2, 1, 48, 0] ++ code)), after) ∧
      (((ofKey key).validate (TextForm.hex.encode ([2, 2, 98, 48, 0] ++ code)) "a").run after).1 =
        .ok true := by
  refine ⟨by decide, fun key => ?_⟩
  obtain ⟨after, hissued⟩ := run_issue_ofKey key
  have hanswer : (KeySource.lookup (FixedKey.mk key none) none).answer = .ok ⟨key, none⟩ := rfl
  have hreframe : Envelope.encode
      ⟨none, some [98, 48], HashAlgorithm.sha256.mac key (utf8 "ab") [48]⟩ =
        .ok ([2, 2, 98, 48, 0] ++ HashAlgorithm.sha256.mac key (utf8 "ab") [48]) := rfl
  have hcode : HashAlgorithm.sha256.mac key (utf8 "a") [98, 48] =
      HashAlgorithm.sha256.mac key (utf8 "ab") [48] := mac_eq_of_append_eq _ key (by decide)
  refine ⟨_, after, hissued, ?_⟩
  refine (outcome_validate_encode (ofKey key) (ofKey key).signer.keys _ "a" after).trans ?_
  exact (Signer.verify_of_encode_eq_ok_iff hreframe).mpr ⟨none, _, rfl, hanswer, hcode⟩

end SealedToken.Csrf

namespace SealedToken

/-! ## Copies -/

variable {first : String} {rest : List String}

theorem utf8_eq_nil_iff {text : String} : utf8 text = [] ↔ text = "" :=
  ⟨fun h => utf8_injective (h.trans rfl), fun h => h ▸ rfl⟩

/-- The flag after the copies is true exactly if it was true before and each copy equals the
first. -/
theorem foldl_copies_eq_true_iff {all : Bool} :
    rest.foldl (fun all copy => all && utf8 first == utf8 copy) all = true ↔
      all = true ∧ ∀ copy ∈ rest, utf8 copy = utf8 first := by
  induction rest generalizing all with
  | nil => simp
  | cons copy rest ih =>
    rw [List.foldl_cons, ih, List.forall_mem_cons, Bool.and_eq_true, beq_iff_eq, and_assoc,
      eq_comm (b := utf8 copy)]

theorem copiesMatch_eq_true_iff_utf8 :
    copiesMatch first rest = true ↔ first ≠ "" ∧ ∀ copy ∈ rest, utf8 copy = utf8 first := by
  rw [copiesMatch]
  split
  · next h => simp [utf8_eq_nil_iff.mp h]
  · next h =>
    rw [foldl_copies_eq_true_iff]
    exact and_congr_left' ⟨fun _ hfirst => h (utf8_eq_nil_iff.mpr hfirst), fun _ => rfl⟩

theorem copiesMatch_eq_true_iff :
    copiesMatch first rest = true ↔ first ≠ "" ∧ ∀ copy ∈ rest, copy = first := by
  rw [copiesMatch_eq_true_iff_utf8]
  exact and_congr_right' (forall₂_congr fun copy _ => ⟨utf8_injective, congrArg utf8⟩)

/-- Copies that match still do when some are left out. -/
theorem copiesMatch_of_subset {rest' : List String} (hsub : rest ⊆ rest')
    (h : copiesMatch first rest' = true) :
    copiesMatch first rest = true := by
  obtain ⟨hne, hall⟩ := copiesMatch_eq_true_iff.mp h
  exact copiesMatch_eq_true_iff.mpr ⟨hne, fun copy hmem => hall copy (hsub hmem)⟩

/-- `copiesMatch` holds exactly if the first copy is not empty and every other one is the same text,
which is to say that it has the same bytes. So a copy that extends the first one, or ends before it,
is refused. The order and the number of the copies do not matter, and no further copies make up for
one that differs. -/
theorem copies_match_iff (first : String) :
    (∀ rest, copiesMatch first rest = true ↔ first ≠ "" ∧ ∀ copy ∈ rest, copy = first) ∧
    (∀ rest, copiesMatch first rest = true ↔ first ≠ "" ∧ ∀ copy ∈ rest, utf8 copy = utf8 first) ∧
    (∀ rest copy more, more ≠ "" → copy = first ++ more ∨ first = copy ++ more → copy ∈ rest →
      copiesMatch first rest = false) ∧
    (∀ rest rest', (∀ copy, copy ∈ rest ↔ copy ∈ rest') →
      copiesMatch first rest = copiesMatch first rest') ∧
    ∀ rest rest', rest ⊆ rest' → copiesMatch first rest = false →
      copiesMatch first rest' = false := by
  refine ⟨fun rest => copiesMatch_eq_true_iff, fun rest => copiesMatch_eq_true_iff_utf8, ?_, ?_, ?_⟩
  · intro rest copy more hmore hjoined hmem
    rw [Bool.eq_false_iff]
    intro hmatch
    obtain rfl : copy = first := (copiesMatch_eq_true_iff.mp hmatch).2 copy hmem
    exact hmore (String.append_eq_left_iff.mp (hjoined.elim Eq.symm Eq.symm))
  · intro rest rest' hsame
    rw [Bool.eq_iff_iff]
    exact ⟨copiesMatch_of_subset fun copy => (hsame copy).mpr,
      copiesMatch_of_subset fun copy => (hsame copy).mp⟩
  · intro rest rest' hsub hfalse
    rw [Bool.eq_false_iff] at hfalse ⊢
    exact fun hmatch => hfalse (copiesMatch_of_subset hsub hmatch)

theorem copies_match_iff_shorter : "c" ≠ "" ∧ "abc" = "ab" ++ "c" ∧ "ab" ∈ ["abc", "ab"] ∧
    copiesMatch "abc" ["abc", "ab"] = false :=
  ⟨by decide, by decide, by decide,
    (copies_match_iff "abc").2.2.1 ["abc", "ab"] "ab" "c" (by decide) (.inr (by decide))
      (by decide)⟩

end SealedToken
