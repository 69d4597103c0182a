import SealedToken.Proofs.Envelope.WireForm
import SealedToken.Proofs.Key.Ring
import SealedToken.Service.Signer

/-!
# Signatures, made and checked

* `NonceSource.Gives`, `NonceSource.run_draw_iff`: the answers of a source of nonces.
* `Signer.run_sign_of_no_draw`, `Signer.run_sign_of_draw`: `sign` draws its nonce first, if it has
  one.
* `Signer.run_sign_eq_ok_iff`: the successful runs of `sign`, with the ambients they leave.
* `Signer.outcome_verify`: the outcome of `verify`.
* `Signer.outcome_verify_of_encode`: the outcome of `verify` for a well-formed signature, whoever
  framed it.
* `Signer.outcome_verify_of_sign`: the outcome of `verify` for a signature that `sign` made, under
  any later keys.
* `Signer.verify_of_sign_iff`: a signer accepts its own signatures, whatever keys are added or
  dropped, exactly if their version is of the kind that the key source declares. `sign` does not
  check the kind: `Signer.not_verify_of_sign`.
-/

namespace SealedToken

variable {κ κ' : Type}

/-! ## Nonces -/

/-- The outcomes of `draw size`, and the ambient after each. -/
inductive NonceSource.Gives (size : UInt8) (before : Ambient) :
    NonceSource → Except NonceError Bytes → Ambient → Prop where
  /-- nobody is asked for an empty nonce -/
  | empty {source : NonceSource} (hsize : size = 0) : Gives size before source (.ok []) before
  | system (hsize : size ≠ 0) (henough : size.toNat ≤ before.entropy.length) :
    Gives size before .system (.ok (before.entropy.take size.toNat)) (before.drawn size.toNat)
  | exhausted (hsize : size ≠ 0) (hfew : before.entropy.length < size.toNat) :
    Gives size before .system (.error (.entropy "entropy exhausted")) (before.drawFailed size.toNat)
  | custom {fill : (length : Nat) → Except NonceError { bs : Bytes // bs.length = length }}
    (hsize : size ≠ 0) :
    Gives size before (.custom fill) ((fill size.toNat).map Subtype.val) (before.filled size.toNat)

namespace NonceSource

variable {source : NonceSource} {size : UInt8} {before after : Ambient}

/-- The runs of `draw` are those of `Gives`. -/
theorem run_draw_iff {outcome : Except NonceError Bytes} :
    (source.draw size).run before = (outcome, after) ↔ source.Gives size before outcome after := by
  refine Action.run_eq_iff_of_rules (fun outcome after h => ?_) ?_ outcome after
  · unfold draw
    cases h with
    | empty hsize => rw [if_pos hsize, Action.run_pure]
    | system hsize henough =>
      rw [if_neg hsize]
      exact Action.run_draw_of_le henough
    | exhausted hsize hfew =>
      rw [if_neg hsize]
      exact Action.run_draw_of_lt hfew
    | @custom fill hsize =>
      rw [if_neg hsize]
      refine (Action.run_bind_ok (Action.run_fill size.toNat)).trans ?_
      cases fill size.toNat <;> rfl
  · by_cases hsize : size = 0
    · exact ⟨_, _, .empty hsize⟩
    cases source with
    | system =>
      by_cases henough : size.toNat ≤ before.entropy.length
      · exact ⟨_, _, .system hsize henough⟩
      · exact ⟨_, _, .exhausted hsize (Nat.lt_of_not_le henough)⟩
    | custom fill => exact ⟨_, _, .custom hsize⟩

/-- `Gives` has an outcome for every source and size. -/
theorem exists_gives (source : NonceSource) (size : UInt8) (before : Ambient) :
    ∃ answer after, source.Gives size before answer after :=
  ⟨_, _, run_draw_iff.mp rfl⟩

namespace Gives

theorem events_eq {answer : Except NonceError Bytes} (h : source.Gives size before answer after) :
    after.events = before.events := by
  cases h <;> rfl

variable {nonce : Bytes} (h : source.Gives size before (.ok nonce) after)

include h

/-- The nonce has the size that was asked for. -/
theorem length_eq : nonce.length = size.toNat := by
  generalize hanswer : Except.ok nonce = answer at h
  cases h with
  | empty hsize =>
    cases hanswer
    rw [hsize]
    rfl
  | system hsize henough =>
    cases hanswer
    exact List.length_take_of_le henough
  | exhausted => cases hanswer
  | custom =>
    obtain ⟨bs, -, rfl⟩ := map_eq_ok_iff.mp hanswer.symm
    exact bs.property

/-- A nonce of a one-byte size fits into an envelope. -/
theorem length_le : nonce.length ≤ maxNonceLength := by
  rw [h.length_eq]
  exact Nat.le_of_lt_succ size.toNat_lt

/-- The entry of a nonce has its size for the length byte. An empty one has none. -/
theorem entry_eq : Envelope.entry .nonce (Envelope.writtenNonce (some nonce)) =
    if size = 0 then [] else EntryTag.nonce.code :: size :: nonce := by
  by_cases hsize : size = 0
  · have hnil : nonce = [] := List.eq_nil_of_length_eq_zero (by rw [h.length_eq, hsize]; rfl)
    rw [if_pos hsize, hnil, Envelope.writtenNonce_nil, Envelope.entry_none]
  · have hne : nonce ≠ [] := by
      rintro rfl
      exact hsize (UInt8.toNat_inj.mp h.length_eq.symm)
    rw [if_neg hsize, Envelope.writtenNonce_some hne, Envelope.entry,
      h.length_eq, UInt8.ofNat_toNat]

/-- `Envelope.encode` succeeds for a nonce that was drawn and a version that has bytes. -/
theorem encode_eq {version : Option KeyVersion} {raw : Option Bytes}
    (hraw : Envelope.versionBytes version = .ok raw) (code : Bytes) :
    Envelope.encode ⟨version, some nonce, code⟩ =
      .ok (Envelope.entry .version raw ++
        (if size = 0 then [] else EntryTag.nonce.code :: size :: nonce) ++
        EntryTag.terminal.code :: code) := by
  rw [← h.entry_eq, Envelope.encode_eq_ok_iff]
  refine ⟨?_, raw, hraw, rfl⟩
  rintro _ ⟨⟩
  exact h.length_le

end Gives

theorem length_of_draw {nonce : Bytes} (h : (source.draw size).run before = (.ok nonce, after)) :
    nonce.length = size.toNat :=
  (run_draw_iff.mp h).length_eq

end NonceSource

theorem SignerSettings.build_eq_ok_iff {settings : SignerSettings κ} {signer : Signer κ} :
    settings.build = .ok signer ↔
      ∃ keys, settings.keys = some keys ∧ signer = ⟨settings.hash, keys, settings.nonces⟩ := by
  rw [build]
  cases settings.keys with
  | none => simp
  | some keys => simp [eq_comm]

namespace Signer

/-- The signer with another key source in place of its own. -/
def withKeys (signer : Signer κ) (keys : κ') : Signer κ' := ⟨signer.hash, keys, signer.nonces⟩

variable [KeySource κ] [KeySource κ'] {signer : Signer κ} {before after : Ambient}
  {payload signature : Bytes} {size : UInt8}

/-! ## Signing -/

/-- `sign` after its nonce has been drawn. -/
def signWith (signer : Signer κ) (payload nonce : Bytes) : Action TokenError Bytes := do
  let resolved ← (KeySource.resolve signer.keys none).mapError .transport
  let signature ← Action.ofExcept <| (Envelope.encode ⟨resolved.version, some nonce,
    signer.hash.mac resolved.key payload nonce⟩).mapError .ofEnvelope
  Action.emit (.payloadSigned signer.hash resolved.version.isSome nonce.length)
  return signature

theorem run_sign_of_no_draw {cause : NonceError} {middle : Ambient}
    (h : (signer.nonces.draw size).run before = (.error cause, middle)) :
    (signer.sign payload size).run before = (.error (.ofNonce cause), middle) := by
  apply Action.run_bind_error
  rw [Action.run_mapError, h]
  rfl

theorem run_sign_of_draw {nonce : Bytes} {middle : Ambient}
    (h : (signer.nonces.draw size).run before = (.ok nonce, middle)) :
    (signer.sign payload size).run before = (signer.signWith payload nonce).run middle := by
  apply Action.run_bind_ok
  rw [Action.run_mapError, h]
  rfl

/-- `sign` succeeds exactly with the envelope of the current version, a nonce from `draw`, and the
code of the payload and the nonce under the current key. -/
theorem run_sign_eq_ok_iff :
    (signer.sign payload size).run before = (.ok signature, after) ↔
      ∃ nonce middle resolved, (signer.nonces.draw size).run before = (.ok nonce, middle) ∧
        (KeySource.lookup signer.keys none).answer = .ok resolved ∧
        Envelope.encode ⟨resolved.version, some nonce, signer.hash.mac resolved.key payload nonce⟩ =
          .ok signature ∧
        after = (middle.asked none (KeySource.lookup signer.keys none)).reported
          [.payloadSigned signer.hash resolved.version.isSome nonce.length] := by
  simp only [sign, Action.run_bind_eq_ok_iff, Action.run_mapError_eq_ok_iff,
    KeySource.run_resolve_eq_ok_iff, Action.run_ofExcept_eq_ok_iff,
    mapError_eq_ok_iff, Action.run_emit]
  constructor
  · rintro ⟨nonce, middle, hdraw, resolved, _, ⟨hanswer, rfl⟩, _, _, ⟨hframe, rfl⟩, ⟨⟩, _, he, hr⟩
    cases he
    cases hr
    exact ⟨nonce, middle, resolved, hdraw, hanswer, hframe, rfl⟩
  · rintro ⟨nonce, middle, resolved, hdraw, hanswer, hframe, rfl⟩
    exact ⟨nonce, middle, hdraw, resolved, _, ⟨hanswer, rfl⟩, _, _, ⟨hframe, rfl⟩, ⟨⟩, _, rfl, rfl⟩

/-- The outcome of `sign`: it draws the nonce, looks up the current key and writes the envelope of
the code. -/
theorem outcome_sign (signer : Signer κ) (payload : Bytes) (size : UInt8) (before : Ambient) :
    ((signer.sign payload size).run before).1 = (do
      let nonce ← ((signer.nonces.draw size).run before).1.mapError .ofNonce
      let resolved ← (KeySource.lookup signer.keys none).answer.mapError .transport
      (Envelope.encode ⟨resolved.version, some nonce,
        signer.hash.mac resolved.key payload nonce⟩).mapError
        .ofEnvelope) := by
  simp only [sign, Action.outcome_bind, Action.run_ofExcept, Action.run_mapError,
    KeySource.run_resolve, Action.run_emit, Action.run_pure]
  exact bind_congr fun _ => bind_congr fun _ => bind_pure _

/-- `sign` succeeds with a nonce, a current key and a version that has bytes. -/
theorem exists_run_sign {nonce : Bytes} {middle : Ambient} {resolved : VersionedKey}
    {raw : Option Bytes} (hdraw : (signer.nonces.draw size).run before = (.ok nonce, middle))
    (hanswer : (KeySource.lookup signer.keys none).answer = .ok resolved)
    (hraw : Envelope.versionBytes resolved.version = .ok raw) (payload : Bytes) :
    ∃ signature after, (signer.sign payload size).run before = (.ok signature, after) := by
  have hframe :=
    (NonceSource.run_draw_iff.mp hdraw).encode_eq hraw (signer.hash.mac resolved.key payload nonce)
  exact ⟨_, _, run_sign_eq_ok_iff.mpr ⟨nonce, middle, resolved, hdraw, hanswer, hframe, rfl⟩⟩

/-! ## Checking -/

/-- The outcome of `verify`: it reads the envelope, looks up the key of its version and compares the
codes. -/
theorem outcome_verify (signer : Signer κ) (signature payload : Bytes) (ambient : Ambient) :
    ((signer.verify signature payload).run ambient).1 = (do
      let envelope ←
        (Envelope.decode (Dialect.signer (KeySource.kind signer.keys)) signature).mapError
          .ofEnvelope
      let resolved ← (KeySource.lookup signer.keys envelope.version).answer.mapError .transport
      return signer.hash.checkMac resolved.key payload
        (envelope.nonce.getD []) envelope.payload) := by
  simp only [verify, Action.outcome_bind, Action.run_ofExcept, Action.run_mapError,
    KeySource.run_resolve, Action.run_emit, Action.run_pure]
  rfl

/-- The outcome of `verify` of an envelope that was written: `reread` gives its version, `lookup`
the key, and the code is compared with that of the payload and the nonce. -/
theorem outcome_verify_of_encode {version : Option KeyVersion} {nonce code : Bytes}
    (h : Envelope.encode ⟨version, some nonce, code⟩ = .ok signature) (ambient : Ambient) :
    ((signer.verify signature payload).run ambient).1 = (do
      let version ← (Envelope.reread (KeySource.kind signer.keys) version).mapError .ofEnvelope
      let found ← (KeySource.lookup signer.keys version).answer.mapError .transport
      return signer.hash.checkMac found.key payload nonce code) := by
  rw [outcome_verify, Envelope.decode_of_encode h (fun _ => rfl)]
  show (Except.mapError _ ((Envelope.reread (KeySource.kind signer.keys) version).map _) >>= _) = _
  cases Envelope.reread (KeySource.kind signer.keys) version with
  | error e => rfl
  | ok version =>
    show ((KeySource.lookup signer.keys version).answer.mapError TokenError.transport >>=
      fun found =>
      pure (signer.hash.checkMac found.key payload
        ((Envelope.writtenNonce (some nonce)).getD []) code)) = _
    rw [Envelope.getD_writtenNonce]
    rfl

theorem verify_of_encode_eq_ok_iff {version : Option KeyVersion} {nonce code : Bytes}
    {ambient : Ambient} (h : Envelope.encode ⟨version, some nonce, code⟩ = .ok signature) :
    ((signer.verify signature payload).run ambient).1 = .ok true ↔
      ∃ read found, Envelope.reread (KeySource.kind signer.keys) version = .ok read ∧
        (KeySource.lookup signer.keys read).answer = .ok found ∧
        signer.hash.mac found.key payload nonce = code := by
  rw [outcome_verify_of_encode h]
  simp only [bind_eq_ok_iff, mapError_eq_ok_iff, pure_eq_ok_iff, HashAlgorithm.checkMac, beq_iff_eq]
  constructor
  · rintro ⟨read, hread, found, hanswer, hcode⟩
    exact ⟨read, found, hread, hanswer, hcode⟩
  · rintro ⟨read, found, hread, hanswer, hcode⟩
    exact ⟨read, hread, found, hanswer, hcode⟩

/-! ## Signatures after a change of keys -/

/-- The outcome of `verify` of a signature over a later key source of the kind of its version: the
lookup of that version, and the comparison of the codes under both keys. -/
theorem outcome_verify_of_sign {later : κ'} {resolved : VersionedKey}
    (hissued : (signer.sign payload size).run before = (.ok signature, after))
    (hcurrent : (KeySource.lookup signer.keys none).answer = .ok resolved)
    (hkind : ∀ version ∈ resolved.version, version.kind = KeySource.kind later) :
    ∃ nonce, ∀ ambient, (((signer.withKeys later).verify signature payload).run ambient).1 = (do
      let found ← (KeySource.lookup later resolved.version).answer.mapError .transport
      return signer.hash.checkMac found.key payload nonce
        (signer.hash.mac resolved.key payload nonce)) := by
  obtain ⟨nonce, middle, resolved', -, hanswer, hframe, -⟩ := run_sign_eq_ok_iff.mp hissued
  obtain rfl : resolved = resolved' := Except.ok.inj (hcurrent.symm.trans hanswer)
  obtain ⟨-, raw, hraw, -⟩ := Envelope.encode_eq_ok_iff.mp hframe
  refine ⟨nonce, fun ambient => ?_⟩
  rw [outcome_verify_of_encode hframe, withKeys, Envelope.reread_of_kind_eq hraw hkind]
  rfl

/-- `verify` accepts a signature over every later source of the same kind in which its version has
the same key, exactly if that version is of the declared kind. -/
theorem verify_of_sign_iff {resolved : VersionedKey}
    (hissued : (signer.sign payload size).run before = (.ok signature, after))
    (hcurrent : (KeySource.lookup signer.keys none).answer = .ok resolved) :
    (∀ (κ' : Type) [KeySource κ'] (later : κ') (found : VersionedKey) (ambient : Ambient),
      KeySource.kind later = KeySource.kind signer.keys →
      (KeySource.lookup later resolved.version).answer = .ok found → found.key = resolved.key →
      (((signer.withKeys later).verify signature payload).run ambient).1 = .ok true) ↔
    ∀ version ∈ resolved.version, version.kind = KeySource.kind signer.keys := by
  obtain ⟨nonce, middle, resolved', -, hanswer, hframe, -⟩ := run_sign_eq_ok_iff.mp hissued
  obtain rfl : resolved = resolved' := Except.ok.inj (hcurrent.symm.trans hanswer)
  constructor
  · intro hall version hv
    -- a source that has this version only
    let later : KeyRing := .ofList (KeySource.kind signer.keys) [⟨resolved.key, some version⟩]
    have hkept : (KeySource.lookup later resolved.version).answer =
        .ok ⟨resolved.key, some version⟩ := by
      rw [Option.mem_def.mp hv]
      exact KeyRing.lookup_single_self _ ⟨resolved.key, some version⟩
    have htrue := hall KeyRing later _ before rfl hkept rfl
    obtain ⟨read, found, hread, hfound, -⟩ := (verify_of_encode_eq_ok_iff hframe).mp htrue
    rw [Option.mem_def.mp hv] at hread
    obtain ⟨v, rfl, hkind⟩ := Envelope.exists_of_reread_some hread
    rw [(KeyRing.lookup_single_eq_ok_iff.mp hfound).1] at hkind
    exact hkind
  · intro hkind κ' _ later found ambient hsame hkept hkey
    obtain ⟨-, raw, hraw, -⟩ := Envelope.encode_eq_ok_iff.mp hframe
    have hread : Envelope.reread (KeySource.kind later) resolved.version = .ok resolved.version :=
      Envelope.reread_of_kind_eq hraw fun v hv => (hkind v hv).trans hsame.symm
    refine (verify_of_encode_eq_ok_iff hframe).mpr ⟨resolved.version, found, hread, hkept, ?_⟩
    rw [hkey]
    rfl

/-- A signature of a ring with one key is accepted after the ring got another key. -/
theorem verify_of_sign_rotated :
    ∃ signature after,
      ((Signer.ofHash .sha256
        (KeyRing.ofList .number [⟨[1, 2, 3], some (.number 1)⟩])).sign [4] 2).run
        ⟨[5, 6], [], []⟩ = (.ok signature, after) ∧
      (((Signer.ofHash .sha256 (KeyRing.rotate (.ofList .number [⟨[1, 2, 3], some (.number 1)⟩])
        ⟨[7], some (.number 2)⟩)).verify signature [4]).run after).1 = .ok true := by
  let signer : Signer KeyRing :=
    .ofHash .sha256 (.ofList .number [⟨[1, 2, 3], some (.number 1)⟩])
  let later : KeyRing := signer.keys.rotate ⟨[7], some (.number 2)⟩
  have hcurrent : (KeySource.lookup signer.keys none).answer =
      .ok ⟨[1, 2, 3], some (.number 1)⟩ := rfl
  have hkind : ∀ version ∈ some (KeyVersion.number 1),
      version.kind = KeySource.kind signer.keys := by
    rintro _ ⟨⟩
    rfl
  have hkept : (KeySource.lookup later (some (.number 1))).answer =
      .ok ⟨[1, 2, 3], some (.number 1)⟩ :=
    KeyRing.lookup_answer_eq_ok_iff.mpr (KeyRing.entry?_rotate_of_eq_some rfl _)
  have hdraw : (signer.nonces.draw 2).run ⟨[5, 6], [], []⟩ =
      (.ok [5, 6], ⟨[], [.draw 2], []⟩) := rfl
  obtain ⟨signature, after, hissued⟩ := exists_run_sign hdraw hcurrent rfl [4]
  have hvalid := (verify_of_sign_iff hissued hcurrent).mpr hkind
  exact ⟨signature, after, hissued, hvalid KeyRing later _ after rfl hkept rfl⟩

/-- `sign` with a numbered key of a ring that declares labels succeeds, and `verify` over the same
ring does not accept the signature. -/
theorem not_verify_of_sign :
    ∃ signature after,
      ((Signer.ofHash .sha256
        (KeyRing.ofList .label [⟨[1, 2, 3], some (.number 7)⟩])).sign [4] 0).run
        ⟨[], [], []⟩ = (.ok signature, after) ∧
      (KeySource.lookup (KeyRing.ofList .label [⟨[1, 2, 3], some (.number 7)⟩])
        (some (.number 7))).answer =
        .ok ⟨[1, 2, 3], some (.number 7)⟩ ∧
      (((Signer.ofHash .sha256
        (KeyRing.ofList .label [⟨[1, 2, 3], some (.number 7)⟩])).verify signature
        [4]).run after).1 ≠ .ok true := by
  let signer : Signer KeyRing := .ofHash .sha256 (.ofList .label [⟨[1, 2, 3], some (.number 7)⟩])
  have hcurrent : (KeySource.lookup signer.keys none).answer =
      .ok ⟨[1, 2, 3], some (.number 7)⟩ := rfl
  have hdraw : (signer.nonces.draw 0).run ⟨[], [], []⟩ = (.ok [], ⟨[], [], []⟩) := rfl
  obtain ⟨signature, after, hissued⟩ := exists_run_sign hdraw hcurrent rfl [4]
  refine ⟨signature, after, hissued, rfl, fun hvalid => ?_⟩
  obtain ⟨nonce, middle, resolved, -, hanswer, hframe, -⟩ := run_sign_eq_ok_iff.mp hissued
  obtain rfl := Except.ok.inj (hcurrent.symm.trans hanswer)
  obtain ⟨read, found, hread, hfound, -⟩ := (verify_of_encode_eq_ok_iff hframe).mp hvalid
  obtain ⟨v, rfl, hkind⟩ := Envelope.exists_of_reread_some hread
  rw [(KeyRing.lookup_single_eq_ok_iff.mp hfound).1] at hkind
  cases hkind

end Signer

end SealedToken
