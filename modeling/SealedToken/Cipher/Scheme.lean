import SealedToken.Nonce

/-!
# Sealing schemes

Both ciphers add a keystream to the plaintext and append a tag of the ciphertext. A scheme is that
pair for one key.

* `SealingScheme`: a keystream and a tag for each nonce, of the right lengths, and the longest
  plaintext.
* `SealingScheme.sealWith?`, `SealingScheme.openWith?`: ciphertext and tag of a plaintext, and back.
* `SealingScheme.openWith?_eq_some_iff`: opening accepts exactly what sealing under the nonce
  produces.
-/

namespace SealedToken

/-- The length of an authentication tag in bytes. -/
def tagLength : Nat := 16

/-- The keystream and the tags of one key. -/
structure SealingScheme where
  /-- the bytes added to a plaintext of the given length -/
  keystream : Nonce → Nat → Bytes
  /-- the tag of a ciphertext -/
  tag : Nonce → Bytes → Bytes
  /-- the length of the longest plaintext -/
  limit : Nat
  length_keystream : ∀ nonce length, (keystream nonce length).length = length
  length_tag : ∀ nonce ciphertext, (tag nonce ciphertext).length = tagLength

namespace SealingScheme

/-- The exclusive or of a text and the keystream, which turns plaintext and ciphertext into each
other. -/
def mask (scheme : SealingScheme) (nonce : Nonce) (text : Bytes) : Bytes :=
  xorBytes text (scheme.keystream nonce text.length)

/-- Ciphertext and tag of a plaintext of at most `limit` bytes. -/
def sealWith? (scheme : SealingScheme) (nonce : Nonce) (plaintext : Bytes) : Option Bytes :=
  if plaintext.length ≤ scheme.limit then
    let ciphertext := scheme.mask nonce plaintext
    some (ciphertext ++ scheme.tag nonce ciphertext)
  else none

/-- The plaintext of a ciphertext whose tag is the last `tagLength` bytes of `sealed`. -/
def openWith? (scheme : SealingScheme) (nonce : Nonce) (sealed : Bytes) : Option Bytes :=
  if tagLength ≤ sealed.length ∧ sealed.length - tagLength ≤ scheme.limit then
    let ciphertext := sealed.take (sealed.length - tagLength)
    if scheme.tag nonce ciphertext = sealed.drop (sealed.length - tagLength) then
      some (scheme.mask nonce ciphertext)
    else none
  else none

@[simp] theorem length_mask (scheme : SealingScheme) (nonce : Nonce) (text : Bytes) :
    (scheme.mask nonce text).length = text.length := by
  rw [mask, length_xorBytes, scheme.length_keystream, Nat.min_self]

@[simp] theorem mask_mask (scheme : SealingScheme) (nonce : Nonce) (text : Bytes) :
    scheme.mask nonce (scheme.mask nonce text) = text := by
  rw [mask, length_mask, mask]
  exact xorBytes_xorBytes (Nat.le_of_eq (scheme.length_keystream nonce text.length).symm)

/-- `openWith?` accepts exactly what `sealWith?` produces under the same nonce. -/
theorem openWith?_eq_some_iff (scheme : SealingScheme) (nonce : Nonce) (sealed plaintext : Bytes) :
    scheme.openWith? nonce sealed = some plaintext ↔
      scheme.sealWith? nonce plaintext = some sealed := by
  constructor
  · intro h
    unfold openWith? at h
    split at h
    · next hl =>
      dsimp only at h
      split at h
      · next ht =>
        cases h
        have hn : (sealed.take (sealed.length - tagLength)).length = sealed.length - tagLength := by
          rw [List.length_take]
          omega
        rw [sealWith?, length_mask, hn, if_pos hl.2, mask_mask]
        dsimp only
        rw [ht, List.take_append_drop]
      · cases h
    · cases h
  · intro h
    unfold sealWith? at h
    split at h
    · next hl =>
      cases h
      have hn :
          (scheme.mask nonce plaintext ++ scheme.tag nonce (scheme.mask nonce plaintext)).length -
            tagLength = (scheme.mask nonce plaintext).length := by
        rw [List.length_append, scheme.length_tag, Nat.add_sub_cancel]
      rw [openWith?, hn, List.take_left, List.drop_left, length_mask, if_pos, if_pos rfl, mask_mask]
      refine ⟨?_, hl⟩
      rw [List.length_append, scheme.length_tag]
      exact Nat.le_add_left _ _
    · cases h

end SealingScheme

end SealedToken
