import SealedToken.Key.Ring

/-!
# Entries of key rings

* `KeyRing.lookup_answer_eq_ok_iff`: a ring answers with the entry that is asked for.
* `KeyRing.lookup_single_eq_ok_iff`, `KeyRing.lookup_single_self`: the answers of a ring with one
  key.
* `KeyRing.entry?_rotate_of_eq_some`: a version keeps its entry when a key is added.
-/

namespace SealedToken.KeyRing

variable {ring : KeyRing} {entry : VersionedKey} {version : Option KeyVersion} {v : KeyVersion}

theorem lookup_answer_eq_ok_iff :
    (KeySource.lookup ring version).answer = .ok entry ↔ ring.entry? version = some entry := by
  simp only [KeySource.lookup]
  cases ring.entry? version <;> simp

/-- `lookup` in a ring with one key gives that key for its version and fails for every other one. -/
theorem lookup_single_eq_ok_iff {kind : KeyVersion.Kind} {key : Bytes} {version : KeyVersion} :
    (KeySource.lookup (ofList kind [⟨key, some version⟩]) (some v)).answer = .ok entry ↔
      v = version ∧ entry = ⟨key, some version⟩ := by
  rw [lookup_answer_eq_ok_iff]
  show [VersionedKey.mk key (some version)].find? (fun entry => entry.version = some v) =
    some entry ↔ _
  by_cases h : version = v
  · simp [h, eq_comm]
  · simp [h, Ne.symm h]

/-- `lookup` in a ring with one key gives that key for its version, and as the current one. -/
theorem lookup_single_self (kind : KeyVersion.Kind) (entry : VersionedKey) :
    (KeySource.lookup (ofList kind [entry]) entry.version).answer = .ok entry := by
  rw [lookup_answer_eq_ok_iff]
  cases hv : entry.version with
  | none => rfl
  | some v =>
    show [entry].find? (fun entry => entry.version = some v) = some entry
    exact List.find?_cons_of_pos (by simp [hv])

/-- `rotate` keeps the entry of every version. -/
theorem entry?_rotate_of_eq_some (h : ring.entry? (some v) = some entry) (added : VersionedKey) :
    entry? (ring.rotate added) (some v) = some entry := by
  have hfind : ring.entries.find? (fun entry => entry.version = some v) = some entry := h
  show (ring.entries ++ [added]).find? (fun entry => entry.version = some v) = some entry
  rw [List.find?_append, hfind, Option.some_or]

end SealedToken.KeyRing
