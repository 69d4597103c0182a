import SealedToken.Cipher.Aes

/-!
# The key schedule of AES

AES defines its key schedule by a recurrence: the first columns are those of the key, and each later
one is the sum of the column that many places back and a term of the column before it.
`Aes.roundKeys` computes it with a sliding window.

* `Aes.Expands`: the recurrence, over the columns of all round keys.
* `Aes.window_prefix_extend`, `Aes.extend_getElem?`: the window comes first, and each column after
  it obeys the recurrence.
* `Aes.Expands.unique`: the key and the recurrence leave no choice.
* `Aes.expands_iff`: `Aes.roundKeys` is the key schedule, with `n + 6` rounds for a key of `n`
  columns.
-/

namespace SealedToken

namespace Aes

/-! ## Columns -/

theorem Column.length_toBytes (c : Column) : c.toBytes.length = 4 := rfl

theorem Column.toBytes_inj (c d : Column) (h : c.toBytes = d.toBytes) : c = d := by
  cases c
  cases d
  simpa [toBytes] using h

theorem Column.toBytes_ofBytes {bs : Bytes} (h : bs.length = 4) : (ofBytes bs).toBytes = bs := by
  match bs, h with
  | [_, _, _, _], _ => rfl

/-- The four columns of a block. -/
def Block.columns (b : Block) : List Column := [b.c0, b.c1, b.c2, b.c3]

theorem Block.length_columns (b : Block) : b.columns.length = 4 := rfl

theorem Block.columns_inj (b d : Block) (h : b.columns = d.columns) : b = d := by
  cases b
  cases d
  simpa [columns] using h

theorem flatMap_columns_grouped {count : Nat} {columns : List Column}
    (h : columns.length = 4 * count) :
    (grouped columns).flatMap Block.columns = columns := by
  induction count generalizing columns with
  | zero =>
    obtain rfl := List.length_eq_zero_iff.mp h
    rfl
  | succ count ih =>
    match columns, h with
    | c0 :: c1 :: c2 :: c3 :: rest, h =>
      rw [grouped, List.flatMap_cons, ih (by simpa [Nat.mul_succ] using h)]
      rfl

/-- The columns of a key give its bytes back. -/
theorem flatMap_toBytes_blocks {count : Nat} {key : Bytes} (h : key.length = 4 * count) :
    ((blocks 4 count key).map Column.ofBytes).flatMap Column.toBytes = key := by
  induction count generalizing key with
  | zero =>
    obtain rfl := List.length_eq_zero_iff.mp h
    rfl
  | succ count ih =>
    have hfirst : (key.take 4).length = 4 := by
      rw [List.length_take]
      omega
    have hrest : (key.drop 4).length = 4 * count := by
      rw [List.length_drop]
      omega
    rw [blocks, List.map_cons, List.flatMap_cons, Column.toBytes_ofBytes hfirst, ih hrest,
      List.take_append_drop]

/-! ## The recurrence -/

/-- `columns` follows the recurrence of the key schedule for a key of `n` columns. -/
def Recurs (n : Nat) (columns : List Column) : Prop :=
  ∀ i oldest previous column, n ≤ i → columns[i - n]? = some oldest →
    columns[i - 1]? = some previous →
    columns[i]? = some column → column = oldest.xor (scheduleTerm n i previous)

/-- `keys` are the round keys of `key` for `count` rounds. -/
structure Expands (key : Bytes) (count : Nat) (keys : List Block) : Prop where
  length_eq : keys.length = count + 1
  /-- the first columns are those of the key -/
  key_eq : ((keys.flatMap Block.columns).take (key.length / 4)).flatMap Column.toBytes = key
  recurs : Recurs (key.length / 4) (keys.flatMap Block.columns)

theorem window_prefix_extend (n : Nat) {count i : Nat} {window : List Column} (h : window ≠ []) :
    window <+: extend n count i window := by
  induction count generalizing i window with
  | zero => exact List.prefix_refl window
  | succ count ih =>
    cases window with
    | nil => exact absurd rfl h
    | cons oldest rest =>
      rw [extend, List.prefix_cons_inj]
      exact (List.prefix_append rest _).trans
        (ih (List.append_ne_nil_of_right_ne_nil rest (List.cons_ne_nil _ _)))

theorem length_extend (n count i : Nat) {window : List Column} (h : window ≠ []) :
    (extend n count i window).length = count + window.length := by
  induction count generalizing i window with
  | zero => rw [extend, Nat.zero_add]
  | succ count ih =>
    cases window with
    | nil => exact absurd rfl h
    | cons oldest rest =>
      rw [extend, List.length_cons,
        ih (i + 1) (List.append_ne_nil_of_right_ne_nil rest (List.cons_ne_nil _ _))]
      simp only [List.length_append, List.length_cons, List.length_nil]
      omega

/-- The first column behind the window. -/
def next (n i : Nat) (oldest : Column) (rest : List Column) : Column :=
  oldest.xor (scheduleTerm n i (rest.getLastD oldest))

/-- A turn puts its column right behind the window. -/
theorem append_next_prefix_extend (n count i : Nat) (oldest : Column) (rest : List Column) :
    (oldest :: rest) ++ [next n i oldest rest] <+: extend n (count + 1) i (oldest :: rest) := by
  rw [extend, List.cons_append, List.prefix_cons_inj]
  exact window_prefix_extend n (List.append_ne_nil_of_right_ne_nil rest (List.cons_ne_nil _ _))

theorem getElem?_of_prefix {columns columns' : List Column} {i : Nat} {column : Column}
    (h : columns <+: columns')
    (hi : columns[i]? = some column) : columns'[i]? = some column := by
  obtain ⟨tail, rfl⟩ := h
  rw [List.getElem?_append_left (List.getElem?_eq_some_iff.mp hi).1, hi]

/-- Every column behind the window is made from the one `n` places back and the one before it. -/
theorem eq_xor_of_extend {n count i j : Nat} {window : List Column}
    {oldest previous column : Column} (hwindow : window.length = n) (hpos : 0 < n)
    (holdest : (extend n count i window)[j]? = some oldest)
    (hprevious : (extend n count i window)[j + n - 1]? = some previous)
    (hcolumn : (extend n count i window)[j + n]? = some column) :
    column = oldest.xor (scheduleTerm n (i + j) previous) := by
  induction count generalizing i j window with
  | zero =>
    rw [extend, List.getElem?_eq_none (by omega)] at hcolumn
    cases hcolumn
  | succ count ih =>
    cases window with
    | nil => exact absurd hwindow (Nat.ne_of_lt hpos)
    | cons first rest =>
      obtain rfl : rest.length + 1 = n := hwindow
      cases j with
      | zero =>
        have hturn := append_next_prefix_extend (rest.length + 1) count i first rest
        have hlast : ((first :: rest) ++ [next (rest.length + 1) i first rest])[rest.length]? =
            some (rest.getLastD first) := by
          rw [List.getElem?_append_left (Nat.lt_succ_self _),
            List.getLastD_eq_getLast?, ← List.getLast?_cons, List.getLast?_eq_getElem?]
          rfl
        have hnext : ((first :: rest) ++ [next (rest.length + 1) i first rest])[rest.length + 1]? =
            some (next (rest.length + 1) i first rest) := List.getElem?_concat_length
        rw [Nat.zero_add, Nat.add_sub_cancel, getElem?_of_prefix hturn hlast] at hprevious
        rw [Nat.zero_add, getElem?_of_prefix hturn hnext] at hcolumn
        cases holdest
        cases hprevious
        cases hcolumn
        rfl
      | succ j =>
        have hshift : j + 1 + (rest.length + 1) - 1 = j + (rest.length + 1) - 1 + 1 := by omega
        rw [hshift] at hprevious
        rw [Nat.add_right_comm] at hcolumn
        have hterm := ih (by simp) holdest hprevious hcolumn
        rwa [Nat.add_assoc, Nat.add_comm 1] at hterm

theorem recurs_extend {n count : Nat} {window : List Column}
    (hwindow : window.length = n) (hpos : 0 < n) :
    Recurs n (extend n count n window) := by
  intro i oldest previous column hi holdest hprevious hcolumn
  obtain ⟨j, rfl⟩ := Nat.exists_eq_add_of_le hi
  rw [Nat.add_sub_cancel_left] at holdest
  rw [Nat.add_comm] at hprevious hcolumn
  exact eq_xor_of_extend hwindow hpos holdest hprevious hcolumn

/-- The first columns and the recurrence leave no choice. -/
theorem Recurs.unique {n : Nat} {columns columns' : List Column} (h : Recurs n columns)
    (h' : Recurs n columns') (hpos : 0 < n) (hlength : columns.length = columns'.length)
    (hfirst : columns.take n = columns'.take n) :
    columns = columns' := by
  apply List.ext_getElem?
  intro i
  induction i using Nat.strongRecOn with
  | ind i ih =>
    by_cases hi : i < n
    · rw [← List.getElem?_take_of_lt hi, hfirst, List.getElem?_take_of_lt hi]
    by_cases hin : i < columns.length
    · have hsome := List.getElem?_eq_getElem hin
      have hsome' := List.getElem?_eq_getElem (hlength ▸ hin)
      have holdest := List.getElem?_eq_getElem (Nat.lt_of_le_of_lt (Nat.sub_le i n) hin)
      have hprevious := List.getElem?_eq_getElem (Nat.lt_of_le_of_lt (Nat.sub_le i 1) hin)
      have hterm := h i _ _ _ (Nat.le_of_not_lt hi) holdest hprevious hsome
      have hterm' := h' i _ _ _ (Nat.le_of_not_lt hi) (ih (i - n) (by omega) ▸ holdest)
        (ih (i - 1) (by omega) ▸ hprevious) hsome'
      rw [hsome, hsome', hterm, hterm']
    · rw [List.getElem?_eq_none (Nat.le_of_not_lt hin),
        List.getElem?_eq_none (hlength ▸ Nat.le_of_not_lt hin)]

/-- A key has one key schedule for each number of rounds. -/
theorem Expands.unique {key : Bytes} {count : Nat} {keys keys' : List Block} (hkey : 4 ≤ key.length)
    (h : Expands key count keys) (h' : Expands key count keys') : keys = keys' := by
  have hcount : keys.length = keys'.length := h.length_eq.trans h'.length_eq.symm
  have hlength : (keys.flatMap Block.columns).length = (keys'.flatMap Block.columns).length := by
    rw [length_flatMap_of_length Block.length_columns,
      length_flatMap_of_length Block.length_columns, hcount]
  have hfirst := flatMap_inj_of_length Column.length_toBytes
    (by rw [List.length_take, List.length_take, hlength]) (fun c _ d _ => Column.toBytes_inj c d)
    (h.key_eq.trans h'.key_eq.symm)
  have hpos : 0 < key.length / 4 := Nat.div_pos hkey (by decide)
  exact flatMap_inj_of_length Block.length_columns hcount (fun b _ d _ => Block.columns_inj b d)
    (h.recurs.unique h'.recurs hpos hlength hfirst)

/-- `roundKeys` expands a key of `n` columns for `n + 6` rounds. -/
theorem expands_roundKeys {key : Bytes} {n : Nat} (hkey : key.length = 4 * n) (hpos : 0 < n) :
    Expands key (n + 6) (roundKeys key) := by
  have hdiv : key.length / 4 = n := by omega
  let window := (blocks 4 n key).map Column.ofBytes
  have hwindow : window.length = n := by rw [List.length_map, length_blocks]
  have hne : window ≠ [] := List.length_pos_iff.mp (hwindow ▸ hpos)
  have hlength : (extend n (4 * (n + 7) - n) n window).length = 4 * (n + 7) := by
    rw [length_extend _ _ _ hne, hwindow]
    omega
  have hcolumns : (roundKeys key).flatMap Block.columns = extend n (4 * (n + 7) - n) n window := by
    rw [roundKeys, hdiv]
    exact flatMap_columns_grouped hlength
  refine ⟨?_, ?_, ?_⟩
  · have hjoined := length_flatMap_of_length Block.length_columns (roundKeys key)
    rw [hcolumns, hlength] at hjoined
    omega
  · have hfirst : (extend n (4 * (n + 7) - n) n window).take n = window := by
      rw [← hwindow]
      exact (List.prefix_iff_eq_take.mp (window_prefix_extend _ hne)).symm
    rw [hcolumns, hdiv, hfirst]
    exact flatMap_toBytes_blocks hkey
  · rw [hcolumns, hdiv]
    exact recurs_extend hwindow hpos

/-- The round keys of a key of `n` columns for `n + 6` rounds are those that
`roundKeys` computes. -/
theorem expands_iff {key : Bytes} {n : Nat} {keys : List Block}
    (hkey : key.length = 4 * n) (hpos : 0 < n) :
    Expands key (n + 6) keys ↔ keys = roundKeys key := by
  constructor
  · intro h
    exact h.unique (by omega) (expands_roundKeys hkey hpos)
  · rintro rfl
    exact expands_roundKeys hkey hpos

end Aes

end SealedToken
