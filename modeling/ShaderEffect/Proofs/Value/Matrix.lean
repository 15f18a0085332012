import Mathlib.Data.List.FinRange
import ShaderEffect.Proofs.Value.Grounded

/-!
# Matrices, as they are and transposed

To read and to write a matrix are loops over its cells. What such a loop leaves is known cell by
cell (`entry_readMatrix`, `getElem?_writeMatrix`), in either orientation, and so the accessors
differ only by a transposition. What was written is read back through all accessors
(`EffectState.HoldsMatrix`).
-/

namespace ShaderEffect

/-! ### Entries -/

namespace Orientation

variable (o : Orientation) (m : Matrix4) (row column i j : Fin 4)

lemma entry_straight : straight.entry m row column = (m.get row).get column := rfl

lemma entry_transposed : transposed.entry m row column = (m.get column).get row := rfl

/-- To replace an entry leaves all others. -/
lemma entry_setEntry (x : Single) :
    o.entry (o.setEntry m row column x) i j =
      if row = i ∧ column = j then x else o.entry m i j := by
  cases o with
  | straight =>
    show (m.setIfInBounds row (m[row].setIfInBounds column x))[i][j] = if _ then x else m[i][j]
    simp only [Fin.getElem_fin, Vector.getElem_setIfInBounds]
    by_cases hrow : row = i
    · subst hrow
      simp [Vector.getElem_setIfInBounds, Fin.ext_iff]
    · simp [hrow, Fin.val_inj]
  | transposed =>
    show (m.setIfInBounds column (m[column].setIfInBounds row x))[j][i] = if _ then x else m[j][i]
    simp only [Fin.getElem_fin, Vector.getElem_setIfInBounds]
    by_cases hcolumn : column = j
    · subst hcolumn
      simp [Vector.getElem_setIfInBounds, Fin.ext_iff]
    · simp [hcolumn, Fin.val_inj]

lemma entry_transpose :
    straight.entry m.transpose row column = transposed.entry m row column := by
  show m.transpose[row][column] = m[column][row]
  simp [Matrix4.transpose]

lemma entry_zero : o.entry Matrix4.zero row column = .zero := by
  cases o with
  | straight =>
    show Matrix4.zero[row][column] = .zero
    simp [Matrix4.zero, Float4.zero]
  | transposed =>
    show Matrix4.zero[column][row] = .zero
    simp [Matrix4.zero, Float4.zero]

end Orientation

/-- A matrix is known by its entries. -/
lemma Matrix4.ext_entry {m m' : Matrix4} (h : ∀ row column,
    Orientation.straight.entry m row column = Orientation.straight.entry m' row column) : m = m' :=
  Vector.ext fun i hi => Vector.ext fun j hj => h ⟨i, hi⟩ ⟨j, hj⟩

/-! ### Cells -/

namespace Declaration

variable (d : Declaration) (o : Orientation) {words : List UInt32}

lemma mem_take_finRange {n k : Nat} (i : Fin n) : i ∈ (List.finRange n).take k ↔ i.val < k := by
  rw [List.mem_take_iff_getElem]
  constructor
  · rintro ⟨j, hj, rfl⟩
    rw [List.getElem_finRange]
    exact Nat.lt_of_lt_of_le hj (Nat.min_le_left ..)
  · intro hi
    exact ⟨i, by simpa using hi, by simp⟩

lemma mem_matrixCells (row column : Fin 4) :
    (row, column) ∈ d.matrixCells ↔ d.hasCell row column = true := by
  simp only [matrixCells, List.mem_flatMap, List.mem_map, Prod.mk.injEq, mem_take_finRange, hasCell,
    Bool.and_eq_true, decide_eq_true_eq]
  constructor
  · rintro ⟨i, hi, j, hj, rfl, rfl⟩
    exact ⟨hi, hj⟩
  · rintro ⟨hrow, hcolumn⟩
    exact ⟨row, hrow, column, hcolumn, rfl, rfl⟩

/-- Two cells have different places. -/
lemma cellPlace_inj {row column row' column' : Fin 4} (hcell : d.hasCell row column = true)
    (hcell' : d.hasCell row' column' = true)
    (hplace : d.cellPlace row column = d.cellPlace row' column') :
    row = row' ∧ column = column' := by
  simp only [hasCell, Bool.and_eq_true, decide_eq_true_eq] at hcell hcell'
  have hpos : 0 < d.columns.toNat := Nat.zero_lt_of_lt hcell.2
  have hdiv := congrArg (· / d.columns.toNat) hplace
  have hmod := congrArg (· % d.columns.toNat) hplace
  simp only [cellPlace, Nat.mul_comm _ d.columns.toNat, Nat.mul_add_div hpos, Nat.mul_add_mod,
    Nat.div_eq_of_lt, Nat.mod_eq_of_lt, hcell.2, hcell'.2, Nat.add_zero] at hdiv hmod
  exact ⟨Fin.ext hdiv, Fin.ext hmod⟩

/-- Every cell is there. -/
lemma cellPlace_lt {row column : Fin 4} (hcell : d.hasCell row column = true)
    (hlength : words.length = d.rows.toNat * d.columns.toNat) :
    d.cellPlace row column < words.length := by
  simp only [hasCell, Bool.and_eq_true, decide_eq_true_eq] at hcell
  calc d.cellPlace row column
      < row * d.columns.toNat + d.columns.toNat := Nat.add_lt_add_left hcell.2 _
    _ = (row + 1) * d.columns.toNat := (Nat.succ_mul ..).symm
    _ ≤ d.rows.toNat * d.columns.toNat := Nat.mul_le_mul_right _ hcell.1
    _ = words.length := hlength.symm

/-! ### Reading -/

/-- Going through cells, each entry is the one of its cell, and the entries of no cell stay. -/
lemma entry_foldl_setEntry (f : Fin 4 → Fin 4 → Single) (cells : List (Fin 4 × Fin 4)) (m : Matrix4)
    (row column : Fin 4) :
    o.entry (cells.foldl (fun m c => o.setEntry m c.1 c.2 (f c.1 c.2)) m) row column =
      if (row, column) ∈ cells then f row column else o.entry m row column := by
  induction cells generalizing m with
  | nil => simp
  | cons c rest ih =>
    obtain ⟨i, j⟩ := c
    rw [List.foldl_cons, ih, o.entry_setEntry]
    by_cases hrest : (row, column) ∈ rest
    · rw [if_pos hrest, if_pos (List.mem_cons_of_mem _ hrest)]
    · rw [if_neg hrest]
      simp only [List.mem_cons, Prod.mk.injEq, hrest, or_false]
      by_cases hcell : row = i ∧ column = j
      · obtain ⟨rfl, rfl⟩ := hcell
        simp
      · rw [if_neg hcell, if_neg fun h => hcell ⟨h.1.symm, h.2.symm⟩]

lemma entry_readMatrix (words : List UInt32) (row column : Fin 4) :
    o.entry (d.readMatrix o words) row column =
      if d.hasCell row column then (d.cell words row column).toFloat else .zero := by
  rw [readMatrix, entry_foldl_setEntry o (fun row column => (d.cell words row column).toFloat),
    o.entry_zero]
  simp only [d.mem_matrixCells]

/-- A matrix that is read transposed is the transpose of it. -/
lemma readMatrix_transposed (words : List UInt32) :
    d.readMatrix .transposed words = (d.readMatrix .straight words).transpose :=
  Matrix4.ext_entry fun row column => by
    rw [Orientation.entry_transpose, Orientation.entry_transposed, ← Orientation.entry_straight,
      entry_readMatrix, Orientation.entry_straight, ← Orientation.entry_transposed,
      entry_readMatrix]

/-! ### Writing -/

@[simp] lemma length_writeMatrix (m : Matrix4) (words : List UInt32) :
    (d.writeMatrix o m words).length = words.length := by
  rw [writeMatrix]
  induction d.matrixCells generalizing words with
  | nil => rfl
  | cons c rest ih => rw [List.foldl_cons, ih, List.length_set]

/-- To write a matrix transposed is to write its transpose. -/
lemma writeMatrix_transposed (m : Matrix4) (words : List UInt32) :
    d.writeMatrix .transposed m words = d.writeMatrix .straight m.transpose words := by
  simp only [writeMatrix, Orientation.entry_transpose]

/-- Going through cells that have different places, the word of a cell is written, or was there and
stays. -/
lemma getElem?_foldl_set (place : Fin 4 × Fin 4 → Nat) (f : Fin 4 × Fin 4 → UInt32)
    {cells : List (Fin 4 × Fin 4)} {c : Fin 4 × Fin 4} {words : List UInt32}
    (hlt : place c < words.length) (hplace : ∀ c' ∈ cells, place c' = place c → c' = c)
    (hc : c ∈ cells ∨ words[place c]? = some (f c)) :
    (cells.foldl (fun words c => words.set (place c) (f c)) words)[place c]? = some (f c) := by
  induction cells generalizing words with
  | nil => exact hc.resolve_left List.not_mem_nil
  | cons c' rest ih =>
    rw [List.foldl_cons]
    refine ih (by rwa [List.length_set])
      (fun c'' hc'' => hplace c'' (List.mem_cons_of_mem _ hc'')) ?_
    by_cases heq : c' = c
    · subst heq
      exact .inr (List.getElem?_set_self hlt)
    · have hne : place c' ≠ place c := fun h => heq (hplace c' List.mem_cons_self h)
      rw [List.getElem?_set_ne hne]
      exact hc.imp_left fun hc => (List.mem_cons.1 hc).resolve_left (Ne.symm heq)

/-- Going through cells, the word at a place of none of them stays. -/
lemma getElem?_foldl_set_of_forall_ne (place : Fin 4 × Fin 4 → Nat) (f : Fin 4 × Fin 4 → UInt32)
    {cells : List (Fin 4 × Fin 4)} {n : Nat} {words : List UInt32}
    (hplace : ∀ c ∈ cells, place c ≠ n) :
    (cells.foldl (fun words c => words.set (place c) (f c)) words)[n]? = words[n]? := by
  induction cells generalizing words with
  | nil => rfl
  | cons c rest ih =>
    rw [List.forall_mem_cons] at hplace
    rw [List.foldl_cons, ih hplace.2, List.getElem?_set_ne hplace.1]

/-- A cell that is written holds what the entry becomes in storage. -/
lemma getElem?_writeMatrix (m : Matrix4) {row column : Fin 4} (hcell : d.hasCell row column = true)
    (hlt : d.cellPlace row column < words.length) :
    (d.writeMatrix o m words)[d.cellPlace row column]? =
      some (Scalar.toWord d.type (.float (o.entry m row column))) := by
  have hinj : ∀ c ∈ d.matrixCells,
      d.cellPlace c.1 c.2 = d.cellPlace row column → c = (row, column) := fun c hc hplace =>
    Prod.ext_iff.2 (d.cellPlace_inj ((d.mem_matrixCells c.1 c.2).1 hc) hcell hplace)
  exact getElem?_foldl_set (fun c => d.cellPlace c.1 c.2)
    (fun c => Scalar.toWord d.type (.float (o.entry m c.1 c.2))) hlt hinj
    (.inl ((d.mem_matrixCells row column).2 hcell))

/-- A cell that is written is read back as what it became in storage. -/
lemma cell_writeMatrix (m : Matrix4) {row column : Fin 4} (hcell : d.hasCell row column = true)
    (hlength : words.length = d.rows.toNat * d.columns.toNat) :
    d.cell (d.writeMatrix o m words) row column =
      Scalar.ofWord d.type (Scalar.toWord d.type (.float (o.entry m row column))) := by
  have hword := d.getElem?_writeMatrix o m hcell (d.cellPlace_lt hcell hlength)
  rw [cellPlace] at hword
  rw [cell, hword]

end Declaration

/-! ### Accessors -/

namespace EffectState

variable {s : EffectState} {h : Handle} {p : Parameter}

/-- What all accessors read of a parameter that a matrix was written to. Inside the shape are the
entries as they are stored, in row order, and around it are zeros. -/
structure HoldsMatrix (s : EffectState) (h : Handle) (d : Declaration) (m : Matrix4) : Prop where
  matrix : ∃ m', s.getMatrix .straight h = .ok m' ∧ ∀ row column : Fin 4,
    (m'.get row).get column = if row < d.rows.toNat ∧ column < d.columns.toNat then
      (Scalar.ofWord d.type (Scalar.toWord d.type (.float ((m.get row).get column)))).toFloat
    else .zero
  /-- Numbers are read one by one, as far as the buffer and the matrix both reach. -/
  numbers : ∀ {α : Type} (convert : Scalar → α) (buffer : List α), ∃ out,
    s.getNumbers convert h buffer = .ok out ∧ out.length = buffer.length ∧
    (∀ row column : Fin 4, row < d.rows.toNat → column < d.columns.toNat →
      row * d.columns.toNat + column < buffer.length →
      out[row * d.columns.toNat + column]? =
        some (convert (Scalar.ofWord d.type
          (Scalar.toWord d.type (.float ((m.get row).get column)))))) ∧
    ∀ k, d.rows.toNat * d.columns.toNat ≤ k → out[k]? = buffer[k]?

/-- A matrix reads transposed as the transpose of what it reads as. -/
lemma getMatrix_transposed (s : EffectState) (h : Handle) :
    s.getMatrix .transposed h = (s.getMatrix .straight h).map Matrix4.transpose := by
  rw [getMatrix, getMatrix, readIf, readIf]
  cases s.node h with
  | error e => rfl
  | ok p =>
    dsimp only
    split
    · rw [p.decl.readMatrix_transposed]
      rfl
    · rfl

/-- To set a matrix transposed is to set the transpose. -/
lemma setMatrix_transposed (s : EffectState) (h : Handle) (m : Matrix4) :
    s.setMatrix .transposed h m = s.setMatrix .straight h m.transpose := by
  rw [setMatrix, setMatrix]
  congr 1
  funext p words
  exact p.decl.writeMatrix_transposed m words

namespace Grounded

variable {l : Link.Linking} (hs : s.Grounded l) (hp : s.tree.node? h = some p)
  (hcls : p.decl.cls = .matrixRows) (helements : p.decl.elements = 0)
include hs hp hcls helements

/-- A matrix that was written is read by all accessors. -/
lemma holdsMatrix (m : Matrix4) :
    HoldsMatrix (s.writeWords h (p.decl.writeMatrix .straight m)) h p.decl m := by
  have hnumeric : p.decl.cls.isNumeric = true := hcls ▸ rfl
  obtain ⟨hrows, hcolumns, hlength⟩ := hs.length_words_of_numeric hp helements hnumeric
  have hp' : (s.writeWords h (p.decl.writeMatrix .straight m)).tree.node? h = some p := by
    rwa [tree_writeWords]
  have hwords := s.words_writeWords_self (h := h) (p.decl.length_writeMatrix .straight m)
  refine ⟨⟨_, (readIf_of_node hp').trans (if_pos (by simp [Parameter.isMatrix, hcls, helements])),
    fun row column => ?_⟩, fun convert buffer =>
    ⟨_, (readIf_of_node hp').trans (if_pos (by simp [Parameter.isNumberList, hcls])),
      length_overlay .., fun row column hrow hcolumn hlt => ?_, fun k hk => ?_⟩⟩
  · rw [hwords, ← Orientation.entry_straight, Declaration.entry_readMatrix]
    by_cases hcell : p.decl.hasCell row column = true
    · rw [if_pos hcell, p.decl.cell_writeMatrix .straight m hcell hlength,
        if_pos (by simpa [Declaration.hasCell] using hcell)]
      rfl
    · rw [if_neg hcell, if_neg (by simpa [Declaration.hasCell] using hcell)]
  · have hcell : p.decl.hasCell row column = true := by
      simp [Declaration.hasCell, hrow, hcolumn]
    have hplace := p.decl.cellPlace_lt hcell hlength
    have hword := p.decl.getElem?_writeMatrix .straight m hcell hplace
    rw [Declaration.cellPlace] at hplace hword
    rw [hwords, getElem?_overlay, if_pos ⟨by simpa using hplace, hlt⟩, List.getElem?_map, hword]
    rfl
  · rw [hwords, getElem?_overlay, if_neg]
    rw [List.length_map, p.decl.length_writeMatrix, hlength]
    omega

end Grounded

/-- The accessors of a matrix agree. What is read transposed is the transpose of what is read, to
write transposed is to write the transpose, and what was written is read back: inside the shape as
it is stored, in row order, and as zeros around it. -/
theorem matrix_accessors {ops : List HostOperation} (hops : ∀ op ∈ ops, op.FromStored) {i : Nat}
    (hs : (Host.run {} ops).state? i = some s) (hp : s.tree.node? h = some p)
    (hcls : p.decl.cls = .matrixRows) (helements : p.decl.elements = 0) (m : Matrix4) :
    (∃ read, s.getMatrix .straight h = .ok read ∧
      s.getMatrix .transposed h = .ok read.transpose) ∧
    s.setMatrix .transposed h m = s.setMatrix .straight h m.transpose ∧
    ∃ s', s.setMatrix .straight h m = .ok s' ∧ s'.HoldsMatrix h p.decl m := by
  obtain ⟨l, hgrounded⟩ := Host.exists_grounded hops hs
  have hmatrix : p.isMatrix = true := by simp [Parameter.isMatrix, hcls, helements]
  have hread : s.getMatrix .straight h = .ok (p.decl.readMatrix .straight (s.words h)) :=
    (readIf_of_node hp).trans (if_pos hmatrix)
  refine ⟨⟨_, hread, ?_⟩, s.setMatrix_transposed h m, _,
    (writeIf_of_node hp).trans (if_pos hmatrix), hgrounded.holdsMatrix hp hcls helements m⟩
  rw [s.getMatrix_transposed, hread]
  rfl

/-- A matrix whose first rows are 1, 1.5, 2, 3 and 4, 6, 8, 12. -/
def steps : Matrix4 := .ofFn fun row => .ofFn fun column =>
  ⟨0x3F800000 + 0x400000 * (4 * row.val + column.val).toUInt32⟩

/-- A matrix of two rows and three columns of integers is set. Fractions are lost. -/
theorem matrix_accessors_lantern : ∃ s p s', lantern.state? = some s ∧
    s.tree.node? ⟨3⟩ = some p ∧ s.setMatrix .straight ⟨3⟩ steps = .ok s' ∧
    s'.words ⟨3⟩ = [1, 1, 2, 4, 6, 8] ∧ s'.HoldsMatrix ⟨3⟩ p.decl steps := by
  obtain ⟨s, hs, p, hp, hcls, helements, s', hs', hwords⟩ : ∃ s ∈ lantern.state?,
      ∃ p ∈ s.tree.node? ⟨3⟩, p.decl.cls = .matrixRows ∧ p.decl.elements = 0 ∧
        ∃ s' ∈ (s.setMatrix .straight ⟨3⟩ steps).toOption, s'.words ⟨3⟩ = [1, 1, 2, 4, 6, 8] := by
    decide +kernel
  obtain ⟨ops, hops, hrun⟩ := WrittenEffect.exists_run hs
  obtain ⟨-, -, s'', hs'', hholds⟩ := matrix_accessors hops hrun hp hcls helements steps
  rw [hs''] at hs'
  obtain rfl := Option.some.inj hs'
  exact ⟨s, p, s'', hs, hp, hs'', hwords, hholds⟩

end EffectState

end ShaderEffect
