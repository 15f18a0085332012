import Mathlib.Data.List.Basic
import Mathlib.Tactic.Common
import ShaderEffect.Memory

/-!
# Writing to memory

What a write leaves behind. A slice that is written reads as what was written, and the sizes of
blocks stay. A memory evolves (`Memory.Evolves`) while one update counter goes up: every block is
the one it was, or is stamped with an update that is later than all before.
-/

namespace ShaderEffect

/-! ### Slices -/

namespace Slice

variable {α : Type}

@[simp] lemma size_overwriteFrom (values : Array α) (i : Nat) (new : List α) :
    (overwriteFrom values i new).size = values.size := by
  induction new generalizing values i with
  | nil => rfl
  | cons v rest ih => rw [overwriteFrom, ih, Array.size_setIfInBounds]

@[simp] lemma size_write (s : Slice) (values : Array α) (new : List α) :
    (s.write values new).size = values.size :=
  size_overwriteFrom ..

/-- Overwriting leaves what stands before the place it starts at. -/
lemma getElem?_overwriteFrom_of_lt (values : Array α) (i j : Nat) (new : List α) (h : j < i) :
    (overwriteFrom values i new)[j]? = values[j]? := by
  induction new generalizing values i with
  | nil => rfl
  | cons v rest ih =>
    rw [overwriteFrom, ih _ _ (by omega), Array.getElem?_setIfInBounds_ne (by omega)]

/-- Overwriting leaves what stands after the last place. -/
lemma getElem?_overwriteFrom_of_le (values : Array α) (i j : Nat) (new : List α)
    (h : i + new.length ≤ j) : (overwriteFrom values i new)[j]? = values[j]? := by
  induction new generalizing values i with
  | nil => rfl
  | cons v rest ih =>
    rw [List.length_cons] at h
    rw [overwriteFrom, ih _ _ (by omega), Array.getElem?_setIfInBounds_ne (by omega)]

lemma getElem?_overwriteFrom (values : Array α) (i k : Nat) (new : List α)
    (hk : k < new.length) (hi : i + k < values.size) :
    (overwriteFrom values i new)[i + k]? = new[k]? := by
  induction new generalizing values i k with
  | nil => simp at hk
  | cons v rest ih =>
    cases k with
    | zero =>
      rw [overwriteFrom, getElem?_overwriteFrom_of_lt _ _ _ _ (by omega)]
      exact Array.getElem?_setIfInBounds_self_of_lt hi
    | succ k =>
      have hk : k < rest.length := by simpa using hk
      rw [overwriteFrom, show i + (k + 1) = i + 1 + k by omega,
        ih _ _ _ hk (by rw [Array.size_setIfInBounds]; omega)]
      rfl

/-- All values of an array are replaced. -/
lemma overwriteFrom_zero {values : Array α} {new : List α}
    (h : values.size = new.length) : overwriteFrom values 0 new = new.toArray := by
  refine Array.toList_inj.1 (List.ext_getElem? fun k => ?_)
  rw [Array.getElem?_toList, List.toList_toArray]
  by_cases hk : k < new.length
  · have hplace := getElem?_overwriteFrom values 0 k new hk (by omega)
    rwa [Nat.zero_add] at hplace
  · rw [getElem?_overwriteFrom_of_le _ _ _ _ (by omega), List.getElem?_eq_none (by omega),
      Array.getElem?_eq_none (by omega)]

lemma getElem?_read (s : Slice) (values : Array α) (k : Nat) :
    (s.read values)[k]? = if k < s.length then values[s.start + k]? else none := by
  rw [read, Array.getElem?_toList, Array.getElem?_extract]
  split <;> split <;> first | rfl | omega | skip
  rw [eq_comm, Array.getElem?_eq_none_iff]
  omega

lemma length_read (s : Slice) (values : Array α) :
    (s.read values).length = min s.length (values.size - s.start) := by
  simp only [read, Array.length_toList, Array.size_extract]
  omega

lemma length_read_congr (s : Slice) {values others : Array α} (h : values.size = others.size) :
    (s.read values).length = (s.read others).length := by
  rw [length_read, length_read, h]

/-- A slice reads as what was written, if as many values were written as it has. -/
lemma read_write (s : Slice) (values : Array α) (new : List α)
    (h : new.length = (s.read values).length) : s.read (s.write values new) = new := by
  have hlen := length_read s values
  refine List.ext_getElem? fun k => ?_
  rw [getElem?_read, write, List.take_of_length_le (by omega)]
  by_cases hk : k < new.length
  · rw [if_pos (by omega), getElem?_overwriteFrom _ _ _ _ hk (by omega)]
  · rw [List.getElem?_eq_none (by omega)]
    split
    · rw [Array.getElem?_eq_none_iff, size_overwriteFrom]
      omega
    · rfl

end Slice

/-! ### Blocks and counters -/

namespace Memory

variable (m : Memory)

lemma block_setBlock (id other : Nat) (b : Block) :
    (m.setBlock id b).block other =
      if id = other ∧ id < m.blocks.size then b else m.block other := by
  simp only [block, setBlock, Array.getD_eq_getD_getElem?, Array.getElem?_setIfInBounds]
  by_cases h : id = other
  · subst h
    by_cases hid : id < m.blocks.size <;> simp [hid]
  · simp [h]

lemma block_of_size_le {id : Nat} (h : m.blocks.size ≤ id) : m.block id = {} := by
  simp [block, h]

@[simp] lemma size_blocks_setBlock (id : Nat) (b : Block) :
    (m.setBlock id b).blocks.size = m.blocks.size := by
  simp [setBlock]

@[simp] lemma counter_setBlock (id c : Nat) (b : Block) :
    (m.setBlock id b).counter c = m.counter c := rfl

@[simp] lemma counters_setBlock (id : Nat) (b : Block) :
    (m.setBlock id b).counters = m.counters := rfl

@[simp] lemma block_nextVersion (c id : Nat) : (m.nextVersion c).2.block id = m.block id := rfl

@[simp] lemma blocks_nextVersion (c : Nat) : (m.nextVersion c).2.blocks = m.blocks := rfl

@[simp] lemma size_counters_nextVersion (c : Nat) :
    (m.nextVersion c).2.counters.size = m.counters.size := by
  simp [nextVersion]

lemma counter_nextVersion (c k : Nat) :
    (m.nextVersion c).2.counter k =
      if c = k ∧ c < m.counters.size then m.counter c + 1 else m.counter k := by
  simp only [counter, nextVersion, Array.getD_eq_getD_getElem?, Array.getElem?_setIfInBounds]
  by_cases h : c = k
  · subst h
    by_cases hc : c < m.counters.size <;> simp [hc]
  · simp [h]

lemma counter_nextVersion_self {c : Nat} (h : c < m.counters.size) :
    (m.nextVersion c).2.counter c = m.counter c + 1 := by
  rw [counter_nextVersion, if_pos ⟨rfl, h⟩]

lemma counter_le_nextVersion (c k : Nat) : m.counter k ≤ (m.nextVersion c).2.counter k := by
  rw [counter_nextVersion]
  split
  case isTrue h =>
    rw [← h.1]
    exact Nat.le_succ _
  case isFalse => exact Nat.le_refl _

/-! ### Evolution -/

/-- From one memory to another only blocks in `W` were written, and stamped by the counter `c`. -/
structure Evolves (c : Nat) (W : Nat → Prop) (m m' : Memory) : Prop where
  size_blocks : m'.blocks.size = m.blocks.size
  size_counters : m'.counters.size = m.counters.size
  counter_le : ∀ k, m.counter k ≤ m'.counter k
  counter_eq : ∀ k, k ≠ c → m'.counter k = m.counter k
  size_words : ∀ id, (m'.block id).words.size = (m.block id).words.size
  size_objects : ∀ id, (m'.block id).objects.size = (m.block id).objects.size
  unchanged_or_stamped : ∀ id, m'.block id = m.block id ∨
    W id ∧ m.counter c < (m'.block id).version ∧ (m'.block id).version ≤ m'.counter c

/-- From one memory to another the blocks in `W` and no others were written, and stamped by the
counter `c`. -/
structure Writes (c : Nat) (W : Nat → Prop) (m m' : Memory) : Prop extends Evolves c W m m' where
  stamped : ∀ id, W id → id < m.blocks.size → m.counter c < (m'.block id).version

variable {m} {m' m'' : Memory} {c : Nat} {W V : Nat → Prop}

namespace Evolves

lemma refl (c : Nat) (W : Nat → Prop) (m : Memory) : Evolves c W m m where
  size_blocks := rfl
  size_counters := rfl
  counter_le _ := Nat.le_refl _
  counter_eq _ _ := rfl
  size_words _ := rfl
  size_objects _ := rfl
  unchanged_or_stamped _ := .inl rfl

lemma trans (h : Evolves c W m m') (h' : Evolves c V m' m'') :
    Evolves c (fun id => W id ∨ V id) m m'' where
  size_blocks := h'.size_blocks.trans h.size_blocks
  size_counters := h'.size_counters.trans h.size_counters
  counter_le k := Nat.le_trans (h.counter_le k) (h'.counter_le k)
  counter_eq k hk := (h'.counter_eq k hk).trans (h.counter_eq k hk)
  size_words id := (h'.size_words id).trans (h.size_words id)
  size_objects id := (h'.size_objects id).trans (h.size_objects id)
  unchanged_or_stamped id := by
    have hc := h.counter_le c
    have hc' := h'.counter_le c
    rcases h'.unchanged_or_stamped id with h' | ⟨hV, hlt, hle⟩
    · rw [h']
      rcases h.unchanged_or_stamped id with h | ⟨hW, hlt, hle⟩
      · exact .inl h
      · exact .inr ⟨.inl hW, hlt, Nat.le_trans hle hc'⟩
    · exact .inr ⟨.inr hV, by omega, hle⟩

lemma mono (h : Evolves c W m m') (hV : ∀ id, W id → V id) : Evolves c V m m' :=
  { h with
    unchanged_or_stamped := fun id =>
      (h.unchanged_or_stamped id).imp_right fun ⟨hW, hstamp⟩ => ⟨hV id hW, hstamp⟩ }

/-- A block that was not to be written is what it was. -/
lemma block_eq (h : Evolves c W m m') {id : Nat} (hid : ¬W id) : m'.block id = m.block id :=
  (h.unchanged_or_stamped id).resolve_right fun hW => hid hW.1

end Evolves

namespace Writes

lemma refl (c : Nat) (m : Memory) : Writes c (fun _ => False) m m where
  toEvolves := .refl ..
  stamped _ h := h.elim

lemma trans (h : Writes c W m m') (h' : Writes c V m' m'') :
    Writes c (fun id => W id ∨ V id) m m'' where
  toEvolves := h.toEvolves.trans h'.toEvolves
  stamped id hid hsize := by
    have hc := h.counter_le c
    rcases hid with hW | hV
    · have hW := h.stamped id hW hsize
      rcases h'.unchanged_or_stamped id with h' | ⟨_, hlt, _⟩
      · rwa [h']
      · omega
    · have hV := h'.stamped id hV (h.size_blocks ▸ hsize)
      omega

lemma congr (h : Writes c W m m') (hV : ∀ id, W id ↔ V id) : Writes c V m m' :=
  (funext fun id => propext (hV id) : W = V) ▸ h

end Writes

/-- Drawing an update writes no block. -/
lemma evolves_nextVersion (m : Memory) (c : Nat) :
    Evolves c (fun _ => False) m (m.nextVersion c).2 where
  size_blocks := rfl
  size_counters := size_counters_nextVersion m c
  counter_le := counter_le_nextVersion m c
  counter_eq k hk := by rw [counter_nextVersion, if_neg fun h => hk h.1.symm]
  size_words _ := rfl
  size_objects _ := rfl
  unchanged_or_stamped _ := .inl rfl

/-- A block that is stamped with an update just drawn is written. -/
lemma writes_setBlock (m : Memory) {c : Nat} (hc : c < m.counters.size) (id : Nat)
    (contents : Contents) (hwords : contents.words.size = (m.block id).words.size)
    (hobjects : contents.objects.size = (m.block id).objects.size) :
    Writes c (· = id) m
      ((m.nextVersion c).2.setBlock id { contents with version := (m.nextVersion c).1 }) := by
  have hblock := block_setBlock (m.nextVersion c).2 id (b :=
    { contents with version := (m.nextVersion c).1 })
  have hcounter := counter_nextVersion_self m hc
  refine ⟨⟨?_, ?_, ?_, ?_, ?_, ?_, ?_⟩, ?_⟩
  · simp
  · simp
  · exact counter_le_nextVersion m c
  · exact (evolves_nextVersion m c).counter_eq
  · intro other
    rw [hblock]
    split
    case isTrue h => exact h.1 ▸ hwords
    case isFalse => rfl
  · intro other
    rw [hblock]
    split
    case isTrue h => exact h.1 ▸ hobjects
    case isFalse => rfl
  · intro other
    rw [hblock]
    split
    case isTrue h => exact .inr ⟨h.1.symm, Nat.lt_succ_self _, Nat.le_of_eq hcounter.symm⟩
    case isFalse => exact .inl rfl
  · rintro other rfl hsize
    rw [hblock, if_pos ⟨rfl, hsize⟩]
    exact Nat.lt_succ_self _

end Memory

end ShaderEffect
