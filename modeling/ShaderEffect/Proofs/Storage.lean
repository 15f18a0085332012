import ShaderEffect.Effect.Basic
import ShaderEffect.Proofs.Memory

/-!
# Words and object slots

A block is made of words and of object slots, and a parameter addresses a part of either. What a
write to some parameters changes of a memory is at places that they address
(`LinkedEffect.ChangesWithin`).
-/

namespace ShaderEffect

/-- What a block is made of. -/
inductive Storage where
  | words
  | objects
deriving DecidableEq

namespace Storage

/-- What a place of a block holds. -/
def Value : Storage → Type
  | words => UInt32
  | objects => Option EffectObject

/-- The values of contents. -/
def values : (k : Storage) → Contents → Array k.Value
  | words, c => c.words
  | objects, c => c.objects

/-- The part of a block that a node addresses. -/
def slice : Storage → Parameter → Slice
  | words, p => p.words
  | objects, p => p.objects

/-- The size of contents. -/
def size : Storage → Contents → Nat
  | words, c => c.words.size
  | objects, c => c.objects.size

lemma size_values (k : Storage) (c : Contents) : (k.values c).size = k.size c := by
  cases k <;> rfl

end Storage

/-! ### Places -/

namespace Slice

variable {α : Type}

/-- The place after a slice. -/
def stop (s : Slice) : Nat := s.start + s.length

/-- A place is in a slice. -/
def Has (s : Slice) (j : Nat) : Prop := s.start ≤ j ∧ j < s.stop

instance (s : Slice) (j : Nat) : Decidable (s.Has j) := inferInstanceAs (Decidable (_ ∧ _))

/-- Writing a slice leaves what is outside of it. -/
lemma getElem?_write_of_not_has (s : Slice) (values : Array α) (new : List α) {j : Nat}
    (hj : ¬s.Has j) : (s.write values new)[j]? = values[j]? := by
  rw [write]
  by_cases hlow : j < s.start
  · exact getElem?_overwriteFrom_of_lt _ _ _ _ hlow
  · refine getElem?_overwriteFrom_of_le _ _ _ _ ?_
    have hstop : s.stop ≤ j := Nat.le_of_not_lt fun h => hj ⟨Nat.le_of_not_lt hlow, h⟩
    rw [stop] at hstop
    rw [List.length_take]
    omega

/-- A slice that is written holds the new values as far as they reach. -/
lemma getElem?_write (s : Slice) (values : Array α) (new : List α) (n : Nat) :
    (s.write values new)[n]? = values[n]?.map fun old =>
      if s.Has n then (new[n - s.start]?).getD old else old := by
  by_cases hhas : s.Has n
  · simp only [hhas, if_true]
    obtain ⟨hstart, hstop⟩ := hhas
    rw [stop] at hstop
    by_cases hsize : n < values.size
    · rw [Array.getElem?_eq_getElem hsize, Option.map_some]
      by_cases hk : n - s.start < new.length
      · have hwritten := getElem?_overwriteFrom values s.start (n - s.start) (new.take s.length)
          (by rw [List.length_take]; omega) (by omega)
        rw [Nat.add_sub_cancel' hstart, List.getElem?_take_of_lt (by omega)] at hwritten
        rw [write, hwritten, List.getElem?_eq_getElem hk, Option.getD_some]
      · rw [write, getElem?_overwriteFrom_of_le _ _ _ _ (by rw [List.length_take]; omega),
          List.getElem?_eq_none (by omega), Array.getElem?_eq_getElem hsize, Option.getD_none]
    · rw [Array.getElem?_eq_none (by rw [size_write]; omega), Array.getElem?_eq_none (by omega),
        Option.map_none]
  · simp only [hhas, if_false, Option.map_id_fun', id_eq]
    exact getElem?_write_of_not_has s values new hhas

/-- A slice that is written holds the new values where there is one for each place. -/
lemma getElem?_write_of_has {s : Slice} {values : Array α} {new : List α} {n : Nat}
    (hn : s.Has n) (hnew : n < values.size ↔ n - s.start < new.length) :
    (s.write values new)[n]? = new[n - s.start]? := by
  obtain ⟨hstart, hstop⟩ := hn
  rw [stop] at hstop
  by_cases hsize : n < values.size
  · have hk : n - s.start < (new.take s.length).length := by
      rw [List.length_take]
      omega
    have hwrite := getElem?_overwriteFrom values s.start (n - s.start) _ hk (by omega)
    rw [Nat.add_sub_cancel' hstart, List.getElem?_take_of_lt (by omega)] at hwrite
    exact hwrite
  · rw [Array.getElem?_eq_none (by rw [size_write]; omega), List.getElem?_eq_none (by omega)]

/-- A slice that reads otherwise has a place with another value. -/
lemma exists_has_of_read_ne (s : Slice) {values others : Array α}
    (h : s.read values ≠ s.read others) : ∃ j, s.Has j ∧ values[j]? ≠ others[j]? := by
  by_contra hnone
  refine h (List.ext_getElem? fun n => ?_)
  rw [getElem?_read, getElem?_read]
  split
  · rename_i hn
    by_contra hne
    exact hnone ⟨s.start + n, ⟨Nat.le_add_right .., Nat.add_lt_add_left hn _⟩, hne⟩
  · rfl

/-- A slice inside an array has all its values. -/
lemma length_read_of_stop_le {s : Slice} {values : Array α} (h : s.stop ≤ values.size) :
    (s.read values).length = s.length := by
  rw [length_read]
  rw [stop] at h
  omega

end Slice

namespace Memory

/-- What a memory holds at a place, if there is the place. -/
def valueAt (m : Memory) (id : Nat) (k : Storage) (n : Nat) : Option k.Value :=
  (k.values (m.block id).toContents)[n]?

variable {m : Memory} {id : Nat} {k : Storage} {n : Nat}

lemma isSome_valueAt :
    (m.valueAt id k n).isSome = true ↔ n < k.size (m.block id).toContents := by
  rw [valueAt, Option.isSome_iff_ne_none, ne_eq, Array.getElem?_eq_none_iff,
    Nat.not_le, Storage.size_values]

/-- Where there is no block, nothing is held. -/
lemma valueAt_of_size_le (hid : m.blocks.size ≤ id) : m.valueAt id k n = none := by
  rw [valueAt, m.block_of_size_le hid]
  cases k <;> rfl

end Memory

namespace LinkedEffect

variable (e : LinkedEffect)

/-- The values of a parameter. -/
def values (m : Memory) : (k : Storage) → Handle → List k.Value
  | .words, h => e.words m h
  | .objects, h => e.objects m h

lemma values_eq_read {m : Memory} {k : Storage} {h : Handle} {p : Parameter} {id : Nat}
    (hp : e.tree.node? h = some p) (hid : e.blockOf? h = some id) :
    e.values m k h = (k.slice p).read (k.values (m.block id).toContents) := by
  cases k with
  | words =>
    show e.words m h = _
    rw [words, hp, hid]
    rfl
  | objects =>
    show e.objects m h = _
    rw [objects, hp, hid]
    rfl

/-- What is no parameter has no values. -/
lemma values_eq_nil {m : Memory} {k : Storage} {h : Handle} (hid : e.blockOf? h = none) :
    e.values m k h = [] := by
  cases k with
  | words =>
    show e.words m h = _
    rw [words, hid]
    cases e.tree.node? h <;> rfl
  | objects =>
    show e.objects m h = _
    rw [objects, hid]
    cases e.tree.node? h <;> rfl

/-- One of some parameters addresses a place of a block. -/
def Addresses (hs : List Handle) (id : Nat) (k : Storage) (j : Nat) : Prop :=
  ∃ h ∈ hs, ∃ p, e.tree.node? h = some p ∧ e.blockOf? h = some id ∧ (k.slice p).Has j

/-- From one memory to another only places changed that some parameters address. -/
def ChangesWithin (hs : List Handle) (m m' : Memory) : Prop :=
  ∀ (id : Nat) (k : Storage) (j : Nat),
    (k.values (m'.block id).toContents)[j]? = (k.values (m.block id).toContents)[j]? ∨
      e.Addresses hs id k j

/-- Two parameters address no common place. -/
def Disjoint (h g : Handle) : Prop :=
  ∀ (id : Nat) (k : Storage) (j : Nat), e.Addresses [h] id k j → ¬e.Addresses [g] id k j

namespace ChangesWithin

variable {e} {hs hs' : List Handle} {m m' m'' : Memory}

lemma refl (m : Memory) : e.ChangesWithin hs m m := fun _ _ _ => .inl rfl

lemma mono (h : e.ChangesWithin hs m m') (hsub : hs ⊆ hs') : e.ChangesWithin hs' m m' :=
  fun id k j => (h id k j).imp_right fun ⟨i, hi, haddress⟩ => ⟨i, hsub hi, haddress⟩

lemma trans (h : e.ChangesWithin hs m m') (h' : e.ChangesWithin hs' m' m'') :
    e.ChangesWithin (hs ++ hs') m m'' := by
  intro id k j
  rcases h'.mono (List.subset_append_right hs hs') id k j with hsame | haddress
  · rw [hsame]
    exact h.mono (List.subset_append_left hs hs') id k j
  · exact .inr haddress

end ChangesWithin

variable {e} {m : Memory} {h g : Handle}

lemma addresses_singleton {id : Nat} {k : Storage} {j : Nat} : e.Addresses [h] id k j ↔
    ∃ p, e.tree.node? h = some p ∧ e.blockOf? h = some id ∧ (k.slice p).Has j := by
  simp [Addresses]

/-- What is disjoint from all that was written has the values it had. -/
lemma ChangesWithin.values_eq {hs : List Handle} {m' : Memory} (h : e.ChangesWithin hs m m')
    (hd : ∀ i ∈ hs, e.Disjoint i g) (k : Storage) : e.values m' k g = e.values m k g := by
  cases hid : e.blockOf? g with
  | none => rw [e.values_eq_nil hid, e.values_eq_nil hid]
  | some id =>
    obtain ⟨p, hp⟩ : ∃ p, e.tree.node? g = some p := by
      rw [blockOf?] at hid
      exact (Option.bind_eq_some_iff.1 hid).imp fun _ h => h.1
    rw [e.values_eq_read hp hid, e.values_eq_read hp hid]
    by_contra hne
    obtain ⟨j, hj, hne⟩ := Slice.exists_has_of_read_ne _ hne
    obtain ⟨i, hi, haddress⟩ := (h id k j).resolve_left hne
    exact hd i hi id k j ⟨i, List.mem_singleton_self i, haddress⟩
      (addresses_singleton.2 ⟨p, hp, hid, hj⟩)

/-- What a parameter is written with is in its block. -/
lemma toContents_block_writeBlock {p : Parameter} {id : Nat} (hp : e.tree.node? h = some p)
    (hid : e.blockOf? h = some id) (hlt : id < m.blocks.size)
    (f : Parameter → Contents → Contents) :
    ((e.writeBlock m h f).block id).toContents = f p (m.block id).toContents := by
  simp only [writeBlock, hp, hid, Memory.block_setBlock, Memory.blocks_nextVersion,
    Memory.block_nextVersion, true_and, if_pos hlt]

/-- Changing the block of a parameter, in place, changes what it addresses. -/
lemma changesWithin_writeBlock {f : Parameter → Contents → Contents}
    (hf : ∀ p c (k : Storage) j, ¬(k.slice p).Has j →
      (k.values (f p c))[j]? = (k.values c)[j]?) :
    e.ChangesWithin [h] m (e.writeBlock m h f) := by
  intro other k j
  rw [writeBlock]
  split
  case h_1 p id hp hid =>
    rw [Memory.block_setBlock]
    split
    case isTrue heq =>
      by_cases hj : (k.slice p).Has j
      · exact .inr ⟨h, List.mem_singleton_self h, p, hp, heq.1 ▸ hid, hj⟩
      · rw [← heq.1]
        exact .inl (hf p _ k j hj)
    case isFalse => exact .inl rfl
  case h_2 => exact .inl rfl

lemma changesWithin_writeWords {f : List UInt32 → List UInt32} :
    e.ChangesWithin [h] m (e.writeWords m h f) :=
  changesWithin_writeBlock fun p c k j hj => by
    cases k with
    | words => exact p.words.getElem?_write_of_not_has _ _ hj
    | objects => rfl

lemma changesWithin_writeObjects {f : List (Option EffectObject) → List (Option EffectObject)} :
    e.ChangesWithin [h] m (e.writeObjects m h f) :=
  changesWithin_writeBlock fun p c k j hj => by
    cases k with
    | words => rfl
    | objects => exact p.objects.getElem?_write_of_not_has _ _ hj

lemma changesWithin_resetValue : e.ChangesWithin [h] m (e.resetValue m h) :=
  changesWithin_writeBlock fun p c k j hj => by
    cases k with
    | words => exact p.words.getElem?_write_of_not_has _ _ hj
    | objects => exact p.objects.getElem?_write_of_not_has _ _ hj

/-- A parameter that is reset has the values that its root held at first, if all are in bounds. -/
lemma values_resetValue {p : Parameter} {id : Nat} {c : Contents} (hp : e.tree.node? h = some p)
    (hid : e.blockOf? h = some id) (hlt : id < m.blocks.size)
    (hc : e.tree.initial[p.root]? = some c)
    (hstop : ∀ k : Storage, (k.slice p).stop ≤ k.size (m.block id).toContents ∧
      (k.slice p).stop ≤ k.size c) (k : Storage) :
    e.values (e.resetValue m h) k h = (k.slice p).read (k.values c) := by
  have hlength : ∀ {α : Type} {slice : Slice} {values others : Array α},
      slice.stop ≤ values.size ∧ slice.stop ≤ others.size →
      (slice.read others).length = (slice.read values).length := fun h =>
    (Slice.length_read_of_stop_le h.2).trans (Slice.length_read_of_stop_le h.1).symm
  have hinitial : e.tree.initial.getD p.root {} = c := by
    rw [Array.getD_eq_getD_getElem?, hc]
    rfl
  rw [e.values_eq_read hp hid, resetValue, writeBlock, hp, hid]
  simp only [hinitial, Memory.block_setBlock, Memory.blocks_nextVersion, true_and, if_pos hlt]
  cases k with
  | words => exact Slice.read_write _ _ _ (hlength (hstop .words))
  | objects => exact Slice.read_write _ _ _ (hlength (hstop .objects))

end LinkedEffect

/-- The values of a parameter. -/
abbrev EffectState.values (s : EffectState) (k : Storage) (h : Handle) : List k.Value :=
  s.linked.values s.memory k h

end ShaderEffect
