import ShaderEffect.Effect.Block
import ShaderEffect.Proofs.Storage
import ShaderEffect.Value.Matrix
import ShaderEffect.Value.Object
import ShaderEffect.Value.Raw
import ShaderEffect.Value.Scalar
import ShaderEffect.Value.Vector

/-!
# Writing parameters

There are many ways to give a parameter a value, but each comes to the same: the blocks of the
parameters it is for are stamped, every other block stays, and nothing of the effect changes except
what it notes in the block being recorded (`EffectState.Setting`).
-/

namespace ShaderEffect

/-- A chain of calls succeeds only if its first call does. -/
lemma exists_of_bind_eq_ok {ε α β : Type} {first : Except ε α} {next : α → Except ε β} {b : β}
    (h : first >>= next = .ok b) : ∃ a, first = .ok a ∧ next a = .ok b := by
  cases first with
  | error e => cases h
  | ok a => exact ⟨a, rfl, h⟩

/-! ### One parameter -/

namespace LinkedEffect

variable (e : LinkedEffect)

lemma blockOf?_eq_some {h : Handle} {id : Nat} :
    e.blockOf? h = some id ↔ ∃ p, e.tree.node? h = some p ∧ e.roots[p.root]? = some id := by
  cases hp : e.tree.node? h with
  | none => simp [blockOf?, hp]
  | some p => simp [blockOf?, hp]

/-- The blocks of some parameters. -/
def BlocksOf (hs : List Handle) (id : Nat) : Prop := ∃ h ∈ hs, e.blockOf? h = some id

lemma blocksOf_singleton {h : Handle} {id : Nat} :
    e.BlocksOf [h] id ↔ e.blockOf? h = some id := by
  simp [BlocksOf]

lemma blocksOf_append {hs hs' : List Handle} {id : Nat} :
    e.BlocksOf (hs ++ hs') id ↔ e.BlocksOf hs id ∨ e.BlocksOf hs' id := by
  simp only [BlocksOf, List.mem_append, or_and_right, exists_or]

variable {e} {m : Memory} {h : Handle}

/-- Changing the block of a parameter, in place, writes this block. -/
lemma writes_writeBlock {f : Parameter → Contents → Contents} (hc : e.counter < m.counters.size)
    (hwords : ∀ p c, (f p c).words.size = c.words.size)
    (hobjects : ∀ p c, (f p c).objects.size = c.objects.size) :
    Memory.Writes e.counter (e.BlocksOf [h]) m (e.writeBlock m h f) := by
  rw [writeBlock]
  split
  case h_1 p id hp hid =>
    refine (Memory.writes_setBlock m hc id _ (hwords _ _) (hobjects _ _)).congr fun other => ?_
    rw [blocksOf_singleton, hid, Option.some.injEq, eq_comm]
  case h_2 hnone =>
    refine (Memory.Writes.refl _ m).congr fun other => ?_
    rw [blocksOf_singleton, blockOf?_eq_some]
    constructor
    · exact False.elim
    · rintro ⟨p, hp, hid⟩
      exact hnone p other hp (by simp [blockOf?, hp, hid])

lemma writes_writeWords {f : List UInt32 → List UInt32} (hc : e.counter < m.counters.size) :
    Memory.Writes e.counter (e.BlocksOf [h]) m (e.writeWords m h f) :=
  writes_writeBlock hc (fun _ _ => Slice.size_write ..) fun _ _ => rfl

lemma writes_writeObjects {f : List (Option EffectObject) → List (Option EffectObject)}
    (hc : e.counter < m.counters.size) :
    Memory.Writes e.counter (e.BlocksOf [h]) m (e.writeObjects m h f) :=
  writes_writeBlock hc (fun _ _ => rfl) fun _ _ => Slice.size_write ..

lemma writes_resetValue (hc : e.counter < m.counters.size) :
    Memory.Writes e.counter (e.BlocksOf [h]) m (e.resetValue m h) :=
  writes_writeBlock hc (fun _ _ => Slice.size_write ..) fun _ _ => Slice.size_write ..

/-- Writing words leaves all object slots as they are. -/
lemma objects_block_writeWords (f : List UInt32 → List UInt32) (id : Nat) :
    ((e.writeWords m h f).block id).objects = (m.block id).objects := by
  rw [writeWords, writeBlock]
  split
  case h_1 =>
    rw [Memory.block_setBlock]
    split
    case isTrue heq =>
      rw [← heq.1]
      rfl
    case isFalse => rfl
  case h_2 => rfl

/-- A parameter reads as what was written, if as many words were written as it has. -/
lemma words_writeWords {f : List UInt32 → List UInt32}
    (hf : ∀ words, (f words).length = words.length) :
    e.words (e.writeWords m h f) h = f (e.words m h) := by
  rw [words, words, writeWords, writeBlock]
  split
  case h_1 p id hp hid =>
    simp only [Memory.block_setBlock, Memory.blocks_nextVersion, true_and]
    by_cases hsize : id < m.blocks.size
    · rw [if_pos hsize]
      exact Slice.read_write _ _ _ (hf _)
    · -- There is no such block, so nothing is read and nothing was written.
      rw [if_neg hsize]
      have hnil : ∀ c : Slice, c.read (#[] : Array UInt32) = [] := fun c => by
        simp [Slice.read]
      have hblock : m.block id = {} := m.block_of_size_le (by omega)
      simp only [Memory.block_nextVersion, hblock, hnil]
      exact (List.eq_nil_of_length_eq_zero (hf [])).symm
  case h_2 hnone =>
    simp only [List.eq_nil_of_length_eq_zero (hf [])]

end LinkedEffect

/-! ### The many ways to set a value -/

/-- A value to give to a parameter, as one of the setters takes it. -/
inductive Setter where
  | bool (value : Bool)
  | int (value : Int32)
  | float (value : Single)
  | vector (value : Float4)
  | vectors (values : List Float4)
  | matrix (o : Orientation) (value : Matrix4)
  | matrices (o : Orientation) (values : List Matrix4)
  | bools (values : List Bool)
  | ints (values : List Int32)
  | floats (values : List Single)
  | bytes (values : List UInt8)
  | objects (values : List (Option EffectObject))
  | text (value : String)
  | texture (value : Option (Shared Texture))

namespace EffectState

/-- Set a parameter. -/
def set (s : EffectState) (h : Handle) : Setter → Except CallError EffectState
  | .bool value => s.setBool h value
  | .int value => s.setInt h value
  | .float value => s.setFloat h value
  | .vector value => s.setVector h value
  | .vectors values => s.setVectorArray h values
  | .matrix o value => s.setMatrix o h value
  | .matrices o values => s.setMatrixArray o h values
  | .bools values => s.setBoolArray h values
  | .ints values => s.setIntArray h values
  | .floats values => s.setFloatArray h values
  | .bytes values => s.setValue h values
  | .objects values => s.setObjects h values
  | .text value => s.setText h value
  | .texture value => s.setTexture h value

/-- The first elements of an array. -/
def firstElements (s : EffectState) (h : Handle) (count : Nat) : List Handle :=
  match s.tree.node? h with
  | some p => p.members.take count
  | none => []

/-- The parameters that a setter writes if it succeeds: setters of several vectors or matrices
write as many elements of an array, all others the parameter as a whole. -/
def targets (s : EffectState) (h : Handle) : Setter → List Handle
  | .vectors values => s.firstElements h values.length
  | .matrices _ values => s.firstElements h values.length
  | _ => [h]

/-- An entry holds what its parameter held in a memory that came from a given one. -/
def Notes (s : EffectState) (entry : BlockEntry) : Prop :=
  ∃ W m, Memory.Evolves s.linked.counter W s.memory m ∧
    entry.words = s.linked.words m entry.h ∧ entry.objects = s.linked.objects m entry.h

/-- The entries of the block being recorded. -/
def recorded (s : EffectState) : ParameterBlock := s.effect.recording.getD []

/-- From one state to another exactly the blocks of some parameters were written, by the effect
itself. -/
structure Setting (s : EffectState) (hs : List Handle) (s' : EffectState) : Prop where
  writes : Memory.Writes s.linked.counter (s.linked.BlocksOf hs) s.memory s'.memory
  within : s.linked.ChangesWithin hs s.memory s'.memory
  effect : ∃ recording, s'.effect = { s.effect with recording }
  recorded : ∀ entry ∈ s'.recorded, entry ∈ s.recorded ∨ s.Notes entry

lemma memory_record (s : EffectState) (h : Handle) : (s.record h).memory = s.memory := by
  rw [record]
  split <;> rfl

lemma mem_recordEntry {entry other : BlockEntry} {block : ParameterBlock}
    (h : other ∈ recordEntry entry block) : other = entry ∨ other ∈ block := by
  induction block with
  | nil => exact .inl (List.mem_singleton.1 h)
  | cons e rest ih =>
    rw [recordEntry] at h
    split at h
    · exact (List.mem_cons.1 h).imp_right (List.mem_cons_of_mem _)
    · rcases List.mem_cons.1 h with rfl | h
      · exact .inr List.mem_cons_self
      · exact (ih h).imp_right (List.mem_cons_of_mem _)

namespace Setting

variable {s s' s'' : EffectState} {hs hs' : List Handle} {h : Handle}

lemma linked (hset : Setting s hs s') : s'.linked = s.linked := by
  obtain ⟨recording, heffect⟩ := hset.effect
  rw [EffectState.linked, heffect]

lemma size_counters (hset : Setting s hs s') :
    s'.memory.counters.size = s.memory.counters.size :=
  hset.writes.size_counters

lemma refl (s : EffectState) : Setting s [] s where
  writes := (Memory.Writes.refl _ _).congr fun _ => by simp [LinkedEffect.BlocksOf]
  within := .refl _
  effect := ⟨s.effect.recording, rfl⟩
  recorded _ hentry := .inl hentry

lemma trans (hset : Setting s hs s') (hset' : Setting s' hs' s'') :
    Setting s (hs ++ hs') s'' where
  writes := by
    have hwrites' := hset'.writes
    rw [hset.linked] at hwrites'
    exact (hset.writes.trans hwrites').congr fun _ => (s.linked.blocksOf_append).symm
  within := hset.within.trans (hset.linked ▸ hset'.within)
  effect := by
    obtain ⟨recording, heffect⟩ := hset.effect
    obtain ⟨recording', heffect'⟩ := hset'.effect
    exact ⟨recording', by rw [heffect', heffect]⟩
  recorded entry hentry := by
    rcases hset'.recorded entry hentry with hentry | ⟨W, m, hevolves, hwords, hobjects⟩
    · exact hset.recorded entry hentry
    · rw [hset.linked] at hevolves hwords hobjects
      exact .inr ⟨_, m, hset.writes.toEvolves.trans hevolves, hwords, hobjects⟩

/-- Noting a value in the block being recorded is no write. -/
lemma of_record {memory : Memory}
    (hwrites : Memory.Writes s.linked.counter (s.linked.BlocksOf hs) s.memory memory)
    (hwithin : s.linked.ChangesWithin hs s.memory memory) :
    Setting s hs (EffectState.record { s with memory } h) := by
  rw [record]
  cases hrecording : s.effect.recording with
  | none => exact ⟨hwrites, hwithin, ⟨_, rfl⟩, fun entry hentry => .inl hentry⟩
  | some block =>
    refine ⟨hwrites, hwithin, ⟨_, rfl⟩, fun entry hentry => ?_⟩
    rcases mem_recordEntry hentry with rfl | hentry
    · exact .inr ⟨_, memory, hwrites.toEvolves, rfl, rfl⟩
    · refine .inl ?_
      rwa [EffectState.recorded, hrecording]

end Setting

/-- From one state to another parameters were written one after the other, and each was noted at
once in the block being recorded; some were noted only. -/
inductive Trail : EffectState → List Handle → List Handle → EffectState → Prop
  | nil (s : EffectState) : Trail s [] [] s
  | write {s s' : EffectState} {h : Handle} {memory : Memory} {written noted : List Handle} :
      Memory.Writes s.linked.counter (s.linked.BlocksOf [h]) s.memory memory →
      s.linked.ChangesWithin [h] s.memory memory →
      Trail (record { s with memory } h) written noted s' →
      Trail s (h :: written) (h :: noted) s'
  | note {s s' : EffectState} {h : Handle} {written noted : List Handle} :
      Trail (s.record h) written noted s' → Trail s written (h :: noted) s'

namespace Trail

variable {s s' s'' : EffectState} {written written' noted noted' : List Handle} {h : Handle}

lemma single {memory : Memory}
    (hwrites : Memory.Writes s.linked.counter (s.linked.BlocksOf [h]) s.memory memory)
    (hwithin : s.linked.ChangesWithin [h] s.memory memory) :
    Trail s [h] [h] (record { s with memory } h) :=
  .write hwrites hwithin (.nil _)

lemma append (htrail : Trail s written noted s') (htrail' : Trail s' written' noted' s'') :
    Trail s (written ++ written') (noted ++ noted') s'' := by
  induction htrail with
  | nil => exact htrail'
  | write hwrites hwithin _ ih => exact .write hwrites hwithin (ih htrail')
  | note _ ih => exact .note (ih htrail')

/-- What a trail leaves, whatever it noted. -/
lemma setting (htrail : Trail s written noted s') : Setting s written s' := by
  induction htrail with
  | nil s => exact .refl s
  | write hwrites hwithin _ ih => exact (Setting.of_record hwrites hwithin).trans ih
  | @note s _ _ _ _ _ ih => exact (Setting.of_record (Setting.refl s).writes (.refl _)).trans ih

/-- A trail leaves the counter of the effect where it is. -/
lemma counter_lt (htrail : Trail s written noted s')
    (hc : s.linked.counter < s.memory.counters.size) :
    s'.linked.counter < s'.memory.counters.size := by
  rw [htrail.setting.linked, htrail.setting.size_counters]
  exact hc

end Trail

variable {s s' : EffectState} {h : Handle}

lemma trail_writeWords {f : List UInt32 → List UInt32}
    (hc : s.linked.counter < s.memory.counters.size) : Trail s [h] [h] (s.writeWords h f) :=
  .single (LinkedEffect.writes_writeWords hc) LinkedEffect.changesWithin_writeWords

lemma trail_writeObjects {f : List (Option EffectObject) → List (Option EffectObject)}
    (hc : s.linked.counter < s.memory.counters.size) : Trail s [h] [h] (s.writeObjects h f) :=
  .single (LinkedEffect.writes_writeObjects hc) LinkedEffect.changesWithin_writeObjects

lemma trail_resetValue (hc : s.linked.counter < s.memory.counters.size)
    (hs : s.resetValue h = .ok s') : Trail s [h] [h] s' := by
  simp only [resetValue, node] at hs
  split at hs
  · cases hs
    exact .single (LinkedEffect.writes_resetValue hc) LinkedEffect.changesWithin_resetValue
  · cases hs

lemma exists_resetValue {p : Parameter} (hp : s.tree.node? h = some p) :
    ∃ s', s.resetValue h = .ok s' ∧ s'.linked = s.linked ∧
      s'.memory = s.linked.resetValue s.memory h := by
  refine ⟨_, by rw [resetValue, node, hp]; rfl, ?_⟩
  rw [record]
  split <;> exact ⟨rfl, rfl⟩

theorem setting_resetValue (hc : s.linked.counter < s.memory.counters.size)
    (hs : s.resetValue h = .ok s') : Setting s [h] s' :=
  (trail_resetValue hc hs).setting

/-- Words are changed of a parameter that is accepted. -/
lemma exists_of_writeIf {accepts : Parameter → Bool} {error : CallError}
    {write : Parameter → List UInt32 → List UInt32}
    (hs : s.writeIf h accepts error write = .ok s') : ∃ p, s.tree.node? h = some p ∧
      accepts p = true ∧ s' = s.writeWords h (write p) := by
  simp only [writeIf, node] at hs
  cases hp : s.tree.node? h with
  | none =>
    rw [hp] at hs
    cases hs
  | some p =>
    rw [hp] at hs
    simp only at hs
    split at hs
    · rename_i haccepts
      cases hs
      exact ⟨p, rfl, haccepts, rfl⟩
    · cases hs

lemma trail_writeIf {accepts : Parameter → Bool} {error : CallError}
    {write : Parameter → List UInt32 → List UInt32}
    (hc : s.linked.counter < s.memory.counters.size)
    (hs : s.writeIf h accepts error write = .ok s') : Trail s [h] [h] s' := by
  obtain ⟨p, -, -, rfl⟩ := exists_of_writeIf hs
  exact trail_writeWords hc

lemma trail_setScalar {error : CallError} {value : Scalar}
    (hc : s.linked.counter < s.memory.counters.size)
    (hs : s.setScalar h error value = .ok s') : Trail s [h] [h] s' :=
  trail_writeIf hc hs

/-- Writing several parameters one after the other writes each of them. -/
lemma trail_writeEach {α : Type} {write : EffectState → Handle → α → Except CallError EffectState}
    (hwrite : ∀ (s s' : EffectState) (h : Handle) (a : α),
      s.linked.counter < s.memory.counters.size → write s h a = .ok s' → Trail s [h] [h] s')
    {pairs : List (Handle × α)} (hc : s.linked.counter < s.memory.counters.size)
    (hs : (writeEach write s pairs).toExcept = .ok s') :
    Trail s (pairs.map Prod.fst) (pairs.map Prod.fst) s' := by
  induction pairs generalizing s with
  | nil =>
    cases hs
    exact .nil _
  | cons pair rest ih =>
    obtain ⟨h, a⟩ := pair
    rw [writeEach] at hs
    split at hs
    · rename_i between hfirst
      have htrail := hwrite s between h a hc hfirst
      exact htrail.append (ih (htrail.counter_lt hc) hs)
    · cases hs

/-- What an accessor of several elements goes through are the first elements of the array. -/
lemma eq_firstElements {cls : ParameterClass} {count : Nat} {hs : List Handle}
    (helements : s.elements h count cls = .ok hs) : hs = s.firstElements h count := by
  rw [elements] at helements
  split at helements
  case isTrue hcount =>
    cases helements
    rw [firstElements, hcount]
    split <;> rfl
  case isFalse =>
    simp only [node] at helements
    rw [firstElements]
    cases hp : s.tree.node? h with
    | none =>
      rw [hp] at helements
      cases helements
    | some p =>
      rw [hp] at helements
      simp only at helements
      split at helements
      · cases helements
        rfl
      · cases helements

lemma map_fst_zip_elements {α : Type} {cls : ParameterClass} {values : List α} {hs : List Handle}
    (helements : s.elements h values.length cls = .ok hs) :
    (hs.zip values).map Prod.fst = s.firstElements h values.length := by
  obtain rfl := eq_firstElements helements
  refine List.map_fst_zip ?_
  rw [firstElements]
  split
  · exact List.length_take_le _ _
  · exact Nat.zero_le _

lemma trail_setVectorArray {values : List Float4}
    (hc : s.linked.counter < s.memory.counters.size)
    (hs : s.setVectorArray h values = .ok s') :
    Trail s (s.firstElements h values.length) (s.firstElements h values.length) s' := by
  rw [setVectorArray, writeVectorArray] at hs
  split at hs
  · cases hs
  · rename_i elements helements
    rw [← map_fst_zip_elements helements]
    exact trail_writeEach (fun _ _ _ _ hc hs => trail_writeIf hc hs) hc hs

lemma trail_setMatrixArray {o : Orientation} {values : List Matrix4}
    (hc : s.linked.counter < s.memory.counters.size)
    (hs : s.setMatrixArray o h values = .ok s') :
    Trail s (s.firstElements h values.length) (s.firstElements h values.length) s' := by
  rw [setMatrixArray, writeMatrixArray] at hs
  split at hs
  · cases hs
  · rename_i elements helements
    rw [← map_fst_zip_elements helements]
    exact trail_writeEach (fun _ _ _ _ hc hs => trail_writeIf hc hs) hc hs

lemma trail_setInt {value : Int32} (hc : s.linked.counter < s.memory.counters.size)
    (hs : s.setInt h value = .ok s') : Trail s [h] [h] s' := by
  rw [setInt] at hs
  split at hs
  · exact trail_setScalar hc hs
  · exact trail_writeIf hc hs

lemma eq_writeWords_of_setValue {values : List UInt8} (hs : s.setValue h values = .ok s') :
    s' = s.writeWords h (overlay (Word.ofList values)) := by
  obtain ⟨p, -, hs⟩ := exists_of_bind_eq_ok hs
  cases hs
  rfl

lemma trail_setValue {values : List UInt8} (hc : s.linked.counter < s.memory.counters.size)
    (hs : s.setValue h values = .ok s') : Trail s [h] [h] s' := by
  rw [eq_writeWords_of_setValue hs]
  exact trail_writeWords hc

lemma eq_writeObjects_of_setObjects {values : List (Option EffectObject)}
    (hs : s.setObjects h values = .ok s') : s' = s.writeObjects h fun _ => values := by
  obtain ⟨p, -, hs⟩ := exists_of_bind_eq_ok hs
  simp only at hs
  split at hs
  · cases hs
  · split at hs
    · cases hs
    · cases hs
      rfl

lemma trail_setObjects {values : List (Option EffectObject)}
    (hc : s.linked.counter < s.memory.counters.size)
    (hs : s.setObjects h values = .ok s') : Trail s [h] [h] s' := by
  rw [eq_writeObjects_of_setObjects hs]
  exact trail_writeObjects hc

lemma eq_writeObjects_of_setSingle {accepts : ParameterType → Bool} {object : Option EffectObject}
    (hs : s.setSingle h accepts object = .ok s') : s' = s.writeObjects h (replaceSlot object) := by
  obtain ⟨p, -, hs⟩ := exists_of_bind_eq_ok hs
  simp only at hs
  split at hs
  · cases hs
  · cases hs
    rfl

lemma trail_setSingle {accepts : ParameterType → Bool} {object : Option EffectObject}
    (hc : s.linked.counter < s.memory.counters.size)
    (hs : s.setSingle h accepts object = .ok s') : Trail s [h] [h] s' := by
  rw [eq_writeObjects_of_setSingle hs]
  exact trail_writeObjects hc

lemma trail_setText {text : String} (hc : s.linked.counter < s.memory.counters.size)
    (hs : s.setText h text = .ok s') : Trail s [h] [h] s' := by
  rw [eq_writeObjects_of_setSingle hs]
  -- The new object takes an identity from memory, which leaves blocks and counters alone.
  have hwrites := LinkedEffect.writes_writeObjects (e := s.linked) (h := h)
    (m := (s.memory.share text).2)
    (f := replaceSlot (some (.text (s.memory.share text).1))) hc
  exact .single { hwrites with } LinkedEffect.changesWithin_writeObjects

/-- Every setter that succeeds writes and notes its targets, one after the other, and nothing
else. -/
theorem trail_set {setter : Setter} (hc : s.linked.counter < s.memory.counters.size)
    (hs : s.set h setter = .ok s') : Trail s (s.targets h setter) (s.targets h setter) s' := by
  cases setter with
  | bool value | float value => exact trail_setScalar hc hs
  | int value => exact trail_setInt hc hs
  | vector value => exact trail_writeIf hc hs
  | vectors values => exact trail_setVectorArray hc hs
  | matrix o value => exact trail_writeIf hc hs
  | matrices o values => exact trail_setMatrixArray hc hs
  | bools values | ints values | floats values => exact trail_writeIf hc hs
  | bytes values => exact trail_setValue hc hs
  | objects values => exact trail_setObjects hc hs
  | text value => exact trail_setText hc hs
  | texture value => exact trail_setSingle hc hs

/-- Every setter that succeeds writes its targets and nothing else. -/
theorem setting_set {setter : Setter} (hc : s.linked.counter < s.memory.counters.size)
    (hs : s.set h setter = .ok s') : Setting s (s.targets h setter) s' :=
  (trail_set hc hs).setting

end EffectState

/-! ### Numbers -/

/-- Whether a setter is for numbers. -/
def Setter.isNumeric : Setter → Bool
  | .objects _ | .text _ | .texture _ => false
  | _ => true

namespace EffectState

variable {motive : EffectState → Prop}

lemma writeIf_induction (hwords : ∀ s h f, motive s → motive (s.writeWords h f))
    {s s' : EffectState} {h : Handle} {accepts : Parameter → Bool} {error : CallError}
    {write : Parameter → List UInt32 → List UInt32}
    (hs : s.writeIf h accepts error write = .ok s') (hstart : motive s) : motive s' := by
  obtain ⟨p, -, -, rfl⟩ := exists_of_writeIf hs
  exact hwords s h _ hstart

lemma writeEach_induction {α : Type}
    {write : EffectState → Handle → α → Except CallError EffectState}
    (hwrite : ∀ (s s' : EffectState) (h : Handle) (a : α), write s h a = .ok s' → motive s →
      motive s')
    {s s' : EffectState} {pairs : List (Handle × α)}
    (hs : (writeEach write s pairs).toExcept = .ok s') (hstart : motive s) : motive s' := by
  induction pairs generalizing s with
  | nil =>
    cases hs
    exact hstart
  | cons pair rest ih =>
    rw [writeEach] at hs
    split at hs
    · rename_i between hfirst
      exact ih hs (hwrite s between _ _ hfirst hstart)
    · cases hs

/-- What is kept when words are written is kept by all setters for numbers. -/
theorem set_induction (hwords : ∀ s h f, motive s → motive (s.writeWords h f))
    {s s' : EffectState} {h : Handle} {setter : Setter} (hnumeric : setter.isNumeric = true)
    (hs : s.set h setter = .ok s') (hstart : motive s) : motive s' := by
  have hwriteIf : ∀ {s s' : EffectState} {h : Handle} {accepts : Parameter → Bool}
      {error : CallError} {write : Parameter → List UInt32 → List UInt32},
      s.writeIf h accepts error write = .ok s' → motive s → motive s' := writeIf_induction hwords
  cases setter with
  | bool value | float value => exact hwriteIf hs hstart
  | int value =>
    rw [set, setInt] at hs
    split at hs <;> exact hwriteIf hs hstart
  | vector value | matrix o value => exact hwriteIf hs hstart
  | vectors values =>
    rw [set, setVectorArray, writeVectorArray] at hs
    split at hs
    · cases hs
    · exact writeEach_induction (fun _ _ _ _ hs => hwriteIf hs) hs hstart
  | matrices o values =>
    rw [set, setMatrixArray, writeMatrixArray] at hs
    split at hs
    · cases hs
    · exact writeEach_induction (fun _ _ _ _ hs => hwriteIf hs) hs hstart
  | bools values | ints values | floats values => exact hwriteIf hs hstart
  | bytes values =>
    rw [eq_writeWords_of_setValue hs]
    exact hwords s h _ hstart
  | objects values | text value | texture value => cases hnumeric

/-- From one state to another no object slot changed. -/
def KeepsObjects (s s' : EffectState) : Prop :=
  ∀ id, (s'.memory.block id).objects = (s.memory.block id).objects

lemma keepsObjects_writeWords (s : EffectState) (h : Handle) (f : List UInt32 → List UInt32) :
    KeepsObjects s (s.writeWords h f) := by
  intro id
  rw [writeWords, record]
  split <;> exact LinkedEffect.objects_block_writeWords f id

/-- Setters for numbers leave all object slots as they are. -/
theorem keepsObjects_set {s s' : EffectState} {h : Handle} {setter : Setter}
    (hnumeric : setter.isNumeric = true) (hs : s.set h setter = .ok s') : KeepsObjects s s' :=
  set_induction (motive := KeepsObjects s)
    (fun s h f hkeeps id => (keepsObjects_writeWords s h f id).trans (hkeeps id)) hnumeric hs
    fun _ => rfl

end EffectState

/-! ### Blocks -/

/-- The parameters that an entry of a block writes: its own, unless it holds no values. -/
def BlockEntry.targets (entry : BlockEntry) : List Handle :=
  if entry.words.isEmpty && entry.objects.isEmpty then [] else [entry.h]

lemma BlockEntry.targets_subset (block : ParameterBlock) :
    block.flatMap BlockEntry.targets ⊆ block.map (·.h) := by
  intro h hh
  obtain ⟨entry, hentry, hh⟩ := List.mem_flatMap.1 hh
  rw [targets] at hh
  split at hh
  · cases hh
  · rw [List.mem_singleton.1 hh]
    exact List.mem_map_of_mem hentry

namespace EffectState

variable {s s' : EffectState}

lemma trail_applyEntry (entry : BlockEntry) (hc : s.linked.counter < s.memory.counters.size) :
    Trail s entry.targets [entry.h] (s.applyEntry entry) := by
  have hwords : ∀ f, Memory.Writes s.linked.counter (s.linked.BlocksOf [entry.h]) s.memory
      (s.linked.writeWords s.memory entry.h f) := fun _ => LinkedEffect.writes_writeWords hc
  rw [applyEntry, BlockEntry.targets]
  by_cases hw : entry.words.isEmpty = true <;> by_cases ho : entry.objects.isEmpty = true
  · simp only [hw, ho, if_true, Bool.and_self]
    exact .note (.nil _)
  · simp only [hw, ho, if_true, Bool.and_false, Bool.false_eq_true, if_false]
    exact .single (LinkedEffect.writes_writeObjects hc) LinkedEffect.changesWithin_writeObjects
  · simp only [hw, ho, if_true, Bool.false_and, Bool.false_eq_true, if_false]
    exact .single (hwords _) LinkedEffect.changesWithin_writeWords
  · simp only [hw, ho, Bool.and_self, Bool.false_eq_true, if_false]
    have hobjects := LinkedEffect.writes_writeObjects (h := entry.h) (f := fun _ => entry.objects)
      ((hwords fun _ => entry.words).size_counters ▸ hc)
    refine .single (((hwords _).trans hobjects).congr fun _ => or_self_iff) ?_
    exact (LinkedEffect.changesWithin_writeWords.trans
      LinkedEffect.changesWithin_writeObjects).mono (by simp)

lemma trail_foldl_applyEntry (block : ParameterBlock)
    (hc : s.linked.counter < s.memory.counters.size) :
    Trail s (block.flatMap BlockEntry.targets) (block.map (·.h)) (block.foldl applyEntry s) := by
  induction block generalizing s with
  | nil => exact .nil s
  | cons entry rest ih =>
    have htrail := trail_applyEntry entry hc
    exact htrail.append (ih (htrail.counter_lt hc))

lemma applyBlock_eq_ok {i : Nat} : s.applyBlock i = .ok s' ↔
    ∃ block, s.block? i = some block ∧ block.foldl applyEntry s = s' := by
  rw [applyBlock]
  cases hblock : s.block? i with
  | none => simp
  | some block => simp

lemma block?_of_applyBlock_eq_error {i : Nat} {e : CallError} (hs : s.applyBlock i = .error e) :
    s.block? i = none := by
  rw [applyBlock] at hs
  split at hs
  · cases hs
  · assumption

/-- The parameters that a block writes. -/
def blockTargets (s : EffectState) (i : Nat) : List Handle :=
  ((s.block? i).getD []).flatMap BlockEntry.targets

/-- A block that is applied writes its targets and notes all its parameters, one after the other,
and writes nothing else. -/
theorem trail_applyBlock {i : Nat} (hc : s.linked.counter < s.memory.counters.size)
    (hs : s.applyBlock i = .ok s') :
    Trail s (s.blockTargets i) (((s.block? i).getD []).map (·.h)) s' := by
  obtain ⟨block, hblock, rfl⟩ := applyBlock_eq_ok.1 hs
  rw [blockTargets, hblock]
  exact trail_foldl_applyEntry block hc

/-- A block that is applied writes its targets and nothing else. -/
theorem setting_applyBlock {i : Nat} (hc : s.linked.counter < s.memory.counters.size)
    (hs : s.applyBlock i = .ok s') : Setting s (s.blockTargets i) s' :=
  (trail_applyBlock hc hs).setting

end EffectState

end ShaderEffect
