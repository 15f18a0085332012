import ShaderEffect.Effect.Basic

/-!
# Parameter blocks

Between the beginning and the end of a block, every write notes the value it leaves. Applying the
block gives these values back.
-/

namespace ShaderEffect.EffectState

/-- Begin to record a block. -/
def beginBlock (s : EffectState) : Except CallError EffectState :=
  match s.effect.recording with
  | some _ => .error .blockInProgress
  | none => .ok { s with effect := { s.effect with recording := some [] } }

/-- End the block being recorded; the answer is its number. -/
def endBlock (s : EffectState) : Except CallError (Nat × EffectState) :=
  match s.effect.recording with
  | none => .error .noBlockInProgress
  | some block => .ok (s.effect.blocks.size, { s with effect := { s.effect with
      recording := none, blocks := s.effect.blocks.push (some block) } })

/-- The block of a number, unless it was deleted. -/
def block? (s : EffectState) (i : Nat) : Option ParameterBlock := s.effect.blocks[i]?.join

/-- Give a parameter the values of an entry. -/
def applyEntry (s : EffectState) (entry : BlockEntry) : EffectState :=
  let m := s.memory
  let m := if entry.words.isEmpty then m
    else s.linked.writeWords m entry.h fun _ => entry.words
  let m := if entry.objects.isEmpty then m
    else s.linked.writeObjects m entry.h fun _ => entry.objects
  { s with memory := m }.record entry.h

/-- Give the recorded values back. -/
def applyBlock (s : EffectState) (i : Nat) : Except CallError EffectState :=
  match s.block? i with
  | some block => .ok (block.foldl applyEntry s)
  | none => .error .badBlock

/-- Delete a block. -/
def deleteBlock (s : EffectState) (i : Nat) : Except CallError EffectState :=
  match s.block? i with
  | some _ => .ok { s with effect := { s.effect with
      blocks := s.effect.blocks.setIfInBounds i none } }
  | none => .error .badBlock

end ShaderEffect.EffectState
