import ShaderEffect.Proofs.Host.Private
import ShaderEffect.Proofs.Pass.Shown
import ShaderEffect.Proofs.Pass.Silent
import ShaderEffect.Proofs.Plan.Unread

/-!
# Unused parameters do not matter

A parameter counts as unused by a technique if a walk over the states of its passes finds none that
reads a part of it. The walk looks into samplers a few levels deep. If none lies deeper, the passes
of the technique do the same whatever an unused parameter holds and whenever it was written.
-/

namespace ShaderEffect

namespace Effect.Fits

variable {host : Host} {use : Nat → BlockUse} {i : Nat} {effect : Effect}
  (hfits : effect.Fits host use i)
include hfits

/-- Nodes of one root belong to the same node. -/
lemma top_eq_of_root_eq {h h' : Handle} {p p' : Parameter}
    (hp : effect.linked.tree.node? h = some p) (hp' : effect.linked.tree.node? h' = some p')
    (hroot : p.root = p'.root) : p.top = p'.top := by
  have hr : p.root < effect.linked.tree.initial.size :=
    hfits.proper.laid.root_lt h p.root (Tree.root?_of_node? hp)
  obtain ⟨flags, top, hnests⟩ := hfits.nested.roots p.root hr
  exact (hnests.top_eq h p (Nat.zero_le _) hp rfl).trans
    (hnests.top_eq h' p' (Nat.zero_le _) hp' hroot.symm).symm

end Effect.Fits

namespace Host

variable {host : Host} {owner : Nat → Owner} {use : Nat → BlockUse} {i : Nat} {s : EffectState}

/-- Without a pool, what has the block of a parameter is part of its root. -/
lemma hides_of_isParameter (hlayout : host.Layout use) (howned : host.Owned owner)
    (hs : host.state? i = some s) (hpool : s.linked.pool = none) {q : Handle}
    (hq : s.linked.IsParameter q) {p : Parameter} (hp : s.tree.node? q = some p) {b : Nat}
    (hb : s.linked.blockOf? q = some b) : s.linked.Hides p.top b := by
  have hi := (state?_eq_some.1 hs).1
  have hfits := hlayout.effects i s.effect hi
  have he : s.linked.Proper := hfits.proper
  refine ⟨fun h hbelongs hid => ?_, fun state hstate => he.blockOf?_ne_of_isParameter hq hstate hb,
    he.membersShare⟩
  obtain ⟨p', hp', -⟩ := s.linked.blockOf?_eq_some.1 hid
  have hroot : p'.root = p.root := by
    rcases howned.eq_or_bound hi hi hfits hfits hp' hp hid hb with
      ⟨-, hroot⟩ | ⟨q', name, hbound, -⟩
    · exact hroot
    · exact absurd hbound ((Private.alone hpool).not_bound hfits q' name)
  have htop : p'.top = p.top := hfits.top_eq_of_root_eq hp' hp hroot
  simp [LinkedEffect.belongsTo, hp', htop] at hbelongs

end Host

namespace EffectState

/-- The same state with another block in place of one. -/
def withBlock (s : EffectState) (b : Nat) (block : Block) : EffectState :=
  { s with memory := s.memory.setBlock b block }

variable {s : EffectState} {b t p : Nat} {pass : Pass} {block : Block}

lemma linked_withBlock : (s.withBlock b block).linked = s.linked := rfl

lemma effect_withBlock : (s.withBlock b block).effect = s.effect := rfl

lemma active_withBlock : (s.withBlock b block).active = s.active := rfl

lemma passInUse_withBlock : (s.withBlock b block).passInUse p = s.passInUse p := rfl

lemma isManagerInUse_withBlock {device : Nat} :
    (s.withBlock b block).isManagerInUse device = s.isManagerInUse device := rfl

lemma appliedAt_withBlock : (s.withBlock b block).appliedAt t p = s.appliedAt t p := rfl

lemma block_withBlock {id : Nat} (hid : id ≠ b) :
    (s.withBlock b block).memory.block id = s.memory.block id := by
  rw [withBlock, Memory.block_setBlock, if_neg fun h => hid h.1.symm]

/-- To apply a pass shows the same with another block, if its plan stays. -/
lemma shown_applyPass_withBlock (he : s.linked.Proper)
    (hc : s.linked.counter < s.memory.counters.size) (hpass : s.linked.pass? t p = some pass)
    (hkept : s.linked.Kept b (s.linked.passPlan s.memory pass)
      (s.linked.passPlan (s.withBlock b block).memory pass)) (full : Bool) :
    ((s.withBlock b block).applyPass t p pass full).shown = (s.applyPass t p pass full).shown := by
  have hblock : ∀ id, id ≠ b → (s.withBlock b block).memory.block id = s.memory.block id :=
    fun _ => block_withBlock
  have hdue := hkept.due_eq hblock ⟨full, s.appliedAt t p⟩
  rw [hkept.eq] at hdue
  have hflush : ∀ actions, ((s.withBlock b block).work.restart.assignAll actions).flushCalls =
      (s.work.restart.assignAll actions).flushCalls := fun actions =>
    (congrArg Work.flushCalls
      (s.work.restart.assignAll_withMemory (s.withBlock b block).memory actions)).trans
      (Work.flushCalls_withMemory ..)
  rw [shown_applyPass (s := s.withBlock b block) he hc hpass full, shown_applyPass he hc hpass full]
  simp only [linked_withBlock, appliedAt_withBlock, hflush, hkept.eq, hdue]

end EffectState

namespace Host

variable {host : Host} {i : Nat} {s : EffectState}

/-- What a parameter holds that a technique does not use, and when it was written, changes neither
the answers nor the device calls of its passes, if no states lie deeper than use is looked for. -/
theorem shown_passes_eq_of_not_isUsed (hhost : host.Reachable) (hs : host.state? i = some s)
    (hpool : s.linked.pool = none) {t : Nat} {technique : Technique}
    (htechnique : s.technique = .ok (t, technique))
    (hdeep : ∀ pass ∈ technique.passes,
      s.linked.statesBelow s.memory LinkedEffect.usageDepth pass.states = [])
    {q : Handle} (hq : s.linked.IsParameter q) (hused : s.linked.isUsed s.memory q t = false)
    {b : Nat} (hb : s.linked.blockOf? q = some b) (block : Block) (device : Nat) :
    (∀ p, ((s.withBlock b block).beginPass device p).shown = (s.beginPass device p).shown) ∧
      ((s.withBlock b block).commit device).shown = (s.commit device).shown := by
  have hlaid := hhost.laidOut
  have he := hlaid.proper hs
  have hc := hlaid.counter_lt hs
  obtain ⟨use, hlayout⟩ := hlaid
  obtain ⟨owner, howned⟩ := hhost.owned
  obtain ⟨node, hnode, -⟩ := s.linked.blockOf?_eq_some.1 hb
  have hhides := hides_of_isParameter hlayout howned hs hpool hq hnode hb
  have hlookup := (EffectState.technique_eq_ok.1 htechnique).2
  have hmem := List.mem_of_getElem? hlookup
  have happly : ∀ p t' pass full, s.passInUse p = .ok (t', pass) →
      ((s.withBlock b block).applyPass t' p pass full).shown =
        (s.applyPass t' p pass full).shown := by
    intro p t' pass full hpass
    have hin : pass ∈ technique.passes :=
      List.mem_of_getElem? (EffectState.getElem?_of_passInUse htechnique hpass)
    refine EffectState.shown_applyPass_withBlock he hc (EffectState.passInUse_eq_ok hpass).2 ?_ full
    have hstates : pass.states ⊆ s.linked.states :=
      fun state hstate => Link.mem_allStates_of_mem_pass hmem hin hstate
    refine LinkedEffect.kept_states hhides (fun _ => EffectState.block_withBlock) hstates ?_
      (hdeep pass hin) _ none
    intro state hstate
    exact LinkedEffect.stateReads_eq_false_of_isUsed hused hnode hlookup hin hstate
  constructor
  · intro p
    simp only [EffectState.shown_beginPass, EffectState.effect_withBlock,
      EffectState.passInUse_withBlock, EffectState.isManagerInUse_withBlock]
    split
    · rfl
    · rfl
    · split
      · rfl
      · rename_i t' pass hpass
        exact if_congr .rfl rfl (happly p t' pass true hpass)
  · simp only [EffectState.shown_commit, EffectState.active_withBlock,
      EffectState.passInUse_withBlock, EffectState.isManagerInUse_withBlock]
    split
    · rfl
    · rename_i p _
      split
      · rfl
      · rename_i t' pass hpass
        exact if_congr .rfl rfl (happly p t' pass false hpass)

/-- An image with two numbers: its pass sets a render state to the first, and nothing reads the
second. -/
def spareDimmer : Image :=
  { dimmer with
    parameters := [⟨0, .words (numberDeclaration (some "level")) [0], []⟩,
      ⟨0, .words (numberDeclaration (some "spare")) [0], []⟩] }

/-- The effect is begun. -/
def spareDimming : Host := run {} [.create spareDimmer [] none, .call 0 (.begin 0 {})]

/-- The pass sets the render state whatever the second number holds. -/
theorem shown_passes_eq_of_not_isUsed_spareDimming :
    ∃ s ∈ spareDimming.state? 0,
      s.linked.isUsed s.memory ⟨0⟩ 0 = true ∧ s.linked.isUsed s.memory ⟨1⟩ 0 = false ∧
        s.linked.blockOf? ⟨1⟩ = some 1 ∧ (s.beginPass 0 0).calls = [.renderState 7 0] ∧
        ∀ block, ((s.withBlock 1 block).beginPass 0 0).shown = (s.beginPass 0 0).shown := by
  obtain ⟨s, hs, hpool, ht, ⟨technique, hlookup, hdeep⟩, hq, huses, hused, hb, hcalls⟩ :
      ∃ s ∈ spareDimming.state? 0, s.linked.pool = none ∧ s.effect.technique = some 0 ∧
        (∃ technique ∈ s.linked.techniques[0]?, ∀ pass ∈ technique.passes,
          s.linked.statesBelow s.memory LinkedEffect.usageDepth pass.states = []) ∧
        (⟨1⟩ : Handle) ∈ s.linked.tree.top ∧ s.linked.isUsed s.memory ⟨0⟩ 0 = true ∧
        s.linked.isUsed s.memory ⟨1⟩ 0 = false ∧ s.linked.blockOf? ⟨1⟩ = some 1 ∧
        (s.beginPass 0 0).calls = [.renderState 7 0] := by
    decide +kernel
  have htechnique := EffectState.technique_eq_ok.2 ⟨ht, hlookup⟩
  exact ⟨s, hs, huses, hused, hb, hcalls, fun block =>
    (shown_passes_eq_of_not_isUsed ⟨_, rfl⟩ hs hpool htechnique hdeep (.top hq) hused hb block
      0).1 0⟩

end Host

end ShaderEffect
