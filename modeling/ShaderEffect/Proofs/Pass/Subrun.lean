import Mathlib.Data.List.Flatten
import ShaderEffect.Proofs.Pass.Shown
import ShaderEffect.Proofs.Pass.Silent

/-!
# Commits are part of full applications

A commit does what is due of the plan of a pass, and to apply the pass in full is to do all of it.
So from one state both come to the same answer, and the device calls of the commit are some of those
of the full application, in the same order. Lights and the material are sent as a whole after single
fields of them were assigned; there only the calls agree, and not what is sent.
-/

namespace ShaderEffect

/-- A call without the light or the material that it sends. -/
def DeviceCall.outline : DeviceCall → DeviceCall
  | .light index _ => .light index {}
  | .material _ => .material {}
  | c => c

/-- Apply all states of the pass that is begun, as a commit applies those that changed. -/
def EffectState.reapply (s : EffectState) (device : Nat) : Response Unit :=
  match s.active with
  | none => s.refuse .commitWithoutPass
  | some pass =>
    match s.passInUse pass with
    | .error e => s.refuse e
    | .ok (t, p) =>
      if s.isManagerInUse device then s.refuse .managerInUse else s.applyPass t pass p true

/-! ### What is due -/

namespace LinkedEffect

variable {e : LinkedEffect} {m : Memory}

/-- What is due when some states are applied is due when all are. -/
lemma due_sublist_due_full (since : Nat) (plan : Plan) :
    (e.due m ⟨false, since⟩ plan).Sublist (e.due m ⟨true, since⟩ plan) := by
  induction plan with
  | nil => exact .slnil
  | cons event plan ih =>
    cases event with
    | act inputs action =>
      simp only [due, Bool.true_or, if_true]
      split
      · exact ih.cons_cons action
      · exact ih.cons action
    | fail error => exact .slnil

end LinkedEffect

/-! ### What is sent in the end -/

namespace Work

variable (w : Work)

/-- Lights are sent in ascending order. -/
lemma outline_lightCalls :
    w.lightCalls.map DeviceCall.outline =
      ((List.finRange Light.count).filter w.lightsSet.get).map
        fun i => .light (UInt32.ofNat i) {} := by
  rw [lightCalls]
  induction List.finRange Light.count with
  | nil => rfl
  | cons i rest ih =>
    have hget : w.lightsSet.get i = w.lightsSet[i] := rfl
    by_cases hset : w.lightsSet[i] = true
    · simp only [List.filterMap_cons, List.filter_cons, hget, hset, if_true, List.map_cons, ih]
      rfl
    · simp only [List.filterMap_cons, List.filter_cons, hget, hset, if_false, ih,
        Bool.false_eq_true]

variable {w} {w' : Work} {actions others : List Action}

/-- More that is assigned is more that is sent, whatever is sent. -/
lemma outline_flushCalls_sublist (h : actions ⊆ others) :
    ((w.restart.assignAll actions).flushCalls.map DeviceCall.outline).Sublist
      ((w'.restart.assignAll others).flushCalls.map DeviceCall.outline) := by
  rw [flushCalls, flushCalls, List.map_append, List.map_append]
  apply List.Sublist.append
  · rw [outline_lightCalls, outline_lightCalls]
    apply List.Sublist.map
    apply List.monotone_filter_right
    intro i hi
    obtain ⟨a, ha, hkey⟩ := ((lightsSet_assignAll _ _ i.isLt).1 hi).resolve_left (by simp [restart])
    exact (lightsSet_assignAll _ _ i.isLt).2 (.inr ⟨a, h ha, hkey⟩)
  · rw [materialCalls, materialCalls]
    split
    · rename_i hset
      have hset' : (w'.restart.assignAll others).materialSet = true := by
        rw [materialSet_assignAll] at hset ⊢
        obtain ⟨a, ha, hkey⟩ := hset.resolve_left (by simp [restart])
        exact .inr ⟨a, h ha, hkey⟩
      rw [if_pos hset']
      exact .refl _
    · exact List.nil_sublist _

/-- Which lights are sent, and whether the material is, depends on what is assigned only. -/
lemma outline_flushCalls_congr (w w' : Work) (actions : List Action) :
    (w'.restart.assignAll actions).flushCalls.map DeviceCall.outline =
      (w.restart.assignAll actions).flushCalls.map DeviceCall.outline :=
  (outline_flushCalls_sublist (List.Subset.refl _)).antisymm
    (outline_flushCalls_sublist (List.Subset.refl _))

end Work

/-! ### Passes -/

namespace EffectState

variable {s : EffectState} {t p : Nat} {pass : Pass}

/-- To apply what changed of a pass is part of applying all of it. -/
lemma applyPass_sublist (he : s.linked.Proper) (hc : s.linked.counter < s.memory.counters.size)
    (hpass : s.linked.pass? t p = some pass) :
    (s.applyPass t p pass false).answer = (s.applyPass t p pass true).answer ∧
      ((s.applyPass t p pass false).calls.map DeviceCall.outline).Sublist
        ((s.applyPass t p pass true).calls.map DeviceCall.outline) := by
  constructor
  · rw [answer_applyPass he hc hpass, answer_applyPass he hc hpass]
  · have hdue := s.linked.due_sublist_due_full (m := s.memory) (s.appliedAt t p)
      (s.linked.passPlan s.memory pass)
    rw [(applied_applyPass he hc hpass false).calls, (applied_applyPass he hc hpass true).calls,
      List.map_append, List.map_append]
    apply List.Sublist.append
    · apply List.Sublist.map
      exact hdue.flatMap _
    · split
      · exact Work.outline_flushCalls_sublist hdue.subset
      · exact .refl _

end EffectState

namespace Host

variable {host : Host} {i : Nat} {s : EffectState}

/-- A commit answers as applying the whole pass would, and makes some of its device calls, in the
same order and with the same arguments; only the lights and the material that are sent may
differ. -/
theorem commit_sublist_reapply (hhost : host.Reachable) (hs : host.state? i = some s)
    (device : Nat) :
    (s.commit device).answer = (s.reapply device).answer ∧
      ((s.commit device).calls.map DeviceCall.outline).Sublist
        ((s.reapply device).calls.map DeviceCall.outline) := by
  have hlaid := hhost.laidOut
  rw [EffectState.commit, EffectState.reapply]
  cases s.active with
  | none => exact ⟨rfl, .refl _⟩
  | some p =>
    dsimp only
    cases hpass : s.passInUse p with
    | error error => exact ⟨rfl, .refl _⟩
    | ok found =>
      obtain ⟨t, pass⟩ := found
      dsimp only
      split
      · exact ⟨rfl, .refl _⟩
      · exact EffectState.applyPass_sublist (hlaid.proper hs) (hlaid.counter_lt hs)
          (EffectState.passInUse_eq_ok hpass).2

/-- An image with one pass of two states: the first is set to a number that may be written, the
second to a number of its own. -/
def halfFixed : Image :=
  { dimmer with
    techniques := [⟨none, [], [⟨none, [], [⟨0, 0, .words (numberDeclaration none) [0]⟩,
      ⟨1, 0, .words (numberDeclaration none) [7]⟩]⟩]⟩] }

/-- The pass was begun, and then the number was written. -/
def brightened : Host :=
  run {} [.create halfFixed [] none, .call 0 (.begin 0 {}), .call 0 (.beginPass 0 0),
    .call 0 brighten]

/-- The commit sets the state whose number was written, and the full application both. -/
theorem commit_sublist_reapply_brightened :
    ∃ s ∈ brightened.state? 0,
      (s.commit 0).calls.length = 1 ∧ (s.reapply 0).calls.length = 2 ∧
        (s.commit 0).answer = (s.reapply 0).answer ∧
        ((s.commit 0).calls.map DeviceCall.outline).Sublist
          ((s.reapply 0).calls.map DeviceCall.outline) := by
  obtain ⟨s, hs, hcommit, hreapply⟩ : ∃ s ∈ brightened.state? 0,
      (s.commit 0).calls.length = 1 ∧ (s.reapply 0).calls.length = 2 := by
    decide +kernel
  exact ⟨s, hs, hcommit, hreapply, commit_sublist_reapply ⟨_, rfl⟩ hs 0⟩

end Host

end ShaderEffect
