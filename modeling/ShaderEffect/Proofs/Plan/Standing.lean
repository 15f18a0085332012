import Mathlib.Data.List.Nodup
import Mathlib.Data.List.Pairwise
import ShaderEffect.Proofs.Plan.Cells

/-!
# Actions that stand

An action stands if the device and the fields are as if it had just been done. To do some actions of
a plan makes those stand, and leaves the others standing, as long as no two of them address the same
cell. If all actions of a plan stand, then to do them all again would change nothing that can be
asked for.

A plan that fails sends no fields. Those it assigned are owed then: they are sent as soon as a plan
succeeds that assigns them again.
-/

namespace ShaderEffect

namespace Device

/-- A device holds what a call sets. -/
def Shows (d : Device) (c : DeviceCall) : Prop :=
  ∀ key ∈ c.keys, d.query key = (({} : Device).apply c).query key

variable {d d' : Device} {c : DeviceCall} {calls : List DeviceCall}

lemma Shows.of_query_eq (h : d.Shows c) (hd : ∀ key ∈ c.keys, d'.query key = d.query key) :
    d'.Shows c := fun key hkey => (hd key hkey).trans (h key hkey)

/-- Calls leave what they do not touch. -/
lemma Shows.applyAll (h : d.Shows c) (hcalls : ∀ c' ∈ calls, ∀ key ∈ c.keys, key ∉ c'.keys) :
    (d.applyAll calls).Shows c :=
  h.of_query_eq fun key hkey =>
    query_applyAll_of_forall_notMem d fun c' hc' => hcalls c' hc' key hkey

/-- A call was made if it was one of some, and none other touches what it sets. -/
lemma shows_applyAll (hc : c ∈ calls)
    (hcalls : ∀ c' ∈ calls, ∀ key ∈ c.keys, key ∈ c'.keys → c' = c) :
    (d.applyAll calls).Shows c := by
  induction calls generalizing d with
  | nil => cases hc
  | cons first rest ih =>
    have hrest := fun c' hc' => hcalls c' (List.mem_cons_of_mem _ hc')
    rw [applyAll_cons]
    by_cases hmem : c ∈ rest
    · exact ih hmem hrest
    · obtain rfl : c = first := (List.mem_cons.1 hc).resolve_right hmem
      have hshows : (d.apply c).Shows c := fun key hkey => query_apply_congr _ _ hkey
      refine hshows.applyAll fun c' hc' key hkey hkey' => ?_
      exact hmem (hrest c' hc' key hkey hkey' ▸ hc')

end Device

/-! ### Standing -/

/-- Some actions stand: the device holds what their calls set, the fields are as they assign them,
and have been sent, unless they are owed. -/
structure Standing (d : Device) (f : Fields) (owed : List Cell) (standing : Action → Prop) :
    Prop where
  calls : ∀ c, standing (.call c) → d.Shows c
  fields : ∀ a, standing a → f.assign a = f
  sent : ∀ a, standing a → a.isCall = false → ∀ key ∈ a.keys, ∀ c, f.send? key = some c →
    d.Shows c ∨ ∃ cell ∈ owed, cell.sentWith = some key ∧ ∀ b, standing b → cell ∉ b.cells

/-- Some actions of a plan are due and some stand, and no two of them address the same cell. -/
structure Splits (all due : List Action) (standing : Action → Prop) : Prop where
  direct : ∀ a ∈ all, a.Direct
  due_mem : ∀ a ∈ due, a ∈ all
  standing_mem : ∀ a, standing a → a ∈ all
  apart : ∀ a ∈ due, ∀ b ∈ due, a = b ∨ a.cells.Disjoint b.cells
  standing_apart : ∀ a, standing a → ∀ b ∈ due, a.cells.Disjoint b.cells

/-- Calls of actions that address different cells set different states. -/
lemma notMem_keys_of_disjoint {a : Action} {c c' : DeviceCall}
    (h : (Action.call c).cells.Disjoint a.cells) (hc' : c' ∈ a.calls) {key : StateKey}
    (hkey : key ∈ c.keys) : key ∉ c'.keys := by
  intro hkey'
  cases a with
  | call c'' =>
    obtain rfl := List.mem_singleton.1 hc'
    exact h (List.mem_map_of_mem hkey) (List.mem_map_of_mem hkey')
  | light index op words | material op words => cases hc'

namespace Splits

variable {all due : List Action} {standing : Action → Prop} {w : Work}

/-- A plan of which everything is due. -/
lemma whole (hdirect : ∀ a ∈ all, a.Direct)
    (hall : ∀ a ∈ all, ∀ b ∈ all, a = b ∨ a.cells.Disjoint b.cells) :
    Splits all all fun _ => False :=
  ⟨hdirect, fun _ h => h, fun _ h => h.elim, hall, fun _ h => h.elim⟩

variable (h : Splits all due standing)
include h

/-- The calls that actions make at once set nothing that is sent from fields. -/
lemma notMem_keys_of_isAssigned {c : DeviceCall} (hc : c ∈ due.flatMap Action.calls)
    {key : StateKey} (hkey : key.isAssigned = true) : key ∉ c.keys := by
  intro hmem
  obtain ⟨a, ha, hc⟩ := List.mem_flatMap.1 hc
  cases a with
  | call c' =>
    obtain rfl := List.mem_singleton.1 hc
    rw [h.direct _ (h.due_mem _ ha) rfl key hmem] at hkey
    cases hkey
  | light index op words | material op words => cases hc

/-- A call of an action touches nothing that is sent in the end. -/
lemma notMem_keys_of_mem_flushCalls {c c' : DeviceCall} (hc : .call c ∈ all)
    (hc' : c' ∈ (w.restart.assignAll due).flushCalls) {key : StateKey} (hkey : key ∈ c.keys) :
    key ∉ c'.keys := by
  intro hkey'
  obtain ⟨a, -, ha, hcall⟩ := (w.exists_mem_flushCalls_assignAll due key).1 ⟨c', hc', hkey'⟩
  have hassigned := Action.isAssigned_of_mem_keys hcall ha
  rw [h.direct _ hc rfl key hkey] at hassigned
  cases hassigned

/-- Due calls are made. -/
lemma shows_of_due {c : DeviceCall} (hc : .call c ∈ due) (d : Device) :
    (d.applyAll (due.flatMap Action.calls)).Shows c := by
  refine Device.shows_applyAll (List.mem_flatMap.2 ⟨_, hc, List.mem_singleton.2 rfl⟩)
    fun c' hc' key hkey hkey' => ?_
  obtain ⟨a, ha, hc'⟩ := List.mem_flatMap.1 hc'
  rcases h.apart _ hc a ha with rfl | hdisjoint
  · exact List.mem_singleton.1 hc'
  · exact absurd hkey' (notMem_keys_of_disjoint hdisjoint hc' hkey)

/-- Standing calls are not undone. -/
lemma shows_of_standing {c : DeviceCall} (hc : standing (.call c)) {d : Device} (hd : d.Shows c) :
    (d.applyAll (due.flatMap Action.calls)).Shows c := by
  refine hd.applyAll fun c' hc' key hkey => ?_
  obtain ⟨a, ha, hc'⟩ := List.mem_flatMap.1 hc'
  exact notMem_keys_of_disjoint (h.standing_apart _ hc a ha) hc' hkey

/-- Fields that stand are not assigned. -/
lemma assign_of_standing {a : Action} (ha : standing a) {f : Fields} (hf : f.assign a = f) :
    (f.assignAll due).assign a = f.assignAll due := by
  rw [← f.assignAll_assign a fun b hb => .inr (h.standing_apart a ha b hb), hf]

/-- Fields that are due are assigned. -/
lemma assign_of_due {a : Action} (ha : a ∈ due) (f : Fields) :
    (f.assignAll due).assign a = f.assignAll due := by
  obtain ⟨before, after, rfl⟩ := List.append_of_mem ha
  have happend : f.assignAll (before ++ a :: after) =
      ((f.assignAll before).assign a).assignAll after := by
    simp only [Fields.assignAll, List.foldl_append, List.foldl_cons]
  have hafter := fun b hb => h.apart a ha b (List.mem_append_right _ (List.mem_cons_of_mem _ hb))
  rw [happend, ← Fields.assignAll_assign _ a hafter, Fields.assign_assign _ (.refl a)]

end Splits

namespace Standing

variable {d : Device} {f : Fields} {owed : List Cell} {all due : List Action}
  {standing standing' : Action → Prop} {w : Work}

/-- No actions always stand. -/
lemma none (d : Device) (f : Fields) (owed : List Cell) : Standing d f owed fun _ => False :=
  ⟨fun _ h => h.elim, fun _ h => h.elim, fun _ h => h.elim⟩

lemma mono (h : Standing d f owed standing) (hle : ∀ a, standing' a → standing a) :
    Standing d f owed standing' where
  calls c hc := h.calls c (hle _ hc)
  fields a ha := h.fields a (hle a ha)
  sent a ha hcall key hkey c hc := (h.sent a (hle a ha) hcall key hkey c hc).imp_right
    fun ⟨cell, hcell, hsent, hnot⟩ => ⟨cell, hcell, hsent, fun b hb => hnot b (hle b hb)⟩

/-- After a plan failed, what stood and was not due still stands, if the fields that were assigned
are owed. -/
theorem fail (h : Standing d f owed standing) (hsplits : Splits all due standing)
    (howed : ∀ a ∈ due, ∀ cell ∈ a.cells, cell.sentWith.isSome → cell ∈ owed) :
    Standing (d.applyAll (due.flatMap Action.calls)) (f.assignAll due) owed standing where
  calls c hc := hsplits.shows_of_standing hc (h.calls c hc)
  fields a ha := hsplits.assign_of_standing ha (h.fields a ha)
  sent a ha hcall key hkey c hc := by
    by_cases htouched : ∃ b ∈ due, b.isCall = false ∧ key ∈ b.keys
    · -- Another field of the same state was assigned, and is not sent now.
      obtain ⟨b, hb, hbcall, hbkey⟩ := htouched
      obtain ⟨cell, hcell, hsent⟩ := Action.exists_cell_of_mem_keys hbcall hbkey
      refine .inr ⟨cell, howed b hb cell hcell (by simp [hsent]), hsent, fun b' hb' hmem => ?_⟩
      exact hsplits.standing_apart b' hb' b hb hmem hcell
    · have huntouched : ∀ b ∈ due, b.isCall = false → key ∉ b.keys :=
        fun b hb hbcall hbkey => htouched ⟨b, hb, hbcall, hbkey⟩
      rw [f.send?_assignAll_of_forall_notMem huntouched] at hc
      refine (h.sent a ha hcall key hkey c hc).imp_left fun hshows => ?_
      refine hshows.applyAll fun c' hc' key' hkey' => ?_
      rw [Fields.keys_of_send? hc, List.mem_singleton] at hkey'
      obtain rfl := hkey'
      exact hsplits.notMem_keys_of_isAssigned hc' (Action.isAssigned_of_mem_keys hcall hkey)

/-- After a plan succeeded all its actions stand. -/
theorem succeed (h : Standing d w.fields owed standing) (hsplits : Splits all due standing)
    (hcover : ∀ a ∈ all, a ∈ due ∨ standing a) :
    Standing (d.applyAll (due.flatMap Action.calls ++ (w.restart.assignAll due).flushCalls))
      (w.fields.assignAll due) owed (· ∈ all) where
  calls c hc := by
    rw [Device.applyAll_append]
    have hshows : (d.applyAll (due.flatMap Action.calls)).Shows c := by
      rcases hcover _ hc with hdue | hstanding
      · exact hsplits.shows_of_due hdue d
      · exact hsplits.shows_of_standing hstanding (h.calls c hstanding)
    exact hshows.applyAll fun c' hc' key hkey => hsplits.notMem_keys_of_mem_flushCalls hc hc' hkey
  fields a ha := by
    rcases hcover a ha with hdue | hstanding
    · exact hsplits.assign_of_due hdue _
    · exact hsplits.assign_of_standing hstanding (h.fields a hstanding)
  sent a ha hcall key hkey c hc := by
    have hassigned := Action.isAssigned_of_mem_keys hcall hkey
    have hkeys := Fields.keys_of_send? hc
    by_cases htouched : ∃ b ∈ due, key ∈ b.keys ∧ b.isCall = false
    · -- The fields are sent, and nothing else touches the state.
      have hsent : ∀ c' ∈ (w.restart.assignAll due).flushCalls, key ∈ c'.keys → c' = c := by
        intro c' hc' hkey'
        have hsend := Work.send?_of_mem_flushCalls hc' hkey'
        rw [Work.fields_assignAll] at hsend
        exact Option.some.inj (hsend.symm.trans hc)
      obtain ⟨c', hc', hkey'⟩ := (w.exists_mem_flushCalls_assignAll due key).2 htouched
      obtain rfl := hsent c' hc' hkey'
      refine .inl (Device.shows_applyAll (List.mem_append_right _ hc') fun c'' hc'' k hk hk' => ?_)
      rw [hkeys, List.mem_singleton] at hk
      subst hk
      rcases List.mem_append.1 hc'' with hc'' | hc''
      · exact absurd hk' (hsplits.notMem_keys_of_isAssigned hc'' hassigned)
      · exact hsent c'' hc'' hk'
    · have huntouched : ∀ b ∈ due, b.isCall = false → key ∉ b.keys :=
        fun b hb hbcall hbkey => htouched ⟨b, hb, hbkey, hbcall⟩
      have hstanding := (hcover a ha).resolve_left fun hdue => huntouched a hdue hcall hkey
      rw [Fields.send?_assignAll_of_forall_notMem _ huntouched] at hc
      rcases h.sent a hstanding hcall key hkey c hc with hshows | ⟨cell, hcell, hsent, hnot⟩
      · refine .inl (hshows.applyAll fun c' hc' k hk hk' => ?_)
        rw [hkeys, List.mem_singleton] at hk
        subst hk
        rcases List.mem_append.1 hc' with hc' | hc'
        · exact hsplits.notMem_keys_of_isAssigned hc' hassigned hk'
        · exact htouched ((w.exists_mem_flushCalls_assignAll due k).1 ⟨c', hc', hk'⟩)
      · refine .inr ⟨cell, hcell, hsent, fun b hb hmem => ?_⟩
        rcases hcover b hb with hdue | hstanding
        · obtain ⟨hbcall, hbkey⟩ := Action.mem_keys_of_sentWith hmem hsent
          exact huntouched b hdue hbcall hbkey
        · exact hnot b hstanding hmem

/-- To do what is due is to do everything, if the rest stands and nothing is owed that is not
assigned. -/
theorem query_eq (h : Standing d w.fields owed standing) (hsplits : Splits all due standing)
    (hcover : ∀ a ∈ all, a ∈ due ∨ standing a)
    (hall : ∀ a ∈ all, ∀ b ∈ all, a = b ∨ a.cells.Disjoint b.cells)
    (howed : ∀ cell ∈ owed, ∃ a ∈ all, cell ∈ a.cells) (key : StateKey) :
    (d.applyAll (due.flatMap Action.calls ++ (w.restart.assignAll due).flushCalls)).query key =
      (d.applyAll
        (all.flatMap Action.calls ++ (w.restart.assignAll all).flushCalls)).query key := by
  have hdone := h.succeed hsplits hcover
  have hfull := (Standing.none d w.fields owed).succeed (Splits.whole hsplits.direct hall)
    fun a ha => .inl ha
  -- All actions are done in the fields that either leaves, and the order does not matter.
  have hfields : w.fields.assignAll due = w.fields.assignAll all := by
    calc w.fields.assignAll due = (w.fields.assignAll due).assignAll all :=
          (Fields.assignAll_eq_self hdone.fields).symm
      _ = (w.fields.assignAll all).assignAll due :=
          w.fields.assignAll_assignAll fun a ha b hb => hall a (hsplits.due_mem a ha) b hb
      _ = w.fields.assignAll all :=
          Fields.assignAll_eq_self fun a ha => hfull.fields a (hsplits.due_mem a ha)
  by_cases haddressed : ∃ a ∈ all, key ∈ a.keys
  · obtain ⟨a, ha, hkey⟩ := haddressed
    have hshows : ∃ c : DeviceCall, key ∈ c.keys ∧
        (d.applyAll (due.flatMap Action.calls ++ (w.restart.assignAll due).flushCalls)).Shows c ∧
        (d.applyAll
          (all.flatMap Action.calls ++ (w.restart.assignAll all).flushCalls)).Shows c := by
      cases hcall : a.isCall with
      | true => cases a with
        | call c => exact ⟨c, hkey, hdone.calls c ha, hfull.calls c ha⟩
        | light index op words | material op words => cases hcall
      | false =>
        have hnotOwed : ¬∃ cell ∈ owed, cell.sentWith = some key ∧ ∀ b ∈ all, cell ∉ b.cells := by
          rintro ⟨cell, hcell, -, hnot⟩
          obtain ⟨b, hb, hmem⟩ := howed cell hcell
          exact hnot b hb hmem
        obtain ⟨c, hc⟩ := (w.fields.assignAll due).exists_send? hcall hkey
        refine ⟨c, by simp [Fields.keys_of_send? hc], ?_, ?_⟩
        · exact (hdone.sent a ha hcall key hkey c hc).resolve_right hnotOwed
        · exact (hfull.sent a ha hcall key hkey c (hfields ▸ hc)).resolve_right hnotOwed
    obtain ⟨c, hc, hdone, hfull⟩ := hshows
    rw [hdone key hc, hfull key hc]
  · have huntouched : ∀ actions : List Action, (∀ a ∈ actions, a ∈ all) →
        (d.applyAll (actions.flatMap Action.calls ++
          (w.restart.assignAll actions).flushCalls)).query key = d.query key := by
      refine fun actions hactions => Device.query_applyAll_of_forall_notMem d fun c hc hkey => ?_
      have hflushed : c ∈ actions.flatMap Action.calls ++
          if True then (w.restart.assignAll actions).flushCalls else [] := by rwa [if_pos trivial]
      obtain ⟨a, ha, hkey⟩ := w.exists_mem_of_mem_calls hflushed hkey
      exact haddressed ⟨a, hactions a ha, hkey⟩
    rw [huntouched due hsplits.due_mem, huntouched all fun _ h => h]

end Standing

/-! ### Plans -/

/-- What an event sets. -/
def Event.cells : Event → List Cell
  | .act _ action => action.cells
  | .fail _ => []

namespace Plan

/-- All that a plan sets, due or not. -/
def cells (plan : Plan) : List Cell := plan.flatMap Event.cells

/-- A plan that addresses nothing twice. -/
def Distinct (plan : Plan) : Prop := plan.cells.Nodup

instance (plan : Plan) : Decidable plan.Distinct := inferInstanceAs (Decidable (List.Nodup _))

lemma mem_actions {plan : Plan} {a : Action} :
    a ∈ plan.actions ↔ ∃ inputs, .act inputs a ∈ plan := by
  rw [actions, List.mem_filterMap]
  constructor
  · rintro ⟨event, hevent, ha⟩
    cases event with
    | act inputs action =>
      cases ha
      exact ⟨inputs, hevent⟩
    | fail error => cases ha
  · rintro ⟨inputs, hmem⟩
    exact ⟨_, hmem, rfl⟩

lemma mem_cells {plan : Plan} {cell : Cell} :
    cell ∈ plan.cells ↔ ∃ a ∈ plan.actions, cell ∈ a.cells := by
  rw [cells, List.mem_flatMap]
  constructor
  · rintro ⟨event, hevent, hcell⟩
    cases event with
    | act inputs action => exact ⟨action, mem_actions.2 ⟨inputs, hevent⟩, hcell⟩
    | fail error => cases hcell
  · rintro ⟨a, ha, hcell⟩
    obtain ⟨inputs, hmem⟩ := mem_actions.1 ha
    exact ⟨_, hmem, hcell⟩

namespace Distinct

variable {plan : Plan} (h : plan.Distinct)
include h

/-- Different events of a plan set different cells. -/
lemma disjoint {event event' : Event} (hevent : event ∈ plan) (hevent' : event' ∈ plan)
    (hne : event ≠ event') : event.cells.Disjoint event'.cells := by
  have hpairwise := (List.nodup_flatMap.1 h).2
  have hsymm : Std.Symm (Function.onFun List.Disjoint Event.cells) := ⟨fun _ _ h _ ha hb => h hb ha⟩
  exact hpairwise.forall hevent hevent' hne

lemma eq_or_disjoint {a b : Action} (ha : a ∈ plan.actions) (hb : b ∈ plan.actions) :
    a = b ∨ a.cells.Disjoint b.cells := by
  obtain ⟨inputs, ha⟩ := mem_actions.1 ha
  obtain ⟨inputs', hb⟩ := mem_actions.1 hb
  by_cases heq : Event.act inputs a = Event.act inputs' b
  · exact .inl (Event.act.inj heq).2
  · exact .inr (h.disjoint ha hb heq)

end Distinct

end Plan

namespace LinkedEffect

variable {e : LinkedEffect} {m : Memory} {mode : Mode} {plan : Plan}

/-- What of a plan is not due. -/
def NotDue (e : LinkedEffect) (m : Memory) (mode : Mode) (plan : Plan) (a : Action) : Prop :=
  ∃ inputs, .act inputs a ∈ plan ∧ (mode.full || e.anyDirty m inputs mode.since) = false

lemma exists_of_mem_due {a : Action} (ha : a ∈ e.due m mode plan) :
    ∃ inputs, .act inputs a ∈ plan ∧ (mode.full || e.anyDirty m inputs mode.since) = true := by
  induction plan with
  | nil => cases ha
  | cons event plan ih =>
    have hrest : a ∈ e.due m mode plan → ∃ inputs, .act inputs a ∈ event :: plan ∧
        (mode.full || e.anyDirty m inputs mode.since) = true := fun ha => by
      obtain ⟨inputs, hmem, hdirty⟩ := ih ha
      exact ⟨inputs, List.mem_cons_of_mem _ hmem, hdirty⟩
    cases event with
    | fail error => cases ha
    | act inputs action =>
      rw [due] at ha
      split at ha
      · rename_i hdirty
        rcases List.mem_cons.1 ha with rfl | ha
        · exact ⟨inputs, List.mem_cons_self, hdirty⟩
        · exact hrest ha
      · exact hrest ha

/-- Unless a plan fails, each of its actions is due or not. -/
lemma mem_due_or_notDue (hanswer : plan.answer = .ok ()) {a : Action} (ha : a ∈ plan.actions) :
    a ∈ e.due m mode plan ∨ e.NotDue m mode plan a := by
  induction plan with
  | nil => cases ha
  | cons event plan ih =>
    cases event with
    | fail error => cases hanswer
    | act inputs action =>
      rw [due]
      rcases List.mem_cons.1 ha with rfl | ha
      · by_cases hdirty : (mode.full || e.anyDirty m inputs mode.since) = true
        · exact .inl (by rw [if_pos hdirty]; exact List.mem_cons_self)
        · exact .inr ⟨inputs, List.mem_cons_self, Bool.eq_false_iff.2 hdirty⟩
      · obtain hdue | ⟨inputs', hmem, hclean⟩ := ih hanswer ha
        · left
          split
          · exact List.mem_cons_of_mem _ hdue
          · exact hdue
        · exact .inr ⟨inputs', List.mem_cons_of_mem _ hmem, hclean⟩

/-- What is due of a plan that addresses nothing twice, and what is not. -/
lemma splits_due (hregular : e.Regular plan) (hdistinct : plan.Distinct) :
    Splits plan.actions (e.due m mode plan) (e.NotDue m mode plan) where
  direct a ha := by
    obtain ⟨inputs, hmem⟩ := Plan.mem_actions.1 ha
    exact (hregular _ hmem).2
  due_mem _ := mem_actions_of_mem_due
  standing_mem _ := fun ⟨inputs, hmem, _⟩ => Plan.mem_actions.2 ⟨inputs, hmem⟩
  apart a ha b hb :=
    hdistinct.eq_or_disjoint (mem_actions_of_mem_due ha) (mem_actions_of_mem_due hb)
  standing_apart a ha b hb := by
    obtain ⟨inputs, hmem, hclean⟩ := ha
    obtain ⟨inputs', hmem', hdirty⟩ := exists_of_mem_due hb
    refine hdistinct.disjoint hmem hmem' fun heq => ?_
    rw [(Event.act.inj heq).1, hdirty] at hclean
    cases hclean

end LinkedEffect

end ShaderEffect
