import ShaderEffect.Proofs.Settled

/-!
# Plans

A plan says what applying states would do in a given memory, without doing it: which calls it makes
and which fields of lights and of the material it assigns, each together with the parameters whose
change makes it due, and where it fails. A plan does not depend on the mode; a mode decides what of
a plan is due (`LinkedEffect.due`).
-/

namespace ShaderEffect

/-- What a state does when it is applied. -/
inductive Action where
  | call (c : DeviceCall)
  | light (index op : UInt32) (words : List UInt32)
  | material (op : UInt32) (words : List UInt32)

/-- What happens while states are applied. -/
inductive Event where
  /-- Something to do when one of some parameters changed. -/
  | act (inputs : List Handle) (action : Action)
  /-- A state has no value. -/
  | fail (error : EvaluationError)

/-- What happens, in order, while states are applied. -/
abbrev Plan := List Event

/-! ### Actions -/

namespace Action

/-- The device calls of an action. -/
def calls : Action → List DeviceCall
  | .call c => [c]
  | .light .. | .material .. => []

end Action

namespace Work

/-- Assign the field that an action assigns. -/
def assign (w : Work) : Action → Work
  | .call _ => w
  | .light index op words => w.assignLight index op words
  | .material op words => w.assignMaterial op words

/-- Assign the fields that some actions assign, one after the other. -/
def assignAll (w : Work) (actions : List Action) : Work := actions.foldl assign w

/-- The same lights and material with another memory. -/
def withMemory (w : Work) (memory : Memory) : Work := { w with memory }

@[simp] lemma memory_withMemory (w : Work) (m : Memory) : (w.withMemory m).memory = m := rfl

@[simp] lemma withMemory_withMemory (w : Work) (m m' : Memory) :
    (w.withMemory m).withMemory m' = w.withMemory m' := rfl

@[simp] lemma withMemory_memory (w : Work) : w.withMemory w.memory = w := rfl

lemma assign_withMemory (w : Work) (m : Memory) (a : Action) :
    (w.withMemory m).assign a = (w.assign a).withMemory m := by
  cases a with
  | call c => rfl
  | light index op words =>
    simp only [assign, assignLight, withMemory]
    split <;> rfl
  | material op words => rfl

lemma assignAll_withMemory (w : Work) (m : Memory) (actions : List Action) :
    (w.withMemory m).assignAll actions = (w.assignAll actions).withMemory m := by
  induction actions generalizing w with
  | nil => rfl
  | cons a rest ih => rw [assignAll, List.foldl_cons, assign_withMemory]; exact ih _

lemma assignAll_append (w : Work) (actions others : List Action) :
    w.assignAll (actions ++ others) = (w.assignAll actions).assignAll others :=
  List.foldl_append

@[simp] lemma memory_assign (w : Work) (a : Action) : (w.assign a).memory = w.memory := by
  cases a with
  | call c => rfl
  | light index op words =>
    simp only [assign, assignLight]
    split <;> rfl
  | material op words => rfl

@[simp] lemma memory_assignAll (w : Work) (actions : List Action) :
    (w.assignAll actions).memory = w.memory := by
  induction actions generalizing w with
  | nil => rfl
  | cons a rest ih => exact (ih _).trans (memory_assign w a)

end Work

/-! ### Events -/

namespace Event

/-- The event is due as well when one of some more parameters changed. -/
def under (inputs : List Handle) : Event → Event
  | .act more action => .act (inputs ++ more) action
  | .fail error => .fail error

/-- The action of an event. -/
def action? : Event → Option Action
  | .act _ action => some action
  | .fail _ => none

@[simp] lemma action?_under (inputs : List Handle) (event : Event) :
    (event.under inputs).action? = event.action? := by
  cases event <;> rfl

end Event

namespace Plan

/-- The first failure of a plan. -/
def answer : Plan → Except EvaluationError Unit
  | [] => .ok ()
  | .act .. :: rest => answer rest
  | .fail error :: _ => .error error

/-- All actions of a plan, those after failures included. -/
def actions (plan : Plan) : List Action := plan.filterMap Event.action?

/-- One action after the other, each due when one of some parameters changed. -/
def ofActions (inputs : List Handle) (actions : List Action) : Plan := actions.map (.act inputs)

lemma answer_append (plan rest : Plan) :
    answer (plan ++ rest) = (do answer plan; answer rest) := by
  induction plan with
  | nil => rfl
  | cons event plan ih => cases event with
    | act inputs action => exact ih
    | fail error => rfl

lemma answer_append_of_ok {plan : Plan} (h : answer plan = .ok ()) (rest : Plan) :
    answer (plan ++ rest) = answer rest := by
  rw [answer_append, h]
  rfl

lemma answer_append_of_error {plan : Plan} {error : EvaluationError}
    (h : answer plan = .error error) (rest : Plan) : answer (plan ++ rest) = .error error := by
  rw [answer_append, h]
  rfl

lemma answer_flatMap {α : Type} {list : List α} {plan : α → Plan}
    (h : ∀ a ∈ list, answer (plan a) = .ok ()) : answer (list.flatMap plan) = .ok () := by
  induction list with
  | nil => rfl
  | cons a rest ih =>
    rw [List.flatMap_cons, answer_append_of_ok (h a List.mem_cons_self)]
    exact ih fun b hb => h b (List.mem_cons_of_mem _ hb)

@[simp] lemma answer_map_under (inputs : List Handle) (plan : Plan) :
    answer (plan.map (.under inputs)) = answer plan := by
  induction plan with
  | nil => rfl
  | cons event plan ih => cases event with
    | act more action => exact ih
    | fail error => rfl

@[simp] lemma answer_ofActions (inputs : List Handle) (actions : List Action) :
    answer (ofActions inputs actions) = .ok () := by
  induction actions with
  | nil => rfl
  | cons action rest ih => exact ih

@[simp] lemma actions_map_under (inputs : List Handle) (plan : Plan) :
    actions (plan.map (.under inputs)) = actions plan := by
  simp [actions, List.filterMap_map]

lemma actions_append (plan rest : Plan) : actions (plan ++ rest) = actions plan ++ actions rest :=
  List.filterMap_append

@[simp] lemma actions_ofActions (inputs : List Handle) (as : List Action) :
    actions (ofActions inputs as) = as := by
  induction as with
  | nil => rfl
  | cons a rest ih => exact congrArg _ ih

end Plan

/-! ### What is due -/

namespace LinkedEffect

variable (e : LinkedEffect) (m : Memory)

/-- What of a plan is due, up to the first failure. -/
def due (mode : Mode) : Plan → List Action
  | [] => []
  | .act inputs action :: rest =>
    if mode.full || e.anyDirty m inputs mode.since then action :: due mode rest else due mode rest
  | .fail _ :: _ => []

/-- The mode in which states are applied that are due as well when one of some parameters
changed. -/
def modeUnder (mode : Mode) (inputs : List Handle) : Mode :=
  { mode with full := mode.full || e.anyDirty m inputs mode.since }

lemma anyDirty_append (inputs more : List Handle) (since : Nat) :
    e.anyDirty m (inputs ++ more) since = (e.anyDirty m inputs since || e.anyDirty m more since) :=
  List.any_append

variable {e m}

lemma due_append_of_ok {mode : Mode} {plan : Plan} (h : plan.answer = .ok ()) (rest : Plan) :
    e.due m mode (plan ++ rest) = e.due m mode plan ++ e.due m mode rest := by
  induction plan with
  | nil => rfl
  | cons event plan ih => cases event with
    | act inputs action =>
      rw [List.cons_append, due, due, ih h]
      split <;> rfl
    | fail error => cases h

lemma due_append_of_error {mode : Mode} {plan : Plan} {error : EvaluationError}
    (h : plan.answer = .error error) (rest : Plan) :
    e.due m mode (plan ++ rest) = e.due m mode plan := by
  induction plan with
  | nil => cases h
  | cons event plan ih => cases event with
    | act inputs action => rw [List.cons_append, due, due, ih h]
    | fail error => rfl

@[simp] lemma due_map_under (mode : Mode) (inputs : List Handle) (plan : Plan) :
    e.due m mode (plan.map (.under inputs)) = e.due m (e.modeUnder m mode inputs) plan := by
  induction plan with
  | nil => rfl
  | cons event plan ih => cases event with
    | act more action =>
      rw [List.map_cons, Event.under, due, due, ih, anyDirty_append, ← Bool.or_assoc]
      rfl
    | fail error => rfl

lemma due_ofActions (mode : Mode) (inputs : List Handle) (actions : List Action) :
    e.due m mode (.ofActions inputs actions) =
      if (e.modeUnder m mode inputs).full then actions else [] := by
  induction actions with
  | nil => simp [Plan.ofActions, due]
  | cons action rest ih =>
    rw [Plan.ofActions, List.map_cons, due]
    rw [Plan.ofActions] at ih
    rw [ih, modeUnder]
    split <;> rfl

/-- In full mode everything is due. -/
lemma due_full {mode : Mode} (hfull : mode.full = true) {plan : Plan}
    (h : plan.answer = .ok ()) : e.due m mode plan = plan.actions := by
  induction plan with
  | nil => rfl
  | cons event plan ih => cases event with
    | act inputs action =>
      rw [due, hfull, Bool.true_or, if_pos rfl, ih h]
      rfl
    | fail error => cases h

lemma mem_actions_of_mem_due {mode : Mode} {plan : Plan} {a : Action}
    (h : a ∈ e.due m mode plan) : a ∈ plan.actions := by
  induction plan with
  | nil => exact h
  | cons event plan ih => cases event with
    | act inputs action =>
      rw [due] at h
      split at h
      · rcases List.mem_cons.1 h with rfl | h
        · exact List.mem_cons_self
        · exact List.mem_cons_of_mem _ (ih h)
      · exact List.mem_cons_of_mem _ (ih h)
    | fail error => cases h

end LinkedEffect

end ShaderEffect
