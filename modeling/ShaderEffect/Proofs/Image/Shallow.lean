import ShaderEffect.Proofs.Image.WellFormed

/-!
# Depth

Values may nest up to a depth that depends on where they stand. That no node of a value stands too
deep (`Node.Shallow`) is what its elements, members and states need too, and can be computed
(`Node.isShallow`).
-/

namespace ShaderEffect

variable {p : Place}

/-! ### Values -/

/-- No node of a value at a place stands too deep. -/
def Node.Shallow (p : Place) (n : Node) : Prop :=
  ∀ n' q, n.Contains p n' q → q.depth < Image.depthLimit

namespace Node.Shallow

variable {n : Node} {d : Declaration} {ns : List Node} {states : List (Assignment Node)}

lemma depth_lt (h : n.Shallow p) : p.depth < Image.depthLimit := h n p .self

lemma element (h : (Node.array d ns).Shallow p) : ∀ e ∈ ns, e.Shallow p :=
  fun _ he n' q hcontains => h n' q (.element he hcontains)

lemma member (h : (Node.struct d ns).Shallow p) : ∀ m ∈ ns, m.Shallow p.member :=
  fun _ hm n' q hcontains => h n' q (.member hm hcontains)

lemma state (h : (Node.sampler d states).Shallow p) : ∀ s ∈ states, s.value.Shallow p.state :=
  fun _ hs n' q hcontains => h n' q (.state hs hcontains)

end Node.Shallow

namespace Node

mutual

/-- Whether no node of a value at a place stands too deep. -/
def isShallow (p : Place) : Node → Bool
  | .array _ elements => p.depth < Image.depthLimit && areShallow p elements
  | .struct _ members => p.depth < Image.depthLimit && areShallow p.member members
  | .sampler _ states => p.depth < Image.depthLimit && statesAreShallow p.state states
  | .words .. | .object .. | .unsupported _ => p.depth < Image.depthLimit

/-- Whether no node of several values at a place stands too deep. -/
def areShallow (p : Place) : List Node → Bool
  | [] => true
  | n :: rest => n.isShallow p && areShallow p rest

/-- Whether no node of the values of states at a place stands too deep. -/
def statesAreShallow (p : Place) : List (Assignment Node) → Bool
  | [] => true
  | ⟨_, _, n⟩ :: rest => n.isShallow p && statesAreShallow p rest

end

mutual

lemma shallow_of_isShallow (p : Place) (n : Node) (h : n.isShallow p = true) : n.Shallow p := by
  match n with
  | .array d elements =>
    simp only [isShallow, Bool.and_eq_true, decide_eq_true_eq] at h
    rintro n' q (_ | ⟨he, hcontains⟩)
    · exact h.1
    · exact shallow_of_areShallow p elements h.2 _ he n' q hcontains
  | .struct d members =>
    simp only [isShallow, Bool.and_eq_true, decide_eq_true_eq] at h
    rintro n' q (_ | _ | ⟨hm, hcontains⟩)
    · exact h.1
    · exact shallow_of_areShallow p.member members h.2 _ hm n' q hcontains
  | .sampler d states =>
    simp only [isShallow, Bool.and_eq_true, decide_eq_true_eq] at h
    rintro n' q (_ | _ | _ | ⟨hs, hcontains⟩)
    · exact h.1
    · exact shallow_of_statesAreShallow p.state states h.2 _ hs n' q hcontains
  | .words .. | .object .. | .unsupported _ =>
    rintro n' q ⟨⟩
    exact of_decide_eq_true h

lemma shallow_of_areShallow (p : Place) (ns : List Node) (h : areShallow p ns = true) :
    ∀ n ∈ ns, n.Shallow p := by
  match ns with
  | [] => simp
  | n :: rest =>
    rw [areShallow, Bool.and_eq_true] at h
    exact List.forall_mem_cons.2
      ⟨shallow_of_isShallow p n h.1, shallow_of_areShallow p rest h.2⟩

lemma shallow_of_statesAreShallow (p : Place) (states : List (Assignment Node))
    (h : statesAreShallow p states = true) : ∀ s ∈ states, s.value.Shallow p := by
  match states with
  | [] => simp
  | ⟨_, _, n⟩ :: rest =>
    rw [statesAreShallow, Bool.and_eq_true] at h
    exact List.forall_mem_cons.2
      ⟨shallow_of_isShallow p n h.1, shallow_of_statesAreShallow p rest h.2⟩

end

end Node

/-! ### Records and images -/

/-- No node of a parameter stands too deep. -/
structure ParameterRecord.Shallow (r : ParameterRecord) : Prop where
  node : r.node.Shallow {}
  annotations : ∀ n ∈ r.annotations, n.Shallow {}

/-- No node of a pass stands too deep. -/
structure PassRecord.Shallow (p : PassRecord) : Prop where
  annotations : ∀ n ∈ p.annotations, n.Shallow {}
  states : ∀ s ∈ p.states, s.value.Shallow { inPass := true }

/-- No node of a technique stands too deep. -/
structure TechniqueRecord.Shallow (t : TechniqueRecord) : Prop where
  annotations : ∀ n ∈ t.annotations, n.Shallow {}
  passes : ∀ p ∈ t.passes, p.Shallow

namespace Image

/-- Whether no node of an image stands too deep. -/
def isShallow (im : Image) : Bool :=
  im.parameters.all (fun r => r.node.isShallow {} && Node.areShallow {} r.annotations) &&
    im.techniques.all fun t => Node.areShallow {} t.annotations && t.passes.all fun p =>
      Node.areShallow {} p.annotations && Node.statesAreShallow { inPass := true } p.states

lemma depth_lt_of_isShallow {im : Image} (h : im.isShallow = true) :
    ∀ n p, im.Contains n p → p.depth < depthLimit := by
  simp only [isShallow, Bool.and_eq_true, List.all_eq_true] at h
  intro n q hcontains
  cases hcontains with
  | parameter hr hn => exact Node.shallow_of_isShallow {} _ (h.1 _ hr).1 n q hn
  | parameterNote hr hnote hn =>
    exact Node.shallow_of_areShallow {} _ (h.1 _ hr).2 _ hnote n q hn
  | techniqueNote ht hnote hn =>
    exact Node.shallow_of_areShallow {} _ (h.2 _ ht).1 _ hnote n q hn
  | passNote ht hp hnote hn =>
    exact Node.shallow_of_areShallow {} _ ((h.2 _ ht).2 _ hp).1 _ hnote n q hn
  | passState ht hp hs hn =>
    exact Node.shallow_of_statesAreShallow _ _ ((h.2 _ ht).2 _ hp).2 _ hs n q hn

end Image

end ShaderEffect
