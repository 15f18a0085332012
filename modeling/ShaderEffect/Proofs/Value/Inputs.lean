import Mathlib.Data.List.Induction
import ShaderEffect.Proofs.Plan.Shape
import ShaderEffect.Proofs.Program.Written
import ShaderEffect.Proofs.Value.Grounded

/-!
# Inputs of programs

The bank of a program's inputs is as long as its table says, whatever the inputs are bound to, and
the registers of an input never reach over its end. Inputs may overlap, so a component holds what
the last input brought that spans it; this is shown one input at a time, from the last one on
(`LinkedEffect.getElem?_foldl_place`).
-/

namespace ShaderEffect

/-- Whether the registers of a constant span a component. -/
def Constant.spans (c : Constant) (k : Nat) : Bool := decide (c.index * 4 ≤ k ∧ k < c.componentEnd)

/-- The inputs that have registers in the bank: a parameter is bound to them, and they are no
samplers. -/
def BoundProgram.placed (p : BoundProgram) : List (Constant × Handle) :=
  p.inputs.filterMap fun (c, h) => if c.set = .sampler then none else h.map (c, ·)

namespace Program

/-- A constant that is no sampler ends inside the bank. -/
lemma componentEnd_le_inputLength {p : Program} {c : Constant} (hc : c ∈ p.inputs.constants)
    (hset : c.set ≠ .sampler) : c.componentEnd ≤ p.inputLength := by
  refine (foldl_max_le_iff.1 (Nat.le_refl p.inputLength)).2 _ (List.mem_map_of_mem ?_)
  exact List.mem_filter.2 ⟨hc, by simpa using hset⟩

end Program

namespace LinkedEffect

variable (e : LinkedEffect) (m : Memory)

/-- Put the registers of one input that has some in their place. -/
def place (bank : Array Single) (input : Constant × Handle) : Array Single :=
  Slice.overwriteFrom bank (input.1.index * 4) (e.floatRegisters m input.2 input.1)

/-- Inputs without registers change nothing. -/
lemma inputBank_eq_foldl_place (p : BoundProgram) : e.inputBank m p =
    p.placed.foldl (e.place m) (Array.replicate p.program.inputLength .zero) := by
  rw [inputBank, BoundProgram.placed, List.foldl_filterMap]
  congr 1
  funext bank input
  obtain ⟨c, h⟩ := input
  cases h with
  | none => simp [placeInput]
  | some h => by_cases hset : c.set = .sampler <;> simp [placeInput, place, hset]

@[simp] lemma size_foldl_place (inputs : List (Constant × Handle)) (bank : Array Single) :
    (inputs.foldl (e.place m) bank).size = bank.size := by
  induction inputs generalizing bank with
  | nil => rfl
  | cons input rest ih => rw [List.foldl_cons, ih, place, Slice.size_overwriteFrom]

lemma getElem?_place (bank : Array Single) (input : Constant × Handle) {k : Nat}
    (hk : k < bank.size) : (e.place m bank input)[k]? =
      if input.1.spans k then (e.floatRegisters m input.2 input.1)[k - input.1.index * 4]?
      else bank[k]? := by
  have hlength := e.length_floatRegisters (m := m) input.2 input.1
  have hend : input.1.componentEnd = input.1.index * 4 + input.1.count * 4 := Nat.add_mul ..
  simp only [place, Constant.spans, decide_eq_true_eq]
  split
  case isTrue hspans =>
    obtain ⟨i, rfl⟩ := Nat.exists_eq_add_of_le hspans.1
    rw [Nat.add_sub_cancel_left]
    exact Slice.getElem?_overwriteFrom _ _ _ _ (by omega) hk
  case isFalse hspans =>
    by_cases hlow : k < input.1.index * 4
    · exact Slice.getElem?_overwriteFrom_of_lt _ _ _ _ hlow
    · exact Slice.getElem?_overwriteFrom_of_le _ _ _ _ (by omega)

/-- A component holds what the last input brought that spans it. -/
lemma getElem?_foldl_place (inputs : List (Constant × Handle)) (bank : Array Single) {k : Nat}
    (hk : k < bank.size) : (inputs.foldl (e.place m) bank)[k]? =
      match (inputs.filter (·.1.spans k)).getLast? with
      | some (c, h) => (e.floatRegisters m h c)[k - c.index * 4]?
      | none => bank[k]? := by
  induction inputs using List.reverseRecOn with
  | nil => rfl
  | append_singleton inputs input ih =>
    rw [List.foldl_append, List.foldl_cons, List.foldl_nil, getElem?_place e m _ _ (by simpa),
      List.filter_append, ih]
    by_cases hspans : input.1.spans k <;> simp [hspans]

/-- The bank of a program is filled exactly, whatever the inputs of the table are bound to: it has
the length that the table tells, no register of an input that is no sampler lies outside, and a
component holds its value of the last input that spans it, or zero if there is none. -/
theorem inputBank_filled {p : BoundProgram}
    (hbound : p.inputs.map Prod.fst = p.program.inputs.constants) :
    (e.inputBank m p).size = p.program.inputLength ∧
      (∀ c h, (c, h) ∈ p.inputs → c.set ≠ .sampler → ∀ handle,
        c.index * 4 + (e.floatRegisters m handle c).length ≤ p.program.inputLength) ∧
      ∀ k < p.program.inputLength, (e.inputBank m p)[k]? =
        match (p.placed.filter (·.1.spans k)).getLast? with
        | some (c, h) => (e.floatRegisters m h c)[k - c.index * 4]?
        | none => some .zero := by
  rw [inputBank_eq_foldl_place]
  refine ⟨by simp, fun c h hinput hset handle => ?_, fun k hk => ?_⟩
  · have hc : c ∈ p.program.inputs.constants := hbound ▸ List.mem_map_of_mem hinput
    rw [length_floatRegisters, ← Nat.add_mul]
    exact Program.componentEnd_le_inputLength hc hset
  · rw [getElem?_foldl_place e m _ _ (by simpa), Array.getElem?_replicate, if_pos hk]

/-- A program whose inputs overlap. One is no parameter of the lantern, and one is a sampler. -/
def overlapping : WrittenProgram where
  literals := []
  inputs := [.float4 "lantern" 0 2, .float4 "lantern.tints" 1 1, .float4 "dark" 1 2,
    .ofSet "lantern" .sampler 3 1]
  instructions := [⟨.mov, 1, [⟨.input, 0, none, false⟩], ⟨.output, 0, none, false⟩⟩]

/-- The tints replace the second register of the lantern, and nothing fills the third one. -/
theorem inputBank_filled_overlapping :
    ∃ p s, Program.decode overlapping.encode.toArray = .ok p ∧ lantern.state? = some s ∧
      (s.linked.boundProgram p).inputs.map Prod.fst = p.inputs.constants ∧
      (s.linked.inputBank s.memory (s.linked.boundProgram p)).size = 12 ∧
      (s.linked.inputBank s.memory (s.linked.boundProgram p))[5]? = some ⟨14⟩ ∧
      (s.linked.inputBank s.memory (s.linked.boundProgram p))[8]? = some .zero := by
  have hwritable : overlapping.Writable := ⟨by decide, by decide, by decide +kernel⟩
  have hread := (WrittenProgram.answersIf_decode hwritable).eq_ok
    ⟨by decide, by decide, Program.check_eq_ok_iff.1 rfl⟩
  have hlength : overlapping.program.inputLength = 12 := by decide
  obtain ⟨s, hs, hlast, hnone⟩ : ∃ s ∈ lantern.state?,
      ((((s.linked.boundProgram overlapping.program).placed.filter (·.1.spans 5)).getLast?.bind
        fun input => (s.linked.floatRegisters s.memory input.2 input.1)[5 - input.1.index * 4]?) =
          some ⟨14⟩) ∧
      ((s.linked.boundProgram overlapping.program).placed.filter
        (·.1.spans 8)).getLast? = none := by
    decide +kernel
  have hinputs : (s.linked.boundProgram overlapping.program).inputs.map Prod.fst =
      overlapping.program.inputs.constants := List.map_map.trans (List.map_id _)
  obtain ⟨hsize, -, hbank⟩ := s.linked.inputBank_filled s.memory hinputs
  refine ⟨_, s, hread, hs, hinputs, hsize.trans hlength, ?_, ?_⟩
  · obtain ⟨⟨c, h⟩, hlast, hvalue⟩ := Option.bind_eq_some_iff.1 hlast
    rw [hbank 5 (hlength.symm ▸ by decide), hlast]
    exact hvalue
  · rw [hbank 8 (hlength.symm ▸ by decide), hnone]

end LinkedEffect

end ShaderEffect
