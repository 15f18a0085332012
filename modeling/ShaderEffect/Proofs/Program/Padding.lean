import Mathlib.Tactic.Common
import ShaderEffect.Program.Run

/-!
# Inputs that are left out

A read past the end of the inputs gives zero, so inputs that are left out at the end count as zeros
(`Program.evaluate_append_zeros`). A component that is left out may stand in an index register and
decide where another operand reads, and what was read comes back through the output and scratch
banks; what carries the proof is that every step of a run commutes with putting zeros after the
inputs (`Registers.padded`).
-/

namespace ShaderEffect

/-! ### Reading and writing -/

namespace Registers

/-- The banks with further zeros after the inputs. -/
def padded (regs : Registers) (n : Nat) : Registers :=
  { regs with inputs := regs.inputs ++ Array.replicate n .zero }

variable (regs : Registers) (n : Nat)

/-- A component past the inputs is zero, whether a zero stands there or nothing does. -/
@[simp] lemma load_padded (bank : Bank) (i : Nat) :
    (regs.padded n).load bank i = regs.load bank i := by
  cases bank with
  | literal | output | temp => rfl
  | input =>
    simp only [load, load?, padded, Array.getElem?_append]
    split
    case isTrue => rfl
    case isFalse hi =>
      rw [Array.getElem?_eq_none (Nat.not_lt.1 hi), Array.getElem?_replicate]
      split <;> rfl

/-- An index register that is left out counts as zero, so operands start where they did. -/
@[simp] lemma address?_padded (operand : Operand) :
    (regs.padded n).address? operand = regs.address? operand := by
  simp only [address?, load_padded]

@[simp] lemma read_padded (operand : Operand) (lane : Nat) :
    (regs.padded n).read operand lane = regs.read operand lane := by
  simp only [read, address?_padded, load_padded]

/-- No instruction writes inputs. -/
lemma write_padded (operand : Operand) (lane : Nat) (value : Double) :
    (regs.padded n).write operand lane value = (regs.write operand lane value).padded n := by
  simp only [write]
  cases operand.bank <;> rfl

end Registers

/-! ### Running -/

namespace Instruction

variable (ins : Instruction) (regs : Registers) (n : Nat)

@[simp] lemma products_padded : ins.products (regs.padded n) = ins.products regs := by
  simp only [products, Registers.read_padded]

@[simp] lemma laneValue_padded (lane : Nat) :
    ins.laneValue (regs.padded n) lane = ins.laneValue regs lane := by
  simp only [laneValue, Registers.read_padded]

lemma run_padded : ins.run (regs.padded n) = (ins.run regs).padded n := by
  rw [run, run]
  split
  · rw [products_padded, Registers.write_padded]
  · -- a lane sees what earlier lanes wrote, which is the same in both runs
    refine List.foldl_hom (Registers.padded · n) fun regs lane => ?_
    rw [laneValue_padded, Registers.write_padded]

end Instruction

namespace Program

lemma foldl_run_padded (instructions : List Instruction) (regs : Registers) (n : Nat) :
    instructions.foldl (fun regs ins => ins.run regs) (regs.padded n) =
      (instructions.foldl (fun regs ins => ins.run regs) regs).padded n :=
  List.foldl_hom (Registers.padded · n) fun regs ins => ins.run_padded regs n

/-- Zeros after the inputs change nothing: every operand starts where it did and reads what it did,
be its place known in advance or relative to an index register, so a run leaves the same outputs. In
particular, inputs that do not fill the bank may be filled up with zeros. -/
theorem evaluate_append_zeros (p : Program) (inputs outputs : Array Single) :
    (∀ n, p.evaluate (inputs ++ Array.replicate n .zero) outputs = p.evaluate inputs outputs) ∧
      p.evaluate (inputs.rightpad p.inputLength .zero) outputs = p.evaluate inputs outputs ∧
      ∀ (regs : Registers) (n : Nat) (operand : Operand) (lane : Nat),
        (regs.padded n).address? operand = regs.address? operand ∧
          (regs.padded n).read operand lane = regs.read operand lane := by
  have hzeros : ∀ n, p.evaluate (inputs ++ Array.replicate n .zero) outputs =
      p.evaluate inputs outputs := by
    intro n
    have hstart : p.start (inputs ++ Array.replicate n .zero) outputs =
        (p.start inputs outputs).padded n := rfl
    rw [evaluate, hstart, foldl_run_padded]
    rfl
  exact ⟨hzeros, hzeros _, fun regs n operand lane =>
    ⟨regs.address?_padded n operand, regs.read_padded n operand lane⟩⟩

/-- An index register past the inputs selects the first register. -/
example :
    let ins : Instruction := ⟨.mov, false, 1, [⟨.input, 0, some ⟨.input, 4⟩⟩], ⟨.output, 0, none⟩⟩
    (Program.mk .empty [] [ins]).evaluate #[⟨7⟩] #[.zero] = #[⟨7⟩] := by
  decide +kernel

end Program

end ShaderEffect
