import Mathlib.Data.List.Forall2
import ShaderEffect.Proofs.Plan.Build
import ShaderEffect.Proofs.Program.Strict
import ShaderEffect.Proofs.Value.Grounded
import ShaderEffect.Shader.Encode

/-!
# Where programs leave their results

An instruction does nothing but write lanes of its output (`Instruction.run_induction`), so the
components of the output bank that a run may change are known from the instructions alone: they are
in the written registers, which the size of the bank covers. A shader that brings the results of its
program to the device therefore uploads every written register, in ascending order, and nothing else
(`Program.evaluate_uploads`).
-/

namespace ShaderEffect

/-! ### Written registers -/

namespace Program

variable {r x : Nat} {xs : List Nat}

@[simp] lemma mem_insertRegister : x ∈ insertRegister r xs ↔ x = r ∨ x ∈ xs := by
  induction xs with
  | nil => simp [insertRegister]
  | cons y ys ih =>
    rw [insertRegister]
    split_ifs with hlt heq
    · exact List.mem_cons
    · simp [heq]
    · rw [List.mem_cons, ih, List.mem_cons, or_left_comm]

lemma pairwise_insertRegister (h : xs.Pairwise (· < ·)) :
    (insertRegister r xs).Pairwise (· < ·) := by
  induction xs with
  | nil => exact List.pairwise_singleton _ _
  | cons y ys ih =>
    obtain ⟨hy, hys⟩ := List.pairwise_cons.1 h
    rw [insertRegister]
    split_ifs with hlt heq
    · refine List.pairwise_cons.2 ⟨List.forall_mem_cons.2 ⟨hlt, fun x hx => ?_⟩, h⟩
      exact Nat.lt_trans hlt (hy x hx)
    · exact h
    · refine List.pairwise_cons.2 ⟨fun x hx => ?_, ih hys⟩
      obtain rfl | hx := mem_insertRegister.1 hx
      · omega
      · exact hy x hx

lemma mem_foldr_insertRegister {rs : List Nat} : x ∈ rs.foldr insertRegister [] ↔ x ∈ rs := by
  induction rs with
  | nil => rfl
  | cons r rs ih => rw [List.foldr_cons, mem_insertRegister, ih, List.mem_cons]

variable (p : Program)

lemma pairwise_writtenRegisters : p.writtenRegisters.Pairwise (· < ·) := by
  rw [writtenRegisters]
  generalize List.flatMap _ _ = rs
  induction rs with
  | nil => exact .nil
  | cons r rs ih => exact pairwise_insertRegister ih

end Program

lemma Instruction.mem_outputRegisters {ins : Instruction} {r : Nat} (hpos : 0 < ins.outputLanes) :
    r ∈ ins.outputRegisters ↔ ∃ lane < ins.outputLanes, (ins.output.offset + lane) / 4 = r := by
  simp only [outputRegisters, List.mem_range'_1]
  constructor
  · rintro ⟨hfirst, hlast⟩
    -- the first lane in the register, which is lane zero unless the register starts later
    refine ⟨4 * r - ins.output.offset, ?_, ?_⟩ <;> omega
  · rintro ⟨lane, hlane, rfl⟩
    omega

lemma Instruction.WellFormed.outputLanes_pos {ins : Instruction} (h : ins.WellFormed) :
    0 < ins.outputLanes := by
  rw [outputLanes]
  split
  · exact Nat.one_pos
  · exact h.components_pos

namespace Program

variable {p : Program} {r i : Nat}

/-- A register is written if some instruction writes a component of it. -/
lemma Valid.mem_writtenRegisters (h : p.Valid) :
    r ∈ p.writtenRegisters ↔ ∃ ins ∈ p.instructions, ins.output.bank = .output ∧
      ∃ lane < ins.outputLanes, (ins.output.offset + lane) / 4 = r := by
  simp only [writtenRegisters, mem_foldr_insertRegister, List.mem_flatMap, List.mem_filter,
    beq_iff_eq, and_assoc]
  refine exists_congr fun ins => and_congr_right fun hins => and_congr_right fun _ => ?_
  exact Instruction.mem_outputRegisters (h.wellFormed ins hins).outputLanes_pos

/-- A component that some instruction writes is in the output bank. -/
lemma lt_outputLength {ins : Instruction} (hins : ins ∈ p.instructions)
    (hbank : ins.output.bank = .output) {lane : Nat} (hlane : lane < ins.outputLanes) :
    ins.output.offset + lane < p.outputLength := by
  have hstretch : (Bank.output, ins.output.offset + ins.outputLanes) ∈ ins.stretches :=
    List.mem_append_right _ (List.mem_singleton.2 (by rw [hbank]))
  have hend := p.le_bankEnd hins hstretch
  have hlength := p.bankEnd_le_outputLength
  omega

/-- The output bank is made of whole registers, so it covers all of a written one. -/
lemma Valid.writtenRegister_le (h : p.Valid) (hr : r ∈ p.writtenRegisters) :
    4 * r + 4 ≤ p.outputLength := by
  obtain ⟨ins, hins, hbank, lane, hlane, rfl⟩ := h.mem_writtenRegisters.1 hr
  have hlt := lt_outputLength hins hbank hlane
  rw [outputLength] at hlt ⊢
  omega

/-- The writable banks are register files of 256 registers. -/
lemma Valid.outputLength_le (h : p.Valid) : p.outputLength ≤ componentLimit := by
  have hend : p.bankEnd .output ≤ componentLimit :=
    (p.bankEnd_le_iff _ _).2 fun ins hins stop hstop => h.inside ins hins _ _ hstop
  rw [componentLimit] at hend ⊢
  rw [outputLength]
  omega

end Program

/-! ### Running -/

/-- What holds before an instruction and is kept by writing lanes of its output holds after it. -/
lemma Instruction.run_induction {ins : Instruction} {P : Registers → Prop} {regs : Registers}
    (hregs : P regs)
    (hwrite : ∀ regs lane value, lane < ins.outputLanes → P regs →
      P (regs.write ins.output lane value)) :
    P (ins.run regs) := by
  have hlanes : ins.outputLanes = if ins.opcode.isReduction then 1 else ins.components := rfl
  rw [run]
  split
  · next hreduction => exact hwrite _ _ _ (by simp [hlanes, hreduction]) hregs
  · next hreduction =>
    rw [if_neg hreduction] at hlanes
    have hall : ∀ lanes : List Nat, (∀ lane ∈ lanes, lane < ins.outputLanes) → ∀ regs, P regs →
        P (lanes.foldl (fun regs lane => regs.write ins.output lane (ins.laneValue regs lane))
          regs) := by
      intro lanes
      induction lanes with
      | nil => exact fun _ _ hregs => hregs
      | cons lane lanes ih =>
        intro hlt regs hregs
        obtain ⟨hlane, hrest⟩ := List.forall_mem_cons.1 hlt
        exact ih hrest _ (hwrite _ _ _ hlane hregs)
    exact hall _ (fun lane hlane => hlanes ▸ List.mem_range.1 hlane) _ hregs

lemma Registers.outputs_write {regs : Registers} {operand : Operand} {lane i : Nat} {value : Double}
    (h : operand.bank = .output → operand.offset + lane ≠ i) :
    (regs.write operand lane value).outputs[i]? = regs.outputs[i]? := by
  rw [write]
  cases hbank : operand.bank with
  | output => exact Array.getElem?_setIfInBounds_ne (h hbank)
  | temp | literal | input => rfl

namespace Program

variable {p : Program} {i : Nat}

/-- One instruction changes no component outside the written registers. -/
lemma Valid.outputs_run (h : p.Valid) {ins : Instruction} (hins : ins ∈ p.instructions)
    (hi : i / 4 ∉ p.writtenRegisters) (regs : Registers) :
    (ins.run regs).outputs[i]? = regs.outputs[i]? := by
  refine Instruction.run_induction (P := fun regs' => regs'.outputs[i]? = regs.outputs[i]?) rfl
    fun regs' lane value hlane hregs' => ?_
  refine (Registers.outputs_write fun hbank hplace => hi ?_).trans hregs'
  exact h.mem_writtenRegisters.2 ⟨ins, hins, hbank, lane, hlane, by rw [hplace]⟩

lemma Valid.getElem?_evaluate (h : p.Valid) (hi : i / 4 ∉ p.writtenRegisters)
    (inputs outputs : Array Single) : (p.evaluate inputs outputs)[i]? = outputs[i]? := by
  have hall : ∀ instructions : List Instruction, instructions ⊆ p.instructions →
      ∀ regs : Registers,
      (instructions.foldl (fun regs ins => ins.run regs) regs).outputs[i]? = regs.outputs[i]? := by
    intro instructions
    induction instructions with
    | nil => exact fun _ _ => rfl
    | cons ins rest ih =>
      intro hsub regs
      obtain ⟨hins, hrest⟩ := List.cons_subset.1 hsub
      exact (ih hrest _).trans (h.outputs_run hins hi regs)
  exact hall _ (List.Subset.refl _) _

lemma size_evaluate (p : Program) (inputs outputs : Array Single) :
    (p.evaluate inputs outputs).size = outputs.size := by
  have hall : ∀ (instructions : List Instruction) (regs : Registers),
      (instructions.foldl (fun regs ins => ins.run regs) regs).size .output =
        regs.size .output := by
    intro instructions
    induction instructions with
    | nil => exact fun _ => rfl
    | cons ins rest ih => exact fun regs => (ih _).trans (Instruction.size_run ins regs .output)
  exact hall _ _

end Program

/-! ### Uploading -/

/-- A call uploads a register of the given outputs, all four components of it. -/
def DeviceCall.UploadsRegister (stage : Stage) (outputs : Array Single) (call : DeviceCall)
    (r : Nat) : Prop :=
  ∃ start values, call = .floats stage start values ∧ start.toNat = r ∧
    values.map some = (List.range 4).map fun k => outputs[4 * r + k]?

namespace LinkedEffect

open DeviceCall

/-- Registers that the outputs cover are uploaded one by one, none of them left out. -/
lemma forall₂_resultCalls (stage : Stage) {p : Program} {outputs : Array Single} (hp : p.Valid)
    (hsize : outputs.size = p.outputLength) :
    List.Forall₂ (UploadsRegister stage outputs) (resultCalls stage p outputs)
      p.writtenRegisters := by
  have hcovered : ∀ r ∈ p.writtenRegisters, 4 * r + 4 ≤ outputs.size := fun r hr =>
    hsize ▸ hp.writtenRegister_le hr
  have hfew : outputs.size ≤ 1024 := hsize ▸ hp.outputLength_le
  rw [resultCalls]
  revert hcovered
  induction p.writtenRegisters with
  | nil => exact fun _ => .nil
  | cons r rest ih =>
    intro hcovered
    obtain ⟨hr, hrest⟩ := List.forall_mem_cons.1 hcovered
    rw [List.filterMap_cons, if_pos (by omega)]
    refine .cons ⟨_, _, rfl, ?_, ?_⟩ (ih hrest)
    · exact UInt32.toNat_ofNat_of_lt' (by simp [UInt32.size]; omega)
    · refine List.ext_getElem? fun k => ?_
      rw [List.getElem?_map, List.getElem?_map, Array.getElem?_toList, Array.getElem?_extract]
      by_cases hk : k < 4
      · have hin : r * 4 + k < outputs.size := by omega
        simp [hk, Nat.mul_comm 4 r, hin, show min (r * 4 + 4) outputs.size - r * 4 = 4 by omega]
      · simp [hk, show min (r * 4 + 4) outputs.size - r * 4 = 4 by omega]

variable {e : LinkedEffect} {mode : Mode} {w : Work}

/-- What a shader uploads after its constants: the results of its program, if these are due. -/
lemma applyProgram_eq (stage : Stage) (p : Program) :
    e.applyProgram mode stage p w =
      ⟨if mode.full || e.inputsDirty w.memory (e.boundProgram p) mode.since then
        resultCalls stage p (e.run w.memory (e.boundProgram p)) else [], w, .ok ()⟩ := by
  have hbind : e.applyProgram mode stage p w =
      (if mode.full || e.inputsDirty w.memory (e.boundProgram p) mode.since then
        Step.emit (resultCalls stage p (e.run w.memory (e.boundProgram p)))
        else Step.done ()) w := rfl
  rw [hbind]
  split <;> rfl

end LinkedEffect

/-- What is found in comments as a program was read. -/
lemma Shader.Parts.exists_decode_program {comments : List Comment} {parts parts' : Shader.Parts}
    (hparts : ∀ p, parts.program = some p → ∃ data, Program.decode data = .ok p)
    (h : parts.addAll comments = .ok parts') {p : Program} (hp : parts'.program = some p) :
    ∃ data, Program.decode data = .ok p := by
  induction comments generalizing parts with
  | nil =>
    cases h
    exact hparts p hp
  | cons comment rest ih =>
    obtain ⟨between, hfirst, hrest⟩ := bind_eq_ok_iff.1 h
    refine ih ?_ hrest
    rw [Shader.Parts.add] at hfirst
    split_ifs at hfirst
    · obtain ⟨table, -, hfirst⟩ := bind_eq_ok_iff.1 hfirst
      cases hfirst
      exact hparts
    · obtain ⟨found, hfound, hfirst⟩ := bind_eq_ok_iff.1 hfirst
      cases hfirst
      rintro q ⟨⟩
      exact ⟨_, hfound⟩
    · cases hfirst
      exact hparts

/-- The program of a shader that was read was read itself. -/
lemma Shader.exists_decode_program {code : Bytes} {shader : Shader} {p : Program}
    (h : Shader.decode code = .ok shader) (hp : shader.program = some p) :
    ∃ data, Program.decode data = .ok p := by
  rw [Shader.decode] at h
  obtain ⟨version, -, h⟩ := bind_eq_ok_iff.1 h
  cases hstage : Stage.ofTag? (version >>> 16) with
  | none =>
    rw [hstage] at h
    cases h
  | some stage =>
    rw [hstage] at h
    obtain ⟨-, h⟩ := guard_eq_ok_iff.1 h
    obtain ⟨found, -, h⟩ := bind_eq_ok_iff.1 h
    obtain ⟨parts, hparts, h⟩ := bind_eq_ok_iff.1 h
    cases h
    exact Shader.Parts.exists_decode_program (fun q hq => by cases hq) hparts hp

namespace LinkedEffect

/-- How a shader with a program is brought its constants, once those of its table are brought. -/
lemma applyConstants_eq {e : LinkedEffect} {nested : SamplerStep} {mode : Mode} {shader : Shader}
    {p : Program} {w : Work} {first : Outcome Unit} (hp : shader.program = some p)
    (hfirst : Step.each (e.applyConstant nested mode shader.stage) shader.constants.constants w =
      first) (hok : first.answer = .ok ()) :
    e.applyConstants nested mode shader w =
      ⟨first.calls ++ if mode.full ||
          e.inputsDirty first.work.memory (e.boundProgram p) mode.since then
        resultCalls shader.stage p (e.run first.work.memory (e.boundProgram p)) else [],
        first.work, .ok ()⟩ := by
  have hbind : e.applyConstants nested mode shader w =
      Step.andThen (Step.each (e.applyConstant nested mode shader.stage)
        shader.constants.constants) (fun _ => e.applyProgram mode shader.stage p) w := by
    rw [applyConstants, hp]
    rfl
  rw [hbind, Step.andThen]
  simp only [hfirst, hok, applyProgram_eq]

end LinkedEffect

namespace Program

/-- The results of programs that were read are uploaded completely, and nothing else is written. A
run over outputs of any length changes at most the written registers, which ascend and which the
output bank covers. A shader that was brought its constants goes on, and exactly if something its
program reads changed, or all is applied, it uploads every written register in ascending order, with
what it holds after a run over zeros. -/
theorem evaluate_uploads :
    (∀ data p, decode data = .ok p →
      (∀ inputs outputs : Array Single, (p.evaluate inputs outputs).size = outputs.size ∧
        ∀ i, i / 4 ∉ p.writtenRegisters → (p.evaluate inputs outputs)[i]? = outputs[i]?) ∧
      p.writtenRegisters.Pairwise (· < ·) ∧
      ∀ r ∈ p.writtenRegisters, 4 * r + 4 ≤ p.outputLength) ∧
    ∀ code shader p, Shader.decode code = .ok shader → shader.program = some p →
      ∀ (e : LinkedEffect) (nested : SamplerStep) (mode : Mode) (w : Work),
        let first := Step.each (e.applyConstant nested mode shader.stage)
          shader.constants.constants w
        first.answer = .ok () →
          ∃ uploads, e.applyConstants nested mode shader w =
              ⟨first.calls ++ uploads, first.work, .ok ()⟩ ∧
            let bound := e.boundProgram p
            if mode.full || e.inputsDirty first.work.memory bound mode.since then
              List.Forall₂ (DeviceCall.UploadsRegister shader.stage
                (p.evaluate (e.inputBank first.work.memory bound)
                  (Array.replicate p.outputLength .zero))) uploads p.writtenRegisters
            else uploads = [] := by
  refine ⟨fun data p h => ?_, fun code shader p hshader hp e nested mode w hfirst => ?_⟩
  · obtain ⟨comments, stop, parts, code, hread⟩ := decode_eq_ok_iff.1 h
    exact ⟨fun inputs outputs => ⟨p.size_evaluate inputs outputs,
      fun i hi => hread.valid.getElem?_evaluate hi inputs outputs⟩,
      p.pairwise_writtenRegisters, fun r hr => hread.valid.writtenRegister_le hr⟩
  · obtain ⟨data, hdata⟩ := Shader.exists_decode_program hshader hp
    obtain ⟨comments, stop, parts, code, hread⟩ := decode_eq_ok_iff.1 hdata
    refine ⟨_, LinkedEffect.applyConstants_eq hp rfl hfirst, ?_⟩
    dsimp only
    split
    · exact LinkedEffect.forall₂_resultCalls shader.stage hread.valid
        ((p.size_evaluate _ _).trans Array.size_replicate)
    · rfl

/-- A literal moved to four components that lie in two registers, and to one of a third. -/
def straddling : WrittenProgram where
  literals := [⟨0x401C000000000000⟩]
  inputs := []
  instructions := [(4, 10), (1, 5)].map fun (components, offset) =>
    { opcode := .mov, components
      inputs := [⟨.literal, 0, none, true⟩]
      output := ⟨.output, offset, none, false⟩ }

/-- A shader with that program, in an effect that has no parameters for it. -/
theorem evaluate_uploads_straddling :
    ∃ shader p s, Shader.decode (Shader.encode .vertex [] (some straddling.encode)).toArray =
        .ok shader ∧
      shader.program = some p ∧ lantern.state? = some s ∧ p.writtenRegisters = [1, 2, 3] ∧
      (p.evaluate #[] (Array.replicate 20 ⟨1⟩))[3]? = some ⟨1⟩ ∧
      ∃ uploads, s.linked.applyConstants (fun _ _ _ => .done ()) ⟨true, 0⟩ shader s.work =
          ⟨uploads, s.work, .ok ()⟩ ∧
        List.Forall₂ (DeviceCall.UploadsRegister .vertex
          (p.evaluate (s.linked.inputBank s.memory (s.linked.boundProgram p))
            (Array.replicate p.outputLength .zero))) uploads [1, 2, 3] := by
  obtain ⟨shader, hshader, hstage, hconstants, hprogram⟩ :
      ∃ shader ∈
        (Shader.decode (Shader.encode .vertex [] (some straddling.encode)).toArray).toOption,
        shader.stage = .vertex ∧ shader.constants.constants = [] ∧
        shader.program.map (·.writtenRegisters) = some [1, 2, 3] := by
    decide +kernel
  obtain ⟨p, hp, hwritten⟩ := Option.map_eq_some_iff.1 hprogram
  obtain ⟨s, hs, -⟩ : ∃ s ∈ lantern.state?, s.memory.blocks.size = 1 := by decide +kernel
  have hdecode := Image.eq_ok_of_toOption_eq_some hshader
  obtain ⟨data, hdata⟩ := Shader.exists_decode_program hdecode hp
  obtain ⟨hwrites, -, -⟩ := evaluate_uploads.1 data p hdata
  obtain ⟨uploads, hall, huploads⟩ := evaluate_uploads.2 _ shader p hdecode hp s.linked
    (fun _ _ _ => .done ()) ⟨true, 0⟩ s.work (by rw [hconstants]; rfl)
  refine ⟨shader, p, s, hdecode, hp, hs, hwritten, ?_, uploads, ?_, ?_⟩
  · rw [(hwrites #[] _).2 3 (by simp [hwritten])]
    simp
  · rw [hall, hconstants]
    rfl
  · rw [hconstants, hstage, hwritten] at huploads
    exact huploads

end Program

end ShaderEffect
