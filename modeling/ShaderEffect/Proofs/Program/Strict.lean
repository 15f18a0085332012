import ShaderEffect.Program.Encode
import ShaderEffect.Program.Run
import ShaderEffect.Proofs.Image.Sound
import ShaderEffect.Proofs.Program.Valid

/-!
# Programs stay inside their banks

Running a program skips a write to a place that is not there and reads zero from one. The strict run
below fails instead: on any write that hits no component of a writable bank, on any read of a place
known in advance that hits no component, and on any sum of offsets that does not fit a machine word.
Only a relative read may miss. A program that was read from data never fails the strict run
(`strictEvaluate?_eq_some`).
-/

namespace ShaderEffect

/-! ### The strict run -/

namespace Registers

/-- The number of values of a machine word. -/
def wordLimit : Nat := 2 ^ 64

/-- A sum of offsets that fits a machine word. -/
def sum? (a b : Nat) : Option Nat := if a + b < wordLimit then some (a + b) else none

/-- The value of a lane of an operand. What stands at a place known in advance must be there, the
index register too; a relative read that misses gives zero. -/
def strictRead? (regs : Registers) (operand : Operand) (lane : Nat) : Option Double :=
  match operand.index with
  | none => do regs.load? operand.bank (← sum? operand.offset lane)
  | some r => do
    let _ ← regs.load? r.bank r.offset
    match regs.address? operand with
    | none => return .zero
    | some address => return (regs.load? operand.bank (← sum? address lane)).getD .zero

/-- Store a lane of an operand, in a component of a writable bank that is there. -/
def strictWrite? (regs : Registers) (operand : Operand) (lane : Nat) (value : Double) :
    Option Registers := do
  let slot ← sum? operand.offset lane
  match operand.bank with
  | .output =>
    if h : slot < regs.outputs.size then
      some { regs with outputs := regs.outputs.set slot value.narrow h }
    else none
  | .temp =>
    if h : slot < regs.temps.size then
      some { regs with temps := regs.temps.set slot value.narrow h }
    else none
  | .literal | .input => none

end Registers

namespace Instruction

/-- The products a reduction sums; there must be two operands, or a list of them. -/
def strictProducts? (ins : Instruction) (regs : Registers) : Option (List (Double × Double)) :=
  match ins.opcode with
  | .dotSwiz => do
    let values ← ins.inputs.mapM (regs.strictRead? · 0)
    return (values.take (values.length / 2)).zip (values.drop (values.length / 2))
  | _ =>
    match ins.inputs with
    | [a, b] => (List.range ins.components).mapM fun lane => do
      return (← regs.strictRead? a lane, ← regs.strictRead? b lane)
    | _ => none

/-- The value of one lane of an operation on one, two or three operands. -/
def strictLaneValue? (ins : Instruction) (regs : Registers) (lane : Nat) : Option Double :=
  let first (a : Operand) : Option Double := regs.strictRead? a (if ins.scalar then 0 else lane)
  match ins.inputs with
  | [a] => do return ins.opcode.unary (← first a)
  | [a, b] => do return ins.opcode.binary (← first a) (← regs.strictRead? b lane)
  | [a, b, c] => do
    return ins.opcode.ternary (← first a) (← regs.strictRead? b lane) (← regs.strictRead? c lane)
  | _ => none

/-- Run one instruction. -/
def strictRun? (ins : Instruction) (regs : Registers) : Option Registers :=
  if ins.opcode.isReduction then do
    regs.strictWrite? ins.output 0 (sumOfProducts (← ins.strictProducts? regs))
  else
    (List.range ins.components).foldlM
      (fun regs lane => do
        regs.strictWrite? ins.output lane (← ins.strictLaneValue? regs lane)) regs

end Instruction

/-- Run a program on given inputs, over the given outputs. -/
def Program.strictEvaluate? (p : Program) (inputs outputs : Array Single) :
    Option (Array Single) := do
  let regs ← p.instructions.foldlM (fun regs ins => ins.strictRun? regs) (p.start inputs outputs)
  return regs.outputs

/-! ### Places that are there -/

/-- The number of components of a bank. -/
def Registers.size (regs : Registers) : Bank → Nat
  | .literal => regs.literals.size
  | .input => regs.inputs.size
  | .output => regs.outputs.size
  | .temp => regs.temps.size

/-- An operand whose offset is one that reading accepts. -/
def Operand.Fits (operand : Operand) : Prop := operand.offset < 2 ^ 31

namespace Registers

variable {regs : Registers} {operand : Operand} {lane lanes : Nat}

lemma load?_eq_some {bank : Bank} {i : Nat} (h : i < regs.size bank) :
    regs.load? bank i = some (regs.load bank i) := by
  have hsome : (regs.load? bank i).isSome := by
    cases bank <;> simpa [load?, size] using h
  obtain ⟨x, hx⟩ := Option.isSome_iff_exists.1 hsome
  rw [load, hx, Option.getD_some]

lemma sum?_eq_some {a b : Nat} (ha : a < 2 ^ 63) (hb : b < 4) : sum? a b = some (a + b) := by
  rw [sum?, wordLimit, if_pos (by omega)]

lemma address?_lt {address : Nat} (hoffset : operand.offset < 2 ^ 31)
    (h : regs.address? operand = some address) : address < 2 ^ 63 := by
  unfold address? at h
  cases hindex : operand.index with
  | none =>
    rw [hindex] at h
    cases h
    omega
  | some r =>
    rw [hindex] at h
    cases hround : (regs.load r.bank r.offset).roundEven? with
    | none => simp [hround] at h
    | some i =>
      simp only [hround] at h
      split at h
      · next hrange =>
        cases h
        have hlt := hrange.2
        unfold addressLimit at hlt
        omega
      · cases h

/-- A read of an operand whose known stretch is there. -/
lemma strictRead?_eq_some (hfits : operand.Fits)
    (hstretch : (operand.stretch lanes).2 ≤ regs.size (operand.stretch lanes).1)
    (hlane : lane < lanes) (hlanes : lanes ≤ 4) :
    regs.strictRead? operand lane = some (regs.read operand lane) := by
  have hlane4 : lane < 4 := by omega
  unfold strictRead? read
  unfold Operand.Fits at hfits
  unfold Operand.stretch at hstretch
  cases hindex : operand.index with
  | none =>
    rw [hindex] at hstretch
    have haddress : regs.address? operand = some operand.offset := by
      rw [address?, hindex]
    simp only [haddress, sum?_eq_some (show operand.offset < 2 ^ 63 by omega) hlane4]
    exact load?_eq_some (by simp only at hstretch; omega)
  | some r =>
    rw [hindex] at hstretch
    have hregister : regs.load? r.bank r.offset = some (regs.load r.bank r.offset) :=
      load?_eq_some hstretch
    cases haddress : regs.address? operand with
    | none => simp [hregister]
    | some address =>
      have hsum := sum?_eq_some (address?_lt hfits haddress) hlane4
      simp only [hregister, hsum, Option.bind_eq_bind, Option.bind_some]
      rfl

/-- A write to a component that is there. -/
lemma strictWrite?_eq_some {value : Double} (hfits : operand.Fits)
    (hbank : operand.bank = .output ∨ operand.bank = .temp)
    (hslot : operand.offset + lanes ≤ regs.size operand.bank) (hlane : lane < lanes)
    (hlanes : lanes ≤ 4) :
    regs.strictWrite? operand lane value = some (regs.write operand lane value) := by
  unfold Operand.Fits at hfits
  have hsum : sum? operand.offset lane = some (operand.offset + lane) :=
    sum?_eq_some (by omega) (by omega)
  unfold strictWrite? write
  rcases hbank with hbank | hbank
  · rw [hbank, size] at hslot
    simp [hsum, hbank, Array.setIfInBounds, show operand.offset + lane < regs.outputs.size by omega]
  · rw [hbank, size] at hslot
    simp [hsum, hbank, Array.setIfInBounds, show operand.offset + lane < regs.temps.size by omega]

@[simp] lemma size_write {value : Double} (bank : Bank) :
    (regs.write operand lane value).size bank = regs.size bank := by
  unfold write
  cases operand.bank <;> cases bank <;> simp [size]

end Registers

/-! ### Runs that never fail -/

section

variable {α β : Type}

lemma mapM_eq_some {f : α → Option β} {g : α → β} {as : List α}
    (h : ∀ a ∈ as, f a = some (g a)) : as.mapM f = some (as.map g) := by
  induction as with
  | nil => rfl
  | cons a as ih =>
    rw [List.forall_mem_cons] at h
    simp [h.1, ih h.2]

/-- A fold whose steps succeed while an invariant holds, which they keep. -/
lemma foldlM_eq_some {f : β → α → Option β} {g : β → α → β} {as : List α} {b : β}
    (Inv : β → Prop) (hb : Inv b)
    (hstep : ∀ b, ∀ a ∈ as, Inv b → f b a = some (g b a) ∧ Inv (g b a)) :
    as.foldlM f b = some (as.foldl g b) := by
  induction as generalizing b with
  | nil => rfl
  | cons a as ih =>
    obtain ⟨hf, hg⟩ := hstep b a List.mem_cons_self hb
    rw [List.foldlM_cons, hf, List.foldl_cons]
    exact ih hg fun b a ha => hstep b a (List.mem_cons_of_mem _ ha)

end

/-! ### Instructions that fit -/

/-- The registers have every component an instruction touches at a place known in advance. -/
structure Instruction.Covered (ins : Instruction) (regs : Registers) : Prop where
  wellFormed : ins.WellFormed
  fits : ∀ operand ∈ ins.output :: ins.inputs, operand.Fits
  there : ∀ bank stop, (bank, stop) ∈ ins.stretches → stop ≤ regs.size bank

namespace Instruction

open Registers

variable {ins : Instruction} {regs : Registers}

lemma maxComponents_le (op : Opcode) : op.maxComponents ≤ 4 := by
  cases op <;> decide

namespace Covered

lemma components_le (h : ins.Covered regs) : ins.components ≤ 4 :=
  Nat.le_trans h.wellFormed.components_le (maxComponents_le _)

/-- No operand is read at more than four lanes. -/
lemma inputLanes_le (h : ins.Covered regs) (i : Nat) : ins.inputLanes i ≤ 4 := by
  have := h.components_le
  unfold inputLanes
  split
  · omega
  · omega
  · split <;> omega

/-- Reading a lane of the `i`-th input. -/
lemma read (h : ins.Covered regs) {i lane : Nat} {operand : Operand}
    (hget : ins.inputs[i]? = some operand) (hlane : lane < ins.inputLanes i) :
    regs.strictRead? operand lane = some (regs.read operand lane) := by
  obtain ⟨hi, rfl⟩ := List.getElem?_eq_some_iff.1 hget
  have hmem := ins.stretch_mem_inputStretches 0 i ins.inputs hi
  rw [Nat.zero_add] at hmem
  exact strictRead?_eq_some (h.fits _ (List.mem_cons_of_mem _ (List.getElem_mem hi)))
    (h.there _ _ (List.mem_append_left _ hmem)) hlane (h.inputLanes_le i)

/-- Writing a lane of the output. -/
lemma write (h : ins.Covered regs) {lane : Nat} {value : Double} (hlane : lane < ins.outputLanes) :
    regs.strictWrite? ins.output lane value = some (regs.write ins.output lane value) := by
  have hlanes : ins.outputLanes ≤ 4 := by
    have := h.components_le
    unfold outputLanes
    split <;> omega
  have hthere := h.there _ _ (List.mem_append_right _ List.mem_cons_self)
  exact strictWrite?_eq_some (h.fits _ List.mem_cons_self) h.wellFormed.output_writable hthere hlane
    hlanes

/-- What one write leaves is still enough. -/
lemma write_registers (h : ins.Covered regs) (operand : Operand) (lane : Nat) (value : Double) :
    ins.Covered (regs.write operand lane value) :=
  ⟨h.wellFormed, h.fits, by simpa only [size_write] using h.there⟩

end Covered

/-- One lane of an operation that works lane by lane. -/
lemma strictLaneValue?_eq_some (h : ins.Covered regs) (hlanewise : ins.opcode.isReduction = false)
    {lane : Nat} (hlane : lane < ins.components) :
    ins.strictLaneValue? regs lane = some (ins.laneValue regs lane) := by
  have hlanes : ∀ i, ins.inputLanes i = if ins.scalar && i == 0 then 1 else ins.components := by
    intro i
    unfold inputLanes
    cases hop : ins.opcode <;> simp [hop, Opcode.isReduction] at hlanewise <;> rfl
  have hfirst : (if ins.scalar then 0 else lane) < ins.inputLanes 0 := by
    rw [hlanes]
    cases ins.scalar <;> simp [hlane]
  have hlater : ∀ i, lane < ins.inputLanes (i + 1) := by
    intro i
    rw [hlanes]
    simp [hlane]
  unfold strictLaneValue? laneValue
  cases hinputs : ins.inputs with
  | nil =>
    have harity := h.wellFormed.inputs
    rw [hinputs] at harity
    cases hop : ins.opcode <;> simp [hop, Opcode.arities] at harity
  | cons a rest =>
    have ha := h.read (i := 0) (by rw [hinputs]; rfl) hfirst
    match rest with
    | [] => simp only [ha, Option.bind_eq_bind, Option.bind_some]; rfl
    | [b] =>
      have hb := h.read (i := 1) (by rw [hinputs]; rfl) (hlater 0)
      simp only [ha, hb, Option.bind_eq_bind, Option.bind_some]; rfl
    | [b, c] =>
      have hb := h.read (i := 1) (by rw [hinputs]; rfl) (hlater 0)
      have hc := h.read (i := 2) (by rw [hinputs]; rfl) (hlater 1)
      simp only [ha, hb, hc, Option.bind_eq_bind, Option.bind_some]; rfl
    | b :: c :: d :: more =>
      have harity := h.wellFormed.inputs
      rw [hinputs] at harity
      cases hop : ins.opcode <;> simp [hop, Opcode.arities, Opcode.isReduction] at harity hlanewise

/-- The products of a reduction. -/
lemma strictProducts?_eq_some (h : ins.Covered regs) (hreduction : ins.opcode.isReduction = true) :
    ins.strictProducts? regs = some (ins.products regs) := by
  have harity := h.wellFormed.inputs
  unfold strictProducts? products
  cases hop : ins.opcode <;> simp only [hop, Opcode.isReduction, Bool.false_eq_true] at hreduction
  · -- a dot product reads all lanes of two operands
    rw [hop, Opcode.arities, List.mem_singleton] at harity
    obtain ⟨a, b, hinputs⟩ := List.length_eq_two.1 harity
    have hlanes : ∀ i, ins.inputLanes i = ins.components := by
      intro i
      rw [inputLanes, hop]
    rw [hinputs]
    refine mapM_eq_some fun lane hlane => ?_
    rw [List.mem_range] at hlane
    have ha := h.read (i := 0) (by rw [hinputs]; rfl) (hlanes 0 ▸ hlane)
    have hb := h.read (i := 1) (by rw [hinputs]; rfl) (hlanes 1 ▸ hlane)
    simp only [ha, hb, Option.bind_eq_bind, Option.bind_some]
    rfl
  · -- a swizzled one reads a single lane of every operand
    have hvalues : ins.inputs.mapM (regs.strictRead? · 0) =
        some (ins.inputs.map (regs.read · 0)) := by
      refine mapM_eq_some fun operand hoperand => ?_
      obtain ⟨i, hget⟩ := List.mem_iff_getElem?.1 hoperand
      refine h.read hget ?_
      rw [inputLanes, hop]
      exact Nat.one_pos
    simp only [hvalues, Option.bind_eq_bind, Option.bind_some]
    rfl

/-- Running an instruction whose places are there. -/
lemma strictRun?_eq_some (h : ins.Covered regs) :
    ins.strictRun? regs = some (ins.run regs) := by
  unfold strictRun? run
  have hlanes : ins.outputLanes = if ins.opcode.isReduction then 1 else ins.components := rfl
  cases hreduction : ins.opcode.isReduction with
  | true =>
    rw [hreduction, if_pos rfl] at hlanes
    simp only [if_true, strictProducts?_eq_some h hreduction, Option.bind_eq_bind,
      Option.bind_some]
    exact h.write (by omega)
  | false =>
    rw [hreduction, if_neg Bool.false_ne_true] at hlanes
    simp only [Bool.false_eq_true, if_false]
    refine foldlM_eq_some ins.Covered h fun regs lane hlane hregs => ?_
    rw [List.mem_range] at hlane
    simp only [strictLaneValue?_eq_some hregs hreduction hlane, Option.bind_eq_bind,
      Option.bind_some]
    exact ⟨hregs.write (by omega), hregs.write_registers ..⟩

@[simp] lemma size_run (ins : Instruction) (regs : Registers) (bank : Bank) :
    (ins.run regs).size bank = regs.size bank := by
  have hfold : ∀ (lanes : List Nat) (regs : Registers),
      (lanes.foldl (fun regs lane => regs.write ins.output lane (ins.laneValue regs lane))
        regs).size bank = regs.size bank := by
    intro lanes
    induction lanes with
    | nil => exact fun _ => rfl
    | cons lane lanes ih => exact fun regs => by rw [List.foldl_cons, ih, size_write]
  unfold run
  split
  · exact size_write _
  · exact hfold _ _

end Instruction

/-! ### Programs read from data -/

namespace Program

lemma yields_readOperand : readOperand.Yields Operand.Fits := by
  unfold readOperand
  refine (Reader.Yields.any _).bind fun index _ => (Reader.Yields.any _).bind fun number _ =>
    (Reader.Yields.any _).bind fun bank _ => (Reader.Yields.any _).bind fun offset _ => ?_
  split
  · exact .throw _
  · next hle =>
    refine .pure ?_
    rw [UInt32.not_lt, UInt32.le_iff_toNat_le] at hle
    exact Nat.lt_of_le_of_lt hle (by decide)

/-- All operands of an instruction that was read have offsets that reading accepts. -/
lemma yields_readInstruction :
    readInstruction.Yields fun ins => ∀ operand ∈ ins.output :: ins.inputs, operand.Fits := by
  unfold readInstruction
  refine (Reader.Yields.any _).bind fun token _ => ?_
  dsimp only
  split
  · refine (Reader.Yields.any _).bind fun count _ => ?_
    split
    · exact (Reader.Yields.throw (P := fun _ => False) _).bind fun _ hnone => hnone.elim
    · refine (yields_readOperand.times _).bind fun inputs hinputs =>
        yields_readOperand.bind fun output houtput => .pure ?_
      exact List.forall_mem_cons.2 ⟨houtput, hinputs.2⟩
  · exact .throw _

/-- The instructions of a program that was read are covered by banks of the lengths it asks for. -/
lemma covered_start {data : Bytes} {p : Program} {inputs outputs : Array Single}
    (h : decode data = .ok p) (hinputs : p.inputLength ≤ inputs.size)
    (houtputs : p.outputLength ≤ outputs.size) :
    ∀ ins ∈ p.instructions, ins.Covered (p.start inputs outputs) := by
  obtain ⟨comments, stop, parts, code, hread⟩ := decode_eq_ok_iff.1 h
  intro ins hins
  refine ⟨hread.valid.wellFormed ins hins, ?_, fun bank stop hstop => ?_⟩
  · have hall : readInstructions.Yields fun instructions => ∀ ins ∈ instructions,
        ∀ operand ∈ ins.output :: ins.inputs, operand.Fits := by
      unfold readInstructions
      exact (Reader.Yields.any _).bind fun count _ => (Reader.Yields.any _).bind fun _ _ =>
        (yields_readInstruction.times _).mono fun _ hread => hread.2
    have hcode := hread.readCode
    unfold Reader.runAt at hcode
    split at hcode
    · next instructions position hrun =>
      cases hcode
      exact hall _ _ _ _ hrun ins hins
    · cases hcode
  · have hinside := hread.valid.inside ins hins bank stop hstop
    have hend := p.le_bankEnd hins hstop
    cases bank with
    | literal => simpa [start, Registers.size, capacity] using hinside
    | input => exact Nat.le_trans hinside hinputs
    | output => exact Nat.le_trans hend (Nat.le_trans p.bankEnd_le_outputLength houtputs)
    | temp => simpa [start, Registers.size, tempLength] using hend

/-- A program that was read never leaves its banks: on inputs and outputs of at least the lengths it
asks for, every write and every read at a place known in advance hits a component, a relative read
that misses gives zero, and no sum of offsets overflows, whatever the index registers hold. -/
theorem strictEvaluate?_eq_some (data : Bytes) (p : Program) (inputs outputs : Array Single)
    (h : decode data = .ok p) (hinputs : p.inputLength ≤ inputs.size)
    (houtputs : p.outputLength ≤ outputs.size) :
    p.strictEvaluate? inputs outputs = some (p.evaluate inputs outputs) := by
  -- running an instruction keeps the sizes of the banks, so all instructions stay covered
  have hrun : p.instructions.foldlM (fun regs ins => ins.strictRun? regs) (p.start inputs outputs) =
      some (p.instructions.foldl (fun regs ins => ins.run regs) (p.start inputs outputs)) := by
    refine foldlM_eq_some (fun regs => ∀ ins ∈ p.instructions, ins.Covered regs)
      (covered_start h hinputs houtputs) fun regs ins hins hregs => ?_
    refine ⟨Instruction.strictRun?_eq_some (hregs ins hins), fun ins' hins' => ?_⟩
    have hcovered := hregs ins' hins'
    exact ⟨hcovered.wellFormed, hcovered.fits, by simpa using hcovered.there⟩
  unfold strictEvaluate? evaluate
  rw [hrun]
  rfl

/-- Literals moved from places that literals give: a NaN, a register past the bank, and one in
it. -/
def relativeMoves : WrittenProgram where
  literals := [⟨0x7FF8000000000000⟩, ⟨0x401C000000000000⟩, ⟨0⟩]
  inputs := []
  instructions := [0, 1, 2].map fun i =>
    { opcode := .mov, components := 1
      inputs := [⟨.literal, 1, some (.literal, i), false⟩]
      output := ⟨.output, i, none, false⟩ }

theorem strictEvaluate?_relativeMoves :
    ∃ p, decode relativeMoves.encode.toArray = .ok p ∧
      p.strictEvaluate? #[] (Array.replicate 4 .zero) =
        some (p.evaluate #[] (Array.replicate 4 .zero)) ∧
      p.evaluate #[] (Array.replicate 4 .zero) = #[.zero, .zero, ⟨0x40E00000⟩, .zero] := by
  have hrun : (decode relativeMoves.encode.toArray).toOption.map
      (fun p => (p.inputLength, p.outputLength, p.evaluate #[] (Array.replicate 4 .zero))) =
      some (0, 4, #[.zero, .zero, ⟨0x40E00000⟩, .zero]) := by decide +kernel
  obtain ⟨p, hp, hp'⟩ := Option.map_eq_some_iff.1 hrun
  obtain ⟨hinputs, houtputs, hvalue⟩ : p.inputLength = 0 ∧ p.outputLength = 4 ∧ _ = _ := by
    simpa only [Prod.mk.injEq] using hp'
  have hdecode := Image.eq_ok_of_toOption_eq_some hp
  exact ⟨p, hdecode, strictEvaluate?_eq_some _ p _ _ hdecode (Nat.le_of_eq hinputs)
    (by simp [houtputs]), hvalue⟩

end Program

end ShaderEffect
