import Mathlib.Data.List.Basic
import Mathlib.Tactic.Common
import ShaderEffect.Program.Decode

/-!
# What checking a program decides

An instruction touches stretches of banks at places known in advance (`Instruction.stretches`). A
program is valid if its instructions are well formed by themselves and every stretch ends inside its
bank (`Program.Valid`); checking answers exactly that (`check_eq_ok_iff`), and the sizes of the
writable banks cover all stretches in them.
-/

namespace ShaderEffect

/-! ### Success -/

section

variable {α β : Type} {a : α}

lemma bind_eq_ok_iff {first : Except FormatError β} {rest : β → Except FormatError α} :
    first >>= rest = .ok a ↔ ∃ b, first = .ok b ∧ rest b = .ok a := by
  cases first with
  | error e =>
    constructor
    · intro h
      cases h
    · rintro ⟨b, h, -⟩
      cases h
  | ok b => exact ⟨fun h => ⟨b, rfl, h⟩, fun ⟨b', hb, h⟩ => by cases hb; exact h⟩

lemma then_eq_ok_iff {first : Except FormatError Unit} {rest : Except FormatError α} :
    (first >>= fun _ => rest) = .ok a ↔ first = .ok () ∧ rest = .ok a :=
  bind_eq_ok_iff.trans ⟨fun ⟨_, h⟩ => h, fun h => ⟨(), h⟩⟩

lemma bind_of_eq_ok {first : Except FormatError β} {b : β} (h : first = .ok b)
    (rest : β → Except FormatError α) : first >>= rest = rest b := by
  rw [h]
  rfl

/-- A guard that throws passes if its condition fails. -/
lemma guard_eq_ok_iff {c : Prop} [Decidable c] {e : FormatError}
    {rest : Unit → Except FormatError α} :
    (if c then throw e >>= rest else rest ()) = .ok a ↔ ¬ c ∧ rest () = .ok a := by
  by_cases hc : c
  · rw [if_pos hc]
    constructor
    · intro h
      cases h
    · exact fun h => absurd hc h.1
  · rw [if_neg hc]
    exact ⟨fun h => ⟨hc, h⟩, fun h => h.2⟩

/-- A stage that is gone through under a condition, with a guard on what it answers. -/
lemma stage_eq_ok_iff {c : Prop} [Decidable c] {first : Except FormatError β} {bad : β → Prop}
    [DecidablePred bad] {e : β → FormatError} {rest : Unit → Except FormatError α} :
    (if c then first >>= fun b => if bad b then throw (e b) >>= rest else rest () else rest ()) =
        .ok a ↔
      (c → ∃ b, first = .ok b ∧ ¬ bad b) ∧ rest () = .ok a := by
  by_cases hc : c
  · rw [if_pos hc]
    simp only [bind_eq_ok_iff, guard_eq_ok_iff, hc, true_implies]
    constructor
    · rintro ⟨b, hb, hgood, h⟩
      exact ⟨⟨b, hb, hgood⟩, h⟩
    · rintro ⟨⟨b, hb, hgood⟩, h⟩
      exact ⟨b, hb, hgood, h⟩
  · rw [if_neg hc]
    simp only [hc, false_implies, true_and]

end

/-! ### Stretches -/

/-- The stretch of a bank that an operand touches at a place known in advance, by the component
after its last one: the index register of a relative operand, all lanes of any other. -/
def Operand.stretch (operand : Operand) (lanes : Nat) : Bank × Nat :=
  match operand.index with
  | some r => (r.bank, r.offset + 1)
  | none => (operand.bank, operand.offset + lanes)

lemma Instruction.operandEnd_eq (bank : Bank) (operand : Operand) (lanes : Nat) :
    operandEnd bank operand lanes =
      if (operand.stretch lanes).1 = bank then (operand.stretch lanes).2 else 0 := by
  unfold operandEnd Operand.stretch
  cases operand.index <;> rfl

namespace Instruction

/-- The stretches that inputs of an instruction touch, the first being the `i`-th. -/
def inputStretches (ins : Instruction) : Nat → List Operand → List (Bank × Nat)
  | _, [] => []
  | i, operand :: rest =>
    operand.stretch (ins.inputLanes i) :: ins.inputStretches (i + 1) rest

/-- All stretches an instruction touches. -/
def stretches (ins : Instruction) : List (Bank × Nat) :=
  ins.inputStretches 0 ins.inputs ++ [(ins.output.bank, ins.output.offset + ins.outputLanes)]

lemma stretch_mem_inputStretches (ins : Instruction) (i k : Nat) (operands : List Operand)
    (hk : k < operands.length) :
    operands[k].stretch (ins.inputLanes (i + k)) ∈ ins.inputStretches i operands := by
  induction operands generalizing i k with
  | nil => cases hk
  | cons operand rest ih =>
    rw [inputStretches]
    cases k with
    | zero => exact List.mem_cons_self
    | succ k =>
      have hrest := ih (i + 1) k (by simpa using hk)
      rw [Nat.add_right_comm] at hrest
      exact List.mem_cons_of_mem _ hrest

lemma inputsEnd_le_iff (ins : Instruction) (bank : Bank) (i n : Nat) (operands : List Operand) :
    ins.inputsEnd bank i operands ≤ n ↔
      ∀ stop, (bank, stop) ∈ ins.inputStretches i operands → stop ≤ n := by
  induction operands generalizing i with
  | nil => simp [inputsEnd, inputStretches]
  | cons operand rest ih =>
    rw [inputsEnd, inputStretches, Nat.max_le, ih, operandEnd_eq]
    generalize operand.stretch (ins.inputLanes i) = found
    obtain ⟨bank', stop'⟩ := found
    by_cases hbank : bank' = bank
    · subst hbank
      simp
    · simp [hbank, Ne.symm hbank]

/-- The end of a bank is the least bound of the stretches in it. -/
lemma bankEnd_le_iff (ins : Instruction) (bank : Bank) (n : Nat) :
    ins.bankEnd bank ≤ n ↔ ∀ stop, (bank, stop) ∈ ins.stretches → stop ≤ n := by
  rw [bankEnd, Nat.max_le, inputsEnd_le_iff]
  by_cases hbank : ins.output.bank = bank
  · subst hbank
    simp [stretches, or_imp, forall_and]
  · simp [stretches, hbank, Ne.symm hbank]

end Instruction

lemma foldl_max_le_iff {ns : List Nat} {m n : Nat} :
    ns.foldl max m ≤ n ↔ m ≤ n ∧ ∀ k ∈ ns, k ≤ n := by
  induction ns generalizing m with
  | nil => simp
  | cons k ns ih => rw [List.foldl_cons, ih, Nat.max_le, List.forall_mem_cons, and_assoc]

namespace Program

/-- The end of a bank is the least bound of the stretches in it, over all instructions. -/
lemma bankEnd_le_iff (p : Program) (bank : Bank) (n : Nat) :
    p.bankEnd bank ≤ n ↔
      ∀ ins ∈ p.instructions, ∀ stop, (bank, stop) ∈ ins.stretches → stop ≤ n := by
  rw [bankEnd, foldl_max_le_iff]
  simp [Instruction.bankEnd_le_iff]

lemma le_bankEnd (p : Program) {bank : Bank} {stop : Nat} {ins : Instruction}
    (hins : ins ∈ p.instructions) (hstop : (bank, stop) ∈ ins.stretches) :
    stop ≤ p.bankEnd bank :=
  (p.bankEnd_le_iff bank _).1 (Nat.le_refl _) ins hins stop hstop

lemma bankEnd_le_outputLength (p : Program) : p.bankEnd .output ≤ p.outputLength := by
  unfold outputLength
  omega

/-! ### Validity -/

/-- The components a bank may have: the literals and inputs there are, and a register file for each
of the writable banks. -/
def capacity (p : Program) : Bank → Nat
  | .literal => p.literals.length
  | .input => p.inputLength
  | .output | .temp => componentLimit

end Program

/-- What makes an instruction well formed by itself. -/
structure Instruction.WellFormed (ins : Instruction) : Prop where
  inputs : ins.inputs.length ∈ ins.opcode.arities
  components_pos : 0 < ins.components
  components_le : ins.components ≤ ins.opcode.maxComponents
  output_direct : ins.output.index = none
  output_writable : ins.output.bank = .output ∨ ins.output.bank = .temp

namespace Program

/-- A program whose instructions are well formed and touch, at places known in advance, only
components that exist. -/
structure Valid (p : Program) : Prop where
  wellFormed : ∀ ins ∈ p.instructions, ins.WellFormed
  inside : ∀ ins ∈ p.instructions, ∀ bank stop, (bank, stop) ∈ ins.stretches →
    stop ≤ p.capacity bank

/-! ### Checking -/

variable {p : Program} {n i : Nat} {ins : Instruction} {bank : Bank} {stop : Nat}

/-- A stretch of a bank that cannot grow ends inside it. -/
def EndsInside (p : Program) (found : Bank × Nat) : Prop :=
  ∀ limit ∈ p.fixedLength? found.1, found.2 ≤ limit

lemma checkEnd_eq_ok_iff : p.checkEnd n bank stop = .ok () ↔ p.EndsInside (bank, stop) := by
  unfold checkEnd EndsInside
  cases p.fixedLength? bank with
  | none => simp
  | some limit =>
    by_cases h : limit < stop
    · simp [h]
    · simp [h, Nat.le_of_not_lt h]

lemma checkOperand_eq_ok_iff {operand : Operand} {lanes : Nat} :
    p.checkOperand n operand lanes = .ok () ↔ p.EndsInside (operand.stretch lanes) := by
  unfold checkOperand Operand.stretch
  cases operand.index with
  | none => exact checkEnd_eq_ok_iff
  | some r => exact checkEnd_eq_ok_iff

lemma checkInputs_eq_ok_iff {operands : List Operand} :
    p.checkInputs n ins i operands = .ok () ↔
      ∀ found ∈ ins.inputStretches i operands, p.EndsInside found := by
  induction operands generalizing i with
  | nil => simp [checkInputs, Instruction.inputStretches]
  | cons operand rest ih =>
    rw [checkInputs, then_eq_ok_iff, checkOperand_eq_ok_iff, ih, Instruction.inputStretches,
      List.forall_mem_cons]

lemma checkInstruction_eq_ok_iff :
    p.checkInstruction n ins = .ok () ↔
      ins.WellFormed ∧ ∀ found ∈ ins.stretches, p.EndsInside found := by
  unfold checkInstruction
  dsimp only
  rw [guard_eq_ok_iff, guard_eq_ok_iff, then_eq_ok_iff, guard_eq_ok_iff, checkInputs_eq_ok_iff]
  simp only [List.contains_eq_mem, decide_eq_true_eq, not_not, not_or, Nat.not_lt,
    Option.isSome_iff_ne_none]
  constructor
  · rintro ⟨hinputs, ⟨hpos, hle⟩, hreads, hdirect, haccepted⟩
    have hbank : ins.output.bank = .output ∨ ins.output.bank = .temp := by
      revert haccepted
      cases ins.output.bank <;> simp [throw, throwThe, MonadExceptOf.throw]
    refine ⟨⟨hinputs, Nat.pos_of_ne_zero hpos, hle, hdirect, hbank⟩, ?_⟩
    -- the writable banks have no fixed length, so nothing was asked of the output
    have houtput : p.EndsInside (ins.output.bank, ins.output.offset + ins.outputLanes) := by
      rcases hbank with h | h <;> simp [EndsInside, h, fixedLength?]
    simpa only [Instruction.stretches, List.forall_mem_append, List.forall_mem_singleton]
      using ⟨hreads, houtput⟩
  · rintro ⟨hwell, hinside⟩
    rw [Instruction.stretches, List.forall_mem_append] at hinside
    refine ⟨hwell.inputs, ⟨Nat.ne_of_gt hwell.components_pos, hwell.components_le⟩, hinside.1,
      hwell.output_direct, ?_⟩
    obtain h | h := hwell.output_writable <;> rw [h] <;> rfl

lemma checkInstructions_eq_ok_iff {instructions : List Instruction} :
    p.checkInstructions n instructions = .ok () ↔
      ∀ ins ∈ instructions, ins.WellFormed ∧ ∀ found ∈ ins.stretches, p.EndsInside found := by
  induction instructions generalizing n with
  | nil => simp [checkInstructions]
  | cons ins rest ih =>
    rw [checkInstructions, then_eq_ok_iff, checkInstruction_eq_ok_iff, ih, List.forall_mem_cons]

lemma checkBank_eq_ok_iff : p.checkBank bank = .ok () ↔ p.bankEnd bank ≤ componentLimit := by
  unfold checkBank
  split
  · next h => simp [h]
  · next h => simp [Nat.le_of_not_lt h]

/-- Checking accepts exactly the valid programs. -/
lemma check_eq_ok_iff : p.check = .ok () ↔ p.Valid := by
  rw [check, then_eq_ok_iff, then_eq_ok_iff, checkInstructions_eq_ok_iff, checkBank_eq_ok_iff,
    checkBank_eq_ok_iff, bankEnd_le_iff, bankEnd_le_iff]
  constructor
  · rintro ⟨hall, houtput, htemp⟩
    refine ⟨fun ins hins => (hall ins hins).1, fun ins hins bank stop hstop => ?_⟩
    have hfixed := (hall ins hins).2 (bank, stop) hstop
    cases bank with
    | literal => exact hfixed _ rfl
    | input => exact hfixed _ rfl
    | output => exact houtput ins hins stop hstop
    | temp => exact htemp ins hins stop hstop
  · rintro ⟨hwell, hinside⟩
    refine ⟨fun ins hins => ⟨hwell ins hins, ?_⟩, fun ins hins => hinside ins hins .output,
      fun ins hins => hinside ins hins .temp⟩
    rintro ⟨bank, stop⟩ hstop limit hlimit
    have hle := hinside ins hins bank stop hstop
    cases bank with
    | literal => exact Option.some.inj hlimit ▸ hle
    | input => exact Option.some.inj hlimit ▸ hle
    | output => cases hlimit
    | temp => cases hlimit

/-! ### Reading -/

/-- The stages of reading a program. -/
structure ReadFrom (data : Bytes) (comments : List Comment) (stop : Nat) (parts : Parts)
    (code : Bytes) (p : Program) : Prop where
  version : ∃ version, data.word 0 "preshader version" = .ok version ∧ version >>> 16 = versionTag
  readComments : Comment.readAll data 4 = .ok (comments, stop)
  ends : stop < data.size → data.word stop "preshader end token" = .ok endToken
  addComments : ({} : Parts).addAll comments = .ok parts
  code_eq : parts.code = some code
  readCode : readInstructions.runAt code 0 = .ok p.instructions
  inputs_eq : p.inputs = parts.inputs
  literals_eq : p.literals = parts.literals
  valid : p.Valid

/-- A program is read exactly if every stage succeeds. -/
lemma decode_eq_ok_iff {data : Bytes} :
    decode data = .ok p ↔ ∃ comments stop parts code, ReadFrom data comments stop parts code p := by
  unfold decode
  constructor
  · intro h
    obtain ⟨version, hversion, h⟩ := bind_eq_ok_iff.1 h
    obtain ⟨htag, h⟩ := guard_eq_ok_iff.1 h
    obtain ⟨⟨comments, stop⟩, hcomments, h⟩ := bind_eq_ok_iff.1 h
    obtain ⟨hstop, h⟩ := stage_eq_ok_iff.1 h
    obtain ⟨parts, hparts, h⟩ := bind_eq_ok_iff.1 h
    cases hcode : parts.code with
    | none =>
      rw [hcode] at h
      cases h
    | some code =>
      rw [hcode] at h
      obtain ⟨instructions, hinstructions, h⟩ := bind_eq_ok_iff.1 h
      obtain ⟨hcheck, h⟩ := then_eq_ok_iff.1 h
      cases h
      refine ⟨comments, stop, parts, code, ⟨version, hversion, not_not.1 htag⟩, hcomments, ?_,
        hparts, hcode, hinstructions, rfl, rfl, check_eq_ok_iff.1 hcheck⟩
      intro hlt
      obtain ⟨token, htoken, heq⟩ := hstop hlt
      rw [htoken, not_not.1 heq]
  · rintro ⟨comments, stop, parts, code, h⟩
    obtain ⟨version, hversion, htag⟩ := h.version
    refine bind_eq_ok_iff.2 ⟨version, hversion, guard_eq_ok_iff.2 ⟨not_not.2 htag, ?_⟩⟩
    refine bind_eq_ok_iff.2 ⟨(comments, stop), h.readComments, stage_eq_ok_iff.2 ⟨?_, ?_⟩⟩
    · exact fun hlt => ⟨endToken, h.ends hlt, not_not.2 rfl⟩
    refine bind_eq_ok_iff.2 ⟨parts, h.addComments, ?_⟩
    rw [h.code_eq]
    refine bind_eq_ok_iff.2 ⟨p.instructions, h.readCode, ?_⟩
    rw [← h.inputs_eq, ← h.literals_eq]
    exact then_eq_ok_iff.2 ⟨check_eq_ok_iff.2 h.valid, rfl⟩

end Program

end ShaderEffect
