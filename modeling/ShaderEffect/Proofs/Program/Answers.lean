import ShaderEffect.Program.Encode
import ShaderEffect.Proofs.Image.Writes
import ShaderEffect.Proofs.Program.Valid

/-!
# When written instructions are read

A computation answers a value under a condition if it succeeds exactly where the condition holds,
and then with that value (`AnswersIf`). Reading a written instruction answers the instruction it
stands for if there are no more than eight operands and no offset is too great; nothing else is
looked at.
-/

namespace ShaderEffect

variable {α β : Type}

/-! ### Conditions of success -/

/-- A computation succeeds exactly under a condition, and answers `a` then. -/
def AnswersIf (answer : Except FormatError α) (P : Prop) (a : α) : Prop :=
  ∀ x, answer = .ok x ↔ P ∧ x = a

namespace AnswersIf

variable {answer : Except FormatError α} {P Q : Prop} {a : α} {b : β}

lemma of_eq_ok (h : answer = .ok a) : AnswersIf answer True a := fun x => by
  rw [h, Except.ok.injEq, true_and, eq_comm]

lemma of_error {e : FormatError} (h : answer = .error e) (hP : ¬ P) : AnswersIf answer P a :=
  fun x => by
    rw [h]
    exact ⟨fun hx => (nomatch hx), fun hx => absurd hx.1 hP⟩

lemma eq_ok (h : AnswersIf answer P a) (hP : P) : answer = .ok a := (h a).2 ⟨hP, rfl⟩

lemma mono (h : AnswersIf answer P a) (hPQ : P ↔ Q) : AnswersIf answer Q a := fun x => by
  rw [h x, hPQ]

lemma bind {f : α → Except FormatError β} (h : AnswersIf answer P a)
    (hf : P → AnswersIf (f a) Q b) : AnswersIf (answer >>= f) (P ∧ Q) b := by
  intro x
  rw [bind_eq_ok_iff]
  constructor
  · rintro ⟨y, hy, hx⟩
    obtain ⟨hP, rfl⟩ := (h y).1 hy
    obtain ⟨hQ, rfl⟩ := (hf hP x).1 hx
    exact ⟨⟨hP, hQ⟩, rfl⟩
  · rintro ⟨⟨hP, hQ⟩, rfl⟩
    exact ⟨a, h.eq_ok hP, (hf hP).eq_ok hQ⟩

/-- The first step succeeds anyway. -/
lemma bind_ok {f : α → Except FormatError β} (h : answer = .ok a) (hf : AnswersIf (f a) Q b) :
    AnswersIf (answer >>= f) Q b :=
  ((of_eq_ok h).bind fun _ => hf).mono (by rw [true_and])

end AnswersIf

/-- Wherever data has the given bytes, a reader succeeds exactly under a condition; it answers `a`
then and goes on behind them. -/
def Reader.AnswersIf (reader : Reader α) (data : Bytes) (bs : List UInt8) (P : Prop) (a : α) :
    Prop :=
  ∀ position, data.Holds position bs →
    ShaderEffect.AnswersIf (reader data position) P (a, position + bs.length)

lemma Reader.Consumes.answersIf {reader : Reader α} {data : Bytes} {bs : List UInt8} {a : α}
    (h : reader.Consumes data bs a) : reader.AnswersIf data bs True a :=
  fun position hholds => .of_eq_ok (h position hholds)

namespace Reader.AnswersIf

variable {data : Bytes} {reader : Reader α} {bs cs : List UInt8} {P Q : Prop} {a : α} {b : β}

lemma mono (h : reader.AnswersIf data bs P a) (hPQ : P ↔ Q) : reader.AnswersIf data bs Q a :=
  fun position hholds => (h position hholds).mono hPQ

lemma bind {f : α → Reader β} (h : reader.AnswersIf data bs P a)
    (hf : P → (f a).AnswersIf data cs Q b) :
    (reader >>= f).AnswersIf data (bs ++ cs) (P ∧ Q) b := by
  intro position hholds
  obtain ⟨hfirst, hrest⟩ := Bytes.holds_append.1 hholds
  rw [List.length_append, ← Nat.add_assoc]
  exact (h position hfirst).bind fun hP => hf hP _ hrest

lemma bind_pure {f : α → β} (h : reader.AnswersIf data bs P a) :
    (reader >>= fun a => pure (f a)).AnswersIf data bs P (f a) := by
  have hboth := h.bind (f := fun a => pure (f a)) fun _ => (Consumes.pure (f a)).answersIf
  rw [List.append_nil] at hboth
  exact hboth.mono (by rw [and_true])

/-- The first step succeeds anyway. -/
lemma bind_consumes {f : α → Reader β} (h : reader.Consumes data bs a)
    (hf : (f a).AnswersIf data cs Q b) : (reader >>= f).AnswersIf data (bs ++ cs) Q b :=
  (h.answersIf.bind fun _ => hf).mono (by rw [true_and])

/-- The first step succeeds anyway and consumes nothing. -/
lemma bind_consumes_nil {f : α → Reader β} (h : reader.Consumes data [] a)
    (hf : (f a).AnswersIf data cs Q b) : (reader >>= f).AnswersIf data cs Q b :=
  bind_consumes h hf

lemma whole {f : Bytes → Except FormatError α} (h : ShaderEffect.AnswersIf (f data) P a) :
    (Reader.whole f).AnswersIf data [] P a := by
  intro position _
  have hwhole : Reader.whole f data position = f data >>= fun a => .ok (a, position) := by
    rw [Reader.whole]
    cases f data <;> rfl
  rw [hwhole]
  have hboth := h.bind (f := fun a => .ok (a, position)) fun _ => .of_eq_ok rfl
  exact hboth.mono (by rw [and_true])

/-- A guard in front of a reader. -/
lemma guard {c : Prop} [Decidable c] {e : FormatError} {rest : Unit → Reader α}
    (h : (rest ()).AnswersIf data bs P a) :
    Reader.AnswersIf (if c then throw e >>= rest else rest ()) data bs (¬ c ∧ P) a := by
  intro position hholds
  by_cases hc : c
  · rw [if_pos hc]
    exact .of_error rfl fun hboth => hboth.1 hc
  · rw [if_neg hc]
    exact (h position hholds).mono (by rw [iff_true_intro hc, true_and])

/-- As many values one after the other as things were written. -/
lemma times {act : Reader β} {written : List α} {bytes : α → List UInt8} {P : α → Prop}
    {value : α → β} (h : ∀ w ∈ written, act.AnswersIf data (bytes w) (P w) (value w)) :
    (Reader.times written.length act).AnswersIf data (written.flatMap bytes) (∀ w ∈ written, P w)
      (written.map value) := by
  induction written with
  | nil => exact (Consumes.times_zero act).answersIf.mono (by simp)
  | cons w rest ih =>
    rw [List.forall_mem_cons] at h
    rw [List.length_cons, Reader.times, repeated_succ]
    exact (h.1.bind fun _ => (ih h.2).bind_pure).mono List.forall_mem_cons.symm

lemma runAt (h : reader.AnswersIf data bs P a) {position : Nat} (hholds : data.Holds position bs) :
    ShaderEffect.AnswersIf (reader.runAt data position) P a := by
  have hrun : reader.runAt data position = reader data position >>= fun r => .ok r.1 := by
    rw [Reader.runAt]
    cases reader data position <;> rfl
  rw [hrun]
  have hboth := (h position hholds).bind (f := fun r => .ok r.1) fun _ => .of_eq_ok rfl
  exact hboth.mono (by rw [and_true])

end Reader.AnswersIf

/-! ### Operands -/

/-- The operand that stands in a program for one that is written. -/
def WrittenOperand.operand (r : WrittenOperand) : Operand where
  bank := r.bank
  offset := r.offset.toNat
  index := r.index.map fun (bank, offset) => ⟨bank, offset.toNat⟩

/-- The words that tell the index register of an operand. -/
def WrittenOperand.indexWords (r : WrittenOperand) : List UInt32 :=
  match r.index with
  | none => [0]
  | some (bank, offset) => [1, UInt32.ofNat bank.number, offset]

lemma WrittenOperand.words_eq (r : WrittenOperand) :
    r.words = r.indexWords ++ [UInt32.ofNat r.bank.number, r.offset] := rfl

/-- The instruction that stands in a program for one that is written. -/
def WrittenInstruction.instruction (ins : WrittenInstruction) : Instruction where
  opcode := ins.opcode
  scalar := ins.scalar
  components := ins.components.toNat
  inputs := ins.inputs.map WrittenOperand.operand
  output := ins.output.operand

/-- An instruction that can be read: it has at most eight operands, and no offset is too great. -/
structure WrittenInstruction.Readable (ins : WrittenInstruction) : Prop where
  inputs_le : ins.inputs.length ≤ 8
  offset_lt : ∀ r ∈ ins.inputs ++ [ins.output], r.offset.toNat < 2 ^ 31

namespace Program

open Word Image

variable {data : Bytes}

lemma bankOf_number (bank : Bank) : bankOf (UInt32.ofNat bank.number) = .ok bank := by
  cases bank <;> rfl

lemma consumes_bankOf (bank : Bank) :
    (liftM (bankOf (UInt32.ofNat bank.number)) : Reader Bank).Consumes data [] bank := by
  rw [bankOf_number]
  exact fun _ _ => rfl

lemma consumes_readIndex (r : WrittenOperand) :
    readIndex.Consumes data (listBytes r.indexWords) r.operand.index := by
  unfold readIndex WrittenOperand.indexWords WrittenOperand.operand
  cases r.index with
  | none => exact Reader.Consumes.bind_last (.word 0 _) (.pure none)
  | some found =>
    obtain ⟨bank, offset⟩ := found
    exact Reader.Consumes.bind (.word 1 _) <| .bind (.word _ _) <|
      .bind_nil (consumes_bankOf bank) <| .bind_pure (.word offset _)

/-- An operand is read if its offset is not too great. -/
lemma answersIf_readOperand (r : WrittenOperand) :
    readOperand.AnswersIf data (listBytes r.words) (r.offset.toNat < 2 ^ 31) r.operand := by
  have hwords : listBytes r.words = listBytes r.indexWords ++
      (bytes (UInt32.ofNat r.bank.number) ++ (bytes r.offset ++ [])) := by
    rw [WrittenOperand.words_eq, listBytes_append]
    rfl
  rw [hwords]
  refine .bind_consumes (consumes_readIndex r) <| .bind_consumes (.word _ _) <|
    .bind_consumes_nil (consumes_bankOf r.bank) <| .bind_consumes (.word r.offset _) ?_
  refine Reader.AnswersIf.mono (.guard (Reader.Consumes.pure r.operand).answersIf) ?_
  rw [and_true, UInt32.not_lt, UInt32.le_iff_toNat_le]
  exact Nat.lt_succ_iff.symm

/-! ### Instructions -/

/-- The fields of a token above the components. -/
def highFields (op : Opcode) (scalar : Bool) : UInt32 :=
  (if scalar then (0x80000000 : UInt32) else 0) ||| UInt32.ofNat op.number <<< 20

lemma highFields_eq (op : Opcode) (scalar : Bool) :
    (highFields op scalar).toNat = 2 ^ 16 * ((highFields op scalar).toNat / 2 ^ 16) ∧
      (highFields op scalar).toNat / 2 ^ 20 % 2 ^ 11 = op.number ∧
      ((highFields op scalar).toNat / 2 ^ 31 = 1 ↔ scalar = true) := by
  cases op <;> cases scalar <;> decide +kernel

/-- The components fill the lower half of a token, which the other fields leave out. -/
lemma toNat_token (ins : WrittenInstruction) (h : ins.components.toNat < 2 ^ 16) :
    ins.token.toNat = (highFields ins.opcode ins.scalar).toNat + ins.components.toNat := by
  have hhigh := (highFields_eq ins.opcode ins.scalar).1
  show (highFields ins.opcode ins.scalar ||| ins.components).toNat = _
  rw [UInt32.toNat_or, hhigh, Nat.two_pow_add_eq_or_of_lt h]

lemma token_fields (ins : WrittenInstruction) (h : ins.components.toNat < 2 ^ 16) :
    ((ins.token >>> 20) &&& 0x7FF).toNat = ins.opcode.number ∧
      (ins.token >>> 31 == 1) = ins.scalar ∧ (ins.token &&& 0xFFFF) = ins.components := by
  have htoken := toNat_token ins h
  obtain ⟨hhigh, hnumber, hscalar⟩ := highFields_eq ins.opcode ins.scalar
  refine ⟨?_, ?_, ?_⟩
  · rw [UInt32.toNat_and, UInt32.toNat_shiftRight,
      show (0x7FF : UInt32).toNat = 2 ^ 11 - 1 from rfl, Nat.and_two_pow_sub_one_eq_mod,
      Nat.shiftRight_eq_div_pow, htoken]
    show (_ + _) / 2 ^ 20 % 2 ^ 11 = _
    omega
  · rw [Bool.eq_iff_iff, beq_iff_eq, ← hscalar, ← UInt32.toNat_inj, UInt32.toNat_shiftRight,
      Nat.shiftRight_eq_div_pow, htoken]
    show (_ + _) / 2 ^ 31 = 1 ↔ _
    omega
  · rw [← UInt32.toNat_inj, UInt32.toNat_and, show (0xFFFF : UInt32).toNat = 2 ^ 16 - 1 from rfl,
      Nat.and_two_pow_sub_one_eq_mod, htoken]
    omega

/-- An instruction in bytes: its token, the number of its operands, and these. -/
lemma listBytes_words (ins : WrittenInstruction) : listBytes ins.words =
    bytes ins.token ++ (bytes (UInt32.ofNat ins.inputs.length) ++
      (ins.inputs.flatMap (fun r => listBytes r.words) ++ listBytes ins.output.words)) := by
  simp [WrittenInstruction.words, listBytes, List.flatMap_assoc]

lemma listBytes_flatMap_words (instructions : List WrittenInstruction) :
    listBytes (instructions.flatMap WrittenInstruction.words) =
      instructions.flatMap fun ins => listBytes ins.words := by
  simp [listBytes, List.flatMap_assoc]

lemma answersIf_readInstruction (ins : WrittenInstruction)
    (hcomponents : ins.components.toNat < 2 ^ 16) (hinputs : ins.inputs.length < 2 ^ 32) :
    readInstruction.AnswersIf data (listBytes ins.words) ins.Readable ins.instruction := by
  obtain ⟨hopcode, hscalar, hmask⟩ := token_fields ins hcomponents
  have hcount : (UInt32.ofNat ins.inputs.length).toNat = ins.inputs.length :=
    toNat_ofNat_of_lt hinputs
  have hlist : (Reader.times ins.inputs.length readOperand).AnswersIf data _ _ _ :=
    .times fun r _ => answersIf_readOperand r
  have hoperands : Reader.AnswersIf (do
      let inputs ← Reader.times ins.inputs.length readOperand
      let output ← readOperand
      return { ins.instruction with inputs, output }) data _ _ ins.instruction :=
    hlist.bind fun _ => (answersIf_readOperand ins.output).bind_pure
  rw [listBytes_words]
  unfold readInstruction
  refine .bind_consumes (.word _ _) ?_
  simp only [hopcode, Opcode.ofNumber?_number, hscalar, hmask]
  refine .bind_consumes (.word _ _) ?_
  rw [hcount]
  refine Reader.AnswersIf.mono (.guard hoperands) ?_
  rw [UInt32.not_lt, UInt32.le_iff_toNat_le, hcount]
  constructor
  · rintro ⟨hle, hoffsets, houtput⟩
    exact ⟨hle, List.forall_mem_append.2 ⟨hoffsets, List.forall_mem_singleton.2 houtput⟩⟩
  · rintro ⟨hle, hoffsets⟩
    rw [List.forall_mem_append, List.forall_mem_singleton] at hoffsets
    exact ⟨hle, hoffsets⟩

/-- Instructions are read if their number is not out of all proportion to the data. -/
lemma answersIf_readInstructions (instructions : List WrittenInstruction)
    (hcomponents : ∀ ins ∈ instructions, ins.components.toNat < 2 ^ 16)
    (hinputs : ∀ ins ∈ instructions, ins.inputs.length < 2 ^ 32)
    (hcount : instructions.length < 2 ^ 32) :
    readInstructions.AnswersIf data
      (bytes (UInt32.ofNat instructions.length) ++
        listBytes (instructions.flatMap WrittenInstruction.words))
      (instructions.length * 24 ≤ data.size ∧ ∀ ins ∈ instructions, ins.Readable)
      (instructions.map WrittenInstruction.instruction) := by
  rw [listBytes_flatMap_words]
  refine .bind_consumes (.word _ _) ?_
  rw [toNat_ofNat_of_lt hcount]
  have hwhole : AnswersIf (if data.size < instructions.length * 24 then
      .error (.tooManyInstructions instructions.length data.size) else .ok ())
      (instructions.length * 24 ≤ data.size) () := by
    by_cases hsize : data.size < instructions.length * 24
    · rw [if_pos hsize]
      exact .of_error rfl (Nat.not_le.2 hsize)
    · rw [if_neg hsize]
      exact (AnswersIf.of_eq_ok rfl).mono (iff_of_true trivial (Nat.le_of_not_lt hsize))
  exact Reader.AnswersIf.bind (.whole hwhole) fun _ => .times fun ins hins =>
    answersIf_readInstruction ins (hcomponents ins hins) (hinputs ins hins)

end Program

end ShaderEffect
