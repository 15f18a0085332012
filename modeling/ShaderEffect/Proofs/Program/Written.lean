import ShaderEffect.Proofs.Program.Comments

/-!
# When written programs are read

A written program is read exactly if it is valid and its input table has a meaning, and then nothing
is lost: literals, inputs and instructions are the given ones.
-/

namespace ShaderEffect

open Word

variable {data : Bytes}

/-! ### Literals -/

lemma longs_longBytes (ws : List UInt64) : longs (ofList (ws.flatMap longBytes)) = ws := by
  induction ws with
  | nil => rfl
  | cons w ws ih =>
    rw [List.flatMap_cons, longBytes, List.append_assoc, ofList_bytes_append,
      ofList_bytes_append, longs, ofHalves_halves, ih]

namespace Program

lemma readLiterals_eq_ok {literals : List Double}
    (h : data.Holds 0 (bytes (UInt32.ofNat literals.length) ++
      literals.flatMap fun x => longBytes x.bits)) (hcount : literals.length < 2 ^ 32) :
    readLiterals data = .ok literals := by
  obtain ⟨hlength, hpool⟩ := Bytes.holds_append.1 h
  have hbytes : (literals.flatMap fun x => longBytes x.bits).length = literals.length * 8 := by
    rw [List.length_flatMap]
    simp [longBytes]
  have hslice := hpool.slice "literal pool"
  rw [hbytes, length_bytes, Nat.zero_add] at hslice
  rw [readLiterals, bind_of_eq_ok (hlength.word _), Image.toNat_ofNat_of_lt hcount,
    bind_of_eq_ok hslice]
  have hwords : (literals.flatMap fun x => longBytes x.bits) =
      (literals.map (·.bits)).flatMap longBytes := by
    rw [List.flatMap_map]
  rw [List.toList_toArray, hwords, longs_longBytes, List.map_map]
  exact congrArg _ (List.map_id _)

end Program

/-! ### Programs -/

namespace WrittenProgram

/-- The comments of a program: code and body. -/
def comments (w : WrittenProgram) : List (UInt32 × List UInt8) :=
  (if w.inputs.isEmpty then [] else [(Comment.constantTable, ConstantTable.encode w.inputs)]) ++
    [(Comment.literals, w.literalBytes), (Comment.instructions, w.instructionBytes)]

lemma encode_eq (w : WrittenProgram) :
    w.encode = bytes (Program.versionTag <<< 16 ||| 0x0200) ++
      ((w.comments.flatMap fun c => Comment.encode c.1 c.2) ++ bytes Program.endToken) := by
  unfold encode comments
  cases w.inputs.isEmpty <;> simp

/-- A program that can be written: names have no NUL, component counts stay out of the other fields
of a token, and the lengths of comments in words fit half a word. -/
structure Writable (w : WrittenProgram) : Prop where
  names : ∀ e ∈ w.inputs, '\u0000' ∉ e.name.toList
  components : ∀ ins ∈ w.instructions, ins.components.toNat ≤ 65535
  comments : ∀ c ∈ w.comments, (Comment.payload c.1 c.2).length / 4 ≤ 65535

/-- The program that is read where one was written. -/
def program (w : WrittenProgram) : Program where
  inputs := if w.inputs.isEmpty then .empty else ConstantTable.written w.inputs
  literals := w.literals
  instructions := w.instructions.map WrittenInstruction.instruction

/-- What makes a written program acceptable: the shapes of inputs have a meaning, no offset is too
great, and what stands there is valid. -/
structure Acceptable (w : WrittenProgram) : Prop where
  shapes : ∀ e ∈ w.inputs, e.HasMeaning
  offsets : ∀ ins ∈ w.instructions, ∀ r ∈ ins.inputs ++ [ins.output], r.offset.toNat < 2 ^ 31
  valid : w.program.Valid

variable {w : WrittenProgram}

/-! ### Sizes -/

lemma three_le_length_words (r : WrittenOperand) : 3 ≤ r.words.length := by
  unfold WrittenOperand.words
  cases r.index <;> simp

lemma length_words_le (ins : WrittenInstruction) :
    5 + 3 * ins.inputs.length ≤ ins.words.length := by
  have hoperands : ∀ rs : List WrittenOperand,
      3 * rs.length ≤ (rs.flatMap WrittenOperand.words).length := by
    intro rs
    induction rs with
    | nil => simp
    | cons r rs ih =>
      have hr := three_le_length_words r
      rw [List.flatMap_cons, List.length_append, List.length_cons]
      omega
  have hall := hoperands (ins.inputs ++ [ins.output])
  rw [List.length_append, List.length_singleton] at hall
  rw [WrittenInstruction.words, List.length_append]
  simp only [List.length_cons, List.length_nil]
  omega

lemma length_instructionBytes (w : WrittenProgram) :
    w.instructionBytes.length =
      4 + 4 * (w.instructions.flatMap WrittenInstruction.words).length := by
  rw [instructionBytes, List.length_append, length_bytes, Image.length_listBytes]

/-- The code of a program is at least as long as so many words for each instruction. -/
lemma length_instructionBytes_ge {n : Nat} (h : ∀ ins ∈ w.instructions, n ≤ ins.words.length) :
    4 + 4 * (w.instructions.length * n) ≤ w.instructionBytes.length := by
  have hsum : ∀ is : List WrittenInstruction, (∀ ins ∈ is, n ≤ ins.words.length) →
      is.length * n ≤ (is.flatMap WrittenInstruction.words).length := by
    intro is his
    induction is with
    | nil => simp
    | cons ins is ih =>
      rw [List.forall_mem_cons] at his
      have hrest := ih his.2
      rw [List.flatMap_cons, List.length_append, List.length_cons, Nat.add_mul]
      omega
  have hall := hsum w.instructions h
  rw [length_instructionBytes]
  omega

lemma length_literalBytes (w : WrittenProgram) :
    w.literalBytes.length = 4 + w.literals.length * 8 := by
  rw [literalBytes, List.length_append, length_bytes, List.length_flatMap]
  simp [longBytes]

lemma length_instructions_lt_length_instructionBytes (w : WrittenProgram) :
    w.instructions.length < w.instructionBytes.length := by
  have hge := length_instructionBytes_ge (w := w) (n := 1) fun ins _ => by
    have := length_words_le ins
    omega
  omega

/-- Every operand takes three words at least. -/
lemma length_inputs_lt_length_instructionBytes {ins : WrittenInstruction}
    (hins : ins ∈ w.instructions) : 12 * ins.inputs.length < w.instructionBytes.length := by
  have hwords := length_words_le ins
  have hone : ins.words.length ≤ (w.instructions.flatMap WrittenInstruction.words).length := by
    obtain ⟨before, after, hsplit⟩ := List.append_of_mem hins
    rw [hsplit, List.flatMap_append, List.flatMap_cons, List.length_append, List.length_append]
    omega
  rw [length_instructionBytes]
  omega

lemma length_le_length_padded (bs : List UInt8) : bs.length ≤ (padded bs).length := by
  rw [padded, List.length_append]
  omega

lemma holds_padded (bs : List UInt8) : Bytes.Holds (padded bs).toArray 0 bs :=
  ⟨[], List.replicate (padding bs.length) 0, rfl, rfl⟩

/-- The body of a comment of a writable program, padded. -/
lemma Writable.length_padded_lt (h : w.Writable) {code : UInt32} {body : List UInt8}
    (hmem : (code, body) ∈ w.comments) : (padded body).length < 2 ^ 18 := by
  have hle := h.comments _ hmem
  dsimp only at hle
  rw [Comment.payload_eq, List.length_append, length_bytes] at hle
  omega

/-- No count in a writable program overflows. -/
lemma Writable.length_literals_lt (h : w.Writable) : w.literals.length < 2 ^ 32 := by
  have hmem : (Comment.literals, w.literalBytes) ∈ w.comments :=
    List.mem_append_right _ List.mem_cons_self
  have hlt := h.length_padded_lt hmem
  have hle := length_le_length_padded w.literalBytes
  rw [length_literalBytes] at hle
  omega

lemma Writable.length_code_lt (h : w.Writable) : (padded w.instructionBytes).length < 2 ^ 18 :=
  h.length_padded_lt (List.mem_append_right _ (List.mem_cons_of_mem _ List.mem_cons_self))

lemma Writable.length_instructions_lt (h : w.Writable) : w.instructions.length < 2 ^ 32 := by
  have hlt := h.length_code_lt
  have hle := length_le_length_padded w.instructionBytes
  have hcount := length_instructions_lt_length_instructionBytes w
  omega

lemma Writable.length_inputs_lt (h : w.Writable) :
    ∀ ins ∈ w.instructions, ins.inputs.length < 2 ^ 32 := by
  intro ins hins
  have hlt := h.length_code_lt
  have hle := length_le_length_padded w.instructionBytes
  have hcount := length_inputs_lt_length_instructionBytes hins
  omega

/-! ### Stages -/

lemma holds_comments (w : WrittenProgram) : Bytes.Holds w.encode.toArray 4
    ((w.comments.flatMap fun c => Comment.encode c.1 c.2) ++ bytes Program.endToken) := by
  refine ⟨bytes (Program.versionTag <<< 16 ||| 0x0200), [], ?_, rfl⟩
  rw [encode_eq, List.append_nil]

lemma readAll_encode (h : w.Writable) :
    ∃ stop, Comment.readAll w.encode.toArray 4 =
        .ok (w.comments.map fun c => ⟨c.1, (padded c.2).toArray⟩, stop) ∧
      Bytes.word w.encode.toArray stop "preshader end token" = .ok Program.endToken :=
  ⟨_, Comment.readAll_encodes (holds_comments w) (fun c hc => Nat.lt_succ_of_le (h.comments c hc))
    (by decide), (Bytes.holds_append.1 (holds_comments w)).2.word _⟩

lemma answersIf_addAll (h : w.Writable) :
    AnswersIf (({} : Program.Parts).addAll (w.comments.map fun c => ⟨c.1, (padded c.2).toArray⟩))
      (∀ e ∈ w.inputs, e.HasMeaning)
      ⟨w.program.inputs, w.literals, some (padded w.instructionBytes).toArray⟩ := by
  have hliterals : Program.readLiterals (padded w.literalBytes).toArray = .ok w.literals :=
    Program.readLiterals_eq_ok (holds_padded _) h.length_literals_lt
  unfold comments program
  have htail : ∀ parts : Program.Parts,
      parts.addAll [⟨Comment.literals, (padded w.literalBytes).toArray⟩,
        ⟨Comment.instructions, (padded w.instructionBytes).toArray⟩] =
      .ok ⟨parts.inputs, w.literals, some (padded w.instructionBytes).toArray⟩ := by
    intro parts
    have hadd : parts.add ⟨Comment.literals, (padded w.literalBytes).toArray⟩ =
        .ok { parts with literals := w.literals } := by
      rw [Program.Parts.add, if_neg (show Comment.literals ≠ Comment.constantTable by decide),
        if_pos rfl, bind_of_eq_ok hliterals]
      rfl
    rw [Program.Parts.addAll, bind_of_eq_ok hadd]
    rfl
  cases hinputs : w.inputs with
  | nil => exact (AnswersIf.of_eq_ok (htail _)).mono (by simp)
  | cons e rest =>
    have hmem : (Comment.constantTable, ConstantTable.encode w.inputs) ∈ w.comments := by
      rw [comments, hinputs]
      exact List.mem_cons_self
    have hsize := h.length_padded_lt hmem
    have htable := ConstantTable.answersIf_decode w.inputs (holds_padded _) h.names
      (show _ < 2 ^ 32 by rw [List.size_toArray]; omega)
    have hadd : AnswersIf (({} : Program.Parts).add
        ⟨Comment.constantTable, (padded (ConstantTable.encode w.inputs)).toArray⟩)
        (∀ e ∈ w.inputs, e.HasMeaning) { inputs := ConstantTable.written w.inputs } := by
      rw [Program.Parts.add, if_pos rfl]
      have hboth := htable.bind
        (b := ({ inputs := ConstantTable.written w.inputs } : Program.Parts))
        (f := fun t => .ok { inputs := t }) fun _ => .of_eq_ok rfl
      exact hboth.mono (by rw [and_true])
    rw [hinputs] at hadd
    exact AnswersIf.mono (hadd.bind fun _ => .of_eq_ok (htail _)) (by rw [and_true])

lemma answersIf_readCode (h : w.Writable) :
    AnswersIf (Program.readInstructions.runAt (padded w.instructionBytes).toArray 0)
      (w.instructions.length * 24 ≤ (padded w.instructionBytes).length ∧
        ∀ ins ∈ w.instructions, ins.Readable) w.program.instructions := by
  exact (Program.answersIf_readInstructions w.instructions
    (fun ins hins => Nat.lt_succ_of_le (h.components ins hins)) h.length_inputs_lt
    h.length_instructions_lt).runAt (holds_padded _)

lemma arities_bounds (op : Opcode) : ∀ n ∈ op.arities, 1 ≤ n ∧ n ≤ 8 := by
  cases op <;> decide

/-- The number of instructions is no obstacle to acceptable programs. -/
lemma Acceptable.readable (h : w.Acceptable) :
    w.instructions.length * 24 ≤ (padded w.instructionBytes).length ∧
      ∀ ins ∈ w.instructions, ins.Readable := by
  have hbounds : ∀ ins ∈ w.instructions, 1 ≤ ins.inputs.length ∧ ins.inputs.length ≤ 8 := by
    intro ins hins
    have hwell := h.valid.wellFormed _ (List.mem_map_of_mem hins)
    have harity : (ins.inputs.map WrittenOperand.operand).length ∈ ins.opcode.arities :=
      hwell.inputs
    rw [List.length_map] at harity
    exact arities_bounds _ _ harity
  constructor
  · have hge := length_instructionBytes_ge (w := w) (n := 6) fun ins hins => by
      have hwords := length_words_le ins
      have hone := (hbounds ins hins).1
      omega
    have hle := length_le_length_padded w.instructionBytes
    omega
  · exact fun ins hins => ⟨(hbounds ins hins).2, h.offsets ins hins⟩

/-- A writable program is read exactly if it is acceptable, and as the program it stands for. -/
lemma answersIf_decode (h : w.Writable) :
    AnswersIf (Program.decode w.encode.toArray) w.Acceptable w.program := by
  obtain ⟨stop, hcomments, hend⟩ := readAll_encode h
  intro p
  rw [Program.decode_eq_ok_iff]
  constructor
  · rintro ⟨comments, stop', parts, code, hread⟩
    obtain ⟨rfl, -⟩ : _ = comments ∧ stop = stop' := by
      simpa using hcomments.symm.trans hread.readComments
    obtain ⟨hshapes, rfl⟩ := (answersIf_addAll h parts).1 hread.addComments
    obtain rfl := Option.some.inj hread.code_eq
    obtain ⟨⟨-, hreadable⟩, hinstructions⟩ := (answersIf_readCode h _).1 hread.readCode
    have heq : p = w.program := by
      obtain ⟨inputs, literals, instructions⟩ := p
      obtain rfl : inputs = _ := hread.inputs_eq
      obtain rfl : literals = _ := hread.literals_eq
      obtain rfl : instructions = _ := hinstructions
      rfl
    exact ⟨⟨hshapes, fun ins hins => (hreadable ins hins).offset_lt, heq ▸ hread.valid⟩, heq⟩
  · rintro ⟨hok, rfl⟩
    have hversion : Bytes.Holds w.encode.toArray 0
        (bytes (Program.versionTag <<< 16 ||| 0x0200)) := ⟨[], _, encode_eq w, rfl⟩
    exact ⟨_, stop, _, _, ⟨_, hversion.word _, by decide⟩, hcomments, fun _ => hend,
      (answersIf_addAll h).eq_ok hok.shapes, rfl, (answersIf_readCode h).eq_ok hok.readable, rfl,
      rfl, hok.valid⟩

/-- What a program that is read has to do with the one that was written. -/
structure IsReadAs (w : WrittenProgram) (p : Program) : Prop where
  literals_eq : p.literals = w.literals
  constants_eq : p.inputs.constants = w.inputs.map ConstantEntry.constant
  instructions_eq : p.instructions = w.instructions.map WrittenInstruction.instruction
  /-- The input bank is as short as the entries that are no samplers allow. -/
  inputLength_le_iff : ∀ n, p.inputLength ≤ n ↔
    ∀ e ∈ w.inputs, e.set ≠ .sampler → (e.index.toNat + e.count.toNat) * 4 ≤ n
  dvd_outputLength : 4 ∣ p.outputLength
  /-- The output bank is as short as whole registers over all stretches in it allow. -/
  outputLength_le_iff : ∀ n, 4 ∣ n → (p.outputLength ≤ n ↔
    ∀ ins ∈ p.instructions, ∀ stop, (.output, stop) ∈ ins.stretches → stop ≤ n)

lemma isReadAs_program (w : WrittenProgram) : w.IsReadAs w.program where
  literals_eq := rfl
  constants_eq := by
    unfold program
    cases w.inputs <;> rfl
  instructions_eq := rfl
  inputLength_le_iff n := by
    have hconstants : w.program.inputs.constants = w.inputs.map ConstantEntry.constant := by
      unfold program
      cases w.inputs <;> rfl
    rw [Program.inputLength, ConstantTable.componentCount, hconstants, foldl_max_le_iff]
    simp only [ConstantEntry.constant, Constant.componentEnd, Nat.zero_le, true_and,
      List.mem_filter, List.mem_map, bne_iff_ne, and_imp, forall_exists_index,
      forall_apply_eq_imp_iff₂]
    constructor
    · exact fun hle e he hset => hle _ e he hset rfl
    · rintro hle _ e he hset rfl
      exact hle e he hset
  dvd_outputLength := Nat.dvd_mul_left ..
  outputLength_le_iff n hn := by
    rw [← Program.bankEnd_le_iff, Program.outputLength]
    omega

/-- Reading a written program succeeds exactly if it is acceptable, and then gives back its
literals, its inputs and its instructions, with banks that are just long enough. -/
theorem accepts_iff_acceptable (w : WrittenProgram) (h : w.Writable) :
    ((∃ p, Program.decode w.encode.toArray = .ok p) ↔ w.Acceptable) ∧
      ∀ p, Program.decode w.encode.toArray = .ok p → w.IsReadAs p := by
  have hanswers := answersIf_decode h
  refine ⟨⟨fun ⟨p, hp⟩ => ((hanswers p).1 hp).1, fun hok => ⟨_, hanswers.eq_ok hok⟩⟩,
    fun p hp => ?_⟩
  obtain ⟨-, rfl⟩ := (hanswers p).1 hp
  exact isReadAs_program w

/-- A vector times a literal. -/
def scaling : WrittenProgram where
  literals := [⟨0x4000000000000000⟩]
  inputs := [.float4 "x" 0 1]
  instructions := [
    { opcode := .mul, components := 4
      inputs := [⟨.literal, 0, none, true⟩, ⟨.input, 0, none, false⟩]
      output := ⟨.output, 0, none, false⟩ }]

theorem accepts_iff_acceptable_scaling : scaling.Writable ∧
    ∃ p, Program.decode scaling.encode.toArray = .ok p ∧ scaling.IsReadAs p := by
  have hwritable : scaling.Writable := ⟨by decide, by decide, by decide +kernel⟩
  have hacceptable : scaling.Acceptable :=
    ⟨by decide, by decide, Program.check_eq_ok_iff.1 rfl⟩
  obtain ⟨hiff, hread⟩ := accepts_iff_acceptable scaling hwritable
  obtain ⟨p, hp⟩ := hiff.2 hacceptable
  exact ⟨hwritable, p, hp, hread p hp⟩

/-- A program that copies an input whose shape has a class without a meaning. -/
def unknownClass : WrittenProgram where
  literals := []
  inputs := [⟨"x", .float4, 0, 1, some ⟨9, 3, 1, 4, 1⟩⟩]
  instructions := [
    { opcode := .mov, components := 4
      inputs := [⟨.input, 0, none, false⟩]
      output := ⟨.output, 0, none, false⟩ }]

/-- Valid instructions are not enough: the shapes of inputs count as well. -/
theorem decode_unknownClass_ne_ok : unknownClass.Writable ∧
    (∀ ins ∈ unknownClass.instructions, ∀ r ∈ ins.inputs ++ [ins.output], r.offset.toNat < 2 ^ 31) ∧
    unknownClass.program.Valid ∧ ∀ p, Program.decode unknownClass.encode.toArray ≠ .ok p := by
  have hwritable : unknownClass.Writable := ⟨by decide, by decide, by decide +kernel⟩
  refine ⟨hwritable, by decide, Program.check_eq_ok_iff.1 rfl, fun p hp => ?_⟩
  have hshapes := ((answersIf_decode hwritable p).1 hp).1.shapes
  exact absurd hshapes (by decide)

end WrittenProgram

end ShaderEffect
