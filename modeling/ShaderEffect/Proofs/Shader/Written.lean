import ShaderEffect.Proofs.Program.Written
import ShaderEffect.Shader.Encode

/-!
# When written shaders are read

A shader that was written from entries and an optional program is read exactly if the program is,
and then nothing is lost: code, stage, version and program are the given ones, and the constant
table tells of each entry what the entry says (`Shader.exists_decode_encode_iff`).
-/

namespace ShaderEffect

open Word

/-! ### Entries as they are built -/

/-- Entries with the shapes that the builders of entries give, for any registers. -/
inductive ConstantEntry.Built : ConstantEntry → Prop
  | ofSet (name : String) (set : RegisterSet) (index count : UInt16) :
      Built (.ofSet name set index count)
  | float4 (name : String) (index count : UInt16) : Built (.float4 name index count)
  | matrix (e : ConstantEntry) (byColumns : Bool) (rows columns : UInt16) :
      Built (e.matrix byColumns rows columns)
  | untyped (e : ConstantEntry) : Built e.untyped
  | moved {e : ConstantEntry} (set : RegisterSet) (index count : UInt16) :
      Built e → Built { e with set, index, count }

/-- The shape of a constant is as it is stored. -/
structure StoredShape.Describes (s : StoredShape) (t : ConstantShape) : Prop where
  cls : t.cls.number = s.cls.toNat
  type : t.type.number = s.type.toNat
  rows : t.rows = s.rows.toNat
  columns : t.columns = s.columns.toNat
  elements : t.elements = s.elements.toNat

/-- A constant is as an entry says. -/
structure ConstantEntry.Describes (e : ConstantEntry) (c : Constant) : Prop where
  name : c.name = e.name
  set : c.set = e.set
  index : c.index = e.index.toNat
  count : c.count = e.count.toNat
  /-- The constant has a shape exactly if the entry has one. -/
  shape : Option.Rel StoredShape.Describes e.shape c.shape

namespace ConstantEntry

lemma Built.shape_describes {e : ConstantEntry} (h : e.Built) :
    Option.Rel StoredShape.Describes e.shape (e.shape.bind StoredShape.shape?) := by
  induction h with
  | ofSet name set index count => cases set <;> exact .some ⟨rfl, rfl, rfl, rfl, rfl⟩
  | float4 name index count => exact .some ⟨rfl, rfl, rfl, rfl, rfl⟩
  | matrix e byColumns rows columns => cases byColumns <;> exact .some ⟨rfl, rfl, rfl, rfl, rfl⟩
  | untyped e => exact .none
  | moved set index count _ ih => exact ih

lemma Built.describes {e : ConstantEntry} (h : e.Built) : e.Describes e.constant :=
  ⟨rfl, rfl, rfl, rfl, h.shape_describes⟩

lemma Built.hasMeaning {e : ConstantEntry} (h : e.Built) : e.HasMeaning := by
  intro s hs
  have hshape := h.shape_describes
  rw [Option.mem_def.1 hs] at hshape
  generalize hfound : (some s).bind StoredShape.shape? = found at hshape
  cases hshape with
  | some _ =>
    rw [show s.shape? = _ from hfound]
    rfl

end ConstantEntry

namespace Shader

/-! ### Comments of a shader -/

/-- The comments of a written shader: code and body. -/
def comments (entries : List ConstantEntry) (program : Option (List UInt8)) :
    List (UInt32 × List UInt8) :=
  (Comment.constantTable, ConstantTable.encode entries) ::
    program.toList.map fun code => (Comment.program, code)

/-- A shader that can be written: names have no NUL, the program consists of words, and the lengths
of comments in words fit half a word. -/
structure Writable (entries : List ConstantEntry) (program : Option (List UInt8)) : Prop where
  names : ∀ e ∈ entries, '\u0000' ∉ e.name.toList
  words : ∀ code ∈ program, code.length % 4 = 0
  comments : ∀ c ∈ comments entries program, (Comment.payload c.1 c.2).length / 4 ≤ 65535

lemma encode_eq (stage : Stage) (entries : List ConstantEntry) (program : Option (List UInt8)) :
    encode stage entries program = bytes (stage.tag <<< 16 ||| 0x0200) ++
      ((comments entries program).flatMap (fun c => Comment.encode c.1 c.2) ++
        bytes Program.endToken) := by
  unfold encode comments
  cases program <;> simp

lemma length_encode_mod (stage : Stage) (entries : List ConstantEntry)
    (program : Option (List UInt8)) : (encode stage entries program).length % 4 = 0 := by
  have hcomments : ∀ written : List (UInt32 × List UInt8),
      (written.flatMap fun c => Comment.encode c.1 c.2).length % 4 = 0 := by
    intro written
    induction written with
    | nil => rfl
    | cons c rest ih =>
      have hpayload := Comment.length_payload c.1 c.2
      rw [List.flatMap_cons, List.length_append, Comment.encode_eq, List.length_append,
        length_bytes]
      omega
  have hall := hcomments (comments entries program)
  rw [encode_eq, List.length_append, List.length_append, length_bytes, length_bytes]
  omega

variable {entries : List ConstantEntry} {program : Option (List UInt8)}

/-! ### Stages of reading -/

lemma readAll_encode (stage : Stage) (h : Writable entries program) :
    ∃ stop, Comment.readAll (encode stage entries program).toArray 4 =
      .ok ((comments entries program).map fun c => ⟨c.1, (padded c.2).toArray⟩, stop) := by
  have hholds : Bytes.Holds (encode stage entries program).toArray 4
      ((comments entries program).flatMap (fun c => Comment.encode c.1 c.2) ++
        bytes Program.endToken) := by
    refine ⟨bytes (stage.tag <<< 16 ||| 0x0200), [], ?_, rfl⟩
    rw [encode_eq, List.append_nil]
  exact ⟨_, Comment.readAll_encodes hholds
    (fun c hc => Nat.lt_succ_of_le (h.comments c hc)) (by decide)⟩

/-- The program that comes with a shader, if one does. -/
def readProgram : Option (List UInt8) → Except FormatError (Option Program)
  | none => .ok none
  | some code => do return some (← Program.decode code.toArray)

lemma decode_constantTable (h : Writable entries program) (hentries : ∀ e ∈ entries, e.Built) :
    ConstantTable.decode (padded (ConstantTable.encode entries)).toArray =
      .ok (ConstantTable.written entries) := by
  have hle := h.comments _ List.mem_cons_self
  dsimp only at hle
  rw [Comment.payload_eq, List.length_append, length_bytes] at hle
  have hanswers := ConstantTable.answersIf_decode entries (WrittenProgram.holds_padded _) h.names
    (show _ < 2 ^ 32 by rw [List.size_toArray]; omega)
  exact hanswers.eq_ok fun e he => (hentries e he).hasMeaning

lemma addAll_comments (h : Writable entries program) (hentries : ∀ e ∈ entries, e.Built) :
    ({} : Parts).addAll ((comments entries program).map fun c => ⟨c.1, (padded c.2).toArray⟩) =
      readProgram program >>= fun found => .ok ⟨ConstantTable.written entries, found⟩ := by
  have htable : ({} : Parts).add
      ⟨Comment.constantTable, (padded (ConstantTable.encode entries)).toArray⟩ =
      .ok { constants := ConstantTable.written entries } := by
    rw [Parts.add, if_pos rfl, bind_of_eq_ok (decode_constantTable h hentries)]
    rfl
  rw [comments, List.map_cons, Parts.addAll, bind_of_eq_ok htable]
  cases hprogram : program with
  | none => rfl
  | some code =>
    have hpadded : padded code = code := by
      rw [padded, padding, h.words code hprogram]
      exact List.append_nil code
    show Parts.addAll _ [⟨Comment.program, (padded code).toArray⟩] = _
    rw [hpadded, Parts.addAll, Parts.add,
      if_neg (show Comment.program ≠ Comment.constantTable by decide), if_pos rfl, readProgram]
    cases Program.decode code.toArray <;> rfl

lemma token_fields (stage : Stage) :
    Stage.ofTag? ((stage.tag <<< 16 ||| 0x0200) >>> 16) = some stage ∧
    ((stage.tag <<< 16 ||| 0x0200) >>> 8).toUInt8 = 2 ∧
    (stage.tag <<< 16 ||| 0x0200).toUInt8 = 0 := by
  cases stage <;> decide

/-- To read a written shader is to read its program. -/
lemma decode_encode_eq (stage : Stage) (h : Writable entries program)
    (hentries : ∀ e ∈ entries, e.Built) :
    decode (encode stage entries program).toArray = readProgram program >>= fun found => .ok {
      stage
      major := 2
      minor := 0
      code := (encode stage entries program).toArray
      constants := ConstantTable.written entries
      program := found } := by
  have hversion : Bytes.Holds (encode stage entries program).toArray 0
      (bytes (stage.tag <<< 16 ||| 0x0200)) := ⟨[], _, encode_eq .., rfl⟩
  obtain ⟨hstage, hmajor, hminor⟩ := token_fields stage
  obtain ⟨stop, hcomments⟩ := readAll_encode stage h
  have hlength : ¬(encode stage entries program).toArray.size % 4 ≠ 0 :=
    not_not.2 (length_encode_mod stage entries program)
  rw [decode, bind_of_eq_ok (hversion.word _)]
  simp only [hstage, hmajor, hminor, if_neg hlength]
  rw [bind_of_eq_ok hcomments]
  show ({} : Parts).addAll _ >>= _ = _
  rw [addAll_comments h hentries]
  cases readProgram program <;> rfl

/-- The program that comes with a shader is read exactly if it is there as what is read. -/
lemma readProgram_eq_ok_iff {found : Option Program} : readProgram program = .ok found ↔
    Option.Rel (fun code p => Program.decode code.toArray = .ok p) program found := by
  cases program with
  | none =>
    constructor
    · rintro ⟨⟩
      exact .none
    · rintro ⟨⟩
      rfl
  | some code =>
    rw [readProgram, bind_eq_ok_iff]
    constructor
    · rintro ⟨p, hp, ⟨⟩⟩
      exact .some hp
    · rintro ⟨hp⟩
      exact ⟨_, hp, rfl⟩

/-! ### Shaders -/

/-- What a shader that is read has to do with what was written. -/
structure IsReadAs (stage : Stage) (entries : List ConstantEntry) (program : Option (List UInt8))
    (s : Shader) : Prop where
  stage_eq : s.stage = stage
  version : (s.major, s.minor) = (2, 0)
  code_eq : s.code = (encode stage entries program).toArray
  /-- The constants are those of the entries, in order. -/
  constants : List.Forall₂ ConstantEntry.Describes entries s.constants.constants
  /-- There is a program exactly if one was written, and it is what that is read as. -/
  program : Option.Rel (fun code p => Program.decode code.toArray = .ok p) program s.program

/-- Reading a written shader succeeds exactly if there is no program or the program can be read, and
then gives back what was written. -/
theorem exists_decode_encode_iff (stage : Stage) (entries : List ConstantEntry)
    (program : Option (List UInt8)) (h : Writable entries program)
    (hentries : ∀ e ∈ entries, e.Built) :
    ((∃ s, decode (encode stage entries program).toArray = .ok s) ↔
      ∀ code ∈ program, ∃ p, Program.decode code.toArray = .ok p) ∧
    ∀ s, decode (encode stage entries program).toArray = .ok s →
      s.IsReadAs stage entries program := by
  have hconstants : List.Forall₂ ConstantEntry.Describes entries
      (ConstantTable.written entries).constants :=
    List.forall₂_map_right_iff.2 (List.forall₂_same.2 fun e he => (hentries e he).describes)
  rw [decode_encode_eq stage h hentries]
  simp only [bind_eq_ok_iff, readProgram_eq_ok_iff]
  refine ⟨⟨?_, fun hprogram => ?_⟩, ?_⟩
  · rintro ⟨s, found, hfound, -⟩ code rfl
    cases hfound with
    | some hp => exact ⟨_, hp⟩
  · cases program with
    | none => exact ⟨_, none, .none, rfl⟩
    | some code =>
      obtain ⟨p, hp⟩ := hprogram code rfl
      exact ⟨_, some p, .some hp, rfl⟩
  · rintro s ⟨found, hfound, ⟨⟩⟩
    exact ⟨rfl, rfl, rfl, hconstants, hfound⟩

/-- The constants of a shader with a matrix, a sampler and another one of unknown shape. -/
def transforming : List ConstantEntry := [
  (ConstantEntry.ofSet "world" .float4 0 3).matrix true 4 3,
  .ofSet "map" .sampler 0 1,
  (ConstantEntry.ofSet "height" .sampler 1 1).untyped]

/-- A vertex shader with a program that scales is read as it was written. -/
theorem exists_decode_encode_iff_transforming :
    Writable transforming (some WrittenProgram.scaling.encode) ∧
      (∀ e ∈ transforming, e.Built) ∧
      ∃ s, decode (encode .vertex transforming (some WrittenProgram.scaling.encode)).toArray =
          .ok s ∧
        s.IsReadAs .vertex transforming (some WrittenProgram.scaling.encode) := by
  have hwritable : Writable transforming (some WrittenProgram.scaling.encode) :=
    ⟨by decide, by decide +kernel, by decide +kernel⟩
  have hbuilt : ∀ e ∈ transforming, e.Built := by
    simpa [transforming] using
      ⟨.matrix _ true 4 3, .ofSet "map" .sampler 0 1, .untyped _⟩
  have hprogram : ∃ p, Program.decode WrittenProgram.scaling.encode.toArray = .ok p :=
    ⟨_, (WrittenProgram.answersIf_decode ⟨by decide, by decide, by decide +kernel⟩).eq_ok
      ⟨by decide, by decide, Program.check_eq_ok_iff.1 rfl⟩⟩
  obtain ⟨hiff, hread⟩ := exists_decode_encode_iff .vertex transforming _ hwritable hbuilt
  obtain ⟨s, hs⟩ := hiff.2 fun code hcode => Option.mem_some.1 hcode ▸ hprogram
  exact ⟨hwritable, hbuilt, s, hs, hread s hs⟩

end Shader

end ShaderEffect
