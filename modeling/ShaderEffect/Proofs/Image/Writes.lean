import ShaderEffect.Proofs.Image.Consumes
import ShaderEffect.Proofs.Image.Described

/-!
# What writers leave

Writers add to a region of data and answer words that are to be put there later, or into records. If
the region they leave stands at the front of data, then so did the one before, and what was added is
found where the writer says (`Writer.Writes`). So names and types that are written can be read.
-/

namespace ShaderEffect.Image

variable {α β : Type} {data : Bytes}

/-! ### Regions in data -/

lemma toNat_ofNat_of_lt {n : Nat} (h : n < 2 ^ 32) : (UInt32.ofNat n).toNat = n :=
  UInt32.toNat_ofNat_of_lt' h

/-- The length that is kept with a region is its length. -/
def Region.Counted (r : Region) : Prop := r.length = r.reversed.length

/-- A region stands at the front of data, and all places in it can be numbered. -/
structure Region.Within (r : Region) (data : Bytes) : Prop where
  holds : data.Holds 0 r.reversed.reverse
  length_lt : r.length < 2 ^ 32

/-- If the region that a writer leaves stands in data then so does the one it started from. Its
answer then has a property, at least if the data starts with the empty name, to which nameless
things point. -/
def Writer.Writes (w : Writer α) (data : Bytes) (P : α → Prop) : Prop :=
  ∀ r, r.Counted → (w r).2.Counted ∧
    ((w r).2.Within data → r.Within data ∧ (data.Holds 0 (Word.bytes 0) → P (w r).1))

namespace Writer.Writes

variable {w : Writer α} {P Q : α → Prop}

lemma pure {a : α} (h : P a) : (Pure.pure a : Writer α).Writes data P :=
  fun _ hr => ⟨hr, fun hwithin => ⟨hwithin, fun _ => h⟩⟩

lemma mono (h : w.Writes data P) (hPQ : ∀ a, P a → Q a) : w.Writes data Q := by
  intro r hr
  obtain ⟨hcounted, hback⟩ := h r hr
  refine ⟨hcounted, fun hwithin => ?_⟩
  obtain ⟨hfirst, hP⟩ := hback hwithin
  exact ⟨hfirst, fun hempty => hPQ _ (hP hempty)⟩

/-- What is known of the first answer is known when the second one is looked at. -/
lemma bind {f : α → Writer β} {R : β → Prop} (h : w.Writes data P)
    (hf : ∀ a, (f a).Writes data fun b => P a → R b) : (w >>= f).Writes data R := by
  intro r hr
  obtain ⟨hbetween, hback⟩ := h r hr
  obtain ⟨hcounted, hback'⟩ := hf (w r).1 (w r).2 hbetween
  refine ⟨hcounted, fun hwithin => ?_⟩
  obtain ⟨hwithin', himp⟩ := hback' hwithin
  obtain ⟨hfirst, hP⟩ := hback hwithin'
  exact ⟨hfirst, fun hempty => himp hempty (hP hempty)⟩

end Writer.Writes

/-- Bytes that are added are found where the region ended. -/
lemma writes_emit (bs : List UInt8) :
    (do let offset ← here; emit bs; return offset : Writer UInt32).Writes data fun offset =>
      data.Holds offset.toNat bs ∧ bs.length < 2 ^ 32 := by
  intro r hr
  constructor
  · show r.length + bs.length = (bs.reverse ++ r.reversed).length
    rw [hr, List.length_append, List.length_reverse, Nat.add_comm]
  · intro hwithin
    have hlt : r.length + bs.length < 2 ^ 32 := hwithin.length_lt
    have hholds : data.Holds 0 (bs.reverse ++ r.reversed).reverse := hwithin.holds
    rw [List.reverse_append, List.reverse_reverse, Bytes.holds_append, Nat.zero_add,
      List.length_reverse, ← hr] at hholds
    have hoffset : (UInt32.ofNat r.length).toNat = r.length :=
      toNat_ofNat_of_lt (by omega)
    refine ⟨⟨hholds.1, by omega⟩, fun _ => ⟨?_, by omega⟩⟩
    show data.Holds (UInt32.ofNat r.length).toNat bs
    rw [hoffset]
    exact hholds.2

lemma length_listBytes (ws : List UInt32) : (Word.listBytes ws).length = 4 * ws.length := by
  simp [Word.listBytes, List.length_flatMap, Nat.mul_comm]

lemma listBytes_nil : Word.listBytes [] = [] := rfl

lemma listBytes_cons (w : UInt32) (ws : List UInt32) :
    Word.listBytes (w :: ws) = Word.bytes w ++ Word.listBytes ws :=
  List.flatMap_cons

lemma listBytes_append (ws ws' : List UInt32) :
    Word.listBytes (ws ++ ws') = Word.listBytes ws ++ Word.listBytes ws' :=
  List.flatMap_append

lemma writes_emitWords (ws : List UInt32) :
    (emitWords ws).Writes data fun offset =>
      data.Holds offset.toNat (Word.listBytes ws) ∧ 4 * ws.length < 2 ^ 32 := by
  refine (writes_emit _).mono fun offset h => ⟨h.1, ?_⟩
  rw [← length_listBytes]
  exact h.2

/-! ### Names -/

/-- Bytes of UTF-8 never have all bits, and only the character that ends names has a zero byte. -/
lemma byte_of_mem_utf8EncodeChar {c : Char} {b : UInt8} (h : b ∈ String.utf8EncodeChar c) :
    b ≠ 0xFF ∧ (c ≠ '\u0000' → b ≠ 0) := by
  have hlt : c.val.toNat < 0x110000 := by
    have := c.valid
    simp only [UInt32.isValidChar, Nat.isValidChar] at this
    omega
  have hbyte : ∀ n : Nat, b = UInt8.ofNat n → n % 256 < 0xFF → (c.val.toNat ≠ 0 → 0 < n % 256) →
      b ≠ 0xFF ∧ (c ≠ '\u0000' → b ≠ 0) := by
    rintro n rfl hn hpos
    simp only [ne_eq, ← UInt8.toNat_inj, UInt8.toNat_ofNat']
    exact ⟨Nat.ne_of_lt hn, fun hc => Nat.ne_of_gt (hpos fun hzero =>
      hc (Char.ext (UInt32.toNat_inj.1 hzero)))⟩
  simp only [String.utf8EncodeChar] at h
  split at h
  · exact hbyte _ (List.mem_singleton.1 h) (by omega) (by omega)
  · split at h
    · simp only [List.mem_cons, List.not_mem_nil, or_false] at h
      rcases h with h | h <;> exact hbyte _ h (by omega) (by omega)
    · split at h <;> simp only [List.mem_cons, List.not_mem_nil, or_false] at h
      · rcases h with h | h | h <;> exact hbyte _ h (by omega) (by omega)
      · rcases h with h | h | h | h <;> exact hbyte _ h (by omega) (by omega)

lemma toList_toUTF8 (text : String) :
    text.toUTF8.data.toList = text.toList.flatMap String.utf8EncodeChar := by
  rw [String.toUTF8_eq_toByteArray, ← String.utf8Encode_toList, List.utf8Encode]
  simp

lemma notMem_toUTF8 {text : String} (h : '\u0000' ∉ text.toList) :
    0 ∉ text.toUTF8.data.toList := by
  rw [toList_toUTF8, List.mem_flatMap]
  rintro ⟨c, hc, hmem⟩
  exact (byte_of_mem_utf8EncodeChar hmem).2 (fun heq => h (heq ▸ hc)) rfl

/-- A text without NUL is all that stands before the first zero. -/
lemma takeWhile_toUTF8 {text : String} (h : '\u0000' ∉ text.toList) (rest : List UInt8) :
    (text.toUTF8.data.toList ++ 0 :: rest).takeWhile (· != 0) = text.toUTF8.data.toList := by
  rw [List.takeWhile_append_of_pos]
  · simp
  · intro b hb
    have hne : b ≠ 0 := fun heq => notMem_toUTF8 h (heq ▸ hb)
    simpa using hne

lemma utf8?_toUTF8 (text : String) : Bytes.utf8? text.toUTF8.data.toList = some text := by
  simp [Bytes.utf8?, String.fromUTF8?, String.fromUTF8, text.isValidUTF8]

lemma boundedText_toUTF8 {text : String} (h : '\u0000' ∉ text.toList) :
    Bytes.boundedText (text.toUTF8.data.toList ++ [0]).toArray = .ok text := by
  rw [Bytes.boundedText, Bytes.beforeZero, List.toList_toArray, takeWhile_toUTF8 h, utf8?_toUTF8]

lemma consumes_readName {offset : UInt32} {text : String} (h : '\u0000' ∉ text.toList)
    (hholds : data.Holds offset.toNat (nameBytes text)) (hlt : (nameBytes text).length < 2 ^ 32) :
    (readName offset).Consumes data [] (some text) := by
  obtain ⟨chars, hchars⟩ : ∃ chars, chars = text.toUTF8.data.toList ++ [0] := ⟨_, rfl⟩
  have hname : nameBytes text = Word.bytes (UInt32.ofNat chars.length) ++ Word.padded chars := by
    rw [nameBytes, hchars]
  rw [hname, Word.padded] at hlt hholds
  simp only [List.length_append, Word.length_bytes] at hlt
  obtain ⟨hlength, hchars'⟩ := Bytes.holds_append.1 hholds
  obtain ⟨hchars', -⟩ := Bytes.holds_append.1 hchars'
  rw [Word.length_bytes] at hchars'
  have hcount : (UInt32.ofNat chars.length).toNat = chars.length :=
    toNat_ofNat_of_lt (by omega)
  have hne : UInt32.ofNat chars.length ≠ 0 := by
    intro hzero
    rw [hzero, hchars] at hcount
    simp at hcount
  apply Reader.Consumes.whole
  rw [hlength.word]
  show (if UInt32.ofNat chars.length = 0 then _ else _) = _
  rw [if_neg hne, hcount]
  show (data.slice (offset.toNat + 4) chars.length "name" >>= _) = _
  rw [hchars'.slice, hchars]
  show (Bytes.boundedText _ >>= _) = _
  rw [boundedText_toUTF8 h]
  rfl

/-- A name is read where it was written. -/
lemma writes_emitName (name : Option String) :
    (emitName name).Writes data fun offset =>
      IsPlain name → (readName offset).Consumes data [] name := by
  cases name with
  | none =>
    refine fun r hr => ⟨hr, fun hwithin => ⟨hwithin, fun hempty _ => .whole ?_⟩⟩
    show (data.word 0 "name length" >>= _) = _
    rw [hempty.word]
    rfl
  | some text =>
    exact (writes_emit _).mono fun offset h hplain =>
      consumes_readName (hplain text rfl) h.1 h.2

/-! ### Types -/

namespace TypeDef

mutual

/-- How many levels a type has: structs one inside the other, and what stands in the last one. -/
def height : TypeDef → Nat
  | .mk d members => if d.cls = .struct then heights members + 1 else 1

/-- The most levels that one of several types has. -/
def heights : List TypeDef → Nat
  | [] => 0
  | t :: rest => max t.height (heights rest)

end

end TypeDef

lemma number_of_ofNumber? {n : Nat} {cls : ParameterClass}
    (h : ParameterClass.ofNumber? n = some cls) : n = cls.number := by
  unfold ParameterClass.ofNumber? at h
  split at h <;> cases h <;> rfl

/-- The declaration that a type reads as. -/
abbrev declared (name semantic : Option String) (cls : ParameterClass) (type : ParameterType)
    (elements rows columns : UInt32) : Declaration :=
  ⟨name, semantic, cls, type, (cls.shape rows columns).1, (cls.shape rows columns).2, elements⟩

lemma exists_of_def?_eq_some {type cls elements rows columns : UInt32}
    {name semantic : Option String} {members : List WrittenType} {td : TypeDef}
    (h : (WrittenType.mk type cls name semantic elements rows columns members).def? = some td) :
    ∃ (type' : ParameterType) (cls' : ParameterClass) (members' : List TypeDef),
      ParameterType.ofNumber? type.toNat = some type' ∧
      ParameterClass.ofNumber? cls.toNat = some cls' ∧
      (if cls' = .struct then WrittenType.defs? members else some []) = some members' ∧
      IsPlain name ∧ IsPlain semantic ∧
      isConsistent (declared name semantic cls' type' elements rows columns) = true ∧
      td = .mk (declared name semantic cls' type' elements rows columns) members' := by
  rw [WrittenType.def?] at h
  obtain ⟨type', htype, h⟩ := Option.bind_eq_some_iff.1 h
  obtain ⟨cls', hcls, h⟩ := Option.bind_eq_some_iff.1 h
  obtain ⟨members', hmembers, h⟩ := Option.bind_eq_some_iff.1 h
  split at h
  case isTrue hall =>
    obtain ⟨hname, hsemantic, hconsistent⟩ := hall
    exact ⟨type', cls', members', htype, hcls, hmembers, hname, hsemantic, hconsistent,
      (Option.some.inj h).symm⟩
  case isFalse => cases h

lemma consumes_readShape (cls : ParameterClass) (rows columns : UInt32) :
    (readShape cls).Consumes data
      (Word.listBytes (shapeWords (UInt32.ofNat cls.number) rows columns))
      (cls.shape rows columns) := by
  cases cls with
  | vector => exact (Reader.Consumes.word columns _).bind_pure (f := fun c => (1, c))
  | scalar | matrixRows | matrixColumns =>
    exact (Reader.Consumes.word rows _).bind
      ((Reader.Consumes.word columns _).bind_pure (f := fun c => (rows, c)))
  | object | struct => exact .pure _

/-- What stands behind the shape of a type: for a struct, its members. -/
inductive Tail (data : Bytes) (depth : Nat) :
    ParameterClass → List UInt32 → List TypeDef → Prop
  | none {cls : ParameterClass} : cls ≠ .struct → Tail data depth cls [] []
  | members {count : UInt32} {ws : List UInt32} {members : List TypeDef} :
      count.toNat * 20 ≤ data.size →
      (Reader.times count.toNat (readType depth)).Consumes data (Word.listBytes ws) members →
      Tail data depth .struct (count :: ws) members

/-- A type is read from its words if its names are read and its members are. -/
lemma consumes_readType {type cls nameOffset semanticOffset elements rows columns : UInt32}
    {name semantic : Option String} {type' : ParameterType} {cls' : ParameterClass} {depth : Nat}
    {ws : List UInt32} {members : List TypeDef}
    (htype : ParameterType.ofNumber? type.toNat = some type')
    (hcls : ParameterClass.ofNumber? cls.toNat = some cls')
    (hname : (readName nameOffset).Consumes data [] name)
    (hsemantic : (readName semanticOffset).Consumes data [] semantic)
    (hconsistent : isConsistent (declared name semantic cls' type' elements rows columns) = true)
    (htail : Tail data depth cls' ws members) :
    (readType (depth + 1)).Consumes data
      (Word.listBytes ([type, cls, nameOffset, semanticOffset, elements] ++
        (shapeWords cls rows columns ++ ws)))
      (.mk (declared name semantic cls' type' elements rows columns) members) := by
  have hnumber : cls = UInt32.ofNat cls'.number := by
    rw [← number_of_ofNumber? hcls]
    exact UInt32.ofNat_toNat.symm
  -- Whatever the class is, the declaration is checked last.
  have hend : ∀ members, (if isConsistent (declared name semantic cls' type' elements rows columns)
      then return .mk (declared name semantic cls' type' elements rows columns) members
      else throw (.inconsistentType cls' type' (cls'.shape rows columns).1.toNat
        (cls'.shape rows columns).2.toNat) : Reader TypeDef).Consumes data []
      (.mk (declared name semantic cls' type' elements rows columns) members) := by
    intro members
    rw [if_pos hconsistent]
    exact .pure _
  rw [readType]
  refine (Reader.Consumes.word type _).bind ((Reader.Consumes.word cls _).bind ?_)
  rw [htype, hcls]
  dsimp only
  refine (Reader.Consumes.word nameOffset _).bind (hname.bind_nil ?_)
  refine (Reader.Consumes.word semanticOffset _).bind (hsemantic.bind_nil ?_)
  refine (Reader.Consumes.word elements _).bind ?_
  rw [hnumber]
  show Reader.Consumes _ data
    (Word.listBytes (shapeWords (UInt32.ofNat cls'.number) rows columns ++ ws)) _
  rw [listBytes_append]
  refine (consumes_readShape cls' rows columns).bind ?_
  cases htail with
  | none hstruct =>
    cases cls' <;> first | exact absurd rfl hstruct | exact hend []
  | members hcount hmembers =>
    refine (Reader.Consumes.word _ _).bind ((Reader.Consumes.checkCount hcount _).bind_nil ?_)
    exact hmembers.bind_last (hend members)

/-- Words from which a type is read, wherever they stand. -/
def SpellsType (data : Bytes) (t : WrittenType) (ws : List UInt32) : Prop :=
  5 ≤ ws.length ∧ ∀ td, t.def? = some td → 4 * ws.length < 2 ^ 32 →
    ∀ depth, td.height ≤ depth → (readType depth).Consumes data (Word.listBytes ws) td

/-- Words from which several types are read one after the other. -/
def SpellsTypes (data : Bytes) (ts : List WrittenType) (ws : List UInt32) : Prop :=
  5 * ts.length ≤ ws.length ∧ ∀ tds, WrittenType.defs? ts = some tds → 4 * ws.length < 2 ^ 32 →
    ∀ depth, TypeDef.heights tds ≤ depth →
      (Reader.times ts.length (readType depth)).Consumes data (Word.listBytes ws) tds

section

variable {type cls elements rows columns nameOffset semanticOffset : UInt32}
  {name semantic : Option String} {members : List WrittenType} {ws : List UInt32}
  (hname : IsPlain name → (readName nameOffset).Consumes data [] name)
  (hsemantic : IsPlain semantic → (readName semanticOffset).Consumes data [] semantic)
include hname hsemantic

lemma spellsType_struct (hmembers : SpellsTypes data members ws) :
    SpellsType data (.mk type 5 name semantic elements rows columns members)
      ([type, 5, nameOffset, semanticOffset, elements] ++ UInt32.ofNat members.length :: ws) := by
  constructor
  · simp
  intro td htd hlt depth hdepth
  obtain ⟨type', cls', members', htype, hcls, hdefs, hplain, hplain', hconsistent, rfl⟩ :=
    exists_of_def?_eq_some htd
  cases hcls
  rw [if_pos rfl] at hdefs
  rw [TypeDef.height, if_pos rfl] at hdepth
  obtain ⟨hle, hread⟩ := hmembers
  simp only [List.length_append, List.length_cons, List.length_nil] at hlt
  have hcount : (UInt32.ofNat members.length).toNat = members.length :=
    toNat_ofNat_of_lt (by omega)
  cases depth with
  | zero => exact absurd hdepth (Nat.not_succ_le_zero _)
  | succ depth =>
    apply Reader.Consumes.of_length_le
    intro hsize
    simp only [length_listBytes, List.length_append, List.length_cons, List.length_nil] at hsize
    refine consumes_readType htype rfl (hname hplain) (hsemantic hplain') hconsistent
      (.members (by omega) ?_)
    rw [hcount]
    exact hread members' hdefs (by omega) depth (by omega)

lemma spellsType_of_ne_struct (hne : cls ≠ 5) :
    SpellsType data (.mk type cls name semantic elements rows columns members)
      ([type, cls, nameOffset, semanticOffset, elements] ++ shapeWords cls rows columns) := by
  constructor
  · simp
  intro td htd hlt depth hdepth
  obtain ⟨type', cls', members', htype, hcls, hdefs, hplain, hplain', hconsistent, rfl⟩ :=
    exists_of_def?_eq_some htd
  have hcls' : cls' ≠ .struct := by
    rintro rfl
    exact hne (UInt32.toNat_inj.1 (number_of_ofNumber? hcls))
  rw [if_neg hcls'] at hdefs
  cases hdefs
  rw [TypeDef.height, if_neg hcls'] at hdepth
  cases depth with
  | zero => exact absurd hdepth (Nat.not_succ_le_zero _)
  | succ depth =>
    have htail : Tail data depth cls' [] [] := .none hcls'
    have hread := consumes_readType htype hcls (hname hplain) (hsemantic hplain') hconsistent
      htail
    rwa [List.append_nil] at hread

end

mutual

lemma writes_typeWords (t : WrittenType) : (typeWords t).Writes data (SpellsType data t) := by
  match t with
  | .mk type cls name semantic elements rows columns members =>
    rw [typeWords]
    refine (writes_emitName name).bind fun nameOffset => (writes_emitName semantic).bind
      fun semanticOffset => ?_
    dsimp only
    split
    case isTrue hstruct =>
      subst hstruct
      exact (writes_typesWords members).bind fun ws => .pure fun hmembers hsemantic hname =>
        spellsType_struct hname hsemantic hmembers
    case isFalse hne =>
      exact .pure fun hsemantic hname => spellsType_of_ne_struct hname hsemantic hne

lemma writes_typesWords (ts : List WrittenType) :
    (typesWords ts).Writes data (SpellsTypes data ts) := by
  match ts with
  | [] =>
    refine .pure ⟨by simp, ?_⟩
    intro tds htds _ depth _
    cases htds
    exact .times_zero _
  | t :: rest =>
    rw [typesWords]
    refine (writes_typeWords t).bind fun ws => (writes_typesWords rest).bind
      fun ws' => .pure ?_
    intro hrest ht
    constructor
    · rw [List.length_cons, List.length_append]
      have := ht.1
      have := hrest.1
      omega
    · intro tds htds hlt depth hdepth
      rw [WrittenType.defs?] at htds
      obtain ⟨td, htd, htds⟩ := Option.bind_eq_some_iff.1 htds
      obtain ⟨others, hothers, htds⟩ := Option.bind_eq_some_iff.1 htds
      cases htds
      rw [TypeDef.heights] at hdepth
      rw [List.length_append] at hlt
      rw [listBytes_append]
      exact .times_succ (ht.2 td htd (by omega) depth (by omega))
        (hrest.2 others hothers (by omega) depth (by omega))

end

variable (data) in
/-- A type stands at an offset in data. -/
def StandsType (offset : UInt32) (t : WrittenType) : Prop :=
  ∀ td, t.def? = some td → ∀ depth, td.height ≤ depth →
    (Reader.elsewhere offset.toNat (readType depth)).Consumes data [] td

lemma writes_emitType (t : WrittenType) :
    (emitType t).Writes data fun offset => StandsType data offset t := by
  refine (writes_typeWords t).bind fun ws => (writes_emitWords ws).mono ?_
  intro offset hoffset ht td htd depth hdepth
  exact (ht.2 td htd hoffset.2 depth hdepth).elsewhere hoffset.1

end ShaderEffect.Image
