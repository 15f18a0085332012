import ShaderEffect.Proofs.Image.Shallow
import ShaderEffect.Proofs.Image.Writes

/-!
# Values that are written

Content describes a value by what a type takes from a list of items, and a stored value is read by
what a type consumes of a list of words. Both go through the type in the same order: where a filler
takes items, the reader consumes the words that spell them (`ReadBy`). So a value that was written
can be read (`stands_of_node?`), unless it stands too deep.
-/

namespace ShaderEffect

variable {α : Type} {objectCount : UInt32} {data : Bytes} {p : Place}

/-! ### Depth -/

/-- What a filler made was made of what it took first and of what it took then. -/
lemma Filler.exists_of_bind_eq_some {α β : Type} {filler : Filler α} {f : α → Filler β}
    {items rest : List Item} {b : β} (h : (filler >>= f) items = some (b, rest)) :
    ∃ a between, filler items = some (a, between) ∧ f a between = some (b, rest) := by
  obtain ⟨⟨a, between⟩, hfirst, hrest⟩ := Option.bind_eq_some_iff.1 h
  exact ⟨a, between, hfirst, hrest⟩

namespace Image

/-- An array has elements, so that what holds of the elements of shallow values holds. -/
lemma of_elements_eq_some {d : Declaration} {one : Filler Node} {P : Prop} {items rest : List Item}
    {n : Node} (hone : ∀ items n rest, one items = some (n, rest) → n.Shallow p → P)
    (h : Filler.elements d one items = some (n, rest)) (hn : n.Shallow p) : P := by
  rw [Filler.elements] at h
  split at h
  case isTrue => exact hone items n rest h hn
  case isFalse helements =>
    have hpos : d.elements.toNat ≠ 0 := fun hzero => helements (UInt32.toNat_inj.1 hzero)
    obtain ⟨k, hk⟩ := Nat.exists_eq_succ_of_ne_zero hpos
    rw [hk, repeated_succ] at h
    obtain ⟨elements, between, helements', h⟩ := Filler.exists_of_bind_eq_some h
    cases h
    obtain ⟨first, between', hfirst, h⟩ := Filler.exists_of_bind_eq_some helements'
    obtain ⟨others, _, _, h⟩ := Filler.exists_of_bind_eq_some h
    cases h
    exact hone items first between' hfirst (hn.element first List.mem_cons_self)

mutual

/-- A type has no more levels than are left for a value that is not too deep. -/
lemma depth_add_height_le (p : Place) (type : TypeDef) {items rest : List Item} {n : Node}
    (h : Filler.one objectCount type items = some (n, rest)) (hn : n.Shallow p) :
    p.depth + type.height ≤ depthLimit := by
  match type with
  | .mk d inner =>
    have hlt := hn.depth_lt
    rw [TypeDef.height]
    split
    case isTrue hcls =>
      rw [Filler.one, hcls] at h
      obtain ⟨members, between, hmembers, h⟩ := Filler.exists_of_bind_eq_some h
      cases h
      have hle := depth_add_heights_le p.member inner hmembers hn.member
        (by rw [Place.depth_member]; omega)
      rw [Place.depth_member] at hle
      omega
    case isFalse => omega

lemma depth_add_heights_le (p : Place) (types : List TypeDef) {items rest : List Item}
    {ns : List Node} (h : Filler.members objectCount types items = some (ns, rest))
    (hns : ∀ n ∈ ns, n.Shallow p) (hp : p.depth ≤ depthLimit) :
    p.depth + TypeDef.heights types ≤ depthLimit := by
  match types with
  | [] => exact hp
  | .mk d inner :: others =>
    rw [Filler.members] at h
    obtain ⟨n, between, hfirst, h⟩ := Filler.exists_of_bind_eq_some h
    obtain ⟨ns', between', hothers, h⟩ := Filler.exists_of_bind_eq_some h
    cases h
    have hle : p.depth + (TypeDef.mk d inner).height ≤ depthLimit :=
      of_elements_eq_some (fun _ _ _ hone => depth_add_height_le p (.mk d inner) hone) hfirst
        (hns n List.mem_cons_self)
    have hle' := depth_add_heights_le p others hothers
      (fun n hn => hns n (List.mem_cons_of_mem _ hn)) hp
    rw [TypeDef.heights]
    omega

end

/-! ### Items in words -/

variable (objectCount data) in
/-- A type and a value in data: the value is read wherever there is room for its depth. -/
def Stands (typeOffset valueOffset : UInt32) (n : Node) : Prop :=
  ∀ (depth : Nat) (p : Place), p.depth + depth = depthLimit → p.structs = 0 → n.Shallow p →
    (readTyped objectCount depth typeOffset valueOffset).Consumes data n.count [] n

variable (objectCount data) in
/-- Words that are records of state assignments. -/
inductive SpellsStates : List (Assignment Node) → List UInt32 → Prop
  | nil : SpellsStates [] []
  | cons {operation index typeOffset valueOffset : UInt32} {n : Node}
      {states : List (Assignment Node)} {ws : List UInt32} : operation.toNat < StateTable.size →
      Stands objectCount data typeOffset valueOffset n → SpellsStates states ws →
      SpellsStates (⟨operation, index, n⟩ :: states)
        (operation :: index :: typeOffset :: valueOffset :: ws)

lemma SpellsStates.length_eq {states : List (Assignment Node)} {ws : List UInt32}
    (h : SpellsStates objectCount data states ws) : ws.length = 4 * states.length := by
  induction h with
  | nil => rfl
  | cons _ _ _ ih =>
    simp only [List.length_cons, ih]
    omega

variable (objectCount data) in
/-- Words that stand for items. Of the words for states that describe nothing nothing is known. -/
inductive SpellsItems : List Item → List UInt32 → Prop
  | nil : SpellsItems [] []
  | word {w : UInt32} {items : List Item} {ws : List UInt32} : SpellsItems items ws →
      SpellsItems (.word w :: items) (w :: ws)
  | sampler {states : Option (List (Assignment Node))} {count : UInt32} {items : List Item}
      {inner ws : List UInt32} :
      (∀ found, states = some found → count.toNat = found.length ∧
        SpellsStates objectCount data found inner) →
      SpellsItems items ws → SpellsItems (.sampler states :: items) (count :: inner ++ ws)

/-- Where a filler takes items a reader consumes the words that stand for them, at least if what is
taken is good. -/
def ReadBy (objectCount : UInt32) (data : Bytes) (filler : Filler α) (reader : NodeReader α)
    (used : α → Nat) (good : α → Prop) : Prop :=
  ∀ (items rest : List Item) (a : α) (ws : List UInt32), filler items = some (a, rest) →
    SpellsItems objectCount data items ws → good a →
    ∃ front back, ws = front ++ back ∧ SpellsItems objectCount data rest back ∧
      reader.Consumes data (used a) (Word.listBytes front) a

namespace ReadBy

variable {filler : Filler α} {reader : NodeReader α} {used : α → Nat} {good : α → Prop}

lemma word (field : String) :
    ReadBy objectCount data Filler.word (liftM (Reader.word field)) (fun _ => 0) fun _ => True := by
  intro items rest w ws hfill hspells _
  match items, hfill with
  | .word _ :: _, rfl =>
    cases hspells with
    | word hrest => exact ⟨[w], _, rfl, hrest, .lift (.word w field)⟩

/-- To make a node of what was read is to count the node first. -/
lemma node {g : α → Node} (h : ReadBy objectCount data filler reader used good)
    (hcount : ∀ a, (g a).count = used a + 1) (hgood : ∀ a, (g a).Shallow p → good a) :
    ReadBy objectCount data (do return g (← filler)) (do takeNode; return g (← reader)) Node.count
      (Node.Shallow p) := by
  intro items rest n ws hfill hspells hn
  obtain ⟨a, between, hfirst, hreturn⟩ := Filler.exists_of_bind_eq_some hfill
  cases hreturn
  obtain ⟨front, back, hws, hrest, hread⟩ :=
    h items rest a ws hfirst hspells (hgood a hn)
  refine ⟨front, back, hws, hrest, ?_⟩
  rw [hcount, Nat.add_comm]
  exact NodeReader.Consumes.takeNode.bind hread.bind_pure

lemma nil : ReadBy objectCount data (pure [] : Filler (List α)) (pure [])
    (fun as => (as.map used).sum) fun as => ∀ a ∈ as, good a := by
  intro items rest as ws hfill hspells _
  cases hfill
  exact ⟨[], ws, rfl, hspells, .pure []⟩

lemma cons {others : Filler (List α)} {reader' : NodeReader (List α)}
    (h : ReadBy objectCount data filler reader used good)
    (hothers : ReadBy objectCount data others reader' (fun as => (as.map used).sum)
      fun as => ∀ a ∈ as, good a) :
    ReadBy objectCount data (do let a ← filler; return a :: (← others))
      (do let a ← reader; return a :: (← reader')) (fun as => (as.map used).sum)
      fun as => ∀ a ∈ as, good a := by
  intro items rest as ws hfill hspells hgood
  obtain ⟨a, between, hfirst, hfill⟩ := Filler.exists_of_bind_eq_some hfill
  obtain ⟨as', between', hthen, hreturn⟩ := Filler.exists_of_bind_eq_some hfill
  cases hreturn
  rw [List.forall_mem_cons] at hgood
  obtain ⟨front, back, rfl, hback, hread⟩ := h items between a ws hfirst hspells hgood.1
  obtain ⟨front', back', rfl, hback', hread'⟩ :=
    hothers between rest as' back hthen hback hgood.2
  refine ⟨front ++ front', back', (List.append_assoc ..).symm, hback', ?_⟩
  rw [listBytes_append]
  exact hread.bind hread'.bind_pure

lemma repeated (h : ReadBy objectCount data filler reader used good) (n : Nat) :
    ReadBy objectCount data (repeated filler n []) (repeated reader n [])
      (fun as => (as.map used).sum) fun as => ∀ a ∈ as, good a := by
  induction n with
  | zero => exact nil
  | succ n ih =>
    rw [repeated_succ, repeated_succ]
    exact h.cons ih

end ReadBy

/-! ### Values -/

variable (objectCount data p) in
/-- A reader of the states of a sampler at a place. -/
def ReadsSampler (reader : NodeReader (List (Assignment Node))) : Prop :=
  ∀ (count : UInt32) (states : List (Assignment Node)) (ws : List UInt32),
    count.toNat = states.length → SpellsStates objectCount data states ws →
    (∀ s ∈ states, s.value.Shallow p.state) →
    reader.Consumes data (Node.countOfStates states) (Word.listBytes (count :: ws)) states

lemma readBy_states {readSampler : NodeReader (List (Assignment Node))}
    (hsampler : ReadsSampler objectCount data p readSampler) :
    ReadBy objectCount data Filler.states readSampler Node.countOfStates
      fun states => ∀ s ∈ states, s.value.Shallow p.state := by
  intro items rest states ws hfill hspells hshallow
  match items, hfill with
  | .sampler (some _) :: _, rfl =>
    cases hspells with
    | @sampler _ count _ inner _ hstates hrest =>
      obtain ⟨hcount, hinner⟩ := hstates states rfl
      exact ⟨count :: inner, _, rfl, hrest, hsampler count states inner hcount hinner hshallow⟩

lemma readBy_object (d : Declaration) :
    ReadBy objectCount data (Filler.object objectCount d) (do takeNode; readObject objectCount d)
      Node.count (Node.Shallow p) := by
  intro items rest n ws hfill hspells _
  obtain ⟨id, between, hid, hfill⟩ := Filler.exists_of_bind_eq_some hfill
  obtain ⟨front, back, hws, hrest, hread⟩ :=
    ReadBy.word "object id" items between id ws hid hspells trivial
  split at hfill
  case isTrue hlt =>
    cases hfill
    refine ⟨front, back, hws, hrest, ?_⟩
    have hcount : (if d.type = .unsupported then Node.unsupported d else .object d id).count =
        1 + 0 := by
      split <;> rfl
    rw [hcount]
    refine NodeReader.Consumes.takeNode.bind (hread.bind_last ?_)
    rw [if_neg (UInt32.not_le.2 hlt)]
    exact .pure _
  case isFalse => cases hfill

/-- The elements of an array are read one after the other. -/
lemma readBy_elements {d : Declaration} {one : Filler Node} {readOne : NodeReader Node}
    (h : ReadBy objectCount data one readOne Node.count (Node.Shallow p)) :
    ReadBy objectCount data (Filler.elements d one) (expand d readOne) Node.count
      (Node.Shallow p) := by
  rw [Filler.elements, expand]
  split
  · exact h
  · refine (h.repeated _).node (fun elements => ?_) fun elements hshallow => hshallow.element
    rw [Node.count, Node.countOf_eq_sum]

section

variable {readSampler : NodeReader (List (Assignment Node))}

mutual

lemma readBy_one (p : Place) (hsampler : ReadsSampler objectCount data p readSampler)
    (type : TypeDef) :
    ReadBy objectCount data (Filler.one objectCount type) (readOne objectCount readSampler type)
      Node.count (Node.Shallow p) := by
  match type with
  | .mk d inner =>
    rw [Filler.one, readOne]
    cases d.cls with
    | struct =>
      -- States of samplers stand at the same place however many structs are around the sampler.
      refine (readBy_members p.member hsampler inner).node (fun members => ?_)
        fun members hshallow => hshallow.member
      rw [Node.count, Node.countOf_eq_sum]
    | object =>
      dsimp only
      split
      · exact (readBy_states hsampler).node (fun states => rfl) fun states hshallow =>
          hshallow.state
      · exact readBy_object d.element
    | _ =>
      refine ((ReadBy.word "parameter value").repeated d.wordCount).node (fun ws => ?_) ?_
      · simp [Node.count]
      · exact fun _ _ _ _ => trivial

lemma readBy_members (p : Place) (hsampler : ReadsSampler objectCount data p readSampler)
    (types : List TypeDef) :
    ReadBy objectCount data (Filler.members objectCount types)
      (readMembers objectCount readSampler types) (fun ns => (ns.map Node.count).sum)
      fun ns => ∀ n ∈ ns, n.Shallow p := by
  match types with
  | [] => exact .nil
  | .mk d inner :: others =>
    rw [Filler.members, readMembers]
    exact (readBy_elements (readBy_one p hsampler (.mk d inner))).cons
      (readBy_members p hsampler others)

end

lemma readBy_value (hsampler : ReadsSampler objectCount data p readSampler) (type : TypeDef) :
    ReadBy objectCount data (Filler.value objectCount type)
      (readValue objectCount readSampler type) Node.count (Node.Shallow p) := by
  match type with
  | .mk d inner => exact readBy_elements (readBy_one p hsampler (.mk d inner))

end

/-! ### States -/

variable (objectCount data p) in
/-- A reader of the values of states at a place. -/
def ReadsValues (readValue : UInt32 → UInt32 → NodeReader Node) : Prop :=
  ∀ (typeOffset valueOffset : UInt32) (n : Node), Stands objectCount data typeOffset valueOffset n →
    n.Shallow p → (readValue typeOffset valueOffset).Consumes data n.count [] n

/-- State assignments are read from their records. -/
lemma consumes_readStates {readValue : UInt32 → UInt32 → NodeReader Node}
    (hvalue : ReadsValues objectCount data p readValue) {count : UInt32}
    {states : List (Assignment Node)} {ws : List UInt32} (hcount : count.toNat = states.length)
    (hspells : SpellsStates objectCount data states ws)
    (hshallow : ∀ s ∈ states, s.value.Shallow p) :
    (readStates readValue count).Consumes data (Node.countOfStates states) (Word.listBytes ws)
      states := by
  apply NodeReader.Consumes.of_length_le
  intro hsize
  have hroom : count.toNat * 16 ≤ data.size := by
    rw [length_listBytes, hspells.length_eq] at hsize
    omega
  rw [readStates]
  refine .skip_nil (.checkCount hroom "state") ?_
  rw [hcount]
  clear hroom hsize hcount
  induction hspells with
  | nil => exact .repeated_zero _
  | @cons operation index typeOffset valueOffset n states ws hoperation hstands _ ih =>
    obtain ⟨hn, hothers⟩ := List.forall_mem_cons.1 hshallow
    show NodeReader.Consumes _ data (n.count + Node.countOfStates states)
      (Word.listBytes [operation, index, typeOffset, valueOffset] ++ Word.listBytes ws) _
    refine .repeated_succ (.skip (.word operation _) ?_) (ih hothers)
    rw [if_neg (Nat.not_le.2 hoperation)]
    refine .skip (.word index _) (.skip (.word typeOffset _) (.skip (.word valueOffset _) ?_))
    exact (hvalue typeOffset valueOffset n hstands hn).bind_pure

lemma readsSampler {readValue : UInt32 → UInt32 → NodeReader Node}
    (hvalue : ReadsValues objectCount data p.state readValue) :
    ReadsSampler objectCount data p (do
      readStates readValue (← liftM (Reader.word "sampler state count"))) := by
  intro count states ws hcount hspells hshallow
  exact .skip (.word count _) (consumes_readStates hvalue hcount hspells hshallow)

/-! ### Types and values -/

variable (objectCount data) in
/-- Items stand at an offset in data. -/
def StandsItems (offset : UInt32) (items : List Item) : Prop :=
  ∃ ws, SpellsItems objectCount data items ws ∧ data.Holds offset.toNat (Word.listBytes ws)

/-- A value stands in data if its type and its items do. -/
lemma stands_of_node? {t : WrittenType} {items : List Item} {n : Node}
    {typeOffset valueOffset : UInt32} (hnode : t.node? objectCount items = some n)
    (htype : StandsType data typeOffset t)
    (hvalue : StandsItems objectCount data valueOffset items) :
    Stands objectCount data typeOffset valueOffset n := by
  obtain ⟨ws, hitems, hholds⟩ := hvalue
  obtain ⟨td, htd, hnode⟩ := Option.bind_eq_some_iff.1 hnode
  obtain ⟨⟨node, rest⟩, hfill, hnode⟩ := Option.bind_eq_some_iff.1 hnode
  cases hnode
  intro depth p hdepth hstructs hshallow
  have hheight : td.height ≤ depth := by
    have hle : p.depth + td.height ≤ depthLimit := by
      obtain ⟨d, members⟩ := td
      exact of_elements_eq_some (fun _ _ _ hone => depth_add_height_le p _ hone) hfill hshallow
    omega
  have hread : ∀ inner, ReadsValues objectCount data p.state inner →
      (readTyped.read objectCount depth typeOffset valueOffset inner).Consumes data n.count []
        n := by
    intro inner hinner
    obtain ⟨front, back, rfl, -, hvalue⟩ :=
      readBy_value (readsSampler hinner) td items rest n ws hfill hitems hshallow
    rw [listBytes_append, Bytes.holds_append] at hholds
    exact .skip_nil (htype td htd depth hheight) (hvalue.elsewhere hholds.1)
  have hlt := hshallow.depth_lt
  have hstate := p.depth_state hstructs
  match depth with
  | 0 => omega
  | 1 =>
    -- The value of a state would be too deep, so no sampler in this value has any.
    refine hread _ fun _ _ n' _ hn' => ?_
    have hlt' := hn'.depth_lt
    omega
  | depth + 2 =>
    exact hread _ fun typeOffset valueOffset n' hstands hn' =>
      hstands depth p.state (by omega) rfl hn'

/-! ### Writing values -/

section

variable (objectCount)

mutual

lemma writes_valueWords (parts : List WrittenPart) :
    (valueWords parts).Writes data fun ws => 4 * ws.length < 2 ^ 32 →
      SpellsItems objectCount data (itemsOf objectCount parts) ws := by
  match parts with
  | [] =>
    rw [valueWords, itemsOf]
    exact .pure fun _ => .nil
  | .word w :: rest =>
    rw [valueWords, itemsOf]
    refine (writes_valueWords rest).bind fun ws => .pure fun hrest hlt => ?_
    rw [List.length_cons] at hlt
    exact .word (hrest (by omega))
  | .sampler states :: rest =>
    rw [valueWords, itemsOf]
    refine (writes_statesWords states).bind fun inner => (writes_valueWords rest).bind fun ws =>
      .pure fun hrest hstates hlt => ?_
    simp only [List.length_append, List.length_cons] at hlt
    refine .sampler (fun found hfound => ?_) (hrest (by omega))
    obtain ⟨hlength, hspells⟩ := hstates
    have hinner := (hspells found hfound).length_eq
    have hcount : (UInt32.ofNat states.length).toNat = states.length :=
      toNat_ofNat_of_lt (by omega)
    exact ⟨by omega, hspells found hfound⟩

lemma writes_statesWords (states : List WrittenState) :
    (statesWords states).Writes data fun ws => ws.length = 4 * states.length ∧
      ∀ found, assignments? objectCount states = some found →
        SpellsStates objectCount data found ws := by
  match states with
  | [] =>
    rw [statesWords]
    refine .pure ⟨rfl, fun found hfound => ?_⟩
    rw [assignments?] at hfound
    cases hfound
    exact .nil
  | .mk operation index type value :: rest =>
    rw [statesWords]
    refine (writes_emitType type).bind fun typeOffset => (writes_valueWords value).bind fun ws =>
      (writes_emitWords ws).bind fun valueOffset => (writes_statesWords rest).bind fun others =>
      .pure fun hrest hoffset hvalue htype => ⟨?_, fun found hfound => ?_⟩
    · rw [List.length_cons, List.length_cons, List.length_cons, List.length_cons, hrest.1,
        List.length_cons]
      omega
    · rw [assignments?] at hfound
      obtain ⟨n, hnode, hfound⟩ := Option.bind_eq_some_iff.1 hfound
      obtain ⟨states, hstates, hfound⟩ := Option.bind_eq_some_iff.1 hfound
      split at hfound
      case isTrue hoperation =>
        cases hfound
        exact .cons hoperation (stands_of_node? hnode htype ⟨ws, hvalue hoffset.2, hoffset.1⟩)
          (hrest.2 states hstates)
      case isFalse => cases hfound

end

lemma writes_emitValue (v : WrittenValue) :
    (emitValue v).Writes data fun offset =>
      StandsItems objectCount data offset (itemsOf objectCount v) :=
  (writes_valueWords objectCount v).bind fun ws =>
    (writes_emitWords ws).mono fun _ hoffset hvalue => ⟨ws, hvalue hoffset.2, hoffset.1⟩

end

end Image

end ShaderEffect
