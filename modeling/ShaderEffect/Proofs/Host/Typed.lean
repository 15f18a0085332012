import ShaderEffect.Proofs.Host.Bounded
import ShaderEffect.Proofs.Host.Sharing
import ShaderEffect.Proofs.Link.Objects

/-!
# Parameters hold objects of their types

Blocks are tiled by leaves, and every slot admits objects for its leaf only (`Memory.Typed`).
Setters check what they store, and what is reset, given back, copied or shared was in the same slot,
or in one that the same leaf has. So if images agree on the types of their objects, no parameter
ever holds an object that does not fit its type (`Host.fits_run`).
-/

namespace ShaderEffect

variable {tiles tiles' : Nat → List Tile}

/-- The objects of all blocks fit their slots. -/
def Memory.Typed (m : Memory) (tiles : Nat → List Tile) : Prop :=
  ∀ id, AdmitsAll (tiles id) (m.block id).objects

/-! ### Writing -/

namespace LinkedEffect

/-- The slots of parameters admit what fits these, and what they held when the effect was made. -/
structure Typed (e : LinkedEffect) (tiles : Nat → List Tile) : Prop where
  admits_iff : ∀ h p id, e.tree.node? h = some p → e.roots[p.root]? = some id →
    p.decl.type.isObjectSlot = true → ∀ j, p.objects.Has j → ∀ o,
      Admits (tiles id) j o ↔ o.fits p.decl.type = true
  initial : ∀ (r : Nat) c id, e.tree.initial[r]? = some c → e.roots[r]? = some id →
    AdmitsAll (tiles id) c.objects

/-- The objects of an entry fit where they would be given back. -/
def AdmitsEntry (e : LinkedEffect) (tiles : Nat → List Tile) (entry : BlockEntry) : Prop :=
  ∀ p id, e.tree.node? entry.h = some p → e.roots[p.root]? = some id →
    AdmitsFrom (tiles id) p.objects.start entry.objects

variable {e : LinkedEffect} {m : Memory} {h : Handle}

lemma typed_writeBlock {f : Parameter → Contents → Contents} (hm : m.Typed tiles)
    (hf : ∀ p id, e.tree.node? h = some p → e.roots[p.root]? = some id →
      AdmitsAll (tiles id) (f p (m.block id).toContents).objects) :
    (e.writeBlock m h f).Typed tiles := by
  intro other
  rw [writeBlock]
  split
  case h_1 p id hp hid =>
    obtain ⟨p', hp', hid⟩ := e.blockOf?_eq_some.1 hid
    obtain rfl := Option.some.inj (hp.symm.trans hp')
    rw [Memory.block_setBlock]
    split
    case isTrue heq => exact heq.1 ▸ hf p id hp hid
    case isFalse => exact hm other
  case h_2 => exact hm other

lemma typed_writeWords {f : List UInt32 → List UInt32} (hm : m.Typed tiles) :
    (e.writeWords m h f).Typed tiles :=
  typed_writeBlock hm fun _ id _ _ => hm id

lemma typed_writeObjects {f : List (Option EffectObject) → List (Option EffectObject)}
    (hm : m.Typed tiles)
    (hf : ∀ p id, e.tree.node? h = some p → e.roots[p.root]? = some id →
      AdmitsFrom (tiles id) p.objects.start (f (p.objects.read (m.block id).objects))) :
    (e.writeObjects m h f).Typed tiles :=
  typed_writeBlock hm fun p id hp hid => (hm id).write (hf p id hp hid)

lemma typed_resetValue (he : e.Typed tiles) (hm : m.Typed tiles) :
    (e.resetValue m h).Typed tiles := by
  refine typed_writeBlock hm fun p id hp hid => (hm id).write ?_
  rw [Array.getD_eq_getD_getElem?]
  cases hc : e.tree.initial[p.root]? with
  | some c => exact (he.initial p.root c id hc hid).read p.objects
  | none => exact (AdmitsAll.empty _).read p.objects

/-- What a parameter holds can be given back to it. -/
lemma admitsEntry_of_typed (hm : m.Typed tiles) (words : List UInt32) :
    e.AdmitsEntry tiles ⟨h, words, e.objects m h⟩ := by
  intro p id hp hid
  have hobjects : e.objects m h = p.objects.read (m.block id).objects :=
    e.values_eq_read (k := .objects) hp (e.blockOf?_eq_some.2 ⟨p, hp, hid⟩)
  rw [hobjects]
  exact (hm id).read p.objects

end LinkedEffect

/-! ### Calls -/

namespace EffectState

/-- The objects of all blocks fit their slots, and so will those that are recorded. -/
structure Typed (s : EffectState) (tiles : Nat → List Tile) : Prop where
  memory : s.memory.Typed tiles
  recorded : ∀ entry ∈ s.effect.entries, s.linked.AdmitsEntry tiles entry

variable {s s' : EffectState} {h : Handle}

namespace Typed

lemma withMemory (hs : s.Typed tiles) {m : Memory} (hm : m.Typed tiles) :
    Typed { s with memory := m } tiles := ⟨hm, hs.recorded⟩

/-- What is noted in the block being recorded is what a parameter holds. -/
lemma record (hs : s.Typed tiles) (h : Handle) : (s.record h).Typed tiles := by
  rw [EffectState.record]
  split
  · exact hs
  · rename_i block hrecording
    refine ⟨hs.memory, fun entry hentry => ?_⟩
    rcases List.mem_append.1 hentry with hentry | hentry
    · exact hs.recorded entry (List.mem_append_left _ hentry)
    · rcases mem_recordEntry hentry with rfl | hentry
      · exact LinkedEffect.admitsEntry_of_typed hs.memory _
      · refine hs.recorded entry (List.mem_append_right _ ?_)
        rwa [hrecording]

lemma writeWords (hs : s.Typed tiles) (h : Handle) (f : List UInt32 → List UInt32) :
    (s.writeWords h f).Typed tiles :=
  (hs.withMemory (LinkedEffect.typed_writeWords hs.memory)).record h

lemma writeObjects (hs : s.Typed tiles)
    {f : List (Option EffectObject) → List (Option EffectObject)}
    (hf : ∀ p id, s.tree.node? h = some p → s.linked.roots[p.root]? = some id →
      AdmitsFrom (tiles id) p.objects.start (f (p.objects.read (s.memory.block id).objects))) :
    (s.writeObjects h f).Typed tiles :=
  (hs.withMemory (LinkedEffect.typed_writeObjects hs.memory hf)).record h

lemma of_reset (he : s.linked.Typed tiles) (hs : s.Typed tiles) (hreset : s.resetValue h = .ok s') :
    s'.Typed tiles := by
  obtain ⟨p, -, hreset⟩ := exists_of_bind_eq_ok hreset
  cases hreset
  exact (hs.withMemory (LinkedEffect.typed_resetValue he hs.memory)).record h

end Typed

lemma node_eq_ok {p : Parameter} (hp : s.node h = .ok p) : s.tree.node? h = some p := by
  rw [node] at hp
  split at hp <;> cases hp
  assumption

lemma fits_of_slotFits {type : ParameterType} {o : EffectObject}
    (h : slotFits type (some o) = true) : o.fits type = true := h

namespace Typed

lemma of_setObjects (he : s.linked.Typed tiles) (hs : s.Typed tiles)
    {values : List (Option EffectObject)} (hset : s.setObjects h values = .ok s') :
    s'.Typed tiles := by
  obtain ⟨p, hp, hset⟩ := exists_of_bind_eq_ok hset
  obtain ⟨p', hp', hslot⟩ := exists_of_bind_eq_ok hp
  split at hslot
  case isFalse => cases hslot
  case isTrue htype =>
    cases hslot
    simp only at hset
    split at hset
    case isTrue => cases hset
    case isFalse hlength =>
      split at hset
      case isTrue => cases hset
      case isFalse hfits =>
        cases hset
        refine hs.writeObjects fun q id hq hid k o ho => ?_
        obtain rfl := Option.some.inj ((node_eq_ok hp').symm.trans hq)
        have hk : k < values.length := (List.getElem?_eq_some_iff.1 ho).1
        refine (he.admits_iff h p id hq hid htype _ ⟨Nat.le_add_right .., ?_⟩ o).2 ?_
        · rw [Slice.stop]
          omega
        · simp only [Bool.not_eq_true', Bool.not_eq_false, List.all_eq_true] at hfits
          exact fits_of_slotFits (hfits _ (List.mem_of_getElem? ho))

lemma of_setSingle (he : s.linked.Typed tiles) (hs : s.Typed tiles)
    {accepts : ParameterType → Bool}
    (haccepts : ∀ type, accepts type = true → type.isObjectSlot = true)
    {object : Option EffectObject} (hset : s.setSingle h accepts object = .ok s') :
    s'.Typed tiles := by
  obtain ⟨p, hp, hset⟩ := exists_of_bind_eq_ok hset
  obtain ⟨p', hp', hsingle⟩ := exists_of_bind_eq_ok hp
  split at hsingle
  case isFalse => cases hsingle
  case isTrue htype =>
    cases hsingle
    simp only at hset
    split at hset
    case isTrue => cases hset
    case isFalse hfits =>
      cases hset
      refine hs.writeObjects fun q id hq hid => ?_
      obtain rfl := Option.some.inj ((node_eq_ok hp').symm.trans hq)
      have hread := (hs.memory id).read p.objects
      have hlength := p.objects.length_read (s.memory.block id).objects
      cases hobjects : p.objects.read (s.memory.block id).objects with
      | nil =>
        intro k o ho
        cases ho
      | cons old rest =>
        rw [hobjects] at hread hlength
        intro k o ho
        cases k with
        | zero =>
          obtain rfl : object = some o := Option.some.inj ho
          refine (he.admits_iff h p id hq hid (haccepts _ htype.2) _ ⟨Nat.le_refl _, ?_⟩ o).2 ?_
          · rw [List.length_cons] at hlength
            rw [Slice.stop]
            omega
          · exact fits_of_slotFits (by simpa using hfits)
        | succ k => exact hread (k + 1) o ho

/-- Setters keep all objects fitting: those for numbers change none, and the others check. -/
lemma of_set (he : s.linked.Typed tiles) (hs : s.Typed tiles) {setter : Setter}
    (hset : s.set h setter = .ok s') : s'.Typed tiles := by
  by_cases hnumeric : setter.isNumeric = true
  · exact set_induction (motive := fun s => s.Typed tiles) (fun s h f hs => hs.writeWords h f)
      hnumeric hset hs
  · cases setter with
    | objects values => exact of_setObjects he hs hset
    | text value =>
      -- The new object takes an identity from memory, which leaves blocks alone.
      have hshared : Typed { s with memory := (s.memory.share value).2 } tiles :=
        ⟨hs.memory, hs.recorded⟩
      refine of_setSingle (s := { s with memory := (s.memory.share value).2 }) he hshared
        (fun type htype => ?_) hset
      rw [beq_iff_eq.1 htype]
      rfl
    | texture value =>
      refine of_setSingle he hs (fun type htype => ?_) hset
      rw [ParameterType.isObjectSlot, htype, Bool.or_true, Bool.true_or]
    | _ => exact absurd rfl hnumeric

lemma applyEntry (hs : s.Typed tiles) {entry : BlockEntry}
    (hentry : s.linked.AdmitsEntry tiles entry) : (s.applyEntry entry).Typed tiles := by
  have hwords : Memory.Typed (if entry.words.isEmpty then s.memory
      else s.linked.writeWords s.memory entry.h fun _ => entry.words) tiles := by
    split
    · exact hs.memory
    · exact LinkedEffect.typed_writeWords hs.memory
  rw [EffectState.applyEntry]
  refine (hs.withMemory ?_).record entry.h
  split
  · exact hwords
  · exact LinkedEffect.typed_writeObjects hwords fun p id hp hid => hentry p id hp hid

lemma foldl_applyEntry (hs : s.Typed tiles) {block : ParameterBlock}
    (hblock : ∀ entry ∈ block, s.linked.AdmitsEntry tiles entry) :
    (block.foldl EffectState.applyEntry s).Typed tiles := by
  induction block generalizing s with
  | nil => exact hs
  | cons entry rest ih =>
    have hlinked : (s.applyEntry entry).linked = s.linked := by
      rw [EffectState.applyEntry, EffectState.record]
      split <;> rfl
    refine ih (hs.applyEntry (hblock entry List.mem_cons_self)) fun other hother => ?_
    rw [hlinked]
    exact hblock other (List.mem_cons_of_mem _ hother)

lemma of_applyBlock (hs : s.Typed tiles) {i : Nat} (happly : s.applyBlock i = .ok s') :
    s'.Typed tiles := by
  obtain ⟨block, hblock, rfl⟩ := applyBlock_eq_ok.1 happly
  refine hs.foldl_applyEntry fun entry hentry => hs.recorded entry ?_
  refine List.mem_append_left _ (List.mem_flatMap.2 ⟨some block, ?_, hentry⟩)
  exact Array.mem_toList_iff.2 (Array.mem_of_getElem? (Option.join_eq_some_iff.1 hblock))

end Typed

/-- Calls that write no parameters change no object slot. -/
lemma objects_of_not_writesValues (he : s.linked.Proper)
    (hc : s.linked.counter < s.memory.counters.size) (devices : Nat → Device) {op : Operation}
    (hop : op.writesValues = false) (id : Nat) :
    ((s.perform devices op).state.memory.block id).objects = (s.memory.block id).objects := by
  have hwritten : s.written op = [] := by cases op <;> first | rfl | cases hop
  by_cases howns : op.computes = true ∧ s.linked.Owns id
  · obtain ⟨hcomputes, howns⟩ := howns
    by_cases hpass : op.appliesPass = true
    · rcases passCall_perform he hc devices hpass with ⟨e, hrefuse⟩ | ⟨t, p, pass, hcall⟩
      · rw [hrefuse]
        rfl
      · exact hcall.applied.alike.objects id howns
    · cases op with
      | begin device flags =>
        rcases begun_begin he hc (devices device) flags with ⟨e, hrefuse⟩ | hbegun
        · rw [perform, hrefuse]
          rfl
        · exact hbegun.alike.objects id howns
      | beginPass device p | commit device => exact absurd rfl hpass
      | _ => cases hcomputes
  · rw [(leaves_perform he hc devices op).evolves.block_eq]
    rintro (hid | ⟨hcomputes, hid⟩)
    · simp [hwritten, LinkedEffect.BlocksOf] at hid
    · exact howns ⟨hcomputes, LinkedEffect.owns_of_computed hid⟩

/-- Every call keeps all objects fitting. -/
lemma Typed.perform (he : s.linked.Typed tiles) (hproper : s.linked.Proper)
    (hc : s.linked.counter < s.memory.counters.size) (hs : s.Typed tiles)
    (devices : Nat → Device) (op : Operation) : (s.perform devices op).state.Typed tiles := by
  by_cases hop : op.writesValues = true
  · cases op with
    | set h setter => exact orKeep_induction hs fun s' => hs.of_set he
    | reset h => exact orKeep_induction hs fun s' => hs.of_reset he
    | applyBlock i => exact orKeep_induction hs fun s' => hs.of_applyBlock
    | _ => cases hop
  · have hop := Bool.eq_false_iff.2 hop
    refine ⟨fun id => ?_, fun entry hentry => ?_⟩
    · rw [objects_of_not_writesValues hproper hc devices hop]
      exact hs.memory id
    · rw [(leaves_perform hproper hc devices op).linked]
      exact hs.recorded entry (mem_entries_of_not_writesValues hproper hc devices hop hentry)

end EffectState

/-! ### Effects -/

/-- An effect made from an image that agrees on its objects, and what is recorded of it fits. -/
structure Effect.Typed (tiles : Nat → List Tile) (effect : Effect) : Prop where
  agrees : effect.linked.image.AgreesOnObjects
  recorded : ∀ entry ∈ effect.entries, effect.linked.AdmitsEntry tiles entry

/-- The objects of all blocks of a host fit, and so will those that are recorded. -/
structure Host.Typed (host : Host) (tiles : Nat → List Tile) : Prop where
  memory : host.memory.Typed tiles
  effects : ∀ (i : Nat) (effect : Effect), host.effects[i]? = some (some effect) →
    effect.Typed tiles

variable {host : Host} {use : Nat → BlockUse}

/-- The slots of an effect admit what fits the types of its parameters. -/
lemma Effect.Fits.typed {i : Nat} {effect : Effect} (hfits : effect.Fits host use i)
    (htiled : effect.Tiled tiles) (hagrees : effect.linked.image.AgreesOnObjects) :
    effect.linked.Typed tiles := by
  obtain ⟨n, l, hlink, htree, -⟩ := hfits.linked
  obtain ⟨stored, hdecode⟩ := htiled.image
  have hformed := Image.WellFormed.of_decode hdecode
  refine ⟨fun h p id hp hid hslot j hj o => ?_, fun r c id hc hid => ?_⟩
  · have hlays := htiled.lays p.root id hid
    rw [htree] at hp hlays
    exact (Link.made_link hlink).admits_iff hformed (Link.nested_link hlink) hp hslot hlays
      hj o
  · have hlays := htiled.lays r id hid
    rw [htree] at hc hlays
    exact Link.admitsAll_link hagrees hformed hlink hc hlays

namespace Host

lemma typed_call (hlayout : host.Layout use) (htiled : host.Tiled tiles) (h : host.Typed tiles)
    (i : Nat) (op : Operation) : (host.perform (.call i op)).Typed tiles := by
  cases hs : host.state? i with
  | none =>
    rw [perform_call_of_none hs]
    exact h
  | some s =>
    obtain ⟨heffect, hmemory⟩ := state?_eq_some.1 hs
    have hfits := hlayout.effects i s.effect heffect
    have hc : s.linked.counter < s.memory.counters.size := hmemory ▸ hfits.counter_lt
    have hagrees := (h.effects i s.effect heffect).agrees
    have hstate : s.Typed tiles := ⟨hmemory ▸ h.memory, (h.effects i s.effect heffect).recorded⟩
    have hstate' := hstate.perform (hfits.typed (htiled.effects i s.effect heffect) hagrees)
      hfits.proper hc host.device op
    refine ⟨(perform_call hs op).1 ▸ hstate'.memory, fun j effect' heffect' => ?_⟩
    rcases effects_perform_call hs heffect' with ⟨rfl, rfl⟩ | ⟨-, heffect'⟩
    · have hlinked : (s.perform host.device op).state.effect.linked = s.effect.linked :=
        (EffectState.leaves_perform hfits.proper hc host.device op).linked
      exact ⟨hlinked ▸ hagrees, hstate'.recorded⟩
    · exact h.effects j effect' heffect'

/-! ### Making effects -/

/-- Other blocks may have other leaves. -/
lemma Typed.extends (hlayout : host.Layout use) (h : host.Typed tiles) {image : Image}
    {skip : List String} (hextends : host.Extends image skip tiles tiles') {effect : Effect}
    {i : Nat} (heffect : host.effects[i]? = some (some effect)) : effect.Typed tiles' := by
  obtain ⟨hagrees, hrecorded⟩ := h.effects i effect heffect
  refine ⟨hagrees, fun entry hentry p id hp hid => ?_⟩
  rw [hextends.old id ((hlayout.effects i effect heffect).uses p.root id hid).1]
  exact hrecorded entry hentry p id hp hid

lemma typed_linkImage (hlayout : host.Layout use) (h : host.Typed tiles) {image : Image}
    (hformed : image.WellFormed) (hagrees : image.AgreesOnObjects) {skip : List String}
    {pool : Option Nat} {counter : Nat} {linked : LinkedEffect} {host' : Host}
    (hlink : host.linkImage image skip pool counter = .ok (linked, host'))
    (hextends : host.Extends image skip tiles tiles') :
    host'.Typed tiles' ∧ (Effect.ofLinked linked).Typed tiles' := by
  have heffects := (same_linkImage hlink).1
  obtain ⟨l, hl, rfl, rfl⟩ := exists_of_linkImage_eq_ok hlink
  refine ⟨⟨fun id => ?_, fun i effect heffect => h.extends hlayout hextends (heffects ▸ heffect)⟩,
    hagrees, fun entry hentry => by cases hentry⟩
  rw [memory_bindPool]
  by_cases hlt : id < host.memory.blocks.size
  · rw [block_withRoots_of_lt host l hlt, hextends.old id hlt]
    exact h.memory id
  · obtain ⟨r, rfl⟩ := Nat.exists_eq_add_of_le (Nat.le_of_not_lt hlt)
    by_cases hr : r < l.tree.initial.size
    · have hc := Array.getElem?_eq_getElem hr
      have hobjects := congrArg Contents.objects (toContents_block_withRoots host l hc)
      exact hobjects ▸ Link.admitsAll_link hagrees hformed hl hc (hextends.new l hl r hr)
    · rw [Memory.block_of_size_le]
      · exact AdmitsAll.empty _
      · rw [size_blocks_withRoots]
        omega

lemma Typed.addEffect (h : host.Typed tiles) {effect : Effect} (heffect : effect.Typed tiles) :
    (host.addEffect effect).2.Typed tiles := by
  refine ⟨h.memory, fun i effect' heffect' => ?_⟩
  rcases effects_addEffect host effect heffect' with ⟨-, rfl⟩ | heffect'
  · exact heffect
  · exact h.effects i effect' heffect'

lemma typed_create (hlayout : host.Layout use) (htiled : host.Tiled tiles) (h : host.Typed tiles)
    {image : Image} (himage : ∃ stored, Image.decode stored = .ok image)
    (hagrees : image.AgreesOnObjects) (skip : List String) (pool : Option Nat) :
    ∃ tiles', (host.perform (.create image skip pool)).Tiled tiles' ∧
      (host.perform (.create image skip pool)).Typed tiles' := by
  rw [perform]
  cases hcreate : host.create image skip pool with
  | error e => exact ⟨tiles, htiled, h⟩
  | ok result =>
    obtain ⟨i, host'⟩ := result
    obtain ⟨base, linked, made, hmade, -, rfl⟩ := exists_of_create_eq_ok hlayout hcreate
    obtain ⟨tiles', hextends, htiled', hlinked⟩ := tiled_made hmade htiled himage
    obtain ⟨pool', counter, -, -, hlink⟩ := hmade.linkImage
    have hbase : base.Typed tiles := by
      refine ⟨fun id => ?_, hmade.effects ▸ h.effects⟩
      have hblock : base.memory.block id = host.memory.block id := by
        rw [Memory.block, Memory.block, hmade.blocks]
      exact hblock ▸ h.memory id
    obtain ⟨stored, hdecode⟩ := himage
    obtain ⟨h', heffect⟩ := typed_linkImage hmade.layout hbase
      (Image.WellFormed.of_decode hdecode) hagrees hlink hextends
    exact ⟨tiles', htiled'.addEffect hlinked, h'.addEffect heffect⟩

/-- To copy blocks of the same leaves keeps objects fitting. -/
lemma typed_copyBlocks {source target : Array Nat} {m : Memory} (hm : m.Typed tiles)
    (hsame : ∀ r a b : Nat, source[r]? = some a → target[r]? = some b → tiles a = tiles b) :
    (copyBlocks source target m).Typed tiles := by
  let holds := fun id (block : Block) => AdmitsAll (tiles id) block.objects
  have hcopied : ∀ id, holds id ((copyBlocks source target m).block id) :=
    copyBlocks_induction hm fun r a b ha hb _ block hblock => by
      dsimp only [holds] at hblock ⊢
      exact hsame r a b ha hb ▸ hblock
  exact hcopied

lemma typed_clone (hlayout : host.Layout use) (htiled : host.Tiled tiles) (h : host.Typed tiles)
    (i : Nat) : ∃ tiles', (host.perform (.clone i)).Tiled tiles' ∧
      (host.perform (.clone i)).Typed tiles' := by
  rw [perform]
  cases hs : host.state? i with
  | none => exact ⟨tiles, htiled, h⟩
  | some s =>
    obtain ⟨heffect, -⟩ := state?_eq_some.1 hs
    dsimp only
    cases hclone : host.clone s.effect with
    | error e => exact ⟨tiles, htiled, h⟩
    | ok result =>
      obtain ⟨⟨linked, made⟩, hlink, hclone⟩ := exists_of_bind_eq_ok hclone
      cases hclone
      obtain ⟨tiles', hextends, htiled', hlinked, -, hsame⟩ :=
        tiled_relink hlayout htiled heffect hlink
      obtain ⟨stored, hdecode⟩ := (htiled.effects i s.effect heffect).image
      obtain ⟨h', hnew⟩ := typed_linkImage hlayout h (Image.WellFormed.of_decode hdecode)
        (h.effects i s.effect heffect).agrees hlink hextends
      let copied : Host := { made with
        memory := copyBlocks s.effect.linked.roots linked.roots made.memory }
      have hcopied : copied.Typed tiles' :=
        ⟨typed_copyBlocks h'.memory fun r a b ha hb => (hsame r a b ha hb).2.2, h'.effects⟩
      exact ⟨tiles', tiled_addClone htiled' hlinked hsame s.effect.technique,
        hcopied.addEffect ⟨hnew.agrees, fun entry hentry => by cases hentry⟩⟩

end Host

/-! ### Runs -/

/-- Effects are made only from images that agree on the types of their objects. -/
def HostOperation.AgreesOnObjects : HostOperation → Prop
  | .create image _ _ => image.AgreesOnObjects
  | _ => True

namespace Host

/-- Every operation keeps all objects fitting. -/
theorem typed_perform (hlayout : host.Layout use) (htiled : host.Tiled tiles)
    (h : host.Typed tiles) {op : HostOperation} (hop : op.FromStored)
    (hagrees : op.AgreesOnObjects) :
    ∃ tiles', (host.perform op).Tiled tiles' ∧ (host.perform op).Typed tiles' := by
  cases op with
  | createPool => exact ⟨tiles, tiled_createPool htiled, h.memory, h.effects⟩
  | create image skip pool => exact typed_create hlayout htiled h hop hagrees skip pool
  | clone i => exact typed_clone hlayout htiled h i
  | drop i =>
    exact ⟨tiles, ⟨htiled.memory, htiled.pools,
        fun j effect heffect => htiled.effects j effect (effects_of_drop heffect)⟩,
      h.memory, fun j effect heffect => h.effects j effect (effects_of_drop heffect)⟩
  | share | send =>
    exact ⟨tiles, ⟨htiled.memory, htiled.pools, htiled.effects⟩, h.memory, h.effects⟩
  | call i op => exact ⟨tiles, tiled_call hlayout htiled i op, typed_call hlayout htiled h i op⟩

lemma typed_run {ops : List HostOperation} (hops : ∀ op ∈ ops, op.FromStored)
    (hagrees : ∀ op ∈ ops, op.AgreesOnObjects) (hlayout : host.Layout use)
    (htiled : host.Tiled tiles) (h : host.Typed tiles) :
    ∃ use' tiles', (host.run ops).Layout use' ∧ (host.run ops).Tiled tiles' ∧
      (host.run ops).Typed tiles' := by
  induction ops generalizing host use tiles with
  | nil => exact ⟨use, tiles, hlayout, htiled, h⟩
  | cons op rest ih =>
    obtain ⟨use', hsteps⟩ := steps_perform hlayout op
    obtain ⟨tiles', htiled', h'⟩ := typed_perform hlayout htiled h (hops op List.mem_cons_self)
      (hagrees op List.mem_cons_self)
    exact ih (fun op' hop' => hops op' (List.mem_cons_of_mem _ hop'))
      (fun op' hop' => hagrees op' (List.mem_cons_of_mem _ hop')) hsteps.layout htiled' h'

lemma typed_empty : Typed {} tiles :=
  ⟨fun id => AdmitsAll.empty _, fun i effect heffect => by simp at heffect⟩

/-- What a parameter with object slots holds fits its type. -/
lemma Typed.fits (hlayout : host.Layout use) (htiled : host.Tiled tiles) (h : host.Typed tiles)
    {i : Nat} {s : EffectState} (hs : host.state? i = some s) {handle : Handle} {p : Parameter}
    (hp : s.tree.node? handle = some p) (hslot : p.decl.type.isObjectSlot = true)
    {o : EffectObject} (ho : some o ∈ s.objects handle) : o.fits p.decl.type = true := by
  obtain ⟨heffect, hmemory⟩ := state?_eq_some.1 hs
  have hfits := hlayout.effects i s.effect heffect
  have htyped :=
    hfits.typed (htiled.effects i s.effect heffect) (h.effects i s.effect heffect).agrees
  obtain ⟨id, hid, -⟩ := hfits.exists_root hp
  obtain ⟨k, hk⟩ := List.mem_iff_getElem?.1 ho
  have hadmits : AdmitsFrom (tiles id) p.objects.start (s.objects handle) :=
    LinkedEffect.admitsEntry_of_typed (hmemory ▸ h.memory) [] p id hp hid
  refine (htyped.admits_iff handle p id hp hid hslot (p.objects.start + k)
    ⟨Nat.le_add_right .., ?_⟩ o).1 (hadmits k o hk)
  have hlength := (hfits.length_values (htiled.effects i s.effect heffect) htiled.memory rfl hp).2
  have hk : k < (s.objects handle).length := (List.getElem?_eq_some_iff.1 hk).1
  rw [EffectState.objects, hmemory, hlength] at hk
  rw [Slice.stop]
  omega

/-- In every host that comes about from images that were read and agree on the types of their
objects, a parameter holds only objects that fit its type. -/
theorem fits_run {ops : List HostOperation} (hops : ∀ op ∈ ops, op.FromStored)
    (hagrees : ∀ op ∈ ops, op.AgreesOnObjects) {i : Nat} {s : EffectState}
    (hs : (run {} ops).state? i = some s) {handle : Handle} {p : Parameter}
    (hp : s.tree.node? handle = some p) (hslot : p.decl.type.isObjectSlot = true)
    {o : EffectObject} (ho : some o ∈ s.objects handle) : o.fits p.decl.type = true := by
  obtain ⟨use, hlayout⟩ := laidOut_empty
  obtain ⟨use', tiles, hlayout', htiled, h⟩ :=
    typed_run hops hagrees hlayout (@tiled_empty fun _ => []) typed_empty
  exact h.fits hlayout' htiled hs hp hslot ho

/-- An effect of a title and of a flat picture. There is data for object 0, which is the title. -/
def poster (picture : UInt32) : WrittenEffect where
  parameters := [⟨.object 4 "title", [.word 0], 0, []⟩,
    ⟨.object 7 "picture", [.word picture], 0, []⟩]
  techniques := []
  objectCount := 2
  objectData := [⟨0, #[0x61, 0x62, 0x63, 0]⟩]
  resources := []

/-- A flat texture. -/
def flat : Shared Texture := ⟨100, .twoD, "flat"⟩

/-- A flat picture replaces the title and the picture of a poster, a cube is refused, and the title
is recorded and given back to a clone. -/
def hangPoster (im : Image) : List HostOperation :=
  [.create im [] none, .call 0 (.set ⟨1⟩ (.texture (some flat))),
    .call 0 (.set ⟨1⟩ (.texture (some ⟨101, .cube, "cube"⟩))), .call 0 .beginBlock,
    .call 0 (.set ⟨0⟩ (.text "new")), .call 0 .endBlock, .call 0 (.reset ⟨0⟩),
    .call 0 (.applyBlock 0), .clone 0]

/-- The clone of the poster has the flat picture, and that fits. -/
theorem fits_run_hangPoster :
    ∃ im, Image.decode (Image.encode (poster 1)).toArray = .ok im ∧
      ∃ s, (run {} (hangPoster im)).state? 1 = some s ∧ ∃ p, s.tree.node? ⟨1⟩ = some p ∧
        s.objects ⟨1⟩ = [some (.texture flat)] ∧
        (EffectObject.texture flat).fits p.decl.type = true := by
  obtain ⟨im, hdecode, hagrees, s, hs, p, hp, hslot, hobjects⟩ : ∃ im,
      (Image.decode (Image.encode (poster 1)).toArray).toOption = some im ∧ im.AgreesOnObjects ∧
        ∃ s, (run {} (hangPoster im)).state? 1 = some s ∧ ∃ p, s.tree.node? ⟨1⟩ = some p ∧
          p.decl.type.isObjectSlot = true ∧ s.objects ⟨1⟩ = [some (.texture flat)] := by
    decide +kernel
  have hok := Image.eq_ok_of_toOption_eq_some hdecode
  refine ⟨im, hok, s, hs, p, hp, hobjects, fits_run (fun op hop => ?_) (fun op hop => ?_) hs hp
    hslot (hobjects ▸ List.mem_singleton_self _)⟩
  all_goals
    simp only [hangPoster, List.mem_cons, List.not_mem_nil, or_false] at hop
    rcases hop with rfl | rfl | rfl | rfl | rfl | rfl | rfl | rfl | rfl
  all_goals first | exact True.intro | exact ⟨_, hok⟩ | exact hagrees

/-- If the title and the picture of a poster are the same object, the picture holds a text. -/
theorem not_fits_create_poster :
    ∃ im, Image.decode (Image.encode (poster 0)).toArray = .ok im ∧
      ∃ s, (run {} [.create im [] none]).state? 0 = some s ∧ ∃ p, s.tree.node? ⟨1⟩ = some p ∧
        p.decl.type = .texture2D ∧ ∃ o, s.objects ⟨1⟩ = [some o] ∧
        o.fits p.decl.type = false := by
  obtain ⟨im, hdecode, s, hs, p, hp, htype, hobjects⟩ : ∃ im,
      (Image.decode (Image.encode (poster 0)).toArray).toOption = some im ∧
        ∃ s, (run {} [.create im [] none]).state? 0 = some s ∧ ∃ p, s.tree.node? ⟨1⟩ = some p ∧
          p.decl.type = .texture2D ∧ s.objects ⟨1⟩ = [some (.text ⟨0, "abc"⟩)] := by
    decide +kernel
  refine ⟨im, Image.eq_ok_of_toOption_eq_some hdecode, s, hs, p, hp, htype, _, hobjects, ?_⟩
  rw [htype]
  rfl

end Host

end ShaderEffect
