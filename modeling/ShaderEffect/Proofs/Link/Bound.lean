import ShaderEffect.Proofs.Link.Values

/-!
# What resources say about states

Resources are bound one after the other, and each changes the source of the state it is for. So in
the end a state has the source that the last resource for its place describes (`Describes`), and
its own value if there is none (`stateAt_bindResources`). Binding resources changes no look-up, so
it does not matter when a path is followed.
-/

namespace ShaderEffect

namespace Link

/-! ### Look-ups -/

namespace SameSkeleton

variable {l l' : Linking} (h : SameSkeleton l l')
include h

lemma node?_eq_none (i : Handle) : l'.tree.node? i = none ↔ l.tree.node? i = none := by
  have hbare := congrArg Option.isNone (h.nodes i)
  rw [Option.isNone_map, Option.isNone_map] at hbare
  rw [← Option.isNone_iff_eq_none, ← Option.isNone_iff_eq_none, hbare]

lemma named? (list : List Handle) (name : String) :
    l'.tree.named? list name = l.tree.named? list name := by
  rw [Tree.named?, Tree.named?]
  congr 1
  funext i
  cases hp : l.tree.node? i with
  | none => rw [(h.node?_eq_none i).2 hp]
  | some p =>
    obtain ⟨p', hp', hnode, -⟩ := h.exists_node? hp
    rw [hp']
    dsimp only
    rw [Parameter.decl, Parameter.decl, hnode]

lemma element? (i : Handle) (n : Nat) : l'.tree.element? i n = l.tree.element? i n := by
  rw [Tree.element?, Tree.element?]
  cases hp : l.tree.node? i with
  | none => rw [(h.node?_eq_none i).2 hp]
  | some p =>
    obtain ⟨p', hp', hnode, -, -, hmembers, -⟩ := h.exists_node? hp
    rw [hp']
    show (if n < p'.decl.elements.toNat then p'.members[n]? else none) =
      if n < p.decl.elements.toNat then p.members[n]? else none
    rw [Parameter.decl, Parameter.decl, hnode, hmembers]

lemma step? (i : Handle) (step : PathStep) : l'.tree.step? i step = l.tree.step? i step := by
  cases step with
  | member name =>
    rw [Tree.step?, Tree.step?]
    cases hp : l.tree.node? i with
    | none =>
      rw [(h.node?_eq_none i).2 hp]
      rfl
    | some p =>
      obtain ⟨p', hp', -, -, -, hmembers, -⟩ := h.exists_node? hp
      rw [hp']
      simp only [Option.bind_eq_bind, Option.bind_some, hmembers, h.named?]
  | index n => exact h.element? i n

lemma walk? (i : Handle) (steps : List PathStep) :
    l'.tree.walk? i steps = l.tree.walk? i steps := by
  induction steps generalizing i with
  | nil => rfl
  | cons step rest ih => rw [Tree.walk?, Tree.walk?, h.step?, funext ih]

lemma follow? (list : List Handle) (path : Path) :
    l'.tree.follow? list path = l.tree.follow? list path := by
  rw [Tree.follow?, Tree.follow?, h.named?]
  congr 1
  funext i
  cases path.annotationName with
  | none => exact h.walk? i path.steps
  | some name =>
    dsimp only
    cases hp : l.tree.node? i with
    | none =>
      rw [(h.node?_eq_none i).2 hp]
      rfl
    | some p =>
      obtain ⟨p', hp', -, -, -, -, hannotations, -⟩ := h.exists_node? hp
      rw [hp']
      simp only [Option.bind_eq_bind, Option.bind_some, hannotations, h.named?]
      exact congrArg _ (funext fun j => h.walk? j path.steps)

/-- A path leads to the same parameter. -/
lemma find?_none (path : String) : l'.tree.find? none path = l.tree.find? none path := by
  rw [Tree.find?, Tree.find?]
  simp only [h.top, funext (h.follow? l.tree.top)]

/-- A resource is for the same place. -/
lemma placeOf (r : Resource) : Link.placeOf l'.tree r = Link.placeOf l.tree r := by
  rw [Link.placeOf, Link.placeOf, h.top]
  simp only [h.element?]

end SameSkeleton

/-! ### Sources -/

/-- A handle is that of an array with as many members as elements, and at least one. -/
def IsArray (t : Tree) (h : Handle) : Prop :=
  ∃ p, t.node? h = some p ∧ 0 < p.decl.elements ∧ p.members.length = p.decl.elements.toNat

/-- Where the program of a selector starts, behind the padded name of the array. -/
def selectorStart (length : UInt32) : Nat := 4 + (length.toNat + Word.padding length.toNat)

/-- What a resource says about the source of a state, given the type of the state's own value. -/
inductive Describes (t : Tree) (type : ParameterType) (r : Resource) : Source → Prop
  /-- A shader becomes the state's own value. -/
  | shader : r.usage = 0 → type.isShader = true → Describes t type r .constant
  | expression {program : Program} : r.usage = 0 → type.isShader = false →
      Program.decode r.data = .ok program →
      Describes t type r (.expression ⟨program, bindInputs t program⟩)
  | parameter {path : String} {h : Handle} : r.usage = 1 →
      r.data.text 0 "parameter reference" = .ok path → t.find? none path = some h →
      Describes t type r (.parameter h)
  | selector {length : UInt32} {path : String} {array : Handle} {program : Program} :
      r.usage = 2 → r.data.word 0 "array selector name size" = .ok length →
      r.data.text 4 "array selector name" = .ok path → t.find? none path = some array →
      IsArray t array → selectorStart length ≤ r.data.size →
      Program.decode (r.data.extract (selectorStart length) r.data.size) = .ok program →
      Describes t type r (.selector array ⟨program, bindInputs t program⟩)

/-- The program of an expression or of a selector. -/
def programOf : Source → Option BoundProgram
  | .expression p | .selector _ p => some p
  | .constant | .parameter _ => none

/-- Every input of a program names a parameter, and none that is skipped. -/
def Resolves (t : Tree) (skip : List String) (program : Program) : Prop :=
  ∀ c ∈ program.inputs.constants, c.name ∉ skip ∧ ∃ h, t.find? none c.name = some h

section

variable {l l' : Linking} (h : SameSkeleton l l')
include h

lemma SameSkeleton.bindInputs (program : Program) :
    Link.bindInputs l'.tree program = Link.bindInputs l.tree program := by
  simp only [Link.bindInputs, h.find?_none]

lemma SameSkeleton.isArray {i : Handle} (hi : IsArray l.tree i) : IsArray l'.tree i := by
  obtain ⟨p, hp, hpos, hlength⟩ := hi
  obtain ⟨p', hp', hnode, -, -, hmembers, -⟩ := h.exists_node? hp
  have hdecl : p'.decl = p.decl := congrArg Node.decl hnode
  exact ⟨p', hp', by rwa [hdecl], by rwa [hmembers, hdecl]⟩

lemma SameSkeleton.describes {type : ParameterType} {r : Resource} {source : Source}
    (hr : Describes l.tree type r source) : Describes l'.tree type r source := by
  cases hr with
  | shader husage htype => exact .shader husage htype
  | expression husage htype hdecode =>
    rw [← h.bindInputs]
    exact .expression husage htype hdecode
  | parameter husage hpath hfind =>
    exact .parameter husage hpath ((h.find?_none _).trans hfind)
  | selector husage hlength hpath hfind harray hstart hdecode =>
    rw [← h.bindInputs]
    exact .selector husage hlength hpath ((h.find?_none _).trans hfind) (h.isArray harray) hstart
      hdecode

lemma SameSkeleton.resolves {skip : List String} {program : Program}
    (hp : Resolves l.tree skip program) : Resolves l'.tree skip program := fun c hc =>
  (hp c hc).imp_right fun ⟨i, hi⟩ => ⟨i, (h.find?_none _).trans hi⟩

end

/-! ### Programs -/

section

variable {t : Tree} {skip : List String}

lemma resolves_of_checkInputs {cs : List Constant} (h : checkInputs t skip cs = .ok ()) :
    ∀ c ∈ cs, c.name ∉ skip ∧ ∃ i, t.find? none c.name = some i := by
  induction cs with
  | nil => exact fun c hc => by cases hc
  | cons c rest ih =>
    rw [checkInputs] at h
    split at h
    · cases h
    · rename_i hskip
      split at h
      · cases h
      · rename_i hfind
        refine List.forall_mem_cons.2 ⟨⟨by simpa using hskip, ?_⟩, ih h⟩
        exact Option.ne_none_iff_exists'.1 (by simpa using hfind)

lemma exists_of_bindProgram {data : Bytes} {p : BoundProgram}
    (h : bindProgram t skip data = .ok p) :
    ∃ program, Program.decode data = .ok program ∧ p = ⟨program, bindInputs t program⟩ ∧
      Resolves t skip program := by
  obtain ⟨program, hdecode, h⟩ := exists_of_bind_eq_ok h
  obtain ⟨⟨⟩, hcheck, h⟩ := exists_of_bind_eq_ok h
  cases h
  exact ⟨program, eq_ok_of_mapError_eq_ok hdecode, rfl, resolves_of_checkInputs hcheck⟩

lemma exists_of_readReference {data : Bytes} {source : Source}
    (h : readReference t data = .ok source) : ∃ path i,
      data.text 0 "parameter reference" = .ok path ∧ t.find? none path = some i ∧
        source = .parameter i := by
  obtain ⟨path, hpath, h⟩ := exists_of_bind_eq_ok h
  split at h
  · rename_i i hfind
    cases h
    exact ⟨path, i, eq_ok_of_mapError_eq_ok hpath, hfind, rfl⟩
  · cases h

lemma exists_of_readSelector {data : Bytes} {source : Source}
    (h : readSelector t skip data = .ok source) : ∃ length path array program,
      data.word 0 "array selector name size" = .ok length ∧
      data.text 4 "array selector name" = .ok path ∧ t.find? none path = some array ∧
      ((t.node? array).map (·.decl.elements)).getD 0 ≠ 0 ∧
      selectorStart length ≤ data.size ∧
      Program.decode (data.extract (selectorStart length) data.size) = .ok program ∧
      source = .selector array ⟨program, bindInputs t program⟩ ∧ Resolves t skip program := by
  obtain ⟨length, hlength, h⟩ := exists_of_bind_eq_ok h
  obtain ⟨path, hpath, h⟩ := exists_of_bind_eq_ok h
  simp only at h
  split at h
  · cases h
  · rename_i hstart
    split at h
    · rename_i array hfind
      split at h
      · cases h
      · rename_i helements
        obtain ⟨p, hp, h⟩ := exists_of_bind_eq_ok h
        cases h
        obtain ⟨program, hdecode, rfl, hresolves⟩ := exists_of_bindProgram hp
        exact ⟨length, path, array, program, eq_ok_of_mapError_eq_ok hlength,
          eq_ok_of_mapError_eq_ok hpath, hfind, helements, Nat.le_of_not_lt hstart, hdecode, rfl,
          hresolves⟩
    · cases h

end

/-! ### One resource -/

/-- Every state is at a place. -/
lemma exists_stateAt_of_mem_allStates {l : Linking} {s : StateEntry}
    (hs : s ∈ allStates l.tree l.techniques) : ∃ place, stateAt l place = some s := by
  rcases List.mem_append.1 hs with hs | hs
  · obtain ⟨technique, ht, hs⟩ := List.mem_flatMap.1 hs
    obtain ⟨pass, hp, hs⟩ := List.mem_flatMap.1 hs
    exact exists_stateAt_of_mem_pass ht hp hs
  · obtain ⟨p, hp, hs⟩ := List.mem_flatMap.1 hs
    obtain ⟨n, hn⟩ := List.mem_iff_getElem?.1 hp
    rw [Array.getElem?_toList] at hn
    exact exists_stateAt_of_mem_node (h := ⟨n⟩) hn hs

/-- A resource is bound to a state whose source it describes. -/
structure Binds (l : Linking) (skip : List String) (r : Resource) (place : StatePlace)
    (s : StateEntry) (source : Source) : Prop where
  placeOf : placeOf l.tree r = some place
  stateAt : stateAt l place = some s
  described : ∃ p, l.tree.node? s.param = some p ∧ Describes l.tree p.decl.type r source
  resolves : ∀ p, programOf source = some p → Resolves l.tree skip p.program

variable {l l' : Linking} {im : Image} {skip : List String} {pending : Array Pending}

lemma stateAt_congr (htree : l'.tree = l.tree) (htechniques : l'.techniques = l.techniques)
    (place : StatePlace) : stateAt l' place = stateAt l place := by
  cases place <;> simp only [stateAt, htree, htechniques]

/-- Objects and identities do not matter. -/
lemma Binds.congr {r : Resource} {place : StatePlace} {s : StateEntry} {source : Source}
    (h : Binds l skip r place s source) (htree : l'.tree = l.tree)
    (htechniques : l'.techniques = l.techniques) : Binds l' skip r place s source where
  placeOf := htree ▸ h.placeOf
  stateAt := (stateAt_congr htree htechniques place).trans h.stateAt
  described := htree ▸ h.described
  resolves := htree ▸ h.resolves

lemma isArray_of_elements (hmade : Made im l.tree l.techniques) (him : im.WellFormed) {h : Handle}
    (helements : ((l.tree.node? h).map (·.decl.elements)).getD 0 ≠ 0) : IsArray l.tree h := by
  cases hp : l.tree.node? h with
  | none => simp [hp] at helements
  | some p =>
    rw [hp] at helements
    have hne : p.decl.elements ≠ 0 := helements
    exact ⟨p, hp, UInt32.pos_iff_ne_zero.2 hne, hmade.length_members him hp hne⟩

/-- To bind a resource is to give one state the source that the resource describes. -/
lemma binds_of_bindResource (hmade : Made im l.tree l.techniques) (him : im.WellFormed)
    {r : Resource} (h : bindResource skip pending l r = .ok l') :
    ∃ place s source, Binds l skip r place s source ∧
      l'.tree = (setSource l place source).tree ∧
      l'.techniques = (setSource l place source).techniques := by
  obtain ⟨place, s, p, hplace, hs, hp, hrebinds⟩ := rebinds_of_bindResource h
  refine ⟨place, s, ?_⟩
  cases hrebinds with
  | shader husage htype hbetween =>
    obtain ⟨object, slot, -, -, rfl⟩ := exists_of_bindShader hbetween
    refine ⟨.constant, ⟨hplace, hs, ⟨p, hp, .shader husage htype⟩, fun _ h => by cases h⟩, ?_⟩
    cases place <;> exact ⟨rfl, rfl⟩
  | expression husage htype hb =>
    obtain ⟨program, hdecode, rfl, hresolves⟩ := exists_of_bindProgram hb
    refine ⟨_, ⟨hplace, hs, ⟨p, hp, .expression husage htype hdecode⟩, ?_⟩, rfl, rfl⟩
    rintro _ ⟨⟩
    exact hresolves
  | reference husage hsource =>
    obtain ⟨path, i, hpath, hfind, rfl⟩ := exists_of_readReference hsource
    exact ⟨_, ⟨hplace, hs, ⟨p, hp, .parameter husage hpath hfind⟩, fun _ h => by cases h⟩, rfl, rfl⟩
  | selector husage hsource =>
    obtain ⟨length, path, array, program, hlength, hpath, hfind, helements, hstart, hdecode, rfl,
      hresolves⟩ := exists_of_readSelector hsource
    refine ⟨_, ⟨hplace, hs, ⟨p, hp, .selector husage hlength hpath hfind
      (isArray_of_elements hmade him helements) hstart hdecode⟩, ?_⟩, rfl, rfl⟩
    rintro _ ⟨⟩
    exact hresolves

/-! ### All resources -/

lemma stateAt_setSource_self (l : Linking) (place : StatePlace) (source : Source) :
    stateAt (setSource l place source) place =
      (stateAt l place).map fun s => { s with source } := by
  cases place with
  | sampler h i =>
    simp only [stateAt, setSource, Tree.node?, Tree.modifyNode, Array.getElem?_modify, if_true]
    cases l.tree.nodes[h.index]? <;> simp
  | pass t p i =>
    simp only [stateAt, setSource, List.getElem?_modify, if_true]
    cases l.techniques[t]? with
    | none => rfl
    | some technique =>
      simp only [Option.map_some, Option.bind_eq_bind, Option.bind_some, Option.map_eq_map,
        List.getElem?_modify, if_true]
      cases technique.passes[p]? <;> simp

/-- Another source for one state leaves the other states. -/
lemma stateAt_setSource_of_ne (l : Linking) {place place' : StatePlace} (hne : place' ≠ place)
    (source : Source) : stateAt (setSource l place source) place' = stateAt l place' := by
  cases place' with
  | sampler h i =>
    cases place with
    | sampler h' i' =>
      simp only [stateAt, setSource, Tree.node?, Tree.modifyNode, Array.getElem?_modify]
      split
      · rename_i hh
        have hi : i' ≠ i := fun hi => hne (by
          obtain ⟨n⟩ := h
          obtain ⟨n'⟩ := h'
          obtain rfl : n' = n := hh
          rw [hi])
        cases l.tree.nodes[h.index]? <;> simp [hi]
      · rfl
    | pass t' p' i' => rfl
  | pass t p i =>
    cases place with
    | sampler h' i' => rfl
    | pass t' p' i' =>
      simp only [stateAt, setSource, List.getElem?_modify]
      by_cases ht : t' = t
      · cases l.techniques[t]? with
        | none => simp [ht]
        | some technique =>
          by_cases hp : p' = p
          · have hi : i' ≠ i := fun hi => hne (by rw [ht, hp, hi])
            cases hpass : technique.passes[p]? <;>
              simp [ht, hp, hi, hpass]
          · simp [ht, hp]
      · simp [ht]

/-- What a state is after one of the states has another source. -/
lemma stateAt_setSource (l : Linking) (place place' : StatePlace) (source : Source) :
    place' = place ∧ stateAt (setSource l place source) place' =
        (stateAt l place').map (fun s => { s with source }) ∨
      place' ≠ place ∧ stateAt (setSource l place source) place' = stateAt l place' := by
  rcases Classical.em (place' = place) with rfl | hne
  · exact .inl ⟨rfl, stateAt_setSource_self l place' source⟩
  · exact .inr ⟨hne, stateAt_setSource_of_ne l hne source⟩

/-- A resource is the last one of some for a place. -/
def IsLastFor (t : Tree) (place : StatePlace) (rs : List Resource) (r : Resource) : Prop :=
  ∃ before after, rs = before ++ r :: after ∧ placeOf t r = some place ∧
    ∀ r' ∈ after, placeOf t r' ≠ some place

/-- A state before and after resources are bound. -/
structure Attached (l : Linking) (skip : List String) (rs : List Resource) (place : StatePlace)
    (s s' : StateEntry) : Prop where
  param : s'.param = s.param
  unnamed : (∀ r ∈ rs, placeOf l.tree r ≠ some place) → s'.source = s.source
  named : ∀ r, IsLastFor l.tree place rs r →
    ∃ p, l.tree.node? s.param = some p ∧ Describes l.tree p.decl.type r s'.source
  resolves : ∀ p, programOf s'.source = some p →
    programOf s.source = some p ∨ Resolves l.tree skip p.program

/-- What a resource describes in a tree it describes in every tree of the same skeleton. -/
lemma SameSkeleton.exists_describes (h : SameSkeleton l l') {i : Handle} {r : Resource}
    {source : Source}
    (hr : ∃ p, l.tree.node? i = some p ∧ Describes l.tree p.decl.type r source) :
    ∃ p, l'.tree.node? i = some p ∧ Describes l'.tree p.decl.type r source := by
  obtain ⟨p, hp, hdescribes⟩ := hr
  obtain ⟨p', hp', hnode, -⟩ := h.exists_node? hp
  have hdecl : p'.decl = p.decl := congrArg Node.decl hnode
  exact ⟨p', hp', hdecl ▸ h.describes hdescribes⟩

/-- What is bound first stays until something is bound later for the same place. -/
lemma Attached.cons (hskeleton : SameSkeleton l l') {r : Resource} {rest : List Resource}
    {place place' : StatePlace} {s₀ s s₁ s' : StateEntry} {source : Source}
    (hbinds : Binds l skip r place s₀ source) (hs : stateAt l place' = some s)
    (hfirst : place' = place ∧ s₁ = { s with source } ∨ place' ≠ place ∧ s₁ = s)
    (h : Attached l' skip rest place' s₁ s') : Attached l skip (r :: rest) place' s s' := by
  have hlater : (∀ r' ∈ rest, placeOf l.tree r' ≠ some place') → s'.source = s₁.source :=
    fun hnone => h.unnamed fun r' hr' => by
      rw [hskeleton.placeOf]
      exact hnone r' hr'
  have hparam : s₁.param = s.param := by
    rcases hfirst with ⟨-, rfl⟩ | ⟨-, rfl⟩ <;> rfl
  refine ⟨h.param.trans hparam, fun hnone => ?_, fun r' hr' => ?_, fun p hp => ?_⟩
  · have hother : s₁ = s := by
      rcases hfirst with ⟨rfl, -⟩ | ⟨-, heq⟩
      · exact absurd hbinds.placeOf (hnone r List.mem_cons_self)
      · exact heq
    exact hother ▸ hlater fun r' hr' => hnone r' (List.mem_cons_of_mem _ hr')
  · obtain ⟨before, after, heq, hplace, hnone⟩ := hr'
    cases before with
    | nil =>
      obtain ⟨rfl, rfl⟩ := List.cons.inj heq
      obtain rfl : place' = place := Option.some.inj (hplace.symm.trans hbinds.placeOf)
      obtain rfl : s₀ = s := Option.some.inj (hbinds.stateAt.symm.trans hs)
      obtain ⟨-, rfl⟩ := hfirst.resolve_right fun hne => hne.1 rfl
      rw [hlater hnone]
      exact hbinds.described
    | cons b before =>
      obtain ⟨rfl, rfl⟩ := List.cons.inj heq
      refine hskeleton.symm.exists_describes (hparam ▸ h.named r' ⟨before, after, rfl, ?_, ?_⟩)
      · rwa [hskeleton.placeOf]
      · intro r'' hr''
        rw [hskeleton.placeOf]
        exact hnone r'' hr''
  · rcases h.resolves p hp with hp | hp
    · rcases hfirst with ⟨rfl, rfl⟩ | ⟨-, rfl⟩
      · exact .inr (hbinds.resolves p hp)
      · exact .inl hp
    · exact .inr (hskeleton.symm.resolves hp)

/-- What states are after all resources were bound. -/
lemma stateAt_bindResources (hmade : Made im l.tree l.techniques) (him : im.WellFormed)
    {rs : List Resource} (h : bindResources skip pending rs l = .ok l') {place : StatePlace}
    {s' : StateEntry} (hs' : stateAt l' place = some s') :
    ∃ s, stateAt l place = some s ∧ Attached l skip rs place s s' := by
  induction rs generalizing l with
  | nil =>
    cases h
    refine ⟨s', hs', rfl, fun _ => rfl, fun r hr => ?_, fun _ hp => .inl hp⟩
    obtain ⟨before, after, heq, -⟩ := hr
    cases before <;> cases heq
  | cons r rest ih =>
    obtain ⟨between, hbetween, h⟩ := exists_of_bind_eq_ok h
    obtain ⟨place', s₀, source, hbinds, htree, htechniques⟩ :=
      binds_of_bindResource hmade him hbetween
    have hskeleton := (attaches_bindResource hbetween).skeleton
    obtain ⟨s₁, hs₁, hattached⟩ := ih (hskeleton.made hmade) h
    rw [stateAt_congr htree htechniques] at hs₁
    rcases stateAt_setSource l place' place source with ⟨rfl, heq⟩ | ⟨hne, heq⟩
    · obtain ⟨s, hs, rfl⟩ := Option.map_eq_some_iff.1 (heq.symm.trans hs₁)
      exact ⟨s, hs, hattached.cons hskeleton hbinds hs (.inl ⟨rfl, rfl⟩)⟩
    · rw [heq] at hs₁
      exact ⟨s₁, hs₁, hattached.cons hskeleton hbinds hs₁ (.inr ⟨hne, rfl⟩)⟩

/-- If all resources are bound, each of them describes a source of the state it is for. -/
lemma exists_binds_of_bindResources (hmade : Made im l.tree l.techniques) (him : im.WellFormed)
    {rs : List Resource} (h : bindResources skip pending rs l = .ok l') {r : Resource}
    (hr : r ∈ rs) : ∃ place s source, Binds l skip r place s source := by
  induction rs generalizing l with
  | nil => cases hr
  | cons r' rest ih =>
    obtain ⟨between, hbetween, h⟩ := exists_of_bind_eq_ok h
    obtain ⟨place', s₀, source', hbinds', htree, htechniques⟩ :=
      binds_of_bindResource hmade him hbetween
    rcases List.mem_cons.1 hr with rfl | hr
    · exact ⟨place', s₀, source', hbinds'⟩
    · have hskeleton := (attaches_bindResource hbetween).skeleton
      obtain ⟨place, s₁, source, hbinds⟩ := ih (hskeleton.made hmade) h hr
      have hs₁ := hbinds.stateAt
      rw [stateAt_congr htree htechniques] at hs₁
      obtain ⟨s, hs, hparam⟩ : ∃ s, stateAt l place = some s ∧ s.param = s₁.param := by
        rcases stateAt_setSource l place' place source' with ⟨rfl, heq⟩ | ⟨-, heq⟩
        · obtain ⟨s, hs, rfl⟩ := Option.map_eq_some_iff.1 (heq.symm.trans hs₁)
          exact ⟨s, hs, rfl⟩
        · exact ⟨s₁, heq.symm.trans hs₁, rfl⟩
      exact ⟨place, s, source, (hskeleton.placeOf r).symm.trans hbinds.placeOf, hs,
        hskeleton.symm.exists_describes (hparam ▸ hbinds.described),
        fun p hp => hskeleton.symm.resolves (hbinds.resolves p hp)⟩

/-! ### Resources that cannot be bound -/

/-- A resource that is for no state, is of no known usage, or names what is not there. -/
inductive Faulty (l : Linking) (r : Resource) : Prop
  | missing : (∀ place, placeOf l.tree r = some place → stateAt l place = none) → Faulty l r
  | usage : r.usage ≠ 0 → r.usage ≠ 1 → r.usage ≠ 2 → Faulty l r
  | reference : r.usage = 1 → (∀ path, r.data.text 0 "parameter reference" = .ok path →
      l.tree.find? none path = none) → Faulty l r
  | selector : r.usage = 2 → (∀ path, r.data.text 4 "array selector name" = .ok path →
      l.tree.find? none path = none) → Faulty l r
  | notArray {path : String} {h : Handle} {p : Parameter} : r.usage = 2 →
      r.data.text 4 "array selector name" = .ok path → l.tree.find? none path = some h →
      l.tree.node? h = some p → p.decl.elements = 0 → Faulty l r

lemma Binds.not_faulty {r : Resource} {place : StatePlace} {s : StateEntry} {source : Source}
    (h : Binds l skip r place s source) : ¬Faulty l r := by
  obtain ⟨p, -, hdescribes⟩ := h.described
  intro hfaulty
  cases hfaulty with
  | missing hnone =>
    have hstate := (hnone place h.placeOf).symm.trans h.stateAt
    cases hstate
  | usage h₀ h₁ h₂ =>
    cases hdescribes with
    | shader husage | expression husage => exact h₀ husage
    | parameter husage => exact h₁ husage
    | selector husage => exact h₂ husage
  | reference husage hnone =>
    cases hdescribes with
    | parameter _ hpath hfind =>
      have hnone := (hnone _ hpath).symm.trans hfind
      cases hnone
    | shader husage' | expression husage' | selector husage' =>
      rw [husage] at husage'
      exact absurd husage' (by decide)
  | selector husage hnone =>
    cases hdescribes with
    | selector _ _ hpath hfind =>
      have hnone := (hnone _ hpath).symm.trans hfind
      cases hnone
    | shader husage' | expression husage' | parameter husage' =>
      rw [husage] at husage'
      exact absurd husage' (by decide)
  | notArray husage hpath hfind hnode helements =>
    cases hdescribes with
    | selector _ _ hpath' hfind' harray =>
      obtain rfl := Except.ok.inj (hpath.symm.trans hpath')
      obtain rfl := Option.some.inj (hfind.symm.trans hfind')
      obtain ⟨q, hq, hpos, -⟩ := harray
      obtain rfl := Option.some.inj (hnode.symm.trans hq)
      rw [helements] at hpos
      exact absurd hpos (by decide)
    | shader husage' | expression husage' | parameter husage' =>
      rw [husage] at husage'
      exact absurd husage' (by decide)

/-! ### Objects -/

lemma exists_mem_entries_of_get? {κ ν : Type} [TableKey κ] {t : Table κ ν} {key : κ} {value : ν}
    (h : t.get? key = some value) : ∃ k, (k, value) ∈ t.entries := by
  obtain ⟨e, he, rfl⟩ := Option.map_eq_some_iff.1 h
  exact ⟨e.1, List.mem_of_find?_eq_some he⟩

lemma resolves_of_checkShaders {t : Tree} {entries : List (UInt32 × EffectObject)}
    (h : checkShaders t skip entries = .ok ()) {id : UInt32} {object : EffectObject}
    (hmem : (id, object) ∈ entries) {program : Program}
    (hprogram : object.shader?.bind (·.value.program) = some program) :
    Resolves t skip program := by
  induction entries with
  | nil => cases hmem
  | cons e rest ih =>
    obtain ⟨id', object'⟩ := e
    rw [checkShaders] at h
    split at h
    · rename_i program' hprogram'
      obtain ⟨⟨⟩, hcheck, h⟩ := exists_of_bind_eq_ok h
      rcases List.mem_cons.1 hmem with heq | hmem
      · obtain ⟨rfl, rfl⟩ := Prod.mk.inj heq
        obtain rfl := Option.some.inj (hprogram.symm.trans hprogram')
        exact resolves_of_checkInputs hcheck
      · exact ih h hmem
    · rename_i hnone
      rcases List.mem_cons.1 hmem with heq | hmem
      · obtain ⟨rfl, rfl⟩ := Prod.mk.inj heq
        exact absurd hprogram (hnone program)
      · exact ih h hmem

/-- What a slot holds was there before it was filled, or is the object that it waits for. -/
lemma exists_of_fillSlots {objects : Table UInt32 EffectObject} {initial : Array Contents}
    {r j : Nat} {c : Contents} {o : EffectObject}
    (hc : (fillSlots objects pending initial)[r]? = some c) (ho : c.objects[j]? = some (some o)) :
    (∃ c, initial[r]? = some c ∧ c.objects[j]? = some (some o)) ∨
      ∃ q ∈ pending, q.root = r ∧ q.slot = j ∧ objects.get? q.id = some o := by
  rw [fillSlots, ← Array.foldl_toList] at hc
  have hpending : ∀ q ∈ pending.toList, q ∈ pending := fun q => Array.mem_toList_iff.1
  revert hc hpending
  induction pending.toList generalizing initial with
  | nil => exact fun hc _ => .inl ⟨c, hc, ho⟩
  | cons q rest ih =>
    intro hc hpending
    rw [List.foldl_cons] at hc
    rcases ih hc fun q' hq' => hpending q' (List.mem_cons_of_mem _ hq') with ⟨c', hc', ho'⟩ | h
    · rw [Array.getElem?_modify] at hc'
      split at hc'
      · rename_i hroot
        obtain ⟨c₀, hc₀, rfl⟩ := Option.map_eq_some_iff.1 hc'
        rw [Array.getElem?_setIfInBounds] at ho'
        split at ho'
        · rename_i hslot
          split at ho'
          · exact .inr ⟨q, hpending q List.mem_cons_self, hroot, hslot, Option.some.inj ho'⟩
          · cases ho'
        · exact .inl ⟨c₀, hc₀, ho'⟩
      · exact .inl ⟨c', hc', ho'⟩
    · exact .inr h

lemma same_makeObjects {objects : List ObjectData} (h : makeObjects im objects l = .ok l') :
    l'.tree = l.tree ∧ l'.techniques = l.techniques := by
  induction objects generalizing l with
  | nil =>
    cases h
    exact ⟨rfl, rfl⟩
  | cons d rest ih =>
    obtain ⟨object, -, h⟩ := exists_of_bind_eq_ok h
    obtain ⟨htree, htechniques⟩ := ih h
    exact ⟨htree, htechniques⟩

lemma initial_bindResources (hmade : Made im l.tree l.techniques) (him : im.WellFormed)
    {rs : List Resource} (h : bindResources skip pending rs l = .ok l') :
    l'.tree.initial = l.tree.initial := by
  induction rs generalizing l with
  | nil =>
    cases h
    rfl
  | cons r rest ih =>
    obtain ⟨between, hbetween, h⟩ := exists_of_bind_eq_ok h
    obtain ⟨place, _, source, -, htree, -⟩ := binds_of_bindResource hmade him hbetween
    have hinitial : (setSource l place source).tree.initial = l.tree.initial := by
      cases place <;> rfl
    rw [ih ((attaches_bindResource hbetween).skeleton.made hmade) h, htree, hinitial]

/-- No object is in a slot before slots are filled. -/
lemma vacant_start (im : Image) : ∀ c ∈ (start im).tree.initial, c.Vacant :=
  (Growth.makesStep_addImage (P := fun _ => True) im (fun _ _ _ => trivial) {}).1.vacant
    fun c hc => by simp at hc

/-- Linking fills the slots of the tree that was laid out. -/
lemma initial_link (him : im.WellFormed) {nextObject : Nat}
    (h : link im skip nextObject = .ok l) :
    l.tree.initial = fillSlots l.objects (pendingOf im) (start im).tree.initial := by
  obtain ⟨made, bound, hmade, hbound, -, rfl⟩ := exists_of_link h
  obtain ⟨htree, htechniques⟩ := same_makeObjects hmade
  have hinitial := initial_bindResources (htree ▸ htechniques ▸ made_start im) him hbound
  rw [htree] at hinitial
  exact congrArg (fillSlots bound.objects (pendingOf im)) hinitial

/-! ### Linked images -/

lemma SameSkeleton.isLastFor (h : SameSkeleton l l') {place : StatePlace} {rs : List Resource}
    {r : Resource} (hr : IsLastFor l.tree place rs r) : IsLastFor l'.tree place rs r := by
  obtain ⟨before, after, heq, hplace, hnone⟩ := hr
  exact ⟨before, after, heq, (h.placeOf r).trans hplace, fun r' hr' => h.placeOf r' ▸ hnone r' hr'⟩

/-- A linked image in which all states have the sources that its resources describe, and all
programs have their inputs. -/
structure Bound (im : Image) (skip : List String) (l : Linking) : Prop where
  unnamed : ∀ place s, stateAt l place = some s →
    (∀ r ∈ im.resources, placeOf l.tree r ≠ some place) → s.source = .constant
  named : ∀ place s r, stateAt l place = some s → IsLastFor l.tree place im.resources r →
    ∃ p, l.tree.node? s.param = some p ∧ Describes l.tree p.decl.type r s.source
  programs : ∀ place s p, stateAt l place = some s → programOf s.source = some p →
    Resolves l.tree skip p.program
  objects : ∀ (r : Nat) c, l.tree.initial[r]? = some c → ∀ (j : Nat) o,
    c.objects[j]? = some (some o) →
    ∃ q ∈ pendingOf im, q.root = r ∧ q.slot = j ∧ l.objects.get? q.id = some o
  shaders : ∀ id o program, l.objects.get? id = some o →
    o.shader?.bind (·.value.program) = some program → Resolves l.tree skip program
  faultless : ∀ r ∈ im.resources, ¬Faulty (start im) r

/-- An image that is linked is bound. -/
theorem bound_link (him : im.WellFormed) {nextObject : Nat}
    (h : link im skip nextObject = .ok l) : Bound im skip l := by
  have hinitial := initial_link him h
  obtain ⟨made, bound, hmade, hbound, hcheck, hl⟩ := exists_of_link h
  obtain ⟨htree, htechniques⟩ := same_makeObjects hmade
  have hvalues : Made im made.tree made.techniques := htree ▸ htechniques ▸ made_start im
  have hskeleton := (attaches_bindResources hbound).skeleton
  have hfilled : SameSkeleton bound l := hl ▸ (Attaches.of_initial (extents_fillSlots ..)).skeleton
  have hsame := hskeleton.trans hfilled
  have hstates : ∀ place s, stateAt l place = some s → ∃ s₀, s₀.source = .constant ∧
      Attached made skip im.resources place s₀ s := by
    intro place s hs
    have hs : stateAt bound place = some s := by
      rw [← hs, hl]
      cases place <;> rfl
    obtain ⟨s₀, hs₀, hattached⟩ := stateAt_bindResources hvalues him hbound hs
    rw [stateAt_congr htree htechniques] at hs₀
    exact ⟨s₀, source_start (mem_allStates_of_stateAt hs₀), hattached⟩
  refine ⟨fun place s hs hnone => ?_, fun place s r hs hlast => ?_, fun place s p hs hp => ?_,
    fun r c hc j o ho => ?_, fun id o program ho hprogram => ?_, fun r hr => ?_⟩
  · obtain ⟨s₀, hconstant, hattached⟩ := hstates place s hs
    refine (hattached.unnamed fun r hr => ?_).trans hconstant
    rw [← hsame.placeOf]
    exact hnone r hr
  · obtain ⟨s₀, -, hattached⟩ := hstates place s hs
    rw [hattached.param]
    exact hsame.exists_describes (hattached.named r (hsame.symm.isLastFor hlast))
  · obtain ⟨s₀, hconstant, hattached⟩ := hstates place s hs
    rcases hattached.resolves p hp with hp | hresolves
    · rw [hconstant] at hp
      cases hp
    · exact hsame.resolves hresolves
  · rw [hinitial] at hc
    refine (exists_of_fillSlots hc ho).resolve_left ?_
    rintro ⟨c₀, hc₀, ho₀⟩
    exact vacant_start im c₀ (Array.mem_of_getElem? hc₀) j o ho₀
  · rw [hl] at ho
    obtain ⟨id', hmem⟩ := exists_mem_entries_of_get? ho
    exact hfilled.resolves (resolves_of_checkShaders hcheck hmem hprogram)
  · obtain ⟨place, s, source, hbinds⟩ := exists_binds_of_bindResources hvalues him hbound hr
    have hbinds : Binds (start im) skip r place s source :=
      hbinds.congr htree.symm htechniques.symm
    exact hbinds.not_faulty

end Link

end ShaderEffect
