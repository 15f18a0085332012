import Mathlib.Data.List.TakeWhile
import ShaderEffect.Tree.Path

/-!
# The grammar of paths

A path is spelled by a name, possibly an at sign and the name of an annotation, and steps: a point
and a name, or the digits of an index in square brackets. A name ends at the first mark, or with the
text. What is read of a text is what the text spells (`parse?_eq_some_iff`), so a text spells at
most one path.
-/

namespace ShaderEffect.Path

/-! ### Spellings -/

/-- A text starts with a name, the longest run without a mark. -/
structure StartsWith (text : List Char) (name : String) (rest : List Char) : Prop where
  eq_append : text = name.toList ++ rest
  unmarked : ∀ c ∈ name.toList, isMark c = false
  marked : ∀ c ∈ rest.head?, isMark c = true

/-- Decimal digits denote a number of 32 bits. -/
structure Denotes (digits : List Char) (i : Nat) : Prop where
  ne_nil : digits ≠ []
  isDigit : ∀ c ∈ digits, c.isDigit = true
  value : Nat.ofDigitChars 10 digits 0 = i
  lt : i < 2 ^ 32

/-- A text spells the steps after a name. -/
inductive SpellsSteps : List Char → List PathStep → Prop
  | nil : SpellsSteps [] []
  | member {text rest : List Char} {name : String} {steps : List PathStep} : text ≠ [] →
      StartsWith text name rest → SpellsSteps rest steps →
      SpellsSteps ('.' :: text) (.member name :: steps)
  | index {digits rest : List Char} {i : Nat} {steps : List PathStep} : Denotes digits i →
      SpellsSteps rest steps → SpellsSteps ('[' :: (digits ++ ']' :: rest)) (.index i :: steps)

/-- A text spells a path. -/
inductive Spells : List Char → Path → Prop
  | plain {text rest : List Char} {name : String} {steps : List PathStep} :
      StartsWith text name rest → SpellsSteps rest steps → Spells text ⟨name, none, steps⟩
  | annotated {text between rest : List Char} {name note : String} {steps : List PathStep} :
      StartsWith text name ('@' :: between) → StartsWith between note rest →
      SpellsSteps rest steps → Spells text ⟨name, some note, steps⟩

/-! ### Names and indices -/

/-- A text starts with the name that is split off, and with no other. -/
lemma splitName_eq_iff {text rest : List Char} {name : String} :
    splitName text = (name, rest) ↔ StartsWith text name rest := by
  constructor
  · intro h
    obtain ⟨rfl, rfl⟩ := Prod.mk.inj h
    refine ⟨by simp, fun c hc => ?_, fun c hc => ?_⟩
    · rw [String.toList_ofList] at hc
      simpa using List.mem_takeWhile_imp hc
    · have hhead := List.head?_dropWhile_not (!isMark ·) text
      rw [Option.mem_def.1 hc] at hhead
      simpa using hhead
  · rintro ⟨rfl, hname, hrest⟩
    have hunmarked : ∀ c ∈ name.toList, (!isMark c) = true := fun c hc => by simp [hname c hc]
    rw [splitName, List.takeWhile_append_of_pos hunmarked, List.dropWhile_append_of_pos hunmarked]
    cases rest with
    | nil => simp
    | cons c rest => simp [hrest c rfl]

lemma isDigit_eq (c : Char) : isDigit c = c.isDigit := rfl

lemma digitsValue_eq_ofDigitChars (digits : List Char) :
    digitsValue digits = Nat.ofDigitChars 10 digits 0 := by
  simp only [digitsValue, Nat.ofDigitChars_eq_foldl, Nat.mul_comm]

/-- A number is denoted by its decimal digits. -/
lemma denotes_toString {i : Nat} (hi : i < 2 ^ 32) : Denotes (toString i).toList i := by
  rw [Nat.toString_eq_ofList_toDigits, String.toList_ofList]
  exact ⟨Nat.toDigits_ne_nil, fun c hc => Nat.isDigit_of_mem_toDigits (by decide) le_rfl hc,
    Nat.ofDigitChars_ten_toDigits, hi⟩

lemma Denotes.bracket_notMem {digits : List Char} {i : Nat} (h : Denotes digits i) :
    ']' ∉ digits :=
  fun hmem => absurd (h.isDigit _ hmem) (by decide)

lemma parseIndex_eq_some_iff {text rest : List Char} {i : Nat} :
    parseIndex text = some (i, rest) ↔
      ∃ digits, text = digits ++ ']' :: rest ∧ Denotes digits i := by
  constructor
  · intro h
    have htext := List.takeWhile_append_dropWhile (p := (· != ']')) (l := text)
    have hhead := List.head?_dropWhile_not (· != ']') text
    simp only [parseIndex] at h
    split at h
    case h_1 => cases h
    case h_2 c rest' hrest =>
      split at h
      case isFalse => cases h
      case isTrue hdigits =>
        simp only [Bool.and_eq_true, Bool.not_eq_true', List.isEmpty_eq_false_iff, List.all_eq_true,
          decide_eq_true_eq, isDigit_eq] at hdigits
        obtain ⟨⟨hne, hdigit⟩, hlt⟩ := hdigits
        obtain ⟨rfl, rfl⟩ := Prod.mk.inj (Option.some.inj h)
        rw [hrest] at htext hhead
        obtain rfl : c = ']' := by simpa using hhead
        exact ⟨_, htext.symm, hne, hdigit, (digitsValue_eq_ofDigitChars _).symm, hlt⟩
  · rintro ⟨digits, rfl, hdigits⟩
    have hne : ∀ c ∈ digits, (c != ']') = true := fun c hc => by
      simpa using fun heq : c = ']' => hdigits.bracket_notMem (heq ▸ hc)
    have hvalue : digitsValue digits = i := (digitsValue_eq_ofDigitChars digits).trans hdigits.value
    have hdigit : digits.all isDigit = true := List.all_eq_true.2 hdigits.isDigit
    simp [parseIndex, List.takeWhile_append_of_pos hne, List.dropWhile_append_of_pos hne, hvalue,
      hdigits.ne_nil, hdigit, hdigits.lt]

/-! ### Steps -/

/-- The steps that are read are those the text spells. -/
lemma spellsSteps_of_parseSteps {fuel : Nat} {text : List Char} {steps : List PathStep}
    (h : parseSteps fuel text = some steps) : SpellsSteps text steps := by
  fun_induction parseSteps fuel text generalizing steps with
  | case1 => exact Option.some.inj h ▸ .nil
  | case4 fuel text htext name rest hname ih =>
    obtain ⟨steps, hsteps, rfl⟩ := Option.map_eq_some_iff.1 h
    exact .member (by simpa using htext) (splitName_eq_iff.1 hname) (ih hsteps)
  | case5 fuel text i rest hindex ih =>
    obtain ⟨digits, rfl, hdigits⟩ := parseIndex_eq_some_iff.1 hindex
    obtain ⟨steps, hsteps, rfl⟩ := Option.map_eq_some_iff.1 h
    exact .index hdigits (ih hsteps)
  | case2 | case3 | case6 | case7 => cases h

/-- No more steps are read than there are characters. -/
lemma SpellsSteps.parseSteps_eq {text : List Char} {steps : List PathStep}
    (h : SpellsSteps text steps) {fuel : Nat} (hfuel : text.length ≤ fuel) :
    parseSteps fuel text = some steps := by
  induction h generalizing fuel with
  | nil => rw [parseSteps]
  | @member text rest name steps htext hname _ ih =>
    obtain ⟨fuel, rfl⟩ := Nat.exists_eq_add_one_of_ne_zero (Nat.ne_zero_of_lt hfuel)
    have hlength : rest.length ≤ text.length := by
      rw [hname.eq_append, List.length_append]
      exact Nat.le_add_left ..
    have hrest := ih (hlength.trans (Nat.le_of_succ_le_succ hfuel))
    simp [parseSteps, htext, splitName_eq_iff.2 hname, hrest]
  | @index digits rest i steps hdigits _ ih =>
    obtain ⟨fuel, rfl⟩ := Nat.exists_eq_add_one_of_ne_zero (Nat.ne_zero_of_lt hfuel)
    have hlength : rest.length ≤ (digits ++ ']' :: rest).length := by simp; omega
    have hrest := ih (hlength.trans (Nat.le_of_succ_le_succ hfuel))
    rw [parseSteps, parseIndex_eq_some_iff.2 ⟨digits, rfl, hdigits⟩]
    exact congrArg (Option.map (.index i :: ·)) hrest

lemma parseRest_eq_some_iff {text : List Char} {steps : List PathStep} :
    parseRest text = some steps ↔ SpellsSteps text steps :=
  ⟨spellsSteps_of_parseSteps, fun h => h.parseSteps_eq le_rfl⟩

lemma SpellsSteps.marked {text : List Char} {steps : List PathStep} (h : SpellsSteps text steps) :
    ∀ c ∈ text.head?, isMark c = true ∧ c ≠ '@' := by
  cases h <;> simp [isMark]

/-- A name is not changed by what is behind it, if that starts with a mark. -/
lemma StartsWith.append {text rest more : List Char} {name : String}
    (h : StartsWith text name rest) (hmore : ∀ c ∈ more.head?, isMark c = true) :
    StartsWith (text ++ more) name (rest ++ more) := by
  refine ⟨by rw [h.eq_append, List.append_assoc], h.unmarked, fun c hc => ?_⟩
  cases rest with
  | nil => exact hmore c hc
  | cons d rest => exact h.marked c hc

/-- Steps may be spelled one after the other. -/
lemma SpellsSteps.append {text more : List Char} {steps further : List PathStep}
    (h : SpellsSteps text steps) (hmore : SpellsSteps more further) :
    SpellsSteps (text ++ more) (steps ++ further) := by
  induction h with
  | nil => exact hmore
  | member htext hname _ ih =>
    exact .member (List.append_ne_nil_of_left_ne_nil htext _)
      (hname.append fun c hc => (hmore.marked c hc).1) ih
  | @index digits rest i steps hdigits _ ih =>
    rw [List.cons_append, List.append_assoc, List.cons_append]
    exact .index hdigits ih

/-! ### Paths -/

/-- A path that names no annotation is what is read of a text without annotations. -/
theorem parsePlain?_eq_some_iff {text : String} {path : Path} :
    parsePlain? text = some path ↔ Spells text.toList path ∧ path.annotationName = none := by
  rw [parsePlain?]
  constructor
  · intro h
    obtain ⟨steps, hsteps, rfl⟩ := Option.map_eq_some_iff.1 h
    exact ⟨.plain (splitName_eq_iff.1 rfl) (parseRest_eq_some_iff.1 hsteps), rfl⟩
  · rintro ⟨hspells, hnone⟩
    cases hspells with
    | plain hname hsteps =>
      simp [splitName_eq_iff.2 hname, parseRest_eq_some_iff.2 hsteps]
    | annotated => cases hnone

/-- What is read of a text is the path that the text spells. -/
theorem parse?_eq_some_iff {text : String} {path : Path} :
    parse? text = some path ↔ Spells text.toList path := by
  rw [parse?]
  constructor
  · intro h
    split at h
    case h_1 name between hname =>
      obtain ⟨steps, hsteps, rfl⟩ := Option.map_eq_some_iff.1 h
      exact .annotated (splitName_eq_iff.1 hname) (splitName_eq_iff.1 rfl)
        (parseRest_eq_some_iff.1 hsteps)
    case h_2 name rest hrest hname =>
      obtain ⟨steps, hsteps, rfl⟩ := Option.map_eq_some_iff.1 h
      exact .plain (splitName_eq_iff.1 hname) (parseRest_eq_some_iff.1 hsteps)
  · intro h
    cases h with
    | plain hname hsteps =>
      rw [splitName_eq_iff.2 hname]
      split
      case h_1 heq =>
        cases heq
        exact absurd rfl (hsteps.marked _ rfl).2
      case h_2 name rest hrest heq =>
        cases heq
        exact congrArg _ (parseRest_eq_some_iff.2 hsteps)
    | annotated hname hnote hsteps =>
      simp [splitName_eq_iff.2 hname, splitName_eq_iff.2 hnote, parseRest_eq_some_iff.2 hsteps]

/-- A text spells at most one path. -/
theorem Spells.unique {text : List Char} {path path' : Path} (h : Spells text path)
    (h' : Spells text path') : path = path' := by
  rw [show text = (String.ofList text).toList by simp] at h h'
  exact Option.some.inj ((parse?_eq_some_iff.2 h).symm.trans (parse?_eq_some_iff.2 h'))

/-- A path may be spelled further. -/
lemma Spells.append {text more : List Char} {path : Path} {further : List PathStep}
    (h : Spells text path) (hmore : SpellsSteps more further) :
    Spells (text ++ more) { path with steps := path.steps ++ further } := by
  cases h with
  | plain hname hsteps =>
    exact .plain (hname.append fun c hc => (hmore.marked c hc).1) (hsteps.append hmore)
  | annotated hname hnote hsteps =>
    exact .annotated (hname.append fun c hc => (hmore.marked c hc).1)
      (hnote.append fun c hc => (hmore.marked c hc).1) (hsteps.append hmore)

end ShaderEffect.Path
