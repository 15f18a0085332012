import ShaderEffect.Image.Decode
import ShaderEffect.Proofs.Writing

/-!
# What readers answer

Stored data may hold anything, so what is known of an answer is known from the reader alone. A
reader yields a property if all its answers have it, whatever region it reads and wherever it starts
(`Reader.Yields`); for a reader of nodes the property also speaks of the number of nodes it created
(`NodeReader.Yields`).
-/

namespace ShaderEffect

/-- All answers of a reader have a property. -/
def Reader.Yields {α : Type} (reader : Reader α) (P : α → Prop) : Prop :=
  ∀ data position a position', reader data position = .ok (a, position') → P a

/-- All answers of a reader of nodes have a property, together with the number of nodes created. -/
def Image.NodeReader.Yields {α : Type} (reader : Image.NodeReader α) (P : α → Nat → Prop) : Prop :=
  ∀ budget data position a left position',
    reader budget data position = .ok ((a, left), position') →
      ∃ used, budget = left + used ∧ P a used

variable {α β : Type}

namespace Reader.Yields

variable {reader : Reader α} {P Q : α → Prop}

lemma mono (h : reader.Yields P) (hPQ : ∀ a, P a → Q a) : reader.Yields Q :=
  fun data position a position' hread => hPQ a (h data position a position' hread)

/-- Nothing is known of what may be read from data. -/
lemma any (reader : Reader α) : reader.Yields fun _ => True := fun _ _ _ _ _ => trivial

lemma pure {a : α} (h : P a) : (pure a : Reader α).Yields P := by
  intro data position b position' hread
  cases hread
  exact h

lemma throw (e : FormatError) : (throw e : Reader α).Yields P := by
  intro data position a position' hread
  cases hread

lemma bind {f : α → Reader β} {Q : β → Prop} (h : reader.Yields P)
    (hf : ∀ a, P a → (f a).Yields Q) : (reader >>= f).Yields Q := by
  intro data position b position' hread
  obtain ⟨⟨a, between⟩, hfirst, hrest⟩ := exists_of_bind_eq_ok hread
  exact hf a (h data position a between hfirst) data between b position' hrest

lemma elsewhere (h : reader.Yields P) (position : Nat) :
    (reader.elsewhere position).Yields P := by
  intro data here a here' hread
  rw [Reader.elsewhere] at hread
  cases hfirst : reader data position with
  | error e =>
    rw [hfirst] at hread
    cases hread
  | ok found =>
    rw [hfirst] at hread
    cases hread
    exact h data position _ _ hfirst

lemma repeated {act : Reader α} (h : act.Yields P) (n : Nat) (done : List α)
    (hdone : ∀ a ∈ done, P a) :
    (repeated act n done).Yields fun as => as.length = done.length + n ∧ ∀ a ∈ as, P a := by
  induction n generalizing done with
  | zero =>
    apply pure
    simpa using hdone
  | succ n ih =>
    refine h.bind fun a ha => (ih (a :: done) ?_).mono fun as has => ?_
    · simpa using ⟨ha, hdone⟩
    · rw [List.length_cons] at has
      exact ⟨by omega, has.2⟩

lemma times (h : reader.Yields P) (count : Nat) :
    (Reader.times count reader).Yields fun as => as.length = count ∧ ∀ a ∈ as, P a :=
  (h.repeated count [] fun _ ha => by cases ha).mono fun _ has => ⟨by simpa using has.1, has.2⟩

end Reader.Yields

namespace Image.NodeReader.Yields

variable {reader : NodeReader α} {P Q : α → Nat → Prop}

lemma mono (h : reader.Yields P) (hPQ : ∀ a used, P a used → Q a used) : reader.Yields Q := by
  intro budget data position a left position' hread
  obtain ⟨used, hused, hP⟩ := h budget data position a left position' hread
  exact ⟨used, hused, hPQ a used hP⟩

lemma pure {a : α} (h : P a 0) : (pure a : NodeReader α).Yields P := by
  intro budget data position b left position' hread
  cases hread
  exact ⟨0, rfl, h⟩

lemma throw (e : FormatError) : (throw e : NodeReader α).Yields P := by
  intro budget data position a left position' hread
  cases hread

lemma bind {f : α → NodeReader β} {Q : β → Nat → Prop} (h : reader.Yields P)
    (hf : ∀ a used, P a used → (f a).Yields fun b used' => Q b (used + used')) :
    (reader >>= f).Yields Q := by
  intro budget data position b left position' hread
  obtain ⟨⟨⟨a, between⟩, there⟩, hfirst, hrest⟩ := exists_of_bind_eq_ok hread
  obtain ⟨used, hused, hP⟩ := h budget data position a between there hfirst
  obtain ⟨used', hused', hQ⟩ := hf a used hP between data there b left position' hrest
  exact ⟨used + used', by omega, hQ⟩

/-- Reading without creating nodes. -/
lemma lift {reader : Reader α} {P : α → Prop} (h : reader.Yields P) :
    (liftM reader : NodeReader α).Yields fun a used => P a ∧ used = 0 := by
  intro budget data position a left position' hread
  obtain ⟨⟨b, there⟩, hfirst, hrest⟩ := exists_of_bind_eq_ok hread
  cases hrest
  exact ⟨0, rfl, h data position _ _ hfirst, rfl⟩

/-- Reading something of which nothing is known. -/
lemma skip {reader : Reader α} {f : α → NodeReader β} {Q : β → Nat → Prop}
    (hf : ∀ a, (f a).Yields Q) : ((liftM reader : NodeReader α) >>= f).Yields Q := by
  refine (lift (.any reader)).bind fun a used hused => ?_
  obtain ⟨-, rfl⟩ := hused
  simpa only [Nat.zero_add] using hf a

/-- Running a reader of nodes. -/
lemma run (h : reader.Yields P) (budget : Nat) :
    Reader.Yields (reader budget) fun r => ∃ used, budget = r.2 + used ∧ P r.1 used :=
  fun data position r position' hread => h budget data position r.1 r.2 position' hread

lemma takeNode : takeNode.Yields fun _ used => used = 1 := by
  intro budget data position a left position' hread
  cases budget with
  | zero => cases hread
  | succ budget =>
    cases hread
    exact ⟨1, rfl, rfl⟩

lemma elsewhere (h : reader.Yields P) (position : Nat) :
    (reader.elsewhere position).Yields P := by
  intro budget data here a left here' hread
  simp only [NodeReader.elsewhere, Reader.elsewhere] at hread
  cases hfirst : reader budget data position with
  | error e =>
    rw [hfirst] at hread
    cases hread
  | ok found =>
    obtain ⟨⟨b, between⟩, there⟩ := found
    rw [hfirst] at hread
    cases hread
    exact h budget data position _ _ _ hfirst

lemma repeated {act : NodeReader α} {P : α → Prop} {k : α → Nat}
    (h : act.Yields fun a used => P a ∧ used = k a) (n : Nat) :
    (repeated act n []).Yields fun as used =>
      as.length = n ∧ (∀ a ∈ as, P a) ∧ used = (as.map k).sum := by
  -- What was read before is kept in front.
  have hall : ∀ n done, (ShaderEffect.repeated act n done).Yields fun as used =>
      ∃ rest, as = done.reverse ++ rest ∧ rest.length = n ∧ (∀ a ∈ rest, P a) ∧
        used = (rest.map k).sum := by
    intro n
    induction n with
    | zero => exact fun done => .pure ⟨[], by simp⟩
    | succ n ih =>
      intro done
      refine h.bind fun a used ha => (ih (a :: done)).mono ?_
      rintro as used' ⟨rest, rfl, hlength, hrest, rfl⟩
      refine ⟨a :: rest, by simp, by simpa using hlength, ?_, ?_⟩
      · simpa using ⟨ha.1, hrest⟩
      · rw [ha.2, List.map_cons, List.sum_cons]
  refine (hall n []).mono ?_
  rintro as used ⟨rest, rfl, hrest⟩
  exact hrest

end Image.NodeReader.Yields

end ShaderEffect
