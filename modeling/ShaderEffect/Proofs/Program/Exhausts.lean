import ShaderEffect.Proofs.Image.Longer
import ShaderEffect.Proofs.Program.Answers

/-!
# Reading instructions that were cut off

Written instructions are gone through to their end or refused: a reader that succeeds where data may
have been cut off has missed nothing (`Reader.Exhausts`). What the instructions stand for does not
matter, only how many words they have.
-/

namespace ShaderEffect

open Word

variable {α β : Type}

/-- Where data that may have been cut off has some bytes, a reader that succeeds has gone through
all of them: none was missing. -/
def Reader.Exhausts (reader : Reader α) (bs : List UInt8) : Prop :=
  ∀ (data more : Bytes) (position : Nat) (a : α) (stop : Nat), position ≤ data.size →
    Bytes.Holds (data ++ more) position bs → reader data position = .ok (a, stop) →
    stop = position + bs.length ∧ stop ≤ data.size

namespace Reader.Exhausts

variable {reader : Reader α} {bs cs : List UInt8}

lemma pure (a : α) : (pure a : Reader α).Exhausts [] := by
  intro data more position b stop hle _ hread
  cases hread
  exact ⟨rfl, hle⟩

lemma throw (e : FormatError) : (throw e : Reader α).Exhausts bs := by
  intro data more position b stop _ _ hread
  cases hread

lemma bind {f : α → Reader β} (h : reader.Exhausts bs) (hf : ∀ a, (f a).Exhausts cs) :
    (reader >>= f).Exhausts (bs ++ cs) := by
  intro data more position b stop hle hholds hread
  obtain ⟨hfirst, hrest⟩ := Bytes.holds_append.1 hholds
  obtain ⟨⟨a, between⟩, hread, hread'⟩ := bind_eq_ok_iff.1 hread
  obtain ⟨rfl, hle'⟩ := h data more position a between hle hfirst hread
  rw [List.length_append, ← Nat.add_assoc]
  exact hf a data more _ b stop hle' hrest hread'

lemma bind_pure {f : α → β} (h : reader.Exhausts bs) :
    (reader >>= fun a => Pure.pure (f a)).Exhausts bs := by
  have hboth := h.bind fun a => pure (f a)
  rwa [List.append_nil] at hboth

lemma whole (f : Bytes → Except FormatError α) : (Reader.whole f).Exhausts [] := by
  intro data more position b stop hle _ hread
  rw [Reader.whole] at hread
  split at hread
  case h_2 => cases hread
  case h_1 =>
    cases hread
    exact ⟨rfl, hle⟩

lemma guard {c : Prop} [Decidable c] {e : FormatError} {rest : Unit → Reader α}
    (h : (rest ()).Exhausts bs) :
    Reader.Exhausts (if c then MonadExcept.throw e >>= rest else rest ()) bs := by
  by_cases hc : c
  · rw [if_pos hc]
    intro data more position b stop _ _ hread
    cases hread
  · rwa [if_neg hc]

/-- As many values one after the other as things were written. -/
lemma times {written : List β} {bytes : β → List UInt8}
    (h : ∀ w ∈ written, reader.Exhausts (bytes w)) :
    (Reader.times written.length reader).Exhausts (written.flatMap bytes) := by
  induction written with
  | nil => exact pure []
  | cons w rest ih =>
    rw [List.forall_mem_cons] at h
    rw [List.length_cons, Reader.times, repeated_succ, List.flatMap_cons]
    exact h.1.bind fun a => (ih h.2).bind_pure

end Reader.Exhausts

namespace Program

end Program

end ShaderEffect
