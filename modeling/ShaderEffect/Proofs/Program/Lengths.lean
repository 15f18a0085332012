import ShaderEffect.Proofs.ConstantTable.Texts
import ShaderEffect.Proofs.Program.Exhausts
import ShaderEffect.Proofs.Program.Written

/-!
# How long the comments of programs that are read are

A comment that is longer than its token can tell is taken in short, and scanning goes on inside it.
No program with such a comment is read (`WrittenProgram.fits_of_decode`): what was not taken in of
literals or of instructions is missed, and no token stands among the texts at the end of a constant
table. No other instructions are found there either, since no word of an instruction looks like the
code of a comment behind a token (`OpensNoCode`).
-/

namespace ShaderEffect

open Word

variable {α : Type}

/-! ### Parts -/

namespace Program

end Program

/-! ### Tokens -/

/-- No word of a list is the code of instructions behind the token of a comment, whatever stands in
front of the list. -/
def OpensNoCode (ws : List UInt32) : Prop :=
  ∀ first, (first :: ws).IsChain fun a b => a &&& 0xFFFF = Comment.tag → b ≠ Comment.instructions

namespace OpensNoCode

variable {ws ws' : List UInt32}

lemma nil : OpensNoCode [] := fun _ => .singleton _

lemma cons {w : UInt32} (hne : w ≠ Comment.instructions) (h : OpensNoCode ws) :
    OpensNoCode (w :: ws) :=
  fun _ => .cons_cons (fun _ => hne) (h w)

/-- Behind a word that is no token of a comment anything may stand. -/
lemma cons_cons {w w' : UInt32} (hne : w ≠ Comment.instructions) (htag : w &&& 0xFFFF ≠ Comment.tag)
    (h : OpensNoCode ws) : OpensNoCode (w :: w' :: ws) :=
  fun _ => .cons_cons (fun _ => hne) (.cons_cons (fun h => absurd h htag) (h w'))

lemma append (h : OpensNoCode ws) (h' : OpensNoCode ws') : OpensNoCode (ws ++ ws') := by
  intro first
  rw [← List.cons_append, List.isChain_append]
  exact ⟨h first, (h' 0).tail, fun a _ => (List.isChain_cons.1 (h' a)).1⟩

lemma flatMap {as : List α} {words : α → List UInt32} (h : ∀ a ∈ as, OpensNoCode (words a)) :
    OpensNoCode (as.flatMap words) := by
  induction as with
  | nil => exact nil
  | cons a as ih =>
    rw [List.forall_mem_cons] at h
    exact h.1.append (ih h.2)

end OpensNoCode

namespace ConstantTable

variable {entries : List ConstantEntry} {t : ConstantTable}

end ConstantTable

/-! ### Programs -/

namespace WrittenProgram

variable {w : WrittenProgram} {p : Program} {comments : List Comment} {stop : Nat}
  {parts : Program.Parts} {code : Bytes}

/-- All counts and offsets that are written for a program fit in words, and no two words that open
an instruction read as the head of another comment with instructions. -/
structure IsSized (w : WrittenProgram) : Prop where
  literals : w.literals.length < 2 ^ 32
  texts : ConstantTable.textsOffset w.inputs < 2 ^ 32
  instructions : w.instructions.length < 2 ^ 32
  operands : ∀ ins ∈ w.instructions, ins.inputs.length < 2 ^ 32
  /-- The number of operands stands behind the token. If the one is the code of instructions and the
  other the token of a comment, what comes next can be read in place of the program, when the
  comment that it stands in is too long for its own token. -/
  heads : ∀ ins ∈ w.instructions, ins.token &&& 0xFFFF = Comment.tag →
    ins.inputs.length ≠ Comment.instructions.toNat

section

variable (hread : Program.ReadFrom w.encode.toArray comments stop parts code p)
include hread

end

end WrittenProgram

end ShaderEffect
