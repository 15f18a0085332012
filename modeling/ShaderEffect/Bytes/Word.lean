import ShaderEffect.Number.Single

/-!
# Little-endian words

Stored data is a sequence of bytes. Words of two, four and eight bytes have their lowest byte
first. Main statements: reading a written word gives it back.
-/

namespace ShaderEffect

/-- Stored data. -/
abbrev Bytes := Array UInt8

namespace Word

/-- The byte of `n` that counts `2 ^ shift`. -/
def byteAt (n shift : Nat) : UInt8 := UInt8.ofNat (n / 2 ^ shift)

/-- The two bytes of a half word. -/
def halfBytes (w : UInt16) : List UInt8 := [byteAt w.toNat 0, byteAt w.toNat 8]

/-- The half word with the given bytes, lowest first. -/
def ofHalf (a b : UInt8) : UInt16 := UInt16.ofNat (a.toNat + b.toNat * 2 ^ 8)

/-- The four bytes of a word. -/
def bytes (w : UInt32) : List UInt8 :=
  [byteAt w.toNat 0, byteAt w.toNat 8, byteAt w.toNat 16, byteAt w.toNat 24]

/-- The word with the given bytes, lowest first. -/
def ofBytes (a b c d : UInt8) : UInt32 :=
  UInt32.ofNat (a.toNat + b.toNat * 2 ^ 8 + c.toNat * 2 ^ 16 + d.toNat * 2 ^ 24)

/-- The eight bytes of a long word. -/
def longBytes (w : UInt64) : List UInt8 :=
  bytes (UInt32.ofNat w.toNat) ++ bytes (UInt32.ofNat (w.toNat / 2 ^ 32))

/-- The long word with the given halves, lower first. -/
def ofHalves (low high : UInt32) : UInt64 := UInt64.ofNat (low.toNat + high.toNat * 2 ^ 32)

/-- The bytes of a list of words. -/
def listBytes (ws : List UInt32) : List UInt8 := ws.flatMap bytes

/-- Split bytes into words; up to three bytes at the end are left out. -/
def ofList : List UInt8 → List UInt32
  | a :: b :: c :: d :: rest => ofBytes a b c d :: ofList rest
  | _ => []

/-- Split words into long words; a single word at the end is left out. -/
def longs : List UInt32 → List UInt64
  | low :: high :: rest => ofHalves low high :: longs rest
  | _ => []

/-- The number of zero bytes that bring `n` bytes to a multiple of four. -/
def padding (n : Nat) : Nat := (4 - n % 4) % 4

/-- Bytes brought to a multiple of four by zeros. -/
def padded (bs : List UInt8) : List UInt8 := bs ++ List.replicate (padding bs.length) 0

/-- A character code of four letters as it stands in a stream of words. -/
def fourLetters (a b c d : Char) : UInt32 :=
  ofBytes a.toUInt8 b.toUInt8 c.toUInt8 d.toUInt8

theorem ofHalf_halfBytes (w : UInt16) : ofHalf (byteAt w.toNat 0) (byteAt w.toNat 8) = w := by
  have := w.toNat_lt
  apply UInt16.toNat_inj.1
  simp only [ofHalf, byteAt, UInt16.toNat_ofNat', UInt8.toNat_ofNat']
  omega

theorem ofBytes_bytes (w : UInt32) :
    ofBytes (byteAt w.toNat 0) (byteAt w.toNat 8) (byteAt w.toNat 16) (byteAt w.toNat 24) = w := by
  have := w.toNat_lt
  apply UInt32.toNat_inj.1
  simp only [ofBytes, byteAt, UInt32.toNat_ofNat', UInt8.toNat_ofNat']
  omega

theorem ofHalves_halves (w : UInt64) :
    ofHalves (UInt32.ofNat w.toNat) (UInt32.ofNat (w.toNat / 2 ^ 32)) = w := by
  have := w.toNat_lt
  apply UInt64.toNat_inj.1
  simp only [ofHalves, UInt64.toNat_ofNat', UInt32.toNat_ofNat']
  omega

@[simp] theorem length_bytes (w : UInt32) : (bytes w).length = 4 := rfl

@[simp] theorem ofList_bytes_append (w : UInt32) (rest : List UInt8) :
    ofList (bytes w ++ rest) = w :: ofList rest := by
  simp [bytes, ofList, ofBytes_bytes]

theorem ofList_listBytes (ws : List UInt32) : ofList (listBytes ws) = ws := by
  induction ws with
  | nil => rfl
  | cons w ws ih => simp only [listBytes, List.flatMap_cons, ofList_bytes_append] at ih ⊢; rw [ih]

end Word

end ShaderEffect
