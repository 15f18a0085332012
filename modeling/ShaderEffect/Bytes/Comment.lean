import ShaderEffect.Bytes.Region

/-!
# Comment blocks

Token streams carry data in comments. A comment token has the word count of its payload in its high
half; the payload opens with a code of four letters.
-/

namespace ShaderEffect

/-- A comment: its code and the bytes after it. -/
structure Comment where
  code : UInt32
  body : Bytes

namespace Comment

/-- The low half of a comment token. -/
def tag : UInt32 := 0xFFFE

/-- The code of constant tables. -/
def constantTable : UInt32 := Word.fourLetters 'C' 'T' 'A' 'B'

/-- The code of literals. -/
def literals : UInt32 := Word.fourLetters 'C' 'L' 'I' 'T'

/-- The code of instructions. -/
def instructions : UInt32 := Word.fourLetters 'F' 'X' 'L' 'C'

/-- The code of the program that comes with a shader. -/
def program : UInt32 := Word.fourLetters 'P' 'R' 'E' 'S'

/-- Read the comments from `offset` on, at most `fuel` of them: a list, last one first, and the
offset of the first token that is none. -/
def scan (data : Bytes) : Nat → Nat → List Comment → Except FormatError (List Comment × Nat)
  | 0, offset, found => .ok (found, offset)
  | fuel + 1, offset, found =>
    if data.size ≤ offset then .ok (found, offset)
    else do
      let token ← data.word offset "comment token"
      if token &&& 0xFFFF ≠ tag then return (found, offset)
      let length := (token >>> 16).toNat
      if length = 0 then throw (.emptyComment offset)
      let payload ← data.slice (offset + 4) (length * 4) "comment block"
      let code ← payload.word 0 "comment fourcc"
      scan data fuel (offset + 4 + length * 4) (⟨code, payload.extract 4 payload.size⟩ :: found)

/-- The comments from `offset` on, and the offset of the first token that is none. Each takes at
least eight bytes, so the size bounds their number. -/
def readAll (data : Bytes) (offset : Nat) : Except FormatError (List Comment × Nat) := do
  let (found, stop) ← scan data data.size offset []
  return (found.reverse, stop)

/-- A written comment; its body is padded to whole words. -/
def encode (code : UInt32) (body : List UInt8) : List UInt8 :=
  let payload := Word.padded (Word.bytes code ++ body)
  Word.bytes (tag ||| UInt32.ofNat (payload.length / 4) <<< 16) ++ payload

end Comment

end ShaderEffect
