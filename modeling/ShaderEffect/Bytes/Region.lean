import ShaderEffect.Bytes.Word
import ShaderEffect.Error

/-!
# Bounds-checked reading

Stored data is untrusted. Every read names the field it is for, checks that all of its bytes exist,
and reports the shortage otherwise, so no offset found in the data is ever followed blindly.
-/

namespace ShaderEffect.Bytes

/-- The word at `offset`. -/
def word (data : Bytes) (offset : Nat) (field : String) : Except FormatError UInt32 :=
  if h : offset + 4 ≤ data.size then
    .ok (Word.ofBytes data[offset] data[offset + 1] data[offset + 2] data[offset + 3])
  else .error (.truncated field offset 4 data.size)

/-- The half word at `offset`. -/
def half (data : Bytes) (offset : Nat) (field : String) : Except FormatError UInt16 :=
  if h : offset + 2 ≤ data.size then .ok (Word.ofHalf data[offset] data[offset + 1])
  else .error (.truncated field offset 2 data.size)

/-- The `length` bytes at `offset`. -/
def slice (data : Bytes) (offset length : Nat) (field : String) : Except FormatError Bytes :=
  if offset + length ≤ data.size then .ok (data.extract offset (offset + length))
  else .error (.truncated field offset length data.size)

/-! ### Text -/

/-- The bytes before the first zero byte, or all of them. -/
def beforeZero (data : Bytes) : List UInt8 := data.toList.takeWhile (· != 0)

/-- The text that bytes encode in UTF-8, if they do. -/
def utf8? (bs : List UInt8) : Option String := String.fromUTF8? ⟨bs.toArray⟩

/-- A text in a field of known length: what stands before its first zero byte. -/
def boundedText (raw : Bytes) : Except FormatError String :=
  match utf8? (beforeZero raw) with
  | some text => .ok text
  | none => .error .nameNotUtf8

/-- The text that starts at `offset` and ends before a zero byte, which must exist. -/
def text (data : Bytes) (offset : Nat) (field : String) : Except FormatError String :=
  if offset ≤ data.size then
    let tail := data.extract offset data.size
    if tail.contains 0 then
      match utf8? (beforeZero tail) with
      | some text => .ok text
      | none => .error (.textNotUtf8 field offset)
    else .error (.textUnterminated field offset)
  else .error (.textOutside field offset data.size)

end ShaderEffect.Bytes
