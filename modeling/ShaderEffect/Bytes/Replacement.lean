/-!
# Reading damaged UTF-8

A text whose bytes are not all UTF-8 is read by putting one replacement character for each longest
run of bytes that starts a character and cannot be continued.
-/

namespace ShaderEffect.Bytes

/-- Whether a byte continues a character. -/
def isContinuation (b : UInt8) : Bool := 0x80 ≤ b && b ≤ 0xBF

/-- The payload of a continuation byte. -/
def tailBits (b : UInt8) : Nat := b.toNat % 64

/-- The bytes that may follow the lead byte of a character of three or four bytes: not every
continuation byte, so that no character is written longer than needed, no surrogate half is
written and no number is above the last character's. -/
def maySecond (lead second : UInt8) : Bool :=
  if lead = 0xE0 then 0xA0 ≤ second && second ≤ 0xBF
  else if lead = 0xED then 0x80 ≤ second && second ≤ 0x9F
  else if lead = 0xF0 then 0x90 ≤ second && second ≤ 0xBF
  else if lead = 0xF4 then 0x80 ≤ second && second ≤ 0x8F
  else isContinuation second

/-- The character at the front, or none for a damaged run, and the bytes after it. -/
def nextChar (lead : UInt8) (rest : List UInt8) : Option Char × List UInt8 :=
  if lead < 0x80 then (some (Char.ofNat lead.toNat), rest)
  else if 0xC2 ≤ lead && lead ≤ 0xDF then
    match rest with
    | b :: rest' =>
      if isContinuation b then (some (Char.ofNat (lead.toNat % 32 * 64 + tailBits b)), rest')
      else (none, rest)
    | [] => (none, rest)
  else if 0xE0 ≤ lead && lead ≤ 0xEF then
    match rest with
    | b :: rest' =>
      if maySecond lead b then
        match rest' with
        | c :: rest'' =>
          if isContinuation c then
            (some (Char.ofNat (lead.toNat % 16 * 4096 + tailBits b * 64 + tailBits c)), rest'')
          else (none, rest')
        | [] => (none, rest')
      else (none, rest)
    | [] => (none, rest)
  else if 0xF0 ≤ lead && lead ≤ 0xF4 then
    match rest with
    | b :: rest' =>
      if maySecond lead b then
        match rest' with
        | c :: rest'' =>
          if isContinuation c then
            match rest'' with
            | d :: rest''' =>
              if isContinuation d then
                (some (Char.ofNat (lead.toNat % 8 * 262144 + tailBits b * 4096 +
                  tailBits c * 64 + tailBits d)), rest''')
              else (none, rest'')
            | [] => (none, rest'')
          else (none, rest')
        | [] => (none, rest')
      else (none, rest)
    | [] => (none, rest)
  else (none, rest)

/-- The characters of at most `fuel` runs. -/
def replacingChars : Nat → List UInt8 → List Char
  | _, [] => []
  | 0, _ => []
  | fuel + 1, lead :: rest =>
    let (c, rest') := nextChar lead rest
    c.getD '\ufffd' :: replacingChars fuel rest'

/-- The text of some bytes, damaged runs replaced. -/
def replacingText (bs : List UInt8) : String := String.ofList (replacingChars bs.length bs)

end ShaderEffect.Bytes
