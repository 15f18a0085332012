import ShaderEffect.Number.Single

/-!
# Paths to parameters

A path is a name, possibly an annotation of what the name stands for after an at sign, and any
number of steps: a member after a point, or an index in square brackets. A name is what stands up to
the next bracket, point or at sign, and may be empty; after a point something must follow.
-/

namespace ShaderEffect

/-- A step from a parameter to a part of it. -/
inductive PathStep where
  | member (name : String)
  | index (i : Nat)
deriving DecidableEq

/-- A path from a list of parameters to one of them or to a part of it. -/
structure Path where
  name : String
  annotationName : Option String
  steps : List PathStep
deriving DecidableEq

namespace Path

/-- Whether a character ends a name. -/
def isMark (c : Char) : Bool := c == '[' || c == '.' || c == '@'

/-- Split off a name. -/
def splitName (text : List Char) : String × List Char :=
  (String.ofList (text.takeWhile (!isMark ·)), text.dropWhile (!isMark ·))

/-- Whether a character is a decimal digit. -/
def isDigit (c : Char) : Bool := '0' ≤ c && c ≤ '9'

/-- The number that decimal digits denote. -/
def digitsValue (digits : List Char) : Nat :=
  digits.foldl (fun n c => n * 10 + (c.toNat - '0'.toNat)) 0

/-- Read an index and the bracket behind it: decimal digits for a number below `2 ^ 32`. -/
def parseIndex (text : List Char) : Option (Nat × List Char) :=
  let digits := text.takeWhile (· != ']')
  match text.dropWhile (· != ']') with
  | [] => none
  | _ :: rest =>
    if !digits.isEmpty && digits.all isDigit && digitsValue digits < 2 ^ 32 then
      some (digitsValue digits, rest)
    else none

/-- Read at most `fuel` steps, which must make up the whole text. -/
def parseSteps : Nat → List Char → Option (List PathStep)
  | _, [] => some []
  | 0, _ => none
  | fuel + 1, '.' :: text =>
    if text.isEmpty then none
    else
      let (name, rest) := splitName text
      (parseSteps fuel rest).map (.member name :: ·)
  | fuel + 1, '[' :: text =>
    match parseIndex text with
    | some (i, rest) => (parseSteps fuel rest).map (.index i :: ·)
    | none => none
  | _ + 1, _ => none

/-- Read the steps after a name. -/
def parseRest (text : List Char) : Option (List PathStep) := parseSteps text.length text

/-- Read a path that may name an annotation. -/
def parse? (text : String) : Option Path :=
  match splitName text.toList with
  | (name, '@' :: rest) =>
    let (annotationName, rest) := splitName rest
    (parseRest rest).map (⟨name, some annotationName, ·⟩)
  | (name, rest) => (parseRest rest).map (⟨name, none, ·⟩)

/-- Read a path that names no annotation. -/
def parsePlain? (text : String) : Option Path :=
  let (name, rest) := splitName text.toList
  (parseRest rest).map (⟨name, none, ·⟩)

end Path

end ShaderEffect
