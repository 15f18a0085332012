import ShaderEffect.Error
import ShaderEffect.Tree.Lookup

/-!
# Skip lists

A skip list names top-level parameters that are never uploaded as constants of shaders. No program
may need one of them.
-/

namespace ShaderEffect

namespace Text

/-- Whether a character has the property White_Space. -/
def isBlank (c : Char) : Bool :=
  let n := c.toNat
  (0x9 ≤ n && n ≤ 0xD) || n == 0x20 || n == 0x85 || n == 0xA0 || n == 0x1680 ||
    (0x2000 ≤ n && n ≤ 0x200A) || n == 0x2028 || n == 0x2029 || n == 0x202F || n == 0x205F ||
    n == 0x3000

/-- Drop the blanks at both ends. -/
def trimBlanks (text : List Char) : List Char :=
  ((text.dropWhile isBlank).reverse.dropWhile isBlank).reverse

end Text

namespace SkipList

/-- The names in a list separated by semicolons, without blanks around them; empty ones do not
count. -/
def parse (list : String) : List String :=
  ((list.toList.splitOn ';').map Text.trimBlanks).filter (!·.isEmpty) |>.map String.ofList

end SkipList

namespace Link

/-- Every input of a program must name a parameter that is not skipped. -/
def checkInputs (tree : Tree) (skip : List String) : List Constant → Except EffectError Unit
  | [] => .ok ()
  | c :: rest =>
    if skip.contains c.name then .error (.call .skippedInput)
    else if (tree.find? none c.name).isNone then .error (.format (.unresolvedInput c.name))
    else checkInputs tree skip rest

end Link

end ShaderEffect
