import ShaderEffect.Kind
import ShaderEffect.Shader.Basic
import ShaderEffect.Decimal.Shortest
import ShaderEffect.Text.Printable

/-!
# Errors

Each error is a constructor that names its cause and carries what the cause is about. The wording
is given by one function per type. Three families exist: stored data that cannot be read
(`FormatError`), calls that break a precondition (`CallError`), and states that cannot be evaluated
while a pass is applied (`EvaluationError`).
-/

namespace ShaderEffect

open Hexadecimal Text

/-- Why stored data cannot be read or linked. -/
inductive FormatError where
  /-- `needed` bytes of `field` at `offset` reach past the `size` bytes there are. -/
  | truncated (field : String) (offset needed size : Nat)
  -- Text
  | nameNotUtf8
  | textOutside (field : String) (offset size : Nat)
  | textUnterminated (field : String) (offset : Nat)
  | textNotUtf8 (field : String) (offset : Nat)
  -- Token streams
  | emptyComment (offset : Nat)
  -- Constant tables
  | unknownRegisterSet (number : Nat)
  | unknownConstantClass (number : Nat)
  | unknownConstantType (number : Nat)
  -- Expression programs
  | badProgramVersion (token : UInt32)
  | unexpectedProgramToken (token : UInt32) (offset : Nat)
  | missingCode
  | tooManyInstructions (count size : Nat)
  | unknownOpcode (number : Nat)
  | tooManyOperands (opcode : Opcode) (count : Nat)
  | unknownBank (number : Nat)
  | badIndexFlag (flag : Nat)
  | operandOffset (offset : Nat)
  | operandCount (instruction : Nat) (opcode : Opcode) (count : Nat)
  | componentCount (instruction count : Nat)
  | readPastBank (instruction : Nat) (bank : Bank) (stop limit : Nat)
  | indexedOutput (instruction : Nat)
  | readOnlyOutput (instruction : Nat) (bank : Bank)
  | bankTooLarge (bank : Bank) (needed limit : Nat)
  -- Shaders
  | badShaderVersion (token : UInt32)
  | shaderLength (size : Nat)
  | stageMismatch (stage : Stage) (type : ParameterType)
  -- Effect images
  | badTag (tag expected : UInt32)
  | countTooLarge (record : String) (count size : Nat)
  | tooManyNodes
  | nestingTooDeep
  | unknownType (number : Nat)
  | unknownClass (number : Nat)
  | inconsistentType (cls : ParameterClass) (type : ParameterType) (rows columns : Nat)
  | operationOutOfRange (operation : Nat)
  | objectOutOfRange (id count : Nat)
  | objectDataOutOfRange (id count : Nat)
  -- Linking
  | missingState (technique index element state : UInt32)
  | shaderWithoutSlot
  | unknownReference (path : String)
  | selectorOverrun
  | unknownSelector (path : String)
  | selectorNotArray (path : String)
  | unknownUsage (usage : Nat)
  | unresolvedInput (name : String)
deriving DecidableEq

/-- Join with a comma and a space inside square brackets. -/
def bracketed (items : List String) : String :=
  "[" ++ ", ".intercalate items ++ "]"

namespace FormatError

/-- Whether the cause is data that ends too early. -/
def isTruncation : FormatError → Bool
  | .truncated .. => true
  | _ => false

/-- What is wrong, without saying that it is about the format. -/
def reason : FormatError → String
  | .truncated field offset needed size =>
    s!"truncated {field}: need {needed} bytes at offset {offset}, have {size}"
  | .nameNotUtf8 => "string is not valid UTF-8"
  | .textOutside field offset size => s!"{field} offset {offset} is outside length {size}"
  | .textUnterminated field offset =>
    s!"{field} at offset {offset} is missing a null terminator"
  | .textNotUtf8 field offset => s!"{field} at offset {offset} is not valid UTF-8"
  | .emptyComment offset => s!"empty comment block at offset {offset}"
  | .unknownRegisterSet number => s!"unknown register set {number}"
  | .unknownConstantClass number => s!"unknown ctab class {number}"
  | .unknownConstantType number => s!"unknown ctab type {number}"
  | .badProgramVersion token => "bad preshader version token " ++ numeral token.toNat 8
  | .unexpectedProgramToken token offset =>
    "unexpected preshader token " ++ numeral token.toNat 8 ++ s!" at offset {offset}"
  | .missingCode => "preshader has no FXLC block"
  | .tooManyInstructions count size => s!"instruction count {count} cannot fit in {size} bytes"
  | .unknownOpcode number => "unknown preshader opcode " ++ numeral number 1
  | .tooManyOperands opcode count => s!"{opcode.name} has {count} inputs"
  | .unknownBank number => s!"unknown register table {number}"
  | .badIndexFlag flag => s!"bad operand index flag {flag}"
  | .operandOffset offset => s!"operand offset {offset} out of range"
  | .operandCount instruction opcode count =>
    s!"instruction {instruction}: {opcode.name} takes " ++
      bracketed (opcode.arities.map toString) ++ s!" inputs, got {count}"
  | .componentCount instruction count =>
    s!"instruction {instruction}: invalid component count {count}"
  | .readPastBank instruction bank stop limit =>
    s!"instruction {instruction}: {bank.name} read ends at component {stop}, table has {limit}"
  | .indexedOutput instruction =>
    s!"instruction {instruction}: relative addressing on an output operand"
  | .readOnlyOutput instruction bank =>
    s!"instruction {instruction}: writes to read-only {bank.name} table"
  | .bankTooLarge bank needed limit =>
    s!"{bank.name} table needs {needed} components, limit is {limit}"
  | .badShaderVersion token =>
    "bad shader version token " ++ numeral token.toNat 8 ++ " (type " ++
      numeral (token >>> 16).toNat 4 ++ ")"
  | .shaderLength size => s!"shader bytecode length {size} is not a multiple of 4"
  | .stageMismatch stage type => s!"{stage.name} bytecode stored in a {type.name} object"
  | .badTag tag expected =>
    "bad effect tag " ++ numeral tag.toNat 8 ++ ", expected " ++ numeral expected.toNat 8
  | .countTooLarge record count size => s!"{record} count {count} cannot fit in {size} bytes"
  | .tooManyNodes => "too many parameter nodes"
  | .nestingTooDeep => "typedef nesting too deep"
  | .unknownType number => s!"unknown parameter type {number}"
  | .unknownClass number => s!"unknown parameter class {number}"
  | .inconsistentType cls type rows columns =>
    s!"inconsistent typedef: class {cls.name}, type {type.name}, {rows}x{columns}"
  | .operationOutOfRange operation => s!"state operation {operation} out of range"
  | .objectOutOfRange id count => s!"object id {id} out of range (object count {count})"
  | .objectDataOutOfRange id count =>
    s!"object data id {id} out of range (object count {count})"
  | .missingState technique index element state =>
    "resource targets missing state (technique " ++ numeral technique.toNat 1 ++
      s!", index {index}, element " ++ numeral element.toNat 1 ++ s!", state {state})"
  | .shaderWithoutSlot => "shader state without an object slot"
  | .unknownReference path => "state references unknown parameter " ++ quoted path
  | .selectorOverrun => "array selector name overruns resource"
  | .unknownSelector path => "array selector names unknown parameter " ++ quoted path
  | .selectorNotArray path => "array selector target " ++ quoted path ++ " is not an array"
  | .unknownUsage usage => s!"unknown resource usage {usage}"
  | .unresolvedInput name =>
    "preshader input " ++ quoted name ++ " has no matching parameter"

/-- The full message. -/
def message (e : FormatError) : String :=
  if e.isTruncation then e.reason else "invalid effect format: " ++ e.reason

end FormatError

/-- Which precondition a call breaks. Nothing changes when one is reported. -/
inductive CallError where
  | badParameter
  | badTechnique
  | badPass
  | badBlock
  | noTechnique
  | skippedInput
  -- Parameter blocks
  | blockInProgress
  | noBlockInProgress
  -- Begin, pass, end
  | passOutsideEffect
  | passActive
  | passOutOfRange
  | commitWithoutPass
  | endPassWithoutPass
  | endWithoutBegin
  | managerInUse
  -- Accessors
  | noNumericStorage
  | getBoolShape
  | setBoolShape
  | getIntShape
  | setIntShape
  | getFloatShape
  | setFloatShape
  | getVectorShape
  | setVectorShape
  | matrixShape
  | arrayShape
  | elementArrayShape
  | rawStorage
  | bufferTooSmall
  | notObjects
  | objectCount
  | objectType
  | accessorType
deriving DecidableEq

namespace CallError

/-- What the call got wrong. -/
def reason : CallError → String
  | .badParameter => "invalid parameter handle"
  | .badTechnique => "invalid technique handle"
  | .badPass => "invalid pass handle"
  | .badBlock => "invalid parameter block"
  | .noTechnique => "effect has no valid technique"
  | .skippedInput => "skip constant is used by a preshader"
  | .blockInProgress => "a parameter block is already being recorded"
  | .noBlockInProgress => "no parameter block is being recorded"
  | .passOutsideEffect => "begin_pass outside begin/end"
  | .passActive => "a pass is already active"
  | .passOutOfRange => "pass index out of range"
  | .commitWithoutPass => "commit_changes without an active pass"
  | .endPassWithoutPass => "end_pass without an active pass"
  | .endWithoutBegin => "end without begin"
  | .managerInUse => "state manager is already in use"
  | .noNumericStorage => "parameter has no numeric storage"
  | .getBoolShape => "get_bool needs a non-array 1x1 parameter"
  | .setBoolShape => "set_bool needs a non-array 1x1 parameter"
  | .getIntShape => "get_int needs a scalar or a float color parameter"
  | .setIntShape => "set_int needs a scalar or a float color parameter"
  | .getFloatShape => "get_float needs a non-array 1x1 parameter"
  | .setFloatShape => "set_float needs a non-array 1x1 parameter"
  | .getVectorShape => "get_vector needs a non-array scalar or vector"
  | .setVectorShape => "set_vector needs a non-array scalar or vector"
  | .matrixShape => "matrix accessors need a non-array row-major matrix"
  | .arrayShape => "array shape does not match the request"
  | .elementArrayShape => "element arrays need a scalar, vector or matrix"
  | .rawStorage => "raw value access needs numeric storage"
  | .bufferTooSmall => "buffer is smaller than the parameter"
  | .notObjects => "parameter does not hold objects"
  | .objectCount => "object count does not match the parameter"
  | .objectType => "object does not fit the parameter type"
  | .accessorType => "parameter type does not match the accessor"

/-- The full message. -/
def message (e : CallError) : String := "invalid call: " ++ e.reason

end CallError

/-- Why a state cannot be evaluated: the index computed for an array lies outside it. -/
structure EvaluationError where
  index : Single
  array : Option String
  elements : Nat
deriving DecidableEq

/-- The full message. -/
def EvaluationError.message (e : EvaluationError) : String :=
  "state evaluation failed: array selector index " ++ Decimal.text e.index ++
    " out of range for " ++ quotedOption e.array ++ s!" ({e.elements} elements)"

/-- Any error of an effect. -/
inductive EffectError where
  | format (e : FormatError)
  | call (e : CallError)
  | evaluation (e : EvaluationError)
deriving DecidableEq

namespace EffectError

/-- The full message. -/
def message : EffectError → String
  | .format e => e.message
  | .call e => e.message
  | .evaluation e => e.message

instance : Coe FormatError EffectError := ⟨.format⟩

instance : Coe CallError EffectError := ⟨.call⟩

instance : Coe EvaluationError EffectError := ⟨.evaluation⟩

end EffectError

end ShaderEffect
