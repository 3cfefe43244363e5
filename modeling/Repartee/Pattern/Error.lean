import Repartee.Pattern.Bindings

/-!
# What is wrong with a pattern

A pattern fails to be read, refers to a variable that has no usable value, or is too large for a
matcher. `Error.missingVariable?` tells a reference without a value from everything else, which
decides whether a pattern waits for its variables.
-/

namespace Repartee.Pattern

inductive Error where
  /-- No token starts here, or none that may stand here. -/
  | unexpectedCharacter (text : String)
  | unexpectedTerminator (closer : Char)
  | misplacedPipe
  /-- Nothing but white space between two bars, or between a bar and a bracket. -/
  | emptyAlternative
  /-- A bracket is still open at the end. -/
  | missingTerminator
  | empty
  /-- More brackets and memo markers inside each other than `limit`. -/
  | nestedTooDeep (limit : Nat)
  /-- A repetition count is no number, or a number beyond the largest one accepted. -/
  | badRepetition (text : String)
  /-- There is no variable of this kind and name. -/
  | variableNotFound (kind : VariableKind) (name : String)
  | badVariableValue (kind : VariableKind) (name : String)
  /-- The text in the variable is refused as a pattern. -/
  | inVariable (kind : VariableKind) (name : String) (source : Error)
  /-- A matcher for the pattern would take too many bytes. -/
  | oversized
  deriving Repr, DecidableEq

namespace Error

def message : Error → String
  | unexpectedCharacter text => "found an unexpected character '" ++ text ++ "'"
  | unexpectedTerminator closer => "found an unexpected '" ++ String.ofList [closer] ++ "'"
  | misplacedPipe =>
    "alternatives operator | must be used within parentheses or square brackets"
  | emptyAlternative => "alternatives between parentheses or square brackets can't be empty"
  | missingTerminator => "missing a closing parenthesis or square bracket"
  | empty => "pattern string is empty"
  | nestedTooDeep limit => "brackets are nested more than " ++ Text.decimal limit ++ " levels deep"
  | badRepetition text => "repetition count in '" ++ text ++ "' is too large"
  | variableNotFound kind name => "variable " ++ kind.reference name ++ " is undefined"
  | badVariableValue kind name =>
    "value of variable " ++ kind.reference name ++ " could not be used because it is not a string"
  | inVariable kind name source => source.message ++ " in variable " ++ kind.reference name
  | oversized =>
    "compiled pattern was rejected by the regex engine: " ++
      "Compiled regex exceeds size limit of 10485760 bytes."

/-- The kind of the variable that has no value, if that is what the error says. -/
def missingVariable? : Error → Option VariableKind
  | variableNotFound kind _ => some kind
  | inVariable _ _ source => source.missingVariable?
  | _ => none

/-- The error is about the value of a variable, and not about how a pattern is written. -/
def isVariableError : Error → Bool
  | variableNotFound _ _ => true
  | badVariableValue _ _ => true
  | inVariable _ _ source => source.isVariableError
  | _ => false

end Error
end Repartee.Pattern
