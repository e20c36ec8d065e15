import GSharp.Fault.Located
import GSharp.Token

namespace GSharp

/-- What a construct asks for next. -/
inductive Expectation where
  | sign (sign : Sign)
  | commaOr (closing : Sign)
  | word (word : Keyword)
  | identifier
  | filePath
  | color
  deriving DecidableEq, Repr

def Expectation.text : Expectation → String
  | .sign s => "'" ++ s.text ++ "'"
  | .commaOr closing => "',' or '" ++ closing.text ++ "'"
  | .word w => "'" ++ w.text ++ "'"
  | .identifier => "an identifier"
  | .filePath => "a file path"
  | .color => "a color"

inductive SyntaxFault where
  | noExpression (found : String)
  | expected (expectation : Expectation) (found : String)
  | invalidParameter (function : String)
  | duplicateParameter (function parameter : String)
  | nestedFunction (function : String)
  | misplacedImport
  | invalidColor (name : String)
  | invalidBound (bound : String)
  deriving DecidableEq, Repr

def SyntaxFault.message : SyntaxFault → String
  | noExpression found => "Expected a valid expression but found '" ++ found ++ "'."
  | expected expectation found => "Expected " ++ expectation.text ++ " but found '" ++ found ++ "'."
  | invalidParameter function =>
    "Invalid declaration of function '" ++ function ++ "': parameters must be identifiers."
  | duplicateParameter function parameter =>
    "Function '" ++ function ++ "' declares parameter '" ++ parameter ++ "' more than once."
  | nestedFunction function => "Function declarations cannot be nested ('" ++ function ++ "')."
  | misplacedImport => "Imports must appear before any other instruction."
  | invalidColor name => "Invalid color '" ++ name ++ "'."
  | invalidBound bound => "Sequence bound '" ++ bound ++ "' must be a non-negative integer."

abbrev SyntaxError := Located SyntaxFault

end GSharp
