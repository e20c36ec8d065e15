import GSharp.Fault.Located

namespace GSharp

inductive LexicalFault where
  | unexpectedCharacter (text : String)
  | invalidNumber (text : String)
  | unfinishedString
  deriving DecidableEq, Repr

def LexicalFault.message : LexicalFault → String
  | unexpectedCharacter text => "Unexpected character '" ++ text ++ "'."
  | invalidNumber text => "Invalid number '" ++ text ++ "'."
  | unfinishedString => "Unfinished string."

end GSharp
