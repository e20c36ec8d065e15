import GSharp.Figure

namespace GSharp

/-- The types of values, as errors and sequences name them. -/
inductive ValueKind where
  | number | string | boolean | undefined | figure (kind : FigureKind) | sequence
  deriving DecidableEq, Repr

def ValueKind.text : ValueKind → String
  | number => "number"
  | string => "string"
  | boolean => "boolean"
  | undefined => "undefined"
  | figure kind => kind.text
  | sequence => "sequence"

end GSharp
