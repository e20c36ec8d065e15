import GSharp.Fault.Evaluation

namespace GSharp

/-- An error stops an instruction. A crash stops the whole run, with a text if it gives one. -/
inductive Stop where
  | failed (error : EvalError)
  | crashed (reason : Option String)
  deriving DecidableEq

end GSharp
