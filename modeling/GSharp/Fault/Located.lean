namespace GSharp

/-- A fault and the source line that it is reported at. -/
structure Located (Fault : Type) where
  fault : Fault
  line : Nat
  deriving DecidableEq, Repr

end GSharp
