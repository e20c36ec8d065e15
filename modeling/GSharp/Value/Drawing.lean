import GSharp.Value.Sequence

namespace GSharp

/-- The figures drawn, and what stopped the drawing before its end. -/
structure Drawing where
  figures : List Figure
  stopped : Option EvalFault

namespace Drawing

def nothing : Drawing := ⟨[], none⟩

def stop (fault : EvalFault) : Drawing := ⟨[], some fault⟩

/-- Goes on with what follows unless the drawing was stopped. -/
def andThen (first second : Drawing) : Drawing :=
  match first.stopped with
  | some _ => first
  | none => ⟨first.figures ++ second.figures, second.stopped⟩

end Drawing

mutual

def Value.drawing : Value → Drawing
  | .figure f => if f.isPositional then ⟨[f], none⟩ else .stop (.notDrawable (.figure f.kind))
  | .sequence s => if s.isInfinite then .stop .infiniteDrawing else s.drawing
  | .number _ => .stop (.notDrawable .number)
  | .string _ => .stop (.notDrawable .string)
  | .boolean _ => .stop (.notDrawable .boolean)
  | .undefined => .stop (.notDrawable .undefined)

def Value.drawingAll : List Value → Drawing
  | [] => .nothing
  | first :: rest => first.drawing.andThen (Value.drawingAll rest)

def Segment.drawing : Segment → Drawing
  | .finite elements => Value.drawingAll elements
  | .infinite _ => .stop (.notDrawable .number)
  | .range start finish => if start ≤ finish then .stop (.notDrawable .number) else .nothing

def Sequence.drawing : Sequence → Drawing
  | .single head _ => head.drawing
  | .joined head _ tail => head.drawing.andThen tail.drawing

end

end GSharp
