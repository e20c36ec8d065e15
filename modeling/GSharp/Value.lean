import GSharp.Fault.Evaluation

namespace GSharp

mutual

inductive Value where
  | number (value : Float)
  | string (value : String)
  | boolean (value : Bool)
  | undefined
  | figure (figure : Figure)
  | sequence (sequence : Sequence)

/-- Evaluated elements, or numbers one apart: without end, or up to a last number. -/
inductive Segment where
  | finite (elements : List Value)
  | infinite (start : Float)
  | range (start finish : Float)

/-- A head segment with the type of the elements, as far as it was known when the segment was
attached, and possibly a sequence after it. -/
inductive Sequence where
  | single (head : Segment) (kind : Option ValueKind)
  | joined (head : Segment) (kind : Option ValueKind) (tail : Sequence)

end

instance : Inhabited Value := ⟨.undefined⟩
instance : Inhabited Segment := ⟨.finite []⟩
instance : Inhabited Sequence := ⟨.single default none⟩

def Value.kind : Value → ValueKind
  | .number _ => .number
  | .string _ => .string
  | .boolean _ => .boolean
  | .undefined => .undefined
  | .figure f => .figure f.kind
  | .sequence _ => .sequence

def Value.point (p : Point) : Value := .figure (.point p)

def Value.measure (m : Measure) : Value := .figure (.measure m)

def Value.ofLiteral : Literal → Value
  | .number n => .number n
  | .string s => .string s
  | .boolean b => .boolean b

/-- A condition is a boolean. -/
def Value.asBoolean (value : Value) (line : Nat) : Except EvalError Bool :=
  match value with
  | .boolean b => .ok b
  | other => .error ⟨.expectedBoolean other.kind, line⟩

def Value.asSequence (value : Value) (line : Nat) : Except EvalError Sequence :=
  match value with
  | .sequence s => .ok s
  | other => .error ⟨.expectedSequence other.kind, line⟩

mutual

/-- Equality of values by structure. Numbers compare as such: not-a-number differs from itself. -/
def Value.equals : Value → Value → Bool
  | .number a, .number b => a == b
  | .string a, .string b => a == b
  | .boolean a, .boolean b => a == b
  | .undefined, .undefined => true
  | .figure a, .figure b => a == b
  | .sequence a, .sequence b => a.equals b
  | _, _ => false

def Value.allEqual : List Value → List Value → Bool
  | [], [] => true
  | a :: as, b :: bs => a.equals b && Value.allEqual as bs
  | _, _ => false

def Segment.equals : Segment → Segment → Bool
  | .finite a, .finite b => Value.allEqual a b
  | .infinite a, .infinite b => a == b
  | .range a b, .range c d => a == c && b == d
  | _, _ => false

def Sequence.equals : Sequence → Sequence → Bool
  | .single a k, .single b l => a.equals b && k == l
  | .joined a k t, .joined b l u => a.equals b && k == l && t.equals u
  | _, _ => false

end

/-- `count` numbers from `start`, each one more than the last. -/
def Number.ascending (start : Float) : Nat → List Float
  | 0 => []
  | count + 1 => start :: ascending (start + 1) count

/-- The first `count` numbers of a range, up to and including `finish`. -/
def Number.upTo (start finish : Float) : Nat → List Float
  | 0 => []
  | count + 1 => if start ≤ finish then start :: upTo (start + 1) finish count else []

/-- How many elements the text of a sequence shows. -/
def Sequence.shownLimit : Nat := 20

/-- Element texts in braces. Those past the limit are three points. -/
def Sequence.shown (texts : List String) : String :=
  let limit := Sequence.shownLimit
  let marks := if limit < texts.length then ["..."] else []
  "\x7b" ++ ", ".intercalate (texts.take limit ++ marks) ++ "\x7d"

mutual

def Value.text : Value → String
  | .number n => Number.text n
  | .string s => s
  | .boolean b => if b then "true" else "false"
  | .undefined => "undefined"
  | .figure f => f.text
  | .sequence s => Sequence.shown (s.texts (Sequence.shownLimit + 1))

/-- The texts of the first `limit` elements of a list. -/
def Value.texts (limit : Nat) : List Value → List String
  | [] => []
  | first :: rest =>
    match limit with
    | 0 => []
    | limit + 1 => first.text :: Value.texts limit rest

def Segment.texts (limit : Nat) : Segment → List String
  | .finite elements => Value.texts limit elements
  | .infinite start => (Number.ascending start limit).map Number.text
  | .range start finish => (Number.upTo start finish limit).map Number.text

def Sequence.texts (limit : Nat) : Sequence → List String
  | .single head _ => head.texts limit
  | .joined head _ tail =>
    let shown := head.texts limit
    shown ++ tail.texts (limit - shown.length)

end

end GSharp
