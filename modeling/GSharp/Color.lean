namespace GSharp

inductive Color where
  | red | green | blue | yellow | cyan | magenta | black | white | gray
  deriving DecidableEq, Repr

namespace Color

/-- The color every run starts with. -/
instance : Inhabited Color := ⟨black⟩

def text : Color → String
  | red => "red"
  | green => "green"
  | blue => "blue"
  | yellow => "yellow"
  | cyan => "cyan"
  | magenta => "magenta"
  | black => "black"
  | white => "white"
  | gray => "gray"

def all : List Color := [red, green, blue, yellow, cyan, magenta, black, white, gray]

/-- Finds a color by its name. ASCII letters match in either case. -/
def ofName? (name : String) : Option Color :=
  all.find? fun color => color.text == name.map Char.toLower

end Color

end GSharp
