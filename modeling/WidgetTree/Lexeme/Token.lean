import WidgetTree.Lexeme.Kind
import WidgetTree.Text.Location

namespace WidgetTree.Lexeme

open Text (Span)

/-- The program keeps the category of a token beside its kind. It is always the one that it derives
from the kind when it makes the token, so that here it is no field. -/
structure Token where
  kind : Kind
  value : String
  span : Span
  deriving DecidableEq, Repr, Inhabited

namespace Token

def category (token : Token) : Category := token.kind.category

def isTrivia (token : Token) : Bool := token.kind.isTrivia

/-- How a message quotes the token: its value, or the name of its kind where that is empty. -/
def quote (token : Token) : String :=
  if token.value.isEmpty then token.kind.name else token.value

end Token

end WidgetTree.Lexeme
