namespace WidgetTree.Lexeme

inductive Kind
  | endOfFile
  | error
  | whiteSpace
  | newLine
  | indentation
  | lineComment
  | blockComment
  | integer
  | string
  | float
  | boolean
  | identifier
  | widget
  | dot
  | colon
  | comma
  | dollarSign
  | ampersand
  deriving DecidableEq, Repr, Inhabited

inductive Category
  | whiteSpace
  | comment
  | constant
  | identifier
  | punctuation
  | metadata
  | invalid
  deriving DecidableEq, Repr, Inhabited

namespace Kind

def category : Kind → Category
  | dot | colon | comma | dollarSign | ampersand => .punctuation
  | lineComment | blockComment => .comment
  | newLine | whiteSpace | indentation => .whiteSpace
  | identifier | widget => .identifier
  | string | integer | float | boolean => .constant
  | endOfFile => .metadata
  | error => .invalid

def name : Kind → String
  | endOfFile => "EndOfFile"
  | error => "Error"
  | whiteSpace => "WhiteSpace"
  | newLine => "NewLine"
  | indentation => "Indentation"
  | lineComment => "LineComment"
  | blockComment => "BlockComment"
  | integer => "IntegerLiteral"
  | string => "StringLiteral"
  | float => "FloatLiteral"
  | boolean => "BooleanLiteral"
  | identifier => "Identifier"
  | widget => "Widget"
  | dot => "Dot"
  | colon => "Colon"
  | comma => "Comma"
  | dollarSign => "DollarSign"
  | ampersand => "Ampersand"

def isTrivia (kind : Kind) : Bool := kind = whiteSpace || kind.category = .comment

end Kind

def Category.name : Category → String
  | whiteSpace => "WhiteSpace"
  | comment => "Comment"
  | constant => "Constant"
  | identifier => "Identifier"
  | punctuation => "Punctuation"
  | metadata => "Metadata"
  | invalid => "Invalid"

end WidgetTree.Lexeme
