import Scriptlet.Value

/-! Tokens: a kind, the text it was read from, the line of its end and the value it
denotes. A mark or a keyword has one spelling; the other kinds have a placeholder. A token
list that is parsed ends with a token of kind eof; a lexical error is a token of kind error
that carries its message as value. Names of kinds are used in listings of tokens. -/
namespace Scriptlet

inductive Kind
  | leftParen | rightParen | leftBrace | rightBrace | comma | minus | plus | semicolon
  | slash | star | question | colon
  | bang | bangEqual | equal | equalEqual | greater | greaterEqual | less | lessEqual
  | identifier | string | number
  | falseWord | nilWord | printWord | trueWord | varWord
  | andWord | classWord | elseWord | forWord | funWord | ifWord | orWord | returnWord
  | superWord | thisWord | whileWord
  | error | eof
  deriving DecidableEq, Inhabited

namespace Kind

def all : List Kind :=
  [leftParen, rightParen, leftBrace, rightBrace, comma, minus, plus, semicolon, slash, star,
   question, colon, bang, bangEqual, equal, equalEqual, greater, greaterEqual, less, lessEqual,
   identifier, string, number, falseWord, nilWord, printWord, trueWord, varWord, andWord,
   classWord, elseWord, forWord, funWord, ifWord, orWord, returnWord, superWord, thisWord,
   whileWord, error, eof]

def spelling : Kind → String
  | leftParen => "(" | rightParen => ")" | leftBrace => "\x7b" | rightBrace => "\x7d"
  | comma => "," | minus => "-" | plus => "+" | semicolon => ";" | slash => "/" | star => "*"
  | question => "?" | colon => ":" | bang => "!" | bangEqual => "!=" | equal => "="
  | equalEqual => "==" | greater => ">" | greaterEqual => ">=" | less => "<" | lessEqual => "<="
  | identifier => "<identifier>" | string => "<string>" | number => "<number>"
  | falseWord => "false" | nilWord => "nil" | printWord => "print" | trueWord => "true"
  | varWord => "var" | andWord => "and" | classWord => "class" | elseWord => "else"
  | forWord => "for" | funWord => "fun" | ifWord => "if" | orWord => "or"
  | returnWord => "return" | superWord => "super" | thisWord => "this" | whileWord => "while"
  | error => "<error>" | eof => "<eof>"

def name : Kind → String
  | leftParen => "LEFT_PAREN" | rightParen => "RIGHT_PAREN" | leftBrace => "LEFT_BRACE"
  | rightBrace => "RIGHT_BRACE" | comma => "COMMA" | minus => "MINUS" | plus => "PLUS"
  | semicolon => "SEMICOLON" | slash => "SLASH" | star => "STAR" | question => "QUESTION"
  | colon => "COLON" | bang => "BANG" | bangEqual => "BANG_EQUAL" | equal => "EQUAL"
  | equalEqual => "EQUAL_EQUAL" | greater => "GREATER" | greaterEqual => "GREATER_EQUAL"
  | less => "LESS" | lessEqual => "LESS_EQUAL" | identifier => "IDENTIFIER"
  | string => "STRING" | number => "NUMBER" | falseWord => "FALSE" | nilWord => "NIL"
  | printWord => "PRINT" | trueWord => "TRUE" | varWord => "VAR" | andWord => "AND"
  | classWord => "CLASS" | elseWord => "ELSE" | forWord => "FOR" | funWord => "FUN"
  | ifWord => "IF" | orWord => "OR" | returnWord => "RETURN" | superWord => "SUPER"
  | thisWord => "THIS" | whileWord => "WHILE" | error => "ERROR" | eof => "EOF"

def ofName? (text : String) : Option Kind := all.find? (·.name == text)

def keywords : List Kind :=
  [falseWord, nilWord, printWord, trueWord, varWord, andWord, classWord, elseWord, forWord,
   funWord, ifWord, orWord, returnWord, superWord, thisWord, whileWord]

def ofWord (word : String) : Kind :=
  (keywords.find? (·.spelling == word)).getD identifier

def ofMark? : Char → Option Kind
  | '(' => some leftParen | ')' => some rightParen | '{' => some leftBrace
  | '}' => some rightBrace | ',' => some comma | '-' => some minus | '+' => some plus
  | ';' => some semicolon | '/' => some slash | '*' => some star | '?' => some question
  | ':' => some colon | '!' => some bang | '=' => some equal | '>' => some greater
  | '<' => some less | _ => none

def isEquality : Kind → Bool
  | equalEqual | bangEqual => true
  | _ => false

def isComparison : Kind → Bool
  | greater | greaterEqual | less | lessEqual => true
  | _ => false

def isTerm : Kind → Bool
  | plus | minus => true
  | _ => false

def isFactor : Kind → Bool
  | star | slash => true
  | _ => false

/-- Kinds that open a statement, those of reserved words included. -/
def startsStatement : Kind → Bool
  | varWord | printWord | leftBrace | classWord | funWord | forWord | ifWord | whileWord
  | returnWord => true
  | _ => false

end Kind

structure Token where
  kind : Kind
  lexeme : String
  line : Int
  literal : Value
  deriving DecidableEq, Inhabited

namespace Token

/-- A mark or a keyword. -/
def plain (kind : Kind) (line : Int) : Token := ⟨kind, kind.spelling, line, .nil⟩

def eof (line : Int) : Token := ⟨.eof, "", line, .nil⟩

def listed (t : Token) : String :=
  "TokenType." ++ t.kind.name ++ " " ++ t.lexeme ++ " " ++ t.literal.listed

end Token

end Scriptlet
