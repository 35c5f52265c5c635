import Scriptlet.Parse.Statement

/-! The grammar as a relation between tokens and trees, independent of any
parser. Only the kinds of the tokens count; the tree keeps operators and names.

    program      → declaration*
    declaration  → "var" name ("=" expression)? ";" | statement
    statement    → expression ";" | "print" expression ";" | "{" declaration* "}"
    expression   → comma
    comma        → assignment ("," assignment)*
    assignment   → ternary ("=" assignment)?        the target being a name
    ternary      → equality ("?" expression ":" ternary)?
    equality     → comparison (("!=" | "==") comparison)*
    comparison   → term ((">" | ">=" | "<" | "<=") term)*
    term         → factor (("-" | "+") factor)*
    factor       → unary (("/" | "*") unary)*
    unary        → ("!" | "-") unary | primary
    primary      → number | string | "true" | "false" | "nil" | "(" expression ")" | name

The nesting of a tree is the largest number of blocks and expressions that are
open around any of its points; an expression is what the rule of that name
takes, that is a whole one in a statement, the inside of a grouping or the
middle of a ternary. -/
namespace Scriptlet.Grammar
open Parse (Rule)

def oneOf (kinds : List Kind) (kind : Kind) : Bool := kinds.contains kind

theorem oneOf_iff {kinds : List Kind} {kind : Kind} : oneOf kinds kind = true ↔ kind ∈ kinds :=
  List.contains_iff_mem

/-- The rules of the form `operand (operator operand)*`, each with its operand,
its operators and the tree of one operation. -/
inductive Chained : Rule → Rule → (Kind → Bool) → (Expr → Token → Expr → Expr) → Prop
  | comma : Chained .comma .assignment (oneOf [.comma]) .comma
  | equality : Chained .equality .comparison (oneOf [.bangEqual, .equalEqual]) .binary
  | comparison :
    Chained .comparison .term (oneOf [.greater, .greaterEqual, .less, .lessEqual]) .binary
  | term : Chained .term .factor (oneOf [.minus, .plus]) .binary
  | factor : Chained .factor .unary (oneOf [.slash, .star]) .binary

structure Link where
  operator : Token
  tokens : List Token
  right : Expr

def Link.yield (link : Link) : List Token := link.operator :: link.tokens

def folded (build : Expr → Token → Expr → Expr) (first : Expr) (links : List Link) : Expr :=
  links.foldl (fun left link => build left link.operator link.right) first

inductive Constant : Kind → Value → Prop
  | falseWord : Constant .falseWord (.truth false)
  | trueWord : Constant .trueWord (.truth true)
  | nilWord : Constant .nilWord .nil

inductive Derives : Rule → List Token → Expr → Prop
  | expression {ts e} (whole : Derives .comma ts e) : Derives .expression ts e
  | chain {r operand isOperator build ts first} {links : List Link}
      (level : Chained r operand isOperator build)
      (head : Derives operand ts first)
      (operators : ∀ link ∈ links, isOperator link.operator.kind = true)
      (operands : ∀ link ∈ links, Derives operand link.tokens link.right) :
      Derives r (ts ++ links.flatMap Link.yield) (folded build first links)
  | unassigned {ts e} (whole : Derives .ternary ts e) : Derives .assignment ts e
  | assign {ts us name equals value} (target : Derives .ternary ts (.reference name))
      (sign : equals.kind = .equal) (source : Derives .assignment us value) :
      Derives .assignment (ts ++ equals :: us) (.assign name value)
  | unconditional {ts e} (whole : Derives .equality ts e) : Derives .ternary ts e
  | conditional {ts us vs question colon c t f} (condition : Derives .equality ts c)
      (ask : question.kind = .question) (onTrue : Derives .expression us t)
      (choose : colon.kind = .colon) (onFalse : Derives .ternary vs f) :
      Derives .ternary (ts ++ question :: (us ++ colon :: vs)) (.conditional c t f)
  | plain {ts e} (whole : Derives .primary ts e) : Derives .unary ts e
  | unary {operator ts e} (sign : operator.kind = .bang ∨ operator.kind = .minus)
      (right : Derives .unary ts e) : Derives .unary (operator :: ts) (.unary operator e)
  | constant {t value} (word : Constant t.kind value) : Derives .primary [t] (.literal value)
  | read {t} (sort : t.kind = .number ∨ t.kind = .string) :
      Derives .primary [t] (.literal t.literal)
  | name {t} (sort : t.kind = .identifier) : Derives .primary [t] (.reference t)
  | grouping {opening ts closing e} (opened : opening.kind = .leftParen)
      (inner : Derives .expression ts e) (closed : closing.kind = .rightParen) :
      Derives .primary (opening :: (ts ++ [closing])) (.grouping e)

mutual

inductive Declares : List Token → Stmt → Prop
  | bare {var name finish} (word : var.kind = .varWord) (sort : name.kind = .identifier)
      (ended : finish.kind = .semicolon) : Declares [var, name, finish] (.declare name none)
  | initialized {var name equals ts finish value} (word : var.kind = .varWord)
      (sort : name.kind = .identifier) (sign : equals.kind = .equal)
      (source : Derives .expression ts value) (ended : finish.kind = .semicolon) :
      Declares (var :: name :: equals :: (ts ++ [finish])) (.declare name (some value))
  | print {print ts finish value} (word : print.kind = .printWord)
      (source : Derives .expression ts value) (ended : finish.kind = .semicolon) :
      Declares (print :: (ts ++ [finish])) (.print value)
  | expression {ts finish value} (source : Derives .expression ts value)
      (ended : finish.kind = .semicolon) : Declares (ts ++ [finish]) (.expression value)
  | block {opening ts closing body} (opened : opening.kind = .leftBrace) (inner : Program ts body)
      (closed : closing.kind = .rightBrace) : Declares (opening :: (ts ++ [closing])) (.block body)

inductive Program : List Token → List Stmt → Prop
  | nil : Program [] []
  | cons {ts us statement more} (first : Declares ts statement) (rest : Program us more) :
      Program (ts ++ us) (statement :: more)

end

end Grammar

def Expr.nesting : Expr → Nat
  | .literal _ | .reference _ => 0
  | .grouping inner => inner.nesting + 1
  | .unary _ right => right.nesting
  | .binary left _ right | .comma left _ right => max left.nesting right.nesting
  | .conditional condition onTrue onFalse =>
    max condition.nesting (max (onTrue.nesting + 1) onFalse.nesting)
  | .assign _ value => value.nesting

mutual

def Stmt.nesting : Stmt → Nat
  | .expression value | .print value => value.nesting + 1
  | .declare _ none => 0
  | .declare _ (some initializer) => initializer.nesting + 1
  | .block body => Stmt.bodyNesting body + 1

def Stmt.bodyNesting : List Stmt → Nat
  | [] => 0
  | statement :: more => max statement.nesting (Stmt.bodyNesting more)

end

end Scriptlet
