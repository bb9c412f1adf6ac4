import BlockScript.Grammar.Setups

/-!
Expressions as tokens in their grouping. A phrase is a token that is an expression by itself, a
phrase in parentheses, or operators with their operands, and it has a value, which is put together
the way the rules for expressions do. Whether precedence groups the tokens of a phrase as the
phrase does can be read off its operators: of two that compete for an operand, the one that gets it
must be preferred.
-/
namespace BlockScript.Grammar

inductive Operator
  | concat | plus | minus | times | dividedBy | modulo | exponent | lessThan | greaterThan
  | lessThanEqual | greaterThanEqual | equalTo | notEqualTo | and | or | isIn
  deriving DecidableEq, Repr

namespace Operator

def all : List Operator :=
  [concat, plus, minus, times, dividedBy, modulo, exponent, lessThan, greaterThan, lessThanEqual,
    greaterThanEqual, equalTo, notEqualTo, and, or, isIn]

theorem mem_all (op : Operator) : op ∈ all := by cases op <;> decide

def terminal : Operator → Terminal
  | concat => .concat
  | plus => .plus
  | minus => .minus
  | times => .times
  | dividedBy => .dividedBy
  | modulo => .modulo
  | exponent => .exponent
  | lessThan => .lessThan
  | greaterThan => .greaterThan
  | lessThanEqual => .lessThanEqual
  | greaterThanEqual => .greaterThanEqual
  | equalTo => .equalTo
  | notEqualTo => .notEqualTo
  | and => .and
  | or => .or
  | isIn => .isIn

theorem terminal_injective : Function.Injective terminal := by
  intro a b h
  cases a <;> cases b <;> first | rfl | cases h

def head : Operator → Category
  | concat => .concatenation
  | plus | minus | times | dividedBy | modulo | exponent => .arithmetic
  | lessThan | greaterThan | lessThanEqual | greaterThanEqual | equalTo | notEqualTo =>
    .comparison
  | and | or | isIn => .logic

def action : Operator → List Fragment → Built
  | concat => concatenation
  | plus => arithmetic .add
  | minus => arithmetic .sub
  | times => arithmetic .mul
  | dividedBy => arithmetic .div
  | modulo => arithmetic .mod
  | exponent => arithmetic .pow
  | lessThan => comparison .lt
  | greaterThan => comparison .gt
  | lessThanEqual => comparison .le
  | greaterThanEqual => comparison .ge
  | equalTo => comparison .eq
  | notEqualTo => comparison .ne
  | and => logic .and
  | or => logic .or
  | isIn => logic .isIn

def rule (op : Operator) : Rule Fragment :=
  Grammar.rule op.head [.cat .expression, .tok op.terminal, .cat .expression] op.action

end Operator

inductive Sign
  | minus | not
  deriving DecidableEq, Repr

namespace Sign

def terminal : Sign → Terminal
  | minus => .minus
  | not => .not

def head : Sign → Category
  | minus => .arithmetic
  | not => .logic

def action : Sign → List Fragment → Built
  | minus => negation
  | not => logicalNot

/-- The rule for a sign. That for a negation has a precedence of its own. -/
def rule (minusRank : Precedence) (sign : Sign) : Rule Fragment where
  head := sign.head
  body := [.tok sign.terminal, .cat .expression]
  rank := if sign = minus then some minusRank else none
  action := sign.action

end Sign

/-- A token that is an expression by itself. -/
inductive Leaf
  | decimal | integer | string | trueWord | falseWord | name
  deriving DecidableEq, Repr

namespace Leaf

def terminal : Leaf → Terminal
  | decimal => .decimal
  | integer => .integer
  | string => .string
  | trueWord => .trueWord
  | falseWord => .falseWord
  | name => .word

theorem terminal_injective : Function.Injective terminal := by
  intro a b h
  cases a <;> cases b <;> first | rfl | cases h

def head : Leaf → Category
  | decimal | integer => .number
  | string => .expression
  | trueWord | falseWord => .boolean
  | name => .place

def action : Leaf → List Fragment → Built
  | decimal | integer | string => literal
  | trueWord => truth true
  | falseWord => truth false
  | name => Setups.place

end Leaf

inductive Phrase
  | leaf (l : Leaf) (t : Token) (kind : t.kind = l.terminal)
  | paren (opening : Token) (inner : Phrase) (closing : Token) (opens : opening.kind = .lparen)
      (closes : closing.kind = .rparen)
  | unary (sign : Sign) (t : Token) (kind : t.kind = sign.terminal) (operand : Phrase)
  | binary (left : Phrase) (op : Operator) (t : Token) (kind : t.kind = op.terminal)
      (right : Phrase)

/-- The precedence of operators, and of the rules for signs. -/
structure Ranks where
  operator : Operator → Precedence
  sign : Sign → Precedence

/-- The precedence of a grammar, in which that of a negation is given. -/
def Ranks.of {α : Type} (g : Grammar α) (minusRank : Precedence) : Ranks where
  operator op := g.precedence op.terminal
  sign
    | .minus => minusRank
    | .not => g.precedence .not

namespace Phrase

def tokens : Phrase → List Token
  | leaf _ t _ => [t]
  | paren opening inner closing _ _ => opening :: (inner.tokens ++ [closing])
  | unary _ t _ operand => t :: operand.tokens
  | binary left _ t _ right => left.tokens ++ t :: right.tokens

/-- The value of a phrase. Its parts are put together from left to right, and the first that
cannot be is the fault of the whole. -/
def value : Phrase → Built
  | leaf l t _ => l.action [.ofToken t]
  | paren _ inner _ _ _ => inner.value
  | unary sign t _ operand => do
    let v ← operand.value
    sign.action [.ofToken t, v]
  | binary left op t _ right => do
    let v ← left.value
    let w ← right.value
    op.action [v, .ofToken t, w]

/-- Precedence groups the tokens of a phrase as the phrase does, after a rule of the given
precedence that is waiting for its last operand, and before the given operator if there is one. -/
def fits (ranks : Ranks) (below : Precedence) (next : Option Operator) : Phrase → Bool
  | leaf _ _ _ => true
  | paren _ inner _ _ _ => inner.fits ranks .unranked none
  | unary sign _ _ operand =>
    (next.all fun op => Automaton.reduces (ranks.sign sign) (ranks.operator op)) &&
      operand.fits ranks (ranks.sign sign) next
  | binary left op _ _ right =>
    !Automaton.reduces below (ranks.operator op) &&
      (next.all fun op' => Automaton.reduces (ranks.operator op) (ranks.operator op')) &&
      left.fits ranks below (some op) && right.fits ranks (ranks.operator op) next

end Phrase

end BlockScript.Grammar
