import BlockScript.Proofs.ParseTrees
import BlockScript.Proofs.Steps
import BlockScript.Proofs.TokenSpans
import Mathlib.Data.List.Forall2

/-!
The values of the symbols of scripts. Each symbol has values of one shape. At the top level there
are variables, functions and hats only, and nowhere words in place of statements. The object of an
attribute is one of the two words for the stage and the sprite, which stand there as texts, or it is
a tree: a name, an attribute or an item. A literal is a number or a text. A rule has a value for all
parts that its symbols can have, with one exception: a comparison is placed where its first operand
is, and literals have no place.
-/
namespace BlockScript

/-- A value that can be written out in a text as it is: a number or a text. -/
def Value.isWritten : Value → Bool
  | int _ | float _ | str _ => true
  | _ => false

namespace Expr

mutual

/-- All expressions that an expression is made of, itself first. -/
@[simp] def nodes : Expr → List Expr
  | value v => [value v]
  | truth b => [truth b]
  | list items => list items :: nodesAll items
  | name pos n => [name pos n]
  | attr pos object n => attr pos object n :: nodes object
  | index pos target i => index pos target i :: (nodes target ++ nodes i)
  | call pos f arguments => call pos f arguments :: (nodes f ++ nodesAll arguments)
  | concat pos operands => concat pos operands :: nodesAll operands
  | arith pos op operands => arith pos op operands :: nodesAll operands
  | compare pos op operands => compare pos op operands :: nodesAll operands
  | logic pos op operands => logic pos op operands :: nodesAll operands
  | unknown pos family operands => unknown pos family operands :: nodesAll operands
  | malformed pos fault => [malformed pos fault]

@[simp] def nodesAll : List Expr → List Expr
  | [] => []
  | e :: rest => nodes e ++ nodesAll rest

end

theorem mem_nodes_self (e : Expr) : e ∈ e.nodes := by
  cases e <;> simp

def isPlace : Expr → Bool
  | name _ _ | attr _ _ _ | index _ _ _ => true
  | _ => false

/-- The words that stand for the stage and for the sprite itself. -/
def isWord (e : Expr) : Bool := e.isText "this" || e.isText "scratch"

/-- The object of an attribute is one of the two words or a tree. -/
def Attached (e : Expr) : Prop :=
  ∀ pos object n, e = attr pos object n → object.isWord = true ∨ object.isPlace = true

/-- A literal is a number or a text. -/
def Written (e : Expr) : Prop := ∀ v, e = value v → v.isWritten = true

/-- What holds of every expression that is parsed. -/
def Formed (e : Expr) : Prop := Attached e ∧ Written e

end Expr

namespace Stmt

mutual

@[simp] def nodes : Stmt → List Expr
  | declare _ target _ value _ => target.nodes ++ (value.map Expr.nodes).getD []
  | assign _ target value => target.nodes ++ value.nodes
  | update _ _ target operand => target.nodes ++ operand.nodes
  | call _ f arguments => f.nodes ++ Expr.nodesAll arguments
  | ifThen _ c body => c.nodes ++ nodesAll body
  | ifElse _ c body alternative => c.nodes ++ (nodesAll body ++ nodesAll alternative)
  | whileLoop _ c body => c.nodes ++ nodesAll body
  | forLoop _ start c next body => nodes start ++ (c.nodes ++ (nodes next ++ nodesAll body))
  | giveBack _ value => (value.map Expr.nodes).getD []
  | shared _ target _ value => target.nodes ++ value.nodes
  | function _ _ _ _ _ body => nodesAll body
  | hat _ event arguments body => event.nodes ++ (Expr.nodesAll arguments ++ nodesAll body)
  | bare _ => []
  | malformed _ _ _ => []

@[simp] def nodesAll : List Stmt → List Expr
  | [] => []
  | s :: rest => nodes s ++ nodesAll rest

end

/-- A declaration of a variable or an assignment to one. -/
def isVariable : Stmt → Bool
  | declare _ _ _ _ _ | assign _ _ _ => true
  | _ => false

/-- What can stand at the top level of a script. -/
def isTop (s : Stmt) : Bool := s.isVariable || s.part == .function || s.part == .hat

end Stmt

/-- All expressions in the statements of a script. -/
@[simp] def Script.nodes (p : Script) : List Expr := Stmt.nodesAll p.statements

namespace Grammar

open ParseTree
open Scan (Spelled scanFrom)
open Text (countNewlines)

/-- The kinds of literals and parentheses. -/
def inLiteral : Terminal → Bool
  | .lparen | .rparen | .decimal | .integer | .string | .trueWord | .falseWord => true
  | _ => false

/-- Whether tokens of an expression make up a literal, in any number of parentheses. -/
def isLiteral (ts : List Token) : Bool := ts.all fun t => inLiteral t.kind

@[simp] theorem isLiteral_append (ts ts' : List Token) :
    isLiteral (ts ++ ts') = (isLiteral ts && isLiteral ts') :=
  List.all_append

/-- The values that a symbol has for some tokens. -/
def ValueOf (ts : List Token) (f : Fragment) : Symbol → Prop
  | .tok .decimal | .tok .integer | .tok .string => isLiteral ts = true ∧ ∃ v p, f = .token v p
  | .tok .this => isLiteral ts = false ∧ ∃ p, f = .token (.text "this") p
  | .tok .scratch => isLiteral ts = false ∧ ∃ p, f = .token (.text "scratch") p
  | .tok k => isLiteral ts = inLiteral k ∧ ∃ s p, f = .token (.text s) p
  | .cat .place | .cat .index => isLiteral ts = false ∧ ∃ e p, f = .expr e ∧ e.isPlace = true ∧
      e.Formed ∧ p ≠ .missing ∧ e.position = .ok p
  | .cat .functionCall => isLiteral ts = false ∧ ∃ p g es, f = .expr (.call p g es) ∧ p ≠ .missing
  | .cat .list => ∃ es, f = .expr (.list es)
  | .cat .number | .cat .boolean | .cat .expression | .cat .concatenation | .cat .arithmetic
  | .cat .comparison | .cat .logic => ∃ e, f = .expr e ∧ e.Formed ∧
      if isLiteral ts then e.position = .error .typeMismatch
      else ∃ p, p ≠ .missing ∧ e.position = .ok p
  | .cat .expressions | .cat .arguments => ∃ es, f = .exprs es
  | .cat .parameterNames | .cat .parameters => ∃ ns, f = .names ns
  | .cat .typeName | .cat .typeDeclaration => ∃ t, f = .type t
  | .cat .declaration => ∃ d, f = .declaration d
  | .cat .declarations => ∃ ds, f = .declarations ds
  | .cat .declareVariable | .cat .setVariable | .cat .functionDeclaration | .cat .hat
  | .cat .topStatement => ∃ s, f = .stmt s ∧ s.isTop = true
  | .cat .topStatements => ∃ ss, f = .stmts ss ∧ ∀ s ∈ ss, s.isTop = true
  | .cat .statements | .cat .body => ∃ ss, f = .stmts ss ∧ ∀ n, .bare n ∉ ss
  | .cat .ifStatement => ∃ p c ss, f = .stmt (.ifThen p c ss)
  | .cat .program => ∃ p, f = .script p ∧ ∀ s ∈ p.statements, s.isTop = true
  | _ => ∃ s, f = .stmt s ∧ ∀ n, .bare n ≠ s

/-- Parts of symbols: the tokens and the value of each. -/
def PartsOf : List Symbol → List (List Token × Fragment) → Prop :=
  List.Forall₂ fun x p => ValueOf p.1 p.2 x

theorem forall_partsOf_nil {P : List (List Token × Fragment) → Prop} :
    (∀ ps, PartsOf [] ps → P ps) ↔ P [] := by
  simp [PartsOf]

theorem forall_partsOf_cons {P : List (List Token × Fragment) → Prop} :
    (∀ ps, PartsOf (x :: xs) ps → P ps) ↔
      ∀ ts f, ValueOf ts f x → ∀ ps, PartsOf xs ps → P ((ts, f) :: ps) := by
  simp only [PartsOf, List.forall₂_cons_left_iff]
  grind

/-- Whether a rule compares a literal with something else. -/
def comparesLiteral (r : Rule Fragment) (parts : List (List Token)) : Bool :=
  r.head == .comparison && parts.head?.any isLiteral

/-- A rule has a value for all its parts, unless it compares a literal. -/
def Total (r : Rule Fragment) : Prop := ∀ ps, PartsOf r.body ps →
  if comparesLiteral r (ps.map Prod.fst) then r.action (ps.map Prod.snd) = .error .typeMismatch
  else ∃ v, r.action (ps.map Prod.snd) = .ok v ∧ ValueOf (ps.flatMap Prod.fst) v (.cat r.head)

section

@[simp] theorem position_truth (b : Bool) : (Expr.truth b).position = .error .typeMismatch := rfl

@[simp] theorem position_literalExpr (v : Literal) :
    (literalExpr v).position = .error .typeMismatch := by
  cases v <;> rfl

theorem position_ne_missing {e : Expr} (h : e.position = .ok p) : p ≠ .missing := by
  rintro rfl
  cases e
  all_goals simp only [Expr.position, reduceCtorEq] at h
  all_goals
    split at h
    · cases h
    · cases h
      contradiction

@[simp] theorem startOf_ne_missing {e : Expr} {operator : Nat} : startOf e operator ≠ .missing := by
  unfold startOf
  split
  · next h => exact position_ne_missing h
  · simp

/-- An expression with parts is where it says. -/
theorem position_of_ne_missing (h : p ≠ .missing) : (∀ n, (Expr.name p n).position = .ok p) ∧
    (∀ e n, (Expr.attr p e n).position = .ok p) ∧ (∀ e i, (Expr.index p e i).position = .ok p) ∧
    (∀ e es, (Expr.call p e es).position = .ok p) ∧ (∀ es, (Expr.concat p es).position = .ok p) ∧
    (∀ op es, (Expr.arith p op es).position = .ok p) ∧
    (∀ op es, (Expr.compare p op es).position = .ok p) ∧
    ∀ op es, (Expr.logic p op es).position = .ok p := by
  simp [Expr.position, h]

/-- Which expressions are places, and that all that the rules make are of the right form. -/
theorem formed_made : (∀ p n, (Expr.name p n).isPlace = true ∧ (Expr.name p n).Formed) ∧
    (∀ p e n, (Expr.attr p e n).isPlace = true ∧
      ((Expr.attr p e n).Formed ↔ e.isWord = true ∨ e.isPlace = true)) ∧
    (∀ p e i, (Expr.index p e i).isPlace = true ∧ (Expr.index p e i).Formed) ∧
    (∀ p e es, (Expr.call p e es).Formed) ∧ (∀ p es, (Expr.concat p es).Formed) ∧
    (∀ p op es, (Expr.arith p op es).Formed) ∧ (∀ p op es, (Expr.compare p op es).Formed) ∧
    (∀ p op es, (Expr.logic p op es).Formed) ∧ (∀ b, (Expr.truth b).Formed) ∧
    ∀ l, (literalExpr l).Formed := by
  simp [Expr.isPlace, Expr.Formed, Expr.Attached, Expr.Written]
  intro l
  cases l <;> simp [literalExpr, Expr.str, Expr.int, Value.isWritten]

theorem isWord_made : (Expr.str "this").isWord = true ∧ (Expr.str "scratch").isWord = true :=
  ⟨rfl, rfl⟩

theorem isTop_made : (∀ p e t v c, (Stmt.declare p e t v c).isTop = true) ∧
    (∀ p e v, (Stmt.assign p e v).isTop = true) ∧
    (∀ p t n ns w ss, (Stmt.function p t n ns w ss).isTop = true) ∧
    ∀ p e es ss, (Stmt.hat p e es ss).isTop = true := by
  simp [Stmt.isTop, Stmt.isVariable, Stmt.part]

theorem bare_ne_of_isTop {s : Stmt} (h : s.isTop = true) : .bare n ≠ s := by
  rintro rfl
  cases h

end

theorem ValueOf.token (h : ValueOf ts f (.tok t)) : ∃ v p, f = .token v p := by
  cases t
  case decimal | integer | string => exact h.2
  case this | scratch =>
    obtain ⟨-, p, rfl⟩ := h
    exact ⟨_, p, rfl⟩
  all_goals
    obtain ⟨-, s, p, rfl⟩ := h
    exact ⟨.text s, p, rfl⟩

/-- A comparison needs the place of its first operand. -/
theorem total_comparison (op : CompareOp) (t : Terminal) :
    Total ⟨.comparison, [.cat .expression, .tok t, .cat .expression], none, comparison op⟩ := by
  rintro _ (_ | ⟨⟨a, ha, -, hplace⟩, _ | ⟨htoken, _ | ⟨⟨b, hb, -⟩, _ | _⟩⟩⟩)
  obtain ⟨v, p, htoken⟩ := htoken.token
  split at hplace
  · next hliteral =>
    simp [comparesLiteral, hliteral, ha, htoken, hb, comparison, hplace, bind, Except.bind]
  · next hliteral =>
    obtain ⟨q, hq, hplace⟩ := hplace
    simp [comparesLiteral, hliteral, ha, htoken, hb, comparison, hplace, bind, Except.bind, pure,
      Except.pure, ValueOf, formed_made, position_of_ne_missing hq, hq]

theorem Total.valueOf (h : Total r) (hps : PartsOf r.body ps)
    (hv : r.action (ps.map Prod.snd) = .ok v) : ValueOf (ps.flatMap Prod.fst) v (.cat r.head) := by
  have hvalue := h ps hps
  rw [hv] at hvalue
  split at hvalue
  · cases hvalue
  · obtain ⟨_, ⟨⟩, hvalue⟩ := hvalue
    exact hvalue

section

open Scripts

/-- The rules of expressions, in both languages. -/
theorem total_expressions (rank : Precedence) : ∀ r ∈ expressionRules rank, Total r := by
  simp only [expressionRules, rule, List.forall_mem_cons, total_comparison, true_and]
  and_intros
  all_goals
    simp only [Total, forall_partsOf_cons, forall_partsOf_nil, ValueOf, forall_exists_index,
      and_imp, List.not_mem_nil, false_implies, implies_true]
  all_goals
    intros
    subst_vars
    simp [*, comparesLiteral, inLiteral, position_of_ne_missing, formed_made, literal, pass, truth,
      typeNamed, concatenation, arithmetic, negation, logic, logicalNot, parenthesised, oneExpr,
      moreExprs, bracketed, typeDeclaration]

theorem total_of_mem : ∀ r ∈ scripts.rules, Total r := by
  simp only [scripts, declarationRules, statementRules, placeRules, controlRules, rule,
    List.forall_mem_append, List.forall_mem_cons, eq_true (total_expressions minusRank), and_true]
  and_intros
  all_goals
    simp only [Total, forall_partsOf_cons, forall_partsOf_nil, ValueOf, forall_exists_index,
      and_imp, List.not_mem_nil, false_implies, implies_true]
  all_goals
    intros
    subst_vars
    simp [*, comparesLiteral, inLiteral, position_of_ne_missing, formed_made, isWord_made,
      isTop_made, bare_ne_of_isTop, bind, Except.bind, pure, Except.pure, pass, program,
      declarations, declaration, paths, declared, statements, statement, callStatement,
      declareVariable, setVariable, update, functionCall, declare, place, index, parameterNames,
      body, ifThen, ifElse, whileLoop, forLoop, giveBack, arguments, parameters,
      functionDeclaration, hat] <;> assumption

end

theorem valueOf_token (h : Spelled d t.kind t.value text) :
    ValueOf [t] (.ofToken t) (.tok t.kind) := by
  have hvalue : t.kind ∈ [.decimal, .integer, .string] ∨ ∃ s, t.value = .text s ∧
      (t.kind = .this → s = "this") ∧ (t.kind = .scratch → s = "scratch") := by
    generalize t.kind = kind, t.value = value at h
    cases h with
    | word _ =>
      refine .inr ⟨_, rfl, fun hkind => ?_, fun hkind => ?_⟩
      all_goals cases d <;> simpa [Terminal.keywords, Terminal.scriptKeywords,
        Terminal.setupKeywords] using Scan.mem_keywords hkind (by decide)
    | @mark m hmark =>
      have hkinds : ∀ m ∈ Terminal.marks d, m.2 ≠ .this ∧ m.2 ≠ .scratch := by
        cases d <;> decide
      exact .inr ⟨_, rfl, fun h => absurd h (hkinds m hmark).1, fun h => absurd h (hkinds m hmark).2⟩
    | _ => simp
  unfold ValueOf Fragment.ofToken
  split <;> simp_all [isLiteral, inLiteral]

/-- The tokens of a scan are spelled in its text, one after the other. -/
theorem scan_spelled (h : (scan .script line source).error = none) :
    (∀ t ∈ (scan .script line source).tokens, ∃ text, Spelled .script t.kind t.value text) ∧
      (scan .script line source).tokens.Pairwise fun t t' => t.position < t'.position := by
  have hwhole : (scanFrom .script (line + countNewlines []) ([] : List Char).length false 0
      source.toList).error = none := h
  obtain ⟨spans, htokens, hdivided⟩ := Scan.scanFrom_divided hwhole
  have hspans : spans.map Scan.Span.token = (scan .script line source).tokens := htokens
  rw [← hspans, List.forall_mem_map, List.pairwise_map]
  refine ⟨fun s hs => ⟨_, (hdivided.stands s hs).spelled⟩, hdivided.apart.2.imp_of_mem ?_⟩
  intro s s' hs _ hapart
  exact Nat.lt_of_lt_of_le (hdivided.stands s hs).nonempty hapart

end Grammar

end BlockScript
