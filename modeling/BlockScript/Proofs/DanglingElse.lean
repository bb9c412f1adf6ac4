import BlockScript.Proofs.Assignments

/-!
Conditions that follow each other without braces. Each else belongs to the innermost condition that
has none yet, since a condition before an else is not ended as long as the else can be read.
-/
namespace BlockScript.Grammar

open ParseTree Tables

/-- Trees of a symbol and of those after it. -/
theorem Canonical.cons {α : Type} {g : Grammar α} {d : Disputes} {below own own' : Precedence}
    {x : Symbol} {xs : List Symbol} {T : ParseTree} {ts : List ParseTree} {ahead : Option Terminal}
    (h : Canonical g d below own' [x] [T] (firstKind ts ahead))
    (rest : Canonical g d (pending own xs) own xs ts ahead) :
    Canonical g d below own (x :: xs) (T :: ts) ahead := by
  cases h with
  | leaf t _ => exact .leaf t rest
  | node hrule hleft hright children _ => exact .node hrule hleft hright children rest

namespace Scripts

/-- A body before a terminal, with the statements that it stands for. -/
structure Branch (next : Option Terminal) where
  tree : ParseTree
  statements : List Stmt
  canonical : Canonical scripts disputes .unranked .unranked [.cat .body] [tree] next
  value : tree.value scripts .ofToken = .ok (.stmts statements)

/-- What stands before the body of a condition, with the expression that is tested. -/
structure Opening where
  word : Token
  lparen : Token
  condition : ParseTree
  rparen : Token
  test : Expr
  hword : word.kind = .ifWord
  hlparen : lparen.kind = .lparen
  hrparen : rparen.kind = .rparen
  canonical : Canonical scripts disputes .unranked .unranked [.cat .expression] [condition]
    (some .rparen)
  value : condition.value scripts .ofToken = .ok (.expr test)

/-- A body with the else that follows it. -/
structure Closing where
  body : Branch (some .elseWord)
  word : Token
  hword : word.kind = .elseWord

def Opening.tokens (o : Opening) : List Token :=
  o.word :: o.lparen :: (o.condition.tokens ++ [o.rparen])

def Closing.tokens (c : Closing) : List Token := c.body.tree.tokens ++ [c.word]

variable {next : Option Terminal}

/-- A condition with its body, before any terminal. -/
theorem Opening.exists_condition (o : Opening) (b : Branch next) :
    ∃ N, N.tokens = o.tokens ++ b.tree.tokens ∧
      N.value scripts .ofToken =
        .ok (.stmt (.ifThen (.start o.word.position) o.test b.statements)) ∧
      Canonical scripts disputes .unranked .unranked [.cat .ifStatement] [N] next := by
  have hif : rule .ifStatement [.tok .ifWord, .tok .lparen, .cat .expression, .tok .rparen,
      .cat .body] ifThen ∈ scripts.rules := by simp [scripts, controlRules]
  have hrest : Canonical scripts disputes .unranked .unranked [.tok .rparen, .cat .body]
      [.leaf o.rparen, b.tree] next := .leaf_of_kind _ o.hrparen b.canonical
  have hcondition : Canonical scripts disputes .unranked .unranked
      [.cat .expression, .tok .rparen, .cat .body] [o.condition, .leaf o.rparen, b.tree] next :=
    .cons (by simpa [firstKind, o.hrparen] using o.canonical) hrest
  have hchildren : Canonical scripts disputes .unranked .unranked [.tok .ifWord, .tok .lparen,
      .cat .expression, .tok .rparen, .cat .body]
      [.leaf o.word, .leaf o.lparen, o.condition, .leaf o.rparen, b.tree] next :=
    .leaf_of_kind o.word o.hword (.leaf_of_kind o.lparen o.hlparen hcondition)
  obtain ⟨N, htokens, hN, hcanonical⟩ :=
    exists_node hif rfl (by simp [disputes, rule]) hchildren .nil rfl
  refine ⟨N, by simpa [Opening.tokens] using htokens, ?_, hcanonical⟩
  simp only [hN, valueAll_cons, valueAll_nil, value_leaf, o.value, b.value]
  rfl

end Scripts

end BlockScript.Grammar
