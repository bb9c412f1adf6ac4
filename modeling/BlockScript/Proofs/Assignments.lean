import BlockScript.Proofs.GrammarTables

/-!
Assignments of an expression. An expression that precedence groups as it stands is a canonical tree,
and a script of one assignment, or a setup that declares one variable, is a canonical tree around
it. What comes out is put together by the rules of the grammar from the value of the expression,
whatever that is.
-/
namespace BlockScript.Grammar

open Automaton ParseTree Tables

/-- A grammar has the rules for expressions. -/
structure HasExpressions (g : Grammar Fragment) (minusRank : Precedence) : Prop where
  rules : ∀ rule ∈ expressionRules minusRank, rule ∈ g.rules
  name : ∃ action, rule .place [.tok .word] action ∈ g.rules ∧
    ∀ t, action [.ofToken t] = Setups.place [.ofToken t]

theorem scripts_hasExpressions : HasExpressions scripts Scripts.minusRank where
  rules rule hrule := by simp [scripts, hrule]
  name := by
    refine ⟨Scripts.place, by simp [scripts, Scripts.placeRules], ?_⟩
    rintro ⟨kind, value, line, position⟩
    cases value <;> rfl

theorem setups_hasExpressions : HasExpressions setups Setups.minusRank where
  rules rule hrule := by simp [setups, hrule]
  name := ⟨Setups.place, by simp [setups, Setups.rules], fun _ => rfl⟩

theorem operator_mem (minusRank : Precedence) (op : Operator) :
    op.rule ∈ expressionRules minusRank := by
  cases op <;> repeat (first | exact List.Mem.head _ | apply List.Mem.tail)

theorem sign_mem (minusRank : Precedence) (s : Sign) :
    s.rule minusRank ∈ expressionRules minusRank := by
  cases s <;> repeat (first | exact List.Mem.head _ | apply List.Mem.tail)

section

variable {minusRank below own : Precedence} {ahead : Option Terminal} {rule : Rule Fragment}

/-- The categories that can be the only part of an expression. -/
def parts : List Category :=
  [.number, .boolean, .place, .concatenation, .arithmetic, .comparison, .logic]

theorem part_mem (minusRank : Precedence) :
    ∀ c ∈ parts, Grammar.rule .expression [.cat c] pass ∈ expressionRules minusRank := by
  simp [parts, expressionRules]

theorem part_uncontested : ∀ c ∈ parts, ∀ t, disputes.contested [.cat c] t = false := by
  simp [parts, disputes]

namespace HasExpressions

theorem leaf (hg : HasExpressions g minusRank) (l : Leaf) : ∃ rule ∈ g.rules,
    rule.head = l.head ∧ rule.body = [.tok l.terminal] ∧
      ∀ t, rule.action [.ofToken t] = l.action [.ofToken t] := by
  have hrules : l ≠ .name →
      Grammar.rule l.head [.tok l.terminal] l.action ∈ expressionRules minusRank := by
    cases l <;> simp [expressionRules, Leaf.head, Leaf.terminal, Leaf.action]
  by_cases hl : l = .name
  · obtain ⟨action, hmem, haction⟩ := hg.name
    subst hl
    exact ⟨_, hmem, rfl, rfl, haction⟩
  · exact ⟨_, hg.rules _ (hrules hl), rfl, rfl, fun _ => rfl⟩

/-- A canonical tree of a rule for an expression is a tree of an expression. -/
theorem exists_tree (hg : HasExpressions g minusRank) (hmem : rule ∈ g.rules)
    (hhead : rule.head = .expression ∨ rule.head ∈ parts)
    (hleft : ∀ t ∈ disputes.operator? rule.body, reduces below (g.precedence t) = false)
    (hright : ∀ t ∈ firstKind ts ahead, disputes.contested rule.body t = true →
      reduces (g.rulePrecedence rule) (g.precedence t) = true)
    (children : Canonical g disputes below (g.rulePrecedence rule) rule.body cs
      (firstKind ts ahead)) (rest : Canonical g disputes (pending own xs) own xs ts ahead) :
    ∃ T, T.tokens = tokensAll cs ∧
      T.value g .ofToken = valueAll g .ofToken cs >>= rule.action ∧
      Canonical g disputes below own (.cat .expression :: xs) (T :: ts) ahead := by
  obtain ⟨r, hr⟩ := List.getElem?_of_mem hmem
  rcases hhead with hhead | hhead
  · exact ⟨.node r cs, rfl, value_node hr cs, hhead ▸ .node hr hleft hright children rest⟩
  · obtain ⟨r', hr'⟩ := List.getElem?_of_mem (hg.rules _ (part_mem minusRank _ hhead))
    refine ⟨.node r' [.node r cs], by simp, ?_, ?_⟩
    · rw [value_node hr', valueAll, value_node hr]
      cases valueAll g .ofToken cs >>= rule.action <;> rfl
    · refine .node hr' (by simp [Grammar.rule, Disputes.operator?]) ?_
        (.node hr hleft hright children .nil) rest
      intro t _ hcontested
      rw [Grammar.rule, part_uncontested _ hhead] at hcontested
      cases hcontested

end HasExpressions

def parenRule : Rule Fragment :=
  Grammar.rule .expression [.tok .lparen, .cat .expression, .tok .rparen] parenthesised

/-- Only the given operator can come after an expression. -/
def Ahead (ahead : Option Terminal) (next : Option Operator) : Prop :=
  ∀ op : Operator, ahead = some op.terminal → next = some op

theorem ahead_of_contested (h : Ahead ahead next) (ht : t ∈ ahead) (hbody : body.length ≠ 1)
    (hcontested : disputes.contested body t = true) : ∃ op, next = some op ∧ t = op.terminal := by
  simp only [disputes, Bool.or_eq_true, Bool.and_eq_true, beq_iff_eq, operatorKinds,
    List.contains_iff_mem, List.mem_map] at hcontested
  rcases hcontested with ⟨-, op, -, rfl⟩ | ⟨rfl, -⟩
  · exact ⟨op, h op ht, rfl⟩
  · exact absurd rfl hbody

/-- A phrase that precedence groups as it stands is a canonical tree with its tokens and its value.
-/
theorem Phrase.exists_tree (hg : HasExpressions g minusRank) (φ : Phrase)
    (hfits : φ.fits (.of g minusRank) below next = true) (hahead : Ahead (firstKind ts ahead) next)
    (rest : Canonical g disputes (pending own xs) own xs ts ahead) :
    ∃ T, T.tokens = φ.tokens ∧ T.value g .ofToken = φ.value ∧
      Canonical g disputes below own (.cat .expression :: xs) (T :: ts) ahead := by
  induction φ generalizing below own xs ts ahead next with
  | leaf l t kind =>
    obtain ⟨rule, hmem, hhead, hbody, haction⟩ := hg.leaf l
    have children : Canonical g disputes below (g.rulePrecedence rule) rule.body [.leaf t]
        (firstKind ts ahead) := hbody ▸ .leaf_of_kind t kind .nil
    obtain ⟨T, htokens, hvalue, htree⟩ := hg.exists_tree hmem (by rw [hhead]; cases l <;> decide)
      (by simp [hbody, Disputes.operator?]) (by simp [hbody, disputes]) children rest
    exact ⟨T, htokens, hvalue.trans (haction t), htree⟩
  | paren opening inner closing opens closes ih =>
    have hafter : Ahead (firstKind [.leaf closing] (firstKind ts ahead)) none := by
      intro op hop
      have hkind : Terminal.rparen = op.terminal := closes.symm.trans (Option.some.inj hop)
      cases op <;> cases hkind
    obtain ⟨U, htokens, hvalue, htree⟩ := ih hfits hafter (.leaf_of_kind closing closes
      (Canonical.nil : Canonical g disputes _ (g.rulePrecedence parenRule) [] [] _))
    have children : Canonical g disputes below (g.rulePrecedence parenRule) parenRule.body
        [.leaf opening, U, .leaf closing] (firstKind ts ahead) := .leaf_of_kind opening opens htree
    obtain ⟨T, htokens', hvalue', htree'⟩ := hg.exists_tree
      (hg.rules _ (by simp [expressionRules, parenRule])) (.inl rfl)
      (by simp [parenRule, Grammar.rule, Disputes.operator?])
      (by simp [parenRule, Grammar.rule, disputes]) children rest
    refine ⟨T, by simp [htokens', htokens, tokens], hvalue'.trans ?_, htree'⟩
    rw [valueAll_leaf, valueAll, hvalue, value]
    cases inner.value <;> rfl
  | unary sign t kind operand ih =>
    simp only [fits, Bool.and_eq_true] at hfits
    have hrank : g.rulePrecedence (sign.rule minusRank) = (Ranks.of g minusRank).sign sign := by
      cases sign <;> rfl
    have hafter : Ahead (firstKind [] (firstKind ts ahead)) next := hahead
    obtain ⟨U, htokens, hvalue, htree⟩ := ih hfits.2 hafter .nil
    have children : Canonical g disputes below (g.rulePrecedence (sign.rule minusRank))
        (sign.rule minusRank).body [.leaf t, U] (firstKind ts ahead) :=
      hrank ▸ .leaf_of_kind t kind htree
    obtain ⟨T, htokens', hvalue', htree'⟩ := hg.exists_tree (hg.rules _ (sign_mem minusRank sign))
      (.inr (by cases sign <;> simp [Sign.rule, Sign.head, parts]))
      (by simp [Sign.rule, Disputes.operator?]) (by
        intro t ht hcontested
        obtain ⟨op, rfl, rfl⟩ := ahead_of_contested hahead ht (by simp [Sign.rule]) hcontested
        rw [hrank]
        exact hfits.1) children rest
    refine ⟨T, by simp [htokens', htokens, tokens], hvalue'.trans ?_, htree'⟩
    rw [valueAll_leaf, valueAll, hvalue, value]
    cases operand.value <;> rfl
  | binary left op t kind right ihleft ihright =>
    simp only [fits, Bool.and_eq_true, Bool.not_eq_true'] at hfits
    obtain ⟨⟨⟨hbelow, hnext⟩, hleft⟩, hright⟩ := hfits
    have hrank : g.rulePrecedence op.rule = (Ranks.of g minusRank).operator op := by
      cases op <;> rfl
    have hafter : Ahead (firstKind [] (firstKind ts ahead)) next := hahead
    obtain ⟨V, htokens₂, hvalue₂, htree₂⟩ := ihright hright hafter .nil
    have hoperator : Canonical g disputes (pending ((Ranks.of g minusRank).operator op)
        [.tok op.terminal, .cat .expression]) ((Ranks.of g minusRank).operator op)
        [.tok op.terminal, .cat .expression] [.leaf t, V] (firstKind ts ahead) :=
      .leaf_of_kind t kind htree₂
    have hfirst : Ahead (firstKind [.leaf t, V] (firstKind ts ahead)) (some op) := by
      intro op' hop
      exact congrArg some (Operator.terminal_injective (kind.symm.trans (Option.some.inj hop)))
    obtain ⟨U, htokens₁, hvalue₁, htree₁⟩ := ihleft hleft hfirst hoperator
    obtain ⟨T, htokens', hvalue', htree'⟩ := hg.exists_tree (hg.rules _ (operator_mem minusRank op))
      (.inr (by cases op <;> decide)) (by
        intro t ht
        cases ht
        exact hbelow) (by
        intro t ht hcontested
        obtain ⟨op, rfl, rfl⟩ := ahead_of_contested hahead ht
          (by simp [Operator.rule, Grammar.rule]) hcontested
        rw [hrank]
        exact hnext) (hrank ▸ htree₁) rest
    refine ⟨T, by simp [htokens', htokens₁, htokens₂, tokens], hvalue'.trans ?_, htree'⟩
    rw [valueAll, hvalue₁, valueAll_leaf, valueAll, hvalue₂, value]
    cases left.value <;> cases right.value <;> rfl

/-- A canonical tree of a rule that precedence does not touch. -/
theorem exists_node {after : Precedence} (hmem : rule ∈ g.rules)
    (hfirst : disputes.operator? rule.body = none)
    (hlast : ∀ t ∈ firstKind ts ahead, disputes.contested rule.body t = false)
    (children : Canonical g disputes below (g.rulePrecedence rule) rule.body cs
      (firstKind ts ahead))
    (rest : Canonical g disputes after own xs ts ahead) (hafter : after = pending own xs) :
    ∃ T, T.tokens = tokensAll cs ∧
      T.value g .ofToken = valueAll g .ofToken cs >>= rule.action ∧
      Canonical g disputes below own (.cat rule.head :: xs) (T :: ts) ahead := by
  subst hafter
  obtain ⟨r, hr⟩ := List.getElem?_of_mem hmem
  exact ⟨.node r cs, rfl, value_node hr cs, .node hr (by simp [hfirst])
    (fun t ht hcontested => by simp [hlast t ht] at hcontested) children rest⟩

end

namespace Scripts

/-- A script of one statement is parsed with the value of its tree. -/
theorem parse_statement {scan : Scan} {S : ParseTree}
    (hS : Canonical scripts disputes .unranked .unranked [.cat .topStatement] [S] none)
    (hscan : scan.error = none) (htokens : scan.tokens = S.tokens) (line : Nat) :
    ∃ line', scriptMachine.parse line scan = ended (do
      let s ← S.value scripts .ofToken
      let ss ← statements [s]
      program [ss]) scan.line line' := by
  have hstatements : rule .topStatements [.cat .topStatement] statements ∈ scripts.rules := by
    simp [scripts, statementRules]
  have hprogram : rule .program [.cat .topStatements] program ∈ scripts.rules := by
    simp [scripts, declarationRules]
  obtain ⟨L, htokens₁, hvalue₁, hL⟩ :=
    exists_node hstatements rfl (by simp [disputes, rule]) hS .nil rfl
  obtain ⟨T, htokens₂, hvalue₂, hT⟩ :=
    exists_node hprogram rfl (by simp [disputes, rule]) hL .nil rfl
  have hresult : T.value scripts .ofToken =
      S.value scripts .ofToken >>= fun s => statements [s] >>= fun ss => program [ss] := by
    simp only [hvalue₂, hvalue₁, valueAll_cons, valueAll_nil, rule, bind_assoc, pure_bind]
  exact hresult ▸ hT.parse settles hscan (by simp [htokens, htokens₂, htokens₁]) line

/-- What a script of one assignment stands for. -/
def assigned (target equals semicolon : Token) (value : Built) : Built := do
  let name ← Scripts.place [.ofToken target]
  let assignment ← value >>= fun v => setVariable [name, .ofToken equals, v]
  let statement ← Scripts.statement [assignment, .ofToken semicolon]
  let statements ← Scripts.statements [statement]
  program [statements]

/-- A script of one assignment is parsed with the value of its expression. -/
theorem parse_assigned {scan : Scan} {target equals semicolon : Token} {φ : Phrase} (line : Nat)
    (hscan : scan.error = none) (htarget : target.kind = .word)
    (hequals : equals.kind = .equals) (hsemicolon : semicolon.kind = .semicolon)
    (hfits : φ.fits (.of scripts minusRank) .unranked none = true)
    (htokens : scan.tokens = target :: equals :: (φ.tokens ++ [semicolon])) :
    ∃ line', scriptMachine.parse line scan =
      ended (assigned target equals semicolon φ.value) scan.line line' := by
  have hnone : Ahead (firstKind [] (some semicolon.kind)) none := by
    rw [hsemicolon]
    intro op hop
    cases op <;> cases hop
  obtain ⟨E, htokens₁, hvalue₁, hE⟩ := φ.exists_tree scripts_hasExpressions hfits hnone .nil
  have hvalue : Canonical scripts disputes .unranked .unranked [.tok .equals, .cat .expression]
      [.leaf equals, E] (some semicolon.kind) := .leaf_of_kind equals hequals hE
  have hplace : rule .place [.tok .word] Scripts.place ∈ scripts.rules := by
    simp [scripts, placeRules]
  have hset : rule .setVariable [.cat .place, .tok .equals, .cat .expression] setVariable ∈
      scripts.rules := by simp [scripts, statementRules]
  have hstatement : rule .topStatement [.cat .setVariable, .tok .semicolon] statement ∈
      scripts.rules := by simp [scripts, statementRules]
  obtain ⟨P, htokens₂, hvalue₂, hP⟩ := exists_node hplace rfl (by simp [disputes, rule])
    (.leaf_of_kind target htarget .nil) hvalue rfl
  obtain ⟨A, htokens₃, hvalue₃, hA⟩ := exists_node hset rfl (by
    intro t ht
    cases ht
    rw [hsemicolon]
    rfl) hP (.leaf_of_kind semicolon hsemicolon .nil) rfl
  obtain ⟨S, htokens₄, hvalue₄, hS⟩ :=
    exists_node hstatement rfl (by simp [disputes, rule]) hA .nil rfl
  have hresult : (do
      let s ← S.value scripts .ofToken
      let ss ← statements [s]
      program [ss]) = assigned target equals semicolon φ.value := by
    simp only [hvalue₄, hvalue₃, hvalue₂, hvalue₁, valueAll_cons, valueAll_nil, value_leaf, rule,
      assigned, bind_assoc, pure_bind]
  rw [← hresult]
  exact parse_statement hS hscan (by simp [htokens, htokens₄, htokens₃, htokens₂, htokens₁]) line

end Scripts

inductive TypeWord
  | num | str | bool | var
  deriving DecidableEq, Repr

namespace TypeWord

def terminal : TypeWord → Terminal
  | num => .numType
  | str => .strType
  | bool => .boolType
  | var => .varType

def type : TypeWord → TypeSet
  | num => .ofNumber
  | str => .ofString
  | bool => .ofBoolean
  | var => .general

end TypeWord

namespace Setups

/-- What a setup with one variable stands for. -/
def declared (w : TypeWord) (target colon type equals semicolon : Token) (value : Built) : Built := do
  let name ← typeNamed w.type [.ofToken type]
  let declaration ← typeDeclaration [.ofToken colon, name]
  let global ← value >>= fun v =>
    setVariable [.ofToken target, declaration, .ofToken equals, v, .ofToken semicolon]
  let globals ← Setups.globals [global]
  program [globals]

/-- A setup that declares one variable is parsed with the value of its expression. -/
theorem parse_declared {scan : Scan} {target colon type equals semicolon : Token} {φ : Phrase}
    {w : TypeWord} (line : Nat) (hscan : scan.error = none) (htarget : target.kind = .word)
    (hcolon : colon.kind = .colon) (htype : type.kind = w.terminal) (hequals : equals.kind = .equals)
    (hsemicolon : semicolon.kind = .semicolon)
    (hfits : φ.fits (.of setups minusRank) .unranked none = true)
    (htokens : scan.tokens = target :: colon :: type :: equals :: (φ.tokens ++ [semicolon])) :
    ∃ line', setupMachine.parse line scan =
      ended (declared w target colon type equals semicolon φ.value) scan.line line' := by
  have hnone : Ahead (firstKind [.leaf semicolon] none) none := by
    intro op hop
    have hkind : Terminal.semicolon = op.terminal := hsemicolon.symm.trans (Option.some.inj hop)
    cases op <;> cases hkind
  have hclose : Canonical setups disputes (pending .unranked [.tok .semicolon]) .unranked
      [.tok .semicolon] [.leaf semicolon] none := .leaf_of_kind semicolon hsemicolon .nil
  obtain ⟨E, htokens₁, hvalue₁, hE⟩ := φ.exists_tree setups_hasExpressions hfits hnone hclose
  have hvalue : Canonical setups disputes .unranked .unranked
      [.tok .equals, .cat .expression, .tok .semicolon] [.leaf equals, E, .leaf semicolon] none :=
    .leaf_of_kind equals hequals hE
  have htypeName : rule .typeName [.tok w.terminal] (typeNamed w.type) ∈ setups.rules := by
    cases w <;> simp [setups, expressionRules, TypeWord.terminal, TypeWord.type]
  have htypeDeclaration : rule .typeDeclaration [.tok .colon, .cat .typeName] typeDeclaration ∈
      setups.rules := by simp [setups, expressionRules]
  have hset : rule .setVariable [.tok .word, .cat .typeDeclaration, .tok .equals,
      .cat .expression, .tok .semicolon] setVariable ∈ setups.rules := by simp [setups, rules]
  have hglobals : rule .variableDeclarations [.cat .setVariable] Setups.globals ∈
      setups.rules := by simp [setups, rules]
  have hprogram : rule .program [.cat .variableDeclarations] program ∈ setups.rules := by
    simp [setups, rules]
  obtain ⟨N, htokens₂, hvalue₂, hN⟩ := exists_node htypeName rfl (by simp [disputes, rule])
    (.leaf_of_kind type htype .nil) .nil rfl
  have htyped : Canonical setups disputes .unranked .unranked [.tok .colon, .cat .typeName]
      [.leaf colon, N] (some equals.kind) := .leaf_of_kind colon hcolon hN
  obtain ⟨D, htokens₃, hvalue₃, hD⟩ :=
    exists_node htypeDeclaration rfl (by simp [disputes, rule]) htyped hvalue rfl
  have hglobal : Canonical setups disputes .unranked .unranked [.tok .word, .cat .typeDeclaration,
      .tok .equals, .cat .expression, .tok .semicolon]
      [.leaf target, D, .leaf equals, E, .leaf semicolon] none := .leaf_of_kind target htarget hD
  obtain ⟨A, htokens₄, hvalue₄, hA⟩ :=
    exists_node hset rfl (by simp [disputes, rule]) hglobal .nil rfl
  obtain ⟨L, htokens₅, hvalue₅, hL⟩ :=
    exists_node hglobals rfl (by simp [disputes, rule]) hA .nil rfl
  obtain ⟨T, htokens₆, hvalue₆, hT⟩ :=
    exists_node hprogram rfl (by simp [disputes, rule]) hL .nil rfl
  have hresult : T.value setups .ofToken =
      declared w target colon type equals semicolon φ.value := by
    simp only [hvalue₆, hvalue₅, hvalue₄, hvalue₃, hvalue₂, hvalue₁, valueAll_cons, valueAll_nil,
      value_leaf, rule, declared, bind_assoc, pure_bind]
  rw [← hresult]
  exact hT.parse settles hscan
    (by simp [htokens, htokens₆, htokens₅, htokens₄, htokens₃, htokens₂, htokens₁]) line

end Setups

end BlockScript.Grammar
