import BlockScript.Proofs.ScriptValues

/-!
What the rules of scripts make of their parts. A rule places what it makes at one of its tokens, or
where its first part is. A negation is placed at the start of the text, and with it all that begins
with it, and so is a function that begins with its type. What a rule makes has no other pieces than
itself and those of its parts, so that all that a script is made of is the value of a tree in its
parse tree.
-/
namespace BlockScript

/-- Whether the first operand of an expression, or the first operand of that, and so on, is the
negation of something. -/
def Expr.isNegative : Expr → Bool
  | arith _ .neg _ => true
  | logic _ .not _ => false
  | concat _ (a :: _) | arith _ _ (a :: _) | compare _ _ (a :: _) | logic _ _ (a :: _) =>
    isNegative a
  | _ => false

namespace Stmt

mutual

/-- A statement with all statements in it. -/
@[simp] def parts : Stmt → List Stmt
  | ifThen pos c body => ifThen pos c body :: partsAll body
  | ifElse pos c body other => ifElse pos c body other :: (partsAll body ++ partsAll other)
  | whileLoop pos c body => whileLoop pos c body :: partsAll body
  | forLoop pos first c next body =>
    forLoop pos first c next body :: (parts first ++ (parts next ++ partsAll body))
  | function pos t n ns warp body => function pos t n ns warp body :: partsAll body
  | hat pos event arguments body => hat pos event arguments body :: partsAll body
  | s => [s]

@[simp] def partsAll : List Stmt → List Stmt
  | [] => []
  | s :: rest => parts s ++ partsAll rest

end

@[simp] def place? : Stmt → Option Position
  | declare pos _ _ _ _ | assign pos _ _ | update pos _ _ _ | call pos _ _ | ifThen pos _ _
  | ifElse pos _ _ _ | whileLoop pos _ _ | forLoop pos _ _ _ _ | giveBack pos _ | shared pos _ _ _
  | function pos _ _ _ _ _ | hat pos _ _ _ | malformed pos _ _ => some pos
  | bare _ => none

/-- A function that begins with its type has no token of its own to be placed at. -/
def isUntold : Stmt → Bool
  | function _ (some _) _ _ false _ => true
  | _ => false

theorem all_bare (words : List String) :
    nodesAll (words.map bare) = [] ∧ partsAll (words.map bare) = words.map bare := by
  induction words with
  | nil => exact ⟨rfl, rfl⟩
  | cons word rest ih => simpa using ih

end Stmt

namespace Grammar

open ParseTree
open Scan (Spelled)

namespace Fragment

/-- All expressions in a value of a symbol. -/
@[simp] def nodes : Fragment → List Expr
  | expr e => e.nodes
  | exprs es => Expr.nodesAll es
  | stmt s => s.nodes
  | stmts ss => Stmt.nodesAll ss
  | script p => p.nodes
  | _ => []

/-- All statements in a value of a symbol. -/
@[simp] def parts : Fragment → List Stmt
  | stmt s => s.parts
  | stmts ss => Stmt.partsAll ss
  | script p => Stmt.partsAll p.statements
  | _ => []

@[simp] def declared : Fragment → List Declaration
  | declaration d => [d]
  | declarations ds => ds
  | script p => p.declarations
  | _ => []

/-- An expression, a statement or a declaration that a value is made of. The words for the stage and
for the sprite are no expressions of their own, and neither are words in place of statements. -/
@[simp] def Has (f : Fragment) : Fragment → Prop
  | expr e => e ∈ f.nodes ∧ e.isWord = false
  | stmt s => s ∈ f.parts ∧ s.place? ≠ none
  | declaration d => d ∈ f.declared
  | _ => False

@[simp] def AnyHas (g : Fragment) : List Fragment → Prop
  | [] => False
  | f :: fs => f.Has g ∨ AnyHas g fs

end Fragment

/-- A place of one of the tokens, or else the start of the text. -/
def At (ts : List Token) (displaced : Bool) (p : Position) : Prop :=
  ∀ n, p = .start n → if displaced then n = 0 else ∃ t ∈ ts, (t.position : Int) = n

@[simp] theorem at_append :
    At (ts ++ ts') displaced p ↔ At ts displaced p ∨ At ts' displaced p := by
  cases p <;> cases displaced <;> simp [At, or_and_right, exists_or]

@[simp] theorem at_start : At ts true (.start 0) := fun _ h => by cases h; rfl

/-- A value is placed at one of its tokens, or at the start of the text. -/
@[simp] def Placed (ts : List Token) : Fragment → Prop
  | .token _ n => At ts false (.start n)
  | .expr e => ∀ p, e.position = .ok p → At ts e.isNegative p
  | .stmt s => ∀ p, s.place? = some p → At ts s.isUntold p
  | .declaration d => At ts false d.pos
  | _ => True

def AllPlaced : List (List Token × Fragment) → Prop
  | [] => True
  | (ts, f) :: ps => Placed ts f ∧ AllPlaced ps

/-- A declaration keeps the record of an expression that is made of pieces of some values. -/
def Records (fs : List Fragment) (d : Declaration) : Prop :=
  ∃ e : Expr, d.value = some e.toRecord ∧
    ∀ e' ∈ e.nodes, ∀ p, e'.position = .ok p → Fragment.AnyHas (.expr e') fs

/-- What a rule makes of parts that are placed is placed, and has no other pieces than itself and
those of its parts. -/
structure Gathers (ps : List (List Token × Fragment)) (v : Fragment) : Prop where
  placed : Placed (ps.flatMap Prod.fst) v
  nodes : ∀ e ∈ v.nodes, e.isWord = false →
    v = .expr e ∨ Fragment.AnyHas (.expr e) (ps.map Prod.snd)
  parts : ∀ s ∈ v.parts, s.place? ≠ none →
    v = .stmt s ∨ Fragment.AnyHas (.stmt s) (ps.map Prod.snd)
  declared : ∀ d ∈ v.declared,
    v = .declaration d ∨ Fragment.AnyHas (.declaration d) (ps.map Prod.snd)
  records : ∀ d, v = .declaration d → Records (ps.map Prod.snd) d

variable {ps : List (List Token × Fragment)} {v : Fragment} {e : Expr}

theorem Gathers.has (h : Gathers ps v) (hg : v.Has g) :
    v = g ∨ Fragment.AnyHas g (ps.map Prod.snd) := by
  cases g with
  | expr e => exact h.nodes e hg.1 hg.2
  | stmt s => exact h.parts s hg.1 hg.2
  | declaration d => exact h.declared d hg
  | _ => cases hg

def Faithful (r : Rule Fragment) : Prop :=
  ∀ ps, PartsOf r.body ps → ∀ v, r.action (ps.map Prod.snd) = .ok v → AllPlaced ps → Gathers ps v

theorem isNegative_of_literal (h : e.position = .error .typeMismatch) : e.isNegative = false := by
  cases e
  all_goals simp only [Expr.position] at h
  all_goals first
    | simp [Expr.isNegative]
    | split at h <;> cases h

/-- A negation is negative, and what begins with a name or a word is not. -/
theorem isNegative_made : (∀ p es, (Expr.arith p .neg es).isNegative = true) ∧
    (∀ p n, (Expr.name p n).isNegative = false) ∧
    (∀ p e n, (Expr.attr p e n).isNegative = false) ∧
    (∀ p e i, (Expr.index p e i).isNegative = false) ∧
    (∀ p e es, (Expr.call p e es).isNegative = false) ∧
    (∀ p es, (Expr.logic p .not es).isNegative = false) := by
  simp [Expr.isNegative]

@[simp] theorem position_list (es : List Expr) :
    (Expr.list es).position = .error .typeMismatch := rfl

theorem nodes_literalExpr (l : Literal) : (literalExpr l).nodes = [literalExpr l] := by
  cases l <;> rfl

theorem nodes_str (s : String) : (Expr.str s).nodes = [Expr.str s] := rfl

theorem isWord_of_position (h : e.position = .ok p) : e.isWord = false := by
  cases e <;> first | rfl | cases h

theorem isNegative_of_isPlace (h : e.isPlace = true) : e.isNegative = false := by
  cases e <;> first | simp [Expr.isNegative] | cases h

/-- An operation is placed where its first operand is, or at its operator. -/
theorem faithful_operation (make : Position → List Expr → Expr)
    (haction : ∀ a l p b v, action [.expr a, .token l p, .expr b] = .ok v →
      v = .expr (make (startOf a p) [a, b]))
    (hposition : ∀ p es, p ≠ .missing → (make p es).position = .ok p)
    (hnodes : ∀ p es, (make p es).nodes = make p es :: Expr.nodesAll es)
    (hnegative : ∀ p a es, (make p (a :: es)).isNegative = a.isNegative) :
    Faithful ⟨head, [.cat .expression, .tok t, .cat .expression], none, action⟩ := by
  rintro _ (_ | @⟨_, ⟨ts, _⟩, _, _, ⟨a, rfl, -, ha⟩, _ | @⟨_, ⟨ts', _⟩, _, _, htoken,
    _ | @⟨_, ⟨us, _⟩, _, _, ⟨b, rfl, -⟩, _ | _⟩⟩⟩) v hv hplaced
  obtain ⟨l, p, rfl⟩ := htoken.token
  obtain ⟨hfirst, hoperator, -⟩ := hplaced
  obtain rfl := haction a l p b v hv
  refine ⟨fun q hq => ?_, by simp [hnodes]; grind, by simp, by simp, fun d hd => by cases hd⟩
  cases (hposition _ _ startOf_ne_missing).symm.trans hq
  rw [hnegative]
  split at ha
  · simp_all [startOf, isNegative_of_literal ha]
  · obtain ⟨q, -, hq⟩ := ha
    simp_all [startOf]

/-- The operations with two operands are placed by the first one. -/
theorem faithful_operations (t : Terminal) :
    Faithful ⟨.concatenation, [.cat .expression, .tok t, .cat .expression], none, concatenation⟩ ∧
    (∀ op, op ≠ .neg → Faithful
      ⟨.arithmetic, [.cat .expression, .tok t, .cat .expression], none, arithmetic op⟩) ∧
    (∀ op, Faithful
      ⟨.comparison, [.cat .expression, .tok t, .cat .expression], none, comparison op⟩) ∧
    ∀ op, op ≠ .not → Faithful
      ⟨.logic, [.cat .expression, .tok t, .cat .expression], none, logic op⟩ := by
  refine ⟨faithful_operation .concat ?_ ?_ ?_ ?_,
    fun op hop => faithful_operation (.arith · op) ?_ ?_ ?_ ?_,
    fun op => faithful_operation (.compare · op) ?_ ?_ ?_ ?_,
    fun op hop => faithful_operation (.logic · op) ?_ ?_ ?_ ?_⟩
  case refine_9 =>
    intro a l p b v hv
    obtain ⟨q, hq, hv⟩ := ok_of_bind hv
    cases hv
    simp [startOf, hq]
  all_goals first
    | rintro a l p b v ⟨⟩; rfl
    | simp +contextual [position_of_ne_missing]
    | simp_all [Expr.isNegative]
section

open Scripts

theorem faithful_of_mem : ∀ r ∈ scripts.rules, Faithful r := by
  simp only [scripts, declarationRules, statementRules, placeRules, expressionRules, controlRules,
    rule, List.forall_mem_append, List.forall_mem_cons, List.not_mem_nil, false_implies,
    implies_true, and_true, true_and, ne_eq, reduceCtorEq, not_false_eq_true, faithful_operations]
  and_intros
  all_goals
    simp only [Faithful, forall_partsOf_cons, forall_partsOf_nil, ValueOf, forall_exists_index,
      and_imp]
  all_goals
    intros
    subst_vars
    rename_i v hv hplaced
    simp [literal, pass, truth, typeNamed, negation, logicalNot, parenthesised, oneExpr, moreExprs,
      bracketed, typeDeclaration, program, declarations, declaration, paths, Scripts.declared,
      statements, statement, callStatement, declareVariable, setVariable, update, functionCall,
      declare, place, index, parameterNames, body, ifThen, ifElse, whileLoop, forLoop, giveBack,
      arguments, parameters, functionDeclaration, hat, bind, Except.bind, pure, Except.pure, *] at hv
    subst hv
    simp only [AllPlaced, Placed, Except.ok.injEq, forall_eq', *, isNegative_of_isPlace,
      position_of_ne_missing, isNegative_made, ne_eq, not_false_eq_true, Stmt.isUntold.eq_2,
      Stmt.place?, Option.some.injEq] at hplaced
    refine ⟨?_, ?_, ?_, ?_, fun d hd => ?_⟩
    · simp +contextual [Stmt.isUntold.eq_1, Stmt.isUntold.eq_2, position_of_ne_missing, isNegative_made,
        isNegative_of_isPlace, *]
    · simp only [Fragment.Has, Fragment.AnyHas, List.map_cons, List.map_nil, Fragment.nodes,
        Expr.nodes, Expr.nodesAll, nodes_literalExpr, nodes_str, Stmt.nodes, Stmt.nodesAll,
        Script.nodes, Option.map_some, Option.map_none, Option.getD_some, Option.getD_none,
        List.not_mem_nil, false_implies, implies_true] <;>
      grind [isWord_made, Stmt.all_bare]
    · simp only [Fragment.Has, Fragment.AnyHas, List.map_cons, List.map_nil, Fragment.parts,
        Stmt.parts, Stmt.partsAll, List.not_mem_nil, false_implies, implies_true] <;>
      grind [Stmt.place?, Stmt.all_bare]
    · simp only [Fragment.Has, Fragment.AnyHas, List.map_cons, List.map_nil, Fragment.declared,
        List.not_mem_nil, false_implies, implies_true] <;> grind
    · cases hd
      all_goals
        refine ⟨_, rfl, ?_⟩
        simp only [Fragment.Has, Fragment.AnyHas, List.map_cons, List.map_nil, Fragment.nodes,
          Expr.nodes, Expr.nodesAll, nodes_literalExpr]
        grind [position_literalExpr, position_list, isWord_of_position]

end

/-- A tree in some trees that has the given value. -/
def Occurs (ts : List ParseTree) (f : Fragment) : Prop :=
  ∃ U ∈ subtreesAll ts, U.value scripts .ofToken = .ok f

/-- The value of a tree is placed at one of its tokens, and its pieces are values of trees in it. -/
structure Keeps (T : ParseTree) (f : Fragment) : Prop where
  value : T.value scripts .ofToken = .ok f
  shaped : ∃ x, ValueOf T.tokens f x
  placed : Placed T.tokens f
  has : ∀ g, f.Has g → Occurs [T] g
  records : ∀ d, f = .declaration d → ∃ e : Expr, d.value = some e.toRecord ∧
    ∀ e' ∈ e.nodes, ∀ p, e'.position = .ok p → Occurs [T] (.expr e')

def Parts (cs : List ParseTree) (ps : List (List Token × Fragment)) : Prop :=
  List.Forall₂ (fun T p => p.1 = T.tokens ∧ Keeps T p.2) cs ps

theorem Parts.collect (h : Parts cs ps) :
    ps.flatMap Prod.fst = tokensAll cs ∧ AllPlaced ps ∧
      ∀ g, Fragment.AnyHas g (ps.map Prod.snd) → Occurs cs g := by
  induction h with
  | nil => exact ⟨rfl, trivial, fun g => False.elim⟩
  | @cons T p cs ps hT _ ih =>
    obtain ⟨htokens, hplaced, hgathered⟩ := ih
    refine ⟨by simp [hT.1, htokens], ⟨hT.1 ▸ hT.2.placed, hplaced⟩, ?_⟩
    rintro g (hg | hg)
    · obtain ⟨U, hU, hvalue⟩ := hT.2.has g hg
      exact ⟨U, List.mem_append_left _ (by simpa using hU), hvalue⟩
    · obtain ⟨U, hU, hvalue⟩ := hgathered g hg
      exact ⟨U, List.mem_append_right _ hU, hvalue⟩

theorem Parts.keeps {rule : Rule Fragment} (h : Parts cs ps)
    (hrule : scripts.rules[r]? = some rule) (hps : PartsOf rule.body ps)
    (hvalues : valueAll scripts .ofToken cs = .ok (ps.map Prod.snd))
    (hv : rule.action (ps.map Prod.snd) = .ok v) : Keeps (.node r cs) v := by
  obtain ⟨htokens, hplaced, hcollected⟩ := h.collect
  have hnode := faithful_of_mem rule (List.mem_of_getElem? hrule) ps hps v hv hplaced
  have hvalue : value scripts .ofToken (.node r cs) = .ok v := by
    rw [value_node hrule, hvalues]
    exact hv
  have hinner : ∀ g, Fragment.AnyHas g (ps.map Prod.snd) → Occurs [.node r cs] g := by
    intro g hg
    obtain ⟨U, hU, hvalue⟩ := hcollected g hg
    exact ⟨U, by simp [hU], hvalue⟩
  have hshape := (total_of_mem rule (List.mem_of_getElem? hrule)).valueOf hps hv
  rw [htokens] at hshape
  refine ⟨hvalue, ⟨_, hshape⟩, ?_, fun g hg => ?_, fun d hd => ?_⟩
  · rw [tokens, ← htokens]
    exact hnode.placed
  · rcases hnode.has hg with rfl | hg
    · exact ⟨.node r cs, by simp, hvalue⟩
    · exact hinner g hg
  · obtain ⟨e, he, hnodes⟩ := hnode.records d hd
    exact ⟨e, he, fun e' he' p hp => hinner _ (hnodes e' he' p hp)⟩

theorem Parses.keeps (h : Parses scripts xs ts)
    (hspelled : ∀ t ∈ tokensAll ts, ∃ text, Spelled .script t.kind t.value text)
    (hvs : valueAll scripts .ofToken ts = .ok vs) :
    (∃ ps, vs = ps.map Prod.snd ∧ PartsOf xs ps ∧ Parts ts ps) ∧
      ∀ U ∈ subtreesAll ts, U.tokens.Sublist (tokensAll ts) ∧ ∃ f, Keeps U f := by
  induction h generalizing vs with
  | nil =>
    cases hvs
    exact ⟨⟨[], rfl, .nil, .nil⟩, fun U hU => by cases hU⟩
  | leaf t _ ih =>
    simp only [tokensAll, tokens, List.singleton_append, List.forall_mem_cons] at hspelled
    obtain ⟨⟨text, htext⟩, hspelled⟩ := hspelled
    rw [valueAll_cons, value_leaf, pure_bind] at hvs
    obtain ⟨vs, hrest, hvs⟩ := ok_of_bind hvs
    cases hvs
    obtain ⟨⟨ps, rfl, hps, hparts⟩, hall⟩ := ih hspelled hrest
    have hleaf : Keeps (.leaf t) (.ofToken t) :=
      ⟨rfl, ⟨_, valueOf_token htext⟩, fun n hn => ⟨t, by simp, by cases hn; rfl⟩,
        fun g hg => by cases g <;> simp [Fragment.ofToken] at hg, fun d hd => by cases hd⟩
    refine ⟨⟨([t], .ofToken t) :: ps, rfl, .cons (valueOf_token htext) hps,
      .cons ⟨rfl, hleaf⟩ hparts⟩, ?_⟩
    simp only [subtreesAll, subtrees, List.singleton_append, List.forall_mem_cons, tokensAll, tokens]
    exact ⟨⟨by simp, _, hleaf⟩, fun U hU => ⟨(hall U hU).1.cons t, (hall U hU).2⟩⟩
  | @node r rule xs cs ts hrule _ _ ihchildren ihrest =>
    simp only [tokensAll, tokens, List.forall_mem_append] at hspelled
    rw [valueAll_cons, value_node hrule] at hvs
    obtain ⟨v, hnode, hvs⟩ := ok_of_bind hvs
    obtain ⟨vs, hrest, hvs⟩ := ok_of_bind hvs
    cases hvs
    obtain ⟨parts, hchildren, hv⟩ := ok_of_bind hnode
    obtain ⟨⟨ps, rfl, hps, hparts⟩, hinner⟩ := ihchildren hspelled.1 hchildren
    obtain ⟨⟨qs, rfl, hqs, hothers⟩, hlater⟩ := ihrest hspelled.2 hrest
    have hkeeps := hparts.keeps hrule hps hchildren hv
    have hvalue := (total_of_mem rule (List.mem_of_getElem? hrule)).valueOf hps hv
    rw [hparts.collect.1] at hvalue
    refine ⟨⟨(tokensAll cs, v) :: qs, rfl, .cons hvalue hqs, .cons ⟨rfl, hkeeps⟩ hothers⟩, ?_⟩
    simp only [subtreesAll, subtrees, List.cons_append, List.forall_mem_cons, List.forall_mem_append,
      tokensAll, tokens]
    exact ⟨⟨List.sublist_append_left _ _, v, hkeeps⟩,
      fun U hU => ⟨(hinner U hU).1.trans (List.sublist_append_left _ _), (hinner U hU).2⟩,
      fun U hU => ⟨(hlater U hU).1.trans (List.sublist_append_right _ _), (hlater U hU).2⟩⟩

/-- A derivation of a script is a tree all of whose trees keep their places. -/
theorem Derives.exists_tree {tokens : List Token} (h : Derives scripts .ofToken [x] tokens [v])
    (hspelled : ∀ t ∈ tokens, ∃ text, Spelled .script t.kind t.value text) :
    ∃ T : ParseTree, Parses scripts [x] [T] ∧ T.tokens = tokens ∧
      T.value scripts .ofToken = .ok v ∧ ∀ U ∈ T.subtrees, ∀ f, U.value scripts .ofToken = .ok f →
        U.tokens.Sublist T.tokens ∧ Keeps U f := by
  obtain ⟨ts, hparses, rfl, hvalues⟩ := h.exists_trees
  obtain ⟨T, rfl⟩ := List.length_eq_one_iff.mp hparses.length_eq
  have hall := (hparses.keeps hspelled hvalues).2
  rw [valueAll_cons] at hvalues
  obtain ⟨v, hvalue, hvalues⟩ := ok_of_bind hvalues
  cases hvalues
  simp only [tokensAll, subtreesAll, List.append_nil] at hall ⊢
  refine ⟨T, hparses, rfl, hvalue, fun U hU f hf => ?_⟩
  obtain ⟨hsublist, f', hf'⟩ := hall U hU
  cases hf'.value.symm.trans hf
  exact ⟨hsublist, hf'⟩

end Grammar

end BlockScript
