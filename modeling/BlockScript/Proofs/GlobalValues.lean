import BlockScript.Proofs.EmittedBlocks
import BlockScript.Proofs.Formulas
import BlockScript.Proofs.SharedExpressions

/-!
The values of globals. A setup is evaluated when it is applied: each global starts with the ordinary
value of its expression, in which the globals before it have the values that they were given. The
logical operators are the exception. They always build a condition, so what is stored for them is a
block and not a truth value, and no other operator takes it for an operand.
-/
namespace BlockScript

namespace Value

def isPlain : Value → Bool
  | bool _ | int _ | float _ | str _ => true
  | _ => false

def isLiteral : Value → Bool
  | list items => items.all isPlain
  | v => v.isPlain

mutual

/-- Whether a value is a block or a list with a block in it. -/
def hasBlock : Value → Bool
  | list items => haveBlock items
  | v => v.isBlock

def haveBlock : List Value → Bool
  | [] => false
  | v :: rest => hasBlock v || haveBlock rest

end

def numeral? : Value → Option Number
  | int n => some (.int n)
  | float x => some (.float x)
  | _ => none

end Value

/-- The result of an operator on numbers. A power may lie off the real line. -/
def ArithOp.ordinary : ArithOp → List Number → Option Value
  | add, [m, n] => (m.add n).toOption.map .ofNumber
  | sub, [m, n] => (m.sub n).toOption.map .ofNumber
  | mul, [m, n] => (m.mul n).toOption.map .ofNumber
  | div, [m, n] => (m.div n).toOption.map .ofNumber
  | mod, [m, n] => (m.mod n).toOption.map .ofNumber
  | pow, [m, n] => (m.pow n).toOption.map fun
    | .real p => .ofNumber p
    | .complex re im => .complex re im
  | neg, [n] => some (.ofNumber n.neg)
  | _, _ => none

/-- Whether numbers are in an order, or texts are equal. -/
def CompareOp.ordinary (c : CompareOp) : List Value → Option Bool
  | [.str s, .str t] => match c with
    | eq => some (s == t)
    | ne => some (s != t)
    | _ => none
  | [a, b] => do return Value.holds c ((← a.numeral?).order? (← b.numeral?))
  | _ => none

/-- Ordinary logic, and whether a text occurs in another or a literal in a list. -/
def LogicOp.ordinary : LogicOp → List Value → Option Bool
  | not, [.bool a] => some !a
  | and, [.bool a, .bool b] => some (a && b)
  | or, [.bool a, .bool b] => some (a || b)
  | isIn, [.str s, .str t] => some (Value.occursIn s.toList t.toList)
  | isIn, [v, .list items] => some (items.any v.same)
  | _, _ => none

namespace Expr

mutual

/-- The ordinary value of an expression, in which names have known values. -/
def ordinary (known : Assoc String Value) : Expr → Option Value
  | value v => some v
  | truth b => some (.bool b)
  | list items => do return .list (← ordinaryAll known items)
  | name _ n => Assoc.get? n known
  | concat _ operands => do
    match ← ordinaryAll known operands with
    | [.str s, .str t] => some (.str (s ++ t))
    | _ => none
  | arith _ op operands => do op.ordinary (← (← ordinaryAll known operands).mapM Value.numeral?)
  | compare _ op operands => do return .bool (← op.ordinary (← ordinaryAll known operands))
  | logic _ op operands => do return .bool (← op.ordinary (← ordinaryAll known operands))
  | _ => none

def ordinaryAll (known : Assoc String Value) : List Expr → Option (List Value)
  | [] => some []
  | e :: rest => do return (← ordinary known e) :: (← ordinaryAll known rest)

end

def isLogic : Expr → Bool
  | logic _ _ _ => true
  | _ => false

/-- Whether a logical operator occurs in an expression. -/
def hasLogic (e : Expr) : Bool := e.nodes.any isLogic

/-- An expression that can stand in a setup, apart from its operands. -/
def isSimple : Expr → Bool
  | value v => v.isWritten
  | truth _ | list _ | name _ _ | concat _ _ | arith _ _ _ | compare _ _ _ | logic _ _ _ => true
  | _ => false

theorem isSimple_made : (∀ b, (truth b).isSimple = true) ∧ (∀ es, (list es).isSimple = true) ∧
    (∀ p n, (name p n).isSimple = true) ∧ (∀ p es, (concat p es).isSimple = true) ∧
    (∀ p op es, (arith p op es).isSimple = true) ∧ (∀ p op es, (compare p op es).isSimple = true) ∧
    ∀ p op es, (logic p op es).isSimple = true := by
  simp [isSimple]

/-- The expressions between the brackets of a list. -/
def items : Expr → List Expr
  | list items => items
  | _ => []

end Expr

namespace Value

variable {v : Value}

@[simp] theorem haveBlock_eq_false : haveBlock vs = false ↔ ∀ v ∈ vs, v.hasBlock = false := by
  induction vs with
  | nil => simp [haveBlock]
  | cons v rest ih => simp [haveBlock, ih]

theorem hasBlock_of_isPlain (h : v.isPlain = true) : v.hasBlock = false := by
  cases v <;> first | rfl | cases h

/-- The values that evaluating a setup can give. -/
inductive Settled : Value → Prop
  | plain {v : Value} (h : v.isPlain = true) : Settled v
  | complex (re im : Float) : Settled (.complex re im)
  | list {items : List Value} (h : ∀ v ∈ items, Settled v) : Settled (.list items)
  | condition {v : Value} (h : Conditional v) : Settled v

theorem Conditional.hasBlock (h : Conditional v) : v.hasBlock = true := by
  cases h <;> rfl

@[simp] theorem numeral?_ofNumber (n : Number) : (ofNumber n).numeral? = some n := by
  cases n <;> rfl

theorem mapM_numeral? (ns : List Number) : (ns.map ofNumber).mapM numeral? = some ns := by
  induction ns with
  | nil => rfl
  | cons n ns ih =>
    rw [List.map_cons, List.mapM_cons, ih, numeral?_ofNumber]
    rfl

theorem isPlain_ofNumber (n : Number) : (ofNumber n).isPlain = true := by
  cases n <;> rfl

section

variable (h : v.Settled)

include h

/-- The type of a settled value tells numbers, texts, truths and lists apart. -/
theorem Settled.typed (htype : v.type? = .ok (some (.typed type))) :
    (∃ n, v = .ofNumber n ∧ type = .ofNumber) ∨ (∃ s, v = .str s ∧ type = .ofString) ∨
      (∃ known, Operand known v ∧ type = .ofBoolean) ∨ ∃ items, v = .list items ∧ type = .ofList := by
  cases h with
  | plain h =>
    cases v with
    | int n =>
      cases htype
      exact .inl ⟨.int n, rfl, rfl⟩
    | float x =>
      cases htype
      exact .inl ⟨.float x, rfl, rfl⟩
    | str s =>
      cases htype
      exact .inr (.inl ⟨s, rfl, rfl⟩)
    | bool b =>
      cases htype
      exact .inr (.inr (.inl ⟨some b, rfl, rfl⟩))
    | _ => cases h
  | complex re im => cases htype
  | list h =>
    cases htype
    exact .inr (.inr (.inr ⟨_, rfl, rfl⟩))
  | condition h =>
    rw [h.type?_eq] at htype
    cases htype
    exact .inr (.inr (.inl ⟨none, h, rfl⟩))

/-- What a settled value is that an operator takes for a number, a text or a truth. -/
theorem Settled.of_fits (hfits : v.Fits type) :
    (type = .ofNumber → ∃ n, v = .ofNumber n) ∧ (type = .ofString → ∃ s, v = .str s) ∧
      (type = .ofBoolean → ∃ known, Operand known v) := by
  obtain ⟨type', htype, hmeets⟩ := hfits
  rcases h.typed htype with ⟨n, hv, rfl⟩ | ⟨s, hv, rfl⟩ | ⟨known, hv, rfl⟩ | ⟨items, hv, rfl⟩
  all_goals and_intros <;> rintro rfl <;> first | exact ⟨_, hv⟩ | cases hmeets

theorem Settled.of_number (hfits : v.Fits .ofNumber) : ∃ n, v = .ofNumber n :=
  (h.of_fits hfits).1 rfl

theorem Settled.of_string (hfits : v.Fits .ofString) : ∃ s, v = .str s :=
  (h.of_fits hfits).2.1 rfl

theorem Settled.of_boolean (hfits : v.Fits .ofBoolean) : ∃ known, Operand known v :=
  (h.of_fits hfits).2.2 rfl

end

theorem numeric_ofNumber (f : Number → Number → Except Fault Number) (m n : Number) :
    numeric f (ofNumber m) (ofNumber n) = (do return ofNumber (← f m n)) := by
  cases m <;> cases n <;> rfl

variable {op : ArithOp}

/-- Operators compute with literal numbers. -/
theorem ordinary_eq (op : ArithOp) (ns : List Number) :
    op.ordinary ns = (op.apply (ns.map ofNumber)).toOption := by
  have hnumeric (f : Number → Number → Except Fault Number) (m n : Number) :
      (f m n).toOption.map ofNumber = (numeric f (ofNumber m) (ofNumber n)).toOption := by
    rw [numeric_ofNumber]
    cases f m n <;> rfl
  unfold ArithOp.ordinary
  split
  case h_6 m n =>
    simp only [List.map_cons, List.map_nil, ArithOp.apply, pow]
    cases m <;> cases n <;> simp only [ofNumber, number?] <;>
      rcases Number.pow _ _ with f | (p | ⟨re, im⟩) <;> rfl
  case h_7 n => cases n <;> rfl
  case h_8 =>
    rcases ns with _ | ⟨m, _ | ⟨n, _ | ⟨k, rest⟩⟩⟩ <;> cases op <;>
      simp_all [ArithOp.apply, Except.toOption]
  all_goals
    rename_i m n
    rw [hnumeric]
    cases m <;> cases n <;> rfl

/-- Computing with numbers gives a number, which may lie off the real line. -/
theorem number_of_ordinary (h : op.ordinary ns = some v) :
    (∃ n, v = ofNumber n) ∨ ∃ re im, v = .complex re im := by
  have hnumber {x : Option Number} (hx : x.map ofNumber = some v) : ∃ n, v = ofNumber n := by
    obtain ⟨n, -, rfl⟩ := Option.map_eq_some_iff.mp hx
    exact ⟨n, rfl⟩
  unfold ArithOp.ordinary at h
  split at h
  case h_6 =>
    obtain ⟨p, -, rfl⟩ := Option.map_eq_some_iff.mp h
    cases p with
    | real n => exact .inl ⟨n, rfl⟩
    | complex re im => exact .inr ⟨re, im, rfl⟩
  case h_7 => exact .inl ⟨_, (Option.some.inj h).symm⟩
  case h_8 => cases h
  all_goals exact .inl (hnumber h)

theorem settled_ordinary (h : op.ordinary ns = some v) : v.Settled ∧ v.hasBlock = false := by
  rcases number_of_ordinary h with ⟨n, rfl⟩ | ⟨re, im, rfl⟩
  · exact ⟨.plain (isPlain_ofNumber n), hasBlock_of_isPlain (isPlain_ofNumber n)⟩
  · exact ⟨.complex re im, rfl⟩

theorem ordinary_compare_numbers (c : CompareOp) (m n : Number) :
    c.ordinary [ofNumber m, ofNumber n] = some (holds c (m.order? n)) := by
  cases m <;> cases n <;> rfl

theorem compare_numbers (c : CompareOp) (m n : Number) :
    (ofNumber m).compare c (ofNumber n) = .ok (.bool (holds c (m.order? n))) := by
  cases c <;> cases m <;> cases n <;> rfl

end Value

namespace Grammar

/-- What holds of the values of symbols in a setup. -/
def Simple : Fragment → Prop
  | .expr e => e.nodes.all Expr.isSimple = true
  | .exprs es => (Expr.nodesAll es).all Expr.isSimple = true
  | .globals gs => ∀ g ∈ gs, g.value.nodes.all Expr.isSimple = true
  | .setup tree => ∀ g ∈ tree.globals, g.value.nodes.all Expr.isSimple = true
  | _ => True

theorem isSimple_literalExpr (l : Literal) : (literalExpr l).isSimple = true := by
  cases l <;> rfl

open Setups in
/-- Every rule of setups makes what can stand in a setup of parts that can. -/
theorem simple_of_mem : ∀ r ∈ setups.rules, ∀ parts v, (∀ p ∈ parts, Simple p) →
    r.action parts = .ok v → Simple v := by
  simp only [setups, Setups.rules, expressionRules, rule, List.forall_mem_append,
    List.forall_mem_cons, List.not_mem_nil, false_implies, implies_true, and_true]
  and_intros
  all_goals
    intro parts v hparts hv
    simp only [concatenation, arithmetic, logic, comparison, negation, logicalNot, oneExpr, moreExprs,
      bracketed, literal, pass, parenthesised, truth, typeNamed, typeDeclaration, program, globals,
      place, setVariable, fileDeclaration] at hv
    first | split at hv | skip
  all_goals first
    | cases hv
    | obtain ⟨p, -, hv⟩ := ok_of_bind hv
      cases hv
  all_goals
    simp_all [Simple, nodes_literalExpr, isSimple_literalExpr, Expr.isSimple_made] <;> grind

end Grammar

theorem Session.parseSetup_simple {s : Session} {tree : Setup} (h : s.parseSetup.1 = .ok tree) :
    ∀ g ∈ tree.globals, g.value.nodes.all Expr.isSimple = true := by
  cases hparse : s.parseFragment .setup with
  | mk result s' =>
    rw [Session.parseSetup, hparse] at h
    cases hcontent : s.content with
    | error f =>
      simp only [Session.parseFragment, hcontent] at hparse
      cases hparse
      cases h
    | ok source =>
      cases result with
      | error f => cases h
      | ok v =>
        obtain ⟨_, hrun, -⟩ := Session.parseFragment_ok hcontent hparse
        obtain ⟨-, -, hderived⟩ := Grammar.Machine.parse_accepted hrun
        have hsimple := hderived.forall_values (P := Grammar.Simple)
          (fun t => by simp [Grammar.Fragment.ofToken, Grammar.Simple])
          Grammar.simple_of_mem v List.mem_cons_self
        cases v with
        | setup p =>
          cases h
          exact hsimple
        | _ => cases h

namespace Build

open Value

variable {s s' : BuildState}

/-- What an expression of a setup and its value have to do with each other. The ordinary value is
missed exactly where a logical operator occurs, and then there is a block in its place. -/
structure Evaluates (known : Assoc String Value) (e : Expr) (v : Value) : Prop where
  settled : v.Settled
  ordinary : e.hasLogic = false → e.ordinary known = some v
  blocked : e.hasLogic = true → v.hasBlock = true ∧ e.ordinary known ≠ some v
  bare : e.hasLogic = false → (∀ entry ∈ known, entry.2.hasBlock = false) → v.hasBlock = false

section

section

variable (h : List.Forall₂ (Evaluates known) es vs)

include h

theorem ordinaryAll_of_evaluates (hlogic : (Expr.nodesAll es).any Expr.isLogic = false) :
    Expr.ordinaryAll known es = some vs := by
  induction h with
  | nil => rfl
  | cons he _ ih =>
    simp only [Expr.nodesAll, List.any_append, Bool.or_eq_false_iff] at hlogic
    simp [Expr.ordinaryAll, he.ordinary hlogic.1, ih hlogic.2]

/-- Among operands without blocks there is no logical operator. -/
theorem any_isLogic_of_evaluates
    (hvs : ∀ v ∈ vs, v.hasBlock = false) : (Expr.nodesAll es).any Expr.isLogic = false := by
  induction h with
  | nil => rfl
  | @cons e v es vs he _ ih =>
    rw [List.forall_mem_cons] at hvs
    simp only [Expr.nodesAll, List.any_append, Bool.or_eq_false_iff]
    refine ⟨Bool.eq_false_iff.mpr fun hlogic => ?_, ih hvs.2⟩
    simp [(he.blocked hlogic).1] at hvs

theorem bare_of_evaluates (hlogic : (Expr.nodesAll es).any Expr.isLogic = false)
    (hknown : ∀ entry ∈ known, entry.2.hasBlock = false) : ∀ v ∈ vs, v.hasBlock = false := by
  induction h with
  | nil => simp
  | cons he _ ih =>
    simp only [Expr.nodesAll, List.any_append, Bool.or_eq_false_iff] at hlogic
    exact List.forall_mem_cons.mpr ⟨he.bare hlogic.1 hknown, ih hlogic.2⟩

theorem settled_of_evaluates : ∀ v ∈ vs, v.Settled := by
  induction h with
  | nil => simp
  | cons he _ ih => simpa using ⟨he.settled, ih⟩

theorem evaluates_list : Evaluates known (.list es) (.list vs) where
  settled := .list (settled_of_evaluates h)
  ordinary hlogic := by
    have hes : (Expr.nodesAll es).any Expr.isLogic = false := hlogic
    simp [Expr.ordinary, ordinaryAll_of_evaluates h hes]
  blocked hlogic := by
    have hes : (Expr.nodesAll es).any Expr.isLogic = true := hlogic
    constructor
    · refine Bool.eq_true_of_not_eq_false fun hvs => ?_
      rw [any_isLogic_of_evaluates h (haveBlock_eq_false.mp hvs)] at hes
      cases hes
    · intro heq
      have hall : Expr.ordinaryAll known es = some vs := by
        simp only [Expr.ordinary, bind, Option.bind_eq_some_iff] at heq
        obtain ⟨ws, hws, heq⟩ := heq
        cases heq
        exact hws
      clear hlogic heq
      induction h with
      | nil => cases hes
      | @cons e v es vs he _ ih =>
        simp only [Expr.ordinaryAll, bind, Option.bind_eq_some_iff] at hall
        obtain ⟨w, hw, ws, hws, heq⟩ := hall
        cases heq
        simp only [Expr.nodesAll, List.any_append, Bool.or_eq_true] at hes
        rcases hes with hes | hes
        · exact (he.blocked hes).2 hw
        · exact ih hes hws
  bare hlogic hknown := haveBlock_eq_false.mpr (bare_of_evaluates h hlogic hknown)

end

section

variable (h : List.Forall₂ (Evaluates known) es vs)

include h

/-- An operation whose operands are free of blocks has its ordinary value. -/
theorem evaluates_operation (hnodes : e.nodes = e :: Expr.nodesAll es) (he : e.isLogic = false)
    (hvs : ∀ v ∈ vs, v.hasBlock = false) (hv : v.Settled) (hbare : v.hasBlock = false)
    (hvalue : Expr.ordinaryAll known es = some vs → e.ordinary known = some v) :
    Evaluates known e v := by
  have hes := any_isLogic_of_evaluates h hvs
  have hlogic : e.hasLogic = false := by simp [Expr.hasLogic, hnodes, he, hes]
  refine ⟨hv, fun _ => hvalue (ordinaryAll_of_evaluates h hes), fun htrue => ?_, fun _ _ => hbare⟩
  rw [hlogic] at htrue
  cases htrue

theorem evaluates_concat
    (hrun : concatenated vs s = .ok v s') : Evaluates known (.concat pos es) v := by
  match vs, hrun with
  | [a, b], hrun =>
    obtain ⟨_, t, hcheck, hrun⟩ := bind_ok.mp hrun
    obtain ⟨ha, hb⟩ := Outcome.require_pair.mp (ofOutcome_ok.mp hcheck).1
    have hsettled := settled_of_evaluates h
    obtain ⟨x, rfl⟩ := (hsettled a (by simp)).of_string ha
    obtain ⟨y, rfl⟩ := (hsettled b (by simp)).of_string hb
    obtain ⟨rfl, -⟩ := pure_ok.mp hrun
    refine evaluates_operation h rfl rfl (by simp [hasBlock, isBlock]) (.plain rfl) rfl fun hall => ?_
    simp [Expr.ordinary, hall]

theorem evaluates_arith {op : ArithOp}
    (hrun : calculated op vs s = .ok v s') : Evaluates known (.arith pos op es) v := by
  obtain ⟨_, t, hcheck, hrun⟩ := bind_ok.mp hrun
  have happly := (ofExcept_ok.mp hrun).1
  have hsettled := settled_of_evaluates h
  obtain ⟨ns, rfl⟩ : ∃ ns : List Number, vs = ns.map ofNumber := by
    match vs, hcheck, happly with
    | [], _, _ => exact ⟨[], rfl⟩
    | [a], hcheck, _ =>
      have ha := Outcome.require_one.mp (ofOutcome_ok.mp hcheck).1
      obtain ⟨n, rfl⟩ := (hsettled a (by simp)).of_number ha
      exact ⟨[n], rfl⟩
    | [a, b], hcheck, _ =>
      obtain ⟨ha, hb⟩ := Outcome.require_pair.mp (ofOutcome_ok.mp hcheck).1
      obtain ⟨m, rfl⟩ := (hsettled a (by simp)).of_number ha
      obtain ⟨n, rfl⟩ := (hsettled b (by simp)).of_number hb
      exact ⟨[m, n], rfl⟩
    | _ :: _ :: _ :: _, _, happly => cases op <;> cases happly
  have hordinary : op.ordinary ns = some v := by
    rw [ordinary_eq, happly]
    rfl
  refine evaluates_operation h rfl rfl (by simp [hasBlock_of_isPlain, isPlain_ofNumber])
    (settled_ordinary hordinary).1 (settled_ordinary hordinary).2 fun hall => ?_
  simp only [Expr.ordinary, hall, bind, Option.bind_some, mapM_numeral?, hordinary]

theorem evaluates_compare {op : CompareOp}
    (hrun : compared op vs s = .ok v s') : Evaluates known (.compare pos op es) v := by
  match vs, hrun with
  | [a, b], hrun =>
    obtain ⟨_, t, hcheck, hrun⟩ := bind_ok.mp hrun
    have happly := (ofExcept_ok.mp hrun).1
    obtain ⟨wanted, hwanted, hfits⟩ := Outcome.fits_of_require (ofOutcome_ok.mp hcheck).1
    have hsettled := settled_of_evaluates h
    simp only [List.forall_mem_cons] at hsettled
    have hnumbers (hwanted : wanted = [.ofNumber, .ofNumber]) :
        Evaluates known (.compare pos op es) v := by
      simp only [hwanted, List.zip_cons_cons, List.zip_nil_left, List.forall_mem_cons] at hfits
      obtain ⟨m, rfl⟩ := hsettled.1.of_number hfits.1
      obtain ⟨n, rfl⟩ := hsettled.2.1.of_number hfits.2.1
      obtain rfl := Except.ok.inj ((compare_numbers op m n).symm.trans happly)
      refine evaluates_operation h rfl rfl (by simp [hasBlock_of_isPlain, isPlain_ofNumber])
        (.plain rfl) rfl fun hall => ?_
      simp [Expr.ordinary, hall, ordinary_compare_numbers]
    cases op
    case eq | ne =>
      simp only [comparable, List.mem_cons, List.not_mem_nil, or_false] at hwanted
      rcases hwanted with hwanted | rfl
      · exact hnumbers hwanted
      simp only [List.zip_cons_cons, List.zip_nil_left, List.forall_mem_cons] at hfits
      obtain ⟨x, rfl⟩ := hsettled.1.of_string hfits.1
      obtain ⟨y, rfl⟩ := hsettled.2.1.of_string hfits.2.1
      cases happly
      refine evaluates_operation h rfl rfl (by simp [hasBlock, isBlock]) (.plain rfl) rfl fun hall => ?_
      simp [Expr.ordinary, hall, CompareOp.ordinary, same, bne]
    all_goals exact hnumbers (List.mem_singleton.mp hwanted)

end

/-- Whatever a logical operator is applied to, it makes a condition. -/
theorem conditional_of_combined {op : LogicOp} (hvs : ∀ v ∈ vs, v.Settled)
    (hrun : combined op vs s = .ok v s') : Conditional v := by
  cases op with
  | not =>
    obtain ⟨_, t, hcheck, hrun⟩ := bind_ok.mp hrun
    have happly := (ofExcept_ok.mp hrun).1
    rcases vs with _ | ⟨a, _ | ⟨b, rest⟩⟩
    · cases happly
    · have hfits := Outcome.fits_of_require (ofOutcome_ok.mp hcheck).1
      obtain ⟨known, ha⟩ := (hvs a (by simp)).of_boolean (by simpa using hfits)
      obtain ⟨w, hw, hcondition, -⟩ := ha.logicalNot
      cases hw.symm.trans happly
      exact hcondition
    · cases happly
  | isIn =>
    rcases vs with _ | ⟨a, _ | ⟨b, _ | ⟨c, rest⟩⟩⟩
    · cases hrun
    · cases hrun
    · obtain ⟨_, t, -, hrun⟩ := bind_ok.mp hrun
      have happly := (ofExcept_ok.mp hrun).1
      simp only [LogicOp.apply, contains] at happly
      split at happly
      · cases happly
        exact .equals _
      · obtain ⟨type, -, happly⟩ := ok_of_bind happly
        split at happly <;> cases happly <;> exact .other (by decide) rfl
    · obtain ⟨_, t, -, hrun⟩ := bind_ok.mp hrun
      cases (ofExcept_ok.mp hrun).1
  | _ =>
    obtain ⟨_, t, hcheck, hrun⟩ := bind_ok.mp hrun
    have happly := (ofExcept_ok.mp hrun).1
    rcases vs with _ | ⟨a, _ | ⟨b, _ | ⟨c, rest⟩⟩⟩
    all_goals cases happly
    obtain ⟨ha, hb⟩ := Outcome.require_pair.mp (ofOutcome_ok.mp hcheck).1
    obtain ⟨known, ha⟩ := (hvs a (by simp)).of_boolean ha
    obtain ⟨known', hb⟩ := (hvs b (by simp)).of_boolean hb
    first | exact (ha.logicalAnd hb).1 | exact (ha.logicalOr hb).1

/-- A logical operator gives a condition, which is not what it means. -/
theorem evaluates_logic {op : LogicOp} (h : List.Forall₂ (Evaluates known) es vs)
    (hrun : combined op vs s = .ok v s') : Evaluates known (.logic pos op es) v := by
  have hv : Conditional v := conditional_of_combined (settled_of_evaluates h) hrun
  have hlogic : (Expr.logic pos op es).hasLogic ≠ false := by simp [Expr.hasLogic, Expr.isLogic]
  refine ⟨.condition hv, fun h => absurd h hlogic, fun _ => ⟨hv.hasBlock, fun heq => ?_⟩,
    fun h => absurd h hlogic⟩
  · simp only [Expr.ordinary, bind, Option.bind_eq_some_iff] at heq
    obtain ⟨_, -, b, -, heq⟩ := heq
    cases heq
    cases hv

end

section

/-- What evaluating an expression of a setup leaves alone. -/
def Unchanged (s s' : BuildState) : Prop := s'.draft = s.draft ∧ s'.constants = s.constants

instance : IsPreorder BuildState Unchanged where
  refl _ := ⟨rfl, rfl⟩
  trans _ _ _ h k := ⟨k.1.trans h.1, k.2.trans h.2⟩

theorem unchanged_moveTo (p : Position) : Within Unchanged (moveTo p) := by
  intro s u s' h
  cases p with
  | start n | nowhere => exact modify_ok.mp h ▸ ⟨rfl, rfl⟩
  | missing => cases h

theorem unchanged_expression (e : Expr) : Within Unchanged (expression .setup e) :=
  .setup unchanged_moveTo e

theorem comparands_setup (es : List Expr) : comparands .setup es = expressions .setup es := by
  induction es with
  | nil => rw [comparands, expressions]
  | cons e rest ih =>
    cases e <;> simp only [comparands, expressions, expression, ih, pure_bind]

/-- All globals so far have values that a setup can give. -/
def KnownSettled (known : Assoc String Value) : Prop := ∀ entry ∈ known, entry.2.Settled

mutual

theorem expression_evaluates {s s' : BuildState} (e : Expr)
    (he : e.nodes.all Expr.isSimple = true) {v : Value}
    (hknown : KnownSettled s.constants) (h : expression .setup e s = .ok v s') :
    Evaluates s.constants e v := by
  have hplain {e : Expr} {v : Value} (hnodes : e.nodes = [e]) (hlogic : e.isLogic = false)
      (hv : v.isPlain = true) (hvalue : e.ordinary s.constants = some v) :
      Evaluates s.constants e v := by
    refine ⟨.plain hv, fun _ => hvalue, fun htrue => ?_, fun _ _ => hasBlock_of_isPlain hv⟩
    simp [Expr.hasLogic, hnodes, hlogic] at htrue
  cases e with
  | value v =>
    obtain ⟨rfl, -⟩ := pure_ok.mp h
    refine hplain rfl rfl ?_ rfl
    cases v <;> first | rfl | cases he
  | truth b =>
    obtain ⟨rfl, -⟩ := pure_ok.mp h
    exact hplain rfl rfl rfl rfl
  | list items =>
    obtain ⟨vs, t, hvs, h⟩ := bind_ok.mp h
    obtain ⟨rfl, -⟩ := pure_ok.mp h
    exact evaluates_list (expressions_evaluate items he hknown hvs)
  | name pos n =>
    obtain ⟨_, t, hmove, h⟩ := bind_ok.mp h
    rw [← (unchanged_moveTo _ _ _ _ hmove).2] at hknown ⊢
    have h := get_bind_ok.mp h
    cases hget : Assoc.get? n t.constants with
    | some w =>
      rw [hget] at h
      obtain ⟨rfl, -⟩ := pure_ok.mp h
      have hentry := Assoc.mem_of_get? hget
      exact ⟨hknown _ hentry, fun _ => hget, by simp [Expr.hasLogic, Expr.isLogic],
        fun _ hbare => hbare _ hentry⟩
    | none =>
      rw [hget] at h
      cases h
  | concat pos operands =>
    obtain ⟨_, t, hmove, vs, t', hvs, h⟩ := bind_bind_ok.mp h
    rw [← (unchanged_moveTo _ _ _ _ hmove).2] at hknown ⊢
    exact evaluates_concat (expressions_evaluate operands he hknown hvs) h
  | arith pos op operands =>
    obtain ⟨_, t, hmove, vs, t', hvs, h⟩ := bind_bind_ok.mp h
    rw [← (unchanged_moveTo _ _ _ _ hmove).2] at hknown ⊢
    exact evaluates_arith (expressions_evaluate operands he hknown hvs) h
  | compare pos op operands =>
    obtain ⟨_, t, hmove, vs, t', hvs, h⟩ := bind_bind_ok.mp h
    rw [← (unchanged_moveTo _ _ _ _ hmove).2] at hknown ⊢
    exact evaluates_compare (expressions_evaluate operands he hknown hvs) h
  | logic pos op operands =>
    obtain ⟨_, t, hmove, vs, t', hvs, h⟩ := bind_bind_ok.mp h
    rw [comparands_setup] at hvs
    rw [← (unchanged_moveTo _ _ _ _ hmove).2] at hknown ⊢
    exact evaluates_logic (expressions_evaluate operands he hknown hvs) h
  | _ => cases he

theorem expressions_evaluate {s s' : BuildState} (es : List Expr)
    (hes : (Expr.nodesAll es).all Expr.isSimple = true) {vs : List Value}
    (hknown : KnownSettled s.constants) (h : expressions .setup es s = .ok vs s') :
    List.Forall₂ (Evaluates s.constants) es vs := by
  cases es with
  | nil =>
    obtain ⟨rfl, -⟩ := pure_ok.mp h
    exact .nil
  | cons e rest =>
    simp only [Expr.nodesAll, List.all_append, Bool.and_eq_true] at hes
    obtain ⟨v, t, hv, ws, t', hws, h⟩ := bind_bind_ok.mp h
    obtain ⟨rfl, -⟩ := pure_ok.mp h
    have hsame := (unchanged_expression e _ _ _ hv).2
    have hrest := expressions_evaluate rest hes.2 (by rwa [hsame]) hws
    rw [hsame] at hrest
    exact .cons (expression_evaluates e hes.1 hknown hv) hrest

end

theorem addData_global (h : addData .stage (globalName name) (.typed type) v true s = .ok d s') :
    s'.constants = s.constants ∧ s'.session.console.level = s.session.console.level ∧
      s.session.console.level ≠ none ∧ s'.draft.project.stage.data =
        s.draft.project.stage.data ++ [⟨globalData name type, v⟩] := by
  obtain ⟨_, t, htarget, h⟩ := bind_ok.mp h
  obtain rfl := modifyTarget_ok.mp htarget
  rw [if_pos (isGlobalName_globalName name)] at h
  have h := modifyDraft_bind_ok.mp h
  obtain ⟨_, t, hlog, h⟩ := bind_ok.mp h
  obtain ⟨hdraft, -, hconstants⟩ := debug_ok hlog
  obtain ⟨-, -, hlevel, hsame⟩ := log_ok hlog
  obtain ⟨-, rfl⟩ := pure_ok.mp h
  exact ⟨hconstants, hsame, hlevel, by rw [hdraft]; rfl⟩

/-- A global can be created as long as there is a level to log at. -/
theorem exists_addData_global (name : String) (type : TypeSet) (v : Value)
    (h : s.session.console.level ≠ none) :
    ∃ d s', addData .stage (globalName name) (.typed type) v true s = .ok d s' := by
  let named : BuildState := { s with
    draft.project := s.draft.project.modify .stage (·.addDatum ⟨globalData name type, v⟩) }
  let filed : BuildState := { named with
    draft.globals := Assoc.put (globalName name) (globalData name type) named.draft.globals }
  obtain ⟨t, ht⟩ := exists_log (s := filed) .debug
    ("    Created global " ++ (DataType.typed type).name ++ " \"" ++ globalName name ++ "\" ") h
  refine ⟨globalData name type, t, bind_ok.mpr ⟨(), named, rfl, ?_⟩⟩
  rw [if_pos (isGlobalName_globalName name)]
  exact bind_ok.mpr ⟨(), filed, rfl, bind_ok.mpr ⟨(), t, ht, rfl⟩⟩

/-- A global is stored with the value of its expression. -/
theorem addGlobal_stores (hg : g.value.nodes.all Expr.isSimple = true)
    (hknown : KnownSettled s.constants) (h : addGlobal g s = .ok u s') :
    ∃ v, Evaluates s.constants g.value v ∧ v.Fits g.type ∧
      s'.constants = Assoc.put g.name v s.constants ∧
      s'.draft.project.stage.data =
        s.draft.project.stage.data ++ [⟨globalData g.name g.type, v⟩] := by
  rw [addGlobal_eq] at h
  obtain ⟨v, t', hv, h⟩ := bind_ok.mp h
  obtain ⟨_, t, hmove, hv⟩ := bind_ok.mp hv
  have hmoved := unchanged_moveTo _ _ _ _ hmove
  have hsame : Unchanged s t' :=
    chain hmoved (unchanged_expression _ _ _ _ hv)
  have hevaluates : Evaluates s.constants g.value v := by
    rw [← hmoved.2] at hknown ⊢
    exact expression_evaluates _ hg hknown hv
  obtain ⟨-, hcheck, d, t₂, hdata, rfl⟩ := keepGlobal_ok.mp h
  obtain ⟨_, given, hdeclared, htype, hmeets⟩ :=
    takes_of_checkAssignment (d := globalData g.name g.type) hcheck
  cases hdeclared
  obtain ⟨hconstants, -, -, hstage⟩ := addData_global hdata
  exact ⟨v, hevaluates, ⟨given, htype, hmeets⟩, by simp only [hconstants, hsame.2],
    by rw [hstage, hsame.1]⟩

/-- The values that globals are known by once they are stored. -/
def recorded (stored : List (Global × Value)) (known : Assoc String Value) : Assoc String Value :=
  stored.foldl (fun known p => Assoc.put p.1.name p.2 known) known

def storedData (stored : List (Global × Value)) : List Datum :=
  stored.map fun p => ⟨globalData p.1.name p.1.type, p.2⟩

/-- A run over globals stores a value for each of them. What a step says of its value and of the
values known before, the run says of all. -/
theorem forM_adds {Q : Assoc String Value → Global → Value → Prop} {I : Assoc String Value → Prop}
    (hstep : ∀ g ∈ gs, ∀ {s s' : BuildState} {u : Unit}, I s.constants →
      addGlobal g s = .ok u s' → ∃ v, Q s.constants g v ∧ I (Assoc.put g.name v s.constants) ∧
        s'.constants = Assoc.put g.name v s.constants ∧ s'.draft.project.stage.data =
          s.draft.project.stage.data ++ [⟨globalData g.name g.type, v⟩]) (hknown : I s.constants)
    (h : gs.forM addGlobal s = .ok u s') :
    ∃ stored : List (Global × Value), stored.map Prod.fst = gs ∧
      s'.draft.project.stage.data = s.draft.project.stage.data ++ storedData stored ∧
      s'.constants = recorded stored s.constants ∧
      ∀ before g v after, stored = before ++ (g, v) :: after →
        Q (recorded before s.constants) g v := by
  induction gs generalizing s with
  | nil =>
    obtain ⟨-, rfl⟩ := pure_ok.mp h
    exact ⟨[], rfl, by simp [storedData], rfl, by simp⟩
  | cons g rest ih =>
    obtain ⟨_, t, hg, h⟩ := bind_ok.mp h
    rw [List.forall_mem_cons] at hstep
    obtain ⟨v, hv, hknown', hconstants, hdata⟩ := hstep.1 hknown hg
    obtain ⟨stored, hstored, hdata', hlast, hall⟩ := ih hstep.2 (hconstants ▸ hknown') h
    refine ⟨(g, v) :: stored, by simp [hstored], ?_, by rw [hlast, hconstants]; rfl,
      fun before g' v' after heq => ?_⟩
    · simp [hdata', hdata, storedData]
    · cases before with
      | nil =>
        cases heq
        exact hv
      | cons p before =>
        cases heq
        have hlater := hall before g' v' after rfl
        rwa [hconstants] at hlater

theorem forM_stores (hgs : ∀ g ∈ gs, g.value.nodes.all Expr.isSimple = true)
    (hknown : KnownSettled s.constants) (h : gs.forM addGlobal s = .ok u s') :
    ∃ stored : List (Global × Value), stored.map Prod.fst = gs ∧
      s'.draft.project.stage.data = s.draft.project.stage.data ++ storedData stored ∧
      ∀ before g v after, stored = before ++ (g, v) :: after →
        Evaluates (recorded before s.constants) g.value v ∧ v.Fits g.type := by
  have hrun := forM_adds (I := KnownSettled)
    (Q := fun known g v => Evaluates known g.value v ∧ v.Fits g.type) (fun g hg s s' u hknown h => ?_)
    hknown h
  · obtain ⟨stored, hstored, hdata, -, hall⟩ := hrun
    exact ⟨stored, hstored, hdata, hall⟩
  · obtain ⟨v, hv, hfits, hconstants, hdata⟩ := addGlobal_stores (hgs g hg) hknown h
    exact ⟨v, ⟨hv, hfits⟩, Assoc.forall_put hv.settled hknown, hconstants, hdata⟩

end

section

theorem mem_recorded {entry : String × Value} (h : entry ∈ recorded stored known) :
    entry ∈ known ∨ ∃ p ∈ stored, entry.2 = p.2 := by
  induction stored generalizing known with
  | nil => exact .inl h
  | cons p rest ih =>
    rcases ih h with h | ⟨q, hq, heq⟩
    · rcases Assoc.mem_put h with rfl | h
      · exact .inr ⟨p, List.mem_cons_self, rfl⟩
      · exact .inl h
    · exact .inr ⟨q, List.mem_cons_of_mem _ hq, heq⟩

/-- What holds of a stored value as soon as it holds of those before it holds of all. -/
theorem forall_stored {Q : Value → Prop}
    (hstep : ∀ before g v after, stored = before ++ (g, v) :: after →
      (∀ entry ∈ recorded before [], Q entry.2) → Q v) : ∀ p ∈ stored, Q p.2 := by
  suffices h : ∀ before after, stored = before ++ after → ∀ p ∈ before, Q p.2 from
    h stored [] (by simp)
  intro before
  induction before using List.reverseRecOn with
  | nil => simp
  | append_singleton before p ih =>
    intro after heq q hq
    rw [List.append_assoc, List.singleton_append] at heq
    have hbefore := ih _ heq
    rcases List.mem_append.mp hq with hq | hq
    · exact hbefore q hq
    · obtain rfl := List.mem_singleton.mp hq
      refine hstep before q.1 q.2 after heq fun entry hentry => ?_
      rcases mem_recorded hentry with hnone | ⟨r, hr, hvalue⟩
      · cases hnone
      · rw [hvalue]
        exact hbefore r hr

theorem plain_items_iff (h : Expr.ordinaryAll known es = some vs) :
    (∀ e ∈ es, ∃ w, e.ordinary known = some w ∧ w.isPlain = true) ↔ vs.all isPlain = true := by
  induction es generalizing vs with
  | nil =>
    cases h
    simp
  | cons e rest ih =>
    simp only [Expr.ordinaryAll, bind, Option.bind_eq_some_iff] at h
    obtain ⟨w, hw, ws, hws, h⟩ := h
    cases h
    simp [ih hws, hw]

/-- Where the globals before it are literals, so is a global whose value fits a type, unless an item
of a list is off. -/
theorem isLiteral_ordinary {e : Expr} {v : Value} {type : TypeSet} (hsimple : e.isSimple = true)
    (hlogic : e.isLogic = false) (hknown : ∀ entry ∈ known, entry.2.isLiteral = true)
    (hitems : ∀ item ∈ e.items, ∃ w, item.ordinary known = some w ∧ w.isPlain = true)
    (h : e.ordinary known = some v) (hfits : v.Fits type) : v.isLiteral = true := by
  cases e with
  | value w =>
    cases h
    cases v <;> first | rfl | cases hsimple
  | truth b =>
    cases h
    rfl
  | list items =>
    simp only [Expr.ordinary, bind, Option.bind_eq_some_iff] at h
    obtain ⟨vs, hvs, h⟩ := h
    cases h
    exact (plain_items_iff hvs).mp hitems
  | name pos n => exact hknown _ (Assoc.mem_of_get? h)
  | concat pos operands =>
    simp only [Expr.ordinary, bind, Option.bind_eq_some_iff] at h
    obtain ⟨vs, -, h⟩ := h
    split at h
    · cases h
      rfl
    · cases h
  | arith pos op operands =>
    simp only [Expr.ordinary, bind, Option.bind_eq_some_iff] at h
    obtain ⟨vs, -, ns, -, h⟩ := h
    rcases number_of_ordinary h with ⟨n, rfl⟩ | ⟨re, im, rfl⟩
    · cases n <;> rfl
    · obtain ⟨_, htype, -⟩ := hfits
      cases htype
  | compare pos op operands =>
    simp only [Expr.ordinary, bind, Option.bind_eq_some_iff] at h
    obtain ⟨vs, -, b, -, h⟩ := h
    cases h
    rfl
  | logic pos op operands => cases hlogic
  | _ => cases h

end

section

/-- What the stage stores for the globals of a setup that is parsed and applied. The type of each
value fits that of its global. The value is the ordinary one exactly where no logical operator
occurs. No block is stored exactly if there is no logical operator in the whole setup, and then what
is stored are literals and lists of literals as long as no item of a list is a list itself or a
number off the real line. -/
theorem globals_evaluated (session : Session) (tree : Setup) (folder : String) (s s' : BuildState)
    (hparse : session.parseSetup.1 = .ok tree) (hrun : setup folder tree s = .ok () s') :
    ∃ stored : List (Global × Value), stored.map Prod.fst = tree.globals ∧
      s'.draft.project.stage.data = s.draft.project.stage.data ++ storedData stored ∧
      (∀ before g v after, stored = before ++ (g, v) :: after →
        v.Fits g.type ∧
          (g.value.ordinary (recorded before []) = some v ↔ g.value.hasLogic = false)) ∧
      ((∀ p ∈ stored, p.2.hasBlock = false) ↔ ∀ g ∈ tree.globals, g.value.hasLogic = false) ∧
      ((∀ before g v after, stored = before ++ (g, v) :: after →
          v.isLiteral = true ∧ g.value.ordinary (recorded before []) = some v) ↔
        ∀ before g v after, stored = before ++ (g, v) :: after →
          g.value.hasLogic = false ∧ ∀ item ∈ g.value.items,
            ∃ w, item.ordinary (recorded before []) = some w ∧ w.isPlain = true) := by
  have hsimple := Session.parseSetup_simple hparse
  have hrun := modifyDraft_bind_ok.mp hrun
  have hrun := modify_bind_ok.mp hrun
  obtain ⟨stored, hglobals, hdata, hall⟩ := forM_stores hsimple (by simp [KnownSettled]) hrun
  have hordinary : ∀ before g v after, stored = before ++ (g, v) :: after →
      (g.value.ordinary (recorded before []) = some v ↔ g.value.hasLogic = false) := by
    intro before g v after heq
    have hv := (hall before g v after heq).1
    exact ⟨fun h => Bool.eq_false_iff.mpr fun hlogic => (hv.blocked hlogic).2 h, hv.ordinary⟩
  have hmem : ∀ before g v after, stored = before ++ (g, v) :: after → g ∈ tree.globals := by
    rintro before g v after rfl
    simp [← hglobals]
  have hlogic {e : Expr} (h : e.hasLogic = false) : e.isLogic = false := by
    cases e <;> first | rfl | simp [Expr.hasLogic, Expr.isLogic] at h
  have hself {e : Expr} (h : e.nodes.all Expr.isSimple = true) : e.isSimple = true :=
    List.all_eq_true.mp h e e.mem_nodes_self
  refine ⟨stored, hglobals, hdata, fun before g v after heq =>
    ⟨(hall before g v after heq).2, hordinary before g v after heq⟩, ⟨?_, ?_⟩, ⟨?_, ?_⟩⟩
  · intro hbare g hg
    rw [← hglobals] at hg
    obtain ⟨⟨_, v⟩, hp, rfl⟩ := List.mem_map.mp hg
    obtain ⟨before, after, heq⟩ := List.append_of_mem hp
    refine Bool.eq_false_iff.mpr fun htrue => ?_
    have hblock := ((hall before _ v after heq).1.blocked htrue).1
    rw [hbare _ hp] at hblock
    cases hblock
  · intro hnone
    refine forall_stored (Q := fun v => v.hasBlock = false) fun before g v after heq hbefore => ?_
    exact (hall before g v after heq).1.bare (hnone g (hmem before g v after heq)) hbefore
  · intro hmet before g v after heq
    obtain ⟨hliteral, hvalue⟩ := hmet before g v after heq
    refine ⟨(hordinary before g v after heq).mp hvalue, ?_⟩
    cases hg : g.value with
    | list items =>
      rw [hg] at hvalue
      simp only [Expr.ordinary, bind, Option.bind_eq_some_iff] at hvalue
      obtain ⟨vs, hvs, hvalue⟩ := hvalue
      cases hvalue
      exact (plain_items_iff hvs).mpr hliteral
    | _ => simp [Expr.items]
  · intro hnone
    have hliteral : ∀ p ∈ stored, p.2.isLiteral = true := by
      refine forall_stored (Q := fun v => v.isLiteral = true) fun before g v after heq hbefore => ?_
      obtain ⟨hfree, hitems⟩ := hnone before g v after heq
      exact isLiteral_ordinary (hself (hsimple g (hmem before g v after heq))) (hlogic hfree) hbefore
        hitems ((hordinary before g v after heq).mpr hfree) (hall before g v after heq).2
    intro before g v after heq
    exact ⟨hliteral (g, v) (by simp [heq]),
      (hordinary before g v after heq).mpr (hnone before g v after heq).1⟩

theorem globals_evaluated_negation :
    let session := (Session.fresh none false).register "x" (Grammar.declaring "x" .bool "not true")
    let e : Expr := .logic (.start 11) .not [.truth true]
    session.parseSetup.1 = .ok ⟨.unnamed, [⟨.start 0, "x", .ofBoolean, e⟩]⟩ ∧
      e.ordinary [] = some (.bool false) ∧
      ∃ s' v, setup "project" ⟨.unnamed, [⟨.start 0, "x", .ofBoolean, e⟩]⟩
          (.fresh (.fresh (some .error) false) "project") = .ok () s' ∧
        s'.draft.project.stage.data = [⟨globalData "x" .ofBoolean, v⟩] ∧
        v.hasBlock = true ∧ e.ordinary [] ≠ some v := by
  intro session e
  have hcontent : session.content = .ok (Grammar.declaring Grammar.Name.x.text .bool "not true") :=
    Grammar.content_register _ _ _
  have hparse : session.parseSetup.1 = .ok ⟨.unnamed, [⟨.start 0, "x", .ofBoolean, e⟩]⟩ := by
    let negatedTruth : Grammar.Phrase := .unary .not ⟨.not, .text "not", 0, 0⟩ rfl
      (.leaf .trueWord ⟨.trueWord, .text "true", 0, 4⟩ rfl)
    have hvalue : (negatedTruth.moved (session.line .setup) 11).value = .ok (.expr e) := rfl
    have hwrites : Scan.Writes "not true" negatedTruth.tokens :=
      ⟨⟨.semicolon, .text ";", 0, 8⟩, 0, rfl, rfl⟩
    have hfree : negatedTruth.Free := by
      simp [Grammar.Phrase.Free, negatedTruth, Grammar.Phrase.tokens]
    rcases Grammar.parseSetup_declaring (by decide) hcontent hwrites hfree (by decide) with
      ⟨f, hf, -⟩ | ⟨u, hu, hparse⟩
    · cases hf.symm.trans hvalue
    · cases hu.symm.trans hvalue
      exact hparse
  have hseen : seen (fun _ => ()) (setup "project" ⟨.unnamed, [⟨.start 0, "x", .ofBoolean, e⟩]⟩
      (.fresh (.fresh (some .error) false) "project")) = some () := by decide +kernel
  obtain ⟨s', hrun, -⟩ := exists_of_seen hseen
  refine ⟨hparse, rfl, s', ?_⟩
  obtain ⟨stored, hglobals, hdata, hvalues, hblocks, -⟩ :=
    globals_evaluated session _ "project" _ s' hparse hrun
  obtain ⟨⟨g, v⟩, rfl, hg⟩ := List.map_eq_singleton_iff.mp hglobals
  obtain rfl : g = _ := hg
  refine ⟨v, hrun, hdata, ?_, fun hvalue => ?_⟩
  · refine Bool.eq_true_of_not_eq_false fun hbare => ?_
    exact Bool.noConfusion (hblocks.mp (by simpa using hbare) _ List.mem_cons_self)
  · exact Bool.noConfusion ((hvalues [] _ v [] rfl).2.mp hvalue)

end

end Build

end BlockScript
