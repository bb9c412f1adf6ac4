import BlockScript.Proofs.Acceptance
import BlockScript.Proofs.ParsedScripts

/-!
The parts of functions. A function is declared in one of four forms: with a type or without one, and
to run at once or not. What is parsed has the type, the name, the parameters and the kind that are
written. It has the body that is written too, except for a function without a type that runs at
once: the names of its parameters stand there in place of statements.
-/
namespace BlockScript

/-- The text of a token that is not a number. -/
def Literal.text? : Literal → Option String
  | .text s => some s
  | _ => none

@[simp] theorem Literal.text?_text (s : String) : (Literal.text s).text? = some s := rfl

namespace Grammar

open ParseTree
open Scan (Spelled)

namespace ParseTree

/-- A tree of tokens that can be written. -/
def Written (T : ParseTree) : Prop :=
  ∀ t ∈ T.tokens, ∃ text, Spelled .script t.kind t.value text

/-- A tree of a symbol of scripts. -/
def Of (x : Symbol) (T : ParseTree) : Prop := Parses scripts [x] [T]

/-- The number of the rule of scripts with the given head and body. -/
def ruleFor (head : Category) (body : List Symbol) : Nat :=
  scripts.rules.findIdx fun r => r.head == head && r.body == body

def made (head : Category) (body : List Symbol) (children : List ParseTree) : ParseTree :=
  node (ruleFor head body) children

/-- There is a rule with the given head and body, and it makes its parts into values in the given
way. -/
def Makes (head : Category) (body : List Symbol) (action : List Fragment → Built) : Prop :=
  scripts.rules[ruleFor head body]? = some ⟨head, body, none, action⟩

/-- The statements at the top level of a script. -/
def topLevel (first : ParseTree) : List ParseTree → ParseTree
  | [] => made .topStatements [.cat .topStatement] [first]
  | next :: rest =>
    made .topStatements [.cat .topStatement, .cat .topStatements] [first, topLevel next rest]

/-- A script with statements, which can follow declarations. -/
def whole (first : ParseTree) (rest : List ParseTree) : Option ParseTree → ParseTree
  | none => made .program [.cat .topStatements] [topLevel first rest]
  | some declarations =>
    made .program [.cat .declarations, .cat .topStatements] [declarations, topLevel first rest]

/-- The words among the tokens of a tree. -/
def words (T : ParseTree) : List String :=
  T.tokens.filterMap fun t => if t.kind = .word then t.value.text? else none

end ParseTree

/-- The declaration of a function as it is written. -/
structure FunctionText where
  warp : Option Token
  type : Option ParseTree
  function : Token
  name : Token
  parameters : ParseTree
  body : ParseTree

namespace FunctionText

/-- The symbols of the form that a declaration has. -/
def form (warp typed : Bool) : List Symbol :=
  (if warp then [.tok .warp] else []) ++ (if typed then [.cat .typeName] else []) ++
    [.tok .function, .tok .word, .cat .parameters, .cat .body]

def symbols (f : FunctionText) : List Symbol := form f.warp.isSome f.type.isSome

def trees (f : FunctionText) : List ParseTree :=
  f.warp.toList.map .leaf ++ f.type.toList ++ [.leaf f.function, .leaf f.name, f.parameters, f.body]

/-- The declaration as a statement of the top level. -/
def tree (f : FunctionText) : ParseTree :=
  made .topStatement [.cat .functionDeclaration] [made .functionDeclaration f.symbols f.trees]

/-- What the parts of a declaration say on their own. -/
structure Says (f : FunctionText) (type : Option TypeSet) (name : String)
    (parameters : List String) (body : List Stmt) : Prop where
  type : f.type.map (value scripts .ofToken) = type.map fun t => .ok (.type t)
  name : f.name.value = .text name
  parameters : f.parameters.words = parameters
  body : f.body.value scripts .ofToken = .ok (.stmts body)

end FunctionText

section

variable {c : Category} {T : ParseTree} {x : Symbol}

open Scripts

/-- The rules with a given head. -/
theorem mem_rules_filter (hr : r ∈ scripts.rules) (hhead : r.head = c) :
    r ∈ scripts.rules.filter (·.head == c) := by
  simp [hr, hhead]

theorem ParseTree.Of.exists_node (h : T.Of (.cat c)) :
    ∃ r rule cs, T = .node r cs ∧ scripts.rules[r]? = some rule ∧ rule.head = c ∧
      Parses scripts rule.body cs := by
  cases h with
  | node hrule children _ => exact ⟨_, _, _, rfl, hrule, rfl, children⟩

theorem parses_made {body : List Symbol} (hrule : Makes c body action)
    (h : (made c body cs).Of (.cat c)) : Parses scripts body cs := by
  obtain ⟨_, _, _, hnode, hown, -, hparses⟩ := h.exists_node
  cases hnode
  cases hrule.symm.trans hown
  exact hparses

theorem parses_cons :
    Parses scripts (x :: xs) ts ↔ ∃ T rest, ts = T :: rest ∧ T.Of x ∧ Parses scripts xs rest := by
  constructor
  · intro h
    cases h with
    | leaf t rest => exact ⟨_, _, rfl, .leaf t .nil, rest⟩
    | node hrule children rest => exact ⟨_, _, rfl, .node hrule children .nil, rest⟩
  · rintro ⟨T, rest, rfl, hT, hrest⟩
    cases hT with
    | leaf t _ => exact .leaf t hrest
    | node hrule children _ => exact .node hrule children hrest

theorem parses_nil : Parses scripts [] ts ↔ ts = [] := by
  constructor
  · rintro ⟨⟩
    rfl
  · rintro rfl
    exact .nil

theorem of_token : T.Of (.tok k) ↔ ∃ t, T = .leaf t ∧ t.kind = k := by
  constructor
  · rintro ⟨⟩
    exact ⟨_, rfl, rfl⟩
  · rintro ⟨t, rfl, rfl⟩
    exact .leaf t .nil

theorem valueAll_cons_ok :
    valueAll scripts .ofToken (T :: ts) = .ok vs ↔ ∃ v ws, T.value scripts .ofToken = .ok v ∧
      valueAll scripts .ofToken ts = .ok ws ∧ vs = v :: ws := by
  rw [valueAll_cons]
  constructor
  · intro h
    obtain ⟨v, hv, h⟩ := ok_of_bind h
    obtain ⟨ws, hws, h⟩ := ok_of_bind h
    cases h
    exact ⟨v, ws, hv, hws, rfl⟩
  · rintro ⟨v, ws, hv, hws, rfl⟩
    simp [hv, hws, bind, Except.bind, pure, Except.pure]

theorem valueAll_nil_ok : valueAll scripts .ofToken [] = .ok vs ↔ vs = [] := by
  rw [valueAll_nil]
  exact ⟨fun h => by cases h; rfl, fun h => h ▸ rfl⟩

theorem rules_parameterNames : scripts.rules.filter (·.head == .parameterNames) =
    [⟨.parameterNames, [.tok .word], none, parameterNames⟩,
      ⟨.parameterNames, [.tok .word, .tok .comma, .cat .parameterNames], none, parameterNames⟩] :=
  rfl

theorem parameterNames_ok (h : parameterNames fs = .ok (.names ns)) : ∃ n p,
    fs = [.token (.text n) p] ∧ ns = [n] ∨
      ∃ t ms, fs = [.token (.text n) p, t, .names ms] ∧ ns = n :: ms := by
  unfold parameterNames at h
  split at h <;> cases h <;> simp

/-- The names of parameters are the words that are written, one after the other. -/
theorem words_of_parameterNames (h : T.Of (.cat .parameterNames))
    (hvalue : T.value scripts .ofToken = .ok (.names ns)) : T.words = ns := by
  induction hsize : sizeOf T using Nat.strongRecOn generalizing T ns with | ind n ih => ?_
  subst hsize
  obtain ⟨r, rule, cs, rfl, hrule, hhead, hcs⟩ := h.exists_node
  have hmem := mem_rules_filter (List.mem_of_getElem? hrule) hhead
  rw [value_node hrule] at hvalue
  obtain ⟨parts, hparts, hvalue⟩ := ok_of_bind hvalue
  rw [rules_parameterNames, List.mem_cons, List.mem_singleton] at hmem
  rcases hmem with rfl | rfl
  · simp only [parses_cons, parses_nil, of_token] at hcs
    obtain ⟨_, _, rfl, ⟨t, rfl, hword⟩, rfl⟩ := hcs
    simp only [valueAll_cons_ok, valueAll_nil_ok, value_leaf] at hparts
    obtain ⟨_, _, ⟨⟩, rfl, rfl⟩ := hparts
    obtain ⟨n, p, hp⟩ := parameterNames_ok hvalue
    simp [Fragment.ofToken] at hp
    simp [words, tokens, tokensAll, hword, hp]
  · simp only [parses_cons, parses_nil, of_token] at hcs
    obtain ⟨_, _, rfl, ⟨t, rfl, hword⟩, _, _, rfl, ⟨comma, rfl, hcomma⟩, U, _, rfl, hU, rfl⟩ := hcs
    simp only [valueAll_cons_ok, valueAll_nil_ok, value_leaf] at hparts
    obtain ⟨_, _, ⟨⟩, ⟨_, _, ⟨⟩, ⟨v, _, hv, rfl, rfl⟩, rfl⟩, rfl⟩ := hparts
    obtain ⟨n, p, hp⟩ := parameterNames_ok hvalue
    simp [Fragment.ofToken] at hp
    obtain ⟨ms, ⟨⟨htext, -⟩, rfl⟩, rfl⟩ := hp
    have hsmaller : sizeOf U < sizeOf (node r [leaf t, leaf comma, U]) := by
      simp
      omega
    have hrest := ih _ hsmaller hU hv rfl
    simp only [words] at hrest
    simp [words, tokens, tokensAll, hword, hcomma, htext, hrest]

/-- The parameters of a function are the words between the parentheses. -/
theorem words_of_parameters (h : T.Of (.cat .parameters))
    (hvalue : T.value scripts .ofToken = .ok (.names ns)) : T.words = ns := by
  obtain ⟨r, rule, cs, rfl, hrule, hhead, hcs⟩ := h.exists_node
  have hmem := mem_rules_filter (List.mem_of_getElem? hrule) hhead
  have hrules : scripts.rules.filter (·.head == .parameters) =
      [⟨.parameters, [.tok .lparen, .tok .rparen], none, parameters⟩,
        ⟨.parameters, [.tok .lparen, .cat .parameterNames, .tok .rparen], none, parameters⟩] := rfl
  rw [value_node hrule] at hvalue
  obtain ⟨parts, hparts, hvalue⟩ := ok_of_bind hvalue
  rw [hrules, List.mem_cons, List.mem_singleton] at hmem
  rcases hmem with rfl | rfl
  · simp only [parses_cons, parses_nil, of_token] at hcs
    obtain ⟨_, _, rfl, ⟨t, rfl, hopen⟩, _, _, rfl, ⟨u, rfl, hclose⟩, rfl⟩ := hcs
    simp only [valueAll_cons_ok, valueAll_nil_ok, value_leaf] at hparts
    obtain ⟨_, _, ⟨⟩, ⟨_, _, ⟨⟩, rfl, rfl⟩, rfl⟩ := hparts
    cases hvalue
    simp [words, tokens, tokensAll, hopen, hclose]
  · simp only [parses_cons, parses_nil, of_token] at hcs
    obtain ⟨_, _, rfl, ⟨t, rfl, hopen⟩, U, _, rfl, hU, _, _, rfl, ⟨u, rfl, hclose⟩, rfl⟩ := hcs
    simp only [valueAll_cons_ok, valueAll_nil_ok, value_leaf] at hparts
    obtain ⟨_, _, ⟨⟩, ⟨v, _, hv, ⟨_, _, ⟨⟩, rfl, rfl⟩, rfl⟩, rfl⟩ := hparts
    cases v with
    | names ms =>
      cases hvalue
      have hnames := words_of_parameterNames hU hv
      simp only [words] at hnames
      simp [words, tokens, tokensAll, hopen, hclose, hnames]
    | _ => cases hvalue

theorem ParseTree.Of.valueOf (h : T.Of x) (hwritten : T.Written)
    (hv : T.value scripts .ofToken = .ok v) : ValueOf T.tokens v x := by
  have hvalue := Parses.value h hwritten
  rw [hv] at hvalue
  split at hvalue
  · cases hvalue
  · obtain ⟨_, ⟨⟩, hvalue⟩ := hvalue
    exact hvalue

/-- A tree of a symbol that can be written, and what it is made into. -/
def BuiltTo (x : Symbol) (T : ParseTree) (v : Fragment) : Prop :=
  T.Of x ∧ T.value scripts .ofToken = .ok v ∧ T.Written

theorem BuiltTo.parts {body : List Symbol} (h : BuiltTo (.cat c) (made c body cs) v)
    (hrule : Makes c body action) : Parses scripts body cs ∧
      (∃ parts, valueAll scripts .ofToken cs = .ok parts ∧ action parts = .ok v) ∧
      ∀ t ∈ tokensAll cs, ∃ text, Spelled .script t.kind t.value text := by
  obtain ⟨hof, hv, hwritten⟩ := h
  rw [made, value_node hrule] at hv
  exact ⟨parses_made hrule hof, ok_of_bind hv, hwritten⟩

theorem BuiltTo.one (h : BuiltTo (.cat c) (made c [x] [T]) v) (hrule : Makes c [x] action) :
    ∃ w, BuiltTo x T w ∧ action [w] = .ok v := by
  obtain ⟨hparses, ⟨_, hparts, hv⟩, hwritten⟩ := h.parts hrule
  simp only [parses_cons, valueAll_cons_ok, valueAll_nil_ok] at hparses hparts
  obtain ⟨_, _, ⟨⟩, hT, -⟩ := hparses
  obtain ⟨w, _, hw, rfl, rfl⟩ := hparts
  exact ⟨w, ⟨hT, hw, by simpa [Written] using hwritten⟩, hv⟩

theorem BuiltTo.two (h : BuiltTo (.cat c) (made c [x, y] [T, U]) v) (hrule : Makes c [x, y] action) :
    ∃ w w', BuiltTo x T w ∧ BuiltTo y U w' ∧ action [w, w'] = .ok v := by
  obtain ⟨hparses, ⟨_, hparts, hv⟩, hwritten⟩ := h.parts hrule
  simp only [parses_cons, valueAll_cons_ok, valueAll_nil_ok] at hparses hparts
  obtain ⟨_, _, ⟨⟩, hT, _, _, ⟨⟩, hU, -⟩ := hparses
  obtain ⟨w, _, hw, ⟨w', _, hw', rfl, rfl⟩, rfl⟩ := hparts
  simp only [tokensAll, List.append_nil, List.forall_mem_append] at hwritten
  exact ⟨w, w', ⟨hT, hw, hwritten.1⟩, ⟨hU, hw', hwritten.2⟩, hv⟩

end

section

open Scripts

namespace FunctionText

variable {f : FunctionText}

set_option maxRecDepth 2000 in
/-- Every form has a rule, and all of them make their parts into a function in one way. -/
theorem makes_form (warp typed : Bool) :
    Makes .functionDeclaration (form warp typed) functionDeclaration := by
  cases warp <;> cases typed <;> rfl

/-- The parts of a declaration are trees of their symbols. -/
theorem parses_parts (h : Parses scripts f.symbols f.trees) : f.name.kind = .word ∧
    (∀ T ∈ f.type, T.Of (.cat .typeName)) ∧ f.parameters.Of (.cat .parameters) ∧
    f.body.Of (.cat .body) := by
  rcases f with ⟨_ | _, _ | _, _, _, _, _⟩
  all_goals
    simp [symbols, form, trees, parses_cons, parses_nil, of_token] at h
    simp [h]

theorem values_parts {parts : List Fragment} (h : valueAll scripts .ofToken f.trees = .ok parts) :
    ∃ (type : Option Fragment) (parameters body : Fragment),
      f.type.map (value scripts .ofToken) = type.map .ok ∧
      f.parameters.value scripts .ofToken = .ok parameters ∧
      f.body.value scripts .ofToken = .ok body ∧
      parts = f.warp.toList.map .ofToken ++ type.toList ++
        [.ofToken f.function, .ofToken f.name, parameters, body] := by
  rcases f with ⟨_ | w, _ | T, function, name, ps, b⟩
  all_goals
    simp only [trees, Option.toList, List.map_nil, List.map_cons, List.nil_append, List.cons_append,
      valueAll_cons_ok, valueAll_nil_ok, value_leaf, pure, Except.pure, Except.ok.injEq] at h
  case none.none =>
    obtain ⟨_, _, rfl, ⟨_, _, rfl, ⟨v, _, hv, ⟨v', _, hv', rfl, rfl⟩, rfl⟩, rfl⟩, rfl⟩ := h
    exact ⟨none, v, v', rfl, hv, hv', rfl⟩
  case none.some =>
    obtain ⟨own, _, hown, ⟨_, _, rfl, ⟨_, _, rfl, ⟨v, _, hv, ⟨v', _, hv', rfl, rfl⟩, rfl⟩, rfl⟩,
      rfl⟩, rfl⟩ := h
    exact ⟨some own, v, v', congrArg some hown, hv, hv', rfl⟩
  case some.none =>
    obtain ⟨_, _, rfl, ⟨_, _, rfl, ⟨_, _, rfl, ⟨v, _, hv, ⟨v', _, hv', rfl, rfl⟩, rfl⟩, rfl⟩, rfl⟩,
      rfl⟩ := h
    exact ⟨none, v, v', rfl, hv, hv', rfl⟩
  case some.some =>
    obtain ⟨_, _, rfl, ⟨own, _, hown, ⟨_, _, rfl, ⟨_, _, rfl, ⟨v, _, hv, ⟨v', _, hv', rfl, rfl⟩,
      rfl⟩, rfl⟩, rfl⟩, rfl⟩, rfl⟩ := h
    exact ⟨some own, v, v', congrArg some hown, hv, hv', rfl⟩

/-- The values of the parts are what the parts say. -/
theorem exists_says (h : Parses scripts f.symbols f.trees)
    (hspelled : ∀ t ∈ tokensAll f.trees, ∃ text, Spelled .script t.kind t.value text)
    {parts : List Fragment} (hparts : valueAll scripts .ofToken f.trees = .ok parts) :
    ∃ type name parameters body, f.Says type name parameters body ∧ (∀ n, .bare n ∉ body) ∧
      parts = f.warp.toList.map .ofToken ++ (type.map .type).toList ++
        [.ofToken f.function, .token (.text name) f.name.position, .names parameters,
          .stmts body] := by
  obtain ⟨hword, htype, hparameters, hbody⟩ := parses_parts h
  obtain ⟨own, ps, b, hown, hps, hb, rfl⟩ := values_parts hparts
  have hmem {T : ParseTree} (hT : T ∈ f.trees) : T.Written := by
    intro t ht
    refine hspelled t ?_
    rw [← flatten_map_tokens]
    exact List.mem_flatten.mpr ⟨_, List.mem_map_of_mem hT, ht⟩
  obtain ⟨name, hname⟩ : ∃ name, f.name.value = .text name := by
    obtain ⟨text, hspelled⟩ := hmem (T := .leaf f.name) (by simp [trees]) f.name (by simp [tokens])
    have hvalue := valueOf_token hspelled
    rw [hword] at hvalue
    obtain ⟨-, name, p, hvalue⟩ := hvalue
    cases hvalue' : f.name.value with
    | text s => exact ⟨s, rfl⟩
    | _ => simp [Fragment.ofToken, hvalue'] at hvalue
  obtain ⟨ns, rfl⟩ := hparameters.valueOf (hmem (by simp [trees])) hps
  obtain ⟨ss, rfl, hstated⟩ := hbody.valueOf (hmem (by simp [trees])) hb
  obtain ⟨type, rfl⟩ : ∃ type : Option TypeSet, own = type.map .type := by
    cases own with
    | none => exact ⟨none, rfl⟩
    | some v =>
      obtain ⟨T, hT, hv⟩ := Option.map_eq_some_iff.mp hown
      obtain ⟨t, rfl⟩ := (htype T hT).valueOf (hmem (by simp [trees, hT])) hv
      exact ⟨some t, rfl⟩
  refine ⟨type, name, ns, ss, ⟨?_, hname, words_of_parameters hparameters hps, hb⟩, hstated, ?_⟩
  · rw [hown, Option.map_map]
    rfl
  · simp [Fragment.ofToken, hname]

/-- What a declaration is made into, part by part. -/
theorem value_declaration
    (h : BuiltTo (.cat .functionDeclaration) (made .functionDeclaration f.symbols f.trees) v) :
    ∃ pos type name parameters body kept, f.Says type name parameters body ∧
      v = .stmt (.function pos type name parameters f.warp.isSome kept) ∧
      (kept = body ↔ f.warp = none ∨ f.type ≠ none ∨ parameters = [] ∧ body = []) := by
  obtain ⟨hparses, ⟨parts, hparts, hv⟩, hspelled⟩ :=
    h.parts (makes_form f.warp.isSome f.type.isSome)
  obtain ⟨type, name, ns, ss, hsays, hstated, rfl⟩ := exists_says hparses hspelled hparts
  have hbare : ns.map .bare = ss ↔ ns = [] ∧ ss = [] := by
    constructor
    · rintro rfl
      cases ns with
      | nil => exact ⟨rfl, rfl⟩
      | cons n rest => exact absurd List.mem_cons_self (hstated n)
    · rintro ⟨rfl, rfl⟩
      rfl
  have htype := hsays.type
  cases hwarp : f.warp with
  | none =>
    rw [hwarp] at hv
    cases type with
    | none =>
      cases hv
      exact ⟨_, none, name, ns, ss, ss, hsays, rfl, by simp⟩
    | some t =>
      cases hv
      exact ⟨_, some t, name, ns, ss, ss, hsays, rfl, by simp⟩
  | some w =>
    rw [hwarp] at hv
    cases type with
    | none =>
      obtain ⟨keyword, hkeyword⟩ : ∃ l, Fragment.ofToken f.function = .token l f.function.position :=
        ⟨_, rfl⟩
      rw [hkeyword] at hv
      obtain rfl : v = .stmt (.function (.start w.position) none name ns true (ns.map .bare)) := by
        cases keyword <;> cases hv <;> rfl
      refine ⟨_, none, name, ns, ss, ns.map .bare, hsays, rfl, ?_⟩
      have hnone : f.type = none := by simpa using htype
      simp [hbare, hnone]
    | some t =>
      cases hv
      have hsome : f.type ≠ none := by
        intro hnone
        simp [hnone] at htype
      exact ⟨_, some t, name, ns, ss, ss, hsays, rfl, by simp [hsome]⟩

end FunctionText

end

section

open Scripts

set_option maxRecDepth 2000 in
/-- The rules of the top level. -/
theorem makes_top : Makes .topStatements [.cat .topStatement] statements ∧
    Makes .topStatements [.cat .topStatement, .cat .topStatements] statements ∧
    Makes .topStatement [.cat .functionDeclaration] statement ∧
    Makes .program [.cat .topStatements] program ∧
    Makes .program [.cat .declarations, .cat .topStatements] program :=
  ⟨rfl, rfl, rfl, rfl, rfl⟩

/-- The trees of the top level, and the statements that they are made into. -/
abbrev Stands (T : ParseTree) (s : Stmt) : Prop := BuiltTo (.cat .topStatement) T (.stmt s)

theorem forall₂_topLevel (h : BuiltTo (.cat .topStatements) (topLevel first rest) (.stmts ss)) :
    List.Forall₂ Stands (first :: rest) ss := by
  obtain ⟨hlast, hmore, -⟩ := makes_top
  induction rest generalizing first ss with
  | nil =>
    obtain ⟨v, hfirst, hv⟩ := h.one hlast
    cases v with
    | stmt s =>
      cases hv
      exact .cons hfirst .nil
    | _ => cases hv
  | cons next rest ih =>
    obtain ⟨v, w, hfirst, hrest, hv⟩ := h.two hmore
    cases v with
    | stmt s =>
      cases w with
      | stmts ws =>
        cases hv
        exact .cons hfirst (ih hrest)
      | _ => cases hv
    | _ => cases hv

theorem forall₂_whole {declarations : Option ParseTree}
    (h : BuiltTo (.cat .program) (whole first rest declarations) (.script p)) :
    List.Forall₂ Stands (first :: rest) p.statements := by
  obtain ⟨-, -, -, halone, hafter⟩ := makes_top
  cases declarations with
  | none =>
    obtain ⟨v, hrest, hv⟩ := h.one halone
    obtain ⟨ss, rfl, -⟩ := hrest.1.valueOf hrest.2.2 hrest.2.1
    cases hv
    exact forall₂_topLevel hrest
  | some ds =>
    obtain ⟨d, v, hds, hrest, hv⟩ := h.two hafter
    obtain ⟨ds, rfl⟩ := hds.1.valueOf hds.2.2 hds.2.1
    obtain ⟨ss, rfl, -⟩ := hrest.1.valueOf hrest.2.2 hrest.2.1
    cases hv
    exact forall₂_topLevel hrest

/-- A function of a script that is parsed has the type, the name and the parameters that its
declaration says, and runs at once if that is said. It has the body that its declaration says too if
and only if it does not run at once or has a type, or if there are neither parameters nor
statements. -/
theorem function_kept_iff {scan : Scan} {first : ParseTree} {rest : List ParseTree}
    {declarations : Option ParseTree} (line : Nat) (hscan : scan.error = none)
    (hspelled : ∀ t ∈ scan.tokens, ∃ text, Spelled .script t.kind t.value text)
    (htokens : scan.tokens = (whole first rest declarations).tokens)
    (h : Canonical scripts disputes .unranked .unranked [.cat .program]
      [whole first rest declarations] none) :
    if (whole first rest declarations).subtrees.any hasLiteralFirst then
      ∃ line', scriptMachine.parse line scan = (.fault .typeMismatch, line')
    else ∃ p, scriptMachine.parse line scan = (.accepted (.script p), scan.line) ∧
      p.statements.length = (first :: rest).length ∧
      ∀ f s, (FunctionText.tree f, s) ∈ (first :: rest).zip p.statements →
        ∃ pos type name parameters body kept, f.Says type name parameters body ∧
          s = .function pos type name parameters f.warp.isSome kept ∧
          (kept = body ↔ f.warp = none ∨ f.type ≠ none ∨ parameters = [] ∧ body = []) := by
  obtain ⟨line', hparse⟩ : ∃ line', scriptMachine.parse line scan =
      ended ((whole first rest declarations).value scripts .ofToken) scan.line line' :=
    h.parse Scripts.settles hscan htokens line
  rw [htokens] at hspelled
  have hvalue := h.parses.value hspelled
  rw [hparse]
  split at hvalue
  · next hliteral => exact if_pos hliteral ▸ ⟨line', by rw [hvalue]; rfl⟩
  · next hliteral =>
    obtain ⟨v, hv, p, rfl, -⟩ := hvalue
    rw [if_neg hliteral]
    obtain ⟨hlength, hall⟩ := List.forall₂_iff_zip.mp (forall₂_whole ⟨h.parses, hv, hspelled⟩)
    refine ⟨p, by rw [hv]; rfl, hlength.symm, fun f s hmem => ?_⟩
    obtain ⟨-, -, htop, -⟩ := makes_top
    obtain ⟨v, hdeclared, hs⟩ := (hall hmem).one htop
    obtain ⟨pos, type, name, ns, ss, kept, hsays, rfl, hkept⟩ :=
      FunctionText.value_declaration hdeclared
    cases hs
    exact ⟨pos, type, name, ns, ss, kept, hsays, rfl, hkept⟩

set_option maxRecDepth 2000 in
/-- A function with a parameter and no statements, without a type and to run at once, is parsed with
a word for a body. -/
theorem function_kept_iff_warp :
    ∃ p pos kept, scriptMachine.parse 1 (scan .script 1 "warp function f(a) \x7b\x7d") =
        (.accepted (.script p), 1) ∧
      p.statements = [.function pos none "f" ["a"] true kept] ∧ kept ≠ [] := by
  let warp : Token := ⟨.warp, .text "warp", 1, 0⟩
  let parameters : ParseTree := .node 115 [.leaf ⟨.lparen, .text "(", 1, 15⟩,
    .node 53 [.leaf ⟨.word, .text "a", 1, 16⟩], .leaf ⟨.rparen, .text ")", 1, 17⟩]
  let body : ParseTree :=
    .node 104 [.leaf ⟨.lbrace, .text "\x7b", 1, 19⟩, .leaf ⟨.rbrace, .text "\x7d", 1, 20⟩]
  let f : FunctionText := ⟨some warp, none, ⟨.function, .text "function", 1, 5⟩,
    ⟨.word, .text "f", 1, 14⟩, parameters, body⟩
  let T : ParseTree := .node 2 [.node 19 [.node 24 [.node 118 f.trees]]]
  have hT : T = whole f.tree [] none := rfl
  have htokens : (scan .script 1 "warp function f(a) \x7b\x7d").tokens = T.tokens := rfl
  have hcanonical : Canonical scripts disputes .unranked .unranked [.cat .program] [T] none := by
    repeat' first
      | exact .nil
      | refine .leaf_of_kind _ rfl ?_
      | refine .node_of_head rfl rfl (by decide) (by decide) ?_ ?_
  have hkept := function_kept_iff 1 rfl (scan_spelled rfl).1 (htokens.trans (congrArg _ hT))
    (hT ▸ hcanonical)
  rw [← hT, if_neg (by decide)] at hkept
  obtain ⟨p, hparse, hlength, hall⟩ := hkept
  obtain ⟨s, hs⟩ := List.length_eq_one_iff.mp hlength
  obtain ⟨pos, type, name, ns, ss, kept, hsays, rfl, hiff⟩ := hall f s (by simp [hs])
  obtain rfl : type = none := Option.map_eq_none_iff.mp hsays.type.symm
  obtain rfl : "f" = name := Literal.text.inj hsays.name
  obtain rfl : ["a"] = ns := hsays.parameters
  obtain rfl : [] = ss := by
    have hbody : body.value scripts .ofToken = .ok (.stmts []) := rfl
    cases hbody.symm.trans hsays.body
    rfl
  refine ⟨p, pos, kept, hparse, hs, fun hnone => ?_⟩
  rcases hiff.mp hnone with hwarp | htype | ⟨hparameters, -⟩
  · cases hwarp
  · exact htype rfl
  · cases hparameters

end

end Grammar

end BlockScript
