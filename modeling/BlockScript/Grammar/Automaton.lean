import BlockScript.Grammar.Basic

/-!
The automaton of a grammar. Its states are the sets of items that a prefix of an input
can lead to; a reduction is offered on the terminals that can follow it in that
state; and where a terminal could be read as well, precedence decides. Symbols are
handled by their codes, and a set of terminals is the number whose bits they are.
-/
namespace BlockScript.Grammar

inductive Action
  | shift (state : Nat)
  | reduce (rule : Nat)
  | accept
  deriving DecidableEq, Repr

structure Row where
  actions : List (Nat × Action)
  moves : List (Nat × Nat)
  deriving Repr

/-- The reduction of a state that offers nothing else; it is made without a look at
the next token. -/
def Row.forced? (r : Row) : Option Nat :=
  match r.actions with
  | [(_, .reduce rule)] => some rule
  | _ => none

structure Shape where
  head : Nat
  body : List Nat
  rank : Precedence
  deriving Repr

/-- A rule with the number of its symbols already read. -/
structure Item where
  rule : Nat
  dot : Nat
  deriving DecidableEq, Repr

namespace Automaton

def isCategory (code : Nat) : Bool := Symbol.endCode < code

def itemLe (a b : Item) : Bool := a.rule < b.rule || (a.rule == b.rule && a.dot ≤ b.dot)

/-- The rules of a grammar by codes. The rule after the last one expands the whole
input to the start category. -/
def shapes {α : Type} (g : Grammar α) : Array Shape :=
  (g.rules.map fun r => ⟨(Symbol.cat r.head).code, r.body.map Symbol.code, g.rulePrecedence r⟩)
    |>.toArray |>.push ⟨Symbol.endCode, [(Symbol.cat g.start).code], .unranked⟩

structure Sketch where
  shapes : Array Shape
  ranks : Array Precedence

def Sketch.shape (s : Sketch) (rule : Nat) : Shape :=
  s.shapes.getD rule ⟨Symbol.endCode, [], .unranked⟩

def Sketch.ruleCount (s : Sketch) : Nat := s.shapes.size - 1

def sketch {α : Type} (g : Grammar α) : Sketch :=
  ⟨shapes g, (Terminal.all.map g.precedence).toArray⟩

def rulesOf (s : Sketch) (category : Nat) : List Nat :=
  (List.range s.ruleCount).filter fun r => (s.shape r).head == category

/-- Adds the categories that can start one of the pending ones. -/
def startersFrom (s : Sketch) : Nat → List Nat → List Nat → List Nat
  | 0, _, seen => seen
  | _ + 1, [], seen => seen
  | fuel + 1, c :: pending, seen =>
    if seen.contains c then startersFrom s fuel pending seen
    else
      let next := (rulesOf s c).filterMap fun r =>
        match (s.shape r).body with
        | x :: _ => if isCategory x then some x else none
        | [] => none
      startersFrom s fuel (next ++ pending) (c :: seen)

/-- The categories that can stand first where the given ones are expected. Each rule makes at
most one more category pending. -/
def starters (s : Sketch) (expected : List Nat) : List Nat :=
  startersFrom s (expected.length + s.ruleCount) expected []

def nextSymbol? (s : Sketch) (i : Item) : Option Nat := (s.shape i.rule).body[i.dot]?

/-- All items of a state, given those it was entered with. -/
def closure (s : Sketch) (kernel : List Item) : List Item :=
  let expected := (kernel.filterMap (nextSymbol? s)).filter isCategory
  kernel ++ (starters s expected).flatMap fun c => (rulesOf s c).map (⟨·, 0⟩)

def file (symbol : Nat) (item : Item) : List (Nat × List Item) → List (Nat × List Item)
  | [] => [(symbol, [item])]
  | (x, items) :: rest =>
    if x == symbol then (x, item :: items) :: rest else (x, items) :: file symbol item rest

def successors (s : Sketch) (items : List Item) : List (Nat × List Item) :=
  let filed := items.foldl (fun table i => match nextSymbol? s i with
    | some x => file x ⟨i.rule, i.dot + 1⟩ table
    | none => table) []
  filed.map fun (x, kernel) => (x, kernel.mergeSort itemLe)

/-- States by their kernels, and the moves of those explored so far. -/
structure Graph where
  kernels : Array (List Item)
  moves : Array (List (Nat × Nat))

def enter (kernels : Array (List Item)) (kernel : List Item) : Array (List Item) × Nat :=
  match kernels.findIdx? (· == kernel) with
  | some i => (kernels, i)
  | none => (kernels.push kernel, kernels.size)

def link (kernels : Array (List Item)) :
    List (Nat × List Item) → Array (List Item) × List (Nat × Nat)
  | [] => (kernels, [])
  | (x, kernel) :: rest =>
    let (kernels, target) := enter kernels kernel
    let (kernels, moves) := link kernels rest
    (kernels, (x, target) :: moves)

/-- Explores the states in the order in which they are found. -/
def explore (s : Sketch) : Nat → Graph → Graph
  | 0, graph => graph
  | fuel + 1, graph =>
    match graph.kernels[graph.moves.size]? with
    | none => graph
    | some kernel =>
      let (kernels, moves) := link graph.kernels (successors s (closure s kernel))
      explore s fuel ⟨kernels, graph.moves.push moves⟩

def allItems (s : Sketch) : List Item :=
  (List.range s.shapes.size).flatMap fun r =>
    (List.range ((s.shape r).body.length + 1)).map (⟨r, ·⟩)

/-- The states that can be reached. There are no more of them than sets of items. -/
def graph (s : Sketch) : Graph :=
  explore s (Nat.pow 2 (allItems s).length) ⟨#[[⟨s.ruleCount, 0⟩]], #[]⟩

def Graph.target? (graph : Graph) (state symbol : Nat) : Option Nat :=
  (graph.moves.getD state []).lookup symbol

def nullablePass (s : Sketch) (known : List Nat) : List Nat :=
  (List.range s.ruleCount).foldl (fun known r =>
    let shape := s.shape r
    if !known.contains shape.head && shape.body.all known.contains then shape.head :: known
    else known) known

def nullable (s : Sketch) : List Nat :=
  (List.range s.shapes.size).foldl (fun known _ => nullablePass s known) []

abbrev Transition := Nat × Nat

def transitions (graph : Graph) : List Transition :=
  (List.range graph.moves.size).flatMap fun p =>
    ((graph.moves.getD p []).filter fun m => isCategory m.1).map fun m => (p, m.1)

/-- The numbers of the transitions of each state. -/
def transitionIndex (graph : Graph) (all : Array Transition) : Array (List (Nat × Nat)) :=
  (List.range all.size).foldl (fun table i => match all[i]? with
    | some (p, c) => table.modify p ((c, i) :: ·)
    | none => table) (Array.replicate graph.moves.size [])

def indexOf? (index : Array (List (Nat × Nat))) (t : Transition) : Option Nat :=
  (index.getD t.1 []).lookup t.2

def bit (code : Nat) : Nat := 1 <<< code

/-- The terminals that can be read right after a transition. -/
def directlyRead (s : Sketch) (graph : Graph) (t : Transition) : Nat :=
  match graph.target? t.1 t.2 with
  | none => 0
  | some r =>
    let terminals := ((graph.moves.getD r []).filter fun m => !isCategory m.1).map fun m => bit m.1
    let atEnd := if t.1 == 0 && (s.shape s.ruleCount).body == [t.2] then bit Symbol.endCode else 0
    terminals.foldl (· ||| ·) atEnd

/-- How far a rule reaches when read from a state: the transitions on the way after
which the rest can be empty, and the state at the end. -/
structure Walk where
  openings : List Transition
  last : Nat

def walk (graph : Graph) (empty : List Nat) (state : Nat) : List Nat → Option Walk
  | [] => some ⟨[], state⟩
  | x :: rest => do
    let next ← graph.target? state x
    let w ← walk graph empty next rest
    let ends := isCategory x && rest.all empty.contains
    some (if ends then ⟨(state, x) :: w.openings, w.last⟩ else w)

/-- Edges along which sets of terminals flow, from the second transition to the first. -/
abbrev Edges := List (Nat × Nat)

def flowPass (edges : Edges) (sets : Array Nat) : Array Nat :=
  edges.foldl (fun sets e => sets.modify e.1 (· ||| sets.getD e.2 0)) sets

def flow (edges : Edges) : Nat → Array Nat → Array Nat
  | 0, sets => sets
  | fuel + 1, sets =>
    let next := flowPass edges sets
    if next == sets then sets else flow edges fuel next

/-- A reduction in a state, with the transition it comes back to. -/
structure Lookback where
  state : Nat
  rule : Nat
  transition : Nat

structure Relations where
  includes : Edges
  lookbacks : List Lookback

def relations (s : Sketch) (graph : Graph) (all : Array Transition)
    (index : Array (List (Nat × Nat))) (empty : List Nat) : Relations :=
  (List.range all.size).foldl (fun rel i => match all[i]? with
    | none => rel
    | some (p, c) =>
      (rulesOf s c).foldl (fun rel r => match walk graph empty p (s.shape r).body with
        | none => rel
        | some w =>
          ⟨(w.openings.filterMap (indexOf? index)).map (·, i) ++ rel.includes,
            ⟨w.last, r, i⟩ :: rel.lookbacks⟩) rel) ⟨[], []⟩

def readEdges (graph : Graph) (all : Array Transition) (index : Array (List (Nat × Nat)))
    (empty : List Nat) : Edges :=
  (List.range all.size).flatMap fun i => match all[i]? with
    | none => []
    | some (p, c) =>
      match graph.target? p c with
      | none => []
      | some r =>
        ((graph.moves.getD r []).filter fun m => empty.contains m.1).filterMap fun m =>
          (indexOf? index (r, m.1)).map (i, ·)

/-- The reductions of each state, with the terminals on which they are offered. -/
def reductions (s : Sketch) (graph : Graph) : Array (List (Nat × Nat)) :=
  let empty := nullable s
  let all := (transitions graph).toArray
  let index := transitionIndex graph all
  let rel := relations s graph all index empty
  let direct := all.map (directlyRead s graph)
  let read := flow (readEdges graph all index empty) (all.size + 1) direct
  let follow := flow rel.includes (all.size + 1) read
  rel.lookbacks.foldl (fun table l =>
    table.modify l.state fun row =>
      let set := follow.getD l.transition 0
      match row.lookup l.rule with
      | some old => row.map fun e => if e.1 == l.rule then (l.rule, old ||| set) else e
      | none => (l.rule, set) :: row) (Array.replicate graph.moves.size [])

/-- A reduction is made rather than reading a terminal if its rule has the higher
level, or the same level and groups to the left. -/
def reduces (rule terminal : Precedence) : Bool :=
  terminal.level < rule.level || (terminal.level == rule.level && rule.side == .left)

def addReduction (s : Sketch) (rule code : Nat) (actions : List (Nat × Action)) :
    List (Nat × Action) :=
  match actions.lookup code with
  | none => actions ++ [(code, .reduce rule)]
  | some (.shift _) =>
    if reduces (s.shape rule).rank (s.ranks.getD code .unranked) then
      actions.map fun a => if a.1 == code then (code, .reduce rule) else a
    else actions
  | some _ => actions

def terminalsOf (set : Nat) : List Nat :=
  (List.range (Symbol.endCode + 1)).filter (Nat.testBit set)

def completed (s : Sketch) (kernel : List Item) : List Nat :=
  ((closure s kernel).filter fun i => i.dot == (s.shape i.rule).body.length).map (·.rule)

def addReductions (s : Sketch) (actions : List (Nat × Action)) (reduction : Nat × Nat) :
    List (Nat × Action) :=
  (terminalsOf reduction.2).foldl (fun actions code => addReduction s reduction.1 code actions)
    actions

def row (s : Sketch) (graph : Graph) (reductions : List (Nat × Nat)) (state : Nat) : Row :=
  let moves := graph.moves.getD state []
  let kernel := graph.kernels.getD state []
  let shifts := (moves.filter fun m => !isCategory m.1).map fun m => (m.1, Action.shift m.2)
  let accepting := kernel.contains ⟨s.ruleCount, 1⟩
  let actions := if accepting then (Symbol.endCode, .accept) :: shifts else shifts
  let ended := completed s kernel
  ⟨(reductions.filter fun r => ended.contains r.1).foldl (addReductions s) actions,
    moves.filter fun m => isCategory m.1⟩

def rows {α : Type} (g : Grammar α) : Array Row :=
  let s := sketch g
  let graph := graph s
  let reductions := reductions s graph
  (List.range graph.moves.size).map (fun i => row s graph (reductions.getD i []) i) |>.toArray

end Automaton

end BlockScript.Grammar
