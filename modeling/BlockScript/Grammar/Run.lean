import BlockScript.Grammar.Automaton
import BlockScript.Token

/-!
Running the automaton of a grammar on scanned tokens. A configuration is a stack of
symbols with their values, the tokens not yet read and the line reached; each step
reads a token, replaces the body of a rule by its head, or ends the run.
-/
namespace BlockScript.Grammar

variable {α : Type}

structure Frame (α : Type) where
  state : Nat
  symbol : Symbol
  value : α

structure Configuration (α : Type) where
  stack : List (Frame α)
  rest : List Token
  line : Nat

/-- A parse that cannot go on: the symbols read so far, first one first, the codes of
the terminals that could have come, and the token that came instead, if not the end. -/
structure Rejection where
  symbols : List Symbol
  expected : List Nat
  found : Option Token
  deriving Repr

inductive Stop (α : Type)
  | accepted (value : α)
  | rejected (r : Rejection)
  | unreadable (e : ScanError)
  | fault (f : Fault)

inductive Step (α : Type)
  | next (c : Configuration α)
  | stop (s : Stop α) (line : Nat)

/-- What a run needs to know: the automaton, the rules, and the value of a token. -/
structure Machine (α : Type) where
  rows : Array Row
  rules : Array (Rule α)
  ofToken : Token → α

namespace Machine

def row (m : Machine α) (state : Nat) : Row := m.rows.getD state ⟨[], []⟩

def top (c : Configuration α) : Nat := (c.stack.head?.map (·.state)).getD 0

def reduce (m : Machine α) (c : Configuration α) (rule : Nat) : Step α :=
  match m.rules[rule]? with
  | none => .stop (.fault .outOfRange) c.line
  | some r =>
    let count := r.body.length
    let below := c.stack.drop count
    match r.action ((c.stack.take count).reverse.map (·.value)) with
    | .error f => .stop (.fault f) c.line
    | .ok value =>
      let state := (below.head?.map (·.state)).getD 0
      match (m.row state).moves.lookup (Symbol.cat r.head).code with
      | none => .stop (.fault .missingField) c.line
      | some target => .next { c with stack := ⟨target, .cat r.head, value⟩ :: below }

def rejection (m : Machine α) (c : Configuration α) : Rejection :=
  { symbols := c.stack.reverse.map (·.symbol)
    expected := (m.row (top c)).actions.map (·.1)
    found := c.rest.head? }

def act (m : Machine α) (c : Configuration α) : Step α :=
  let code := (c.rest.head?.map fun t => (Symbol.tok t.kind).code).getD Symbol.endCode
  match (m.row (top c)).actions.lookup code, c.rest with
  | some (.shift target), t :: rest =>
    .next { c with stack := ⟨target, .tok t.kind, m.ofToken t⟩ :: c.stack, rest := rest }
  | some (.reduce rule), _ => m.reduce c rule
  | some .accept, _ =>
    match c.stack with
    | frame :: _ => .stop (.accepted frame.value) c.line
    | [] => .stop (.rejected (m.rejection c)) c.line
  | _, _ => .stop (.rejected (m.rejection c)) c.line

def step (m : Machine α) (scan : Scan) (c : Configuration α) : Step α :=
  match (m.row (top c)).forced? with
  | some rule => m.reduce c rule
  | none =>
    match c.rest, scan.error with
    | [], some e => .stop (.unreadable e) scan.line
    | [], none => m.act { c with line := scan.line }
    | t :: _, _ => m.act { c with line := t.line }

def run (m : Machine α) (scan : Scan) : Nat → Configuration α → Stop α × Nat
  | 0, c => (.fault .tooDeep, c.line)
  | fuel + 1, c =>
    match m.step scan c with
    | .next c => m.run scan fuel c
    | .stop s line => (s, line)

/-- Each token calls for one shift and a bounded number of reductions. -/
def stepsFor (tokens : Nat) : Nat := 128 * (tokens + 2)

/-- Parses scanned tokens; the second result is the line reached. -/
def parse (m : Machine α) (line : Nat) (scan : Scan) : Stop α × Nat :=
  m.run scan (stepsFor scan.tokens.length) ⟨[], scan.tokens, line⟩

def ofGrammar (g : Grammar α) (ofToken : Token → α) : Machine α :=
  ⟨Automaton.rows g, g.rules.toArray, ofToken⟩

end Machine

end BlockScript.Grammar
