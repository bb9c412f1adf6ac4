import BlockScript.Grammar.Run
import BlockScript.Proofs.ItemSets

/-!
What the automaton of a grammar accepts. A derivation builds values by the rules of the
grammar alone. The states of the automaton are sets of items, and a move reads one symbol
past the dot, so the symbols on the stack always spell what the items of the top state have
read so far. A reduction therefore replaces the body of a rule by its head, and every value
that a parse accepts has a derivation from exactly the tokens of the input.
-/
namespace BlockScript

theorem Symbol.code_lt_endCode (t : Terminal) : (Symbol.tok t).code < endCode := by
  cases t <;> decide

theorem Symbol.code_injective : Function.Injective Symbol.code := by
  intro x y h
  cases x with
  | tok t =>
    cases y with
    | tok u =>
      have hsame := congrArg Terminal.ofNat h
      simp only [code, Terminal.ofNat_ctorIdx] at hsame
      rw [hsame]
    | cat d =>
      have hlow := code_lt_endCode t
      simp only [code] at h hlow
      omega
  | cat c =>
    cases y with
    | tok u =>
      have hlow := code_lt_endCode u
      simp only [code] at h hlow
      omega
    | cat d =>
      simp only [code, Nat.add_left_cancel_iff] at h
      have hsame := congrArg Category.ofNat h
      simp only [Category.ofNat_ctorIdx] at hsame
      rw [hsame]

namespace Grammar

variable {α : Type}

/-- The values that symbols can have for a list of tokens, by the rules of a grammar. -/
inductive Derives (g : Grammar α) (ofToken : Token → α) :
    List Symbol → List Token → List α → Prop
  | nil : Derives g ofToken [] [] []
  | token (t : Token) {symbols : List Symbol} {tokens : List Token} {values : List α}
      (rest : Derives g ofToken symbols tokens values) :
      Derives g ofToken (.tok t.kind :: symbols) (t :: tokens) (ofToken t :: values)
  | rule {r : Rule α} {parts : List α} {v : α} {symbols : List Symbol}
      {inner tokens : List Token} {values : List α} (mem : r ∈ g.rules)
      (body : Derives g ofToken r.body inner parts) (built : r.action parts = .ok v)
      (rest : Derives g ofToken symbols tokens values) :
      Derives g ofToken (.cat r.head :: symbols) (inner ++ tokens) (v :: values)

namespace Derives

theorem append (h : Derives g ofToken xs ts vs) (h' : Derives g ofToken ys us ws) :
    Derives g ofToken (xs ++ ys) (ts ++ us) (vs ++ ws) := by
  induction h with
  | nil => exact h'
  | token t _ ih => exact .token t ih
  | rule mem body built _ _ ih =>
    rw [List.append_assoc]
    exact .rule mem body built ih

/-- The symbols can be divided anywhere, and the tokens and values with them. -/
theorem split (h : Derives g ofToken (xs ++ ys) ts vs) :
    ∃ ts₁ ts₂ vs₁ vs₂, ts = ts₁ ++ ts₂ ∧ vs = vs₁ ++ vs₂ ∧
      Derives g ofToken xs ts₁ vs₁ ∧ Derives g ofToken ys ts₂ vs₂ := by
  induction xs generalizing ts vs with
  | nil => exact ⟨[], ts, [], vs, rfl, rfl, .nil, h⟩
  | cons x xs ih =>
    cases h with
    | token t rest =>
      obtain ⟨ts₁, ts₂, vs₁, vs₂, rfl, rfl, h₁, h₂⟩ := ih rest
      exact ⟨t :: ts₁, ts₂, ofToken t :: vs₁, vs₂, rfl, rfl, .token t h₁, h₂⟩
    | rule mem body built rest =>
      obtain ⟨ts₁, ts₂, vs₁, vs₂, rfl, rfl, h₁, h₂⟩ := ih rest
      exact ⟨_, ts₂, _ :: vs₁, vs₂, (List.append_assoc _ _ _).symm, rfl,
        .rule mem body built h₁, h₂⟩

theorem length_eq (h : Derives g ofToken xs ts vs) : xs.length = vs.length := by
  induction h with
  | nil => rfl
  | token _ _ ih | rule _ _ _ _ _ ih => simp [ih]

end Derives

namespace Automaton

variable {s : Sketch}

/-- Entering a state keeps the others and gives the number of the state. -/
theorem enter_spec (kernels : Array (List Item)) (kernel : List Item) :
    (∀ (i : Nat) k, kernels[i]? = some k → (enter kernels kernel).1[i]? = some k) ∧
      (enter kernels kernel).1[(enter kernels kernel).2]? = some kernel := by
  unfold enter
  split
  · rename_i i hi
    refine ⟨fun _ _ h => h, ?_⟩
    obtain ⟨hlt, hsame, -⟩ := Array.findIdx?_eq_some_iff_getElem.mp hi
    rw [Array.getElem?_eq_getElem hlt, eq_of_beq hsame]
  · refine ⟨fun i k h => ?_, Array.getElem?_push_size⟩
    obtain ⟨hlt, hk⟩ := Array.getElem?_eq_some_iff.mp h
    rw [Array.getElem?_push_lt hlt, hk]

theorem link_spec (kernels : Array (List Item)) (entries : List (Nat × List Item)) :
    (∀ (i : Nat) k, kernels[i]? = some k → (link kernels entries).1[i]? = some k) ∧
      ∀ x q, (x, q) ∈ (link kernels entries).2 →
        ∃ kernel, (x, kernel) ∈ entries ∧ (link kernels entries).1[q]? = some kernel := by
  induction entries generalizing kernels with
  | nil => exact ⟨fun _ _ h => h, by simp [link]⟩
  | cons entry rest ih =>
    obtain ⟨x, kernel⟩ := entry
    obtain ⟨hkeep, hfound⟩ := enter_spec kernels kernel
    obtain ⟨hkeep', hlinked⟩ := ih (enter kernels kernel).1
    refine ⟨fun i k h => hkeep' i k (hkeep i k h), ?_⟩
    intro y q hmem
    rcases List.mem_cons.mp hmem with heq | hmem
    · obtain ⟨rfl, rfl⟩ := Prod.mk.inj heq
      exact ⟨kernel, List.mem_cons_self, hkeep' _ _ hfound⟩
    · obtain ⟨k, hk, hq⟩ := hlinked y q hmem
      exact ⟨k, List.mem_cons_of_mem _ hk, hq⟩

/-- Every move of a graph leads to the state of the items that have read its symbol. -/
structure Graph.Linked (s : Sketch) (graph : Graph) : Prop where
  start : graph.kernels[0]? = some [⟨s.ruleCount, 0⟩]
  moved : ∀ p x q, (x, q) ∈ graph.moves.getD p [] →
    ∃ kernel next, graph.kernels[p]? = some kernel ∧ graph.kernels[q]? = some next ∧
      (x, next) ∈ successors s (closure s kernel)

theorem explore_linked {graph : Graph} (h : graph.Linked s) : (explore s fuel graph).Linked s := by
  induction fuel generalizing graph with
  | zero => exact h
  | succ fuel ih =>
    rw [explore]
    split
    · exact h
    · rename_i kernel hkernel
      obtain ⟨hkeep, hlinked⟩ := link_spec graph.kernels (successors s (closure s kernel))
      refine ih ⟨hkeep _ _ h.start, ?_⟩
      intro p x q hmove
      by_cases hp : p = graph.moves.size
      · subst hp
        rw [Array.getD_eq_getD_getElem?, Array.getElem?_push_size, Option.getD_some] at hmove
        obtain ⟨next, hnext, hq⟩ := hlinked x q hmove
        exact ⟨kernel, next, hkeep _ _ hkernel, hq, hnext⟩
      · rw [Array.getD_eq_getD_getElem?, Array.getElem?_push, if_neg hp,
          ← Array.getD_eq_getD_getElem?] at hmove
        obtain ⟨k, next, hk, hq, hnext⟩ := h.moved p x q hmove
        exact ⟨k, next, hkeep _ _ hk, hkeep _ _ hq, hnext⟩

theorem graph_linked (s : Sketch) : (graph s).Linked s := by
  refine explore_linked ⟨rfl, fun p x q hmove => ?_⟩
  simp at hmove

def itemsAt (s : Sketch) (graph : Graph) (state : Nat) : List Item :=
  closure s (graph.kernels.getD state [])

theorem itemsAt_eq {graph : Graph} (h : graph.kernels[p]? = some kernel) :
    itemsAt s graph p = closure s kernel := by
  rw [itemsAt, Array.getD_eq_getD_getElem?, h, Option.getD_some]

/-- The items with which a state is entered are those of any state before it that expect the symbol,
moved past it. -/
theorem Graph.Linked.entry {graph : Graph} (h : graph.Linked s)
    (hmove : (x, q) ∈ graph.moves.getD p []) : ∃ K, itemsAt s graph q = closure s K ∧
      (∃ i, i ∈ K) ∧ ∀ i, i ∈ K ↔
        ∃ j ∈ itemsAt s graph p, nextSymbol? s j = some x ∧ i = ⟨j.rule, j.dot + 1⟩ := by
  obtain ⟨kernel, K, hp, hq, hnext⟩ := h.moved p x q hmove
  rw [itemsAt_eq hp]
  exact ⟨K, itemsAt_eq hq, (mem_successors hnext).2⟩

/-- An item that has read a symbol comes from the one before it, in every state from which
the symbol leads here. -/
theorem Graph.Linked.unread {graph : Graph} (h : graph.Linked s)
    (hmove : (x, q) ∈ graph.moves.getD p []) (hitem : ⟨r, k + 1⟩ ∈ itemsAt s graph q) :
    ⟨r, k⟩ ∈ itemsAt s graph p ∧ (s.shape r).body[k]? = some x := by
  obtain ⟨K, hK, -, hmem⟩ := h.entry hmove
  rw [hK, mem_closure_iff, hmem] at hitem
  rcases hitem with ⟨j, hj, hsymbol, heq⟩ | ⟨hdot, -⟩
  · cases heq
    exact ⟨hj, hsymbol⟩
  · cases hdot

/-- In the initial state nothing has been read. -/
theorem Graph.Linked.unread_start {graph : Graph} (h : graph.Linked s)
    (hitem : i ∈ itemsAt s graph 0) : i.dot = 0 := by
  rw [itemsAt_eq h.start, mem_closure_iff] at hitem
  rcases hitem with hmem | ⟨hdot, -⟩
  · rw [List.mem_singleton.mp hmem]
  · exact hdot

/-- The whole input is expected in the initial state only. -/
theorem Graph.Linked.not_start {graph : Graph} (h : graph.Linked s)
    (hmove : (x, q) ∈ graph.moves.getD p []) : ⟨s.ruleCount, 0⟩ ∉ itemsAt s graph q := by
  obtain ⟨K, hK, -, hmem⟩ := h.entry hmove
  rw [hK, mem_closure_iff, hmem]
  rintro (⟨j, -, -, heq⟩ | ⟨-, hrule, -⟩)
  · cases (Item.mk.inj heq).2
  · exact Nat.lt_irrefl _ hrule

theorem mem_addReduction (h : entry ∈ addReduction s rule code actions) :
    entry ∈ actions ∨ entry.2 = .reduce rule := by
  unfold addReduction at h
  split at h
  · rcases List.mem_append.mp h with h | h
    · exact .inl h
    · rw [List.mem_singleton.mp h]
      exact .inr rfl
  · split at h
    · obtain ⟨a, ha, rfl⟩ := List.mem_map.mp h
      split
      · exact .inr rfl
      · exact .inl ha
    · exact .inl h
  · exact .inl h

theorem mem_addReductions (h : entry ∈ addReductions s actions reduction) :
    entry ∈ actions ∨ entry.2 = .reduce reduction.1 := by
  unfold addReductions at h
  refine List.foldlRecOn (motive := fun found => entry ∈ found →
    entry ∈ actions ∨ entry.2 = .reduce reduction.1) _ _ .inl ?_ h
  intro found ih code _ hentry
  rcases mem_addReduction hentry with hold | hnew
  · exact ih hold
  · exact .inr hnew

/-- What a state may do: read a symbol that a move of the graph reads, reduce a rule that was
read to its end, or accept the whole input at its end. -/
def Permits (s : Sketch) (graph : Graph) (state code : Nat) : Action → Prop
  | .shift target => (code, target) ∈ graph.moves.getD state []
  | .reduce rule => ⟨rule, (s.shape rule).body.length⟩ ∈ itemsAt s graph state
  | .accept => code = Symbol.endCode ∧ ⟨s.ruleCount, 1⟩ ∈ itemsAt s graph state

/-- The actions of a state before any reduction is added. -/
def plainActions (s : Sketch) (graph : Graph) (state : Nat) : List (Nat × Action) :=
  let shifts := ((graph.moves.getD state []).filter fun m => !isCategory m.1).map
    fun m => (m.1, Action.shift m.2)
  if (graph.kernels.getD state []).contains ⟨s.ruleCount, 1⟩ then
    (Symbol.endCode, .accept) :: shifts
  else shifts

theorem row_actions {graph : Graph} {reductions : List (Nat × Nat)} :
    (row s graph reductions state).actions =
      (reductions.filter fun r =>
        (completed s (graph.kernels.getD state [])).contains r.1).foldl (addReductions s)
        (plainActions s graph state) := rfl

theorem mem_completed :
    r ∈ completed s kernel ↔ ⟨r, (s.shape r).body.length⟩ ∈ closure s kernel := by
  simp only [completed, List.mem_map, List.mem_filter, beq_iff_eq]
  constructor
  · rintro ⟨⟨r', k⟩, ⟨hi, hk⟩, rfl⟩
    have hk : k = (s.shape r').body.length := hk
    exact hk ▸ hi
  · intro h
    exact ⟨_, ⟨h, rfl⟩, rfl⟩

theorem permits_plain {graph : Graph} (h : (code, action) ∈ plainActions s graph state) :
    Permits s graph state code action := by
  have hshift : (code, action) ∈ ((graph.moves.getD state []).filter fun m =>
      !isCategory m.1).map (fun m => (m.1, Action.shift m.2)) →
      Permits s graph state code action := by
    intro h
    obtain ⟨m, hm, heq⟩ := List.mem_map.mp h
    obtain ⟨rfl, rfl⟩ := Prod.mk.inj heq
    exact (List.mem_filter.mp hm).1
  unfold plainActions at h
  dsimp only at h
  split at h
  · rename_i hkernel
    rcases List.mem_cons.mp h with heq | h
    · obtain ⟨rfl, rfl⟩ := Prod.mk.inj heq
      exact ⟨rfl, List.mem_append_left _ (List.contains_iff_mem.mp hkernel)⟩
    · exact hshift h
  · exact hshift h

theorem mem_row {graph : Graph} {reductions : List (Nat × Nat)}
    (h : (code, action) ∈ (row s graph reductions state).actions) :
    Permits s graph state code action := by
  rw [row_actions] at h
  refine List.foldlRecOn (motive := fun found => (code, action) ∈ found → _) _ _ permits_plain ?_ h
  intro found ih reduction hreduction hentry
  rcases mem_addReductions hentry with hold | rfl
  · exact ih hold
  · exact mem_completed.mp (List.contains_iff_mem.mp (List.mem_filter.mp hreduction).2)

theorem shape_sketch (h : g.rules[i]? = some r) :
    (sketch g).shape i =
      ⟨(Symbol.cat r.head).code, r.body.map Symbol.code, g.rulePrecedence r⟩ := by
  have hlt := (List.getElem?_eq_some_iff.mp h).1
  simp only [sketch, Sketch.shape, shapes, Array.getD_eq_getD_getElem?]
  rw [Array.getElem?_push_lt (by simpa using hlt)]
  simp [(List.getElem?_eq_some_iff.mp h).2]

theorem shape_start (g : Grammar α) :
    ((sketch g).shape (sketch g).ruleCount).body = [(Symbol.cat g.start).code] := by
  simp [sketch, Sketch.shape, Sketch.ruleCount, shapes, Array.getD_eq_getD_getElem?]

end Automaton

open Automaton

/-- The state on top of a stack, or the initial one. -/
def topState (stack : List (Frame α)) : Nat := (stack.head?.map (·.state)).getD 0

/-- The states of a stack follow the moves of a graph, on the symbols of the stack. -/
def Follows (graph : Graph) : List (Frame α) → Prop
  | [] => True
  | f :: below =>
    (f.symbol.code, f.state) ∈ graph.moves.getD (topState below) [] ∧ Follows graph below

theorem Follows.drop {graph : Graph} (h : Follows graph stack) (k : Nat) :
    Follows graph (stack.drop k) := by
  induction k generalizing stack with
  | zero => exact h
  | succ k ih =>
    cases stack with
    | nil => exact h
    | cons f below => exact ih h.2

/-- What an item of the top state has read lies on top of the stack, and below it is a
state where the rule begins. -/
theorem Follows.pop {s : Sketch} {graph : Graph} (hgraph : graph.Linked s) {r k : Nat}
    {stack : List (Frame α)} (h : Follows graph stack)
    (hitem : ⟨r, k⟩ ∈ itemsAt s graph (topState stack)) :
    ((stack.take k).reverse.map fun f => f.symbol.code) = (s.shape r).body.take k ∧
      ⟨r, 0⟩ ∈ itemsAt s graph (topState (stack.drop k)) := by
  induction k generalizing stack with
  | zero => exact ⟨rfl, hitem⟩
  | succ k ih =>
    cases stack with
    | nil => cases hgraph.unread_start hitem
    | cons f below =>
      obtain ⟨hmove, hbelow⟩ := h
      obtain ⟨hunread, hsymbol⟩ := hgraph.unread hmove hitem
      obtain ⟨hread, hrest⟩ := ih hbelow hunread
      refine ⟨?_, hrest⟩
      rw [List.take_succ_cons, List.reverse_cons, List.map_append, hread, List.take_add_one,
        hsymbol]
      rfl

namespace Machine

variable {g : Grammar α} {ofToken : Token → α}

/-- A row of the automaton is computed from the graph, or it is empty. -/
theorem row_ofGrammar (g : Grammar α) (ofToken : Token → α) (state : Nat) :
    (ofGrammar g ofToken).row state = if state < (graph (sketch g)).moves.size then
      Automaton.row (sketch g) (graph (sketch g))
        ((reductions (sketch g) (graph (sketch g))).getD state []) state else ⟨[], []⟩ := by
  simp only [row, ofGrammar, Automaton.rows, Array.getD_eq_getD_getElem?, List.getElem?_toArray,
    List.getElem?_map]
  split
  · rename_i h
    rw [List.getElem?_range h]
    rfl
  · rename_i h
    rw [List.getElem?_eq_none (by simpa using h)]
    rfl

theorem mem_actions (h : (code, action) ∈ ((ofGrammar g ofToken).row state).actions) :
    Permits (sketch g) (graph (sketch g)) state code action := by
  rw [row_ofGrammar] at h
  split at h
  · exact mem_row h
  · cases h

theorem mem_moves (h : move ∈ ((ofGrammar g ofToken).row state).moves) :
    move ∈ (graph (sketch g)).moves.getD state [] := by
  rw [row_ofGrammar] at h
  split at h
  · exact (List.mem_filter.mp h).1
  · cases h

theorem mem_of_forced? {row : Row} {rule : Nat} (h : row.forced? = some rule) :
    ∃ code, (code, Action.reduce rule) ∈ row.actions := by
  unfold Row.forced? at h
  split at h
  · rename_i code _ hactions
    cases h
    exact ⟨code, hactions ▸ List.mem_singleton.mpr rfl⟩
  · cases h

theorem mem_of_lookup {β : Type} {code : Nat} {b : β} {entries : List (Nat × β)}
    (h : entries.lookup code = some b) : (code, b) ∈ entries := by
  obtain ⟨before, after, rfl, -⟩ := List.lookup_eq_some_iff.mp h
  exact List.mem_append_right _ List.mem_cons_self

/-- The stack holds a derivation of the tokens read so far. -/
structure Explains (g : Grammar α) (ofToken : Token → α) (tokens : List Token)
    (c : Configuration α) : Prop where
  follows : Follows (graph (sketch g)) c.stack
  derived : ∃ read, read ++ c.rest = tokens ∧ Derives g ofToken
    (c.stack.reverse.map (·.symbol)) read (c.stack.reverse.map (·.value))

theorem reduce_stop {m : Machine α} {rule : Nat} {s : Stop α} (h : m.reduce c rule = .stop s n) :
    ∃ f, s = .fault f := by
  unfold Machine.reduce at h
  grind

/-- The end of the input is told apart from every token. -/
theorem rest_eq_nil {rest : List Token}
    (h : (rest.head?.map fun t => (Symbol.tok t.kind).code).getD Symbol.endCode = Symbol.endCode) :
    rest = [] := by
  cases rest with
  | nil => rfl
  | cons t rest =>
    have hlow := Symbol.code_lt_endCode t.kind
    simp only [List.head?_cons, Option.map_some, Option.getD_some] at h
    omega

variable {scan : Scan}

namespace Explains

variable {c : Configuration α} (h : Explains g ofToken tokens c)

include h

/-- The body of a completed rule lies on top of the stack. -/
theorem body {rule : Nat} {r : Rule α}
    (hr : g.rules[rule]? = some r) (hitem : ⟨rule, ((sketch g).shape rule).body.length⟩ ∈
      itemsAt (sketch g) (graph (sketch g)) (topState c.stack)) :
    (c.stack.take r.body.length).reverse.map (·.symbol) = r.body := by
  obtain ⟨hcodes, -⟩ := h.follows.pop (graph_linked _) hitem
  rw [shape_sketch hr, List.length_map, ← List.length_map Symbol.code, List.take_length,
    List.length_map] at hcodes
  apply (List.map_inj_right fun _ _ h => Symbol.code_injective h).mp
  rw [← hcodes, List.map_map]
  rfl

theorem reduce {rule : Nat} (hitem : ⟨rule, ((sketch g).shape rule).body.length⟩ ∈
      itemsAt (sketch g) (graph (sketch g)) (topState c.stack))
    (hstep : (ofGrammar g ofToken).reduce c rule = .next c') : Explains g ofToken tokens c' := by
  unfold Machine.reduce at hstep
  split at hstep
  · cases hstep
  · rename_i r hr
    have hr : g.rules[rule]? = some r := by simpa [ofGrammar] using hr
    have hbody := h.body hr hitem
    simp only at hstep
    split at hstep
    · cases hstep
    · rename_i built hbuilt
      split at hstep
      · cases hstep
      · rename_i target hmove
        cases hstep
        refine ⟨⟨mem_moves (mem_of_lookup hmove), h.follows.drop _⟩, ?_⟩
        obtain ⟨read, hread, hderived⟩ := h.derived
        have hstack : c.stack.reverse =
            (c.stack.drop r.body.length).reverse ++ (c.stack.take r.body.length).reverse := by
          rw [← List.reverse_append, List.take_append_drop]
        rw [hstack, List.map_append, List.map_append, hbody] at hderived
        obtain ⟨ts₁, ts₂, vs₁, vs₂, rfl, hvalues, hbelow, hinner⟩ := hderived.split
        have hlength := hbelow.length_eq
        rw [List.length_map] at hlength
        obtain ⟨rfl, rfl⟩ := List.append_inj hvalues (by rw [List.length_map, hlength])
        have hwhole := hbelow.append
          (.rule (List.mem_of_getElem? hr) hinner hbuilt .nil)
        refine ⟨_, ?_, by simpa using hwhole⟩
        simpa using hread

theorem act (hstep : (ofGrammar g ofToken).act c = .next c') : Explains g ofToken tokens c' := by
  unfold Machine.act at hstep
  simp only at hstep
  split at hstep
  · rename_i target t rest haction hrest
    cases hstep
    have hmove := mem_actions (mem_of_lookup haction)
    rw [hrest] at hmove
    refine ⟨⟨hmove, h.follows⟩, ?_⟩
    obtain ⟨read, hread, hderived⟩ := h.derived
    refine ⟨read ++ [t], by simpa [hrest] using hread, ?_⟩
    simpa [ofGrammar] using hderived.append (.token t .nil)
  · rename_i rule haction
    exact h.reduce (mem_actions (mem_of_lookup haction)) hstep
  · split at hstep <;> cases hstep
  · cases hstep

theorem act_accepted (hstop : (ofGrammar g ofToken).act c = .stop (.accepted v) n) :
    c.rest = [] ∧ n = c.line ∧ Derives g ofToken [.cat g.start] tokens [v] := by
  unfold Machine.act at hstop
  simp only at hstop
  split at hstop
  · cases hstop
  · obtain ⟨_, ⟨⟩⟩ := reduce_stop hstop
  · rename_i haction
    split at hstop
    · rename_i f below hstack
      cases hstop
      obtain ⟨hcode, hitem⟩ := mem_actions (mem_of_lookup haction)
      have hrest := rest_eq_nil hcode
      obtain ⟨hsymbol, hstart⟩ := h.follows.pop (graph_linked _) hitem
      rw [shape_start, hstack] at hsymbol
      rw [hstack] at hstart
      cases below with
      | cons f' below =>
        have hfollows := h.follows
        rw [hstack] at hfollows
        exact absurd hstart ((graph_linked _).not_start hfollows.2.1)
      | nil =>
        obtain ⟨read, hread, hderived⟩ := h.derived
        rw [hrest, List.append_nil] at hread
        rw [hstack, hread] at hderived
        have hsame : f.symbol = .cat g.start :=
          Symbol.code_injective (List.head_eq_of_cons_eq hsymbol)
        exact ⟨hrest, rfl, hsame ▸ hderived⟩
    · cases hstop
  · cases hstop

theorem withLine (line : Nat) :
    Explains g ofToken tokens { c with line := line } := ⟨h.follows, h.derived⟩

theorem step (hstep : (ofGrammar g ofToken).step scan c = .next c') :
    Explains g ofToken tokens c' := by
  unfold Machine.step at hstep
  split at hstep
  · rename_i rule hforced
    obtain ⟨code, haction⟩ := mem_of_forced? hforced
    exact h.reduce (mem_actions haction) hstep
  · split at hstep
    · cases hstep
    all_goals exact (h.withLine _).act hstep

theorem step_accepted (hstop : (ofGrammar g ofToken).step scan c = .stop (.accepted v) n) :
    scan.error = none ∧ n = scan.line ∧ Derives g ofToken [.cat g.start] tokens [v] := by
  unfold Machine.step at hstop
  split at hstop
  · obtain ⟨_, ⟨⟩⟩ := reduce_stop hstop
  · split at hstop
    · cases hstop
    · rename_i herror
      exact ⟨herror, ((h.withLine _).act_accepted hstop).2⟩
    · rename_i hrest
      obtain ⟨hnil, -⟩ := (h.withLine _).act_accepted hstop
      simp [hrest] at hnil

theorem run_accepted (hrun : (ofGrammar g ofToken).run scan fuel c = (.accepted v, n)) :
    scan.error = none ∧ n = scan.line ∧ Derives g ofToken [.cat g.start] tokens [v] := by
  induction fuel generalizing c with
  | zero => cases hrun
  | succ fuel ih =>
    rw [run] at hrun
    split at hrun
    · rename_i next hnext
      exact ih (h.step hnext) hrun
    · rename_i stop line hstop
      obtain ⟨rfl, rfl⟩ := Prod.mk.inj hrun
      exact h.step_accepted hstop

end Explains

/-- What is accepted has a derivation from all the tokens, which were all readable. -/
theorem parse_accepted (h : (ofGrammar g ofToken).parse line scan = (.accepted v, n)) :
    scan.error = none ∧ n = scan.line ∧ Derives g ofToken [.cat g.start] scan.tokens [v] :=
  Explains.run_accepted (c := ⟨[], scan.tokens, line⟩) ⟨trivial, [], rfl, .nil⟩ h

end Machine

end Grammar

end BlockScript
