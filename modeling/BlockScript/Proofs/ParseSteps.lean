import BlockScript.Proofs.Conflicts

/-!
Every parse comes to an end. What is on the stack and what is left to read weigh so much, by the
slack of the symbols, and each step lowers the weight, but for the one that makes the whole input of
all that was read. After that one no step can follow. So the steps that are allowed for the tokens
suffice, and a run stops where a token is refused, where the text cannot be read on, where the input
is accepted, or where a rule has no value for what was read.
-/
namespace BlockScript.Grammar

namespace Automaton

variable {s : Sketch} {graph : Graph}

theorem mem_widen {e : Nat × Nat} {set rule : Nat} {row : List (Nat × Nat)}
    (h : e ∈ widen set rule row) : e ∈ row ∨ e.1 = rule := by
  unfold widen at h
  split at h
  · obtain ⟨old, hold, rfl⟩ := List.mem_map.mp h
    split
    · exact .inr rfl
    · exact .inl hold
  · rcases List.mem_cons.mp h with rfl | hold
    · exact .inr rfl
    · exact .inl hold

theorem lookback_lt : ∀ l ∈ (related s graph).lookbacks, l.rule < s.ruleCount := by
  refine List.foldlRecOn (motive := fun rel : Relations =>
    ∀ l ∈ rel.lookbacks, l.rule < s.ruleCount) _ _ (by simp) ?_
  intro rel hrel i _
  split
  · exact hrel
  · refine List.foldlRecOn
      (motive := fun rel : Relations => ∀ l ∈ rel.lookbacks, l.rule < s.ruleCount) _ _ hrel ?_
    intro rel hrel r hr
    split
    · exact hrel
    · exact List.forall_mem_cons.mpr ⟨(mem_rulesOf.mp hr).1, hrel⟩

/-- The rule of the whole input is no reduction. -/
theorem reductions_lt (q : Nat) : ∀ e ∈ (reductions s graph).getD q [], e.1 < s.ruleCount := by
  rw [reductions_eq]
  refine List.foldlRecOn (motive := fun table : Array (List (Nat × Nat)) =>
    ∀ e ∈ table.getD q [], e.1 < s.ruleCount) _ _ ?_ ?_
  · intro e he
    rw [Array.getD_eq_getD_getElem?, Array.getElem?_replicate] at he
    split at he <;> cases he
  · intro table htable l hl e he
    rw [offer, getD_modify] at he
    split at he
    · rename_i hstate
      rcases mem_widen he with hold | hrule
      · exact htable e (hstate.1 ▸ hold)
      · exact hrule ▸ lookback_lt l hl
    · exact htable e he

end Automaton

open Automaton

variable {α : Type} {g : Grammar α} {ofToken : Token → α} {r : Nat} {rule : Rule α}

theorem reduce_lt {q code : Nat}
    (h : (code, .reduce r) ∈ ((Machine.ofGrammar g ofToken).row q).actions) :
    r < g.rules.length := by
  rw [Machine.row_ofGrammar] at h
  split at h
  · rw [row_actions] at h
    refine List.foldlRecOn (motive := fun found => (code, Action.reduce r) ∈ found → _) _ _ ?_ ?_ h
    · intro hplain
      unfold plainActions at hplain
      split at hplain <;> simp at hplain
    · intro found ih reduction hreduction hentry
      rcases mem_addReductions hentry with hold | heq
      · exact ih hold
      · obtain rfl := Action.reduce.inj heq
        rw [← ruleCount_sketch]
        exact reductions_lt q _ (List.mem_filter.mp hreduction).1
  · cases h

/-- Where a rule begins that is not among the items the state was entered with, its head is
expected. -/
theorem Has.expects {p : Nat} {K : List Item}
    (hitems : itemsAt (sketch g) (graph (sketch g)) p = closure (sketch g) K) (hK : ⟨r, 0⟩ ∉ K)
    (hrule : g.rules[r]? = some rule) (hbegins : Has g p r 0) :
    ∃ r' k, Has g p r' k ∧ (bodyOf g r')[k]? = some (.cat rule.head) := by
  rw [Has, hitems, mem_closure_iff] at hbegins
  obtain ⟨-, -, ⟨r', k⟩, hj, c, hnext, hcategory, hhead⟩ := hbegins.resolve_left hK
  have hitem : Has g p r' k := by
    rw [Has, hitems]
    exact mem_closure_iff.mpr (.inl hj)
  have hcode := hnext
  rw [nextSymbol?_sketch hitem.rule_le] at hcode
  obtain ⟨x, hx, rfl⟩ := Option.map_eq_some_iff.mp hcode
  obtain ⟨c, rfl⟩ := isCategory_code hcategory
  rw [begins_head hrule] at hhead
  rcases Relation.ReflTransGen.cases_tail hhead with heq | ⟨d, hstarts, rule', hmem, rfl, hfirst⟩
  · exact ⟨r', k, hitem, heq ▸ hx⟩
  · obtain ⟨r'', hr''⟩ := List.mem_iff_getElem?.mp hmem
    refine ⟨r'', 0, ?_, ?_⟩
    · rw [Has, hitems, mem_closure_iff, ruleCount_sketch]
      exact .inr ⟨rfl, (List.getElem?_eq_some_iff.mp hr'').1, _, hj, _, hnext, hcategory,
        (begins_head hr'').mpr hstarts⟩
    · rw [bodyOf_eq hr'', ← List.head?_eq_getElem?, hfirst]

/-- Where a rule begins on a stack, its head is expected. -/
theorem Follows.expects {stack : List (Frame α)} (h : Follows (graph (sketch g)) stack)
    (hrule : g.rules[r]? = some rule) (hbegins : Has g (topState stack) r 0) :
    ∃ r' k, Has g (topState stack) r' k ∧ (bodyOf g r')[k]? = some (.cat rule.head) := by
  cases stack with
  | nil =>
    refine hbegins.expects (itemsAt_eq (graph_linked (sketch g)).start) ?_ hrule
    rw [List.mem_singleton, ruleCount_sketch]
    intro heq
    obtain rfl := (Item.mk.inj heq).1
    rw [List.getElem?_eq_none (Nat.le_refl _)] at hrule
    cases hrule
  | cons f below =>
    obtain ⟨K, hK, -, hmem⟩ := (graph_linked (sketch g)).entry h.1
    refine hbegins.expects hK ?_ hrule
    rw [hmem]
    rintro ⟨j, -, -, heq⟩
    cases (Item.mk.inj heq).2

/-- The whole input is expected at the bottom of the stack only. -/
theorem Follows.eq_nil_of_expects {stack : List (Frame α)} {k : Nat}
    (hstart : ∀ rule ∈ g.rules, .cat g.start ∉ rule.body) (h : Follows (graph (sketch g)) stack)
    (hitem : Has g (topState stack) r k) (hx : (bodyOf g r)[k]? = some (.cat g.start)) :
    stack = [] ∧ r = g.rules.length ∧ k = 0 := by
  have hr : g.rules[r]? = none := by
    cases hrule : g.rules[r]? with
    | none => rfl
    | some rule =>
      rw [bodyOf_eq hrule] at hx
      exact absurd (List.mem_of_getElem? hx) (hstart rule (List.mem_of_getElem? hrule))
  obtain rfl : r = g.rules.length :=
    Nat.le_antisymm hitem.rule_le (List.getElem?_eq_none_iff.mp hr)
  obtain rfl : k = 0 := by
    rw [bodyOf, hr] at hx
    simpa using (List.getElem?_eq_some_iff.mp hx).1
  refine ⟨?_, rfl, rfl⟩
  cases stack with
  | nil => rfl
  | cons f below =>
    rw [Has, ← ruleCount_sketch] at hitem
    exact absurd hitem ((graph_linked (sketch g)).not_start h.1)

namespace Machine

open Explains

variable {tables : Tables} {tokens : List Token} {scan : Scan} {c c' : Configuration α}

/-- What the symbols on the stack and the tokens not yet read weigh. -/
def weight (tables : Tables) (c : Configuration α) : Nat :=
  (c.stack.map fun f => tables.slackOf f.symbol).sum + 128 * c.rest.length

/-- All of the input has been put together. -/
def IsWhole (g : Grammar α) (c : Configuration α) : Prop :=
  ∃ f, c.stack = [f] ∧ f.symbol = .cat g.start

/-- What a step can do: it reduces a rule, it reads a token, or it stops without a fault. -/
def Does (m : Machine α) (c : Configuration α) (x : Step α) : Prop :=
  (∃ code r line, (code, .reduce r) ∈ (m.row (topState c.stack)).actions ∧
    m.reduce { c with line := line } r = x) ∨
  (∃ t rest target line, c.rest = t :: rest ∧
    ((Symbol.tok t.kind).code, .shift target) ∈ (m.row (topState c.stack)).actions ∧
    .next ⟨⟨target, .tok t.kind, m.ofToken t⟩ :: c.stack, rest, line⟩ = x) ∨
  ∃ stop line, .stop stop line = x ∧ ∀ f, stop ≠ .fault f

theorem act_does (m : Machine α) (c : Configuration α) (line : Nat) :
    m.Does c (m.act { c with line := line }) := by
  unfold act
  simp only
  split
  · rename_i target t rest haction hrest
    have hrest : c.rest = t :: rest := hrest
    rw [hrest] at haction
    exact .inr (.inl ⟨t, rest, target, line, hrest, mem_of_lookup haction, rfl⟩)
  · rename_i rule haction
    exact .inl ⟨_, rule, line, mem_of_lookup haction, rfl⟩
  · split
    all_goals exact .inr (.inr ⟨_, _, rfl, by simp⟩)
  · exact .inr (.inr ⟨_, _, rfl, by simp⟩)

theorem step_does (m : Machine α) (scan : Scan) (c : Configuration α) :
    m.Does c (m.step scan c) := by
  unfold step
  split
  · rename_i rule hforced
    obtain ⟨code, haction⟩ := mem_of_forced? hforced
    exact .inl ⟨code, rule, c.line, haction, rfl⟩
  · split
    · exact .inr (.inr ⟨_, _, rfl, by simp⟩)
    all_goals exact act_does m c _

namespace Explains

variable (h : Explains g ofToken tokens c)

include h

/-- A rule that is reduced has a place to go, and all that can fail is its action. -/
theorem reduce_ends {code : Nat}
    (haction : (code, .reduce r) ∈ ((ofGrammar g ofToken).row (topState c.stack)).actions) :
    ∃ rule below, g.rules[r]? = some rule ∧ c.stack.drop rule.body.length = below ∧
      (c.stack.take rule.body.length).reverse.map (·.symbol) = rule.body ∧
      (∃ r' k, Has g (topState below) r' k ∧ (bodyOf g r')[k]? = some (.cat rule.head)) ∧
      ((∃ f, rule.action ((c.stack.take rule.body.length).reverse.map (·.value)) = .error f ∧
          (ofGrammar g ofToken).reduce c r = .stop (.fault f) c.line) ∨
        ∃ target v, (ofGrammar g ofToken).reduce c r =
          .next { c with stack := ⟨target, .cat rule.head, v⟩ :: below }) := by
  have hitem := mem_actions haction
  obtain ⟨rule, hrule⟩ : ∃ rule, g.rules[r]? = some rule :=
    ⟨_, List.getElem?_eq_getElem (reduce_lt haction)⟩
  have hbody := h.body hrule hitem
  have hbegins : Has g (topState (c.stack.drop rule.body.length)) r 0 := by
    have hpop := (h.follows.pop (graph_linked _) hitem).2
    rwa [shape_sketch hrule, List.length_map] at hpop
  obtain ⟨r', k, hexpects, hx⟩ := (h.follows.drop rule.body.length).expects hrule hbegins
  refine ⟨rule, _, hrule, rfl, hbody, ⟨r', k, hexpects, hx⟩, ?_⟩
  obtain ⟨target, hgoto⟩ := exists_goto hexpects hx
  have hmove := lookup_move ofToken hgoto
  have hrules : (ofGrammar g ofToken).rules[r]? = some rule := by simpa [ofGrammar] using hrule
  rw [Machine.reduce, hrules]
  cases hvalue : rule.action ((c.stack.take rule.body.length).reverse.map (·.value)) with
  | error f => exact .inl ⟨f, rfl, by simp only [hvalue]⟩
  | ok v =>
    refine .inr ⟨target, v, ?_⟩
    simp only [hvalue]
    rw [topState] at hmove
    rw [hmove]

/-- A step that goes on lowers the weight, or it completes the input. -/
theorem step_lowers (hcover : tables.Cover g)
    (hstep : (ofGrammar g ofToken).step scan c = .next c') :
    weight tables c' < weight tables c ∨ IsWhole g c' := by
  rcases hstep ▸ step_does (ofGrammar g ofToken) scan c with ⟨code, r, line, haction, hreduce⟩ |
    ⟨t, rest, target, line, hrest, -, hshift⟩ | ⟨stop, line, hstop, -⟩
  · obtain ⟨rule, _, hrule, rfl, hbody, ⟨r', k, hexpects, hx⟩, hends⟩ :=
      (h.withLine line).reduce_ends haction
    obtain ⟨f, -, hfails⟩ | ⟨target, v, hgoes⟩ := hends
    · cases hfails.symm.trans hreduce
    obtain rfl := Step.next.inj (hgoes.symm.trans hreduce)
    rcases hcover.slack rule (List.mem_of_getElem? hrule) with hstart | hslack
    · rw [hstart] at hx
      obtain ⟨hbelow, -⟩ := (h.follows.drop _).eq_nil_of_expects
        (fun rule hmem => (hcover.start rule hmem).1) hexpects hx
      exact .inr ⟨⟨target, .cat rule.head, v⟩, by rw [hbelow], congrArg Symbol.cat hstart⟩
    · have hread : ((c.stack.take rule.body.length).map fun f => tables.slackOf f.symbol).sum =
          (rule.body.map tables.slackOf).sum := by
        have hsum := congrArg (fun xs => (xs.map tables.slackOf).sum) hbody
        simpa [Function.comp_def] using hsum
      have hstack : (c.stack.map fun f => tables.slackOf f.symbol).sum =
          (rule.body.map tables.slackOf).sum +
            ((c.stack.drop rule.body.length).map fun f => tables.slackOf f.symbol).sum := by
        rw [← hread, ← List.sum_append, ← List.map_append, List.take_append_drop]
      have hhead : tables.slackOf (.cat rule.head) = tables.slack rule.head := rfl
      simp only [weight, List.map_cons, List.sum_cons, hhead, hstack]
      omega
  · obtain rfl := Step.next.inj hshift
    have htoken : tables.slackOf (.tok t.kind) = 127 := rfl
    simp only [weight, List.map_cons, List.sum_cons, htoken, hrest, List.length_cons]
    omega
  · cases hstop

/-- Where the whole input is on the stack, all that a state can do is accept it. -/
theorem whole_stops (hcover : tables.Cover g) (hwhole : IsWhole g c) :
    (ofGrammar g ofToken).step scan c ≠ .next c' := by
  obtain ⟨f, hstack, hsymbol⟩ := hwhole
  have hmove : ((Symbol.cat g.start).code, f.state) ∈ (graph (sketch g)).moves.getD 0 [] := by
    have hfollows := h.follows
    rw [hstack] at hfollows
    exact hsymbol ▸ hfollows.1
  have hitems : ∀ i ∈ itemsAt (sketch g) (graph (sketch g)) f.state, i = ⟨g.rules.length, 1⟩ := by
    obtain ⟨K, hK, -, hmem⟩ := (graph_linked (sketch g)).entry hmove
    have hkernel : ∀ i ∈ K, i = ⟨g.rules.length, 1⟩ := by
      intro i hi
      obtain ⟨⟨r, k⟩, hitem, hnext, rfl⟩ := (hmem i).mp hi
      have hitem : Has g (topState ([] : List (Frame α))) r k := hitem
      have hempty : Follows (graph (sketch g)) ([] : List (Frame α)) := trivial
      obtain ⟨-, rfl, rfl⟩ := hempty.eq_nil_of_expects
        (fun rule hmem => (hcover.start rule hmem).1) hitem (hitem.next_iff.mp hnext)
      rfl
    intro i hi
    rw [hK, mem_closure_iff] at hi
    rcases hi with hi | ⟨-, -, j, hj, c, hnext, -⟩
    · exact hkernel i hi
    · rw [hkernel j hj, nextSymbol?_sketch (Nat.le_refl _), bodyOf,
        List.getElem?_eq_none (Nat.le_refl _)] at hnext
      cases hnext
  have htop : topState c.stack = f.state := by rw [hstack]; rfl
  have hreduce : ∀ {code r}, (code, .reduce r) ∉
      ((ofGrammar g ofToken).row (topState c.stack)).actions := by
    intro code r haction
    have hlt := reduce_lt haction
    rw [htop] at haction
    have hrule := (Item.mk.inj (hitems _ (mem_actions haction))).1
    omega
  have hshift : ∀ {code target}, (code, .shift target) ∉
      ((ofGrammar g ofToken).row (topState c.stack)).actions := by
    intro code target haction
    rw [htop] at haction
    obtain ⟨_, -, ⟨i, hi⟩, hmem⟩ := (graph_linked (sketch g)).entry (mem_actions haction)
    obtain ⟨j, hj, hnext, -⟩ := (hmem i).mp hi
    rw [hitems j hj, nextSymbol?_sketch (Nat.le_refl _), bodyOf,
      List.getElem?_eq_none (Nat.le_refl _)] at hnext
    cases hnext
  intro hstep
  rcases hstep ▸ step_does (ofGrammar g ofToken) scan c with ⟨_, _, _, haction, -⟩ |
    ⟨_, _, _, _, -, haction, -⟩ | ⟨_, _, hstop, -⟩
  · exact hreduce haction
  · exact hshift haction
  · cases hstop

/-- A run with more steps than the weight ends in a step that stops. -/
theorem run_stops (hcover : tables.Cover g) {fuel : Nat} (hfuel : weight tables c + 1 < fuel) :
    ∃ c', Explains g ofToken tokens c' ∧
      (ofGrammar g ofToken).step scan c' = .stop ((ofGrammar g ofToken).run scan fuel c).1
        ((ofGrammar g ofToken).run scan fuel c).2 := by
  induction fuel generalizing c with
  | zero => omega
  | succ fuel ih =>
    rw [run]
    cases hstep : (ofGrammar g ofToken).step scan c with
    | stop s line => exact ⟨c, h, hstep⟩
    | next c₁ =>
      have hnext := h.step hstep
      rcases h.step_lowers hcover hstep with hlower | hwhole
      · exact ih hnext (by omega)
      · obtain ⟨fuel, rfl⟩ := Nat.exists_eq_succ_of_ne_zero (show fuel ≠ 0 by omega)
        dsimp only
        rw [run]
        cases hlast : (ofGrammar g ofToken).step scan c₁ with
        | stop s line => exact ⟨c₁, hnext, hlast⟩
        | next c₂ => exact absurd hlast (hnext.whole_stops hcover hwhole)

/-- A step fails only where a rule has no value for its parts, which were read one after the
other. -/
theorem step_fault {f : Fault} {n : Nat}
    (hstop : (ofGrammar g ofToken).step scan c = .stop (.fault f) n) :
    ∃ rule ∈ g.rules, ∃ before inner parts, before ++ inner ++ c.rest = tokens ∧
      Derives g ofToken rule.body inner parts ∧ rule.action parts = .error f := by
  rcases hstop ▸ step_does (ofGrammar g ofToken) scan c with ⟨code, r, line, haction, hreduce⟩ |
    ⟨_, _, _, _, -, -, hshift⟩ | ⟨stop, line, hother, hne⟩
  · obtain ⟨rule, below, hrule, -, hbody, -, hends⟩ := (h.withLine line).reduce_ends haction
    obtain ⟨f', hvalue, hfails⟩ | ⟨target, v, hgoes⟩ := hends
    · cases hfails.symm.trans hreduce
      obtain ⟨read, hread, hderived⟩ := h.derived
      have hstack : c.stack.reverse =
          (c.stack.drop rule.body.length).reverse ++ (c.stack.take rule.body.length).reverse := by
        rw [← List.reverse_append, List.take_append_drop]
      rw [hstack, List.map_append, List.map_append, hbody] at hderived
      obtain ⟨before, inner, vs₁, vs₂, rfl, hvalues, hbelow, hinner⟩ := hderived.split
      have hlength := hbelow.length_eq
      rw [List.length_map] at hlength
      obtain ⟨rfl, rfl⟩ := List.append_inj hvalues (by rw [List.length_map, hlength])
      exact ⟨rule, List.mem_of_getElem? hrule, before, inner, _, hread, hinner, hvalue⟩
    · cases hgoes.symm.trans hreduce
  · cases hshift
  · cases hother
    exact absurd rfl (hne f)

end Explains

/-- The steps that are allowed for the tokens suffice, so a parse fails only where a rule has no
value for its parts. -/
theorem parse_fault (hcover : tables.Cover g) {line n : Nat} {f : Fault}
    (h : (ofGrammar g ofToken).parse line scan = (.fault f, n)) :
    ∃ rule ∈ g.rules, ∃ before inner after parts, before ++ inner ++ after = scan.tokens ∧
      Derives g ofToken rule.body inner parts ∧ rule.action parts = .error f := by
  have hstart : Explains g ofToken scan.tokens ⟨[], scan.tokens, line⟩ := ⟨trivial, [], rfl, .nil⟩
  obtain ⟨c, hc, hstop⟩ := hstart.run_stops hcover
    (show weight tables ⟨[], scan.tokens, line⟩ + 1 < stepsFor scan.tokens.length by
      simp only [weight, List.map_nil, List.sum_nil, stepsFor]
      omega)
  rw [← parse, h] at hstop
  obtain ⟨rule, hmem, before, inner, parts, htokens, hderived, haction⟩ := hc.step_fault hstop
  exact ⟨rule, hmem, before, inner, c.rest, parts, htokens, hderived, haction⟩

end Machine

end BlockScript.Grammar
