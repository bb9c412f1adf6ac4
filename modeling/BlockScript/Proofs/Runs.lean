import BlockScript.Proofs.Decisions

/-!
Runs of the automaton of a grammar, put together from their steps. A run leads from a stack and
the tokens ahead of it to another stack with fewer tokens ahead, or it breaks off with the fault
of a rule. Reading a token and replacing the body of a rule are runs of one step, and runs that
follow each other are one run.
-/
namespace BlockScript.Grammar

open Automaton

variable {α : Type}

/-- A run comes from a configuration to a stack and the tokens ahead of it, within a bound on its
steps, or it breaks off with a fault. The line that it has reached is left open. -/
def Leads (m : Machine α) (scan : Scan) (c : Configuration α) (bound : Nat)
    (outcome : Except Fault (List (Frame α))) (rest : List Token) : Prop :=
  ∃ steps ≤ bound, ∃ line, ∀ fuel, m.run scan (fuel + steps) c =
    match outcome with
    | .ok stack => m.run scan fuel ⟨stack, rest, line⟩
    | .error f => (.fault f, line)

section

variable {scan : Scan}

theorem Leads.mono (h : Leads m scan c bound outcome rest) (hle : bound ≤ bound') :
    Leads m scan c bound' outcome rest := by
  obtain ⟨steps, hsteps, hrun⟩ := h
  exact ⟨steps, hsteps.trans hle, hrun⟩

theorem Leads.trans (h : Leads m scan c bound (.ok stack) rest)
    (hnext : ∀ line, Leads m scan ⟨stack, rest, line⟩ bound' outcome rest') :
    Leads m scan c (bound + bound') outcome rest' := by
  obtain ⟨steps, hsteps, line, hrun⟩ := h
  obtain ⟨steps', hsteps', line', hrun'⟩ := hnext line
  refine ⟨steps' + steps, by omega, line', ?_⟩
  intro fuel
  rw [← Nat.add_assoc, hrun]
  exact hrun' fuel

theorem leads_of_step (h : m.step scan c = .next ⟨stack, rest, line⟩) :
    Leads m scan c 1 (.ok stack) rest := by
  refine ⟨1, Nat.le_refl 1, line, ?_⟩
  intro fuel
  rw [Machine.run, h]

end

section

variable {m : Machine α} {scan : Scan} {stack : List (Frame α)} {rest : List Token} {t : Token}
  {q r line : Nat}

/-- A state with something to read, or that accepts, looks at the next token. -/
theorem forced?_eq_none {row : Row} (h : row.actions.lookup x = some a)
    (ha : ∀ r, a ≠ .reduce r) : row.forced? = none := by
  unfold Row.forced?
  split
  · rename_i y r hactions
    rw [hactions, lookup_cons_eq] at h
    split at h
    · exact absurd (Option.some.inj h).symm (ha r)
    · cases h
  · rfl

theorem forced?_eq {row : Row} (h : row.actions.lookup x = some (.reduce r))
    (hforced : row.forced? = some r') : r' = r := by
  unfold Row.forced? at hforced
  split at hforced
  · rename_i y r'' hactions
    rw [hactions, lookup_cons_eq] at h
    split at h
    · cases hforced
      cases h
      rfl
    · cases h
  · cases hforced

theorem step_shift (h : (m.row (topState stack)).actions.lookup (Symbol.tok t.kind).code =
      some (.shift q)) :
    m.step scan ⟨stack, t :: rest, line⟩ =
      .next ⟨⟨q, .tok t.kind, m.ofToken t⟩ :: stack, rest, t.line⟩ := by
  have htop : Machine.top ⟨stack, t :: rest, line⟩ = topState stack := rfl
  rw [Machine.step, htop, forced?_eq_none h (by simp)]
  show m.act ⟨stack, t :: rest, t.line⟩ = _
  have htop' : Machine.top ⟨stack, t :: rest, t.line⟩ = topState stack := rfl
  simp only [Machine.act, htop', List.head?_cons, Option.map_some, Option.getD_some, h]

theorem step_reduce (line : Nat) (hscan : scan.error = none)
    (h : (m.row (topState stack)).actions.lookup (lookCode (rest.head?.map (·.kind))) =
      some (.reduce r)) :
    ∃ line', m.step scan ⟨stack, rest, line⟩ = m.reduce ⟨stack, rest, line'⟩ r := by
  have htop : ∀ line, Machine.top ⟨stack, rest, line⟩ = topState stack := fun _ => rfl
  have hact : ∀ line, m.act ⟨stack, rest, line⟩ = m.reduce ⟨stack, rest, line⟩ r := by
    intro line
    rw [lookCode, Option.map_map] at h
    unfold Machine.act
    dsimp only
    rw [htop]
    simp only [Function.comp_def] at h
    rw [h]
  rw [Machine.step, htop]
  cases hforced : (m.row (topState stack)).forced? with
  | some r' =>
    rw [forced?_eq h hforced]
    exact ⟨line, rfl⟩
  | none =>
    cases rest with
    | nil =>
      simp only [hscan]
      exact ⟨scan.line, hact _⟩
    | cons t rest => exact ⟨t.line, hact _⟩

/-- Where the whole input has been read, a run ends with the value on top of the stack. -/
theorem run_accept (frame : Frame α) (hscan : scan.error = none)
    (h : (m.row frame.state).actions.lookup Symbol.endCode = some .accept) (fuel : Nat) :
    m.run scan (fuel + 1) ⟨frame :: stack, [], line⟩ = (.accepted frame.value, scan.line) := by
  have hstep : m.step scan ⟨frame :: stack, [], line⟩ =
      .stop (.accepted frame.value) scan.line := by
    have htop : ∀ line, Machine.top ⟨frame :: stack, [], line⟩ = frame.state := fun _ => rfl
    rw [Machine.step, htop, forced?_eq_none h (by simp)]
    simp only [hscan, Machine.act, htop, List.head?_nil, Option.map_none, Option.getD_none, h]
  rw [Machine.run, hstep]

end

variable {g : Grammar α} {ofToken : Token → α} {scan : Scan} {stack below : List (Frame α)}
  {rest : List Token} {t : Token} {q q' r line : Nat} {rule : Rule α}

/-- A token that leads on is read, unless a rule that has been read to its end is preferred. -/
theorem leads_shift (h : Goto g (topState stack) (.tok t.kind) q)
    (hkept : ∀ r rule, g.rules[r]? = some rule → Has g (topState stack) r rule.body.length →
      reduces (g.rulePrecedence rule) (g.precedence t.kind) = false) :
    Leads (Machine.ofGrammar g ofToken) scan ⟨stack, t :: rest, line⟩ 1
      (.ok (⟨q, .tok t.kind, ofToken t⟩ :: stack)) rest :=
  leads_of_step (step_shift (lookup_shift ofToken h hkept))

/-- A rule that is reduced on what lies ahead replaces its body, which has been read last, by its
head. -/
theorem leads_reduce {read : List (Frame α)} (hscan : scan.error = none)
    (hrule : g.rules[r]? = some rule)
    (h : ((Machine.ofGrammar g ofToken).row (topState (read.reverse ++ below))).actions.lookup
      (lookCode (rest.head?.map (·.kind))) = some (.reduce r))
    (hcount : read.length = rule.body.length) (hgoto : Goto g (topState below) (.cat rule.head) q) :
    Leads (Machine.ofGrammar g ofToken) scan ⟨read.reverse ++ below, rest, line⟩ 1
      ((rule.action (read.map (·.value))).map fun v => ⟨q, .cat rule.head, v⟩ :: below) rest := by
  obtain ⟨line', hstep⟩ := step_reduce line hscan h
  have hrules : (Machine.ofGrammar g ofToken).rules[r]? = some rule := by
    rw [Machine.ofGrammar, List.getElem?_toArray, hrule]
  have htake : (read.reverse ++ below).take rule.body.length = read.reverse := by
    rw [List.take_append_of_le_length (by simp [hcount]), List.take_of_length_le (by simp [hcount])]
  have hdrop : (read.reverse ++ below).drop rule.body.length = below := by
    rw [List.drop_append_of_le_length (by simp [hcount]), List.drop_of_length_le (by simp [hcount]),
      List.nil_append]
  have hmove := lookup_move ofToken hgoto
  unfold topState at hmove
  simp only [Machine.reduce, hrules, htake, hdrop, List.reverse_reverse] at hstep
  cases haction : rule.action (read.map (·.value)) with
  | error fault =>
    rw [haction] at hstep
    refine ⟨1, Nat.le_refl 1, line', ?_⟩
    intro fuel
    rw [Machine.run, hstep]
    rfl
  | ok v =>
    rw [haction] at hstep
    simp only [hmove] at hstep
    exact leads_of_step hstep

/-- How a parse ends: with a value and at a line, or with a fault and at another line. -/
def ended (x : Except Fault α) (line line' : Nat) : Stop α × Nat :=
  match x with
  | .ok v => (.accepted v, line)
  | .error f => (.fault f, line')

/-- A run that leads to the whole input is a parse. It has enough steps if it takes no more than
are allowed for its tokens. -/
theorem Leads.parse (h : Leads (.ofGrammar g ofToken) scan ⟨[], scan.tokens, line⟩ bound
      (x.map fun v => [⟨q, .cat g.start, v⟩]) []) (hscan : scan.error = none)
    (hgoto : Goto g 0 (.cat g.start) q) (hbound : bound < Machine.stepsFor scan.tokens.length) :
    ∃ line', (Machine.ofGrammar g ofToken).parse line scan = ended x scan.line line' := by
  obtain ⟨steps, hsteps, line', hrun⟩ := h
  have hfuel : Machine.stepsFor scan.tokens.length =
      (Machine.stepsFor scan.tokens.length - steps - 1) + 1 + steps := by omega
  refine ⟨line', ?_⟩
  rw [Machine.parse, hfuel, hrun]
  cases x with
  | error fault => rfl
  | ok v =>
    have haccepts : Accepts g q := by
      refine hgoto.has_succ.mpr ⟨has_start.mpr ⟨rfl, .inl rfl⟩, ?_⟩
      rw [bodyOf, List.getElem?_eq_none (Nat.le_refl _)]
      rfl
    have hlookup := lookup_accept ofToken haccepts
    exact run_accept ⟨q, .cat g.start, v⟩ hscan hlookup _

theorem Path.has (h : Path g p xs q) (hitem : Has g p r k)
    (hbody : (bodyOf g r).drop k = xs ++ ys) : Has g q r (k + xs.length) := by
  induction xs generalizing p k with
  | nil => exact h ▸ hitem
  | cons x xs ih =>
    obtain ⟨p', hgoto, hrest⟩ := h
    have hnext : (bodyOf g r)[k]? = some x := by
      rw [← List.head?_drop, hbody]
      rfl
    have hdrop : (bodyOf g r).drop (k + 1) = xs ++ ys := by
      rw [← List.tail_drop, hbody]
      rfl
    have hlast := ih hrest (hgoto.has_succ.mpr ⟨hitem, hnext⟩) hdrop
    rwa [List.length_cons, Nat.add_comm xs.length, ← Nat.add_assoc]

/-- A rule that begins below its body is reduced on what can follow its head, if it is the only one
that has been read to its end and preferred to reading on. -/
theorem leads_rule (read : List (Frame α)) (hscan : scan.error = none)
    (hrule : g.rules[r]? = some rule) (hbegins : Has g (topState below) r 0)
    (hpath : Path g (topState below) rule.body (topState (read.reverse ++ below)))
    (hcount : read.length = rule.body.length)
    (honly : ∀ r', Has g (topState (read.reverse ++ below)) r' (bodyOf g r').length → r' = r)
    (hprefer : ∀ t, rest.head?.map (·.kind) = some t →
      ∀ q', Goto g (topState (read.reverse ++ below)) (.tok t) q' →
        reduces (g.rulePrecedence rule) (g.precedence t) = true)
    (hfollow : CanFollow g (topState below) rule.head (lookCode (rest.head?.map (·.kind))))
    (hgoto : Goto g (topState below) (.cat rule.head) q) :
    Leads (Machine.ofGrammar g ofToken) scan ⟨read.reverse ++ below, rest, line⟩ 1
      ((rule.action (read.map (·.value))).map fun v => ⟨q, .cat rule.head, v⟩ :: below) rest := by
  have hdone : Has g (topState (read.reverse ++ below)) r rule.body.length := by
    have hbody : (bodyOf g r).drop 0 = rule.body ++ [] := by
      rw [bodyOf_eq hrule, List.drop_zero, List.append_nil]
    have hitem := hpath.has hbegins hbody
    rwa [Nat.zero_add] at hitem
  have hoffers := hfollow.offers hrule hgoto hpath hdone.isState
  exact leads_reduce hscan hrule (lookup_reduce ofToken hrule hdone honly hoffers hprefer) hcount
    hgoto

end BlockScript.Grammar
