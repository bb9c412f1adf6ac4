import BlockScript.Proofs.Lookaheads

/-!
What the automaton does in a state. A terminal is read if it leads on and no rule that has been
read to its end is preferred to it. A rule that is the only one read to its end is reduced if it
is offered on the terminal and, where that could be read, preferred to it. Nothing else decides,
whatever the order in which reductions are added to a row.
-/
namespace BlockScript.Grammar

namespace Automaton

variable {s : Sketch} {rule code x : Nat} {actions : List (Nat × Action)}

/-- What becomes of an action when a reduction is offered beside it. -/
def resolve (s : Sketch) (rule code : Nat) : Option Action → Option Action
  | none => some (.reduce rule)
  | some (.shift q) =>
    if reduces (s.shape rule).rank (s.ranks.getD code .unranked) then some (.reduce rule)
    else some (.shift q)
  | some a => some a

theorem lookup_addReduction : (addReduction s rule code actions).lookup x =
    if x = code then resolve s rule code (actions.lookup code) else actions.lookup x := by
  cases hold : actions.lookup code with
  | none =>
    simp only [addReduction, hold]
    rw [List.lookup_append, lookup_cons_eq]
    by_cases hx : x = code
    · rw [if_pos hx, if_pos hx, hx, hold]
      rfl
    · rw [if_neg hx, if_neg hx, List.lookup_nil, Option.or_none]
  | some a =>
    cases a with
    | shift q =>
      simp only [addReduction, hold, resolve]
      by_cases hreduces : reduces (s.shape rule).rank (s.ranks.getD code .unranked) = true
      · rw [if_pos hreduces, if_pos hreduces, lookup_replace, hold]
        rfl
      · rw [if_neg hreduces, if_neg hreduces]
        by_cases hx : x = code
        · rw [if_pos hx, hx, hold]
        · rw [if_neg hx]
    | reduce r | accept =>
      simp only [addReduction, hold, resolve]
      by_cases hx : x = code
      · rw [if_pos hx, hx, hold]
      · rw [if_neg hx]

theorem mem_terminalsOf {set : Nat} :
    x ∈ terminalsOf set ↔ x ≤ Symbol.endCode ∧ set.testBit x = true := by
  simp only [terminalsOf, List.mem_filter, List.mem_range, Nat.lt_succ_iff]

/-- What all additions to a row leave alone. -/
theorem addReductions_keeps (h : actions.lookup x = some a)
    (hkept : resolve s reduction.1 x (some a) = some a) :
    (addReductions s actions reduction).lookup x = some a := by
  refine List.foldlRecOn
    (motive := fun found : List (Nat × Action) => found.lookup x = some a) _ _ h ?_
  intro found hfound code _
  rw [lookup_addReduction]
  by_cases hx : x = code
  · rw [if_pos hx, ← hx, hfound, hkept]
  · rw [if_neg hx, hfound]

/-- A rule is reduced on a terminal, or would be if it were offered there. -/
def Yields (s : Sketch) (rule x : Nat) (actions : List (Nat × Action)) : Prop :=
  actions.lookup x = some (.reduce rule) ∨
    resolve s rule x (actions.lookup x) = some (.reduce rule)

section

variable (h : Yields s rule x actions)

include h

theorem Yields.resolve : Automaton.resolve s rule x (actions.lookup x) = some (.reduce rule) := by
  rcases h with hdone | hresolve
  · rw [hdone]
    rfl
  · exact hresolve

theorem Yields.addReduction : Yields s rule x (addReduction s rule code actions) := by
  rw [Yields, lookup_addReduction]
  by_cases hcode : x = code
  · subst hcode
    rw [if_pos rfl]
    exact .inl h.resolve
  · rwa [if_neg hcode]

theorem Yields.addReductions {set : Nat} : Yields s rule x (addReductions s actions (rule, set)) :=
  List.foldlRecOn (motive := Yields s rule x) _ _ h fun _ hfound _ _ => hfound.addReduction

/-- A reduction that is offered on a terminal, and preferred to reading it, is made. -/
theorem addReductions_offers {set : Nat} (hx : x ≤ Symbol.endCode) (hset : set.testBit x = true) :
    (addReductions s actions (rule, set)).lookup x = some (.reduce rule) := by
  refine foldl_establishes (Q := Yields s rule x)
    (P := fun found : List (Nat × Action) => found.lookup x = some (.reduce rule)) h
    (fun _ _ _ hfound => hfound.addReduction) ?_ (mem_terminalsOf.mpr ⟨hx, hset⟩) ?_
  · intro found code _ _ hfound
    rw [lookup_addReduction]
    by_cases hcode : x = code
    · rw [if_pos hcode, ← hcode, hfound]
      rfl
    · rwa [if_neg hcode]
  · intro found hfound
    rw [lookup_addReduction, if_pos rfl]
    exact hfound.resolve

end

theorem lookup_filter_key {β : Type} {entries : List (Nat × β)} {P : Nat → Bool} (hx : P x = true) :
    (entries.filter fun e => P e.1).lookup x = entries.lookup x := by
  induction entries with
  | nil => rfl
  | cons entry rest ih =>
    obtain ⟨y, b⟩ := entry
    rw [List.filter_cons]
    by_cases hy : P y = true
    · rw [if_pos hy, lookup_cons_eq, lookup_cons_eq, ih]
    · rw [if_neg hy, lookup_cons_eq, ih, if_neg]
      rintro rfl
      exact hy hx

end Automaton

open Automaton

variable {α : Type} {g : Grammar α} {q q' r : Nat} {t : Terminal} {rule : Rule α}

/-- The code of a terminal, or of the end of the input. -/
def lookCode (ahead : Option Terminal) : Nat :=
  (ahead.map fun t => (Symbol.tok t).code).getD Symbol.endCode

theorem lookCode_le (ahead : Option Terminal) : lookCode ahead ≤ Symbol.endCode := by
  cases ahead with
  | none => exact Nat.le_refl _
  | some t => exact Nat.le_of_lt (Symbol.code_lt_endCode t)

theorem row_state (ofToken : Token → α) (hq : IsState g q) :
    (Machine.ofGrammar g ofToken).row q = Automaton.row (sketch g) (graph (sketch g))
      ((reductions (sketch g) (graph (sketch g))).getD q []) q := by
  have hsize : q < (graph (sketch g)).moves.size := (graph_complete g).2 ▸ hq
  rw [Machine.row_ofGrammar, if_pos hsize]

theorem rank_rule (h : g.rules[r]? = some rule) :
    ((sketch g).shape r).rank = g.rulePrecedence rule := by
  rw [shape_sketch h]

theorem rank_start (g : Grammar α) : ((sketch g).shape g.rules.length).rank = .unranked := by
  simp [sketch, Sketch.shape, shapes, Array.getD_eq_getD_getElem?]

theorem rank_terminal (g : Grammar α) (t : Terminal) :
    (sketch g).ranks.getD (Symbol.tok t).code .unranked = g.precedence t := by
  have hall : Terminal.all[t.ctorIdx]? = some t := by cases t <;> rfl
  simp [sketch, Symbol.code, Array.getD_eq_getD_getElem?, hall]

/-- The rules that have been read to their ends in a state. -/
theorem mem_completed_state :
    r ∈ completed (sketch g) ((graph (sketch g)).kernels.getD q []) ↔
      Has g q r (bodyOf g r).length ∧ r ≤ g.rules.length := by
  rw [mem_completed]
  constructor
  · intro h
    have hitem : Has g q r ((sketch g).shape r).body.length := h
    have hr := hitem.rule_le
    rw [shape_body hr, List.length_map] at hitem
    exact ⟨hitem, hr⟩
  · rintro ⟨h, hr⟩
    rw [shape_body hr, List.length_map]
    exact h

/-- What leads from one state to another is the next symbol of some rule. -/
theorem exists_next (h : (graph (sketch g)).target? q x = some q') :
    ∃ r k y, Has g q r k ∧ (bodyOf g r)[k]? = some y ∧ x = y.code := by
  obtain ⟨K, -, ⟨i, hi⟩, hmem⟩ := (graph_linked (sketch g)).entry (Machine.mem_of_lookup h)
  obtain ⟨⟨r, k⟩, hitem, hsymbol, -⟩ := (hmem i).mp hi
  rw [nextSymbol?_sketch (Has.rule_le hitem)] at hsymbol
  obtain ⟨y, hnext, hy⟩ := Option.map_eq_some_iff.mp hsymbol
  exact ⟨r, k, y, hitem, hnext, hy.symm⟩

theorem Goto.exists_item (h : Goto g q x q') : ∃ r k, Has g q r k ∧ (bodyOf g r)[k]? = some x := by
  obtain ⟨r, k, y, hitem, hnext, hy⟩ := exists_next h
  exact ⟨r, k, hitem, Symbol.code_injective hy ▸ hnext⟩

theorem code_ne_endCode (x : Symbol) : x.code ≠ Symbol.endCode := by
  cases x with
  | tok t => exact Nat.ne_of_lt (Symbol.code_lt_endCode t)
  | cat c =>
    simp only [Symbol.code]
    omega

theorem target?_end : (graph (sketch g)).target? q Symbol.endCode = none := by
  rw [Option.eq_none_iff_forall_ne_some]
  intro q' h
  obtain ⟨-, -, y, -, -, hy⟩ := exists_next h
  exact code_ne_endCode y hy.symm

/-- Before any reduction is added, what leads on is read. -/
theorem lookup_shifts (g : Grammar α) (q : Nat) (ahead : Option Terminal) :
    ((((graph (sketch g)).moves.getD q []).filter fun m => !isCategory m.1).map
      fun m => (m.1, Action.shift m.2)).lookup (lookCode ahead) =
      ((graph (sketch g)).target? q (lookCode ahead)).map Action.shift := by
  have hterminal : (!isCategory (lookCode ahead)) = true := by
    have hle := lookCode_le ahead
    simp only [isCategory, Bool.not_eq_true', decide_eq_false_iff_not]
    omega
  rw [lookup_map_snd, lookup_filter_key (P := fun x => !isCategory x) hterminal]
  rfl

/-- The whole input is accepted where it has been read. -/
def Accepts (g : Grammar α) (q : Nat) : Prop := Has g q g.rules.length 1

theorem mem_kernel_of_accepts (h : Accepts g q) :
    ((graph (sketch g)).kernels.getD q []).contains ⟨(sketch g).ruleCount, 1⟩ = true := by
  rw [List.contains_iff_mem, ruleCount_sketch]
  rcases mem_closure_iff.mp h with hkernel | ⟨hdot, -⟩
  · exact hkernel
  · cases hdot

theorem lookup_plain_shift (h : Goto g q (.tok t) q') :
    (plainActions (sketch g) (graph (sketch g)) q).lookup (Symbol.tok t).code =
      some (.shift q') := by
  have hgoto : (graph (sketch g)).target? q (lookCode (some t)) = some q' := h
  have hshift := lookup_shifts g q (some t)
  rw [hgoto] at hshift
  unfold plainActions
  dsimp only
  split
  · rw [lookup_cons_eq, if_neg (code_ne_endCode (.tok t))]
    exact hshift
  · exact hshift

theorem lookup_plain_accept (h : Accepts g q) :
    (plainActions (sketch g) (graph (sketch g)) q).lookup Symbol.endCode = some .accept := by
  unfold plainActions
  dsimp only
  rw [if_pos (mem_kernel_of_accepts h), lookup_cons_eq, if_pos rfl]

theorem lookup_plain_none (hend : ¬ Accepts g q)
    (h : ∀ t, ahead = some t → ∀ q', ¬ Goto g q (.tok t) q') :
    (plainActions (sketch g) (graph (sketch g)) q).lookup (lookCode ahead) = none := by
  have hnone : (graph (sketch g)).target? q (lookCode ahead) = none := by
    cases ahead with
    | none => exact target?_end
    | some t => exact Option.eq_none_iff_forall_ne_some.mpr (h t rfl)
  have hshift := lookup_shifts g q ahead
  rw [hnone] at hshift
  unfold plainActions
  dsimp only
  split
  · rename_i hkernel
    refine absurd (List.mem_append_left _ ?_) hend
    rw [List.contains_iff_mem, ruleCount_sketch] at hkernel
    exact hkernel
  · exact hshift

theorem Goto.isState_before (h : Goto g q x q') : IsState g q := by
  rw [IsState, (graph_complete g).2]
  exact lt_of_target? h

/-- The rules that reductions are added for have been read to their ends. -/
theorem has_of_mem_filter {entries : List (Nat × Nat)} {e : Nat × Nat}
    (h : e ∈ entries.filter fun r =>
      (completed (sketch g) ((graph (sketch g)).kernels.getD q [])).contains r.1) :
    Has g q e.1 (bodyOf g e.1).length ∧ e.1 ≤ g.rules.length :=
  mem_completed_state.mp (List.contains_iff_mem.mp (List.mem_filter.mp h).2)

/-- The rule for the whole input is never preferred to reading on. -/
theorem reduces_unranked (rank : Precedence) : reduces .unranked rank = false := by
  simp [reduces, Precedence.unranked]

/-- A terminal that leads on is read, unless a rule that has been read to its end is
preferred. -/
theorem lookup_shift (ofToken : Token → α) (h : Goto g q (.tok t) q')
    (hkept : ∀ r rule, g.rules[r]? = some rule → Has g q r rule.body.length →
      reduces (g.rulePrecedence rule) (g.precedence t) = false) :
    ((Machine.ofGrammar g ofToken).row q).actions.lookup (Symbol.tok t).code =
      some (.shift q') := by
  rw [row_state ofToken h.isState_before, row_actions]
  refine List.foldlRecOn (motive := fun found : List (Nat × Action) =>
    found.lookup (Symbol.tok t).code = some (.shift q')) _ _ (lookup_plain_shift h) ?_
  intro found hfound e he
  obtain ⟨hitem, hle⟩ := has_of_mem_filter he
  have hloses : reduces ((sketch g).shape e.1).rank
      ((sketch g).ranks.getD (Symbol.tok t).code .unranked) = false := by
    rw [rank_terminal]
    by_cases hlt : e.1 < g.rules.length
    · have hrule := List.getElem?_eq_getElem hlt
      rw [rank_rule hrule]
      rw [bodyOf_eq hrule] at hitem
      exact hkept _ _ hrule hitem
    · have hlast : e.1 = g.rules.length := by omega
      rw [hlast, rank_start]
      exact reduces_unranked _
  refine addReductions_keeps hfound ?_
  rw [resolve, if_neg (by rw [hloses]; decide)]

/-- A rule that is the only one read to its end is reduced on a terminal on which it is offered,
if the terminal does not lead on or the rule is preferred to it. -/
theorem lookup_reduce (ofToken : Token → α)
    (hrule : g.rules[r]? = some rule) (hdone : Has g q r rule.body.length)
    (honly : ∀ r', Has g q r' (bodyOf g r').length → r' = r)
    (hoffers : Offers g q r (lookCode ahead))
    (hprefer : ∀ t, ahead = some t → ∀ q', Goto g q (.tok t) q' →
      reduces (g.rulePrecedence rule) (g.precedence t) = true) :
    ((Machine.ofGrammar g ofToken).row q).actions.lookup (lookCode ahead) = some (.reduce r) := by
  have hlt := (List.getElem?_eq_some_iff.mp hrule).1
  have hend : ¬ Accepts g q := by
    intro haccepts
    have hbody : (bodyOf g g.rules.length).length = 1 := by
      rw [bodyOf, List.getElem?_eq_none (Nat.le_refl _)]
      rfl
    have hsame := honly g.rules.length (by rw [hbody]; exact haccepts)
    omega
  have hplain : resolve (sketch g) r (lookCode ahead)
      ((plainActions (sketch g) (graph (sketch g)) q).lookup (lookCode ahead)) =
      some (.reduce r) := by
    by_cases hnone : ∀ t, ahead = some t → ∀ q', ¬ Goto g q (.tok t) q'
    · rw [lookup_plain_none hend hnone]
      rfl
    · push Not at hnone
      obtain ⟨t, rfl, q', hgoto⟩ := hnone
      have hwins := hprefer t rfl q' hgoto
      have hread : (plainActions (sketch g) (graph (sketch g)) q).lookup (lookCode (some t)) =
          some (.shift q') := lookup_plain_shift hgoto
      have hrank : (sketch g).ranks.getD (lookCode (some t)) .unranked = g.precedence t :=
        rank_terminal g t
      rw [hread, resolve, hrank, rank_rule hrule, if_pos hwins]
  obtain ⟨set, hset, hbit⟩ := hoffers
  rw [row_state ofToken hdone.isState, row_actions]
  refine foldl_establishes (Q := Yields (sketch g) r (lookCode ahead))
    (P := fun found : List (Nat × Action) => found.lookup (lookCode ahead) = some (.reduce r))
    (a := (r, set)) (.inr hplain) ?_ ?_ ?_ ?_
  · rintro found ⟨r', set'⟩ he hfound
    obtain rfl : r' = r := honly r' (has_of_mem_filter he).1
    exact hfound.addReductions
  · intro found e _ _ hfound
    exact addReductions_keeps hfound rfl
  · refine List.mem_filter.mpr ⟨Machine.mem_of_lookup hset, List.contains_iff_mem.mpr ?_⟩
    refine mem_completed_state.mpr ⟨?_, Nat.le_of_lt hlt⟩
    rwa [bodyOf_eq hrule]
  · intro found hfound
    exact addReductions_offers hfound (lookCode_le ahead) hbit

theorem lookup_accept (ofToken : Token → α) (h : Accepts g q) :
    ((Machine.ofGrammar g ofToken).row q).actions.lookup Symbol.endCode = some .accept := by
  rw [row_state ofToken h.isState, row_actions]
  refine List.foldlRecOn (motive := fun found : List (Nat × Action) =>
    found.lookup Symbol.endCode = some .accept) _ _ (lookup_plain_accept h) ?_
  intro found hfound e _
  exact addReductions_keeps hfound rfl

theorem lookup_move (ofToken : Token → α) (h : Goto g q (.cat c) q') :
    ((Machine.ofGrammar g ofToken).row q).moves.lookup (Symbol.cat c).code = some q' := by
  rw [row_state ofToken h.isState_before]
  exact (lookup_filter_key (P := isCategory) (isCategory_cat c)).trans h

end BlockScript.Grammar
