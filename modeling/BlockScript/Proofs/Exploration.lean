import BlockScript.Proofs.Derivations

/-!
All states of an automaton are explored. A state is added only if its items are not those of
another one, so the exploration ends before its bound, and then every symbol that an item of a
state expects leads to a state. In terms of symbols, a state that is entered by a symbol holds
the items before it that expect the symbol, moved past it, and the items that begin the rules of
what is then expected.
-/
namespace BlockScript.Grammar

namespace Automaton

variable {s : Sketch}

section

variable {graph : Graph}

theorem enter_nodup (h : kernels.toList.Nodup) (kernel : List Item) :
    (enter kernels kernel).1.toList.Nodup := by
  unfold enter
  split
  · exact h
  · rename_i hnew
    rw [Array.toList_push]
    have hfresh : kernel ∉ kernels.toList := by
      intro hmem
      have hne := Array.findIdx?_eq_none_iff.mp hnew kernel (by simpa using hmem)
      simp at hne
    simpa using (List.nodup_concat _ _).mpr ⟨hfresh, h⟩

variable {K kernel : List Item}

theorem mem_enter (h : K ∈ (enter kernels kernel).1) : K ∈ kernels ∨ K = kernel := by
  unfold enter at h
  split at h
  · exact .inl h
  · exact Array.mem_push.mp h

theorem size_enter (kernel : List Item) : kernels.size ≤ (enter kernels kernel).1.size := by
  unfold enter
  split
  · exact Nat.le_refl _
  · rw [Array.size_push]
    omega

theorem link_nodup (h : kernels.toList.Nodup) : (link kernels entries).1.toList.Nodup := by
  induction entries generalizing kernels with
  | nil => exact h
  | cons entry rest ih => exact ih (enter_nodup h entry.2)

theorem mem_link (h : K ∈ (link kernels entries).1) : K ∈ kernels ∨ ∃ x, (x, K) ∈ entries := by
  induction entries generalizing kernels with
  | nil => exact .inl h
  | cons entry rest ih =>
    rcases ih h with hold | ⟨x, hx⟩
    · rcases mem_enter hold with hold | rfl
      · exact .inl hold
      · exact .inr ⟨entry.1, List.mem_cons_self⟩
    · exact .inr ⟨x, List.mem_cons_of_mem _ hx⟩

theorem size_link (kernels : Array (List Item)) (entries : List (Nat × List Item)) :
    kernels.size ≤ (link kernels entries).1.size := by
  induction entries generalizing kernels with
  | nil => exact Nat.le_refl _
  | cons entry rest ih => exact (size_enter entry.2).trans (ih _)

/-- Every symbol of some entries leads to its state. -/
theorem lookup_link (kernels : Array (List Item)) (h : entries.lookup x = some K) :
    ∃ q, (link kernels entries).2.lookup x = some q ∧ (link kernels entries).1[q]? = some K := by
  induction entries generalizing kernels with
  | nil => cases h
  | cons entry rest ih =>
    obtain ⟨y, kernel⟩ := entry
    rw [lookup_cons_eq] at h
    simp only [link, lookup_cons_eq]
    by_cases hx : x = y
    · rw [if_pos hx] at h
      obtain rfl := Option.some.inj h
      refine ⟨_, if_pos hx, ?_⟩
      exact (link_spec _ rest).1 _ _ (enter_spec kernels kernel).2
    · rw [if_neg hx] at h
      obtain ⟨q, hq, hK⟩ := ih (enter kernels kernel).1 h
      exact ⟨q, by rw [if_neg hx, hq], hK⟩

/-- A graph in which the states with known moves come first. -/
structure Graph.Explored (s : Sketch) (graph : Graph) : Prop extends graph.Linked s where
  size_le : graph.moves.size ≤ graph.kernels.size
  kernel : ∀ K ∈ graph.kernels, Kernel s K
  distinct : graph.kernels.toList.Nodup
  entered : ∀ p K, p < graph.moves.size → graph.kernels[p]? = some K → ∀ x K',
    (successors s (closure s K)).lookup x = some K' →
      ∃ q, graph.target? p x = some q ∧ graph.kernels[q]? = some K'

theorem Graph.Explored.kernels_le (h : graph.Explored s) :
    graph.kernels.size ≤ 2 ^ (allItems s).length := by
  rw [← Array.length_toList]
  exact length_kernels_le h.distinct fun K hK => h.kernel K (by simpa using hK)

def explored (s : Sketch) (graph : Graph) (kernel : List Item) : Graph :=
  let found := link graph.kernels (successors s (closure s kernel))
  ⟨found.1, graph.moves.push found.2⟩

theorem explore_some (hkernel : graph.kernels[graph.moves.size]? = some kernel)
    (fuel : Nat) : explore s (fuel + 1) graph = explore s fuel (explored s graph kernel) := by
  rw [explore, hkernel]
  rfl

theorem Graph.Explored.next (h : graph.Explored s)
    (hkernel : graph.kernels[graph.moves.size]? = some kernel) :
    (explored s graph kernel).Explored s := by
  have hlinked : (explore s 1 graph).Linked s := explore_linked h.toLinked
  rw [explore_some hkernel, explore] at hlinked
  have hlt := (Array.getElem?_eq_some_iff.mp hkernel).1
  have hmem : kernel ∈ graph.kernels := Array.mem_of_getElem? hkernel
  have hkeep := (link_spec graph.kernels (successors s (closure s kernel))).1
  refine ⟨hlinked, ?_, ?_, link_nodup h.distinct, ?_⟩
  · have hsize := size_link graph.kernels (successors s (closure s kernel))
    simp only [explored, Array.size_push]
    omega
  · intro K hK
    rcases mem_link hK with hold | ⟨x, hx⟩
    · exact h.kernel K hold
    · exact (h.kernel kernel hmem).successor hx
  · intro p K hp hK x K' hlookup
    simp only [explored, Array.size_push] at hp
    by_cases hnew : p = graph.moves.size
    · subst hnew
      obtain rfl : K = kernel := Option.some.inj (hK.symm.trans (hkeep _ _ hkernel))
      obtain ⟨q, hq, hK'⟩ := lookup_link graph.kernels hlookup
      refine ⟨q, ?_, hK'⟩
      simpa [explored, Graph.target?, Array.getD_eq_getD_getElem?] using hq
    · have hold : p < graph.moves.size := by omega
      have hK₀ : graph.kernels[p]? = some K := by
        have hsome : p < graph.kernels.size := by omega
        have hsame := hkeep p _ (Array.getElem?_eq_getElem hsome)
        rw [Array.getElem?_eq_getElem hsome]
        exact hsame.symm.trans hK
      obtain ⟨q, hq, hK'⟩ := h.entered p K hold hK₀ x K' hlookup
      refine ⟨q, ?_, hkeep _ _ hK'⟩
      simpa [explored, Graph.target?, Array.getD_eq_getD_getElem?, Array.getElem?_push, hnew]
        using hq

theorem explore_explored (h : graph.Explored s)
    (hfuel : 2 ^ (allItems s).length ≤ graph.moves.size + fuel) :
    (explore s fuel graph).Explored s ∧
      (explore s fuel graph).kernels.size = (explore s fuel graph).moves.size := by
  induction fuel generalizing graph with
  | zero =>
    have hbound := h.kernels_le
    have hsize := h.size_le
    exact ⟨h, by rw [explore]; omega⟩
  | succ fuel ih =>
    cases hkernel : graph.kernels[graph.moves.size]? with
    | none =>
      have hsize := h.size_le
      have hend := Array.getElem?_eq_none_iff.mp hkernel
      have hstop : explore s (fuel + 1) graph = graph := by rw [explore, hkernel]
      rw [hstop]
      exact ⟨h, by omega⟩
    | some kernel =>
      rw [explore_some hkernel]
      refine ih (h.next hkernel) ?_
      simp only [explored, Array.size_push]
      omega

end

/-- Every state of the graph is explored. -/
theorem graph_explored (hsize : 0 < s.shapes.size) :
    (graph s).Explored s ∧ (graph s).kernels.size = (graph s).moves.size := by
  have hstart : (Graph.mk #[[⟨s.ruleCount, 0⟩]] #[]).Linked s :=
    ⟨rfl, fun p x q hmove => by simp at hmove⟩
  refine explore_explored ⟨hstart, by simp, ?_, by simp, ?_⟩ (by simp)
  · intro K hK
    obtain rfl : K = [⟨s.ruleCount, 0⟩] := by simpa using hK
    refine ⟨List.pairwise_singleton _ _, List.nodup_singleton _, ?_, ?_⟩
    · intro i hi
      obtain rfl := List.mem_singleton.mp hi
      exact mem_allItems.mpr ⟨Nat.sub_lt hsize Nat.one_pos, Nat.zero_le _⟩
    · intro i hi hrule
      obtain rfl := List.mem_singleton.mp hi
      exact absurd hrule (Nat.lt_irrefl _)
  · intro p K hp
    simp at hp

end Automaton

open Automaton

variable {α : Type} {g : Grammar α} {p q r k : Nat} {x : Symbol}

/-- A category that can stand first where another one is expected. -/
abbrev Starts (g : Grammar α) : Category → Category → Prop :=
  Relation.ReflTransGen fun c d => ∃ rule ∈ g.rules, rule.head = c ∧
    rule.body.head? = some (.cat d)

/-- The body of the rule with a number. The rule after the last one is that of the whole
input. -/
def bodyOf (g : Grammar α) (r : Nat) : List Symbol :=
  match g.rules[r]? with
  | some rule => rule.body
  | none => [.cat g.start]

def IsState (g : Grammar α) (p : Nat) : Prop := p < (graph (sketch g)).kernels.size

/-- A symbol leads from one state to another. -/
def Goto (g : Grammar α) (p : Nat) (x : Symbol) (q : Nat) : Prop :=
  (graph (sketch g)).target? p x.code = some q

/-- In a state, so many symbols of the rule with a number may have been read. -/
def Has (g : Grammar α) (p r k : Nat) : Prop :=
  ⟨r, k⟩ ∈ itemsAt (sketch g) (graph (sketch g)) p

theorem bodyOf_eq (h : g.rules[r]? = some rule) : bodyOf g r = rule.body := by
  rw [bodyOf, h]

theorem ruleCount_sketch (g : Grammar α) : (sketch g).ruleCount = g.rules.length := by
  simp [sketch, Sketch.ruleCount, shapes]

theorem shapes_size (g : Grammar α) : (sketch g).shapes.size = g.rules.length + 1 := by
  simp [sketch, shapes]

theorem shape_body (hr : r ≤ g.rules.length) :
    ((sketch g).shape r).body = (bodyOf g r).map Symbol.code := by
  by_cases hlt : r < g.rules.length
  · have hrule := List.getElem?_eq_getElem hlt
    rw [shape_sketch hrule, bodyOf_eq hrule]
  · obtain rfl : r = g.rules.length := by omega
    have hstart := shape_start g
    rw [ruleCount_sketch] at hstart
    rw [hstart, bodyOf, List.getElem?_eq_none (Nat.le_refl _)]
    rfl

theorem shape_head (h : g.rules[r]? = some rule) :
    ((sketch g).shape r).head = (Symbol.cat rule.head).code := by
  rw [shape_sketch h]

@[simp] theorem isCategory_cat (c : Category) : isCategory (Symbol.cat c).code = true := by
  have hlow : Symbol.endCode < Symbol.endCode + 1 + c.ctorIdx := by omega
  exact decide_eq_true hlow

@[simp] theorem isCategory_tok (t : Terminal) : isCategory (Symbol.tok t).code = false := by
  have hlow := Symbol.code_lt_endCode t
  simp only [isCategory, decide_eq_false_iff_not]
  omega

theorem isCategory_code (h : isCategory x.code = true) : ∃ c, x = .cat c := by
  cases x with
  | tok t => simp at h
  | cat c => exact ⟨c, rfl⟩

theorem nextSymbol?_sketch (hr : r ≤ g.rules.length) :
    nextSymbol? (sketch g) ⟨r, k⟩ = (bodyOf g r)[k]?.map Symbol.code := by
  rw [nextSymbol?, shape_body hr, List.getElem?_map]

theorem mem_firsts :
    d ∈ firsts (sketch g) (Symbol.cat c).code ↔
      ∃ e, d = (Symbol.cat e).code ∧ ∃ rule ∈ g.rules, rule.head = c ∧
        rule.body.head? = some (.cat e) := by
  simp only [firsts, List.mem_filterMap, mem_rulesOf, ruleCount_sketch]
  constructor
  · rintro ⟨r, ⟨hr, hhead⟩, hfirst⟩
    have hrule := List.getElem?_eq_getElem hr
    rw [shape_head hrule] at hhead
    rw [shape_body (Nat.le_of_lt hr), bodyOf_eq hrule] at hfirst
    obtain rfl := Symbol.cat.inj (Symbol.code_injective hhead)
    cases hbody : g.rules[r].body with
    | nil => simp [hbody] at hfirst
    | cons x rest =>
      simp only [hbody, List.map_cons] at hfirst
      split at hfirst
      · rename_i hcategory
        obtain ⟨e, rfl⟩ := isCategory_code hcategory
        obtain rfl := Option.some.inj hfirst
        exact ⟨e, rfl, _, List.getElem_mem hr, rfl, by rw [hbody]; rfl⟩
      · cases hfirst
  · rintro ⟨e, rfl, rule, hmem, rfl, hbody⟩
    obtain ⟨r, hr⟩ := List.mem_iff_getElem?.mp hmem
    have hlt := (List.getElem?_eq_some_iff.mp hr).1
    refine ⟨r, ⟨hlt, shape_head hr⟩, ?_⟩
    rw [shape_body (Nat.le_of_lt hlt), bodyOf_eq hr]
    cases hlist : rule.body with
    | nil => simp [hlist] at hbody
    | cons x rest =>
      obtain rfl : x = .cat e := by simpa [hlist] using hbody
      simp

theorem begins_iff :
    Begins (sketch g) (Symbol.cat c).code d ↔ ∃ e, d = (Symbol.cat e).code ∧ g.Starts c e := by
  constructor
  · intro h
    induction h with
    | refl => exact ⟨c, rfl, .refl⟩
    | tail _ hfirst ih =>
      obtain ⟨e, rfl, hstarts⟩ := ih
      obtain ⟨e', rfl, hrule⟩ := mem_firsts.mp hfirst
      exact ⟨e', rfl, hstarts.tail hrule⟩
  · rintro ⟨e, rfl, hstarts⟩
    induction hstarts with
    | refl => exact .refl
    | tail _ hrule ih => exact ih.tail (mem_firsts.mpr ⟨_, rfl, hrule⟩)

theorem begins_head (h : g.rules[r]? = some rule) :
    Begins (sketch g) (Symbol.cat c).code ((sketch g).shape r).head ↔ g.Starts c rule.head := by
  rw [begins_iff, shape_head h]
  constructor
  · rintro ⟨e, hcode, hstarts⟩
    obtain rfl := Symbol.cat.inj (Symbol.code_injective hcode)
    exact hstarts
  · exact fun hstarts => ⟨_, rfl, hstarts⟩

theorem graph_complete (g : Grammar α) : (graph (sketch g)).Explored (sketch g) ∧
    (graph (sketch g)).kernels.size = (graph (sketch g)).moves.size :=
  graph_explored (by rw [shapes_size]; omega)

theorem IsState.exists_kernel (h : IsState g p) : ∃ K, (graph (sketch g)).kernels[p]? = some K ∧
    Kernel (sketch g) K ∧ itemsAt (sketch g) (graph (sketch g)) p = closure (sketch g) K := by
  have hK := Array.getElem?_eq_getElem h
  exact ⟨_, hK, (graph_complete g).1.kernel _ (Array.getElem_mem h), itemsAt_eq hK⟩

theorem Has.isState (h : Has g p r k) : IsState g p := by
  by_contra hout
  have hnone : (graph (sketch g)).kernels[p]? = none :=
    Array.getElem?_eq_none (Nat.le_of_not_lt hout)
  rw [Has, itemsAt, Array.getD_eq_getD_getElem?, hnone] at h
  rcases mem_closure_iff.mp h with h | ⟨-, -, j, hj, -⟩
  · cases h
  · cases hj

theorem Has.rule_le (h : Has g p r k) : r ≤ g.rules.length := by
  obtain ⟨K, -, hkernel, hitems⟩ := h.isState.exists_kernel
  rw [Has, hitems] at h
  have hvalid := (mem_allItems.mp (hkernel.closure_valid _ h)).1
  rw [shapes_size] at hvalid
  exact Nat.lt_succ_iff.mp hvalid

theorem Has.next_iff (h : Has g p r k) :
    nextSymbol? (sketch g) ⟨r, k⟩ = some x.code ↔ (bodyOf g r)[k]? = some x := by
  rw [nextSymbol?_sketch h.rule_le, Option.map_eq_some_iff]
  simp [Symbol.code_injective.eq_iff]

/-- A symbol that is expected leads to a state. -/
theorem exists_goto (hitem : Has g p r k) (hx : (bodyOf g r)[k]? = some x) : ∃ q, Goto g p x q := by
  obtain ⟨K, hK, -, hitems⟩ := hitem.isState.exists_kernel
  obtain ⟨hexplored, hsize⟩ := graph_complete g
  have hp : p < (graph (sketch g)).moves.size := hsize ▸ hitem.isState
  have hmem := hitem
  rw [Has, hitems] at hmem
  have hadvance : (⟨r, k + 1⟩ : Item) ∈
      (closure (sketch g) K).filterMap (advance? (sketch g) x.code) := by
    exact List.mem_filterMap.mpr ⟨_, hmem, advance?_eq_some.mpr ⟨hitem.next_iff.mpr hx, rfl⟩⟩
  obtain ⟨K', hlookup⟩ : ∃ K', (successors (sketch g) (closure (sketch g) K)).lookup x.code =
      some K' := by
    rw [lookup_successors, if_neg (List.ne_nil_of_mem hadvance)]
    exact ⟨_, rfl⟩
  obtain ⟨q, hq, -⟩ := hexplored.entered p K hp hK _ _ hlookup
  exact ⟨q, hq⟩

/-- The kernel of a state that is entered by a symbol. -/
theorem Goto.kernel (h : Goto g p x q) :
    ∃ K, itemsAt (sketch g) (graph (sketch g)) q = closure (sketch g) K ∧
      ∀ i, i ∈ K ↔ ∃ r k, i = ⟨r, k + 1⟩ ∧ Has g p r k ∧ (bodyOf g r)[k]? = some x := by
  obtain ⟨K, hK, -, hmem⟩ := (graph_linked (sketch g)).entry (Machine.mem_of_lookup h)
  refine ⟨K, hK, fun i => (hmem i).trans ?_⟩
  constructor
  · rintro ⟨⟨r, k⟩, hitem, hsymbol, rfl⟩
    exact ⟨r, k, rfl, hitem, (Has.next_iff hitem).mp hsymbol⟩
  · rintro ⟨r, k, rfl, hitem, hx⟩
    exact ⟨⟨r, k⟩, hitem, hitem.next_iff.mpr hx, rfl⟩

/-- What has been read of a rule in a state had been read before it, up to the symbol that
leads here. -/
theorem Goto.has_succ (h : Goto g p x q) :
    Has g q r (k + 1) ↔ Has g p r k ∧ (bodyOf g r)[k]? = some x := by
  obtain ⟨K, hK, hmem⟩ := h.kernel
  rw [Has, hK, mem_closure_iff, hmem]
  constructor
  · rintro (⟨r', k', heq, hitem⟩ | ⟨hdot, -⟩)
    · obtain ⟨rfl, hk⟩ := Item.mk.inj heq
      obtain rfl := Nat.succ.inj hk
      exact hitem
    · cases hdot
  · rintro hitem
    exact .inl ⟨r, k, rfl, hitem⟩

/-- The rules that begin in a state are those of the categories that can stand first where one
is expected. -/
theorem Goto.has_zero (h : Goto g p x q) : Has g q r 0 ↔ ∃ rule, g.rules[r]? = some rule ∧
    ∃ r' k' c, Has g q r' (k' + 1) ∧ (bodyOf g r')[k' + 1]? = some (.cat c) ∧
      g.Starts c rule.head := by
  obtain ⟨K, hK, hmem⟩ := h.kernel
  rw [Has, hK, mem_closure_iff, hmem, ruleCount_sketch]
  constructor
  · rintro (⟨r', k', heq, -⟩ | ⟨-, hr, j, hj, c, hnext, hcategory, hbegins⟩)
    · cases (Item.mk.inj heq).2
    · have hrule := List.getElem?_eq_getElem hr
      obtain ⟨r', k', rfl, hitem, hx⟩ := (hmem j).mp hj
      rw [nextSymbol?_sketch hitem.rule_le] at hnext
      obtain ⟨y, hy, rfl⟩ := Option.map_eq_some_iff.mp hnext
      obtain ⟨c, rfl⟩ := isCategory_code hcategory
      exact ⟨_, hrule, r', k', c, h.has_succ.mpr ⟨hitem, hx⟩, hy, (begins_head hrule).mp hbegins⟩
  · rintro ⟨rule, hrule, r', k', c, hitem, hnext, hstarts⟩
    obtain ⟨hbefore, hx⟩ := h.has_succ.mp hitem
    exact .inr ⟨rfl, (List.getElem?_eq_some_iff.mp hrule).1, ⟨r', k' + 1⟩,
      (hmem _).mpr ⟨r', k', rfl, hbefore, hx⟩, (Symbol.cat c).code, hitem.next_iff.mpr hnext,
      isCategory_cat c, (begins_head hrule).mpr hstarts⟩

/-- In the initial state the whole input is expected. -/
theorem has_start : Has g 0 r k ↔ k = 0 ∧ (r = g.rules.length ∨
    ∃ rule, g.rules[r]? = some rule ∧ g.Starts g.start rule.head) := by
  have hitems : itemsAt (sketch g) (graph (sketch g)) 0 =
      closure (sketch g) [⟨g.rules.length, 0⟩] := by
    rw [itemsAt_eq (graph_linked (sketch g)).start, ruleCount_sketch]
  have hnext : nextSymbol? (sketch g) ⟨g.rules.length, 0⟩ = some (Symbol.cat g.start).code := by
    rw [nextSymbol?_sketch (Nat.le_refl _), bodyOf, List.getElem?_eq_none (Nat.le_refl _)]
    rfl
  rw [Has, hitems, mem_closure_iff, ruleCount_sketch]
  simp only [List.mem_singleton, Item.mk.injEq, exists_eq_left, hnext, Option.some.injEq]
  constructor
  · rintro (⟨rfl, rfl⟩ | ⟨rfl, hr, c, rfl, -, hbegins⟩)
    · exact ⟨rfl, .inl rfl⟩
    · have hrule := List.getElem?_eq_getElem hr
      exact ⟨rfl, .inr ⟨_, hrule, (begins_head hrule).mp hbegins⟩⟩
  · rintro ⟨rfl, rfl | ⟨rule, hrule, hstarts⟩⟩
    · exact .inl ⟨rfl, rfl⟩
    · exact .inr ⟨rfl, (List.getElem?_eq_some_iff.mp hrule).1, _, rfl, isCategory_cat _,
        (begins_head hrule).mpr hstarts⟩

end BlockScript.Grammar
