import BlockScript.Proofs.Exploration
import Mathlib.Data.Finset.Range

/-!
What can follow a category. A terminal that can be read after a category can follow it, and what
can follow the head of a rule can follow the category at the end of its body. The sets of
terminals flow along these relations until nothing changes: for every terminal the places that
it has reached grow with each pass or are complete, so there are enough passes. A reduction is
then offered on every terminal that can follow it.
-/
namespace BlockScript.Grammar

/-- What one step of a fold establishes, given an invariant, and every step keeps holds in the
end. -/
theorem foldl_establishes {β γ : Type} {Q P : β → Prop} {f : β → γ → β} {items : List γ} {a : γ}
    {start : β} (hstart : Q start) (hinvariant : ∀ b, ∀ c ∈ items, Q b → Q (f b c))
    (hkeep : ∀ b, ∀ c ∈ items, Q b → P b → P (f b c)) (ha : a ∈ items)
    (hadd : ∀ b, Q b → P (f b a)) : P (items.foldl f start) := by
  induction items generalizing start with
  | nil => cases ha
  | cons c rest ih =>
    obtain ⟨hfirst, hrest⟩ := List.forall_mem_cons.mp fun c hc b => hinvariant b c hc
    obtain ⟨-, hkept⟩ := List.forall_mem_cons.mp fun c hc b => hkeep b c hc
    rcases List.mem_cons.mp ha with rfl | ha
    · have hend := List.foldlRecOn (motive := fun b => Q b ∧ P b) rest f
        ⟨hfirst start hstart, hadd start hstart⟩
        fun b hb c hc => ⟨hrest c hc b hb.1, hkept c hc b hb.1 hb.2⟩
      exact hend.2
    · exact ih (hfirst start hstart) (fun b c hc => hrest c hc b) (fun b c hc => hkept c hc b) ha

namespace Automaton

section

variable {edges : Edges} {sets : Array Nat} {i j b fuel : Nat}

/-- A set among others has a member. -/
def Reaches (sets : Array Nat) (b i : Nat) : Prop := (sets.getD i 0).testBit b = true

instance : DecidablePred (Reaches sets b) :=
  fun i => inferInstanceAs (Decidable ((sets.getD i 0).testBit b = true))

theorem reaches_modify : Reaches (sets.modify i (· ||| v)) b j ↔
    Reaches sets b j ∨ i = j ∧ j < sets.size ∧ v.testBit b = true := by
  unfold Reaches
  rw [Array.getD_eq_getD_getElem?, Array.getD_eq_getD_getElem?, Array.getElem?_modify]
  by_cases hij : i = j
  · by_cases hj : j < sets.size
    all_goals simp [hij, hj]
  · simp [hij]

/-- Lets one set flow into another. -/
def pour (sets : Array Nat) (e : Nat × Nat) : Array Nat :=
  sets.modify e.1 (· ||| sets.getD e.2 0)

theorem reaches_pour : Reaches (pour sets e) b j ↔
    Reaches sets b j ∨ e.1 = j ∧ j < sets.size ∧ Reaches sets b e.2 := reaches_modify

theorem flowPass_eq : flowPass edges sets = edges.foldl pour sets := rfl

theorem size_pour (sets : Array Nat) (e : Nat × Nat) : (pour sets e).size = sets.size :=
  Array.size_modify

theorem size_flowPass : (flowPass edges sets).size = sets.size := by
  refine List.foldlRecOn (motive := fun found => found.size = sets.size) edges pour rfl ?_
  intro found hfound e _
  rw [size_pour, hfound]

theorem Reaches.pour (h : Reaches sets b i) (e : Nat × Nat) :
    Reaches (Automaton.pour sets e) b i := reaches_pour.mpr (.inl h)

theorem Reaches.flowPass (h : Reaches sets b i) : Reaches (flowPass edges sets) b i :=
  List.foldlRecOn (motive := fun found => Reaches found b i) edges Automaton.pour h
    fun _ hfound e _ => hfound.pour e

/-- A pass reaches the ends of all edges. -/
theorem Reaches.along (h : Reaches sets b j) (hedge : (i, j) ∈ edges) (hi : i < sets.size) :
    Reaches (Automaton.flowPass edges sets) b i := by
  rw [flowPass_eq]
  refine foldl_establishes (Q := fun found => found.size = sets.size ∧ Reaches found b j)
    (P := fun found => Reaches found b i) ⟨rfl, h⟩ ?_ ?_ hedge ?_
  · rintro found e - ⟨hsize, hj⟩
    exact ⟨by rw [size_pour, hsize], hj.pour e⟩
  · intro found e _ _ hfound
    exact hfound.pour e
  · rintro found ⟨hsize, hj⟩
    exact reaches_pour.mpr (.inr ⟨rfl, by omega, hj⟩)

/-- The places that a member has reached are closed under the edges. -/
def Settled (edges : Edges) (sets : Array Nat) (b : Nat) : Prop :=
  ∀ i j, (i, j) ∈ edges → i < sets.size → Reaches sets b j → Reaches sets b i

theorem Settled.reaches_flowPass (h : Settled edges sets b) :
    Reaches (flowPass edges sets) b i ↔ Reaches sets b i := by
  refine ⟨fun hpass => ?_, Reaches.flowPass⟩
  have hinside : ∀ found : Array Nat, (found.size = sets.size ∧
      ∀ i, Reaches found b i → Reaches sets b i) → ∀ e ∈ edges,
      (Automaton.pour found e).size = sets.size ∧
        ∀ i, Reaches (Automaton.pour found e) b i → Reaches sets b i := by
    rintro found ⟨hsize, hfound⟩ ⟨i, j⟩ he
    refine ⟨by rw [size_pour, hsize], fun k hk => ?_⟩
    rcases reaches_pour.mp hk with hold | ⟨rfl, hlt, hj⟩
    · exact hfound k hold
    · exact h i j he (by omega) (hfound j hj)
  have hend := List.foldlRecOn (motive := fun found => found.size = sets.size ∧
    ∀ i, Reaches found b i → Reaches sets b i) edges Automaton.pour ⟨rfl, fun _ hi => hi⟩ hinside
  exact hend.2 i hpass

theorem Settled.flowPass (h : Settled edges sets b) : Settled edges (flowPass edges sets) b := by
  intro i j hedge hi hj
  rw [size_flowPass] at hi
  rw [h.reaches_flowPass] at hj ⊢
  exact h i j hedge hi hj

theorem Settled.flow (h : Settled edges sets b) : Settled edges (flow edges fuel sets) b := by
  induction fuel generalizing sets with
  | zero => exact h
  | succ fuel ih =>
    rw [Automaton.flow]
    split
    · exact h
    · exact ih h.flowPass

/-- The places that a member has reached. -/
def reached (sets : Array Nat) (b : Nat) : Finset Nat :=
  (Finset.range sets.size).filter (Reaches sets b)

theorem mem_reached : i ∈ reached sets b ↔ Reaches sets b i := by
  simp only [reached, Finset.mem_filter, Finset.mem_range, and_iff_right_iff_imp]
  intro h
  by_contra hout
  simp [Reaches, Array.getD_eq_getD_getElem?, Array.getElem?_eq_none (Nat.le_of_not_lt hout)] at h

/-- A pass after which a member has reached no more places finds them settled. -/
theorem settled_of_card_le (h : (reached (flowPass edges sets) b).card ≤ (reached sets b).card) :
    Settled edges sets b := by
  have hsub : reached sets b ⊆ reached (flowPass edges sets) b := by
    intro i hi
    rw [mem_reached] at hi ⊢
    exact hi.flowPass
  have hsame := Finset.eq_of_subset_of_card_le hsub h
  intro i j hedge hi hj
  have hpass := hj.along hedge hi
  rw [← mem_reached, ← hsame, mem_reached] at hpass
  exact hpass

/-- With as many passes as there are places, and one more, all members settle. -/
theorem flow_settled (h : sets.size < (reached sets b).card + fuel) :
    Settled edges (flow edges fuel sets) b := by
  induction fuel generalizing sets with
  | zero =>
    have hcard : (reached sets b).card ≤ sets.size := by
      refine (Finset.card_filter_le _ _).trans ?_
      rw [Finset.card_range]
    omega
  | succ fuel ih =>
    by_cases hmore : (reached (flowPass edges sets) b).card ≤ (reached sets b).card
    · exact (settled_of_card_le hmore).flow
    · rw [flow]
      split
      · rename_i hstop
        rw [eq_of_beq hstop] at hmore
        exact absurd (Nat.le_refl _) hmore
      · refine ih ?_
        rw [size_flowPass]
        omega

theorem Reaches.flow (h : Reaches sets b i) : Reaches (flow edges fuel sets) b i := by
  induction fuel generalizing sets with
  | zero => exact h
  | succ fuel ih =>
    rw [Automaton.flow]
    split
    · exact h
    · exact ih h.flowPass

theorem size_flow : (flow edges fuel sets).size = sets.size := by
  induction fuel generalizing sets with
  | zero => rfl
  | succ fuel ih =>
    rw [flow]
    split
    · rfl
    · rw [ih, size_flowPass]

end

section

variable {s : Sketch} {graph : Graph} {all : Array Transition} {p q c i m : Nat}

theorem lt_of_target? (h : graph.target? p x = some q) : p < graph.moves.size := by
  by_contra hout
  rw [Graph.target?, Array.getD_eq_getD_getElem?,
    Array.getElem?_eq_none (Nat.le_of_not_lt hout)] at h
  cases h

theorem mem_transitions (h : graph.target? p c = some q) (hc : isCategory c = true) :
    (p, c) ∈ transitions graph := by
  refine List.mem_flatMap.mpr ⟨p, List.mem_range.mpr (lt_of_target? h), ?_⟩
  refine List.mem_map.mpr ⟨(c, q), List.mem_filter.mpr ⟨Machine.mem_of_lookup h, hc⟩, rfl⟩

theorem getD_modify {β : Type} {table : Array (List β)} {f : List β → List β} :
    (table.modify p f).getD q [] =
      if p = q ∧ p < table.size then f (table.getD q []) else table.getD q [] := by
  simp only [Array.getD_eq_getD_getElem?, Array.getElem?_modify]
  by_cases hpq : p = q
  · subst hpq
    by_cases hp : p < table.size
    all_goals simp [hp]
  · simp [hpq]

/-- Files the number of a transition under its state. -/
def fileTransition (all : Array Transition) (table : Array (List (Nat × Nat))) (i : Nat) :
    Array (List (Nat × Nat)) :=
  match all[i]? with
  | some (p, c) => table.modify p ((c, i) :: ·)
  | none => table

theorem transitionIndex_eq : transitionIndex graph all =
    (List.range all.size).foldl (fileTransition all)
      (Array.replicate graph.moves.size []) := rfl

theorem size_fileTransition (table : Array (List (Nat × Nat))) (i : Nat) :
    (fileTransition all table i).size = table.size := by
  unfold fileTransition
  split
  · exact Array.size_modify
  · rfl

variable {index table : Array (List (Nat × Nat))} {empty : List Nat} {w : Walk}

/-- The number under which a transition was filed last, if it was filed. -/
theorem indexOf_fileTransition (hp : p < table.size) :
    indexOf? (fileTransition all table i) (p, c) =
      if all[i]? = some (p, c) then some i else indexOf? table (p, c) := by
  unfold fileTransition
  cases hi : all[i]? with
  | none => simp
  | some t =>
    obtain ⟨p', c'⟩ := t
    simp only [indexOf?, getD_modify]
    by_cases hp' : p' = p
    · subst hp'
      rw [if_pos ⟨rfl, hp⟩, lookup_cons_eq]
      by_cases hc : c = c'
      · simp [hc]
      · simp [hc, Ne.symm hc]
    · rw [if_neg fun h => hp' h.1, if_neg (by simp [hp'])]

/-- Every transition has a number. -/
theorem exists_indexOf (hall : (p, c) ∈ all) (hp : p < graph.moves.size) :
    ∃ i, indexOf? (transitionIndex graph all) (p, c) = some i ∧ all[i]? = some (p, c) := by
  obtain ⟨i, hi, heq⟩ := Array.mem_iff_getElem.mp hall
  have hi' : all[i]? = some (p, c) := by rw [Array.getElem?_eq_getElem hi, heq]
  rw [transitionIndex_eq]
  refine foldl_establishes (Q := fun table => table.size = graph.moves.size)
    (P := fun table => ∃ i, indexOf? table (p, c) = some i ∧ all[i]? = some (p, c))
    Array.size_replicate ?_ ?_ (List.mem_range.mpr hi) ?_
  · intro table j _ hsize
    rw [size_fileTransition, hsize]
  · rintro table j - hsize ⟨i, hindex, hi⟩
    rw [indexOf_fileTransition (hsize ▸ hp)]
    by_cases hj : all[j]? = some (p, c)
    · exact ⟨j, if_pos hj, hj⟩
    · exact ⟨i, by rw [if_neg hj, hindex], hi⟩
  · intro table hsize
    rw [indexOf_fileTransition (hsize ▸ hp)]
    exact ⟨i, if_pos hi', hi'⟩

theorem testBit_foldl_or {values : List Nat} {a b : Nat} :
    (values.foldl (· ||| ·) a).testBit b = true ↔
      a.testBit b = true ∨ ∃ v ∈ values, v.testBit b = true := by
  induction values generalizing a with
  | nil => simp
  | cons v rest ih =>
    rw [List.foldl_cons, ih, Nat.testBit_or, Bool.or_eq_true, List.exists_mem_cons_iff, or_assoc]

theorem testBit_bit (code : Nat) : (bit code).testBit code = true := by
  rw [bit, Nat.one_shiftLeft, Nat.testBit_two_pow_self]

/-- A terminal that leads on from where a category leads is read right after it. -/
theorem directlyRead_terminal {t q' : Nat} (h : graph.target? p c = some q)
    (hread : graph.target? q t = some q') (ht : isCategory t = false) :
    (directlyRead s graph (p, c)).testBit t = true := by
  simp only [directlyRead, h]
  refine testBit_foldl_or.mpr (.inr ⟨bit t, ?_, testBit_bit t⟩)
  refine List.mem_map.mpr ⟨(t, q'), List.mem_filter.mpr ⟨Machine.mem_of_lookup hread, ?_⟩, rfl⟩
  simp [ht]

/-- The end of the input can come right after the start category. -/
theorem directlyRead_end (h : graph.target? 0 c = some q)
    (hstart : (s.shape s.ruleCount).body = [c]) :
    (directlyRead s graph (0, c)).testBit Symbol.endCode = true := by
  simp only [directlyRead, h, hstart]
  refine testBit_foldl_or.mpr (.inl ?_)
  simp [testBit_bit]

/-- Relates a transition to a rule that is read from its state. -/
def relate (s : Sketch) (graph : Graph) (index : Array (List (Nat × Nat))) (empty : List Nat)
    (p i : Nat) (rel : Relations) (r : Nat) : Relations :=
  match walk graph empty p (s.shape r).body with
  | none => rel
  | some w =>
    ⟨(w.openings.filterMap (indexOf? index)).map (·, i) ++ rel.includes,
      ⟨w.last, r, i⟩ :: rel.lookbacks⟩

/-- What the relations say about a rule that is read from a state. -/
structure Related (index : Array (List (Nat × Nat))) (i r : Nat) (w : Walk) (rel : Relations) :
    Prop where
  lookback : ⟨w.last, r, i⟩ ∈ rel.lookbacks
  includes : ∀ t ∈ w.openings, ∀ j, indexOf? index t = some j → (j, i) ∈ rel.includes

theorem Related.relate (h : Related index i r w rel) :
    Related index i r w (Automaton.relate s graph index empty p i' rel r') := by
  unfold Automaton.relate
  split
  · exact h
  · exact ⟨List.mem_cons_of_mem _ h.lookback,
      fun t ht j hj => List.mem_append_right _ (h.includes t ht j hj)⟩

theorem related_relate (hw : walk graph empty p (s.shape r).body = some w) (rel : Relations) :
    Related index i r w (relate s graph index empty p i rel r) := by
  rw [relate, hw]
  refine ⟨List.mem_cons_self, fun t ht j hj => List.mem_append_left _ ?_⟩
  exact List.mem_map.mpr ⟨j, List.mem_filterMap.mpr ⟨t, ht, hj⟩, rfl⟩

/-- Every rule of a category is related to the transitions on it. -/
theorem related_relations {r : Nat} (hi : all[i]? = some (p, c)) (hr : r ∈ rulesOf s c)
    (hw : walk graph empty p (s.shape r).body = some w) :
    Related index i r w (relations s graph all index empty) := by
  have hlt := (Array.getElem?_eq_some_iff.mp hi).1
  refine foldl_establishes (Q := fun _ => True) (P := Related index i r w) trivial
    (fun _ _ _ _ => trivial) ?_ (List.mem_range.mpr hlt) ?_
  · intro rel j _ _ h
    split
    · exact h
    · exact List.foldlRecOn (motive := Related index i r w) _ (relate s graph index empty _ j) h
        fun _ h _ _ => h.relate
  · intro rel _
    rw [hi]
    exact foldl_establishes (Q := fun _ => True) (P := Related index i r w)
      (f := relate s graph index empty p i) trivial (fun _ _ _ _ => trivial)
      (fun _ _ _ _ h => h.relate) hr fun rel _ => related_relate hw rel

theorem lookup_replace {β : Type} {entries : List (Nat × β)} {x y : Nat} {b : β} :
    (entries.map fun e => if e.1 == x then (x, b) else e).lookup y =
      if y = x then (entries.lookup x).map fun _ => b else entries.lookup y := by
  induction entries with
  | nil => simp
  | cons entry rest ih =>
    obtain ⟨z, first⟩ := entry
    rw [List.map_cons]
    by_cases hz : z = x
    · subst hz
      rw [if_pos (beq_self_eq_true z), lookup_cons_eq, ih, lookup_cons_eq, lookup_cons_eq,
        if_pos rfl]
      by_cases hy : y = z
      all_goals simp [hy]
    · rw [if_neg (by simpa using hz), lookup_cons_eq, ih, lookup_cons_eq, lookup_cons_eq,
        if_neg (Ne.symm hz)]
      by_cases hy : y = z
      · rw [if_pos hy, if_pos hy, if_neg (hy ▸ hz)]
      · rw [if_neg hy, if_neg hy]

/-- Adds terminals to those on which a rule is offered. -/
def widen (set rule : Nat) (row : List (Nat × Nat)) : List (Nat × Nat) :=
  match row.lookup rule with
  | some old => row.map fun e => if e.1 == rule then (rule, old ||| set) else e
  | none => (rule, set) :: row

theorem lookup_widen {set rule r : Nat} {row : List (Nat × Nat)} : (widen set rule row).lookup r =
    if r = rule then some ((row.lookup rule).getD 0 ||| set) else row.lookup r := by
  unfold widen
  cases hrow : row.lookup rule with
  | none =>
    rw [lookup_cons_eq, Option.getD_none, Nat.zero_or]
  | some old =>
    simp only [lookup_replace, hrow, Option.map_some, Option.getD_some]

/-- A rule is offered in a state on a terminal. -/
def OffersIn (table : Array (List (Nat × Nat))) (q r b : Nat) : Prop :=
  ∃ set, (table.getD q []).lookup r = some set ∧ set.testBit b = true

/-- Offers a rule on what can follow it. -/
def offer (follow : Array Nat) (table : Array (List (Nat × Nat))) (l : Lookback) :
    Array (List (Nat × Nat)) :=
  table.modify l.state (widen (follow.getD l.transition 0) l.rule)

theorem OffersIn.offer {follow : Array Nat} {r b : Nat} (h : OffersIn table q r b) (l : Lookback) :
    OffersIn (Automaton.offer follow table l) q r b := by
  obtain ⟨set, hset, hbit⟩ := h
  unfold OffersIn Automaton.offer
  rw [getD_modify]
  by_cases hq : l.state = q ∧ l.state < table.size
  · rw [if_pos hq, lookup_widen]
    by_cases hr : r = l.rule
    · subst hr
      refine ⟨_, if_pos rfl, ?_⟩
      rw [hset, Option.getD_some, Nat.testBit_or, hbit, Bool.true_or]
    · exact ⟨set, by rw [if_neg hr, hset], hbit⟩
  · exact ⟨set, by rw [if_neg hq, hset], hbit⟩

theorem offersIn_offer {follow : Array Nat} {r b : Nat}
    (hq : q < table.size) (h : Reaches follow b i) : OffersIn (offer follow table ⟨q, r, i⟩) q r b := by
  unfold OffersIn offer
  rw [getD_modify, if_pos ⟨rfl, hq⟩, lookup_widen, if_pos rfl]
  exact ⟨_, rfl, by rw [Nat.testBit_or, h, Bool.or_true]⟩

end

def allTransitions (graph : Graph) : Array Transition := (transitions graph).toArray

def numbers (graph : Graph) : Array (List (Nat × Nat)) :=
  transitionIndex graph (allTransitions graph)

def related (s : Sketch) (graph : Graph) : Relations :=
  relations s graph (allTransitions graph) (numbers graph) (nullable s)

/-- The terminals that can follow each transition. -/
def followers (s : Sketch) (graph : Graph) : Array Nat :=
  flow (related s graph).includes ((allTransitions graph).size + 1)
    (flow (readEdges graph (allTransitions graph) (numbers graph) (nullable s))
      ((allTransitions graph).size + 1) ((allTransitions graph).map (directlyRead s graph)))

theorem reductions_eq (s : Sketch) (graph : Graph) : reductions s graph =
    (related s graph).lookbacks.foldl (offer (followers s graph))
      (Array.replicate graph.moves.size []) := rfl

end Automaton

open Automaton

variable {α : Type} {g : Grammar α} {p p' q q' r b : Nat} {c d : Category}

/-- Symbols lead from one state to another. -/
def Path (g : Grammar α) (p : Nat) : List Symbol → Nat → Prop
  | [], q => p = q
  | x :: xs, q => ∃ p', Goto g p x p' ∧ Path g p' xs q

/-- A terminal or the end of the input, by its code, can follow a category that is read in a
state. -/
def CanFollow (g : Grammar α) (p : Nat) (c : Category) (b : Nat) : Prop :=
  ∃ i, indexOf? (numbers (graph (sketch g))) (p, (Symbol.cat c).code) = some i ∧
    Reaches (followers (sketch g) (graph (sketch g))) b i

/-- The reduction of a rule is offered in a state on a terminal, by its code. -/
def Offers (g : Grammar α) (q r b : Nat) : Prop :=
  OffersIn (reductions (sketch g) (graph (sketch g))) q r b

theorem Goto.exists_number (h : Goto g p (.cat c) q) :
    ∃ i, indexOf? (numbers (graph (sketch g))) (p, (Symbol.cat c).code) = some i ∧
      (allTransitions (graph (sketch g)))[i]? = some (p, (Symbol.cat c).code) := by
  refine exists_indexOf ?_ (lt_of_target? h)
  exact List.mem_toArray.mpr (mem_transitions h (isCategory_cat c))

theorem canFollow_of_direct (h : Goto g p (.cat c) q)
    (hread : (directlyRead (sketch g) (graph (sketch g))
      (p, (Symbol.cat c).code)).testBit b = true) : CanFollow g p c b := by
  obtain ⟨i, hi, hall⟩ := h.exists_number
  refine ⟨i, hi, Reaches.flow (Reaches.flow ?_)⟩
  rw [Reaches, Array.getD_eq_getD_getElem?, Array.getElem?_map, hall]
  exact hread

/-- What can be read after a category can follow it. -/
theorem Goto.canFollow (h : Goto g p (.cat c) q) (hread : Goto g q (.tok t) q') :
    CanFollow g p c (Symbol.tok t).code :=
  canFollow_of_direct h (directlyRead_terminal h hread (isCategory_tok t))

/-- The end of the input can follow the whole input. -/
theorem Goto.canFollow_end (h : Goto g 0 (.cat g.start) q) : CanFollow g 0 g.start Symbol.endCode :=
  canFollow_of_direct h (directlyRead_end h (shape_start g))

theorem Goto.walk_cons (h : Goto g p x p') (hw : walk (graph (sketch g)) empty p' rest = some w) :
    walk (graph (sketch g)) empty p (x.code :: rest) =
      some (if isCategory x.code && rest.all empty.contains then
        ⟨(p, x.code) :: w.openings, w.last⟩ else w) := by
  have hnext : (graph (sketch g)).target? p x.code = some p' := h
  rw [walk, hnext, Option.bind_eq_bind, Option.bind_some, hw]
  rfl

theorem Path.exists_walk (h : Path g p xs q) (empty : List Nat) :
    ∃ w, walk (graph (sketch g)) empty p (xs.map Symbol.code) = some w ∧ w.last = q := by
  induction xs generalizing p with
  | nil => exact ⟨⟨[], p⟩, rfl, h⟩
  | cons x xs ih =>
    obtain ⟨p', hgoto, hrest⟩ := h
    obtain ⟨w, hw, hlast⟩ := ih hrest
    refine ⟨_, hgoto.walk_cons hw, ?_⟩
    split <;> exact hlast

/-- The category at the end of a body is an opening to what can follow the rule. -/
theorem Path.exists_opening (h : Path g p xs p') (hgoto : Goto g p' (.cat d) q) (empty : List Nat) :
    ∃ w, walk (graph (sketch g)) empty p ((xs ++ [Symbol.cat d]).map Symbol.code) = some w ∧
      (p', (Symbol.cat d).code) ∈ w.openings := by
  induction xs generalizing p with
  | nil =>
    obtain rfl : p = p' := h
    exact ⟨_, hgoto.walk_cons (w := ⟨[], q⟩) rfl, by simp⟩
  | cons x xs ih =>
    obtain ⟨p₁, hstep, hrest⟩ := h
    obtain ⟨w, hw, hopening⟩ := ih hrest
    refine ⟨_, hstep.walk_cons hw, ?_⟩
    split
    · exact List.mem_cons_of_mem _ hopening
    · exact hopening

theorem mem_rulesOf_sketch (h : g.rules[r]? = some rule) :
    r ∈ rulesOf (sketch g) (Symbol.cat rule.head).code := by
  refine mem_rulesOf.mpr ⟨?_, shape_head h⟩
  rw [ruleCount_sketch]
  exact (List.getElem?_eq_some_iff.mp h).1

theorem shape_body_rule (h : g.rules[r]? = some rule) :
    ((sketch g).shape r).body = rule.body.map Symbol.code := by
  rw [shape_body (Nat.le_of_lt (List.getElem?_eq_some_iff.mp h).1), bodyOf_eq h]

section

variable {rule : Rule α} (h : CanFollow g p rule.head b) (hrule : g.rules[r]? = some rule)
  (hhead : Goto g p (.cat rule.head) q')

include h hrule hhead

theorem CanFollow.related (hw : walk (graph (sketch g)) (nullable (sketch g)) p
      (rule.body.map Symbol.code) = some w) :
    ∃ i, Related (numbers (graph (sketch g))) i r w (related (sketch g) (graph (sketch g))) ∧
      Reaches (followers (sketch g) (graph (sketch g))) b i := by
  obtain ⟨i, hi, hreaches⟩ := h
  obtain ⟨i', hi', hall⟩ := hhead.exists_number
  obtain rfl : i = i' := Option.some.inj (hi.symm.trans hi')
  rw [← shape_body_rule hrule] at hw
  exact ⟨i, related_relations hall (mem_rulesOf_sketch hrule) hw, hreaches⟩

/-- What can follow the head of a rule can follow the category at the end of its body. -/
theorem CanFollow.last (hbody : rule.body = xs ++ [.cat d]) (hpath : Path g p xs p')
    (hgoto : Goto g p' (.cat d) q) : CanFollow g p' d b := by
  obtain ⟨j, hj, hall⟩ := hgoto.exists_number
  obtain ⟨w, hw, hopening⟩ := hpath.exists_opening hgoto (nullable (sketch g))
  rw [← hbody] at hw
  obtain ⟨i, hrelated, hreaches⟩ := h.related hrule hhead hw
  have hedge := hrelated.includes _ hopening j hj
  refine ⟨j, hj, flow_settled ?_ j i hedge ?_ hreaches⟩
  · rw [size_flow, Array.size_map]
    omega
  · have hlt := (Array.getElem?_eq_some_iff.mp hall).1
    rw [size_flow, size_flow, Array.size_map]
    exact hlt

/-- A rule is offered at the end of its body on what can follow its head. -/
theorem CanFollow.offers (hpath : Path g p rule.body q) (hq : IsState g q) : Offers g q r b := by
  obtain ⟨w, hw, rfl⟩ := hpath.exists_walk (nullable (sketch g))
  obtain ⟨i, hrelated, hreaches⟩ := h.related hrule hhead hw
  have hsize : w.last < (graph (sketch g)).moves.size := (graph_complete g).2 ▸ hq
  rw [Offers, reductions_eq]
  refine foldl_establishes (Q := fun table => table.size = (graph (sketch g)).moves.size)
    (P := fun table => OffersIn table w.last r b) Array.size_replicate ?_ ?_ hrelated.lookback ?_
  · intro table l _ htable
    rw [offer, Array.size_modify, htable]
  · intro table l _ _ hoffers
    exact hoffers.offer l
  · intro table htable
    exact offersIn_offer (htable ▸ hsize) hreaches

end

end BlockScript.Grammar
