import BlockScript.Grammar.Automaton
import Mathlib.Data.Finset.Card
import Mathlib.Data.Finset.Powerset
import Mathlib.Data.List.Nodup
import Mathlib.Logic.Relation

/-!
The states of an automaton as sets of items. Where a category is expected, so is every category
with which one of its rules starts, and all the rules of these begin there. A symbol leads to
the items that expect it, each moved past it. The items are listed in order and without
repetition, so a state is known by the set of its items, and there are finitely many states.
-/
namespace BlockScript.Grammar.Automaton

variable {s : Sketch}

section

variable {c : Nat} {pending seen : List Nat}

/-- The categories with which rules of a category start. -/
def firsts (s : Sketch) (c : Nat) : List Nat :=
  (rulesOf s c).filterMap fun r =>
    match (s.shape r).body with
    | x :: _ => if isCategory x then some x else none
    | [] => none

/-- A category that can stand first where another one is expected. -/
abbrev Begins (s : Sketch) : Nat → Nat → Prop :=
  Relation.ReflTransGen fun c d => d ∈ firsts s c

theorem startersFrom_cons (s : Sketch) (fuel c : Nat) (pending seen : List Nat) :
    startersFrom s (fuel + 1) (c :: pending) seen =
      if seen.contains c then startersFrom s fuel pending seen
      else startersFrom s fuel (firsts s c ++ pending) (c :: seen) := rfl

theorem startersFrom_sound (h : c ∈ startersFrom s fuel pending seen) :
    c ∈ seen ∨ ∃ d ∈ pending, Begins s d c := by
  induction fuel generalizing pending seen with
  | zero => exact .inl h
  | succ fuel ih =>
    cases pending with
    | nil => exact .inl h
    | cons first pending =>
      rw [startersFrom_cons] at h
      split at h
      · rcases ih h with hseen | ⟨d, hd, hbegins⟩
        · exact .inl hseen
        · exact .inr ⟨d, List.mem_cons_of_mem _ hd, hbegins⟩
      · rcases ih h with hseen | ⟨d, hd, hbegins⟩
        · rcases List.mem_cons.mp hseen with rfl | hseen
          · exact .inr ⟨c, List.mem_cons_self, .refl⟩
          · exact .inl hseen
        · rcases List.mem_append.mp hd with hfirst | hd
          · exact .inr ⟨first, List.mem_cons_self, .head hfirst hbegins⟩
          · exact .inr ⟨d, List.mem_cons_of_mem _ hd, hbegins⟩

/-- The number of rules whose categories have not been seen. -/
def unseen (s : Sketch) (seen : List Nat) : Nat :=
  (List.range s.ruleCount).countP fun r => !seen.contains (s.shape r).head

/-- A category that is seen for the first time makes fewer categories pending than there are
rules that are no longer unseen. -/
theorem unseen_cons (h : seen.contains c = false) :
    (firsts s c).length + unseen s (c :: seen) ≤ unseen s seen := by
  have hfirsts : (firsts s c).length ≤ (rulesOf s c).length := List.length_filterMap_le _ _
  have hsplit := (List.range s.ruleCount).countP_eq_countP_filter_add
    (fun r => !seen.contains (s.shape r).head) fun r => (s.shape r).head == c
  have hnew : (rulesOf s c).countP (fun r => !seen.contains (s.shape r).head) =
      (rulesOf s c).length := by
    refine List.countP_eq_length.mpr fun r hr => ?_
    rw [eq_of_beq (List.mem_filter.mp hr).2, h]
    rfl
  have hold : ((List.range s.ruleCount).filter fun r => !((s.shape r).head == c)).countP
      (fun r => !seen.contains (s.shape r).head) = unseen s (c :: seen) := by
    rw [List.countP_filter]
    refine List.countP_congr fun r _ => ?_
    simp [and_comm]
  unfold unseen at hold ⊢
  rw [rulesOf] at hnew hfirsts
  omega

/-- All that is pending is found in the end, and with every category all that can start it. -/
theorem startersFrom_complete (hfuel : pending.length + unseen s seen ≤ fuel)
    (hclosed : ∀ c ∈ seen, ∀ d ∈ firsts s c, d ∈ seen ∨ d ∈ pending) :
    (∀ c, c ∈ seen ∨ c ∈ pending → c ∈ startersFrom s fuel pending seen) ∧
      ∀ c ∈ startersFrom s fuel pending seen, ∀ d ∈ firsts s c,
        d ∈ startersFrom s fuel pending seen := by
  induction fuel generalizing pending seen with
  | zero =>
    have hnone : pending = [] := List.eq_nil_of_length_eq_zero (by omega)
    subst hnone
    exact ⟨fun c hc => hc.resolve_right (by simp),
      fun c hc d hd => (hclosed c hc d hd).resolve_right (by simp)⟩
  | succ fuel ih =>
    cases pending with
    | nil =>
      exact ⟨fun c hc => hc.resolve_right (by simp),
        fun c hc d hd => (hclosed c hc d hd).resolve_right (by simp)⟩
    | cons first pending =>
      rw [List.length_cons] at hfuel
      rw [startersFrom_cons]
      cases hfirst : seen.contains first with
      | true =>
        have hmem : first ∈ seen := List.contains_iff_mem.mp hfirst
        have hrest : ∀ d, d ∈ seen ∨ d ∈ first :: pending → d ∈ seen ∨ d ∈ pending := by
          rintro d (hd | hd)
          · exact .inl hd
          · rcases List.mem_cons.mp hd with rfl | hd
            · exact .inl hmem
            · exact .inr hd
        obtain ⟨hfound, hnext⟩ := ih (by omega) fun c hc d hd => hrest d (hclosed c hc d hd)
        exact ⟨fun c hc => hfound c (hrest c hc), hnext⟩
      | false =>
        have hcount := unseen_cons (s := s) hfirst
        have hrest : ∀ d, d ∈ seen ∨ d ∈ first :: pending →
            d ∈ first :: seen ∨ d ∈ firsts s first ++ pending := by
          rintro d (hd | hd)
          · exact .inl (List.mem_cons_of_mem _ hd)
          · rcases List.mem_cons.mp hd with rfl | hd
            · exact .inl List.mem_cons_self
            · exact .inr (List.mem_append_right _ hd)
        have hfuel' : (firsts s first ++ pending).length + unseen s (first :: seen) ≤ fuel := by
          rw [List.length_append]
          omega
        have hclosed' : ∀ c ∈ first :: seen, ∀ d ∈ firsts s c,
            d ∈ first :: seen ∨ d ∈ firsts s first ++ pending := by
          intro c hc d hd
          rcases List.mem_cons.mp hc with rfl | hc
          · exact .inr (List.mem_append_left _ hd)
          · exact hrest d (hclosed c hc d hd)
        obtain ⟨hfound, hnext⟩ := ih hfuel' hclosed'
        exact ⟨fun c hc => hfound c (hrest c hc), hnext⟩

theorem startersFrom_nodup (h : seen.Nodup) : (startersFrom s fuel pending seen).Nodup := by
  induction fuel generalizing pending seen with
  | zero => exact h
  | succ fuel ih =>
    cases pending with
    | nil => exact h
    | cons first pending =>
      rw [startersFrom_cons]
      split
      · exact ih h
      · rename_i hfirst
        refine ih (List.nodup_cons.mpr ⟨fun hmem => hfirst ?_, h⟩)
        exact List.contains_iff_mem.mpr hmem

theorem mem_starters : c ∈ starters s expected ↔ ∃ d ∈ expected, Begins s d c := by
  constructor
  · intro h
    exact (startersFrom_sound h).resolve_left (by simp)
  · rintro ⟨d, hd, hbegins⟩
    have hfuel : expected.length + unseen s [] ≤ expected.length + s.ruleCount := by
      simp [unseen]
    obtain ⟨hfound, hnext⟩ := startersFrom_complete hfuel (by simp)
    induction hbegins with
    | refl => exact hfound d (.inr hd)
    | tail _ hfirst ih => exact hnext _ ih _ hfirst

end

theorem mem_rulesOf : r ∈ rulesOf s c ↔ r < s.ruleCount ∧ (s.shape r).head = c := by
  simp [rulesOf]

/-- An item of a state was there on entry, or it begins a rule of a category that can stand first
where an item expects one. -/
theorem mem_closure_iff :
    i ∈ closure s kernel ↔ i ∈ kernel ∨ i.dot = 0 ∧ i.rule < s.ruleCount ∧
      ∃ j ∈ kernel, ∃ c, nextSymbol? s j = some c ∧ isCategory c = true ∧
        Begins s c (s.shape i.rule).head := by
  simp only [closure, List.mem_append, List.mem_flatMap, List.mem_map, mem_rulesOf, mem_starters,
    List.mem_filter, List.mem_filterMap]
  refine or_congr_right ⟨?_, ?_⟩
  · rintro ⟨c, ⟨d, ⟨⟨j, hj, hnext⟩, hcategory⟩, hbegins⟩, r, ⟨hr, rfl⟩, rfl⟩
    exact ⟨rfl, hr, j, hj, d, hnext, hcategory, hbegins⟩
  · obtain ⟨r, k⟩ := i
    rintro ⟨rfl, hr, j, hj, d, hnext, hcategory, hbegins⟩
    exact ⟨_, ⟨d, ⟨⟨j, hj, hnext⟩, hcategory⟩, hbegins⟩, r, ⟨hr, rfl⟩, rfl⟩

section

variable {x y : Nat} {table : List (Nat × List Item)} {items : List Item}

/-- An item that expects a symbol, moved past it. -/
def advance? (s : Sketch) (x : Nat) (i : Item) : Option Item :=
  if nextSymbol? s i = some x then some ⟨i.rule, i.dot + 1⟩ else none

theorem advance?_eq_some :
    advance? s x i = some j ↔ nextSymbol? s i = some x ∧ j = ⟨i.rule, i.dot + 1⟩ := by
  unfold advance?
  split
  · rename_i h
    simp [h, eq_comm]
  · rename_i h
    simp [h]

theorem lookup_cons_eq (b : β) (entries : List (Nat × β)) :
    ((x, b) :: entries).lookup y = if y = x then some b else entries.lookup y := by
  rw [List.lookup_cons]
  by_cases hy : y = x
  · rw [if_pos hy, beq_iff_eq.mpr hy]
  · rw [if_neg hy, beq_eq_false_iff_ne.mpr hy]

theorem lookup_file : (file x item table).lookup y =
    if y = x then some (item :: (table.lookup x).getD []) else table.lookup y := by
  induction table with
  | nil => exact lookup_cons_eq _ _
  | cons entry rest ih =>
    obtain ⟨z, filed⟩ := entry
    rw [file]
    by_cases hz : z = x
    · subst hz
      rw [if_pos (beq_self_eq_true z), lookup_cons_eq, lookup_cons_eq, lookup_cons_eq, if_pos rfl]
      split <;> rfl
    · rw [if_neg (by simpa using hz), lookup_cons_eq, lookup_cons_eq, lookup_cons_eq, ih,
        if_neg (Ne.symm hz)]
      by_cases hy : y = z
      · rw [if_pos hy, if_pos hy, if_neg (hy ▸ hz)]
      · rw [if_neg hy, if_neg hy]

theorem keys_file : (file x item table).map Prod.fst =
    if x ∈ table.map Prod.fst then table.map Prod.fst else table.map Prod.fst ++ [x] := by
  induction table with
  | nil => rfl
  | cons entry rest ih =>
    obtain ⟨z, filed⟩ := entry
    rw [file]
    by_cases hz : z = x
    · simp [hz]
    · rw [if_neg (by simpa using hz), List.map_cons, ih]
      by_cases hrest : x ∈ rest.map Prod.fst
      · simp [hrest]
      · simp [hrest, Ne.symm hz]

/-- Files an item under the symbol that it expects, moved past it. -/
def fileNext (s : Sketch) (table : List (Nat × List Item)) (i : Item) : List (Nat × List Item) :=
  match nextSymbol? s i with
  | some x => file x ⟨i.rule, i.dot + 1⟩ table
  | none => table

theorem lookup_fileNext (i : Item) : (fileNext s table i).lookup x = match advance? s x i with
    | some j => some (j :: (table.lookup x).getD [])
    | none => table.lookup x := by
  unfold fileNext advance?
  cases hnext : nextSymbol? s i with
  | none => simp
  | some z =>
    rw [lookup_file]
    by_cases hz : x = z
    · simp [hz]
    · simp [hz, Ne.symm hz]

theorem lookup_filed : (items.foldl (fileNext s) table).lookup x =
    if items.filterMap (advance? s x) = [] then table.lookup x
    else some ((items.filterMap (advance? s x)).reverse ++ (table.lookup x).getD []) := by
  induction items generalizing table with
  | nil => simp
  | cons i rest ih =>
    rw [List.foldl_cons, ih, lookup_fileNext]
    cases hi : advance? s x i with
    | none => simp [List.filterMap_cons_none hi]
    | some j =>
      rw [List.filterMap_cons_some hi]
      by_cases hrest : rest.filterMap (advance? s x) = []
      all_goals simp [hrest]

theorem keys_filed (h : (table.map Prod.fst).Nodup) :
    ((items.foldl (fileNext s) table).map Prod.fst).Nodup := by
  induction items generalizing table with
  | nil => exact h
  | cons i rest ih =>
    refine ih ?_
    unfold fileNext
    split
    · rw [keys_file]
      split
      · exact h
      · rename_i hnew
        simpa using (List.nodup_concat _ _).mpr ⟨hnew, h⟩
    · exact h

theorem lookup_map_snd (f : β → γ) (entries : List (Nat × β)) :
    (entries.map fun e => (e.1, f e.2)).lookup x = (entries.lookup x).map f := by
  induction entries with
  | nil => rfl
  | cons entry rest ih =>
    obtain ⟨y, b⟩ := entry
    rw [List.map_cons, lookup_cons_eq, lookup_cons_eq, ih]
    split <;> rfl

theorem lookup_of_mem {β : Type} {entries : List (Nat × β)} {b : β}
    (hkeys : (entries.map Prod.fst).Nodup) (h : (x, b) ∈ entries) : entries.lookup x = some b := by
  induction entries with
  | nil => cases h
  | cons entry rest ih =>
    obtain ⟨y, first⟩ := entry
    rw [List.map_cons, List.nodup_cons] at hkeys
    obtain ⟨hnew, hkeys⟩ := hkeys
    rw [lookup_cons_eq]
    rcases List.mem_cons.mp h with heq | hrest
    · obtain ⟨rfl, rfl⟩ := Prod.mk.inj heq
      rw [if_pos rfl]
    · have hx : x ∈ rest.map Prod.fst := List.mem_map.mpr ⟨_, hrest, rfl⟩
      rw [if_neg (ne_of_mem_of_not_mem hx hnew)]
      exact ih hkeys hrest

theorem successors_eq : successors s items = (items.foldl (fileNext s) []).map
    fun e => (e.1, e.2.mergeSort itemLe) := rfl

/-- What a symbol leads to is a sorted list of the items that expect it, moved past it. -/
theorem lookup_successors : (successors s items).lookup x =
    if items.filterMap (advance? s x) = [] then none
    else some ((items.filterMap (advance? s x)).reverse.mergeSort itemLe) := by
  have hsorted := lookup_map_snd (x := x) (fun items : List Item => items.mergeSort itemLe)
    (items.foldl (fileNext s) [])
  rw [successors_eq, hsorted, lookup_filed]
  split
  · rfl
  · simp

theorem keys_successors : ((successors s items).map Prod.fst).Nodup := by
  rw [successors_eq, List.map_map]
  exact keys_filed List.nodup_nil

/-- The items with which a state is entered have just read the symbol that leads to it. -/
theorem mem_successors (h : (x, next) ∈ successors s items) :
    next = (items.filterMap (advance? s x)).reverse.mergeSort itemLe ∧ (∃ i, i ∈ next) ∧
      ∀ i, i ∈ next ↔ ∃ j ∈ items, nextSymbol? s j = some x ∧ i = ⟨j.rule, j.dot + 1⟩ := by
  have hlookup := lookup_of_mem keys_successors h
  rw [lookup_successors] at hlookup
  split at hlookup
  · cases hlookup
  · rename_i hne
    obtain rfl := Option.some.inj hlookup
    obtain ⟨i, hi⟩ := List.exists_mem_of_ne_nil _ hne
    refine ⟨rfl, ⟨i, List.mem_mergeSort.mpr (List.mem_reverse.mpr hi)⟩, fun i => ?_⟩
    simp only [List.mem_mergeSort, List.mem_reverse, List.mem_filterMap, advance?_eq_some]

end

section

variable {kernel next : List Item}

theorem itemLe_iff : itemLe i j = true ↔ i.rule < j.rule ∨ i.rule = j.rule ∧ i.dot ≤ j.dot := by
  simp [itemLe]

theorem mem_allItems :
    i ∈ allItems s ↔ i.rule < s.shapes.size ∧ i.dot ≤ (s.shape i.rule).body.length := by
  obtain ⟨r, k⟩ := i
  simp only [allItems, List.mem_flatMap, List.mem_range, List.mem_map, Nat.lt_succ_iff, Item.mk.injEq,
    exists_eq_right_right]

/-- The items with which a state is entered, in order. Only the rule for the whole input may
have been read not at all. -/
structure Kernel (s : Sketch) (kernel : List Item) : Prop where
  sorted : kernel.Pairwise fun i j => itemLe i j = true
  nodup : kernel.Nodup
  valid : ∀ i ∈ kernel, i ∈ allItems s
  begun : ∀ i ∈ kernel, i.rule < s.ruleCount → 0 < i.dot

section

variable (h : Kernel s kernel)

include h

theorem Kernel.closure_nodup : (closure s kernel).Nodup := by
  refine List.nodup_append.mpr ⟨h.nodup, ?_, ?_⟩
  · refine List.nodup_flatMap.mpr ⟨fun c _ => ?_, ?_⟩
    · refine List.Nodup.map (fun a b heq => (Item.mk.inj heq).1) ?_
      exact List.nodup_range.filter _
    · refine (startersFrom_nodup List.nodup_nil).imp fun {c d} hne => ?_
      intro i hc hd
      obtain ⟨r, hr, rfl⟩ := List.mem_map.mp hc
      obtain ⟨r', hr', heq⟩ := List.mem_map.mp hd
      obtain rfl := (Item.mk.inj heq).1
      exact hne ((mem_rulesOf.mp hr).2.symm.trans (mem_rulesOf.mp hr').2)
  · rintro i hi j hj rfl
    obtain ⟨c, -, hj⟩ := List.mem_flatMap.mp hj
    obtain ⟨r, hr, rfl⟩ := List.mem_map.mp hj
    have hbegun := h.begun _ hi (mem_rulesOf.mp hr).1
    simp at hbegun

theorem Kernel.closure_valid : ∀ i ∈ closure s kernel, i ∈ allItems s := by
  intro i hi
  rcases mem_closure_iff.mp hi with hkernel | ⟨hdot, hrule, -⟩
  · exact h.valid i hkernel
  · have hcount : s.ruleCount = s.shapes.size - 1 := rfl
    exact mem_allItems.mpr ⟨by omega, by omega⟩

/-- A state that is entered from another one has its items in order. -/
theorem Kernel.successor (hnext : (x, next) ∈ successors s (closure s kernel)) :
    Kernel s next := by
  obtain ⟨rfl, -, hmem⟩ := mem_successors hnext
  refine ⟨?_, ?_, ?_, ?_⟩
  · refine List.pairwise_mergeSort ?_ ?_ _
    · intro i j k hij hjk
      rw [itemLe_iff] at hij hjk ⊢
      omega
    · intro i j
      rw [Bool.or_eq_true, itemLe_iff, itemLe_iff]
      omega
  · refine (List.mergeSort_perm _ _).nodup_iff.mpr (List.nodup_reverse.mpr ?_)
    refine h.closure_nodup.filterMap fun i j k hi hj => ?_
    obtain ⟨-, rfl⟩ := advance?_eq_some.mp hi
    obtain ⟨-, heq⟩ := advance?_eq_some.mp hj
    obtain ⟨r, d⟩ := i
    obtain ⟨r', d'⟩ := j
    simpa using heq
  · intro i hi
    obtain ⟨j, hj, hsymbol, rfl⟩ := (hmem i).mp hi
    obtain ⟨hrule, -⟩ := mem_allItems.mp (h.closure_valid j hj)
    have hdot : j.dot < (s.shape j.rule).body.length :=
      (List.getElem?_eq_some_iff.mp hsymbol).1
    exact mem_allItems.mpr ⟨hrule, hdot⟩
  · intro i hi _
    obtain ⟨j, -, -, rfl⟩ := (hmem i).mp hi
    exact Nat.succ_pos _

/-- A state is known by the set of its items. -/
theorem Kernel.ext (h' : Kernel s next)
    (hsame : kernel.toFinset = next.toFinset) : kernel = next := by
  have hperm := List.perm_of_nodup_nodup_toFinset_eq h.nodup h'.nodup hsame
  refine hperm.eq_of_pairwise (fun i j _ _ hij hji => ?_) h.sorted h'.sorted
  rw [itemLe_iff] at hij hji
  obtain ⟨r, d⟩ := i
  obtain ⟨r', d'⟩ := j
  simp only [Item.mk.injEq] at hij hji ⊢
  omega

end

/-- There are no more states than sets of items. -/
theorem length_kernels_le {kernels : List (List Item)} (hnodup : kernels.Nodup)
    (h : ∀ kernel ∈ kernels, Kernel s kernel) : kernels.length ≤ 2 ^ (allItems s).length := by
  have hinj : Set.InjOn List.toFinset (kernels.toFinset : Set (List Item)) := by
    intro K hK K' hK' hsame
    rw [Finset.mem_coe, List.mem_toFinset] at hK hK'
    exact (h K hK).ext (h K' hK') hsame
  have hmaps : Set.MapsTo List.toFinset (kernels.toFinset : Set (List Item))
      ((allItems s).toFinset.powerset : Set (Finset Item)) := by
    intro K hK
    rw [Finset.mem_coe, List.mem_toFinset] at hK
    rw [Finset.mem_coe, Finset.mem_powerset]
    intro i hi
    rw [List.mem_toFinset] at hi ⊢
    exact (h K hK).valid i hi
  calc
    kernels.length = kernels.toFinset.card := (List.toFinset_card_of_nodup hnodup).symm
    _ ≤ (allItems s).toFinset.powerset.card := Finset.card_le_card_of_injOn _ hmaps hinj
    _ = 2 ^ (allItems s).toFinset.card := Finset.card_powerset _
    _ ≤ 2 ^ (allItems s).length := Nat.pow_le_pow_right (by omega) (List.toFinset_card_le _)

end

end BlockScript.Grammar.Automaton
