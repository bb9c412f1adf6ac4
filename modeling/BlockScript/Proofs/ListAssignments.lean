import BlockScript.Proofs.Engine
import BlockScript.Proofs.Supplies
import Mathlib.Logic.Function.Basic

/-!
Assigning to lists. A list is cleared and then filled one element at a time, so each element is
computed while the list holds only the elements before it.
-/
namespace BlockScript

variable {α : Type}

/-- The items of each list. -/
abbrev Lists (α : Type) := String → List α

/-- What reporters give for the items of lists, while all else stays as it is. A reporter depends on
no list that it does not mention, and an item that a list does not have is read as a fixed value. -/
structure Reporter (α : Type) where
  report : Lists α → Value → α
  missing : α
  report_congr : ∀ {c c' : Lists α} {v : Value},
    (∀ d ∈ v.references, c d.name = c' d.name) → report c v = report c' v
  report_item : ∀ (c : Lists α) (n : Nat) (d : Data) (type : Option TypeSet),
    report c (.block .itemOfList [.int (n + 1), .data d] type none) = (c d.name).getD n missing

namespace Reporter

variable (m : Reporter α) (c : Lists α) (name : String) (items : List Value)

def engine : Engine (Lists α) where
  act
    | .block .clearList [.data d] _ _, c => some (Function.update c d.name [])
    | .block .addToList [v, .data d] _ _, c =>
      some (Function.update c d.name (c d.name ++ [m.report c v]))
    | _, _ => none
  test _ _ := none

/-- Adds an element, as it is while the list holds those before it. -/
def push (filled : List α) (v : Value) : List α :=
  filled ++ [m.report (Function.update c name filled) v]

/-- The blocks that clear a list and fill it. -/
def refilling (d : Data) (items : List Value) : List Value :=
  .op .clearList [.data d] :: items.map fun v => .op .addToList [v, .data d]

/-- The list after it has been filled. -/
def refilled : List α := items.foldl (m.push c name) []

theorem refilled_append (v : Value) :
    m.refilled c name (items ++ [v]) = m.push c name (m.refilled c name items) v := by
  simp [refilled]

@[simp] theorem length_refilled : (m.refilled c name items).length = items.length := by
  induction items using List.reverseRecOn with
  | nil => rfl
  | append_singleton items v ih => simp [refilled_append, push, ih]

variable {items}

theorem getElem?_refilled (h : items[i]? = some v) :
    (m.refilled c name items)[i]? =
      some (m.report (Function.update c name ((m.refilled c name items).take i)) v) := by
  induction items using List.reverseRecOn with
  | nil => cases h
  | append_singleton items w ih =>
    have hlength := m.length_refilled c name items
    rw [refilled_append, push]
    by_cases hi : i < items.length
    · rw [List.getElem?_append_left hi] at h
      rw [List.getElem?_append_left (by omega), List.take_append_of_le_length (by omega)]
      exact ih h
    · have hlast : i = items.length := by
        have := (List.getElem?_eq_some_iff.mp h).1
        simp only [List.length_append, List.length_singleton] at this
        omega
      subst hlast
      obtain rfl : w = v := by simpa using h
      rw [← hlength]
      simp

theorem refilled_eq_iff : m.refilled c name items = items.map (m.report c) ↔
    ∀ i v, items[i]? = some v →
      m.report (Function.update c name ((items.map (m.report c)).take i)) v = m.report c v := by
  constructor
  · intro h i v hv
    have hnew := m.getElem?_refilled c name hv
    rw [h, List.getElem?_map, hv] at hnew
    exact (Option.some.inj hnew).symm
  · intro h
    induction items using List.reverseRecOn with
    | nil => rfl
    | append_singleton items v ih =>
      have hinit : m.refilled c name items = items.map (m.report c) := by
        refine ih fun i w hw => ?_
        have hi := (List.getElem?_eq_some_iff.mp hw).1
        have := h i w ((List.getElem?_append_left hi).trans hw)
        rwa [List.map_append, List.take_append_of_le_length (by simpa using hi.le)] at this
      have hlast := h items.length v (by simp)
      rw [List.map_append, ← List.length_map (m.report c), List.take_left] at hlast
      rw [refilled_append, hinit, push, hlast, List.map_append, List.map_singleton]

theorem run_fill (d : Data) (filled : List α) :
    m.engine.run (items.length + 1) (items.map fun v => .op .addToList [v, .data d])
      (Function.update c d.name filled) =
      .finished (Function.update c d.name (items.foldl (m.push c d.name) filled)) := by
  induction items generalizing filled with
  | nil => rfl
  | cons v items ih =>
    have hact : m.engine.act (.op .addToList [v, .data d]) (Function.update c d.name filled) =
        some (Function.update c d.name (m.push c d.name filled v)) := by
      simp [engine, push]
    simp only [List.map_cons, List.length_cons, List.foldl_cons]
    rw [← ih]
    simp [Engine.run, Engine.block, hact, Ending.bind]

/-- Clearing a list and filling it ends, and only with the list filled. -/
theorem endsIn_refill :
    Ending.EndsIn (fun fuel => m.engine.run fuel (refilling d items) c) c' ↔
    c' = Function.update c d.name (m.refilled c d.name items) := by
  have hact : m.engine.act (.op .clearList [.data d]) c = some (Function.update c d.name []) := rfl
  have hends : Ending.EndsIn (fun fuel => m.engine.run fuel (refilling d items) c)
      (Function.update c d.name (m.refilled c d.name items)) := by
    refine ⟨items.length + 2, ?_⟩
    simp [Engine.run, refilling, refilled, Engine.block, hact, Ending.bind, run_fill,
      Ending.result?]
  exact ⟨fun h => h.unique (m.engine.run_growing _ _) hends, fun h => h ▸ hends⟩

end Reporter

namespace Build

variable {s s' : BuildState}

theorem assign_list_ok (hlist : d.type = .typed .ofList)
    (h : assign d (.list items) s = .ok () s') :
    s'.frame.unfinished = addBlocks (Reporter.refilling d items) s.frame.unfinished := by
  obtain ⟨_, hcheck, h⟩ := (readOnly_checkAssignment).bind_ok h
  rw [if_pos (by simp [hlist])] at h
  obtain ⟨_, t, hclear, h⟩ := bind_ok.mp h
  obtain ⟨-, rfl⟩ := emit_ok.mp hclear
  obtain ⟨-, rfl⟩ := emitAll_ok.mp h
  simp [Reporter.refilling]

/-- A list that is assigned holds, in each place, the element as it is while the list holds those
before it, and all else stays. So it gets the elements as they were before the assignment if and
only if each of them gives the same then, as it does if no element mentions the list. An element
that is an item of the list itself finds only the items filled in before it. -/
theorem list_assigned_iff (m : Reporter α) (c : Lists α) {d : Data} {items : List Value}
    (hlist : d.type = .typed .ofList) (h : assign d (.list items) s = .ok () s') :
    ∃ blocks, s'.frame.unfinished = addBlocks blocks s.frame.unfinished ∧
      ∃ c' : Lists α,
        (∀ c'', Ending.EndsIn (fun fuel => m.engine.run fuel blocks c) c'' ↔ c'' = c') ∧
        (∀ name ≠ d.name, c' name = c name) ∧ (c' d.name).length = items.length ∧
        (∀ i v, items[i]? = some v → (c' d.name)[i]? =
          some (m.report (Function.update c d.name ((c' d.name).take i)) v)) ∧
        (c' d.name = items.map (m.report c) ↔ ∀ i v, items[i]? = some v →
          m.report (Function.update c d.name ((items.map (m.report c)).take i)) v =
            m.report c v) ∧
        ((∀ v ∈ items, ∀ r ∈ v.references, r.name ≠ d.name) →
          c' d.name = items.map (m.report c)) ∧
        ∀ i n type, items[i]? = some (.block .itemOfList [.int (n + 1), .data d] type none) →
          (c' d.name)[i]? = some (((c' d.name).take i).getD n m.missing) := by
  have hiff := @Reporter.refilled_eq_iff _ m c d.name items
  have hplace (i : Nat) (v : Value) (hv : items[i]? = some v) := m.getElem?_refilled c d.name hv
  refine ⟨_, assign_list_ok hlist h, Function.update c d.name (m.refilled c d.name items),
    fun c'' => m.endsIn_refill c, fun name hname => Function.update_of_ne hname .., ?_⟩
  rw [Function.update_self]
  refine ⟨m.length_refilled .., hplace, hiff, fun hunread => ?_, fun i n type hv => ?_⟩
  · refine hiff.mpr fun i v hv => m.report_congr fun r hr => ?_
    exact Function.update_of_ne (hunread v (List.mem_of_getElem? hv) r hr) ..
  · rw [hplace i _ hv, m.report_item, Function.update_self]

/-- Reporters for whole numbers and items of lists. -/
def wholeReporter : Reporter Int where
  report c
    | .int n => n
    | .block .itemOfList [.int (.ofNat (n + 1)), .data d] _ _ => (c d.name).getD n 0
    | _ => 0
  missing := 0
  report_congr {c c' v} h := by
    split
    · rfl
    · rw [h _ (by simp)]
    · rfl
  report_item _ _ _ _ := rfl

def ownList : Data := ⟨"b1_l", true, .typed .ofList, false⟩

def ownItem (n : Nat) : Value :=
  .block .itemOfList [.int (n + 1), .data ownList] (some .general) none

/-- Two items of a list that are to change places are both lost. -/
theorem list_assigned_iff_swapped : ∃ (s s' : BuildState) (blocks : List Value)
    (c c' : Lists Int), assign ownList (.list [ownItem 1, ownItem 0]) s = .ok () s' ∧
      s'.frame.unfinished = addBlocks blocks s.frame.unfinished ∧
      Ending.EndsIn (fun fuel => wholeReporter.engine.run fuel blocks c) c' ∧
      c ownList.name = [1, 2] ∧
      [ownItem 1, ownItem 0].map (wholeReporter.report c) = [2, 1] ∧ c' ownList.name = [0, 0] := by
  let s := BuildState.fresh (.fresh (some .error) false) ""
  let c : Lists Int := fun _ => [1, 2]
  have hrun : ∃ s', assign ownList (.list [ownItem 1, ownItem 0])
      { s with frame.unfinished := [[]] } = .ok () s' := ⟨_, rfl⟩
  obtain ⟨s', hrun⟩ := hrun
  obtain ⟨blocks, hblocks, c', hends, -, hlength, -, -, -, hitem⟩ :=
    list_assigned_iff wholeReporter c rfl hrun
  refine ⟨_, s', blocks, c, c', hrun, hblocks, (hends c').mpr rfl, rfl, rfl, ?_⟩
  obtain ⟨a, b, hlist⟩ := List.length_eq_two.mp hlength
  have ha := hitem 0 1 _ rfl
  have hb := hitem 1 0 _ rfl
  rw [hlist] at ha hb ⊢
  obtain rfl : a = 0 := Option.some.inj ha
  obtain rfl : b = 0 := Option.some.inj hb
  rfl

end Build

end BlockScript
