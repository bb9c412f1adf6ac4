import BlockScript.Proofs.Meanings
import BlockScript.Proofs.NumberReporters
import BlockScript.Proofs.Simulation

/-!
Building the expressions of number code. While the names of the code stand for the variables
of a layout, the reporter that is built for an expression gives the value of the expression,
and nothing but the position changes.
-/
namespace BlockScript.NumberCode

open Build

/-- Where the variable of a cell is: in the table of the target under its name and the scope
of its block, or among the variables from around the code. -/
def Placed (sprite : Bool) (outer : List (String × Data)) (table : Assoc String Data)
    (cell : Cell Data) : Prop :=
  match cell.block with
  | some block =>
    cell.content.name = fullName sprite block cell.name ∧
      (cell.content.name, cell.content) ∈ table
  | none => (cell.name, cell.content) ∈ outer

/-- All variables of a layout are where they belong. -/
def AllPlaced (sprite : Bool) (outer : List (String × Data)) (table : Assoc String Data)
    (layout : Layout) : Prop :=
  ∀ cell ∈ layout, Placed sprite outer table cell

/-- A state of the builder in which the given names stand for the variables of a layout. -/
structure Describes (names : List String) (outer : List (String × Data)) (s : BuildState)
    (locals : Assoc String Data) (layout : Layout) : Prop where
  consistent : Consistent s
  table : s.draft.locals? s.frame.place = some locals
  known : ∀ entry ∈ outer, (entry.2.name, entry.2) ∈ locals ∨ isGlobalName entry.2.name = true
  resolves : ∀ name ∈ names, find? (.ofName name) s = .ok (Cell.find name layout) s
  numbers : ∀ cell ∈ layout, cell.content.type = .typed .ofNumber
  distinct : (layout.map fun cell => cell.content.name).Nodup
  placed : AllPlaced s.frame.place.isSprite outer locals layout

theorem AllPlaced.mono (h : AllPlaced sprite outer table layout)
    (hsub : ∀ entry ∈ table, entry ∈ table') : AllPlaced sprite outer table' layout := by
  intro cell hcell
  have hplaced := h cell hcell
  unfold Placed at hplaced ⊢
  cases hblock : cell.block with
  | none =>
    simp only [hblock] at hplaced
    exact hplaced
  | some block =>
    simp only [hblock] at hplaced
    exact ⟨hplaced.1, hsub _ hplaced.2⟩

section

section

variable (h : Describes names outer s locals layout)

include h

/-- Only the tables and the scopes matter. -/
theorem Describes.congr (hsame : bindings s' = bindings s) :
    Describes names outer s' locals layout := by
  have hfind := fun name hname => (find?_iff_of_bindings hsame).mpr (h.resolves name hname)
  have hconsistent := h.consistent.congr hsame
  simp only [bindings, Prod.mk.injEq] at hsame
  refine ⟨hconsistent, hsame.1.trans h.table, h.known, hfind, h.numbers, h.distinct, ?_⟩
  rw [hsame.2.2.1]
  exact h.placed

theorem Describes.quiet (hquiet : Quiet s s') :
    Describes names outer s' locals layout := h.congr hquiet.keeps.bindings

theorem Describes.tidy : Tidy s.frame.place.isSprite s.frame.lastScope locals := by
  obtain ⟨table, htable, htidy, -⟩ := h.consistent.table
  rwa [Option.some.inj (htable.symm.trans h.table)] at htidy

theorem Describes.lookup (hname : name ∈ names) : lookup s.draft.globals locals
    s.frame.place.isSprite (s.frame.currentScope :: s.frame.scopes) name =
      .ok (Cell.find name layout) := ((find?_ofName h.table).mp (h.resolves name hname)).1

theorem Describes.find_iff (hname : name ∈ names) :
    find? (.ofName name) s = .ok found t ↔ Cell.find name layout = found ∧ s = t := by
  rw [h.resolves name hname, EStateM.Result.ok.injEq]

/-- The name of a number stands for the variable in the layout. -/
theorem variableValue_number (hname : name ∈ names) (hrun : variableValue name s = .ok v s') :
    ∃ d, Cell.find name layout = some d ∧ v = .data d := by
  obtain ⟨d, t, hnamed, hrun⟩ := bind_ok.mp hrun
  obtain ⟨hfind, rfl⟩ := variableNamed_ok hnamed
  obtain ⟨hlayout, -⟩ := (h.find_iff hname).mp hfind
  obtain ⟨rfl, -⟩ := pure_ok.mp hrun
  obtain ⟨cell, hcell, rfl⟩ := mem_of_find hlayout
  refine ⟨cell.content, hlayout, ?_⟩
  rw [h.numbers cell hcell]
  rfl

end

theorem Describes.grounded (byZero : Int → Int) (store : Store) :
    Grounded byZero .script store (view store layout) names
      fun s => Describes names outer s locals layout where
  moved h hmoved := h.quiet hmoved.quiet
  name := by
    intro s s' v pos name hname h hrun
    obtain ⟨_, t, hmove, hrun⟩ := bind_ok.mp hrun
    obtain rfl := reads.variableValue _ _ _ _ hrun
    obtain ⟨d, hfind, rfl⟩ := variableValue_number (h.quiet (quiet_moveTo hmove)) hname hrun
    refine ⟨moved_moveTo hmove, .inr rfl, store d.name, ?_, rfl⟩
    rw [find_view, hfind]
    rfl

/-- The reporter that is built for an expression gives its value. -/
theorem expression_arith (byZero : Int → Int) (e : Arith)
    (h : Describes names outer s locals layout) (hnames : ∀ name ∈ e.names, name ∈ names)
    (hrun : expression .script e.expr s = .ok v s') :
    Quiet s s' ∧ IsNumeric v ∧ Reports byZero layout e v := by
  have hbuilt := fun store => (Describes.grounded byZero store).arith e hnames h hrun
  obtain ⟨hmoved, hnumeric, -⟩ := hbuilt fun _ => 0
  exact ⟨hmoved.quiet, hnumeric, fun store => (hbuilt store).2.2⟩

theorem comparands_cons_ok (h : comparands d (e :: rest) s = .ok vs s') :
    ∃ v vs' t, comparand d e s = .ok v t ∧ comparands d rest t = .ok vs' s' ∧ vs = v :: vs' := by
  rw [comparands_cons] at h
  obtain ⟨v, t, he, vs', t', hrest, h⟩ := bind_bind_ok.mp h
  obtain ⟨rfl, rfl⟩ := pure_ok.mp h
  exact ⟨v, vs', t, he, hrest, rfl⟩

/-- A condition as an operand of a logical operator. -/
theorem comparand_decides
    (hbuilt : expression .script c.expr s = .ok v s' → Quiet s s' ∧ Decides byZero layout c v)
    (h : comparand .script c.expr s = .ok v s') : Quiet s s' ∧ Decides byZero layout c v := by
  cases c with
  | truth b =>
    obtain ⟨rfl, rfl⟩ := pure_ok.mp h
    exact ⟨.refl s, fun store => ⟨b, rfl, rfl⟩⟩
  | _ => exact hbuilt h

/-- The condition that is built for a condition holds when it does. -/
theorem expression_cond (byZero : Int → Int) (c : Cond)
    (h : Describes names outer s locals layout) (hnames : ∀ name ∈ c.names, name ∈ names)
    (hrun : expression .script c.expr s = .ok v s') : Quiet s s' ∧ Decides byZero layout c v := by
  induction c generalizing s s' v with
  | truth b =>
    rw [Cond.expr, expression] at hrun
    obtain ⟨rfl, rfl⟩ := pure_ok.mp hrun
    exact ⟨.refl s, fun store => ⟨b, rfl, truth_truthBlock b⟩⟩
  | compare pos op a b =>
    have hbuilt := fun store => (Describes.grounded byZero store).compare hnames h hrun
    exact ⟨(hbuilt fun _ => 0).1.quiet, fun store => (hbuilt store).2⟩
  | not pos c ih =>
    rw [Cond.expr, expression] at hrun
    obtain ⟨_, t, hmove, vs, t', hoperands, hrun⟩ := bind_bind_ok.mp hrun
    have hquiet := quiet_moveTo hmove
    obtain ⟨w, vs', u, hc, hnil, rfl⟩ := comparands_cons_ok hoperands
    rw [comparands] at hnil
    obtain ⟨rfl, rfl⟩ := pure_ok.mp hnil
    obtain ⟨hqc, hdecides⟩ := comparand_decides (ih (h.quiet hquiet) hnames) hc
    obtain ⟨_, -, hrun⟩ := (reads.require _ _ _).bind_ok hrun
    obtain ⟨happly, rfl⟩ := ofExcept_ok.mp hrun
    refine ⟨hquiet.trans hqc, fun store => ?_⟩
    obtain ⟨b, hb, hb'⟩ := hdecides store
    refine ⟨!b, ?_, truth_logicalNot hb' happly⟩
    simp [Cond.holds, hb]
  | or pos a b iha ihb =>
    rw [Cond.expr, expression] at hrun
    obtain ⟨_, t, hmove, vs, t', hoperands, hrun⟩ := bind_bind_ok.mp hrun
    have hquiet := quiet_moveTo hmove
    obtain ⟨va, vs', u, ha, hrest, rfl⟩ := comparands_cons_ok hoperands
    obtain ⟨vb, vs'', u', hb, hnil, rfl⟩ := comparands_cons_ok hrest
    rw [comparands] at hnil
    obtain ⟨rfl, rfl⟩ := pure_ok.mp hnil
    obtain ⟨hqa, hdecides⟩ := comparand_decides (iha (h.quiet hquiet)
      (fun name hname => hnames name (List.mem_append_left _ hname))) ha
    obtain ⟨hqb, hdecides'⟩ := comparand_decides (ihb ((h.quiet hquiet).quiet hqa)
      (fun name hname => hnames name (List.mem_append_right _ hname))) hb
    obtain ⟨_, -, hrun⟩ := (reads.require _ _ _).bind_ok hrun
    obtain ⟨happly, rfl⟩ := ofExcept_ok.mp hrun
    refine ⟨(hquiet.trans hqa).trans hqb, fun store => ?_⟩
    obtain ⟨x, hx, hx'⟩ := hdecides store
    obtain ⟨y, hy, hy'⟩ := hdecides' store
    rw [LogicOp.apply, Except.ok.injEq] at happly
    refine ⟨x || y, ?_, happly ▸ truth_logicalOr hx' hy'⟩
    simp [Cond.holds, hx, hy]

end

end BlockScript.NumberCode
