import BlockScript.Proofs.NumberBlocks

/-!
Number code and the blocks for it, run side by side. A layout says which variable of the
blocks stands for which variable of the code; the memory of the code is then what the store
holds in these variables. Each statement has one block, so both runs take the same number of
steps and end alike.
-/
namespace BlockScript.NumberCode

/-- The variables of the blocks that stand for the variables of the code. -/
abbrev Layout := List (Cell Data)

/-- The memory that a store holds in the variables of a layout. -/
def view (store : Store) (layout : Layout) : Memory :=
  layout.map (Cell.map fun d => store d.name)

section

variable {store : Store} {layout : Layout} {name : String} {d : Data}

theorem find_view (name : String) (store : Store) (layout : Layout) :
    Cell.find name (view store layout) = (Cell.find name layout).map fun d => store d.name := by
  induction layout with
  | nil => rfl
  | cons cell rest ih =>
    simp only [view, List.map_cons, Cell.find, Cell.map]
    split
    · rfl
    · exact ih

theorem mem_of_find (h : Cell.find name layout = some d) : ∃ cell ∈ layout, cell.content = d := by
  induction layout with
  | nil => cases h
  | cons cell rest ih =>
    rw [Cell.find] at h
    split at h
    · exact ⟨cell, List.mem_cons_self, Option.some.inj h⟩
    · obtain ⟨found, hmem, hfound⟩ := ih h
      exact ⟨found, List.mem_cons_of_mem _ hmem, hfound⟩

/-- Setting a variable that no cell uses does not show. -/
theorem view_set_other (h : d.name ∉ layout.map fun cell => cell.content.name) (n : Int) :
    view (store.set d.name n) layout = view store layout := by
  refine List.map_congr_left fun cell hcell => ?_
  have hne : cell.content.name ≠ d.name := by
    intro heq
    exact h (List.mem_map.mpr ⟨cell, hcell, heq⟩)
  simp [Cell.map, Store.set, hne]

/-- Setting the variable of a cell is changing the cell. -/
theorem put_view (hfind : Cell.find name layout = some d)
    (hdistinct : (layout.map fun cell => cell.content.name).Nodup) (n : Int) :
    Cell.put name n (view store layout) = some (view (store.set d.name n) layout) := by
  induction layout with
  | nil => cases hfind
  | cons cell rest ih =>
    rw [List.map_cons, List.nodup_cons] at hdistinct
    simp only [view, List.map_cons, Cell.put, Cell.map]
    rw [Cell.find] at hfind
    split at hfind
    · rename_i hname
      obtain rfl := Option.some.inj hfind
      have hrest : view (store.set cell.content.name n) rest = view store rest :=
        view_set_other hdistinct.1 n
      simp only [view] at hrest
      simp [hname, Store.set, ← hrest]
    · rename_i hname
      have hne : cell.content.name ≠ d.name := by
        intro heq
        obtain ⟨found, hmem, rfl⟩ := mem_of_find hfind
        exact hdistinct.1 (List.mem_map.mpr ⟨found, hmem, heq.symm⟩)
      have hrest := ih hfind hdistinct.2
      simp only [view] at hrest
      simp [hname, hrest, Store.set, hne]

end

/-- The endings of both runs. A run that stopped may have stopped inside of blocks, with
some layout that has the given property. -/
inductive Agree (P : Layout → Prop) (layout : Layout) : Ending Memory → Ending Store → Prop
  | running : Agree P layout .running .running
  | stopped (inner : Layout) (store : Store) (h : P inner) :
    Agree P layout (.stopped (view store inner)) (.stopped store)
  | finished (store : Store) : Agree P layout (.finished (view store layout)) (.finished store)

variable {byZero : Int → Int} {P : Layout → Prop} {layout layout' : Layout}

variable {e : Ending Memory}

theorem Agree.bind (h : Agree P layout e e')
    (hnext : ∀ store, Agree P layout' (next (view store layout)) (next' store)) :
    Agree P layout' (e.bind next) (e'.bind next') := by
  cases h with
  | running => exact .running
  | stopped inner store hinner => exact .stopped inner store hinner
  | finished store => exact hnext store

/-- When a block is left, the cells that it added are taken off. -/
theorem Agree.leave (store : Store) (h : Agree P (cells ++ layout) e e') :
    Agree P layout (leave (view store layout) e) e' := by
  cases h with
  | running => exact .running
  | stopped inner store hinner => exact .stopped inner store hinner
  | finished store' =>
    have hdrop : (view store' (cells ++ layout)).drop
        ((view store' (cells ++ layout)).length - (view store layout).length) =
          view store' layout := by
      simp only [view, List.map_append, List.length_append, List.length_map, Nat.add_sub_cancel]
      exact List.drop_left' (List.length_map _)
    have hleave : NumberCode.leave (view store layout) (.finished (view store' (cells ++ layout))) =
        .finished (view store' layout) := congrArg Ending.finished hdrop
    rw [hleave]
    exact .finished store'

/-- Both runs have ended, or neither has. -/
theorem Agree.result (h : Agree P layout e e') (hlayout : P layout) :
    (e.result? = none ∧ e'.result? = none) ∨
      ∃ inner store, P inner ∧ e.result? = some (view store inner) ∧ e'.result? = some store := by
  cases h with
  | running => exact .inl ⟨rfl, rfl⟩
  | stopped inner store hinner => exact .inr ⟨inner, store, hinner, rfl, rfl⟩
  | finished store => exact .inr ⟨layout, store, hlayout, rfl, rfl⟩

theorem Agree.not_stuck (h : Agree P layout e e') : e ≠ .stuck ∧ e' ≠ .stuck := by
  cases h with
  | running | stopped inner store hinner | finished store => exact ⟨nofun, nofun⟩

/-- The blocks do what the code does, whatever the variables hold. -/
def Simulates (byZero : Int → Int) (P : Layout → Prop) (block last : Nat) (layout : Layout)
    (code : Code) (blocks : List Value) (layout' : Layout) : Prop :=
  ∀ fuel store, Agree P layout' (code.run byZero fuel block last (view store layout))
    ((engine byZero).run fuel blocks store)

theorem Simulates.of_steps (h : ∀ fuel store, Agree P layout'
      (code.run byZero (fuel + 1) block last (view store layout))
      ((engine byZero).run (fuel + 1) blocks store)) :
    Simulates byZero P block last layout code blocks layout' := by
  intro fuel store
  cases fuel with
  | zero => exact .running
  | succ fuel => exact h fuel store

/-- A reporter gives the value of an expression. -/
def Reports (byZero : Int → Int) (layout : Layout) (e : Arith) (v : Value) : Prop :=
  ∀ store, ∃ n, e.eval byZero (view store layout) = some n ∧ number byZero store v = some n

/-- A condition of the blocks holds when a condition of the code does. -/
def Decides (byZero : Int → Int) (layout : Layout) (c : Cond) (v : Value) : Prop :=
  ∀ store, ∃ b, c.holds byZero (view store layout) = some b ∧ truth byZero store v = some b

/-- Blocks that do what the code does end when it ends, in a store that holds its memory. -/
theorem Simulates.ends (h : Simulates byZero P block last layout code blocks layout')
    (hlayout : P layout') (store : Store) :
    ((∃ mem, Ending.EndsIn (fun fuel => code.run byZero fuel block last (view store layout)) mem) ↔
      ∃ store', Ending.EndsIn (fun fuel => (engine byZero).run fuel blocks store) store') ∧
    ∀ mem store',
      Ending.EndsIn (fun fuel => code.run byZero fuel block last (view store layout)) mem →
      Ending.EndsIn (fun fuel => (engine byZero).run fuel blocks store) store' →
      ∃ inner, P inner ∧ mem = view store' inner := by
  have hboth : ∀ mem,
      Ending.EndsIn (fun fuel => code.run byZero fuel block last (view store layout)) mem →
      ∃ inner store', P inner ∧ mem = view store' inner ∧
        Ending.EndsIn (fun fuel => (engine byZero).run fuel blocks store) store' := by
    rintro mem ⟨fuel, hfuel⟩
    rcases (h fuel store).result hlayout with ⟨hnone, -⟩ | ⟨inner, store', hinner, hmem, hstore⟩
    · rw [hnone] at hfuel
      cases hfuel
    · rw [hmem] at hfuel
      exact ⟨inner, store', hinner, (Option.some.inj hfuel).symm, fuel, hstore⟩
  refine ⟨⟨?_, ?_⟩, ?_⟩
  · rintro ⟨mem, hmem⟩
    obtain ⟨-, store', -, -, hstore⟩ := hboth mem hmem
    exact ⟨store', hstore⟩
  · rintro ⟨store', fuel, hfuel⟩
    rcases (h fuel store).result hlayout with ⟨-, hnone⟩ | ⟨inner, final, -, hmem, -⟩
    · rw [hnone] at hfuel
      cases hfuel
    · exact ⟨_, fuel, hmem⟩
  · intro mem store' hmem hstore
    obtain ⟨inner, final, hinner, rfl, hfinal⟩ := hboth mem hmem
    obtain rfl := Ending.EndsIn.unique ((engine byZero).run_growing blocks store) hfinal hstore
    exact ⟨inner, hinner, rfl⟩

section

variable {block last : Nat} {blocks inner : List Value} {body rest : Code}

theorem simulates_done (block last : Nat) (layout : Layout) :
    Simulates byZero P block last layout .done [] layout :=
  .of_steps fun _ store => .finished store

variable {d : Data} {v : Value} {namePos pos : Position} {name : String}

theorem run_setVariable (hv : number byZero store v = some n) (fuel : Nat) (blocks : List Value) :
    (engine byZero).run (fuel + 1) (.op .setVariable [.data d, v] :: blocks) store =
      (engine byZero).run fuel blocks (store.set d.name n) := by
  have hact : (engine byZero).act (.op .setVariable [.data d, v]) store =
      some (store.set d.name n) := by
    simp [engine, hv]
  simp [Engine.run, Engine.block, hact, Ending.bind]

theorem simulates_declare (hv : Reports byZero layout (value.getD (.lit 0)) v)
    (hfresh : d.name ∉ layout.map fun cell => cell.content.name)
    (hrest : Simulates byZero P block last (⟨some block, name, d⟩ :: layout) rest blocks layout') :
    Simulates byZero P block last layout (.declare pos namePos name value constant rest)
      (.op .setVariable [.data d, v] :: blocks) layout' := by
  refine .of_steps fun fuel store => ?_
  obtain ⟨n, heval, hnumber⟩ := hv store
  rw [run_setVariable hnumber]
  have hview : view (store.set d.name n) (⟨some block, name, d⟩ :: layout) =
      ⟨some block, name, n⟩ :: view store layout := by
    rw [← view_set_other hfresh n]
    simp [view, Cell.map, Store.set]
  have hstep := hrest fuel (store.set d.name n)
  rw [hview] at hstep
  simpa [Code.run, given, heval] using hstep

section

variable (hv : Reports byZero layout value v) (hfind : Cell.find name layout = some d)
  (hdistinct : (layout.map fun cell => cell.content.name).Nodup)
  (hrest : Simulates byZero P block last layout rest blocks layout')

include hv hfind hdistinct hrest

theorem simulates_assign :
    Simulates byZero P block last layout (.assign pos namePos name value rest)
      (.op .setVariable [.data d, v] :: blocks) layout' := by
  refine .of_steps fun fuel store => ?_
  obtain ⟨n, heval, hnumber⟩ := hv store
  rw [run_setVariable hnumber]
  have hput : Cell.put name n (view store layout) = some (view (store.set d.name n) layout) :=
    put_view hfind hdistinct n
  simpa [Code.run, given, heval, hput] using hrest fuel (store.set d.name n)

theorem simulates_update
    (hw : ∀ store m n, number byZero store (.data d) = some m → number byZero store v = some n →
      number byZero store w = some (op.apply byZero m n)) :
    Simulates byZero P block last layout (.update pos namePos op name value rest)
      (.op .setVariable [.data d, w] :: blocks) layout' := by
  refine .of_steps fun fuel store => ?_
  obtain ⟨n, heval, hnumber⟩ := hv store
  rw [run_setVariable (hw store _ n rfl hnumber)]
  have hput : Cell.put name (op.apply byZero (store d.name) n) (view store layout) =
      some (view (store.set d.name (op.apply byZero (store d.name) n)) layout) :=
    put_view hfind hdistinct _
  simpa [Code.run, given, find_view, hfind, heval, hput] using hrest fuel (store.set d.name _)

end

theorem simulates_giveBack (h : P layout) :
    Simulates byZero P block last layout (.giveBack pos rest)
      (.op .stop [.str "this_script"] :: blocks) layout' :=
  .of_steps fun _ store => .stopped layout store h

section

variable (hc : Decides byZero layout c v)

include hc

/-- A branch goes the same way in both runs. -/
theorem agree_branch
    (hyes : Agree P layout' yes (yes' store)) (hno : Agree P layout' no (no' store)) :
    Agree P layout' (given (c.holds byZero (view store layout)) fun b => if b then yes else no)
      ((engine byZero).branch v yes' no' store) := by
  obtain ⟨b, hholds, htruth⟩ := hc store
  cases b with
  | true => simpa [given, hholds, Engine.branch, engine, htruth] using hyes
  | false => simpa [given, hholds, Engine.branch, engine, htruth] using hno

theorem simulates_ifElse
    (hbody : Simulates byZero P (last + 1) (last + 1) layout body inner (cells ++ layout))
    (halternative : Simulates byZero P (last + (1 + body.blocks) + 1) (last + (1 + body.blocks) + 1)
      layout alternative inner' (cells' ++ layout))
    (hrest : Simulates byZero P block (last + (1 + body.blocks) + (1 + alternative.blocks)) layout
      rest blocks layout') :
    Simulates byZero P block last layout (.ifElse pos c body alternative rest)
      (.block .ifThen (v :: inner) none (some inner') :: blocks) layout' := by
  refine .of_steps fun fuel store => ?_
  have hbranch := agree_branch hc ((hbody fuel store).leave store)
    ((halternative fuel store).leave store)
  exact hbranch.bind (hrest fuel)

end

variable (hrest : Simulates byZero P block (last + (1 + body.blocks)) layout rest blocks layout')

include hrest

/-- A loop whose passes agree agrees: each run comes back to the loop with one step less. -/
theorem simulates_loop (hpass : ∀ fuel, (∀ store, Agree P layout
        ((Code.whileLoop pos c body .done).run byZero fuel block last (view store layout))
        ((engine byZero).run fuel [loop] store)) →
      ∀ store, Agree P layout
        (given (c.holds byZero (view store layout)) fun b =>
          if b then
            (leave (view store layout)
              (body.run byZero fuel (last + 1) (last + 1) (view store layout))).bind
              ((Code.whileLoop pos c body .done).run byZero fuel block last)
          else .finished (view store layout))
        ((engine byZero).block ((engine byZero).run fuel) loop store)) :
    Simulates byZero P block last layout (.whileLoop pos c body rest) (loop :: blocks) layout' := by
  have halone : ∀ fuel store, Agree P layout
      ((Code.whileLoop pos c body .done).run byZero fuel block last (view store layout))
      ((engine byZero).run fuel [loop] store) := by
    intro fuel
    induction fuel with
    | zero => exact fun store => .running
    | succ fuel ih =>
      intro store
      exact Agree.bind (hpass fuel ih store) (simulates_done block _ layout fuel)
  exact .of_steps fun fuel store => Agree.bind (hpass fuel (halone fuel) store) (hrest fuel)

variable (hbody : Simulates byZero P (last + 1) (last + 1) layout body inner (cells ++ layout))

include hbody

theorem simulates_ifThen (hc : Decides byZero layout c v) :
    Simulates byZero P block last layout (.ifThen pos c body rest)
      (.op .ifThen (v :: inner) :: blocks) layout' := by
  refine .of_steps fun fuel store => ?_
  have hbranch := agree_branch hc ((hbody fuel store).leave store) (.finished store)
  exact hbranch.bind (hrest fuel)

theorem simulates_repeatUntil (hc : Decides byZero layout (.not pos c) v) :
    Simulates byZero P block last layout (.whileLoop pos c body rest)
      (.op .repeatUntil (v :: inner) :: blocks) layout' := by
  refine simulates_loop hrest fun fuel hloop store => ?_
  have hagain := ((hbody fuel store).leave store).bind hloop
  obtain ⟨b, hnot, htruth⟩ := hc store
  obtain ⟨x, hholds, hx⟩ := Option.bind_eq_some_iff.mp hnot
  obtain rfl := Option.some.inj hx
  cases x with
  | true => simpa [given, hholds, Engine.block, Engine.branch, engine, htruth] using hagain
  | false =>
    simpa [given, hholds, Engine.block, Engine.branch, engine, htruth] using .finished store

theorem simulates_forever :
    Simulates byZero P block last layout (.whileLoop pos (.truth true) body rest)
      (.op .forever inner :: blocks) layout' := by
  refine simulates_loop hrest fun fuel hloop store => ?_
  exact ((hbody fuel store).leave store).bind hloop

end

end BlockScript.NumberCode
