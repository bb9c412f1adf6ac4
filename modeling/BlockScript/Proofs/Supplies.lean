import BlockScript.Proofs.Namesakes

/-!
What scripts may be made of. A variable is at hand for a target if one of its name and kind is among
the variables of the target or of the stage. While a project is built, variables are only added, so
what is at hand stays so. All that names stand for is at hand where it can be looked up: globals,
the variables of a target, results, messages and what tells clones apart. And so is all that the
scripts written so far refer to.

The blocks of a script are those of operators, those that statements are made of, and those of names
of the language that the target may use. What a block sets or changes, and to what, depends on the
statement that it is built for.
-/
namespace BlockScript

open Build (dataOf cloneData isOutputName IsFullName)

namespace Value

mutual

/-- The variables and lists in a value, at any depth. -/
def references : Value → List Data
  | list items => referencesAll items
  | broadcast name => references name
  | data d => [d]
  | call _ arguments => referencesAll arguments
  | block _ arguments _ alternative => referencesAll arguments ++ referencesElse alternative
  | _ => []

def referencesAll : List Value → List Data
  | [] => []
  | v :: rest => references v ++ referencesAll rest

def referencesElse : Option (List Value) → List Data
  | none => []
  | some script => referencesAll script

end

attribute [simp] references referencesAll referencesElse

end Value

/-- The scripts of a target: those that hats start, and those of its custom blocks. -/
def Target.written (t : Target) : List (List Value) :=
  t.scripts ++ t.custom.filterMap CustomBlock.script

namespace Project

/-- The variables and lists of a target and those of the stage. -/
def dataAt (p : Project) (place : Place) : List Data :=
  ((p.target? place).map dataOf).getD [] ++ dataOf p.stage

/-- A variable of the same name and kind is at hand for a target. -/
def Has (p : Project) (place : Place) (d : Data) : Prop :=
  ∃ own ∈ p.dataAt place, own.name = d.name ∧ own.isList = d.isList

end Project

/-- Whether a variable is a list is a matter of its type. -/
def Data.Kinded (d : Data) : Prop := d.isList = (d.type == .typed .ofList)

theorem Data.Kinded.of_type {d : Data} (h : d.Kinded) (htype : d.type ≠ .typed .ofList) :
    d.isList = false := h.trans (beq_false_of_ne htype)

theorem Data.Kinded.retyped {d : Data} {t : TypeSet} (h : d.Kinded) (htype : d.type ≠ .typed .ofList)
    (ht : t = .ofNumber ∨ t = .ofString) : Data.Kinded { d with type := .typed t } := by
  refine (h.of_type htype).trans ?_
  rcases ht with rfl | rfl <;> rfl

/-- A variable may stand on a target: only sprites have clones to tell apart. -/
structure Data.Stands (place : Place) (d : Data) : Prop where
  kinded : d.Kinded
  clone : d.name = cloneData.name → place.isSprite = true

/-- What trees bring along to scripts: the blocks in their literals, perhaps calls as well, and the
blocks that a target has, with the numbers of their parameters. -/
structure Terms where
  literal : Opcode → List Value → Prop
  calls : Prop
  custom : Place → String → Nat → Prop

/-- A block may be called with a number of arguments. -/
def Terms.Calls (w : Terms) (place : Place) (label : String) (count : Nat) : Prop :=
  w.calls ∨ w.custom place label count

/-- A block has a label and a number of parameters by a function of a script. -/
def Declares (body : List Stmt) (label : String) (count : Nat) : Prop :=
  ∃ pos returns name parameters warp inner,
    .function pos returns name parameters warp inner ∈ body ∧
    label = Build.blockLabel name parameters.length ∧ count = parameters.length

/-- The blocks of all functions of a script may be called on a target. -/
def Terms.Knows (w : Terms) (place : Place) (body : List Stmt) : Prop :=
  ∀ label count, Declares body label count → w.Calls place label count

/-- The blocks that statements and hats are made of, if they set and change nothing. -/
def Opcode.isFrame : Opcode → Bool
  | .ifThen | .forever | .repeatUntil | .stop | .whenFlagClicked | .whenKeyPressed
  | .whenThisSpriteClicked | .whenBackdropSwitchesTo | .whenGreaterThan | .whenBroadcastReceived
  | .whenStartAsClone | .waitUntil | .keyPressed => true
  | _ => false

/-- The blocks that change the list which is their last argument. -/
def Opcode.isListChange : Opcode → Bool
  | .clearList | .addToList | .insertIntoList | .deleteOfList => true
  | _ => false

/-- The blocks that the scripts of a target may have. -/
inductive Shape (w : Terms) (p : Project) (place : Place) : Opcode → List Value → Prop
  | literal {op : Opcode} {arguments : List Value} (h : w.literal op arguments) :
    Shape w p place op arguments
  | operator {op : Opcode} {arguments : List Value} (h : op.isOperator = true) :
    Shape w p place op arguments
  | frame {op : Opcode} {arguments : List Value} (h : op.isFrame = true) :
    Shape w p place op arguments
  /-- A block of a name of the language that may be used here. -/
  | offered {op : Opcode} {arguments : List Value} {entry : Entry} (h : entry ∈ Builtins.entries)
    (hallowed : entry.spriteOnly = true → place.isSprite = true)
    (hop : op ∈ entry.builtin.opcodes) : Shape w p place op arguments
  /-- A variable is set to what it takes; a list can only be set to itself. No constant is set but
  where it is declared. -/
  | set {d : Data} {v : Value} (hd : d ∈ p.dataAt place)
    (hname : d.constant = false ∨ IsFullName d.name) (hlist : d.isList = true → v = .data d)
    (hv : d.Takes v) : Shape w p place .setVariable [.data d, v]
  | result {d : Data} {v : Value} (hd : d ∈ p.dataAt place) (hname : isOutputName d.name = true)
    (hv : d.Takes v) : Shape w p place .setVariable [.data d, v]
  /-- A message is stored before it is sent. -/
  | message {d : Data} {v : Value} (hd : d.type = .message) (hlist : d.isList = false) :
    Shape w p place .setVariable [.data d, v]
  | change {op : Opcode} {arguments : List Value} {d : Data} (hop : op.isListChange = true)
    (hlist : d.isList = true) (hd : arguments.getLast? = some (.data d)) :
    Shape w p place op arguments
  /-- What an item is replaced in is a list or a text, as far as its type tells. -/
  | replace {d : Data} {i v : Value} {type : TypeSet} (htype : d.type = .typed type)
    (hkind : type.meets .ofList = true ∨ type.meets .ofString = true) (hd : d.Kinded) :
    Shape w p place .replaceInList [i, .data d, v]

namespace Project

/-- What the scripts of a target may be made of: variables at hand, broadcasts with a literal for a
name, calls with the right number of arguments, and the blocks that the target may have. -/
def Supplies (w : Terms) (p : Project) (place : Place) : Value → Prop
  | .data d => p.Has place d ∧ d.Kinded
  | .broadcast name => name.references = []
  | .call label arguments => w.Calls place label arguments.length
  | .block op arguments _ _ => Shape w p place op arguments
  | _ => True

/-- Every variable in a script is among those of its target or of the stage, by name and kind. -/
def Closed (p : Project) : Prop :=
  ∀ t ∈ p.targets, ∀ script ∈ t.written, ∀ v ∈ script, ∀ d ∈ v.references,
    ∃ own ∈ dataOf t ++ dataOf p.stage, own.name = d.name ∧ own.isList = d.isList

/-- No target loses a variable. -/
def Grows (p p' : Project) : Prop := ∀ place, p.dataAt place ⊆ p'.dataAt place

variable {p p' : Project} {place : Place} {d : Data}

theorem Grows.refl (p : Project) : Grows p p := fun _ => List.Subset.refl _

theorem Grows.has (h : Grows p p') (hd : p.Has place d) : p'.Has place d := by
  obtain ⟨own, hown, hsame⟩ := hd
  exact ⟨own, h place hown, hsame⟩

theorem Grows.shape (h : Grows p p') (hshape : Shape w p place op arguments) :
    Shape w p' place op arguments := by
  cases hshape with
  | literal h => exact .literal h
  | operator h => exact .operator h
  | frame h => exact .frame h
  | offered h hallowed hop => exact .offered h hallowed hop
  | set hd hname hlist hv => exact .set (h place hd) hname hlist hv
  | result hd hname hv => exact .result (h place hd) hname hv
  | message hd hlist => exact .message hd hlist
  | change hop hlist hd => exact .change hop hlist hd
  | replace htype hkind hd => exact .replace htype hkind hd

theorem Grows.supplies (h : Grows p p') (part : Value) (hpart : p.Supplies w place part) :
    p'.Supplies w place part := by
  cases part with
  | data d => exact ⟨h.has hpart.1, hpart.2⟩
  | broadcast | call => exact hpart
  | block op arguments retyped alternative => exact h.shape hpart
  | _ => trivial

/-- Operators stay within what is supplied. -/
theorem lenient_supplies {p : Project} : Value.Lenient (fun _ => True) (p.Supplies w place) where
  operator _ _ hop _ _ := .operator hop
  item _ := .operator rfl
  retypedBlock _ _ _ _ _ h _ := h
  retypedData _ _ h htype ht := ⟨h.1, h.2.retyped htype ht⟩

theorem dataAt_of_stage (h : d ∈ p.dataAt .stage) (place : Place) : d ∈ p.dataAt place := by
  refine List.mem_append_right _ ?_
  simpa [dataAt, target?] using h

theorem mem_dataAt (ht : p.target? place = some t) (hd : d ∈ dataOf t) : d ∈ p.dataAt place := by
  refine List.mem_append_left _ ?_
  rw [ht]
  exact hd

theorem has_of_mem (h : d ∈ p.dataAt place) : p.Has place d := ⟨d, h, rfl, rfl⟩

theorem grows_modify (p : Project) (place : Place)
    (hf : ∀ t, dataOf t ⊆ dataOf (f t)) : Grows p (p.modify place f) := by
  have htarget : ∀ other, ((p.target? other).map dataOf).getD [] ⊆
      (((p.modify place f).target? other).map dataOf).getD [] := by
    intro other
    rw [target?_modify]
    split
    · rename_i hsame
      subst hsame
      cases p.target? other with
      | none => exact List.Subset.refl _
      | some t => exact hf t
    · exact List.Subset.refl _
  intro other d hd
  rcases List.mem_append.mp hd with hd | hd
  · exact List.mem_append_left _ (htarget other hd)
  · exact List.mem_append_right _ (htarget .stage hd)

theorem exists_place (ht : t ∈ p.targets) : ∃ place, p.target? place = some t := by
  rcases List.mem_cons.mp ht with rfl | ht
  · exact ⟨.stage, rfl⟩
  · obtain ⟨i, hi⟩ := List.mem_iff_getElem?.mp ht
    exact ⟨.sprite i, hi⟩

theorem exists_of_mem_dataAt (h : d ∈ p.dataAt place) :
    ∃ place' t, p.target? place' = some t ∧ d ∈ dataOf t := by
  rcases List.mem_append.mp h with h | h
  · cases ht : p.target? place with
    | none =>
      rw [ht] at h
      cases h
    | some t =>
      rw [ht] at h
      exact ⟨place, t, ht, h⟩
  · exact ⟨.stage, p.stage, rfl, h⟩

end Project

section

open Value

variable {w : Terms} {p : Project} {place : Place}

mutual

/-- All that is supplied is at hand, at any depth. -/
theorem Value.Every.has {v : Value} (h : v.Every (p.Supplies w place)) :
    ∀ d ∈ v.references, p.Has place d := by
  cases v with
  | list items => exact EveryAll.has h
  | broadcast name =>
    have hnone : name.references = [] := h
    simp [hnone]
  | data d =>
    intro d' hd'
    obtain rfl := List.mem_singleton.mp hd'
    exact h.1
  | call label arguments => exact EveryAll.has h.2
  | block op arguments retyped alternative =>
    intro d hd
    rcases List.mem_append.mp hd with hd | hd
    · exact EveryAll.has h.2.1 d hd
    · cases alternative with
      | none => cases hd
      | some script => exact EveryAll.has h.2.2 d hd
  | _ => simp

theorem Value.EveryAll.has (h : EveryAll (p.Supplies w place) values) :
    ∀ d ∈ referencesAll values, p.Has place d := by
  cases values with
  | nil => simp
  | cons v rest =>
    intro d hd
    rcases List.mem_append.mp hd with hd | hd
    · exact Every.has h.1 d hd
    · exact EveryAll.has h.2 d hd

end

/-- A script is made of parts with a property. One that a broadcast starts may first take the
message into a variable of any type. -/
inductive Composed (P : Value → Prop) : List Value → Prop
  | plain {script : List Value} (h : EveryAll P script) : Composed P script
  | receiving {name : Value} {d message : Data} {script : List Value}
    (hd : d.type = .typed .general) (hlist : d.isList = false) (hmessage : message.type = .message)
    (hparts : EveryAll P [.op .whenBroadcastReceived [.broadcast name], .data d, .data message])
    (h : EveryAll P script) :
    Composed P (.op .whenBroadcastReceived [.broadcast name] ::
      .op .setVariable [.data d, .data message] :: script)

theorem Composed.mono (h : Composed P script) (hP : ∀ part, P part → P' part) :
    Composed P' script := by
  cases h with
  | plain h => exact .plain (h.mono hP)
  | receiving hd hlist hmessage hparts h =>
    exact .receiving hd hlist hmessage (hparts.mono hP) (h.mono hP)

theorem Composed.every (h : Composed P script) (hreceived : ∀ d message : Data, d.isList = false →
    P (.op .setVariable [.data d, .data message])) : ∀ v ∈ script, v.Every P := by
  cases h with
  | plain h => exact everyAll_iff.mp h
  | receiving _ hlist _ hparts h =>
    simp only [List.forall_mem_cons]
    exact ⟨hparts.1, ⟨hreceived _ _ hlist, ⟨hparts.2.1, hparts.2.2.1, trivial⟩, trivial⟩,
      everyAll_iff.mp h⟩

theorem Composed.has {script : List Value} (h : Composed (p.Supplies w place) script) :
    ∀ v ∈ script, ∀ d ∈ v.references, p.Has place d := by
  cases h with
  | plain h => exact fun v hv => (everyAll_iff.mp h v hv).has
  | receiving _ _ _ hparts h =>
    simp only [List.forall_mem_cons]
    refine ⟨hparts.1.has, fun data hdata => ?_, fun v hv => (everyAll_iff.mp h v hv).has⟩
    simp only [references, referencesAll, referencesElse, List.append_nil] at hdata
    rcases List.mem_append.mp hdata with hdata | hdata
    · exact List.mem_singleton.mp hdata ▸ hparts.2.1.1
    · exact List.mem_singleton.mp hdata ▸ hparts.2.2.1.1

end

namespace Terms

/-- What a literal may be made of. -/
def Written (w : Terms) : Value → Prop
  | .data _ => False
  | .broadcast name => name.references = []
  | .call _ _ => w.calls
  | .block op arguments _ _ => w.literal op arguments
  | _ => True

/-- The literals in some expressions hold no variables, and no other blocks and calls than those
expected. -/
def Literal (w : Terms) (es : List Expr) : Prop := ∀ v, .value v ∈ es → v.Every w.Written

variable {w : Terms} {p : Project} {place : Place}

@[simp] theorem literal_append : w.Literal (es ++ es') ↔ w.Literal es ∧ w.Literal es' := by
  simp only [Literal, List.mem_append, or_imp, forall_and]

/-- What a literal may be made of is supplied everywhere. -/
theorem Written.supplies (part : Value) (h : w.Written part) : p.Supplies w place part := by
  cases part with
  | data d => exact h.elim
  | broadcast name => exact h
  | call label arguments => exact .inl h
  | block op arguments retyped alternative => exact .literal h
  | _ => trivial

end Terms

namespace Draft

open Value (EveryAll)

/-- A target that is built: the stage, or a sprite that is listed. -/
def Lists (d : Draft) (place : Place) : Prop :=
  place = .stage ∨ ∃ item ∈ d.sprites, place = .sprite item.2.index

/-- The script that a target is built from. -/
def Tells (d : Draft) (place : Place) (body : List Stmt) : Prop :=
  place = .stage ∧ body = d.stageStatements ∨
    ∃ item ∈ d.sprites, place = .sprite item.2.index ∧ body = item.2.statements

/-- All that a draft records is there where it is recorded, and its scripts are made of what is
supplied. A listed sprite is a target of its name. -/
structure Supplied (w : Terms) (d : Draft) : Prop where
  stands : ∀ place t, d.project.target? place = some t → ∀ own ∈ dataOf t, own.Stands place
  globals : ∀ item ∈ d.globals, item.2 ∈ d.project.dataAt .stage
  stage : ∀ item ∈ d.stageLocals, item.2 ∈ d.project.dataAt .stage
  tables : ∀ item ∈ d.sprites, ∀ own ∈ item.2.locals,
    own.2 ∈ d.project.dataAt (.sprite item.2.index)
  broadcasts : ∀ b ∈ d.broadcasts, b.message ∈ d.project.dataAt .stage ∧
    b.message.type = .message ∧ b.name.references = []
  scripts : ∀ place t, d.project.target? place = some t → ∀ script ∈ t.written,
    Composed (d.project.Supplies w place) script
  keys : d.sprites.keys.Nodup
  named : ∀ item ∈ d.sprites,
    (d.project.target? (.sprite item.2.index)).map Target.name = some item.1
  stageLiteral : w.Literal (Stmt.nodesAll d.stageStatements)
  literal : ∀ item ∈ d.sprites, w.Literal (Stmt.nodesAll item.2.statements)

variable {w : Terms} {d d' : Draft} {place : Place}

theorem Supplied.kinded (h : d.Supplied w) (hown : own ∈ d.project.dataAt place) : own.Kinded := by
  obtain ⟨place', t, ht, hmem⟩ := Project.exists_of_mem_dataAt hown
  exact (h.stands place' t ht own hmem).kinded

theorem Supplied.closed (h : d.Supplied w) : d.project.Closed := by
  intro t ht script hscript v hv data hdata
  obtain ⟨place, hplace⟩ := Project.exists_place ht
  obtain ⟨own, hown, hsame⟩ := (h.scripts place t hplace script hscript).has v hv data hdata
  rw [Project.dataAt, hplace] at hown
  exact ⟨own, hown, hsame⟩

/-- A listed target is there. -/
theorem Supplied.exists_target (h : d.Supplied w) (hplace : d.Lists place) :
    ∃ t, d.project.target? place = some t := by
  rcases hplace with rfl | ⟨item, hitem, rfl⟩
  · exact ⟨_, rfl⟩
  · obtain ⟨t, ht, -⟩ := Option.map_eq_some_iff.mp (h.named item hitem)
    exact ⟨t, ht⟩

theorem supplied_fresh (w : Terms) (folder : String) : (Draft.fresh folder).Supplied w where
  stands place t ht own hown := by
    cases place with
    | stage =>
      obtain rfl := Option.some.inj ht
      cases hown
    | sprite i => cases ht
  globals item hitem := by cases hitem
  stage item hitem := by cases hitem
  tables item hitem := by cases hitem
  broadcasts b hb := by cases hb
  scripts place t ht script hscript := by
    cases place with
    | stage =>
      obtain rfl := Option.some.inj ht
      cases hscript
    | sprite i => cases ht
  keys := List.nodup_nil
  named item hitem := by cases hitem
  stageLiteral := nofun
  literal item hitem := by cases hitem

section

variable (h : d.Supplied w)

include h

/-- A target may get variables, and scripts that are made of what is supplied. -/
theorem Supplied.modify (hname : ∀ t, (f t).name = t.name)
    (hdata : ∀ t, dataOf t ⊆ dataOf (f t))
    (hstands : ∀ t, ∀ own ∈ dataOf (f t), own ∈ dataOf t ∨ own.Stands place)
    (hwritten : ∀ t, d.project.target? place = some t → ∀ script ∈ (f t).written,
      script ∈ t.written ∨ Composed (d.project.Supplies w place) script) :
    { d with project := d.project.modify place f }.Supplied w := by
  have hgrows := d.project.grows_modify place hdata
  refine { h with
    stands := fun other t ht own hown => ?_
    globals := fun item hitem => hgrows _ (h.globals item hitem)
    stage := fun item hitem => hgrows _ (h.stage item hitem)
    tables := fun item hitem own hown => hgrows _ (h.tables item hitem own hown)
    broadcasts := fun b hb => ⟨hgrows _ (h.broadcasts b hb).1, (h.broadcasts b hb).2⟩
    scripts := fun other t ht script hscript => ?_
    named := fun item hitem => ?_ }
  · rw [Project.target?_modify] at ht
    split at ht
    · rename_i hsame
      subst hsame
      obtain ⟨before, hbefore, rfl⟩ := Option.map_eq_some_iff.mp ht
      rcases hstands before own hown with hold | hnew
      · exact h.stands _ before hbefore own hold
      · exact hnew
    · exact h.stands other t ht own hown
  · refine Composed.mono ?_ fun part hpart => hgrows.supplies part hpart
    rw [Project.target?_modify] at ht
    split at ht
    · rename_i hsame
      subst hsame
      obtain ⟨before, hbefore, rfl⟩ := Option.map_eq_some_iff.mp ht
      rcases hwritten before hbefore script hscript with hold | hnew
      · exact h.scripts _ before hbefore script hold
      · exact hnew
    · exact h.scripts other t ht script hscript
  · rw [← h.named item hitem, Project.target?_modify]
    split
    · rename_i hsame
      subst hsame
      cases d.project.target? (.sprite item.2.index) with
      | none => rfl
      | some t => exact congrArg some (hname t)
    · rfl

/-- A variable of the stage may be looked up as a global. -/
theorem Supplied.putGlobal (hdata : data ∈ d.project.dataAt .stage) :
    { d with globals := Assoc.put name data d.globals }.Supplied w :=
  { h with globals := Assoc.forall_put hdata h.globals }

theorem Supplied.addBroadcast (hmessage : b.message ∈ d.project.dataAt .stage)
    (htype : b.message.type = .message) (hname : b.name.references = []) :
    { d with broadcasts := d.broadcasts ++ [b] }.Supplied w :=
  { h with
    broadcasts := fun own hown => by
      rcases List.mem_append.mp hown with hown | hown
      · exact h.broadcasts own hown
      · obtain rfl := List.mem_singleton.mp hown
        exact ⟨hmessage, htype, hname⟩ }

/-- The entry under the name of a listed sprite is the one with its index. -/
theorem Supplied.index_of_get? (hplace : d.Lists (.sprite i))
    (ht : d.project.sprites[i]? = some t) (hentry : Assoc.get? t.name d.sprites = some entry) :
    entry.index = i := by
  rcases hplace with hstage | ⟨item, hitem, hi⟩
  · cases hstage
  · obtain rfl := Place.sprite.inj hi
    have hname := h.named item hitem
    rw [Project.target?, ht] at hname
    have hget := Assoc.get?_of_mem h.keys hitem
    rw [← Option.some.inj hname] at hget
    rw [Option.some.inj (hentry.symm.trans hget)]

/-- What the table of a target that is built records is there for it. -/
theorem Supplied.locals (hplace : d.Lists place)
    (htable : d.locals? place = some table) : ∀ item ∈ table, item.2 ∈ d.project.dataAt place := by
  cases place with
  | stage =>
    obtain rfl := Option.some.inj htable
    exact h.stage
  | sprite i =>
    obtain ⟨t, ht, htable⟩ := Option.bind_eq_some_iff.mp htable
    obtain ⟨entry, hentry, htable⟩ := Option.bind_eq_some_iff.mp htable
    obtain rfl := Option.some.inj htable
    have hindex := h.index_of_get? hplace ht hentry
    have hall := h.tables _ (Assoc.mem_of_get? hentry)
    rwa [hindex] at hall

/-- The table of a target that is built may record what is there for it. -/
theorem Supplied.setLocals (hplace : d.Lists place)
    (htable : ∀ item ∈ table, item.2 ∈ d.project.dataAt place) :
    (d.setLocals place table).Supplied w := by
  cases place with
  | stage => exact { h with stage := htable }
  | sprite i =>
    simp only [Draft.setLocals]
    split
    · rename_i t ht
      split
      · rename_i entry hentry
        have hindex := h.index_of_get? hplace ht hentry
        have hold := Assoc.mem_of_get? hentry
        refine { h with
          tables := Assoc.forall_put ?_ h.tables
          keys := Assoc.nodup_keys_put h.keys
          named := Assoc.forall_put (h.named (t.name, entry) hold) h.named
          literal := Assoc.forall_put (h.literal (t.name, entry) hold) h.literal }
        rw [hindex]
        exact htable
      · exact h
    · exact h

end

end Draft

end BlockScript
