import BlockScript.Proofs.ClosedProjects

/-!
The blocks that the scripts of a project have. On the stage there are none that only sprites can
use. The commands that change data are given data of their kind, but for three cases: an operator
may give a list back as it was, and then the list is set to itself; an item may be replaced in a
variable that holds a text; and a tree may ask for a function whose result is a list. A variable is
set to what its type lets it take; only messages are passed on whatever they are.
-/
namespace BlockScript

open Build (dataOf cloneData isOutputName)

/-- A property of blocks as one of the parts of a value. -/
def Value.IfBlock (P : Opcode → List Value → Prop) : Value → Prop
  | block op arguments _ _ => P op arguments
  | _ => True

/-- Every block in the scripts of a target, at any depth, has a property. -/
def Target.EveryBlock (P : Opcode → List Value → Prop) (t : Target) : Prop :=
  ∀ script ∈ t.written, ∀ v ∈ script, v.Every (Value.IfBlock P)

section

variable {w : Terms} {d : Draft} {place : Place} {t : Target} {P : Opcode → List Value → Prop}
  (h : d.Supplied w) (ht : d.project.target? place = some t)
  (hP : ∀ op arguments, Shape w d.project place op arguments → P op arguments)

include h ht hP

theorem Draft.Supplied.composed :
    ∀ script ∈ t.written, Composed (Value.IfBlock P) script := by
  intro script hscript
  refine (h.scripts place t ht script hscript).mono fun part hpart => ?_
  cases part with
  | block op arguments retyped alternative => exact hP op arguments hpart
  | _ => trivial

theorem Draft.Supplied.everyBlock (hreceived : ∀ own message : Data, own.isList = false →
    P .setVariable [.data own, .data message]) : t.EveryBlock P :=
  fun script hscript => (h.composed ht hP script hscript).every hreceived

end

/-- The literals in some expressions hold no variables, no broadcasts and no blocks. -/
def Expr.Inert (es : List Expr) : Prop :=
  ∀ v, .value v ∈ es → v.Every fun part => ∃ label arguments, part = .call label arguments

theorem Expr.Inert.literal (h : Expr.Inert es) {w : Terms} (hw : w.calls) : w.Literal es := by
  refine fun v hv => (h v hv).mono ?_
  rintro _ ⟨label, arguments, rfl⟩
  exact hw

section

/-- A block that is built by a name which only sprites can use. -/
def Opcode.SpriteOnly (op : Opcode) : Prop :=
  ∃ entry ∈ Builtins.entries, entry.spriteOnly = true ∧
    ∃ arguments inner retyped alternative,
      entry.builtin.apply arguments = .ok (.block op inner retyped alternative)

/-- A name that has blocks of its own builds no others. -/
theorem Builtin.mem_opcodes {b : Builtin} (hb : b.opcodes ≠ []) {op : Opcode}
    {arguments inner : List Value} {retyped : Option TypeSet} {alternative : Option (List Value)}
    (h : b.apply arguments = .ok (.block op inner retyped alternative)) : op ∈ b.opcodes := by
  revert h
  fun_cases apply b arguments with
  | case1 own =>
    intro h
    simp only [Value.apply] at h
    repeat' split at h
    all_goals cases h
    all_goals exact List.mem_singleton_self _
  | case3 | case4 | case5 | case6 | case7 => exact absurd rfl hb
  | case8 | case9 =>
    rintro ⟨⟩
    simp only [opcodes]
    split <;> simp
  | case17 => rintro ⟨⟩
  | _ =>
    rintro ⟨⟩
    exact List.mem_singleton_self _

/-- The blocks of the names that only sprites can use. -/
def Builtins.spriteOpcodes : List Opcode :=
  (entries.filter Entry.spriteOnly).flatMap fun entry => entry.builtin.opcodes

theorem Opcode.SpriteOnly.mem (h : op.SpriteOnly) : op ∈ Builtins.spriteOpcodes := by
  have hown : ∀ entry ∈ Builtins.entries.filter Entry.spriteOnly, entry.builtin.opcodes ≠ [] := by
    decide
  obtain ⟨entry, hentry, honly, arguments, inner, retyped, alternative, happly⟩ := h
  have hmem := List.mem_filter.mpr ⟨hentry, honly⟩
  exact List.mem_flatMap.mpr ⟨entry, hmem, Builtin.mem_opcodes (hown entry hmem) happly⟩

/-- Nothing on the stage is for sprites only: no block, and no variable that tells clones apart. -/
structure Project.Unrestricted (p : Project) : Prop where
  blocks : p.stage.EveryBlock fun op _ => ¬ op.SpriteOnly
  clone : ∀ d ∈ dataOf p.stage, d.name ≠ cloneData.name

end

section

/-- The commands that set a variable or change a list. -/
def Opcode.isDataChange (op : Opcode) : Bool :=
  op == .setVariable || op == .replaceInList || op.isListChange

/-- A command that changes data is given a variable or a list, as it needs. But a list may be set
to itself, as may be a result that is a list; and what an item is replaced in is a list only if its
type is that of lists. -/
structure Opcode.Fed (op : Opcode) (arguments : List Value) : Prop where
  set : op = .setVariable → ∃ d v, arguments = [.data d, v] ∧
    (d.isList = true → v = .data d ∨ isOutputName d.name = true)
  change : op.isListChange = true →
    ∃ d : Data, arguments.getLast? = some (.data d) ∧ d.isList = true
  replace : op = .replaceInList → ∃ i d v type, arguments = [i, .data d, v] ∧
    d.type = .typed type ∧ (d.isList = true ↔ type = .ofList) ∧
    (type.meets .ofList = true ∨ type.meets .ofString = true)

theorem Opcode.Fed.of_other {op : Opcode} (h : op.isDataChange = false) (arguments : List Value) :
    op.Fed arguments := by
  simp only [isDataChange, Bool.or_eq_false_iff, beq_eq_false_iff_ne] at h
  obtain ⟨⟨hset, hreplace⟩, hchange⟩ := h
  exact ⟨fun heq => absurd heq hset, fun htrue => by simp [hchange] at htrue,
    fun heq => absurd heq hreplace⟩

theorem Opcode.isDataChange_eq_false {op : Opcode} (h : op.isOperator = true ∨ op.isFrame = true) :
    op.isDataChange = false := by
  cases op <;> first | rfl | simp [isOperator, isFrame] at h

theorem Opcode.isDataChange_of_offered (hentry : entry ∈ Builtins.entries)
    (hop : op ∈ entry.builtin.opcodes) : op.isDataChange = false := by
  have hall : ∀ entry ∈ Builtins.entries, ∀ op ∈ entry.builtin.opcodes,
      op.isDataChange = false := by decide +kernel
  exact hall entry hentry op hop

end

/-- A variable is set to what it takes, and it is there with the type that it is set by. But the
message of a broadcast is set to what is sent. -/
def Project.Assigned (p : Project) (place : Place) (op : Opcode) (arguments : List Value) : Prop :=
  op = .setVariable → ∃ d v, arguments = [.data d, v] ∧
    (d.type = .message ∨ d ∈ p.dataAt place ∧ d.Takes v)

/-- In all scripts, variables are set to what they take. -/
def Project.Compatible (p : Project) : Prop :=
  ∀ place t, p.target? place = some t →
    ∀ script ∈ t.written, Composed (Value.IfBlock (p.Assigned place)) script

/-- Trees that bring along no blocks. -/
def Terms.inert : Terms := ⟨fun _ _ => False, True, fun _ _ _ => True⟩

namespace Terms

/-- What stands on the stage is not for sprites only. -/
theorem not_spriteOnly_of_shape (h : Shape inert p .stage op arguments) : ¬ op.SpriteOnly := by
  have hown : ∀ op ∈ Builtins.spriteOpcodes,
      op.isOperator = false ∧ op.isFrame = false ∧ op.isDataChange = false := by decide
  have hother : ∀ entry ∈ Builtins.entries, entry.spriteOnly = false →
      ∀ op ∈ entry.builtin.opcodes, op ∉ Builtins.spriteOpcodes := by decide +kernel
  intro honly
  obtain ⟨hoperator, hframe, hchange⟩ := hown op honly.mem
  cases h with
  | literal h => exact h
  | operator h => simp [hoperator] at h
  | frame h => simp [hframe] at h
  | offered hentry hallowed hop =>
    cases hsprite : Entry.spriteOnly _ with
    | true => cases hallowed hsprite
    | false => exact hother _ hentry hsprite op hop honly.mem
  | set | result | message | replace => cases hchange
  | change hop _ _ => simp [Opcode.isDataChange, hop] at hchange

theorem fed_of_shape (h : Shape inert p place op arguments) : op.Fed arguments := by
  cases h with
  | literal h => exact h.elim
  | operator h => exact .of_other (Opcode.isDataChange_eq_false (.inl h)) _
  | frame h => exact .of_other (Opcode.isDataChange_eq_false (.inr h)) _
  | offered hentry _ hop => exact .of_other (Opcode.isDataChange_of_offered hentry hop) _
  | set _ _ hlist _ => exact ⟨fun _ => ⟨_, _, rfl, fun h => .inl (hlist h)⟩, nofun, nofun⟩
  | result _ hname _ => exact ⟨fun _ => ⟨_, _, rfl, fun _ => .inr hname⟩, nofun, nofun⟩
  | message _ hlist =>
    exact ⟨fun _ => ⟨_, _, rfl, fun h => by simp [hlist] at h⟩, nofun, nofun⟩
  | @change _ _ d hop hlist hd =>
    refine ⟨fun h => ?_, fun _ => ⟨d, hd, hlist⟩, fun h => ?_⟩ <;>
    · subst h
      cases hop
  | replace htype hkind hd =>
    refine ⟨nofun, nofun, fun _ => ⟨_, _, _, _, rfl, htype, ?_, hkind⟩⟩
    rw [hd, htype, beq_iff_eq, DataType.typed.injEq]

theorem assigned_of_shape (h : Shape inert p place op arguments) :
    p.Assigned place op arguments := by
  have hother : op.isDataChange = false → p.Assigned place op arguments := by
    rintro hfalse rfl
    cases hfalse
  cases h with
  | literal h => exact h.elim
  | operator h => exact hother (Opcode.isDataChange_eq_false (.inl h))
  | frame h => exact hother (Opcode.isDataChange_eq_false (.inr h))
  | offered hentry _ hop => exact hother (Opcode.isDataChange_of_offered hentry hop)
  | set hd _ _ hv | result hd _ hv => exact fun _ => ⟨_, _, rfl, .inr ⟨hd, hv⟩⟩
  | message hd _ => exact fun _ => ⟨_, _, rfl, .inl hd⟩
  | change hop _ _ =>
    rintro rfl
    cases hop
  | replace => nofun

end Terms

theorem Draft.Supplied.unrestricted {d : Draft} (h : d.Supplied Terms.inert) :
    d.project.Unrestricted where
  blocks := by
    have hset : ¬ Opcode.SpriteOnly .setVariable := fun honly => by
      have hmem := honly.mem
      revert hmem
      decide
    have hstage : d.project.target? .stage = some d.project.stage := rfl
    exact h.everyBlock hstage (fun _ _ => Terms.not_spriteOnly_of_shape) fun _ _ _ => hset
  clone own hown heq := by
    cases (h.stands .stage _ rfl own hown).clone heq

theorem Draft.Supplied.fed {d : Draft} (h : d.Supplied Terms.inert) :
    ∀ t ∈ d.project.targets, t.EveryBlock Opcode.Fed := by
  intro t ht
  obtain ⟨place, hplace⟩ := Project.exists_place ht
  refine h.everyBlock hplace (fun _ _ => Terms.fed_of_shape) fun own message hlist => ?_
  exact ⟨fun _ => ⟨own, _, rfl, fun htrue => by simp [hlist] at htrue⟩, nofun, nofun⟩

theorem Draft.Supplied.compatible {d : Draft} (h : d.Supplied Terms.inert) : d.project.Compatible :=
  fun _ _ ht => h.composed ht fun _ _ => Terms.assigned_of_shape

namespace Build

theorem supplied_history (hinert : ∀ edit ∈ edits, Expr.Inert edit.nodes)
    (h : history edits (.fresh session folder) = .ok () s') : s'.draft.Supplied Terms.inert :=
  supplying_history (fun edit hedit => ⟨(hinert edit hedit).literal trivial, fun _ => trivial⟩) _ _ _ h
    (Draft.supplied_fresh _ folder)

/-- On the stage there is no block that only sprites can use, at any depth of any script, and no
variable that tells clones apart. This holds after every history of edits, in any order, if the
literals of the scripts hold no blocks; and of what every run of the compiler builds. -/
theorem stage_unrestricted :
    (∀ (session : Session) (folder : String) (edits : List Edit) (s' : BuildState),
      (∀ edit ∈ edits, Expr.Inert edit.nodes) →
      history edits (.fresh session folder) = .ok () s' → s'.draft.project.Unrestricted) ∧
    ∀ (location : Location) (o : Options) (s s' : BuildState), compile location o s = .ok () s' →
      s'.draft.project.Unrestricted := by
  refine ⟨fun session folder edits s' hinert hrun => ?_, fun location o s s' hrun => ?_⟩
  · exact (supplied_history hinert hrun).unrestricted
  · exact (supplied_compile Terms.inert trivial hrun).1.unrestricted

/-- Commands on a list and a text of the stage, and a sprite that moves if it is a clone. -/
def mixedProject : List Edit :=
  [.stage (.root "project" (.folder [])) ⟨[],
      [.hat (.start 0) (.attr (.start 0) (.str "scratch") "on_flag") []
        [.declare (.start 0) (.name (.start 0) "l") .ofList (some (.list [.int 1])) false,
         .update (.start 0) (.arith .pow) (.name (.start 0) "l") (.int 1),
         .declare (.start 0) (.name (.start 0) "t") .ofString (some (.str "abc")) false,
         .assign (.start 0) (.index (.start 0) (.name (.start 0) "t") (.int 0)) (.str "x"),
         .assign (.start 0) (.attr (.start 0) (.str "this") "volume") (.int 50)]]⟩,
    .sprite (.root "project" (.folder [])) ⟨⟨[],
      [.hat (.start 0) (.attr (.start 0) (.str "scratch") "on_flag") []
        [.assign (.start 0) (.attr (.start 0) (.str "this") "x")
          (.attr (.start 0) (.str "this") "is_clone")]]⟩, "cat.sbs"⟩,
    .build]

theorem inert_mixedProject : ∀ edit ∈ mixedProject, Expr.Inert edit.nodes := by
  simp [mixedProject, Edit.nodes, Expr.Inert, Expr.int, Expr.str]

/-- The blocks of the scripts of a project, with the names and kinds of the data in them. -/
def outline (p : Project) : List (Opcode × List (String × Bool)) :=
  p.targets.flatMap fun t => t.written.flatten.filterMap fun
    | .block op arguments _ _ =>
      some (op, (Value.referencesAll arguments).map fun d => (d.name, d.isList))
    | _ => none

theorem outline_mixedProject :
    ∃ s', history mixedProject (.fresh (.fresh (some .error) false) "project") = .ok () s' ∧
      outline s'.draft.project =
        [(.whenFlagClicked, []), (.clearList, [("b1_l", true)]), (.addToList, [("b1_l", true)]),
          (.setVariable, [("b1_l", true), ("b1_l", true)]), (.setVariable, [("b1_t", false)]),
          (.replaceInList, [("b1_t", false)]), (.setVolume, []),
          (.whenFlagClicked, []), (.setVariable, [("sg_is_clone", false)]),
          (.whenStartAsClone, []), (.setVariable, [("sg_is_clone", false)]),
          (.whenFlagClicked, []), (.setX, [("sg_is_clone", false)])] :=
  exists_of_seen (f := fun s => outline s.draft.project) (by decide +kernel)

theorem stage_unrestricted_mixed :
    ∃ s', history mixedProject (.fresh (.fresh (some .error) false) "project") = .ok () s' ∧
      s'.draft.project.Unrestricted ∧ Opcode.SpriteOnly .setX ∧
      (.setX, [("sg_is_clone", false)]) ∈ outline s'.draft.project := by
  obtain ⟨s', hrun, houtline⟩ := outline_mixedProject
  refine ⟨s', hrun, stage_unrestricted.1 _ _ _ _ inert_mixedProject hrun, ?_, ?_⟩
  · have hset : Builtins.setters.resolve (.attr (.start 0) (.str "this") "x") =
        some (.entry ⟨.block .setX, true⟩) := rfl
    exact ⟨_, Builtins.mem_entries (by simp) hset, rfl, [], [], none, none, rfl⟩
  · rw [houtline]
    decide

/-- Every command that changes data is given a variable or a list as it needs, with three
exceptions: a list can be set to itself, a result that is a list can be set, and an item can be
replaced in a variable whose type is shared with texts. This holds at any depth of every script,
after every history of edits, if the literals of the scripts hold no blocks; and of what every run
of the compiler builds. -/
theorem commands_fed (session : Session) (folder : String) (edits : List Edit) (s' : BuildState) :
    ((∀ edit ∈ edits, Expr.Inert edit.nodes) →
      history edits (.fresh session folder) = .ok () s' →
      ∀ t ∈ s'.draft.project.targets, t.EveryBlock Opcode.Fed) ∧
    ∀ (location : Location) (o : Options) (s : BuildState), compile location o s = .ok () s' →
      ∀ t ∈ s'.draft.project.targets, t.EveryBlock Opcode.Fed := by
  refine ⟨fun hinert hrun => ?_, fun location o s hrun => ?_⟩
  · exact (supplied_history hinert hrun).fed
  · exact (supplied_compile Terms.inert trivial hrun).1.fed

/-- The list is set to itself, and the item is replaced in a text. -/
theorem commands_fed_mixed :
    ∃ s', history mixedProject (.fresh (.fresh (some .error) false) "project") = .ok () s' ∧
      (∀ t ∈ s'.draft.project.targets, t.EveryBlock Opcode.Fed) ∧
      (.setVariable, [("b1_l", true), ("b1_l", true)]) ∈ outline s'.draft.project ∧
      (.replaceInList, [("b1_t", false)]) ∈ outline s'.draft.project := by
  obtain ⟨s', hrun, houtline⟩ := outline_mixedProject
  refine ⟨s', hrun, (commands_fed _ _ _ _).1 inert_mixedProject hrun, ?_, ?_⟩
  · rw [houtline]
    decide
  · rw [houtline]
    decide

/-- A variable that a script declares is unknown before, and stays filed as it is declared. -/
theorem declared_stays (hs : Sound s) (h : script ownScope body s = .ok blocks s')
    (hm : m ∈ moments (scriptPlan ownScope body) [] s) (hd : m.declares d) :
    entry s d.name = none ∧ entry s' d.name = some d := by
  have hrun := runAll_of_script h []
  have hbefore := moments_reached grows_run hm
  obtain ⟨held, t, hresult, hafter⟩ := moments_lead grows_run hrun hm
  obtain ⟨hfree, hfiled⟩ := Moment.declares_entry (hbefore.sound hs) hd hresult
  have hsound : Sound t := (grows_run _ _ _ _ _ hresult).sound (hbefore.sound hs)
  refine ⟨?_, hafter.entry hsound _ _ hfiled⟩
  refine Option.eq_none_iff_forall_ne_some.mpr fun other hother => ?_
  cases hfree.symm.trans (hbefore.entry hs _ _ hother)

/-- Every block that sets a variable, at any depth of every script, sets it to a value whose type
has a flag in common with the type of the variable; and the variable is among those of the target or
of the stage with just that type, which is the one it was declared with. Only the message of a
broadcast is set to whatever is sent, and a hat that receives it starts with taking it into a
variable of any type. This holds after every history of edits, if the literals of the scripts hold
no blocks; and of what every run of the compiler builds. A variable that a body declares is none
that was there before, such as one that a hat takes a message into, and at the end of the body it is
still recorded as it was declared. -/
theorem assignments_compatible :
    (∀ (session : Session) (folder : String) (edits : List Edit) (s' : BuildState),
      (∀ edit ∈ edits, Expr.Inert edit.nodes) →
      history edits (.fresh session folder) = .ok () s' →
      s'.draft.project.Compatible ∧
      ∀ t ∈ s'.draft.project.targets, ∀ d ∈ dataOf t, d.type = .message ∨ d = cloneData ∨
        ∃ reason ∈ statedThrough edits (.fresh session folder), reason.Makes d) ∧
    (∀ (location : Location) (o : Options) (s s' : BuildState),
      compile location o s = .ok () s' → s'.draft.project.Compatible) ∧
    ∀ (s s' : BuildState) (ownScope : Bool) (body : List Stmt) (blocks : List Value),
      Sound s → script ownScope body s = .ok blocks s' →
      ∀ m ∈ moments (scriptPlan ownScope body) [] s, ∀ d, m.declares d →
        entry s d.name = none ∧ entry s' d.name = some d := by
  refine ⟨fun session folder edits s' hinert hrun => ?_, fun location o s s' hrun => ?_,
    fun s s' ownScope body blocks hs hrun m hm d hd => declared_stays hs hrun hm hd⟩
  · refine ⟨(supplied_history hinert hrun).compatible, fun t ht d hd => ?_⟩
    obtain ⟨place, hplace⟩ := Project.exists_place ht
    obtain ⟨log, haccounted, hstated⟩ := (accounted_fresh session folder).history hrun
    have hdata := haccounted.data place
    rw [hplace] at hdata
    have hlogged : d ∈ createdAt place log := hdata ▸ hd
    obtain ⟨c, hc, rfl⟩ := List.mem_map.mp hlogged
    have hmade := c.made
    cases hreason : c.reason with
    | message text =>
      rw [hreason] at hmade
      exact .inl (hmade ▸ rfl)
    | cloneFlag own =>
      rw [hreason] at hmade
      exact .inr (.inl hmade.2)
    | global | named | output =>
      refine .inr (.inr ⟨c.reason, ?_, hmade⟩)
      rw [← hstated]
      exact mem_statedIn.mpr ⟨c, (List.mem_filter.mp hc).1, rfl, hreason ▸ rfl⟩
  · exact (supplied_compile Terms.inert trivial hrun).1.compatible

theorem sound_fresh : Sound (.fresh session folder) where
  consistent := consistent_fresh rfl rfl nofun nofun
  results := nofun
  messages := nofun
  clone := rfl

def counting : List Stmt :=
  [.declare (.start 0) (.name (.start 0) "n") .ofNumber (some (.int 1)) false,
    .update (.start 0) (.arith .add) (.name (.start 0) "n") (.int 1)]

/-- The parameter of the function is copied, its result is set to a global, and the hat takes the
message. -/
theorem assignments_compatible_guarded :
    (∃ s', history guardedProject (.fresh (.fresh (some .error) false) "project") = .ok () s' ∧
      s'.draft.project.Compatible ∧
      (outline s'.draft.project).filter (·.1 == .setVariable) =
        [(.setVariable, [("sg_is_clone", false)]), (.setVariable, [("sg_is_clone", false)]),
          (.setVariable, [("s2_text", false), ("br_go", false)]), (.setVariable, [("s1_a", false)]),
          (.setVariable, [("fo_f", false), ("g_best", false)])]) ∧
    ∃ blocks t, script true counting (.fresh (.fresh (some .error) false) "project") =
        .ok blocks t ∧ entry t "b1_n" = some (declaredData false 1 "n" .ofNumber false) := by
  refine ⟨?_, ?_⟩
  · have hinert : ∀ edit ∈ guardedProject, Expr.Inert edit.nodes := by
      simp [guardedProject, Edit.nodes, Expr.Inert, Expr.int, Expr.str]
    refine exists_seen_and
      (f := fun s => (outline s.draft.project).filter (·.1 == .setVariable)) ?_
      fun s' hrun => (assignments_compatible.1 _ _ _ _ hinert hrun).1
    decide +kernel
  · obtain ⟨blocks, t, hrun⟩ : ∃ blocks t,
        script true counting (.fresh (.fresh (some .error) false) "project") = .ok blocks t :=
      ⟨_, _, rfl⟩
    obtain ⟨opening, m, rest, hmoments, hdeclares⟩ : ∃ opening m rest,
        moments (scriptPlan true counting) [] (.fresh (.fresh (some .error) false) "project") =
          opening :: m :: rest ∧ m.declares (declaredData false 1 "n" .ofNumber false) :=
      ⟨_, _, _, rfl, _, _, _, _, _, _, .inl rfl, rfl, rfl⟩
    have hm : m ∈ moments (scriptPlan true counting) []
        (.fresh (.fresh (some .error) false) "project") := by simp [hmoments]
    exact ⟨blocks, t, hrun, (assignments_compatible.2.2 _ _ _ _ _ sound_fresh hrun m hm _
      hdeclares).2⟩

end Build

end BlockScript
