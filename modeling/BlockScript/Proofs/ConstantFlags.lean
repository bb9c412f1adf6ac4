import BlockScript.Proofs.Histories

/-!
Which variables are constants. A variable that a script names is a constant exactly if it is
declared to be one. But the globals of a setup and the results of functions are constants too,
though nothing says so. For a result this is no matter, because no name stands for it; a global,
however, can be assigned to by no script of the project.
-/
namespace BlockScript

open Build

namespace Reason

/-- Whether the variable is declared as a constant. -/
def isConst : Reason → Bool
  | named _ _ _ constant => constant
  | global _ _ | output _ _ _ | message _ | cloneFlag _ => false

/-- Whether the variable is a constant though nothing declares it as one. -/
def isFixed : Reason → Bool
  | global _ _ | output _ _ _ => true
  | named _ _ _ _ | message _ | cloneFlag _ => false

theorem isStated_of_isFixed {o : Reason} (h : o.isFixed = true) : o.isStated = true := by
  cases o with
  | global | output => rfl
  | _ => cases h

/-- What is stated is fixed unless a script names it. -/
theorem isFixed_eq_false_iff {o : Reason} (h : o.isStated = true) : o.isFixed = false ↔
    ∃ own name type constant, o = .named own name type constant := by
  cases o with
  | named own name type constant => exact ⟨fun _ => ⟨_, _, _, _, rfl⟩, fun _ => rfl⟩
  | global | output => simp [isFixed]
  | message | cloneFlag => cases h

end Reason

/-- The constants are the variables that are declared as such, the globals and the results. -/
theorem Creation.constant_eq (c : Creation) :
    c.data.constant = (c.reason.isConst || c.reason.isFixed) := by
  obtain ⟨reason, data, hmade⟩ := c
  cases reason with
  | named own name type constant =>
    obtain ⟨scope, rfl⟩ := hmade
    exact (Bool.or_false constant).symm
  | cloneFlag own =>
    obtain ⟨-, rfl⟩ := hmade
    rfl
  | _ =>
    obtain rfl := hmade
    rfl

namespace Build

variable {s s' : BuildState} {log : List Creation} {name : String} {d : Data}

/-- The flags say exactly what is declared if there are no globals and no results. -/
theorem flags_exact_iff :
    (∀ c ∈ log, c.data.constant = true ↔ c.reason.isConst = true) ↔
      ∀ o ∈ statedIn log, ∃ own name type constant, o = .named own name type constant := by
  have hstated : ∀ o ∈ statedIn log, o.isStated = true := by
    intro o ho
    obtain ⟨-, -, -, hstated⟩ := mem_statedIn.mp ho
    exact hstated
  rw [← forall₂_congr fun o ho => Reason.isFixed_eq_false_iff (hstated o ho)]
  constructor
  · intro hexact o ho
    obtain ⟨c, hc, rfl, -⟩ := mem_statedIn.mp ho
    refine Bool.eq_false_iff.mpr fun hfixed => ?_
    have hconst := (hexact c hc).mp (by rw [c.constant_eq, hfixed, Bool.or_true])
    cases hreason : c.reason with
    | named => rw [hreason] at hfixed; cases hfixed
    | _ => rw [hreason] at hconst; cases hconst
  · intro hnone c hc
    have hfixed : c.reason.isFixed = false := by
      refine Bool.eq_false_iff.mpr fun hfixed => ?_
      have hstated := mem_statedIn.mpr ⟨c, hc, rfl, Reason.isStated_of_isFixed hfixed⟩
      rw [hnone _ hstated] at hfixed
      cases hfixed
    rw [c.constant_eq, hfixed, Bool.or_false]

section

/-- The variable that an assignment is about, as a whole or in one of its items. -/
def rootName? : Expr → Option String
  | .name _ name | .index _ (.name _ name) _ => some name
  | _ => none

/-- The names that a body assigns to, at any depth. -/
def assignedNames (body : List Stmt) : List String :=
  (planAll body).filterMap fun
    | .simple stmt => stmt.assigned?.bind rootName?
    | _ => none

/-- The statements inside a function or a hat. -/
def bodyOf : Stmt → List Stmt
  | .function _ _ _ _ _ body | .hat _ _ _ body => body
  | _ => []

/-- Every global that can be named is the same. -/
def SameGlobals (s s' : BuildState) : Prop :=
  ∀ name, Assoc.get? (globalName name) s'.draft.globals = Assoc.get? (globalName name) s.draft.globals

instance : IsPreorder BuildState SameGlobals where
  refl _ _ := rfl
  trans _ _ _ h k name := (k name).trans (h name)

theorem Keeps.sameGlobals (h : Keeps s s') : SameGlobals s s' := fun _ => by rw [h.globals]

/-- A name that stands for a global that is a constant. -/
def Fixed (name : String) (s : BuildState) : Prop :=
  ∃ d, Assoc.get? (globalName name) s.draft.globals = some d ∧ d.constant = true

theorem Fixed.of_same (h : Fixed name s) (hsame : SameGlobals s s') : Fixed name s' := by
  rwa [Fixed, hsame name]

theorem Fixed.keeps (h : Fixed name s) (hkeeps : Keeps s s') : Fixed name s' :=
  h.of_same hkeeps.sameGlobals

/-- A global is found by its name whatever else there is. -/
theorem Fixed.find? (hfixed : Fixed name s) (h : Build.find? (.ofName name) s = .ok found s') :
    s = s' ∧ ∃ d, found = some d ∧ d.constant = true := by
  obtain ⟨d, hglobal, hconstant⟩ := hfixed
  obtain ⟨hfound, rfl⟩ := find?_ok.mp h
  simp only [keyed, Key.ofName, Option.bind_some, hglobal] at hfound
  cases hfound
  exact ⟨rfl, d, rfl, hconstant⟩

theorem Fixed.variableNamed (hfixed : Fixed name s) (h : Build.variableNamed name s = .ok d s') :
    s = s' ∧ d.constant = true := by
  obtain ⟨hfind, rfl⟩ := variableNamed_ok h
  obtain ⟨-, _, ⟨⟩, hconstant⟩ := hfixed.find? hfind
  exact ⟨rfl, hconstant⟩

theorem not_mutable (hconstant : d.constant = true) : (requireMutable d >>= f) s ≠ .ok a s' := by
  intro h
  obtain ⟨_, t, hmutable, -⟩ := bind_ok.mp h
  cases hconstant.symm.trans (gives_requireMutable d _ _ _ hmutable)

variable {target : Expr} {stmt : Stmt} {own : Place} {body : List Stmt}

section

variable (hfixed : Fixed name s) (hroot : rootName? target = some name)

include hfixed hroot

theorem Fixed.assignTo : Build.assignTo target value s ≠ .ok () s' := by
  intro h
  obtain ⟨p, -, h⟩ := ofExcept_bind_ok.mp h
  obtain ⟨_, t, hmove, v, t₁, hvalue, h⟩ := bind_bind_ok.mp h
  have hfixed := (hfixed.keeps (keeps_moveTo _ _ _ _ hmove)).keeps
    (keeps_expression _ _ _ _ _ hvalue)
  unfold rootName? at hroot
  split at hroot <;> cases hroot
  · obtain ⟨own, ⟨⟩, h⟩ := ofExcept_bind_ok.mp h
    obtain ⟨found, _, hfind, h⟩ := bind_ok.mp h
    obtain ⟨rfl, d, rfl, hconstant⟩ := hfixed.find? hfind
    exact not_mutable hconstant h
  · obtain ⟨list, t₂, hlist, h⟩ := bind_ok.mp h
    rw [expression] at hlist
    obtain ⟨_, t₃, hmove', found, _, hnamed, hlist⟩ := bind_bind_ok.mp hlist
    obtain ⟨rfl, hconstant⟩ := (hfixed.keeps (keeps_moveTo _ _ _ _ hmove')).variableNamed hnamed
    obtain ⟨rfl, rfl⟩ := pure_ok.mp hlist
    by_cases hboolean : (found.type == .typed .ofBoolean) = true
    · rw [if_pos hboolean] at h
      obtain ⟨_, _, hfault, -⟩ := bind_ok.mp h
      cases hfault
    · rw [if_neg hboolean] at h
      exact not_mutable hconstant h

theorem Fixed.update {operand : Expr} : Build.update op target operand s ≠ .ok () s' := by
  intro h
  obtain ⟨v, t, hvalue, h⟩ := bind_ok.mp h
  have hfixed := hfixed.keeps (keeps_expression _ _ _ _ _ hvalue)
  unfold rootName? at hroot
  split at hroot <;> cases hroot
  · obtain ⟨found, _, hnamed, h⟩ := bind_ok.mp h
    obtain ⟨rfl, hconstant⟩ := hfixed.variableNamed hnamed
    exact not_mutable hconstant h
  · obtain ⟨own, ⟨⟩, h⟩ := ofExcept_bind_ok.mp h
    obtain ⟨found, _, hnamed, h⟩ := bind_ok.mp h
    obtain ⟨rfl, hconstant⟩ := hfixed.variableNamed hnamed
    exact not_mutable hconstant h

/-- A global that is a constant is not assigned to. -/
theorem Fixed.assigned (hassigned : stmt.assigned? = some target) :
    statement stmt s ≠ .ok () s' := by
  intro h
  cases stmt with
  | assign | update =>
    obtain rfl := Option.some.inj hassigned
    rw [statement] at h
    obtain ⟨_, t, hmove, h⟩ := bind_ok.mp h
    have hfixed := hfixed.keeps (keeps_moveTo _ _ _ _ hmove)
    first | exact hfixed.assignTo hroot h | exact hfixed.update hroot h
  | _ => cases hassigned

end

/-- No message has the name of a global. -/
theorem global_of_name {c : Creation} (hkind : c.reason.isGlobal = true)
    (hname : c.data.name = globalName name) : ∃ own type, c.reason = .global own type := by
  have hmade := c.made
  cases hreason : c.reason with
  | global own type => exact ⟨own, type, rfl⟩
  | message text =>
    rw [hreason] at hmade
    rw [hmade] at hname
    have hfirst := congrArg (fun name => name.toList.head?) hname
    simp [Broadcast.called, globalName] at hfirst
  | _ =>
    rw [hreason] at hkind
    cases hkind

/-- A global keeps its meaning as long as no setup is applied. -/
theorem Creates.sameGlobals (h : Creates own log s.draft s'.draft)
    (hnone : ∀ c ∈ log, ∀ global type, c.reason ≠ .global global type) : SameGlobals s s' := by
  intro name
  rw [h.globals]
  refine get?_record_of_ne (fun c hc hname => ?_) _
  obtain ⟨hmem, hkind⟩ := List.mem_filter.mp hc
  obtain ⟨global, type, hreason⟩ := global_of_name hkind hname
  exact hnone c hmem global type hreason

/-- The globals that a history states are constants. -/
theorem Accounted.global {type : TypeSet} (h : Accounted log s)
    (hstated : .global name type ∈ statedIn log) : Fixed name s := by
  obtain ⟨c, hc, hreason, -⟩ := mem_statedIn.mp hstated
  have hname : c.data.name = globalName name := by
    have hmade := c.made
    rw [hreason] at hmade
    rw [hmade]
    rfl
  have hmem : c ∈ log.filter (·.reason.isGlobal) :=
    List.mem_filter.mpr ⟨hc, by rw [hreason]; rfl⟩
  obtain ⟨last, hlast, hsame, hget⟩ := get?_record ⟨c, hmem, hname⟩ []
  obtain ⟨global, own, hglobal⟩ := global_of_name (List.mem_filter.mp hlast).2 hsame
  refine ⟨last.data, by rw [h.globals, hget], ?_⟩
  rw [last.constant_eq, hglobal]
  rfl

theorem Introduces.sameGlobals (h : Introduces own reasons s s')
    (hown : s.frame.place = own) (hnone : ∀ o ∈ reasons, ∀ global type, o ≠ .global global type) :
    SameGlobals s s' := by
  obtain ⟨log, hcreates, hstated, -⟩ := h.log hown
  refine hcreates.sameGlobals fun c hc global type hreason => ?_
  refine hnone c.reason ?_ global type hreason
  rw [← hstated]
  exact mem_statedIn.mpr ⟨c, hc, rfl, by rw [hreason]; rfl⟩

theorem not_global_of_mem_statedAtTop (own : Place) (stmt : Stmt) :
    ∀ o ∈ statedAtTop own stmt, ∀ global type, o ≠ .global global type := by
  rintro o ho global type rfl
  rcases mem_statedAtTop ho with ⟨_, _, _, hnamed⟩ | ⟨_, _, houtput, -⟩
  · cases hnamed
  · cases houtput

theorem sameGlobals_enterScope : Within SameGlobals enterScope := by
  intro s u s' h
  obtain rfl := enterScope_ok.mp h
  exact fun _ => rfl

theorem sameGlobals_exitScope : Within SameGlobals exitScope := by
  intro s u s' h
  obtain ⟨_, _, _, -, rfl⟩ := exitScope_ok.mp h
  exact fun _ => rfl

theorem building_sameGlobals : Building SameGlobals where
  moveTo p := (keeps_moveTo p).mono fun _ _ => Keeps.sameGlobals
  emitAll blocks _ := (keeps_emitAll blocks).mono fun _ _ => Keeps.sameGlobals
  cloneFlag := keeps_cloneFlag.mono fun _ _ => Keeps.sameGlobals
  calls _ _ := trivial
  declare _ h name := by rw [(addVariable_ok h).2.2.1]
  broadcast name s b s' h := (introduces_broadcastNamed name _ _ _ h).sameGlobals rfl (by simp)
  scope henter h hexit := chain (sameGlobals_enterScope _ _ _ henter)
    (chain h (sameGlobals_exitScope _ _ _ hexit))
  script h _ := h
  elsewhere _ _ _ _ := .rfl

section

variable (hfixed : Fixed name s)

include hfixed

/-- No action of a run assigns to a global that is a constant. -/
theorem Fixed.runAll (h : Build.runAll actions held s = .ok held' s') :
    ∀ stmt, .simple stmt ∈ actions → stmt.assigned?.bind rootName? ≠ some name := by
  have hpointing : Pointing SameGlobals SameGlobals :=
    ⟨building_sameGlobals, id, sameGlobals_enterScope, fun _ _ => rfl⟩
  induction actions generalizing s held with
  | nil => exact fun stmt hstmt => by cases hstmt
  | cons action rest ih =>
    obtain ⟨held₁, t, hfirst, hrest⟩ := bind_ok.mp h
    have hsame : SameGlobals s t :=
      hpointing.run sameGlobals_exitScope (fun _ _ _ => rfl) _ _ _ _ _ hfirst
    intro stmt hstmt hassigned
    rcases List.mem_cons.mp hstmt with rfl | hstmt
    · obtain ⟨target, htarget, hroot⟩ := Option.bind_eq_some_iff.mp hassigned
      obtain ⟨_, t', hrun, -⟩ := bind_ok.mp hfirst
      exact hfixed.assigned hroot htarget hrun
    · exact ih (hfixed.of_same hsame) hrest stmt hstmt hassigned

theorem Fixed.script (h : Build.script ownScope body s = .ok blocks s') :
    name ∉ assignedNames body := by
  have hplan := runAll_of_script h []
  have hmem : ∀ stmt, .simple stmt ∈ scriptPlan ownScope body ↔ .simple stmt ∈ planAll body := by
    simp [scriptPlan]
  intro hname
  obtain ⟨action, haction, hassigned⟩ := List.mem_filterMap.mp hname
  cases action with
  | simple stmt =>
    exact hfixed.runAll hplan stmt ((hmem stmt).mpr haction) hassigned
  | _ => cases hassigned

theorem Fixed.functionOf (h : Build.functionOf stmt s = .ok () s') :
    name ∉ assignedNames (bodyOf stmt) := by
  cases stmt with
  | function pos returns own parameters warp inner =>
    obtain ⟨t, blocks, t', hopened, hbody, -⟩ := functionOf_parts s.frame.place h
    refine (hfixed.of_same (hopened.sameGlobals rfl fun o ho => ?_)).script hbody
    refine not_global_of_mem_statedAtTop s.frame.place (.function pos returns own parameters warp inner)
      o ?_
    rw [statedAtTop, ← List.append_assoc]
    exact List.mem_append_left _ ho
  | _ => cases h

theorem Fixed.hatOf (h : Build.hatOf stmt s = .ok () s') : name ∉ assignedNames (bodyOf stmt) := by
  cases stmt with
  | hat pos event arguments inner =>
    obtain ⟨ownScope, t, blocks, t', hopened, hbody, -⟩ := hatOf_parts s.frame.place h
    refine (hfixed.of_same (hopened.sameGlobals rfl fun o ho => ?_)).script hbody
    exact not_global_of_mem_statedAtTop s.frame.place (.hat pos event arguments inner) o
      (List.mem_append_left _ ho)
  | malformed => exact List.not_mem_nil
  | _ => cases h

/-- A property of statements that can be built while a global is what it is holds of all of
them, if each of them leaves the global as it is. -/
theorem Fixed.forM {stmts : List Stmt} {f : Stmt → Build Unit} {P : Stmt → Prop}
    (hkept : ∀ stmt ∈ stmts, ∀ own, Within (Introduces own (statedAtTop own stmt)) (f stmt))
    (hP : ∀ stmt ∈ stmts, ∀ t t', Fixed name t → f stmt t = .ok () t' → P stmt)
    (h : (stmts.forM f : Build Unit) s = .ok () s') : (∀ stmt ∈ stmts, P stmt) ∧ Fixed name s' := by
  induction stmts generalizing s with
  | nil =>
    obtain ⟨-, rfl⟩ := pure_ok.mp h
    exact ⟨by simp, hfixed⟩
  | cons stmt rest ih =>
    obtain ⟨t, hfirst, hrest⟩ := forM_cons_ok.mp h
    obtain ⟨hstmt, hkept⟩ := List.forall_mem_cons.mp hkept
    obtain ⟨hown, hP⟩ := List.forall_mem_cons.mp hP
    have hsame := (hstmt _ _ _ _ hfirst).sameGlobals rfl (not_global_of_mem_statedAtTop _ stmt)
    obtain ⟨hothers, hafter⟩ := ih (hfixed.of_same hsame) hkept hP hrest
    exact ⟨List.forall_mem_cons.mpr ⟨hown s t hfixed hfirst, hothers⟩, hafter⟩

/-- No target that is built has a script that assigns to a global that is a constant. -/
theorem Fixed.buildTarget {file : String} (h : Build.buildTarget own file body s = .ok () s') :
    ∀ stmt ∈ body, name ∉ assignedNames (bodyOf stmt) := by
  obtain ⟨_, s₀, hnew, h⟩ := bind_ok.mp h
  have hstart : Fixed name s₀ := modify_ok.mp hnew ▸ hfixed
  obtain ⟨t₀, t, t₁, t₂, t₃, t₄, hshares, hquiet, hfunctions, hquiet', hhats, -, -⟩ := target_parts h
  obtain ⟨-, hshared⟩ := hstart.forM (P := fun _ => True) (fun stmt hstmt own =>
    introduces_shareVariable (beq_iff_eq.mp (List.mem_filter.mp hstmt).2)) (by simp) hshares
  rw [Fixed, ← hquiet.draft] at hshared
  obtain ⟨hinFunctions, hafter⟩ := Fixed.forM hshared (fun stmt _ own => introduces_functionOf stmt)
    (fun stmt _ u u' => Fixed.functionOf) hfunctions
  rw [Fixed, ← hquiet'.draft] at hafter
  obtain ⟨hinHats, -⟩ := Fixed.forM hafter (fun stmt _ own => introduces_hatOf stmt)
    (fun stmt _ u u' => Fixed.hatOf) hhats
  intro stmt hstmt
  cases stmt with
  | function => exact hinFunctions _ (List.mem_filter.mpr ⟨hstmt, rfl⟩)
  | hat => exact hinHats _ (List.mem_filter.mpr ⟨hstmt, rfl⟩)
  | _ => exact List.not_mem_nil

end

theorem not_global_of_statedBy (hstated : statedIn log = statedBy own body) :
    ∀ c ∈ log, ∀ global type, c.reason ≠ .global global type := by
  intro c hc global type hreason
  have hmem : c.reason ∈ statedBy own body := by
    rw [← hstated]
    exact mem_statedIn.mpr ⟨c, hc, rfl, by rw [hreason]; rfl⟩
  obtain ⟨stmt, -, htop⟩ := mem_statedBy.mp hmem
  exact not_global_of_mem_statedAtTop own stmt _ htop global type hreason

theorem Fixed.buildSprites {items : List (String × SpriteEntry)} (hfixed : Fixed name s)
    (h : (items.forM fun (own, entry) => buildSprite own entry : Build Unit) s = .ok () s') :
    ∀ item ∈ items, ∀ stmt ∈ item.2.statements, name ∉ assignedNames (bodyOf stmt) := by
  induction items generalizing s with
  | nil => simp
  | cons item rest ih =>
    obtain ⟨t, hfirst, hrest⟩ := forM_cons_ok.mp h
    obtain ⟨-, log, hcreates, hstated, -⟩ := buildSprite_creates hfirst
    have hsame := hcreates.sameGlobals (not_global_of_statedBy hstated)
    obtain ⟨_, t₀, hbuild, -⟩ := bind_ok.mp hfirst
    exact List.forall_mem_cons.mpr ⟨hfixed.buildTarget hbuild, ih (hfixed.of_same hsame) hrest⟩

/-- No script of a project that is built assigns to a global that is a constant. -/
theorem Fixed.project (hfixed : Fixed name s) (h : Build.project s = .ok () s') :
    (∀ stmt ∈ s.draft.stageStatements, name ∉ assignedNames (bodyOf stmt)) ∧
      ∀ item ∈ s.draft.sprites, ∀ stmt ∈ item.2.statements, name ∉ assignedNames (bodyOf stmt) := by
  obtain ⟨t, hstage, -, hsprites⟩ := project_ok h
  obtain ⟨-, log, hcreates, hstated, -⟩ := buildStage_creates hstage
  have hsame := hcreates.sameGlobals (not_global_of_statedBy hstated)
  refine ⟨?_, (hfixed.of_same hsame).buildSprites hsprites⟩
  rw [buildStage, get_bind_ok] at hstage
  split at hstage
  · rename_i hempty
    rw [List.isEmpty_iff.mp hempty]
    simp
  · obtain ⟨_, t₀, hbuild, -⟩ := bind_ok.mp hstage
    exact hfixed.buildTarget hbuild

end

/-- Which variables are constants after any history of a project. All variables of all targets are
in a log, together with why they were created; the log has what the setups and the scripts state,
in order, and besides that only messages and what tells clones apart. A variable of the log is a
constant exactly if it is declared as one, or is a global or the result of a function. So the flags
say exactly what is declared if and only if no global and no result is stated. And no script that
assigns to a stated global can be built with the project. -/
theorem constant_iff_declared_or_fixed (session : Session) (folder : String) (edits : List Edit)
    {s' : BuildState} (hrun : history edits (.fresh session folder) = .ok () s') :
    ∃ log : List Creation,
      (∀ place target, s'.draft.project.target? place = some target →
        dataOf target = createdAt place log) ∧
      statedIn log = statedThrough edits (.fresh session folder) ∧
      (∀ c ∈ log, c.data.constant = true ↔
        c.reason.isConst = true ∨ (∃ name type, c.reason = .global name type) ∨
          ∃ own function type, c.reason = .output own function type) ∧
      ((∀ c ∈ log, c.data.constant = true ↔ c.reason.isConst = true) ↔
        ∀ o ∈ statedThrough edits (.fresh session folder),
          ∃ own name type constant, o = .named own name type constant) ∧
      ∀ name type, .global name type ∈ statedThrough edits (.fresh session folder) →
        ∀ built, project s' = .ok () built →
          (∀ stmt ∈ s'.draft.stageStatements, name ∉ assignedNames (bodyOf stmt)) ∧
          ∀ item ∈ s'.draft.sprites, ∀ stmt ∈ item.2.statements,
            name ∉ assignedNames (bodyOf stmt) := by
  obtain ⟨log, haccounted, hstated⟩ := (accounted_fresh session folder).history hrun
  rw [List.nil_append] at haccounted
  refine ⟨log, fun place target htarget => ?_, hstated, fun c _ => ?_, ?_, ?_⟩
  · rw [← haccounted.data, htarget]
    rfl
  · rw [c.constant_eq, Bool.or_eq_true]
    cases c.reason <;> simp [Reason.isFixed]
  · rw [flags_exact_iff, hstated]
  · intro name type hglobal built hbuilt
    rw [← hstated] at hglobal
    exact (haccounted.global hglobal).project hbuilt

/-- A setup with a global that a sprite wants to count up. -/
def countingProject : List Edit :=
  [.setup "project" ⟨.absent, [⟨.start 0, "score", .ofNumber, .value (.int 0)⟩]⟩,
    .sprite (.root "project" (.folder [])) ⟨⟨[], [.hat (.start 0)
      (.attr (.start 0) (.str "scratch") "on_flag") []
      [.update (.start 0) (.arith .add) (.name (.start 0) "score") (.value (.int 1))]]⟩, "cat.sbs"⟩]

theorem constant_iff_declared_or_fixed_counting :
    ∃ (s' : BuildState) (log : List Creation),
      history countingProject (.fresh (.fresh (some .error) false) "project") = .ok () s' ∧
      (∃ c ∈ log, c.data = globalData "score" .ofNumber) ∧
      (¬ ∀ c ∈ log, c.data.constant = true ↔ c.reason.isConst = true) ∧
      ∀ built, project s' ≠ .ok () built := by
  have hseen : seen (fun s => s.draft.sprites.any fun item => item.2.statements.any fun stmt =>
        (assignedNames (bodyOf stmt)).contains "score")
      (history countingProject (.fresh (.fresh (some .error) false) "project")) = some true := by
    decide +kernel
  obtain ⟨s', hrun, hassigns⟩ := exists_of_seen hseen
  have hstated : Reason.global "score" .ofNumber ∈
      statedThrough countingProject (.fresh (.fresh (some .error) false) "project") :=
    List.mem_append_left _ (List.mem_singleton_self _)
  obtain ⟨log, -, hlog, -, hexact, hunassigned⟩ :=
    constant_iff_declared_or_fixed _ _ countingProject hrun
  refine ⟨s', log, hrun, ?_, fun hflags => ?_, fun built hbuilt => ?_⟩
  · rw [← hlog] at hstated
    obtain ⟨c, hc, hreason, -⟩ := mem_statedIn.mp hstated
    have hmade := c.made
    rw [hreason] at hmade
    exact ⟨c, hc, hmade⟩
  · obtain ⟨_, _, _, _, hnamed⟩ := hexact.mp hflags _ hstated
    cases hnamed
  · simp only [List.any_eq_true, List.contains_iff_mem] at hassigns
    obtain ⟨item, hitem, stmt, hstmt, hmem⟩ := hassigns
    exact (hunassigned _ _ hstated built hbuilt).2 item hitem stmt hstmt hmem

end Build

end BlockScript
