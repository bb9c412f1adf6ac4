import BlockScript.Proofs.Attributes
import BlockScript.Proofs.Readings
import BlockScript.Proofs.Scopes
import BlockScript.Proofs.Writes

/-!
Constants and what changes them. No assignment reaches a constant, whether of the whole
variable or of an item, for the builder asks each time whether the variable may change. It
does not ask when a function of a list is called. So a constant is changed by its own
declaration and by the functions called on it, and by nothing else.

A variable is filed under its full name once and stays there, and what an assignment reaches is
filed, its type aside. So no assignment reaches a constant under another guise.
-/
namespace BlockScript

/-- The same variable, whatever type it is read with. -/
def Data.Same (d d' : Data) : Prop := d'.name = d.name ∧ d'.constant = d.constant

/-- Whether a statement has no statements inside it. -/
def Stmt.isSimple : Stmt → Bool
  | .ifThen _ _ _ | .ifElse _ _ _ _ | .whileLoop _ _ _ | .forLoop _ _ _ _ _ => false
  | _ => true

def Stmt.assigned? : Stmt → Option Expr
  | .assign _ target _ | .update _ _ target _ => some target
  | _ => none

theorem Stmt.nodes_assigned? {stmt : Stmt} {target : Expr} (h : stmt.assigned? = some target) :
    target.nodes ⊆ stmt.nodes := by
  unfold assigned? at h
  split at h <;> cases h <;> exact List.subset_append_left _ _

theorem Data.changes_function {d : Data} {name : String} {action : MemberAction}
    {arguments : List Value} {v : Value} (haction : d.member? .function name = some action)
    (h : action.apply arguments (.data d) = .ok v) : v.changes = [d] := by
  unfold Data.member? at haction
  split at haction
  · rename_i table htable
    exact MemberAction.changes_apply (MemberAction.isChange_function htable haction) h
  · cases haction

namespace Build

open Value Text

variable {s s' : BuildState} {d : Data}

/-- The name of a variable of a target, in a scope or in none. -/
def IsFullName (name : String) : Prop := ∃ sprite scope own, name = fullName sprite scope own

theorem not_isFullName_of_global (h : isGlobalName name = true) : ¬ IsFullName name := by
  rintro ⟨sprite, scope, own, rfl⟩
  rw [isGlobalName_fullName] at h
  cases h

theorem not_isFullName_of_output (h : isOutputName name = true) : ¬ IsFullName name := by
  rintro ⟨sprite, scope, own, rfl⟩
  rw [isOutputName_fullName] at h
  cases h

theorem not_isFullName_clone : ¬ IsFullName cloneData.name := by
  rintro ⟨sprite, scope, own, h⟩
  have hlist : (fullName sprite scope own).toList = 's' :: 'g' :: "_is_clone".toList := by
    rw [← h]
    rfl
  rcases second_fullName hlist with hline | hdigit
  · cases hline
  · cases hdigit

/-- What stands in the table of the target under a full name. -/
def entry (s : BuildState) (name : String) : Option Data :=
  (s.draft.locals? s.frame.place).bind (Assoc.get? name)

/-- A consistent state in which the results of functions, the messages of broadcasts and the
variable that tells clones apart have the names that are kept for them. -/
structure Sound (s : BuildState) : Prop where
  consistent : Consistent s
  results : ∀ function ∈ s.frame.functions, ∀ d, function.2.output = some d →
    isOutputName d.name = true
  messages : ∀ b ∈ s.draft.broadcasts, isGlobalName b.message.name = true
  clone : s.frame.cloneFlag.getD cloneData = cloneData

/-- What every action does: no entry of the table is lost or replaced, and the scripts that
are put aside set no variable that can be declared. -/
structure Grows (s s' : BuildState) : Prop where
  sound : Sound s → Sound s'
  entry : Sound s → ∀ name d, entry s name = some d → entry s' name = some d
  pending : ∃ scripts, s'.frame.pending = s.frame.pending ++ scripts ∧
    ∀ script ∈ scripts, ∀ d ∈ changesAll script, d.constant = false ∧ ¬ IsFullName d.name

instance : IsPreorder BuildState Grows where
  refl s := ⟨id, fun _ _ _ => id, [], by simp⟩
  trans a b c h k := by
    obtain ⟨first, hfirst, hown⟩ := h.pending
    obtain ⟨second, hsecond, hown'⟩ := k.pending
    refine ⟨fun hs => k.sound (h.sound hs), ?_, first ++ second, ?_, ?_⟩
    · intro hs name d hd
      exact k.entry (h.sound hs) name d (h.entry hs name d hd)
    · rw [hsecond, hfirst, List.append_assoc]
    · intro script hscript
      rcases List.mem_append.mp hscript with hscript | hscript
      · exact hown script hscript
      · exact hown' script hscript

section

variable (hconsistent : Consistent s → Consistent s')
  (hfunctions : s'.frame.functions = s.frame.functions)
  (hclone : s'.frame.cloneFlag = s.frame.cloneFlag) (hpending : s'.frame.pending = s.frame.pending)

include hconsistent hfunctions hclone hpending

/-- A step after which the known broadcasts and the entries are as they should be, and the rest is as
it was. -/
theorem Grows.of_kept
    (hmessages : Sound s → ∀ b ∈ s'.draft.broadcasts, isGlobalName b.message.name = true)
    (hentry : Sound s → ∀ name d, Build.entry s name = some d → Build.entry s' name = some d) :
    Grows s s' := by
  refine ⟨fun hs => ⟨hconsistent hs.consistent, ?_, hmessages hs, ?_⟩, hentry, [], by simp [hpending],
    by simp⟩
  · rw [hfunctions]
    exact hs.results
  · rw [hclone]
    exact hs.clone

theorem Grows.of_same
    (hlocals : s'.draft.locals? s'.frame.place = s.draft.locals? s.frame.place)
    (hbroadcasts : s'.draft.broadcasts = s.draft.broadcasts) : Grows s s' := by
  refine .of_kept hconsistent hfunctions hclone hpending (fun hs => ?_) fun _ name d hd => ?_
  · rw [hbroadcasts]
    exact hs.messages
  · rwa [Build.entry, hlocals]

end

section

/-- Only broadcasting makes broadcasts known. -/
def SameBroadcasts (s s' : BuildState) : Prop := s'.draft.broadcasts = s.draft.broadcasts

theorem broadcasts_addData : Within SameBroadcasts (addData place name type value constant) := by
  intro s d s' h
  obtain ⟨-, -, ⟨-, hdraft⟩ | ⟨-, locals, -, hdraft⟩⟩ := addData_ok h
  · rw [SameBroadcasts, hdraft]
  · rw [SameBroadcasts, hdraft, Draft.setLocals_eq]

/-- A declared variable is filed under a name that was free. -/
theorem grows_declare (hunused : find? (.ofName name) s = .ok none s)
    (h : addVariable name type value constant s = .ok d s') : Grows s s' := by
  have hbroadcasts : s'.draft.broadcasts = s.draft.broadcasts := by
    rw [addVariable, get_bind_ok] at h
    exact broadcasts_addData _ _ _ h
  have hconsistent := (advances_addVariable name type value constant _ _ _ h).consistent
  obtain ⟨rfl, hframe, -, -, locals, hlocals, hafter⟩ := addVariable_ok h
  refine .of_kept hconsistent ?_ ?_ ?_ (fun hs => ?_) fun hs own d hd => ?_
  iterate 3 rw [hframe]
  · rw [hbroadcasts]
    exact hs.messages
  · obtain ⟨table, htable, htidy, -⟩ := hs.consistent.table
    obtain rfl := Option.some.inj (hlocals.symm.trans htable)
    obtain ⟨hlookup, -⟩ := (find?_ofName hlocals).mp hunused
    have habsent := absent_of_lookup_none htidy hlookup (.inr List.mem_cons_self)
    rw [entry, hlocals, Option.bind_some] at hd
    rw [entry, hframe, hafter, Option.bind_some, Assoc.get?_put_of_ne, hd]
    rintro rfl
    cases habsent.symm.trans hd

theorem grows_broadcastNamed (name : Value) : Within Grows (broadcastNamed name) := by
  intro s b s' h
  have hconsistent := (advances_broadcastNamed name _ _ _ h).consistent
  rcases broadcastNamed_ok h with ⟨rfl, -⟩ | ⟨text, t, -, hadd, hframe, hdraft⟩
  · exact refl _
  · have hglobal := isGlobalName_message text
    have hbroadcasts : t.draft.broadcasts = s.draft.broadcasts :=
      broadcasts_addData _ _ _ hadd
    obtain ⟨hstay, hmessage, hsprites, hnames, htables⟩ := addData_stage_ok hadd
    have hstage : t.draft.stageLocals = s.draft.stageLocals := by
      rcases htables with ⟨-, -, hstage⟩ | ⟨hlocal, -⟩
      · exact hstage
      · cases hglobal.symm.trans hlocal
    rw [hstay] at hframe
    have hlocals : s'.draft.locals? s.frame.place = s.draft.locals? s.frame.place := by
      rw [hdraft]
      exact locals?_congr hsprites hnames hstage _
    refine .of_kept hconsistent ?_ ?_ ?_ (fun hs known hknown => ?_) fun _ own d hd => ?_
    iterate 3 rw [hframe]
    · rw [hdraft, hbroadcasts] at hknown
      rcases List.mem_append.mp hknown with hknown | hknown
      · exact hs.messages known hknown
      · rw [List.mem_singleton.mp hknown, hmessage]
        exact hglobal
    · rwa [entry, hframe, hlocals]

theorem grows_enterScope : Within Grows enterScope := by
  intro s u s' h
  have hconsistent : Consistent s → Consistent s' := fun hs => hs.enter h
  obtain rfl := enterScope_ok.mp h
  exact .of_same hconsistent rfl rfl rfl rfl rfl

theorem grows_exitScope : Within Grows exitScope := by
  intro s u s' h
  have hconsistent : Consistent s → Consistent s' := fun hs => hs.exit h
  obtain ⟨_, _, _, -, rfl⟩ := exitScope_ok.mp h
  exact .of_same hconsistent rfl rfl rfl rfl rfl

theorem grows_unfinished (s : BuildState) (scripts : List (List Value)) :
    Grows s { s with frame.unfinished := scripts } :=
  .of_same (fun hs => hs.congr rfl) rfl rfl rfl rfl rfl

theorem building_grows : Building Grows where
  moveTo p := by
    intro s u s' h
    obtain ⟨-, rfl⟩ := moveTo_ok.mp h
    exact .of_same (fun hs => hs.congr rfl) rfl rfl rfl rfl rfl
  emitAll blocks _ := by
    intro s u s' h
    obtain ⟨-, rfl⟩ := emitAll_ok.mp h
    exact grows_unfinished s _
  cloneFlag := by
    intro s v s' h
    have hkeeps := keeps_cloneFlag _ _ _ h
    rcases (cloneFlag_ok h).1 with rfl | ⟨-, rfl⟩
    · exact refl s
    · refine ⟨fun hs => ?_, ?_, cloneScripts, rfl, ?_⟩
      · exact ⟨hs.consistent.keeps hkeeps, hs.results, hs.messages, hkeeps.clone.trans hs.clone⟩
      · intro _ name d hd
        rw [entry, hkeeps.place, hkeeps.locals]
        exact hd
      · intro script hscript d hd
        have hclone : d = cloneData := by
          rcases List.mem_pair.mp hscript with rfl | rfl <;>
            simpa [changesAll, changes, ownChange, Opcode.target?] using hd
        exact hclone ▸ ⟨rfl, not_isFullName_clone⟩
  calls _ _ := trivial
  declare := grows_declare
  broadcast := grows_broadcastNamed
  scope henter h hexit := chain (grows_enterScope _ _ _ henter)
    (chain h (grows_exitScope _ _ _ hexit))
  script h _ := chain (grows_unfinished _ _)
    (chain h (grows_unfinished _ _))
  elsewhere _ _ _ _ := .rfl

theorem grows_run (action : Action) (held : List Held) : Within Grows (action.run held) := by
  have hpointing : Pointing Grows Grows :=
    ⟨building_grows, id, grows_enterScope, fun s => grows_unfinished s _⟩
  exact hpointing.run grows_exitScope grows_unfinished action held

end

def Moment.declares (m : Moment) (d : Data) : Prop :=
  ∃ pos target type value constant name,
    (m.action = .simple (.declare pos target type value constant) ∨
      m.action = .start (.declare pos target type value constant)) ∧
    target.plainName = .ok name ∧
    d = declaredData m.before.frame.place.isSprite m.before.frame.currentScope name type constant

/-- A moment at which a variable that is no constant is assigned to. -/
def Moment.assigns (m : Moment) (d : Data) : Prop :=
  d.constant = false ∧ ∃ stmt target, m.action = .simple stmt ∧ stmt.assigned? = some target ∧
    Reaches m.before target d

/-- A moment at which a function of a variable is called. -/
def Moment.callsFunctionOf (m : Moment) (d : Data) : Prop :=
  ∃ pos place object name arguments action,
    m.action = .simple (.call pos (.attr place object name) arguments) ∧
    find? (.ofExpr object) m.before = .ok (some d) m.before ∧
    d.member? .function name = some action

/-- The reasons for which a variable is changed at a moment. -/
def Moment.Accounts (m : Moment) (d : Data) : Prop :=
  m.assigns d ∨ ¬ IsFullName d.name ∨ m.declares d ∨ m.callsFunctionOf d

section

/-- From a sound state only variables with a property are changed. -/
def Records (P : Data → Prop) (s s' : BuildState) : Prop :=
  Sound s → Sound s' ∧ ∃ blocks, s'.frame.unfinished = addBlocks blocks s.frame.unfinished ∧
    ∀ d ∈ changesAll blocks, P d

variable {P : Data → Prop}

instance : IsPreorder BuildState (Records P) where
  refl s hs := ⟨hs, [], by simp, by simp [changesAll]⟩
  trans a b c h k := by
    intro ha
    obtain ⟨hb, first, hfirst, hown⟩ := h ha
    obtain ⟨hc, second, hsecond, hown'⟩ := k hb
    refine ⟨hc, first ++ second, by rw [hsecond, hfirst, addBlocks_addBlocks], ?_⟩
    intro d hd
    rw [changesAll_append] at hd
    rcases List.mem_append.mp hd with hd | hd
    · exact hown d hd
    · exact hown' d hd

/-- A block that changes one variable only. -/
theorem forall_changes {block : Value} (hblock : block.changes = [d]) (hd : P d) :
    ∀ d' ∈ block.changes, P d' := by
  rw [hblock]
  simpa using hd

theorem Grows.records (h : Grows s s') (hsame : s'.frame.unfinished = s.frame.unfinished) :
    Records P s s' :=
  fun hs => ⟨h.sound hs, [], by simp [hsame], by simp [changesAll]⟩

theorem writing_records : Writing (fun block => ∀ d ∈ block.changes, P d) fun _ => Records P where
  moveTo p := by
    intro s u s' h
    refine (building_grows.moveTo p _ _ _ h).records ?_
    rw [(quiet_moveTo h).frame]
  emitAll blocks hblocks := by
    intro s u s' h hs
    have hgrows := building_grows.emitAll blocks (fun _ _ => trivial) _ _ _ h
    obtain ⟨-, rfl⟩ := emitAll_ok.mp h
    refine ⟨hgrows.sound hs, blocks, rfl, fun d hd => ?_⟩
    obtain ⟨block, hblock, hd⟩ := mem_changesAll.mp hd
    exact hblocks block hblock d hd
  cloneFlag := by
    intro s v s' h
    refine (building_grows.cloneFlag _ _ _ h).records ?_
    rcases (cloneFlag_ok h).1 with rfl | ⟨-, rfl⟩ <;> rfl
  calls _ _ _ hd := by cases hd

theorem records_storeMessage (hP : ∀ d, ¬ IsFullName d.name → P d) (arguments : List Value) :
    Within (Records P) (storeMessage arguments) := by
  unfold storeMessage
  split
  · exact .fault _
  · rename_i name rest
    intro s v s' hrun
    obtain ⟨b, t, hbroadcast, _, t', hemit, hrun⟩ := bind_bind_ok.mp hrun
    obtain ⟨-, rfl⟩ := pure_ok.mp hrun
    have hgrows := grows_broadcastNamed name _ _ _ hbroadcast
    have hsame : t.frame.unfinished = s.frame.unfinished ∧ b ∈ t.draft.broadcasts := by
      rcases broadcastNamed_ok hbroadcast with ⟨rfl, hb, -⟩ | ⟨text, t₁, -, hadd, hframe, hdraft⟩
      · exact ⟨rfl, hb⟩
      · rw [hframe, (addData_stage_ok hadd).1, hdraft]
        exact ⟨rfl, by simp⟩
    intro hs
    refine trans (hgrows.records hsame.1) ?_ hs
    have hglobal := (hgrows.sound hs).messages b hsame.2
    exact writing_records.emit (forall_changes rfl (hP _ (not_isFullName_of_global hglobal))) _ _ _
      hemit

/-- A function that is called on a variable is one that its type has. -/
theorem changeVariable_ok (h : changeVariable f values d s = .ok () s') :
    ∃ place object name action,
      f = .attr place object name ∧ d.member? .function name = some action := by
  obtain ⟨_, t, -, h⟩ := bind_ok.mp h
  cases f with
  | attr place object name =>
    obtain ⟨block, t', hmember, -⟩ := bind_ok.mp h
    obtain ⟨table, htable, hmember⟩ := ofExcept_bind_ok.mp hmember
    cases haction : Assoc.get? name table with
    | some action =>
      refine ⟨place, object, name, action, rfl, ?_⟩
      rw [Data.member?, htable]
      exact haction
    | none =>
      simp only [haction] at hmember
      obtain ⟨_, _, -, _, _, -, hmember⟩ := bind_bind_ok.mp hmember
      cases hmember
  | _ => cases h

namespace Moment

variable {m : Moment} {t : BuildState}

theorem records_declare {target : Expr} (hquiet : Quiet m.before s)
    (haction : m.action = .simple (.declare pos target type value constant) ∨
      m.action = .start (.declare pos target type value constant))
    (h : declareVariable target type value constant s = .ok () s') : Records m.Accounts s s' := by
  refine writing_records.declareVariable ?_ h
  intro t t' name start d hkeeps hname hunused hadd
  have hgrows := grows_declare hunused hadd
  obtain ⟨rfl, hframe, -⟩ := addVariable_ok hadd
  refine ⟨hgrows.records (by rw [hframe]), fun block hblock => forall_changes hblock ?_⟩
  refine .inr (.inr (.inl ⟨pos, target, type, value, constant, name, haction, hname, ?_⟩))
  rw [hkeeps.place, hkeeps.currentScope, hquiet.frame]

theorem records_call (hquiet : Quiet m.before s)
    (haction : m.action = .simple (.call pos f arguments))
    (h : callStatement f arguments s = .ok () s') : Records m.Accounts s s' := by
  refine writing_records.callStatement ?_
    (fun _ => records_storeMessage fun d hd => .inr (.inl hd)) ?_ h
  · intro block hblock
    simp [hblock]
  · intro t t' values d hkeeps hfind hchange
    obtain ⟨place, object, name, action, rfl, hmember⟩ := changeVariable_ok hchange
    have hbefore : find? (.ofExpr object) m.before = .ok (some d) m.before :=
      hquiet.keeps.find?_iff.mp (hkeeps.find?_iff.mp hfind)
    have hcalls : m.callsFunctionOf d :=
      ⟨pos, place, object, name, arguments, action, haction, hbefore, hmember⟩
    refine writing_records.emitting.changeVariable (fun block hblock => ?_) _ _ _ _ _ hchange
    exact forall_changes hblock (.inr (.inr (.inr hcalls)))

/-- Each kind of simple statement has its reasons for what it changes. -/
theorem records_statement (hsimple : stmt.isSimple = true)
    (haction : m.action = .simple stmt) (h : statement stmt m.before = .ok () t) :
    Records m.Accounts m.before t := by
  have hnothing : ∀ block : Value, block.changes = [] → ∀ d ∈ block.changes, m.Accounts d := by
    intro block hblock
    simp [hblock]
  have hassigned : ∀ {t₀ : BuildState} {target : Expr}, Quiet m.before t₀ →
      stmt.assigned? = some target → ∀ d, Reaches t₀ target d → d.constant = false →
      ∀ block : Value, block.changes = [d] → ∀ d' ∈ block.changes, m.Accounts d' := by
    intro t₀ target hquiet htarget d hreaches hmutable block hblock
    refine forall_changes hblock (.inl ⟨hmutable, stmt, target, haction, htarget, ?_⟩)
    exact hreaches.of_keeps hquiet.keeps
  have hmove : ∀ {pos : Position} {step : Build Unit},
      (∀ t₀, Quiet m.before t₀ → step t₀ = .ok () t → Records m.Accounts t₀ t) →
      (moveTo pos >>= fun _ => step) m.before = .ok () t → Records m.Accounts m.before t := by
    intro pos step hstep hrun
    obtain ⟨_, t₀, hmoved, hrun⟩ := bind_ok.mp hrun
    exact trans (writing_records.moveTo pos _ _ _ hmoved)
      (hstep t₀ (quiet_moveTo hmoved) hrun)
  cases stmt with
  | declare pos target type value constant =>
    rw [statement] at h
    exact hmove (fun t₀ hquiet hrun => records_declare hquiet (.inl haction) hrun) h
  | assign pos target value =>
    rw [statement] at h
    exact hmove (fun t₀ hquiet => writing_records.assignTo hnothing (hassigned hquiet rfl)) h
  | update pos op target operand =>
    rw [statement] at h
    exact hmove (fun t₀ hquiet => writing_records.update hnothing (hassigned hquiet rfl)) h
  | call pos f arguments =>
    rw [statement] at h
    exact hmove (fun t₀ hquiet hrun => records_call hquiet haction hrun) h
  | giveBack pos value =>
    rw [statement] at h
    refine hmove (fun t₀ hquiet hrun hs => ?_) h
    refine writing_records.giveBack hnothing ?_ hrun hs
    intro function d hfunction houtput block hblock
    have hresult := hs.results _ (Assoc.mem_of_get? hfunction) _ houtput
    exact forall_changes hblock (.inr (.inl (not_isFullName_of_output hresult)))
  | shared | function | hat | malformed =>
    rw [statement] at h
    exact hmove (fun _ _ hrun => by cases hrun) h
  | bare word => cases h
  | ifThen | ifElse | whileLoop | forLoop => cases hsimple

/-- Everything that is changed at a moment is accounted for. -/
theorem accounts (hs : Sound m.before)
    (hsimple : ∀ stmt, m.action = .simple stmt → stmt.isSimple = true) (hd : d ∈ m.changes) :
    m.Accounts d := by
  have hwritten : ∀ {t : BuildState}, Records m.Accounts m.before t →
      d ∈ changesAll (written m.before t) → m.Accounts d := by
    intro t hrecords hd
    obtain ⟨-, blocks, hblocks, hown⟩ := hrecords hs
    by_cases hopen : m.before.frame.unfinished = []
    · rw [written_closed hblocks hopen] at hd
      cases hd
    · rw [written_addBlocks hblocks hopen] at hd
      exact hown d hd
  obtain ⟨action, held, before⟩ := m
  unfold Moment.changes at hd
  cases hresult : (Moment.mk action held before).result with
  | error f t =>
    rw [hresult] at hd
    cases hd
  | ok held' t =>
    simp only [hresult] at hd
    cases action with
    | simple stmt =>
      obtain ⟨hrun, -⟩ := then_ok.mp hresult
      exact hwritten (records_statement (hsimple stmt rfl) rfl hrun) hd
    | start stmt =>
      obtain ⟨hrun, -⟩ := then_ok.mp hresult
      obtain ⟨pos, target, type, value, constant, rfl, hdeclare⟩ := startLoop_ok hrun
      exact hwritten (records_declare (.refl _) (.inr rfl) hdeclare) hd
    | condition c =>
      obtain ⟨v, hrun, -⟩ := held_ok.mp hresult
      exact hwritten (writing_records.condition c _ _ _ hrun) hd
    | _ => cases hd

end Moment

/-- What an action does is written in some expressions and statements. -/
def Action.Of (nodes : List Expr) (parts : List Stmt) : Action → Prop
  | .move pos => ∃ stmt ∈ parts, stmt.place? = some pos
  | .simple stmt => stmt.isSimple = true ∧ stmt ∈ parts ∧ stmt.nodes ⊆ nodes
  | .start stmt => (∃ pos c next body, .forLoop pos stmt c next body ∈ parts) ∧ stmt.nodes ⊆ nodes
  | .condition c => c.nodes ⊆ nodes
  | _ => True

theorem Action.Of.mono {nodes nodes' : List Expr} {parts parts' : List Stmt} {action : Action}
    (h : action.Of nodes parts) (hnodes : nodes ⊆ nodes') (hparts : parts ⊆ parts') :
    action.Of nodes' parts' := by
  cases action with
  | move pos =>
    obtain ⟨stmt, hstmt, hpos⟩ := h
    exact ⟨stmt, hparts hstmt, hpos⟩
  | simple stmt => exact ⟨h.1, hparts h.2.1, List.Subset.trans h.2.2 hnodes⟩
  | start stmt =>
    obtain ⟨⟨pos, c, next, body, hloop⟩, hstmt⟩ := h
    exact ⟨⟨pos, c, next, body, hparts hloop⟩, List.Subset.trans hstmt hnodes⟩
  | condition c => exact List.Subset.trans h hnodes
  | _ => trivial

mutual

/-- What a plan does is written in its statement. -/
theorem of_mem_plan (stmt : Stmt) : ∀ action ∈ plan stmt, action.Of stmt.nodes stmt.parts := by
  have hbody : ∀ body, Stmt.nodesAll body ⊆ stmt.nodes → Stmt.partsAll body ⊆ stmt.parts →
      (∀ action ∈ planAll body, action.Of (Stmt.nodesAll body) (Stmt.partsAll body)) →
      ∀ action ∈ planAll body, action.Of stmt.nodes stmt.parts :=
    fun body hnodes hparts hall action haction => (hall action haction).mono hnodes hparts
  cases stmt with
  | ifThen pos c body =>
    have hinner := hbody body (by simp) (by simp) (of_mem_planAll body)
    simp only [plan, List.forall_mem_cons, List.forall_mem_append]
    exact ⟨⟨_, List.mem_cons_self, rfl⟩, List.subset_append_left _ _, trivial, hinner, trivial,
      trivial, nofun⟩
  | ifElse pos c body alternative =>
    have hinner := hbody body (by simp) (by simp) (of_mem_planAll body)
    have hother := hbody alternative (by simp) (by simp) (of_mem_planAll alternative)
    simp only [plan, List.forall_mem_cons, List.forall_mem_append]
    exact ⟨⟨_, List.mem_cons_self, rfl⟩, List.subset_append_left _ _, trivial, hinner, trivial,
      trivial, hother, trivial, trivial, nofun⟩
  | whileLoop pos c body =>
    have hinner := hbody body (by simp) (by simp) (of_mem_planAll body)
    have hend : ∀ action ∈ loopEnd c, action.Of (Stmt.whileLoop pos c body).nodes
        (Stmt.whileLoop pos c body).parts := by
      unfold loopEnd
      split
      · exact List.forall_mem_singleton.mpr trivial
      · exact List.forall_mem_cons.mpr
          ⟨List.subset_append_left _ _, List.forall_mem_singleton.mpr trivial⟩
    simp only [plan, List.forall_mem_cons, List.forall_mem_append]
    exact ⟨⟨_, List.mem_cons_self, rfl⟩, trivial, hinner, trivial, hend⟩
  | forLoop pos start c next body =>
    have hinner := hbody body (fun _ h => by simp [h]) (fun _ h => by simp [h]) (of_mem_planAll body)
    have hnext : ∀ action ∈ plan next, action.Of (Stmt.forLoop pos start c next body).nodes
        (Stmt.forLoop pos start c next body).parts :=
      fun action haction => (of_mem_plan next action haction).mono (fun _ h => by simp [h])
        fun _ h => by simp [h]
    simp only [plan, List.forall_mem_cons, List.forall_mem_append]
    exact ⟨⟨_, List.mem_cons_self, rfl⟩, trivial, ⟨⟨_, _, _, _, List.mem_cons_self⟩, by simp⟩,
      trivial, ⟨hinner, hnext⟩, trivial, fun _ h => by simp [h], trivial, trivial, nofun⟩
  | _ => exact List.forall_mem_singleton.mpr ⟨rfl, by simp, List.Subset.refl _⟩

theorem of_mem_planAll (stmts : List Stmt) :
    ∀ action ∈ planAll stmts, action.Of (Stmt.nodesAll stmts) (Stmt.partsAll stmts) := by
  cases stmts with
  | nil => exact nofun
  | cons stmt rest =>
    refine List.forall_mem_append.mpr ⟨fun action haction => ?_, fun action haction => ?_⟩
    · exact (of_mem_plan stmt action haction).mono (by simp) (by simp)
    · exact (of_mem_planAll rest action haction).mono (by simp) (by simp)

end

theorem simple_of_mem_planAll (stmts : List Stmt) (inner : Stmt)
    (h : .simple inner ∈ planAll stmts) :
    inner.isSimple = true ∧ inner.nodes ⊆ Stmt.nodesAll stmts := by
  obtain ⟨hsimple, -, hnodes⟩ := of_mem_planAll stmts _ h
  exact ⟨hsimple, hnodes⟩

end

section

/-- What is found is a global, or it stands in the table of the target. -/
theorem find?_some (h : find? key s = .ok (some d) s') :
    (∃ t, Assoc.get? (globalName t) s.draft.globals = some d) ∨
      ∃ table, s.draft.locals? s.frame.place = some table ∧
        ((∃ t, Assoc.get? (fullName s.frame.place.isSprite 0 t) table = some d) ∨
          findScoped key.name (s.frame.currentScope :: s.frame.scopes) table = .ok (some d)) := by
  obtain ⟨h, -⟩ := find?_ok.mp h
  unfold keyed at h
  split at h
  · rename_i hglobal
    cases h
    obtain ⟨t, -, hget⟩ := Option.bind_eq_some_iff.mp hglobal
    exact .inl ⟨t, hget⟩
  · split at h
    · cases h
    · rename_i table htable
      refine .inr ⟨table, htable, ?_⟩
      split at h
      · rename_i hshared
        cases h
        obtain ⟨t, -, hget⟩ := Option.bind_eq_some_iff.mp hshared
        exact .inl ⟨t, hget⟩
      · exact .inr h

/-- What is found is a global, or the entry of the table under its own name. -/
theorem Consistent.find?_entry (hs : Consistent s) (h : find? key s = .ok (some d) s) :
    isGlobalName d.name = true ∨ entry s d.name = some d := by
  obtain ⟨locals, hlocals, htidy, hfiled⟩ := hs.table
  rw [entry, hlocals, Option.bind_some]
  rcases find?_some h with ⟨t, hget⟩ | ⟨table, htable, hfound⟩
  · rw [hs.globals _ (Assoc.mem_of_get? hget)]
    exact .inl (isGlobalName_globalName t)
  · obtain rfl := Option.some.inj (hlocals.symm.trans htable)
    refine .inr ?_
    rcases hfound with ⟨t, hget⟩ | hscoped
    · have hname : d.name = fullName s.frame.place.isSprite 0 t :=
        hfiled _ (Assoc.mem_of_get? hget)
      rwa [hname]
    · cases hname : key.name with
      | none =>
        rw [hname, findScoped_unnamed htidy] at hscoped
        cases hscoped
      | some name =>
        rw [hname] at hscoped
        exact findScoped_get? htidy hfiled hscoped

/-- A variable that stands in the table as it is, its type aside, if its name is a full one. -/
def Standing (s : BuildState) (d : Data) : Prop :=
  IsFullName d.name → ∃ d₀, entry s d.name = some d₀ ∧ d₀.constant = d.constant

theorem untyped_standing : Untyped (Standing s) := fun _ _ h => h

theorem Sound.known (hs : Sound s) : Known (Standing s) s where
  named key d hfind hfull := by
    rcases hs.consistent.find?_entry hfind with hglobal | hentry
    · exact absurd hfull (not_isFullName_of_global hglobal)
    · exact ⟨d, hentry, rfl⟩
  results name function d hfunction houtput hfull := by
    have hresult := hs.results _ (Assoc.mem_of_get? hfunction) d houtput
    exact absurd hfull (not_isFullName_of_output hresult)
  clone := by
    rw [hs.clone]
    exact fun hfull => absurd hfull not_isFullName_clone

/-- What an assignment reaches stands in the table, unless a variable is written out in it. -/
theorem Reaches.standing {target : Expr} (h : Reaches s target d) (hs : Sound s)
    (hplain : ∀ v, .value v ∈ target.nodes → v.Plain) : Standing s d := by
  cases h with
  | named hkeeps hfind => exact (hs.known.keeps hkeeps).named _ d hfind
  | indexed hkeeps hlist =>
    exact reads_expression untyped_standing _ (hs.known.keeps hkeeps)
      (fun v hv => (hplain v (by simp [hv])).reads) hlist

namespace Moment

variable {m : Moment} {held : List Held} {t : BuildState}

theorem declares_isFullName (h : m.declares d) : IsFullName d.name := by
  obtain ⟨_, _, _, _, _, name, -, -, rfl⟩ := h
  exact ⟨_, _, name, rfl⟩

theorem not_declares_of_calls (h : m.callsFunctionOf d) : ¬ m.declares d' := by
  obtain ⟨_, _, _, _, _, _, haction, -⟩ := h
  rintro ⟨_, _, _, _, _, _, haction' | haction', -⟩ <;> cases haction.symm.trans haction'

theorem declares_unique (h : m.declares d) (h' : m.declares d') : d = d' := by
  obtain ⟨_, _, _, _, _, _, haction, hname, rfl⟩ := h
  obtain ⟨_, _, _, _, _, _, haction', hname', rfl⟩ := h'
  rcases haction with haction | haction <;> rcases haction' with haction' | haction' <;>
    cases haction.symm.trans haction'
  all_goals rw [Except.ok.inj (hname.symm.trans hname')]

/-- A declaration files its variable where nothing was filed. -/
theorem declares_entry (hs : Sound m.before) (h : m.declares d) (hresult : m.result = .ok held t) :
    entry m.before d.name = none ∧ entry t d.name = some d := by
  obtain ⟨pos, target, type, value, constant, name, haction, hname, hdata⟩ := h
  obtain ⟨s₀, hquiet, hdeclare⟩ : ∃ s₀, Quiet m.before s₀ ∧
      declareVariable target type value constant s₀ = .ok () t := by
    rcases haction with haction | haction
    · rw [result, haction] at hresult
      exact statement_declare (then_ok.mp hresult).1
    · rw [result, haction] at hresult
      exact ⟨m.before, .refl _, (then_ok.mp hresult).1⟩
  obtain ⟨own, e, start, v, d', s₁, s₂, hown, hunused, -, -, hvalue, hadd, hassign⟩ :=
    declareVariable_ok hdeclare
  obtain rfl := Except.ok.inj (hown.symm.trans hname)
  have hkeeps : Keeps m.before s₁ :=
    chain hquiet.keeps (keeps_expression _ _ _ _ _ hvalue)
  have hassigned := keeps_assign _ _ _ hassign
  obtain ⟨locals, hlocals, htidy, -⟩ := hs.consistent.table
  obtain ⟨rfl, hframe, -, -, table, htable, hafter⟩ := addVariable_ok hadd
  rw [hkeeps.place, hkeeps.locals] at htable
  obtain rfl := Option.some.inj (hlocals.symm.trans htable)
  have hsame :
      declaredData s₁.frame.place.isSprite s₁.frame.currentScope own type constant = d := by
    rw [hdata, hkeeps.place, hkeeps.currentScope]
  rw [hsame] at hafter
  refine ⟨?_, ?_⟩
  · obtain ⟨hlookup, -⟩ := (find?_ofName hlocals).mp (hquiet.keeps.find?_iff.mp hunused)
    rw [entry, hlocals, Option.bind_some, hdata]
    exact absent_of_lookup_none htidy hlookup (.inr List.mem_cons_self)
  · rw [entry, hassigned.place, hassigned.locals, hframe, hafter, Option.bind_some]
    exact Assoc.get?_put_self _ _ _

/-- A function of a variable does change it. -/
theorem mem_changes_of_callsFunctionOf (h : m.callsFunctionOf d) (hresult : m.result = .ok held t) :
    d ∈ m.changes := by
  obtain ⟨pos, place, object, name, arguments, action, haction, hfind, hmember⟩ := h
  have hrun : statement (.call pos (.attr place object name) arguments) m.before = .ok () t := by
    rw [result, haction] at hresult
    exact (then_ok.mp hresult).1
  rw [statement] at hrun
  obtain ⟨_, s₀, hmove, hrun⟩ := bind_ok.mp hrun
  have hvalues := hrun
  obtain ⟨values, s₁, hvalues, -⟩ := bind_ok.mp hvalues
  have hkeeps : Keeps m.before s₁ :=
    chain (quiet_moveTo hmove).keeps (keeps_expressions _ _ _ hvalues)
  rw [callStatement_member hvalues (hkeeps.find? hfind) hmember] at hrun
  obtain ⟨_, s₂, hscript, hrun⟩ := bind_ok.mp hrun
  obtain ⟨-, rfl⟩ := requireScript_ok.mp hscript
  obtain ⟨block, happly, hemit⟩ := ofExcept_bind_ok.mp hrun
  obtain ⟨hopen, rfl⟩ := emit_ok.mp hemit
  have hchanges : block.changes = [d] := Data.changes_function hmember happly
  obtain ⟨calls, hcalls⟩ := hkeeps.script
  have hbefore : m.before.frame.unfinished ≠ [] := by
    intro hnone
    rw [hcalls, hnone] at hopen
    exact hopen rfl
  have hwritten : written m.before { s₁ with
      frame.unfinished := addBlocks [block] s₁.frame.unfinished } = calls ++ [block] :=
    written_addBlocks (by rw [hcalls, addBlocks_addBlocks]) hbefore
  rw [changes, hresult]
  simp only [haction, Action.writes, if_true, hwritten, changesAll_append]
  refine List.mem_append_right _ ?_
  simp [changesAll, hchanges]

end Moment

section

variable {actions : List Action} {held held' : List Held} {m m₀ : Moment} {d' : Data}
  (hs : Sound s) (hm₀ : m₀ ∈ moments actions held s) (hdeclares : m₀.declares d)
  (hrun : runAll actions held s = .ok held' s') (hm : m ∈ moments actions held s)

include hs hm₀ hdeclares hrun hm

/-- Of two moments of a run one comes first, and what is filed there is still filed at the
other. So a moment apart from a declaration comes before it and files nothing under its name, or
finds the variable filed. -/
theorem filed_apart (hne : m ≠ m₀) (hresult : m.result = .ok held₁ t) :
    entry t d.name = none ∨ entry m.before d.name = some d := by
  have hsound : ∀ {m}, m ∈ moments actions held s → Sound m.before :=
    fun hm => (moments_reached grows_run hm).sound hs
  obtain ⟨held₀, t₀, hresult₀⟩ := result_of_mem_moments hrun hm₀
  obtain ⟨hfree₀, hfiled₀⟩ := Moment.declares_entry (hsound hm₀) hdeclares hresult₀
  rcases moments_compare grows_run hm hm₀ hne with
    ⟨_, _, hresult', hgrows⟩ | ⟨_, _, hresult', hgrows⟩
  · cases hresult.symm.trans hresult'
    have hafter : Sound t := (grows_run _ _ _ _ _ hresult).sound (hsound hm)
    refine .inl (Option.eq_none_iff_forall_ne_some.mpr fun other hother => ?_)
    cases hfree₀.symm.trans (hgrows.entry hafter _ _ hother)
  · cases hresult₀.symm.trans hresult'
    have hafter : Sound t₀ := (grows_run _ _ _ _ _ hresult₀).sound (hsound hm₀)
    exact .inr (hgrows.entry hafter _ _ hfiled₀)

/-- No other variable is ever filed under the name of one that a run declares. -/
theorem filed_unique (hfiled : entry m.before d.name = some d') : d' = d := by
  have hbefore : Sound m.before := (moments_reached grows_run hm).sound hs
  obtain ⟨held₁, t, hresult⟩ := result_of_mem_moments hrun hm
  by_cases heq : m = m₀
  · subst heq
    cases (Moment.declares_entry hbefore hdeclares hresult).1.symm.trans hfiled
  · rcases filed_apart hs hm₀ hdeclares hrun hm heq hresult with hnone | hsome
    · cases hnone.symm.trans ((grows_run _ _ _ _ _ hresult).entry hbefore _ _ hfiled)
    · exact Option.some.inj (hfiled.symm.trans hsome)

/-- A variable of a run with the name of a declared one is assigned to, or it is the declared
one and is changed by its own declaration or by a function called on it. -/
theorem assigned_or_own_or_called
    (hsimple : ∀ stmt, .simple stmt ∈ actions → stmt.isSimple = true) (hd' : d' ∈ m.changes)
    (hname : d'.name = d.name) : m.assigns d' ∨ d' = d ∧ (m = m₀ ∨ m.callsFunctionOf d) := by
  have hbefore : Sound m.before := (moments_reached grows_run hm).sound hs
  have hfull : IsFullName d'.name := hname ▸ Moment.declares_isFullName hdeclares
  rcases Moment.accounts hbefore (fun stmt haction => hsimple stmt
    (haction ▸ action_of_mem_moments hm)) hd' with hassigns | hforeign | hdeclares' | hcalls
  · exact .inl hassigns
  · exact absurd hfull hforeign
  · by_cases heq : m = m₀
    · subst heq
      exact .inr ⟨Moment.declares_unique hdeclares' hdeclares, .inl rfl⟩
    · obtain ⟨held₁, t, hresult⟩ := result_of_mem_moments hrun hm
      obtain ⟨hfree, hfiled⟩ := Moment.declares_entry hbefore hdeclares' hresult
      rw [hname] at hfree hfiled
      rcases filed_apart hs hm₀ hdeclares hrun hm heq hresult with hnone | hsome
      · cases hnone.symm.trans hfiled
      · cases hfree.symm.trans hsome
  · obtain ⟨_, _, _, _, _, _, -, hfind, -⟩ := id hcalls
    rcases hbefore.consistent.find?_entry hfind with hglobal | hentry
    · exact absurd hfull (not_isFullName_of_global hglobal)
    · rw [hname] at hentry
      obtain rfl := filed_unique hs hm₀ hdeclares hrun hm hentry
      exact .inr ⟨rfl, .inr hcalls⟩

/-- A constant of a run is assigned to under no other guise either. -/
theorem not_assigns_of_constant (hconstant : d.constant = true)
    (hplain : ∀ stmt, m.action = .simple stmt → ∀ v, .value v ∈ stmt.nodes → v.Plain)
    (hname : d'.name = d.name) : ¬ m.assigns d' := by
  rintro ⟨hmutable, stmt, target, haction, htarget, hreaches⟩
  have hbefore : Sound m.before := (moments_reached grows_run hm).sound hs
  have hstanding : Standing m.before d' := hreaches.standing hbefore fun v hv =>
    hplain stmt haction v (Stmt.nodes_assigned? htarget hv)
  obtain ⟨d₀, hentry, hsame⟩ := hstanding (hname ▸ Moment.declares_isFullName hdeclares)
  rw [hname] at hentry
  obtain rfl := filed_unique hs hm₀ hdeclares hrun hm hentry
  cases hconstant.symm.trans (hsame.trans hmutable)

end

end

section

variable {ownScope : Bool} {body : List Stmt} {blocks : List Value}

/-- What changes the constants of a script. All that the script changes is changed at its
moments, and the scripts put aside set no variable that can be declared. A constant is changed
at its own declaration and where a function is called on it; so it is changed nowhere else
exactly if no function of it is called. Nor is any other variable of its name changed, unless a
variable is written out in the tree of the script. -/
theorem constant_changed_only_by_functions (hs : Sound s)
    (h : script ownScope body s = .ok blocks s') :
    (changesAll blocks).Perm ((moments (scriptPlan ownScope body) [] s).flatMap Moment.changes) ∧
    (∃ scripts, s'.frame.pending = s.frame.pending ++ scripts ∧
      ∀ script ∈ scripts, ∀ d ∈ changesAll script, d.constant = false ∧ ¬ IsFullName d.name) ∧
    ∀ m₀ ∈ moments (scriptPlan ownScope body) [] s, ∀ d, m₀.declares d → d.constant = true →
      (∀ m ∈ moments (scriptPlan ownScope body) [] s, ∀ d' ∈ m.changes, d.Same d' →
        m = m₀ ∨ m.callsFunctionOf d) ∧
      ((∀ m ∈ moments (scriptPlan ownScope body) [] s, ∀ d' ∈ m.changes, d.Same d' → m = m₀) ↔
        ∀ m ∈ moments (scriptPlan ownScope body) [] s, ¬ m.callsFunctionOf d) ∧
      ((∀ v, .value v ∈ Stmt.nodesAll body → v.Plain) →
        ∀ m ∈ moments (scriptPlan ownScope body) [] s, ∀ d' ∈ m.changes,
          d'.name = d.name → d' = d) := by
  have hrun : runAll (scriptPlan ownScope body) [] s = .ok [.script blocks] s' := by
    rw [runAll_scriptPlan]
    exact bind_ok.mpr ⟨blocks, s', h, rfl⟩
  have hsimple : ∀ stmt, .simple stmt ∈ scriptPlan ownScope body →
      stmt.isSimple = true ∧ stmt.nodes ⊆ Stmt.nodesAll body := by
    intro stmt hstmt
    simp only [scriptPlan, List.mem_cons, List.mem_append, reduceCtorEq, List.not_mem_nil,
      false_or, or_false] at hstmt
    exact simple_of_mem_planAll body stmt hstmt
  refine ⟨changesAll_script h, (runAll_within grows_run _ _ _ _ _ hrun).pending, ?_⟩
  intro m₀ hm₀ d hdeclares hconstant
  have hreasons : ∀ m ∈ moments (scriptPlan ownScope body) [] s, ∀ d' ∈ m.changes,
      d'.name = d.name → m.assigns d' ∨ d' = d ∧ (m = m₀ ∨ m.callsFunctionOf d) := by
    intro m hm d' hd' hname
    exact assigned_or_own_or_called hs hm₀ hdeclares hrun hm
      (fun stmt hstmt => (hsimple stmt hstmt).1) hd' hname
  have hown : ∀ m ∈ moments (scriptPlan ownScope body) [] s, ∀ d' ∈ m.changes, d.Same d' →
      m = m₀ ∨ m.callsFunctionOf d := by
    rintro m hm d' hd' ⟨hname, hsame⟩
    rcases hreasons m hm d' hd' hname with ⟨hmutable, -⟩ | ⟨-, hreason⟩
    · cases hmutable.symm.trans (hsame.trans hconstant)
    · exact hreason
  refine ⟨hown, ⟨?_, ?_⟩, ?_⟩
  · intro hnowhere m hm hcalls
    obtain ⟨held, t, hresult⟩ := result_of_mem_moments hrun hm
    have hchanged := Moment.mem_changes_of_callsFunctionOf hcalls hresult
    obtain rfl := hnowhere m hm d hchanged ⟨rfl, rfl⟩
    exact Moment.not_declares_of_calls hcalls hdeclares
  · intro hnone m hm d' hd' hsame
    exact (hown m hm d' hd' hsame).resolve_right (hnone m hm)
  · intro hplain m hm d' hd' hname
    have hnot : ¬ m.assigns d' := by
      refine not_assigns_of_constant hs hm₀ hdeclares hrun hm hconstant ?_ hname
      intro stmt haction v hv
      exact hplain v ((hsimple stmt (haction ▸ action_of_mem_moments hm)).2 hv)
    exact ((hreasons m hm d' hd' hname).resolve_left hnot).1

/-- A constant list to which an item is added. -/
def pushing : List Stmt :=
  [.declare .nowhere (.name .nowhere "l") .ofList (some (.list [.int 1, .int 2])) true,
    .call .nowhere (.attr .nowhere (.value (.str "l")) "push") [.int 3]]

theorem constant_changed_only_by_functions_pushed : ∃ blocks s', Sound stageBuilder ∧
    script true pushing stageBuilder = .ok blocks s' ∧
    ∃ m₀ ∈ moments (scriptPlan true pushing) [] stageBuilder,
      m₀.declares (declaredData false 1 "l" .ofList true) ∧
      (¬ ∀ m ∈ moments (scriptPlan true pushing) [] stageBuilder, ∀ d' ∈ m.changes,
        (declaredData false 1 "l" .ofList true).Same d' → m = m₀) ∧
      ∀ m ∈ moments (scriptPlan true pushing) [] stageBuilder, ∀ d' ∈ m.changes,
        d'.name = "b1_l" → d' = declaredData false 1 "l" .ofList true := by
  have hs : Sound stageBuilder := by
    refine ⟨⟨⟨[], rfl, by simp [Tidy], by simp⟩, ?_, rfl, by simp [stageBuilder, Frame.fresh]⟩, ?_, ?_,
      rfl⟩
    all_goals
      intro _ hmem
      cases hmem
  obtain ⟨blocks, s', hscript⟩ : ∃ blocks s', script true pushing stageBuilder = .ok blocks s' :=
    ⟨_, _, rfl⟩
  obtain ⟨opening, m₀, m, closing, hmoments, hdeclares, hcalls⟩ : ∃ opening m₀ m closing,
      moments (scriptPlan true pushing) [] stageBuilder = [opening, m₀, m, closing] ∧
      m₀.declares (declaredData false 1 "l" .ofList true) ∧
      m.callsFunctionOf (declaredData false 1 "l" .ofList true) :=
    ⟨_, _, _, _, rfl, ⟨_, _, _, _, _, _, .inl rfl, rfl, rfl⟩, ⟨_, _, _, _, _, _, rfl, rfl, rfl⟩⟩
  have hm₀ : m₀ ∈ moments (scriptPlan true pushing) [] stageBuilder := by simp [hmoments]
  have hm : m ∈ moments (scriptPlan true pushing) [] stageBuilder := by simp [hmoments]
  obtain ⟨-, -, hconstants⟩ := constant_changed_only_by_functions hs hscript
  obtain ⟨-, hiff, honly⟩ := hconstants m₀ hm₀ _ hdeclares rfl
  refine ⟨blocks, s', hs, hscript, m₀, hm₀, hdeclares, fun hown => ?_, honly fun v hv => ?_⟩
  · exact hiff.mp hown m hm hcalls
  · simp only [pushing, Expr.int, Stmt.nodesAll, Stmt.nodes, Expr.nodes, Expr.nodesAll,
      Option.map_some, Option.getD_some, List.mem_append, List.mem_cons, List.not_mem_nil,
      reduceCtorEq, Expr.value.injEq, false_or, or_false] at hv
    rcases hv with (rfl | rfl) | rfl | rfl <;> trivial

end

end Build

end BlockScript
