import BlockScript.Proofs.Histories

/-!
Bodies leave a builder balanced. Scopes are opened by loops and by bodies, and scripts by bodies
only. Whatever is opened while a body is built is closed at its end, and only the number of the last
scope goes on.
-/
namespace BlockScript.Build

variable {s s' : BuildState}

theorem building_returns : Building Returns where
  moveTo p := (keeps_moveTo p).mono fun _ _ => Keeps.returns
  emitAll blocks _ := (keeps_emitAll blocks).mono fun _ _ => Keeps.returns
  cloneFlag := keeps_cloneFlag.mono fun _ _ => Keeps.returns
  calls _ _ := trivial
  declare _ h := .of_frame (addVariable_ok h).2.1
  broadcast name s b s' h := by
    rcases broadcastNamed_ok h with ⟨rfl, -⟩ | ⟨text, t, -, hadd, hframe, -⟩
    · exact refl _
    · exact .of_frame (hframe.trans (addData_stage_ok hadd).1)
  scope henter h hexit := by
    obtain rfl := enterScope_ok.mp henter
    obtain ⟨inner, outer, rest, hscopes, rfl⟩ := exitScope_ok.mp hexit
    rw [h.scopes] at hscopes
    obtain ⟨-, htail⟩ := List.cons.inj hscopes
    refine ⟨htail.symm, Nat.le_trans (Nat.le_succ _) h.last, fun hs => ?_⟩
    rw [Innermost, htail] at hs
    exact Option.some.inj hs
  script h _ := ⟨h.scopes, h.last, h.current⟩
  elsewhere _ _ _ _ := .rfl

theorem pointing_numbers : Pointing Returns Numbers where
  building := building_returns
  step := Returns.numbers
  enter := numbers_enterScope
  opened _ := ⟨Nat.le_refl _, fun _ => .inl, id⟩

/-- The current scope stays the innermost one. -/
def StaysInnermost (s s' : BuildState) : Prop := Innermost s → Innermost s'

instance : IsPreorder BuildState StaysInnermost where
  refl _ := id
  trans _ _ _ h k hs := k (h hs)

theorem StaysInnermost.of_frame (h : s'.frame = s.frame) : StaysInnermost s s' := by
  simp [StaysInnermost, Innermost, h]

theorem staysInnermost_edit (edit : Edit) : Within StaysInnermost edit.run := by
  have hdebug : ∀ text, Within StaysInnermost (debug text) := fun _ _ _ _ h =>
    .of_frame (debug_ok h).2.1
  have htarget : ∀ place file body, Within StaysInnermost (buildTarget place file body) :=
    fun place file body s u s' h _ =>
      have hbuilt : Introduces place _ _ _ := introduces_target body _ _ _ (modify_bind_ok.mp h)
      hbuilt.innermost rfl
  have hedit : ∀ {x : Build Unit} {reasons : List Reason}, Within (Introduces .stage reasons) x →
      Within StaysInnermost x := fun hx s u s' h => (hx s u s' h).innermost
  cases edit with
  | setup folder tree => exact hedit introduces_setup
  | stage folder script => exact hedit introduces_addStage
  | sprite folder file =>
    exact .bind (fun _ _ _ h => .of_frame (sameFrame_addSprite _ _ _ h)) fun _ => .pure _
  | build =>
    have hstage : Within StaysInnermost buildStage := by
      refine .get_bind fun t => ?_
      dsimp only
      split
      · exact fun _ _ _ h => .of_frame (log_ok h).2.1
      · exact .bind (htarget _ _ _) fun _ => hdebug _
    exact .bind hstage fun _ => .get_bind fun t =>
      Within.forM (fun item => .bind (htarget _ _ _) fun _ => hdebug _) _

/-- The bodies of functions and hats are built where the current scope is the innermost one. -/
theorem innermost_bodies {pos : Position} {body : List Stmt} (hs : Innermost s) :
    (∀ returns name parameters warp,
      functionOf (.function pos returns name parameters warp body) s = .ok () s' →
      ∃ t blocks t', Innermost t ∧ script false body t = .ok blocks t' ∧ Innermost s') ∧
    ∀ event arguments, hatOf (.hat pos event arguments body) s = .ok () s' →
      ∃ ownScope t blocks t', Innermost t ∧ script ownScope body t = .ok blocks t' ∧
        Innermost s' := by
  constructor
  · intro returns name parameters warp h
    obtain ⟨t, blocks, t', hopened, hbody, -⟩ := functionOf_parts s.frame.place h
    have hall : Introduces s.frame.place _ _ _ := introduces_functionOf _ _ _ _ h
    exact ⟨t, blocks, t', hopened.innermost hs, hbody, hall.innermost hs⟩
  · intro event arguments h
    obtain ⟨ownScope, t, blocks, t', hopened, hbody, -⟩ := hatOf_parts s.frame.place h
    have hall : Introduces s.frame.place _ _ _ := introduces_hatOf _ _ _ _ h
    exact ⟨ownScope, t, blocks, t', hopened.innermost hs, hbody, hall.innermost hs⟩

/-- A body that is built leaves the builder balanced: the same scopes and the same scripts are open,
with the same blocks in them, and the functions are the same, as is the one being built. The current
scope is the same if it was the innermost one, and then it is the innermost at every moment of the
body. It is the innermost one after every history. The number of the last scope has not become
smaller, and it is at least that of every scope that was opened on the way. -/
theorem script_balanced {ownScope : Bool} {body : List Stmt} {blocks : List Value}
    (h : script ownScope body s = .ok blocks s') :
    s'.frame.scopes = s.frame.scopes ∧ s'.frame.unfinished = s.frame.unfinished ∧
    s'.frame.functions = s.frame.functions ∧ s'.frame.building = s.frame.building ∧
    (Innermost s → s'.frame.currentScope = s.frame.currentScope) ∧
    (∀ session folder edits, history edits (.fresh session folder) = .ok () s → Innermost s) ∧
    s.frame.lastScope ≤ s'.frame.lastScope ∧
    ∀ m ∈ moments (scriptPlan ownScope body) [] s, (Innermost s → Innermost m.before) ∧
      ∀ scope ∈ m.before.frame.scopes,
        scope ∈ s.frame.scopes ∨ s.frame.lastScope < scope ∧ scope ≤ s'.frame.lastScope := by
  obtain ⟨hadvances, hunfinished⟩ := inScript_advances (advances_statements body) h
  have hreturns : Returns s s' :=
    building_returns.inScript ownScope (building_returns.statements body) _ _ _ h
  refine ⟨hreturns.scopes, hunfinished, hadvances.functions, hadvances.building, hreturns.current,
    fun session folder edits hedits => ?_, hreturns.last, fun m hm => ?_⟩
  · exact Within.forM staysInnermost_edit edits _ _ _ hedits rfl
  have hnumbers : ∀ action held, Within Numbers (Action.run action held) :=
    pointing_numbers.run numbers_exitScope fun _ _ => ⟨Nat.le_refl _, fun _ => .inl, id⟩
  have hbefore := pointing_numbers.visits_scriptPlan ownScope body [] s m hm
  obtain ⟨held, t, hresult, hafter⟩ := moments_lead hnumbers (runAll_of_script h []) hm
  have hlast := Nat.le_trans (hnumbers _ _ _ _ _ hresult).last hafter.last
  exact ⟨hbefore.innermost, fun scope hscope =>
    (hbefore.opened scope hscope).imp_right fun h => ⟨h.1, Nat.le_trans h.2 hlast⟩⟩

/-- A counted loop with a choice inside. -/
def countedBody : List Stmt :=
  let i : Expr := .name (.start 0) "i"
  let below (n : Int) : Expr := .compare (.start 0) .lt [i, .int n]
  [.forLoop (.start 0) (.declare (.start 0) i .ofNumber (some (.int 0)) false) (below 9)
    (.update (.start 0) (.arith .add) i (.int 1))
    [.ifElse (.start 0) (below 5) [.declare (.start 0) (.name (.start 0) "a") .general none false]
      [.assign (.start 0) i (.int 7)]]]

theorem script_balanced_counted :
    ∃ blocks s', script true countedBody stageBuilder = .ok blocks s' ∧ s'.frame.lastScope = 4 ∧
      s'.frame.scopes = [0] ∧ s'.frame.unfinished = [[]] ∧ s'.frame.currentScope = 0 := by
  obtain ⟨blocks, s', hrun, hlast⟩ : ∃ blocks s', script true countedBody stageBuilder =
      .ok blocks s' ∧ s'.frame.lastScope = 4 := ⟨_, _, rfl, rfl⟩
  obtain ⟨hscopes, hunfinished, -, -, hcurrent, -⟩ := script_balanced hrun
  exact ⟨blocks, s', hrun, hlast, hscopes, hunfinished, hcurrent rfl⟩

end BlockScript.Build
