import BlockScript.Proofs.Plans

/-!
Where the changes in a script come from. Every block that changes a variable is written at one
moment of the run of the script's plan, and the blocks around scripts only take up what is
there. So a finished script changes what was changed at its moments, each variable as often.
-/
namespace BlockScript.Build

open Value

variable {s s' : BuildState} {held held' : List Held}

def Held.changes : Held → List Data
  | .value _ => []
  | .script blocks => changesAll blocks

/-- Whether an action writes blocks that may change a variable of their own. -/
def Action.writes : Action → Bool
  | .simple _ | .start _ | .condition _ => true
  | _ => false

/-- The blocks that the innermost script has in the second state more than in the first. -/
def written (s s' : BuildState) : List Value :=
  (s'.frame.unfinished.headD []).drop (s.frame.unfinished.headD []).length

/-- The variables that are changed by the blocks written at a moment. -/
def Moment.changes (m : Moment) : List Data :=
  match m.result with
  | .ok _ t => if m.action.writes then changesAll (written m.before t) else []
  | .error _ _ => []

/-- All that is changed by what is held and by the scripts that are being written. -/
def tally (held : List Held) (s : BuildState) : List Data :=
  held.flatMap Held.changes ++ s.frame.unfinished.flatMap changesAll

variable {blocks : List Value} {ownScope : Bool}

section

variable (h : s'.frame.unfinished = addBlocks blocks s.frame.unfinished)

include h

theorem written_addBlocks (hopen : s.frame.unfinished ≠ []) : written s s' = blocks := by
  unfold written
  rw [h]
  cases hscripts : s.frame.unfinished with
  | nil => exact absurd hscripts hopen
  | cons script rest => simp [addBlocks]

theorem written_closed (hclosed : s.frame.unfinished = []) : written s s' = [] := by
  unfold written
  rw [h, hclosed]
  rfl

/-- Blocks added to the innermost script add what they change. -/
theorem tally_written :
    (tally held s').Perm (tally held s ++ changesAll (written s s')) := by
  rw [List.perm_iff_count]
  intro d
  cases hscripts : s.frame.unfinished with
  | nil =>
    rw [written_closed h hscripts]
    simp [tally, h, hscripts, addBlocks, changesAll]
  | cons script rest =>
    rw [written_addBlocks h (by simp [hscripts])]
    simp only [tally, h, hscripts, addBlocks, List.flatMap_cons, List.count_append,
      changesAll_append]
    omega

end

/-- A block around finished scripts changes what the scripts change. -/
theorem tally_control {kind : Control} (h : kind.write held s = .ok held' s') :
    (tally held' s').Perm (tally held s) := by
  have hwrite : ∀ {block : Value} {rest : List Held},
      (emit block >>= fun _ => pure rest) s = .ok held' s' →
      (held.flatMap Held.changes).Perm (block.changes ++ rest.flatMap Held.changes) →
      (tally held' s').Perm (tally held s) := by
    intro block rest hrun hheld
    have hcount := List.perm_iff_count.mp hheld
    obtain ⟨hemit, rfl⟩ := then_ok.mp hrun
    obtain ⟨hopen, rfl⟩ := emit_ok.mp hemit
    rw [List.perm_iff_count]
    intro d
    cases hscripts : s.frame.unfinished with
    | nil => exact absurd hscripts hopen
    | cons script scripts =>
      simp only [tally, hcount d, hscripts, addBlocks, List.flatMap_cons, List.count_append,
        changesAll_append, changesAll, List.append_nil]
      omega
  unfold Control.write at h
  split at h
  · exact hwrite h (by simp [Held.changes, Value.changes, changesElse])
  · refine hwrite h ?_
    rw [List.perm_iff_count]
    intro d
    simp only [Held.changes, Value.changes, changesElse, List.flatMap_cons, List.count_append,
      List.nil_append]
    omega
  · exact hwrite h (by simp [Held.changes, Value.changes])
  · obtain ⟨_, t, hscript, h⟩ := bind_ok.mp h
    obtain ⟨-, rfl⟩ := requireScript_ok.mp hscript
    obtain ⟨c, -, h⟩ := ofExcept_bind_ok.mp h
    exact hwrite h (by simp [Held.changes, Value.changes])
  · cases h

theorem unfinished_enter (h : (if ownScope then enterScope else pure ()) s = .ok () s') :
    s'.frame.unfinished = s.frame.unfinished := by
  cases ownScope with
  | true => rw [← enterScope_ok.mp h]
  | false => rw [(pure_ok.mp h).2]

theorem unfinished_exit (h : (if ownScope then exitScope else pure ()) s = .ok () s') :
    s'.frame.unfinished = s.frame.unfinished := by
  cases ownScope with
  | true =>
    obtain ⟨_, _, _, -, rfl⟩ := exitScope_ok.mp h
    rfl
  | false => rw [(pure_ok.mp h).2]

/-- One step: what is there after it is what was there before it and what it changes. -/
theorem tally_step {action : Action} (h : action.run held s = .ok held' s') :
    (tally held' s').Perm (tally held s ++ (Moment.mk action held s).changes) := by
  have hchanges : (Moment.mk action held s).changes =
      if action.writes then changesAll (written s s') else [] := by
    simp only [Moment.changes, Moment.result, h]
  rw [hchanges]
  cases action with
  | move pos =>
    obtain ⟨hmove, rfl⟩ := then_ok.mp h
    obtain ⟨-, rfl⟩ := moveTo_ok.mp hmove
    simp [Action.writes, tally]
  | simple stmt =>
    obtain ⟨hrun, rfl⟩ := then_ok.mp h
    obtain ⟨blocks, hblocks⟩ := (building_advances.statement _ _ _ _ hrun).script
    exact tally_written hblocks
  | start stmt =>
    obtain ⟨hrun, rfl⟩ := then_ok.mp h
    obtain ⟨blocks, hblocks⟩ := (building_advances.startLoop _ _ _ _ hrun).script
    exact tally_written hblocks
  | condition c =>
    obtain ⟨v, hrun, rfl⟩ := held_ok.mp h
    obtain ⟨blocks, hblocks⟩ := (building_advances.condition _ _ _ _ hrun).script
    exact tally_written hblocks
  | openScript ownScope =>
    obtain ⟨hrun, rfl⟩ := then_ok.mp h
    obtain ⟨t, hscope, rfl⟩ := openScript_ok.mp hrun
    simp [Action.writes, tally, changesAll, unfinished_enter hscope]
  | closeScript ownScope =>
    obtain ⟨blocks, hrun, rfl⟩ := held_ok.mp h
    obtain ⟨t, rest, hscope, hscripts, rfl⟩ := closeScript_ok.mp hrun
    rw [unfinished_exit hscope] at hscripts
    rw [List.perm_iff_count]
    intro d
    simp only [tally, hscripts, Held.changes, List.flatMap_cons, List.count_append, Action.writes,
      Bool.false_eq_true, if_false, List.append_nil]
    omega
  | enterScope =>
    obtain ⟨hrun, rfl⟩ := then_ok.mp h
    obtain rfl := enterScope_ok.mp hrun
    simp [Action.writes, tally]
  | exitScope =>
    obtain ⟨hrun, rfl⟩ := then_ok.mp h
    obtain ⟨_, _, _, -, rfl⟩ := exitScope_ok.mp hrun
    simp [Action.writes, tally]
  | control kind => simpa [Action.writes] using tally_control h

/-- A whole run: what is there after it is what was there before it and what its moments
change. -/
theorem tally_runAll (h : runAll actions held s = .ok held' s') :
    (tally held' s').Perm (tally held s ++ (moments actions held s).flatMap Moment.changes) := by
  induction actions generalizing held s with
  | nil =>
    obtain ⟨rfl, rfl⟩ := pure_ok.mp h
    simp [moments]
  | cons action rest ih =>
    obtain ⟨held₁, s₁, hstep, h⟩ := bind_ok.mp h
    have hfirst := List.perm_iff_count.mp (tally_step hstep)
    have hrest := List.perm_iff_count.mp (ih h)
    rw [List.perm_iff_count]
    intro d
    specialize hfirst d
    specialize hrest d
    simp only [moments, hstep, List.flatMap_cons, List.count_append] at hfirst hrest ⊢
    omega

/-- A script changes what is changed at its moments. -/
theorem changesAll_script (h : script ownScope body s = .ok blocks s') :
    (changesAll blocks).Perm
      ((moments (scriptPlan ownScope body) [] s).flatMap Moment.changes) := by
  have hrun := runAll_of_script h []
  have hsame : s'.frame.unfinished = s.frame.unfinished :=
    (inScript_advances (building_advances.statements body) h).2
  have htally := List.perm_iff_count.mp (tally_runAll hrun)
  rw [List.perm_iff_count]
  intro d
  specialize htally d
  simp only [tally, hsame, List.flatMap_cons, List.flatMap_nil, Held.changes, List.append_nil,
    List.nil_append, List.count_append] at htally
  omega

end BlockScript.Build
