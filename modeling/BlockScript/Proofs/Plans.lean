import BlockScript.Proofs.Consistency
import Mathlib.Data.List.Pairwise

/-!
Building as a plan. The statements of a body are nested, but what is done to build them can be
written in one line: a list of actions, each done in the state that the one before it left.
Conditions and finished scripts are held until the block around them is written. Running the
plan of a body is building it, and so every point of the building is a moment of the run.
-/
namespace BlockScript.Build

variable {s s' : BuildState}

/-- What is held until a block is written: a condition, or a script. -/
inductive Held
  | value (v : Value)
  | script (blocks : List Value)

/-- The blocks that have scripts inside them. -/
inductive Control
  | ifThen
  | ifElse
  | forever
  | repeatUntil

inductive Action
  | move (pos : Position)
  /-- A statement with no statements inside it. -/
  | simple (stmt : Stmt)
  | start (stmt : Stmt)
  | condition (c : Expr)
  | openScript (ownScope : Bool)
  | closeScript (ownScope : Bool)
  | enterScope
  | exitScope
  | control (kind : Control)

/-- Writes a block around what is held, and gives what is held besides. -/
def Control.write : Control → List Held → Build (List Held)
  | .ifThen, .script body :: .value c :: held => do
    emit (.op .ifThen (c :: body))
    return held
  | .ifElse, .script alternative :: .script body :: .value c :: held => do
    emit (.block .ifThen (c :: body) none (some alternative))
    return held
  | .forever, .script body :: held => do
    emit (.op .forever body)
    return held
  | .repeatUntil, .value c :: .script body :: held => do
    requireScript
    emit (.op .repeatUntil ((← ofExcept c.logicalNot) :: body))
    return held
  | _, _ => fault .typeMismatch

def Action.run : Action → List Held → Build (List Held)
  | .move pos, held => do
    moveTo pos
    return held
  | .simple stmt, held => do
    statement stmt
    return held
  | .start stmt, held => do
    startLoop stmt
    return held
  | .condition c, held => return .value (← Build.condition c) :: held
  | .openScript ownScope, held => do
    Build.openScript ownScope
    return held
  | .closeScript ownScope, held => return .script (← Build.closeScript ownScope) :: held
  | .enterScope, held => do
    Build.enterScope
    return held
  | .exitScope, held => do
    Build.exitScope
    return held
  | .control kind, held => kind.write held

def runAll : List Action → List Held → Build (List Held)
  | [], held => pure held
  | action :: rest, held => do runAll rest (← action.run held)

/-- A loop without end has no condition to be translated. -/
def loopEnd : Expr → List Action
  | .truth true => [.control .forever]
  | c => [.condition c, .control .repeatUntil]

mutual

def plan : Stmt → List Action
  | .ifThen pos c body =>
    .move pos :: .condition c :: .openScript true ::
      (planAll body ++ [.closeScript true, .control .ifThen])
  | .ifElse pos c body alternative =>
    .move pos :: .condition c :: .openScript true ::
      (planAll body ++ .closeScript true :: .openScript true ::
        (planAll alternative ++ [.closeScript true, .control .ifElse]))
  | .whileLoop pos c body =>
    .move pos :: .openScript true :: (planAll body ++ .closeScript true :: loopEnd c)
  | .forLoop pos start c next body =>
    .move pos :: .enterScope :: .start start :: .openScript false ::
      ((planAll body ++ plan next) ++
        [.closeScript false, .condition c, .control .repeatUntil, .exitScope])
  | stmt => [.simple stmt]

def planAll : List Stmt → List Action
  | [] => []
  | stmt :: rest => plan stmt ++ planAll rest

end

theorem runAll_append (first second : List Action) (held : List Held) :
    runAll (first ++ second) held = runAll first held >>= runAll second := by
  induction first generalizing held with
  | nil => simp [runAll]
  | cons action rest ih => simp [runAll, ih]

/-- Writes a loop around a script. -/
def writeLoop (c : Expr) (body : List Value) : Build Unit :=
  match c with
  | .truth true => emit (.op .forever body)
  | _ => do
    let c ← condition c
    requireScript
    emit (.op .repeatUntil ((← ofExcept c.logicalNot) :: body))

theorem whileLoop_eq (pos : Position) (c : Expr) (body : List Stmt) :
    statement (.whileLoop pos c body) = (do
      moveTo pos
      writeLoop c (← inScript true (statements body))) :=
  rfl

theorem runAll_loopEnd (c : Expr) (body : List Value) (held : List Held) :
    runAll (loopEnd c) (.script body :: held) = (fun _ => held) <$> writeLoop c body := by
  unfold loopEnd writeLoop
  split <;> simp [runAll, Action.run, Control.write]

mutual

/-- Running the plan of a statement is building it. -/
theorem runAll_plan (stmt : Stmt) (held : List Held) :
    runAll (plan stmt) held = (do statement stmt; return held) := by
  cases stmt with
  | ifThen pos c body =>
    simp [plan, runAll, runAll_append, Action.run, runAll_planAll body, statement, Control.write,
      inScript]
  | ifElse pos c body alternative =>
    simp [plan, runAll, runAll_append, Action.run, runAll_planAll body,
      runAll_planAll alternative, statement, Control.write, inScript]
  | whileLoop pos c body =>
    simp only [plan, runAll, runAll_append, Action.run, runAll_planAll body, whileLoop_eq,
      inScript, runAll_loopEnd, bind_assoc, pure_bind, map_eq_pure_bind]
  | forLoop pos start c next body =>
    simp [plan, runAll, runAll_append, Action.run, runAll_planAll body, runAll_plan next,
      statement, Control.write, inScript]
  | _ => simp [plan, runAll, Action.run]

theorem runAll_planAll (stmts : List Stmt) (held : List Held) :
    runAll (planAll stmts) held = (do statements stmts; return held) := by
  cases stmts with
  | nil => simp [planAll, runAll, statements]
  | cons stmt rest =>
    simp [planAll, runAll_append, runAll_plan stmt, runAll_planAll rest, statements]

end

/-- The plan of a script: its body, between its opening and its closing. -/
def scriptPlan (ownScope : Bool) (body : List Stmt) : List Action :=
  .openScript ownScope :: (planAll body ++ [.closeScript ownScope])

theorem runAll_scriptPlan (ownScope : Bool) (body : List Stmt) (held : List Held) :
    runAll (scriptPlan ownScope body) held =
      (do let blocks ← script ownScope body; return .script blocks :: held) := by
  simp [scriptPlan, runAll, runAll_append, runAll_planAll, Action.run, script, inScript]

theorem runAll_of_script (h : script ownScope body s = .ok blocks s') (held : List Held) :
    runAll (scriptPlan ownScope body) held s = .ok (.script blocks :: held) s' := by
  rw [runAll_scriptPlan]
  exact bind_ok.mpr ⟨blocks, s', h, rfl⟩

/-- An action, what is held when it is done, and the state in which it is done. -/
structure Moment where
  action : Action
  held : List Held
  before : BuildState

def Moment.result (m : Moment) : EStateM.Result Failure BuildState (List Held) :=
  m.action.run m.held m.before

/-- All that is done when a plan is run, up to its end or to the first failure. -/
def moments : List Action → List Held → BuildState → List Moment
  | [], _, _ => []
  | action :: rest, held, s =>
    ⟨action, held, s⟩ :: match action.run held s with
      | .ok held' s' => moments rest held' s'
      | .error _ _ => []

section

variable {R : BuildState → BuildState → Prop} {held held' : List Held} {m : Moment}

theorem mem_moments_cons (h : m ∈ moments (action :: rest) held s) : m = ⟨action, held, s⟩ ∨
      ∃ held' s', action.run held s = .ok held' s' ∧ m ∈ moments rest held' s' := by
  rw [moments] at h
  rcases List.mem_cons.mp h with rfl | h
  · exact .inl rfl
  · cases hrun : action.run held s with
    | ok held' s' =>
      rw [hrun] at h
      exact .inr ⟨held', s', rfl, h⟩
    | error f t =>
      rw [hrun] at h
      cases h

theorem mem_moments_append (h : m ∈ moments (first ++ second) held s) : m ∈ moments first held s ∨
      ∃ held' s', runAll first held s = .ok held' s' ∧ m ∈ moments second held' s' := by
  induction first generalizing held s with
  | nil => exact .inr ⟨held, s, rfl, h⟩
  | cons action rest ih =>
    rcases mem_moments_cons h with rfl | ⟨held₁, s₁, hrun, h⟩
    · exact .inl List.mem_cons_self
    · rcases ih h with h | ⟨held', s', hrest, h⟩
      · refine .inl ?_
        rw [moments, hrun]
        exact List.mem_cons_of_mem _ h
      · exact .inr ⟨held', s', bind_ok.mpr ⟨held₁, s₁, hrun, hrest⟩, h⟩

theorem action_of_mem_moments (h : m ∈ moments actions held s) : m.action ∈ actions := by
  induction actions generalizing held s with
  | nil => cases h
  | cons action rest ih =>
    rcases mem_moments_cons h with rfl | ⟨held', s', -, h⟩
    · exact List.mem_cons_self
    · exact List.mem_cons_of_mem _ (ih h)

/-- In a run that succeeds, every action has its moment. -/
theorem exists_moment (hrun : runAll actions held s = .ok held' s') (h : action ∈ actions) :
    ∃ m ∈ moments actions held s, m.action = action := by
  induction actions generalizing held s with
  | nil => cases h
  | cons first rest ih =>
    obtain ⟨held₁, s₁, hstep, hrest⟩ := bind_ok.mp hrun
    rw [moments, hstep]
    rcases List.mem_cons.mp h with rfl | h
    · exact ⟨_, List.mem_cons_self, rfl⟩
    · obtain ⟨m, hm, haction⟩ := ih hrest h
      exact ⟨m, List.mem_cons_of_mem _ hm, haction⟩

/-- A moment lies before another if the state it leaves leads to that of the other. -/
def Moment.Leads (R : BuildState → BuildState → Prop) (m : Moment) (t : BuildState) : Prop :=
  ∃ held' t', m.result = .ok held' t' ∧ R t' t

section

variable [IsPreorder BuildState R] (hstep : ∀ action held, Within R (Action.run action held))

include hstep

/-- What every action keeps relates the start to every moment. -/
theorem moments_reached (h : m ∈ moments actions held s) : R s m.before := by
  induction actions generalizing held s with
  | nil => cases h
  | cons action rest ih =>
    rcases mem_moments_cons h with rfl | ⟨held', s', hrun, h⟩
    · exact refl s
    · exact chain (hstep _ _ _ _ _ hrun) (ih h)

theorem moments_ordered (actions : List Action) (held : List Held) (s : BuildState) :
    (moments actions held s).Pairwise fun m m' => m.Leads R m'.before := by
  induction actions generalizing held s with
  | nil => exact .nil
  | cons action rest ih =>
    rw [moments, List.pairwise_cons]
    cases hrun : action.run held s with
    | ok held' s' => exact ⟨fun m' h => ⟨held', s', hrun, moments_reached hstep h⟩, ih held' s'⟩
    | error f t => exact ⟨fun m' h => (List.not_mem_nil h).elim, .nil⟩

/-- Of two moments of a run one lies before the other. -/
theorem moments_compare (hm : m ∈ moments actions held s) (hm' : m' ∈ moments actions held s)
    (hne : m ≠ m') :
    m.Leads R m'.before ∨ m'.Leads R m.before := by
  have hpairs : (moments actions held s).Pairwise fun m m' =>
      m.Leads R m'.before ∨ m'.Leads R m.before :=
    (moments_ordered hstep actions held s).imp .inl
  have hsymm : Std.Symm fun m m' : Moment => m.Leads R m'.before ∨ m'.Leads R m.before :=
    ⟨fun _ _ => Or.symm⟩
  exact hpairs.forall hm hm' hne

theorem runAll_within (actions : List Action) (held : List Held) :
    Within R (runAll actions held) := by
  induction actions generalizing held with
  | nil => exact .pure _
  | cons action rest ih => exact .bind (hstep action held) fun held' => ih held'

/-- In a run that succeeds, every moment leads to the end. -/
theorem moments_lead (hrun : runAll actions held s = .ok held' s')
    (h : m ∈ moments actions held s) : m.Leads R s' := by
  induction actions generalizing held s with
  | nil => cases h
  | cons action rest ih =>
    obtain ⟨held₁, s₁, hfirst, hrest⟩ := bind_ok.mp hrun
    rcases mem_moments_cons h with rfl | ⟨held₂, s₂, hfirst', h⟩
    · exact ⟨held₁, s₁, hfirst, runAll_within hstep rest held₁ _ _ _ hrest⟩
    · cases hfirst.symm.trans hfirst'
      exact ih hrest h

end

/-- In a run that succeeds, every moment does. -/
theorem result_of_mem_moments (hrun : runAll actions held s = .ok held' s')
    (h : m ∈ moments actions held s) : ∃ held₁ t, m.result = .ok held₁ t := by
  have hany : IsPreorder BuildState fun _ _ => True :=
    { refl := fun _ => trivial, trans := fun _ _ _ _ _ => trivial }
  obtain ⟨held₁, t, hresult, -⟩ := moments_lead (R := fun _ _ => True)
    (fun _ _ _ _ _ _ => trivial) hrun h
  exact ⟨held₁, t, hresult⟩

end

section

variable {B R : BuildState → BuildState → Prop} {held held' : List Held} {start : BuildState}

/-- A relation from the start of a body to any point of it: all that is done in between is
opening scopes and scripts, and building what is closed again. -/
structure Pointing (B R : BuildState → BuildState → Prop) : Prop where
  building : Building B
  step : ∀ {s s'}, B s s' → R s s'
  enter : Within R enterScope
  opened : ∀ s : BuildState, R s { s with frame.unfinished := [] :: s.frame.unfinished }

/-- Every moment of a run is related to where it all started. -/
def Visits (R : BuildState → BuildState → Prop) (start : BuildState) (actions : List Action)
    (held : List Held) (s : BuildState) : Prop :=
  ∀ m ∈ moments actions held s, R start m.before

theorem Building.control [IsPreorder BuildState R] (h : Building R) (kind : Control)
    (held : List Held) : Within R ((Action.control kind).run held) := by
  rw [Action.run]
  unfold Control.write
  split
  iterate 3 exact .bind (h.emit _) fun _ => .pure _
  · refine .bind .requireScript fun _ => .bind (.ofExcept _) fun _ => ?_
    exact .bind (h.emit _) fun _ => .pure _
  · exact .fault _

theorem Visits.nil : Visits R start [] held s := fun _ h => (List.not_mem_nil h).elim

theorem Visits.cons (hs : R start s)
    (h : ∀ held' s', action.run held s = .ok held' s' → Visits R start rest held' s') :
    Visits R start (action :: rest) held s := by
  intro m hm
  rcases mem_moments_cons hm with rfl | ⟨held', s', hrun, hm⟩
  · exact hs
  · exact h held' s' hrun m hm

theorem Visits.single (hs : R start s) : Visits R start [action] held s :=
  .cons hs fun _ _ _ => .nil

theorem Visits.append (hfirst : Visits R start first held s)
    (h : ∀ held' s', runAll first held s = .ok held' s' → Visits R start second held' s') :
    Visits R start (first ++ second) held s := by
  intro m hm
  rcases mem_moments_append hm with hm | ⟨held', s', hrun, hm⟩
  · exact hfirst m hm
  · exact h held' s' hrun m hm

theorem then_ok {x : Build Unit} :
    (x >>= fun _ => pure held) s = .ok held' s' ↔ x s = .ok () s' ∧ held' = held := by
  constructor
  · intro h
    obtain ⟨_, t, hx, h⟩ := bind_ok.mp h
    obtain ⟨rfl, rfl⟩ := pure_ok.mp h
    exact ⟨hx, rfl⟩
  · rintro ⟨hx, rfl⟩
    exact bind_ok.mpr ⟨(), s', hx, pure_ok.mpr ⟨rfl, rfl⟩⟩

theorem runAll_planAll_ok :
    runAll (planAll stmts) held s = .ok held' s' ↔
      statements stmts s = .ok () s' ∧ held' = held := by
  rw [runAll_planAll, then_ok]

theorem runAll_plan_ok :
    runAll (plan stmt) held s = .ok held' s' ↔ statement stmt s = .ok () s' ∧ held' = held := by
  rw [runAll_plan, then_ok]

/-- A step whose result is held. -/
theorem held_ok {α : Type} {x : Build α} {f : α → Held} :
    (x >>= fun a => pure (f a :: held)) s = .ok held' s' ↔
      ∃ a, x s = .ok a s' ∧ held' = f a :: held := by
  constructor
  · intro h
    obtain ⟨a, t, hx, h⟩ := bind_ok.mp h
    obtain ⟨rfl, rfl⟩ := pure_ok.mp h
    exact ⟨a, hx, rfl⟩
  · rintro ⟨a, hx, rfl⟩
    exact bind_ok.mpr ⟨a, s', hx, pure_ok.mpr ⟨rfl, rfl⟩⟩

variable [IsPreorder BuildState R]

namespace Pointing

theorem openScript (h : Pointing B R) (ownScope : Bool) : Within R (openScript ownScope) := by
  have hpush : Within R (modifyFrame fun f => { f with unfinished := [] :: f.unfinished }) := by
    intro s u s' hrun
    obtain rfl := modifyFrame_ok.mp hrun
    exact h.opened s
  rw [openScript_eq]
  cases ownScope with
  | true => exact .bind h.enter fun _ => hpush
  | false => exact hpush

/-- A script of its own, visited from its opening to its closing. -/
theorem visits_script (h : Pointing B R) {step : Build Unit} (hstep : Within B step)
    (hplan : ∀ held t, runAll actions held t = (do step; return held) t)
    (hinner : ∀ held t, R start t → Visits R start actions held t) (hs : R start s)
    (hrest : ∀ blocks s', B s s' → Visits R start rest (.script blocks :: held) s') :
    Visits R start (.openScript ownScope :: (actions ++ .closeScript ownScope :: rest)) held s := by
  refine .cons hs fun _ t hopen => ?_
  obtain ⟨hopened, rfl⟩ := then_ok.mp hopen
  have ht := chain hs (h.openScript ownScope _ _ _ hopened)
  refine .append (hinner _ _ ht) fun _ t₁ hrun => ?_
  rw [hplan] at hrun
  obtain ⟨hran, rfl⟩ := then_ok.mp hrun
  refine .cons (chain ht (h.step (hstep _ _ _ hran))) fun _ s' hclose => ?_
  obtain ⟨blocks, hclosed, rfl⟩ := held_ok.mp hclose
  have hscript : inScript ownScope step s = .ok blocks s' :=
    bind_ok.mpr ⟨(), t, hopened, bind_ok.mpr ⟨(), t₁, hran, hclosed⟩⟩
  exact hrest blocks s' (h.building.inScript ownScope hstep _ _ _ hscript)

variable [IsPreorder BuildState B]

theorem visits_condition (h : Pointing B R) (hs : R start s)
    (hrest : ∀ v t, R start t → Visits R start rest (.value v :: held) t) :
    Visits R start (.condition c :: rest) held s := by
  refine .cons hs fun _ t hrun => ?_
  obtain ⟨v, hv, rfl⟩ := held_ok.mp hrun
  exact hrest v t (chain hs (h.step (h.building.condition _ _ _ _ hv)))

/-- A condition and then the block around what is held. -/
theorem visits_loopEnd (h : Pointing B R) (c : Expr) (hs : R start s) :
    Visits R start (loopEnd c) held s := by
  unfold loopEnd
  split
  · exact .single hs
  · exact h.visits_condition hs fun _ _ ht => .single ht

mutual

theorem visits_plan (h : Pointing B R) (stmt : Stmt) (held : List Held) {s : BuildState}
    (hs : R start s) : Visits R start (plan stmt) held s := by
  have hmove : ∀ {pos rest}, (∀ t, R start t → Visits R start rest held t) →
      Visits R start (.move pos :: rest) held s := by
    refine fun hrest => .cons hs fun _ t hrun => ?_
    obtain ⟨hmoved, rfl⟩ := then_ok.mp hrun
    exact hrest t (chain hs (h.step (h.building.moveTo _ _ _ _ hmoved)))
  have hbody : ∀ (body : List Stmt), (∀ held t, R start t → Visits R start (planAll body) held t) →
      ∀ {held t rest}, R start t →
      (∀ blocks t', R start t' → Visits R start rest (.script blocks :: held) t') →
      Visits R start (.openScript true :: (planAll body ++ .closeScript true :: rest)) held t := by
    intro body hvisits held t rest ht hrest
    refine h.visits_script (h.building.statements body) ?_ hvisits ht ?_
    · intro held t
      rw [runAll_planAll]
    · intro blocks t' hB
      exact hrest blocks t' (chain ht (h.step hB))
  cases stmt with
  | ifThen pos c body =>
    refine hmove fun t ht => h.visits_condition ht fun v t₁ ht₁ => ?_
    exact hbody body (fun held t => visits_planAll h body held) ht₁ fun _ _ ht₂ => .single ht₂
  | ifElse pos c body alternative =>
    refine hmove fun t ht => h.visits_condition ht fun v t₁ ht₁ => ?_
    refine hbody body (fun held t => visits_planAll h body held) ht₁ fun _ t₂ ht₂ => ?_
    exact hbody alternative (fun held t => visits_planAll h alternative held) ht₂
      fun _ _ ht₃ => .single ht₃
  | whileLoop pos c body =>
    refine hmove fun t ht => hbody body (fun held t => visits_planAll h body held) ht ?_
    exact fun _ _ ht₁ => h.visits_loopEnd c ht₁
  | forLoop pos first c next body =>
    refine hmove fun t ht => .cons ht fun _ t₁ hrun => ?_
    obtain ⟨hentered, rfl⟩ := then_ok.mp hrun
    have ht₁ := chain ht (h.enter _ _ _ hentered)
    refine .cons ht₁ fun _ t₂ hrun => ?_
    obtain ⟨hstarted, rfl⟩ := then_ok.mp hrun
    have ht₂ := chain ht₁ (h.step (h.building.startLoop _ _ _ _ hstarted))
    have hround : Within B (do statements body; statement next) :=
      .bind (h.building.statements body) fun _ => h.building.statement next
    refine h.visits_script hround ?_ ?_ ht₂ ?_
    · intro held t
      simp only [runAll_append, runAll_planAll, runAll_plan, bind_assoc, pure_bind]
    · intro held t ht
      refine .append (visits_planAll h body held ht) fun _ t' hrun => ?_
      obtain ⟨hran, rfl⟩ := runAll_planAll_ok.mp hrun
      refine visits_plan h next _ (chain ht ?_)
      exact h.step (h.building.statements _ _ _ _ hran)
    · intro blocks t₃ hB
      refine h.visits_condition (chain ht₂ (h.step hB)) fun v t₄ ht₄ => ?_
      refine .cons ht₄ fun _ t₅ hwrite => .single ?_
      exact chain ht₄ (h.step (h.building.control _ _ _ _ _ hwrite))
  | _ => exact .single hs

/-- Every moment of a body is related to its start. -/
theorem visits_planAll (h : Pointing B R) (stmts : List Stmt) (held : List Held) {s : BuildState}
    (hs : R start s) : Visits R start (planAll stmts) held s := by
  cases stmts with
  | nil => exact .nil
  | cons stmt rest =>
    refine .append (visits_plan h stmt held hs) fun _ t hrun => ?_
    obtain ⟨hstmt, rfl⟩ := runAll_plan_ok.mp hrun
    refine visits_planAll h rest _ (chain hs ?_)
    exact h.step (h.building.statement _ _ _ _ hstmt)

end

/-- Every moment of a script is related to where the script starts. -/
theorem visits_scriptPlan (h : Pointing B R) (ownScope : Bool) (body : List Stmt)
    (held : List Held) (s : BuildState) : Visits R s (scriptPlan ownScope body) held s := by
  refine h.visits_script (h.building.statements body) ?_ ?_ (refl s) fun _ _ _ => .nil
  · intro held t
    rw [runAll_planAll]
  · intro held t ht
    exact h.visits_planAll body held ht

/-- Every action goes from one point of a body to the next. -/
theorem run (h : Pointing B R) (hexit : Within R exitScope)
    (hclosed : ∀ (s : BuildState) scripts, R s { s with frame.unfinished := scripts })
    (action : Action) (held : List Held) : Within R (action.run held) := by
  have hstep : ∀ {α : Type} {x : Build α}, Within B x → Within R x :=
    fun hx => hx.mono fun _ _ => h.step
  cases action with
  | move pos => exact .bind (hstep (h.building.moveTo pos)) fun _ => .pure _
  | simple stmt => exact .bind (hstep (h.building.statement stmt)) fun _ => .pure _
  | start stmt => exact .bind (hstep (h.building.startLoop stmt)) fun _ => .pure _
  | condition c => exact .bind (hstep (h.building.condition c)) fun _ => .pure _
  | openScript ownScope => exact .bind (h.openScript ownScope) fun _ => .pure _
  | closeScript ownScope =>
    refine .bind (fun s blocks s' hrun => ?_) fun _ => .pure _
    obtain ⟨t, rest, hscope, -, rfl⟩ := closeScript_ok.mp hrun
    refine trans ?_ (hclosed t _)
    cases ownScope with
    | true => exact hexit _ _ _ hscope
    | false => exact (pure_ok.mp hscope).2 ▸ refl s
  | enterScope => exact .bind h.enter fun _ => .pure _
  | exitScope => exact .bind hexit fun _ => .pure _
  | control kind => exact hstep (h.building.control kind held)

end Pointing

end

end BlockScript.Build
