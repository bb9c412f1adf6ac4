import BlockScript.Proofs.Scopes
import BlockScript.Proofs.Targets

/-!
What the building of a function or a hat consists of. A function first adds a custom block
without a script, opens a scope, copies its parameters, and then builds its body in that
scope. A receiver opens a scope for its message in the same way. Every other hat builds its
arguments in the scope around it and its body in a scope of its own.
-/
namespace BlockScript.Build

variable {s s' : BuildState}

/-- The state in which the scope of a function is opened: its block has no script yet. -/
def withBlock (s : BuildState) (label : String) (warp : Bool) : BuildState :=
  { s with draft.project := s.draft.project.modify s.frame.place (·.addCustom ⟨label, warp, none⟩) }

/-- The state in which the body of a function is built. -/
def withFunction (s : BuildState) (name : String) (output : Option Data) : BuildState :=
  { s with
    frame.functions := Assoc.put name ⟨output, none⟩ s.frame.functions
    frame.building := name }

/-- The state in which the scope of a function is left: its block has its script. -/
def withScript (s : BuildState) (place : Place) (index : Nat) (script : List Value) (name : String)
    (f : Function) : BuildState :=
  { s with
    draft.project := s.draft.project.modify place (·.setScript index script)
    frame.functions := Assoc.put name f s.frame.functions
    frame.building := "" }

theorem locals?_withBlock (s : BuildState) (label : String) (warp : Bool) (place : Place) :
    (withBlock s label warp).draft.locals? place = s.draft.locals? place :=
  locals?_modify s.draft _ place (f := (·.addCustom ⟨label, warp, none⟩)) fun _ => rfl

theorem locals?_withScript {s : BuildState} {script : List Value} :
    (withScript s place index script name f).draft.locals? other = s.draft.locals? other :=
  locals?_modify s.draft place other (f := (·.setScript index script)) fun _ => rfl

/-- The number of custom blocks of a target, which is the index of the next one. -/
def blockCount (s : BuildState) (place : Place) : Nat :=
  ((s.draft.project.target? place).map fun t => t.custom.length).getD 0

/-- The variable for the result of a function is added if it has a result. -/
def addOutput? (name : String) : Option TypeSet → Build (Option Data)
  | some type => some <$> addOutput name type
  | none => pure none

/-- The block that copies a parameter to the variable of its name in a scope. -/
def copyOf (sprite : Bool) (scope : Nat) (label : String) (parameter : String × Nat) : Value :=
  .op .setVariable [.data (declaredData sprite scope parameter.1 .general false),
    .parameter parameter.2 label]

/-- The parameters are copied in order, each to a variable of the current scope. -/
theorem copyParameters_eq (h : copyParameters label index names s = .ok copies s') :
    copies = (names.zipIdx index).map
      (copyOf s.frame.place.isSprite s.frame.currentScope label) := by
  induction names generalizing index s s' copies with
  | nil => exact (pure_ok.mp h).1.symm
  | cons name rest ih =>
    obtain ⟨d, t, hadd, blocks, t', hrest, h⟩ := bind_bind_ok.mp h
    obtain ⟨rfl, -⟩ := pure_ok.mp h
    obtain ⟨rfl, hframe, -⟩ := addVariable_ok hadd
    rw [ih hrest, hframe]
    rfl

section

variable [IsPreorder BuildState R]

theorem Within.copyParameters
    (hadd : ∀ name, Within R (addVariable name .general (.str "") false)) (label : String)
    (index : Nat) (names : List String) : Within R (copyParameters label index names) := by
  induction names generalizing index with
  | nil => exact .pure _
  | cons name rest ih => exact .bind (hadd name) fun _ => .bind (ih _) fun _ => .pure _

theorem Within.receiveMessage
    (hadd : ∀ name, Within R (addVariable name .general (.str "") false)) (name : Option String)
    (message : Data) : Within R (receiveMessage name message) := by
  unfold Build.receiveMessage
  split
  · exact .pure _
  · exact .pure _
  · exact .bind (hadd _) fun _ => .pure _

theorem Within.addOutput? (hadd : ∀ name type, isOutputName name = true →
      Within R (addData .stage name type (.str "") true)) (name : String)
    (returns : Option TypeSet) : Within R (addOutput? name returns) := by
  cases returns with
  | none => exact .pure _
  | some type =>
    refine .map _ (.bind .inSprite fun sprite => hadd _ _ ?_)
    cases sprite <;> simp [isOutputName, Text.beginsWith, List.isPrefixOf]

end

/-- What is done before the body of a function. The parameters are copied to variables of a
new scope; the blocks that copy them, and the variable for the result, are kept for later. -/
def openFunction (returns : Option TypeSet) (name : String) (parameters : List String)
    (warp : Bool) : Build (List Value × Option Data) := do
  let place := (← get).frame.place
  modifyTarget place (·.addCustom ⟨blockLabel name parameters.length, warp, none⟩)
  enterScope
  let copies ← copyParameters (blockLabel name parameters.length) 0 parameters
  let output ← addOutput? name returns
  setFunction name ⟨output, none⟩
  modifyFrame fun f => { f with building := name }
  return (copies, output)

def closeFunction (place : Place) (index : Nat) (name : String) (parameters : Nat)
    (output : Option Data) (blocks : List Value) : Build Unit := do
  modifyFrame fun f => { f with building := "" }
  modifyTarget place (·.setScript index blocks)
  setFunction name ⟨output, some ⟨blockLabel name parameters, parameters⟩⟩
  exitScope

theorem addFunction_eq (returns : Option TypeSet) (name : String) (parameters : List String)
    (warp : Bool) (body : List Stmt) (s : BuildState) :
    addFunction returns name parameters warp body s = (do
      let (copies, output) ← openFunction returns name parameters warp
      let blocks ← script false body
      closeFunction s.frame.place (blockCount s s.frame.place) name parameters.length output
        (copies ++ blocks)) s := by
  have hget : ∀ f : BuildState → Build Unit, (get >>= f) s = f s s := fun _ => rfl
  rw [addFunction, openFunction]
  cases returns <;>
    simp only [bind_assoc, pure_bind, hget, addOutput?, closeFunction, blockCount]

theorem openFunction_ok
    (h : openFunction returns name parameters warp s = .ok (copies, output) s') :
    ∃ t t₁ t₂, enterScope (withBlock s (blockLabel name parameters.length) warp) = .ok () t ∧
      copyParameters (blockLabel name parameters.length) 0 parameters t = .ok copies t₁ ∧
      addOutput? name returns t₁ = .ok output t₂ ∧ s' = withFunction t₂ name output := by
  rw [openFunction, get_bind_ok] at h
  obtain ⟨_, t₀, hblock, h⟩ := bind_ok.mp h
  obtain rfl := modifyTarget_ok.mp hblock
  obtain ⟨_, t, henter, copies, t₁, hcopies, h⟩ := bind_bind_ok.mp h
  obtain ⟨output, t₂, houtput, h⟩ := bind_ok.mp h
  have h := modifyFrame_bind_ok.mp h
  have h := modifyFrame_bind_ok.mp h
  obtain ⟨heq, rfl⟩ := pure_ok.mp h
  obtain ⟨rfl, rfl⟩ := Prod.mk.inj heq
  exact ⟨t, t₁, t₂, henter, hcopies, houtput, rfl⟩

theorem addFunction_ok (h : addFunction returns name parameters warp body s = .ok () s') :
    ∃ t t₁ t₂ t₃ copies output blocks,
      enterScope (withBlock s (blockLabel name parameters.length) warp) = .ok () t ∧
      copyParameters (blockLabel name parameters.length) 0 parameters t = .ok copies t₁ ∧
      addOutput? name returns t₁ = .ok output t₂ ∧
      script false body (withFunction t₂ name output) = .ok blocks t₃ ∧
      exitScope (withScript t₃ s.frame.place (blockCount s s.frame.place) (copies ++ blocks) name
        ⟨output, some ⟨blockLabel name parameters.length, parameters.length⟩⟩) = .ok () s' := by
  rw [addFunction_eq] at h
  obtain ⟨⟨copies, output⟩, t₀, hopen, h⟩ := bind_ok.mp h
  obtain ⟨t, t₁, t₂, henter, hcopies, houtput, rfl⟩ := openFunction_ok hopen
  obtain ⟨blocks, t₃, hbody, h⟩ := bind_ok.mp h
  have h := modifyFrame_bind_ok.mp h
  obtain ⟨_, t₅, hscript, h⟩ := bind_ok.mp h
  obtain rfl := modifyTarget_ok.mp hscript
  have hexit := modifyFrame_bind_ok.mp h
  exact ⟨t, t₁, t₂, t₃, copies, output, blocks, henter, hcopies, houtput, hbody, hexit⟩

theorem readOnly_writtenName (written : Expr) : ReadOnly (writtenName written) := by
  cases written with
  | value v | truth b => exact .pure _
  | _ => exact .fault _

/-- A receiver has the name of a broadcast and perhaps one for the message. -/
theorem addReceiver_ok (h : addReceiver arguments body s = .ok () s') :
    ∃ written rest message name t t₁ t₂ t₃ b setter blocks,
      arguments = written :: rest ∧
      (rest = [] ∧ message = none ∨
        ∃ e more own, rest = e :: more ∧ e.plainName = .ok own ∧ message = some own) ∧
      writtenName written s = .ok name s ∧ broadcastNamed name s = .ok b t ∧
      enterScope t = .ok () t₁ ∧ receiveMessage message b.message t₁ = .ok setter t₂ ∧
      script false body t₂ = .ok blocks t₃ ∧
      exitScope { t₃ with frame.pending := t₃.frame.pending ++
        [.op .whenBroadcastReceived [.broadcast b.name] :: setter ++ blocks] } = .ok () s' := by
  unfold addReceiver at h
  cases arguments with
  | nil => cases h
  | cons written rest =>
    obtain ⟨message, hmessage, h⟩ : ∃ message, (rest = [] ∧ message = none ∨
        ∃ e more own, rest = e :: more ∧ e.plainName = .ok own ∧ message = some own) ∧
        (do
          let b ← broadcastNamed (← writtenName written)
          enterScope
          let setter ← receiveMessage message b.message
          let blocks ← script false body
          addPending (Value.op .whenBroadcastReceived [.broadcast b.name] :: setter ++ blocks)
          exitScope : Build Unit) s = .ok () s' := by
      cases rest with
      | nil =>
        obtain ⟨message, t, hnone, h⟩ := bind_ok.mp h
        obtain ⟨rfl, rfl⟩ := pure_ok.mp hnone
        exact ⟨none, .inl ⟨rfl, rfl⟩, h⟩
      | cons e more =>
        obtain ⟨message, t, hsome, h⟩ := bind_ok.mp h
        obtain ⟨own, hown, rfl⟩ := map_ok.mp hsome
        obtain ⟨hname, rfl⟩ := ofExcept_ok.mp hown
        exact ⟨some own, .inr ⟨e, more, own, rfl, hname, rfl⟩, h⟩
    obtain ⟨name, hwritten, h⟩ := (readOnly_writtenName _).bind_ok h
    obtain ⟨b, t, hbroadcast, _, t₁, henter, h⟩ := bind_bind_ok.mp h
    obtain ⟨setter, t₂, hsetter, blocks, t₃, hbody, h⟩ := bind_bind_ok.mp h
    have hexit := modifyFrame_bind_ok.mp h
    exact ⟨written, rest, message, name, t, t₁, t₂, t₃, b, setter, blocks, rfl, hmessage, hwritten,
      hbroadcast, henter, hsetter, hbody, hexit⟩

def openReceiver (written : Expr) (message : Option String) : Build (Broadcast × List Value) := do
  let b ← broadcastNamed (← writtenName written)
  enterScope
  let setter ← receiveMessage message b.message
  return (b, setter)

/-- A receiver with a name for the message. -/
theorem addReceiver_eq {written : Expr} :
    addReceiver (written :: .name pos name :: rest) body = (do
      let (b, setter) ← openReceiver written (some name)
      let blocks ← script false body
      addPending (.op .whenBroadcastReceived [.broadcast b.name] :: (setter ++ blocks))
      exitScope) := by
  simp only [addReceiver, openReceiver, Expr.plainName, ofExcept, map_pure, bind_assoc, pure_bind,
    List.cons_append]

theorem addPending_ok {script : List Value} :
    addPending script s = .ok u s' ↔
      { s with frame.pending := s.frame.pending ++ [script] } = s' := modifyFrame_ok

/-- A hat whose script starts with the block of its event. -/
theorem addPlainHat_ok (h : addPlainHat op arguments body s = .ok () s') :
    ∃ values t t₁ blocks, expressions .script arguments s = .ok values t ∧
      script true body t = .ok blocks t₁ ∧
      { t₁ with frame.pending := t₁.frame.pending ++ [.op op values :: blocks] } = s' := by
  obtain ⟨values, t, hvalues, h⟩ := bind_ok.mp h
  obtain ⟨hat, happly, h⟩ := ofExcept_bind_ok.mp h
  obtain ⟨blocks, t₁, hbody, h⟩ := bind_ok.mp h
  obtain rfl := Value.apply_ok happly
  exact ⟨values, t, t₁, blocks, hvalues, hbody, addPending_ok.mp h⟩

theorem addKeyRelease_ok (h : addKeyRelease arguments body s = .ok () s') :
    ∃ key rest v t t₁ blocks, arguments = key :: rest ∧ expression .script key s = .ok v t ∧
      script true body t = .ok blocks t₁ ∧
      { t₁ with frame.pending := t₁.frame.pending ++ [.op .whenKeyPressed [v] ::
        .op .waitUntil [.op .not [.op .keyPressed [v]]] :: blocks] } = s' := by
  unfold addKeyRelease at h
  cases arguments with
  | nil => cases h
  | cons key rest =>
    obtain ⟨v, t, hkey, blocks, t₁, hbody, h⟩ := bind_bind_ok.mp h
    exact ⟨key, rest, v, t, t₁, blocks, rfl, hkey, hbody, addPending_ok.mp h⟩

theorem forM_cons_ok :
    ((a :: rest).forM f : Build Unit) s = .ok u s' ↔
      ∃ t, f a s = .ok () t ∧ (rest.forM f : Build Unit) t = .ok u s' := by
  change (f a >>= fun _ => rest.forM f) s = .ok u s' ↔ _
  constructor
  · intro h
    obtain ⟨_, t, hfirst, hrest⟩ := bind_ok.mp h
    exact ⟨t, hfirst, hrest⟩
  · rintro ⟨t, hfirst, hrest⟩
    exact bind_ok.mpr ⟨(), t, hfirst, hrest⟩

end BlockScript.Build
