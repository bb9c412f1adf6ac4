import BlockScript.Proofs.Ownership

/-!
Histories of a project. A setup is applied, the stage and sprites are added, and scripts are built,
in any order and any number of times. A log of creations accounts for a history: all variables of
all targets are in it, in order, and so is every global that can be looked up.
-/
namespace BlockScript.Build

open Text

variable {s s' t : BuildState} {log more : List Creation}

inductive Edit
  | setup (folder : String) (tree : Setup)
  | stage (folder : Location) (script : Script)
  | sprite (folder : Location) (file : SpriteFile)
  | build

namespace Edit

def run : Edit → Build Unit
  | setup folder tree => Build.setup folder tree
  | stage folder script => addStage folder script
  | sprite folder file => do let _ ← addSprite folder file.script file.filename
  | build => project

/-- The variables that an edit states, in the state in which it is made. -/
def stated (s : BuildState) : Edit → List Reason
  | setup _ tree => tree.globals.map fun g => .global g.name g.type
  | stage _ _ | sprite _ _ => []
  | build => statedBy .stage s.draft.stageStatements ++
      s.draft.sprites.flatMap fun item => statedBy (.sprite item.2.index) item.2.statements

end Edit

def history (edits : List Edit) : Build Unit := edits.forM Edit.run

theorem exists_seen_and {P : BuildState → Prop} (h : seen f result = some a)
    (hP : ∀ s', result = .ok () s' → P s') : ∃ s', result = .ok () s' ∧ P s' ∧ f s' = a := by
  obtain ⟨s', hrun, ha⟩ := exists_of_seen h
  exact ⟨s', hrun, hP s' hrun, ha⟩

/-- The variables that a history states. -/
def statedThrough : List Edit → BuildState → List Reason
  | [], _ => []
  | edit :: rest, s => edit.stated s ++ match edit.run s with
    | .ok _ t => statedThrough rest t
    | .error _ _ => []

section

def keepGlobal (g : Global) (v : Value) : Build Unit := do
  match Assoc.get? g.name (← get).constants with
  | some before => if before.truthy then reject .redeclaredGlobal
  | none => pure ()
  checkAssignment (some (.typed g.type)) v
  let _ ← addData .stage (globalName g.name) (.typed g.type) v true
  modify fun s => { s with constants := Assoc.put g.name v s.constants }

theorem addGlobal_eq (g : Global) :
    addGlobal g = (do moveTo g.pos; expression .setup g.value) >>= keepGlobal g :=
  (bind_assoc _ _ _).symm

/-- A value is kept if it passes the check and the name has no value that counts as true. -/
theorem keepGlobal_ok :
    keepGlobal g v s = .ok u s' ↔
      (∀ w, Assoc.get? g.name s.constants = some w → w.truthy = false) ∧
        checkAssignment (some (.typed g.type)) v s = .ok () s ∧
        ∃ d t, addData .stage (globalName g.name) (.typed g.type) v true s = .ok d t ∧
          { t with constants := Assoc.put g.name v t.constants } = s' := by
  have hadd : (do
      checkAssignment (some (.typed g.type)) v
      let _ ← addData .stage (globalName g.name) (.typed g.type) v true
      modify fun s => { s with constants := Assoc.put g.name v s.constants } : Build Unit) s =
        .ok u s' ↔ checkAssignment (some (.typed g.type)) v s = .ok () s ∧
          ∃ d t, addData .stage (globalName g.name) (.typed g.type) v true s = .ok d t ∧
            { t with constants := Assoc.put g.name v t.constants } = s' := by
    simp only [bind_ok, modify_ok]
    constructor
    · rintro ⟨_, t, hcheck, hadd⟩
      obtain rfl := readOnly_checkAssignment _ _ _ hcheck
      exact ⟨hcheck, hadd⟩
    · rintro ⟨hcheck, hadd⟩
      exact ⟨_, _, hcheck, hadd⟩
  rw [keepGlobal, get_bind_ok, ← hadd]
  cases hbefore : Assoc.get? g.name s.constants with
  | none => simp
  | some before =>
    cases htruthy : before.truthy with
    | false => simp [htruthy]
    | true => simp [htruthy, bind_ok, reject_ok]

theorem introduces_addGlobal (g : Global) :
    Within (Introduces own [.global g.name g.type]) (addGlobal g) := by
  rw [addGlobal_eq]
  refine .after (.after (introduces_moveTo _) fun _ => introduces_expression) fun v => ?_
  intro s u s' h
  obtain ⟨-, -, d, t, hadd, rfl⟩ := keepGlobal_ok.mp h
  let c : Creation := ⟨.global g.name g.type, globalData g.name g.type, rfl⟩
  have hkind : isGlobalName (globalName g.name) = true := by
    simp [isGlobalName, globalName, beginsWith, List.isPrefixOf]
  obtain ⟨-, hframe, hcreates⟩ :=
    @addData_creates s t own c _ _ _ _ _ _ rfl (.inr rfl) hkind rfl rfl hadd
  refine ⟨by rw [hframe], by simp [Innermost, hframe], fun _ =>
    ⟨[c], hcreates, rfl, by simp [c, Reason.IsOf], ?_⟩⟩
  simp [hframe, c, Reason.isClone]

/-- A setup creates its globals. -/
theorem introduces_setup {tree : Setup} :
    Within (Introduces own (tree.globals.map fun g => .global g.name g.type))
      (setup folder tree) := by
  refine .after (.modify fun s => .of_creates rfl rfl id (.of_project rfl rfl rfl rfl)) fun _ => ?_
  refine .after (.modify fun s => .of_draft rfl rfl id rfl) fun _ => ?_
  rw [List.map_eq_flatMap]
  exact .each fun g _ => introduces_addGlobal g

end

section

variable [IsPreorder BuildState R]

theorem within_declarations (hmove : ∀ p, Within R (moveTo p)) (ds : List Declaration)
    (filename : String) (onStage : Bool) : Within R (declarations ds filename onStage) :=
  (Within.looking (G := fun _ => R)).declarations hmove ds filename onStage

theorem within_addAssets (hadd : ∀ asset, Within R (modifyTarget place (·.addAsset asset)))
    (hdebug : ∀ text, Within R (debug text)) (folder : Location) (kind : AssetKind) (paths : Record)
    : Within R (addAssets folder kind place paths) := by
  have hpaths : Within R (pathsOf paths) := by
    unfold pathsOf
    split
    · exact .pure _
    · exact .pure _
    · exact .fault _
  refine .bind hpaths fun own => Within.forM (fun path => ?_) own
  unfold addAssetsAt
  split
  · exact Within.forM (fun file => .bind (hadd _) fun _ => hdebug _) _
  · exact .fault _

theorem introduces_addStage {script : Script} :
    Within (Introduces own []) (addStage folder script) := by
  have hassets : ∀ kind paths, Within (Introduces own []) (addAssets folder kind .stage paths) := by
    refine within_addAssets (fun asset s u s' h => ?_) introduces_debug folder
    obtain rfl := modifyTarget_ok.mp h
    exact .of_creates rfl rfl id (.modifyTarget (.inr rfl) _ fun _ => ⟨rfl, rfl⟩)
  refine .bind (within_declarations introduces_moveTo _ _ _) fun properties => ?_
  refine .bind (hassets _ _) fun _ => .bind (hassets _ _) fun _ => ?_
  exact .modify fun s => .of_creates rfl rfl id (.of_project rfl rfl rfl rfl)

/-- The builder of scripts is left as it is. -/
def SameFrame (s s' : BuildState) : Prop := s'.frame = s.frame

instance : IsPreorder BuildState SameFrame where
  refl _ := rfl
  trans _ _ _ h k := k.trans h

/-- Adding a sprite is no matter for the builder of scripts. -/
theorem sameFrame_addSprite {script : Script} :
    Within SameFrame (addSprite folder script filename) := by
  have hdraft : ∀ f, Within SameFrame (modifyDraft f) := fun f => .modify fun _ => rfl
  have hassets : ∀ place kind paths, Within SameFrame (addAssets folder kind place paths) :=
    fun place => within_addAssets (fun asset => hdraft _)
      (fun text s u s' h => (debug_ok h).2.1) folder
  have hmove : ∀ p, Within SameFrame (moveTo p) := by
    intro p s u s' h
    obtain ⟨-, rfl⟩ := moveTo_ok.mp h
    exact refl _
  refine .bind (within_declarations hmove _ _ _) fun properties => .get_bind fun t => ?_
  refine .bind (hdraft _) fun _ => .bind (hassets _ _ _) fun _ => .bind (hassets _ _ _) fun _ => ?_
  exact .bind (.ofExcept _) fun name => .bind (hdraft _) fun _ => .pure _

/-- A sprite is added at the end, with no variables and no scripts. -/
theorem addSprite_ok (h : addSprite folder f.script f.filename s = .ok name s') : ∃ target,
      f.name = .ok target.name ∧ (target.data = [] ∧ target.custom = [] ∧ target.scripts = []) ∧
      s'.draft = withSprite s.draft f target ∧ s'.frame = s.frame := by
  obtain ⟨target, hprepares⟩ := addSprite_prepares h
  obtain ⟨t, hrun, hdraft, -⟩ := hprepares.added s rfl
  obtain ⟨-, rfl⟩ := EStateM.Result.ok.inj (h.symm.trans hrun)
  exact ⟨target, hprepares.named, hprepares.blank, hdraft, sameFrame_addSprite _ _ _ h⟩

end

/-- A log accounts for a state: it has all variables of all targets and all globals. Scripts are
only built for targets that exist. -/
structure Accounted (log : List Creation) (s : BuildState) : Prop where
  data : ∀ place, ((s.draft.project.target? place).map dataOf).getD [] = createdAt place log
  globals : s.draft.globals = record (log.filter (·.reason.isGlobal)) []
  entries : ∀ item ∈ s.draft.sprites,
    (s.draft.project.target? (.sprite item.2.index)).isSome = true
  frame : (s.draft.project.target? s.frame.place).isSome = true
  tables : Unflagged s.draft

section

theorem Creates.isSome_target? (h : Creates own log d d') (place : Place) :
    (d'.project.target? place).isSome = (d.project.target? place).isSome := by
  have hdata := congrArg Option.isSome (h.data place)
  simpa using hdata

theorem index_listed (item : String × SpriteEntry) : (listed item).2.index = item.2.index := rfl

theorem createdAt_of_ne (h : ∀ c ∈ log, c.reason.place ≠ place) : createdAt place log = [] := by
  simpa [createdAt] using h

section

variable (h : Accounted log s)

include h

/-- What a target creates is accounted for. -/
theorem Accounted.creates (hown : (s.draft.project.target? own).isSome = true)
    (hcreates : Creates own more s.draft s'.draft) (hof : ∀ c ∈ more, c.reason.IsOf own)
    (hframe : s'.frame.place = s.frame.place ∨ s'.frame.place = own) :
    Accounted (log ++ more) s' where
  data place := by
    rw [createdAt_append, ← h.data, hcreates.data]
    cases hplace : s.draft.project.target? place with
    | some target => simp
    | none =>
      have hne : ∀ c ∈ more, c.reason.place ≠ place := by
        rintro c hc rfl
        rcases (hof c hc).place with heq | heq
        · rw [← heq, hplace] at hown
          cases hown
        · rw [heq] at hplace
          cases hplace
      simp [createdAt_of_ne hne]
  globals := by rw [hcreates.globals, h.globals, List.filter_append, record_append]
  entries item hitem := by
    have hlisted : listed item ∈ s.draft.sprites.map listed := by
      rw [← hcreates.listing]
      exact List.mem_map_of_mem hitem
    obtain ⟨before, hbefore, hsame⟩ := List.mem_map.mp hlisted
    rw [hcreates.isSome_target?, ← index_listed, ← hsame, index_listed]
    exact h.entries before hbefore
  frame := by
    rw [hcreates.isSome_target?]
    rcases hframe with heq | heq
    · rw [heq]
      exact h.frame
    · rw [heq]
      exact hown
  tables := hcreates.unflagged h.tables

theorem Accounted.introduces (hintroduces : Introduces s.frame.place reasons s s') :
    ∃ more, Accounted (log ++ more) s' ∧ statedIn more = reasons := by
  obtain ⟨more, hcreates, hstated, hof, -⟩ := hintroduces.log rfl
  exact ⟨more, h.creates h.frame hcreates hof (.inl hintroduces.place), hstated⟩

theorem Accounted.builds (hown : (s.draft.project.target? own).isSome = true)
    (hbuilds : Builds own body s s') :
    ∃ more, Accounted (log ++ more) s' ∧ statedIn more = statedBy own body ∧
      ∀ place, (s'.draft.project.target? place).isSome = (s.draft.project.target? place).isSome := by
  obtain ⟨hplace, more, hcreates, hstated, hof, -⟩ := hbuilds
  exact ⟨more, h.creates hown hcreates hof hplace, hstated, hcreates.isSome_target?⟩

theorem Accounted.buildSprites {items : List (String × SpriteEntry)}
    (hitems : ∀ item ∈ items, (s.draft.project.target? (.sprite item.2.index)).isSome = true)
    (hrun : (items.forM fun (name, entry) => buildSprite name entry : Build Unit) s = .ok () s') :
    ∃ more, Accounted (log ++ more) s' ∧ statedIn more =
      items.flatMap fun item => statedBy (.sprite item.2.index) item.2.statements := by
  induction items generalizing s log with
  | nil =>
    obtain ⟨-, rfl⟩ := pure_ok.mp hrun
    exact ⟨[], by rwa [List.append_nil], rfl⟩
  | cons item rest ih =>
    obtain ⟨hfirst, hrest⟩ := List.forall_mem_cons.mp hitems
    obtain ⟨t, hown, hrun⟩ := forM_cons_ok.mp hrun
    obtain ⟨more, haccounted, hstated, hplaces⟩ := h.builds hfirst (buildSprite_creates hown)
    obtain ⟨others, hall, hothers⟩ := ih haccounted (fun other hother => by
      rw [hplaces]
      exact hrest other hother) hrun
    refine ⟨more ++ others, ?_, ?_⟩
    · rwa [← List.append_assoc]
    · rw [statedIn_append, hstated, hothers]
      rfl

/-- A new target has no variables yet. -/
theorem Accounted.withSprite {target : Target}
    (hblank : target.data = []) (hdraft : s'.draft = withSprite s.draft f target)
    (hframe : s'.frame = s.frame) : Accounted log s' := by
  have hold : ∀ place, (s.draft.project.target? place).isSome = true →
      s'.draft.project.target? place = s.draft.project.target? place := by
    intro place hplace
    rw [hdraft]
    cases place with
    | stage => rfl
    | sprite k =>
      obtain ⟨old, hold⟩ := Option.isSome_iff_exists.mp hplace
      exact List.getElem?_append_left (List.getElem?_eq_some_iff.mp hold).1
  have hlast : s'.draft.project.target? (.sprite s.draft.project.sprites.length) = some target := by
    rw [hdraft]
    exact List.getElem?_concat_length
  refine ⟨fun place => ?_, ?_, fun item hitem => ?_, ?_, fun item hitem => ?_⟩
  · rw [← h.data]
    cases hplace : s.draft.project.target? place with
    | some old => rw [hold place (by rw [hplace]; rfl), hplace]
    | none =>
      cases place with
      | stage => cases hplace
      | sprite k =>
        rcases Nat.eq_or_lt_of_le (List.getElem?_eq_none_iff.mp hplace) with rfl | hk
        · rw [hlast]
          exact congrArg (List.map Datum.data) hblank
        · have hnone : s'.draft.project.target? (.sprite k) = none := by
            rw [hdraft]
            exact List.getElem?_eq_none_iff.mpr (by simpa [Build.withSprite, Nat.succ_le_iff] using hk)
          rw [hnone]
  · rw [hdraft]
    exact h.globals
  · rw [hdraft] at hitem
    rcases Assoc.mem_put hitem with rfl | hitem
    · exact Option.isSome_iff_exists.mpr ⟨target, hlast⟩
    · rw [hold _ (h.entries item hitem)]
      exact h.entries item hitem
  · rw [hframe, hold _ h.frame]
    exact h.frame
  · rw [hdraft] at hitem
    rcases Assoc.mem_put hitem with rfl | hitem
    · rfl
    · exact h.tables item hitem

/-- Each edit is accounted for by what it states. -/
theorem Accounted.run {edit : Edit} (hrun : edit.run s = .ok () s') :
    ∃ more, Accounted (log ++ more) s' ∧ statedIn more = edit.stated s := by
  cases edit with
  | setup folder tree => exact h.introduces (introduces_setup _ _ _ hrun)
  | stage folder script => exact h.introduces (introduces_addStage _ _ _ hrun)
  | sprite folder file =>
    obtain ⟨name, t, hadd, hdone⟩ := bind_ok.mp hrun
    obtain ⟨-, rfl⟩ := pure_ok.mp hdone
    obtain ⟨target, -, hblank, hdraft, hframe⟩ := addSprite_ok hadd
    refine ⟨[], ?_, rfl⟩
    rw [List.append_nil]
    exact h.withSprite hblank.1 hdraft hframe
  | build =>
    obtain ⟨t, hstage, -, hsprites⟩ := project_ok hrun
    obtain ⟨first, hfirst, hstated, hplaces⟩ := h.builds rfl (buildStage_creates hstage)
    obtain ⟨others, hall, hothers⟩ := hfirst.buildSprites (fun item hitem => by
      rw [hplaces]
      exact h.entries item hitem) hsprites
    refine ⟨first ++ others, ?_, ?_⟩
    · rwa [← List.append_assoc]
    · rw [statedIn_append, hstated, hothers]
      rfl

end

theorem accounted_fresh (session : Session) (folder : String) :
    Accounted [] (.fresh session folder) := by
  refine ⟨fun place => ?_, rfl, fun item hitem => ?_, rfl, fun item hitem => ?_⟩
  · cases place <;> rfl
  all_goals cases hitem

/-- A history is accounted for by what its edits state, besides messages and what tells clones
apart. -/
theorem Accounted.history {edits : List Edit} (h : Accounted log s)
    (hrun : history edits s = .ok () s') :
    ∃ more, Accounted (log ++ more) s' ∧ statedIn more = statedThrough edits s := by
  induction edits generalizing s log with
  | nil =>
    obtain ⟨-, rfl⟩ := pure_ok.mp hrun
    exact ⟨[], by rwa [List.append_nil], rfl⟩
  | cons edit rest ih =>
    obtain ⟨t, hedit, hrest⟩ := forM_cons_ok.mp hrun
    obtain ⟨first, hfirst, hstated⟩ := h.run hedit
    obtain ⟨others, hall, hothers⟩ := ih hfirst hrest
    refine ⟨first ++ others, ?_, ?_⟩
    · rwa [← List.append_assoc]
    · rw [statedIn_append, hstated, hothers, statedThrough, hedit]

/-- In a run each listed sprite is built in a pass of its own, and all that the pass creates is
known from the statements of the sprite, but for the messages. A variable that a script names and
the result of a function are recorded in the table of the target that they are created on. But a
result is created on the stage, under a name that is the same for all sprites, and what tells clones
apart is created on the sprite and recorded nowhere. So what a pass creates, messages apart, belongs
to its own sprite exactly if no function of the sprite has a result and no expression that is
translated asks for a clone. -/
theorem belongs_to_sprite_iff {session : Session} {folder : String} {edits : List Edit}
    {s s' : BuildState} (hedits : history edits (.fresh session folder) = .ok () s)
    (hrun : project s = .ok () s') {before after : List (String × SpriteEntry)} {name : String}
    {entry : SpriteEntry} (hentry : s.draft.sprites = before ++ (name, entry) :: after) :
    ∃ t u log,
      (do buildStage; before.forM fun (n, e) => buildSprite n e : Build Unit) s = .ok () t ∧
      buildSprite name entry t = .ok () u ∧
      (after.forM fun (n, e) => buildSprite n e : Build Unit) u = .ok () s' ∧
      Creates (.sprite entry.index) log t.draft u.draft ∧
      statedIn log = statedBy (.sprite entry.index) entry.statements ∧
      (∀ c ∈ log, c.reason.IsOf (.sprite entry.index)) ∧
      (∀ c ∈ log, c.reason.isFiled = true → RecordedIn c.reason.place u.draft c.data) ∧
      (∀ function type,
        .output (.sprite entry.index) function type ∈
            statedBy (.sprite entry.index) entry.statements →
          outputData true function type ∈ createdAt .stage log) ∧
      (cloneData ∈ createdAt (.sprite entry.index) log ↔
        ∃ stmt ∈ entry.statements, asks (topTranslated stmt) = true) ∧
      ((∀ c ∈ log, (∃ text, c.reason = .message text) ∨ c.reason.place = .sprite entry.index ∧
          RecordedIn (.sprite entry.index) u.draft c.data) ↔
        ∀ stmt ∈ entry.statements,
          returns? stmt = none ∧ asks (topTranslated stmt) = false) := by
  obtain ⟨t₀, hstage, -, hsprites⟩ := project_ok hrun
  rw [hentry] at hsprites
  obtain ⟨t, hbefore, hrest⟩ := forM_append_ok.mp hsprites
  obtain ⟨u, hown, hafter⟩ := forM_cons_ok.mp hrest
  obtain ⟨-, log, hcreates, hstated, hof, hasks⟩ := buildSprite_creates hown
  obtain ⟨old, hold, -⟩ := (accounted_fresh session folder).history hedits
  obtain ⟨first, hfirst, -, hplaces⟩ := hold.builds rfl (buildStage_creates hstage)
  obtain ⟨others, hothers, -⟩ := hfirst.buildSprites (fun item hitem => by
    rw [hplaces]
    exact hold.entries item (hentry ▸ List.mem_append_left _ hitem)) hbefore
  have hearlier : (do buildStage; before.forM fun (n, e) => buildSprite n e : Build Unit) s =
      .ok () t := bind_ok.mpr ⟨(), t₀, hstage, hbefore⟩
  refine ⟨t, u, log, hearlier, hown, hafter, hcreates, hstated, hof,
    fun c hc hfiled => hcreates.recorded hc hfiled, ?_, ?_,
    owned_by_sprite_iff hcreates hothers.tables hstated hof hasks⟩
  · intro function type houtput
    obtain ⟨c, hc, hreason, hdata⟩ := output_created hstated houtput
    refine List.mem_map.mpr ⟨c, List.mem_filter.mpr ⟨hc, ?_⟩, hdata⟩
    simp [hreason, Reason.place]
  · rw [← List.any_eq_true, ← hasks, List.any_eq_true]
    constructor
    · intro hmem
      obtain ⟨c, hc, hdata⟩ := List.mem_map.mp hmem
      obtain ⟨hc, hplace⟩ := List.mem_filter.mp hc
      refine ⟨c, hc, ?_⟩
      cases hreason : c.reason with
      | cloneFlag => rfl
      | named => exact absurd (congrArg Data.name hdata) (c.name_ne (by rw [hreason]; rfl))
      | global | output | message => simp [hreason, Reason.place] at hplace
    · rintro ⟨c, hc, hclone⟩
      have hmade := c.made
      have hown := hof c hc
      cases hreason : c.reason with
      | cloneFlag own =>
        rw [hreason] at hmade hown
        refine List.mem_map.mpr ⟨c, List.mem_filter.mpr ⟨hc, ?_⟩, hmade.2⟩
        exact decide_eq_true (hreason ▸ hown)
      | _ =>
        rw [hreason] at hclone
        cases hclone

/-- Two sprites with a function of the same name, each of which gives back a number, and one that
asks for a clone. -/
def namesakeFiles : List Edit :=
  let function := Stmt.function (.start 0) (some .ofNumber) "f" [] false []
  let asking := Stmt.hat (.start 0) (.attr (.start 0) (.str "scratch") "on_flag") []
    [.ifThen (.start 0) (.attr (.start 0) (.str "this") "is_clone") []]
  [.sprite (.root "" (.folder [])) ⟨⟨[], [function]⟩, "first.sbs"⟩,
    .sprite (.root "" (.folder [])) ⟨⟨[], [function]⟩, "second.sbs"⟩,
    .sprite (.root "" (.folder [])) ⟨⟨[], [asking]⟩, "third.sbs"⟩]

theorem belongs_to_sprite_iff_namesakes : ∃ s s',
    history namesakeFiles (.fresh (.fresh (some .error) false) "project") = .ok () s ∧
    project s = .ok () s' ∧ s.draft.sprites.length = 3 ∧
    ∀ name entry before after, s.draft.sprites = before ++ (name, entry) :: after →
      ∃ t u log, buildSprite name entry t = .ok () u ∧
        Creates (.sprite entry.index) log t.draft u.draft ∧
        ¬ ∀ c ∈ log, (∃ text, c.reason = .message text) ∨ c.reason.place = .sprite entry.index ∧
          RecordedIn (.sprite entry.index) u.draft c.data := by
  let foreign (stmt : Stmt) : Bool := (returns? stmt).isSome || asks (topTranslated stmt)
  have hlisted : seen (fun s => s.draft.sprites.map fun item => item.2.statements.any foreign)
      (history namesakeFiles (.fresh (.fresh (some .error) false) "project")) =
        some [true, true, true] := by decide +kernel
  have hbuilds : seen (fun _ => ()) ((do history namesakeFiles; project : Build Unit)
      (.fresh (.fresh (some .error) false) "project")) = some () := by decide +kernel
  obtain ⟨s, hedits, hforeign⟩ := exists_of_seen hlisted
  obtain ⟨s', hrun, -⟩ := exists_of_seen hbuilds
  rw [bind_of_ok hedits] at hrun
  refine ⟨s, s', hedits, hrun, ?_, fun name entry before after hentry => ?_⟩
  · simpa using congrArg List.length hforeign
  obtain ⟨t, u, log, -, hown, -, hcreates, -, -, -, -, -, hiff⟩ :=
    belongs_to_sprite_iff hedits hrun hentry
  refine ⟨t, u, log, hown, hcreates, fun howned => ?_⟩
  have hmem : entry.statements.any foreign ∈ [true, true, true] := by
    rw [← hforeign, hentry]
    simp
  obtain ⟨stmt, hstmt, hbad⟩ := List.any_eq_true.mp (by simpa using hmem)
  simp [foreign, hiff.mp howned stmt hstmt] at hbad

end

end BlockScript.Build
