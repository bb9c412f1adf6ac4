import BlockScript.Compile
import BlockScript.Proofs.References

/-!
No project refers to a variable that it does not have. A setup, the stage, sprites and the building
of scripts may come in any order: each of them leaves all that is recorded at hand, and what the
scripts refer to with it. In a run of the compiler the trees come from texts, where a literal is a
number or a text.
-/
namespace BlockScript

/-- The literals in some expressions hold no variables. -/
def Expr.Literal (es : List Expr) : Prop := ∀ v, .value v ∈ es → v.references = []

/-- Trees that may bring along any blocks and calls. -/
def Terms.any : Terms := ⟨fun _ _ => True, True, fun _ _ _ => True⟩

mutual

theorem Value.every_of_none {v : Value} (h : v.references = []) : v.Every Terms.any.Written := by
  cases v with
  | list items => exact everyAll_of_none h
  | broadcast name => exact h
  | data d => cases h
  | call label arguments => exact ⟨trivial, everyAll_of_none h⟩
  | block op arguments retyped alternative =>
    obtain ⟨harguments, halternative⟩ := List.append_eq_nil_iff.mp h
    refine ⟨trivial, everyAll_of_none harguments, ?_⟩
    cases alternative with
    | none => trivial
    | some script => exact everyAll_of_none halternative
  | _ => trivial

theorem Value.everyAll_of_none (h : referencesAll values = []) :
    EveryAll Terms.any.Written values := by
  cases values with
  | nil => trivial
  | cons v rest =>
    obtain ⟨hv, hrest⟩ := List.append_eq_nil_iff.mp h
    exact ⟨every_of_none hv, everyAll_of_none hrest⟩

end

theorem Expr.Literal.any (h : Expr.Literal es) : Terms.any.Literal es :=
  fun v hv => Value.every_of_none (h v hv)

/-- What is written in a text is a number or a text, and made of nothing else. -/
theorem Value.every_of_isWritten {w : Terms} {v : Value} (h : v.isWritten = true) :
    v.Every w.Written := by
  cases v with
  | int | float | str => trivial
  | _ => cases h

/-- Trees that are read from a text have numbers and texts for literals. -/
theorem Grammar.Spells.literal {source : String} {p : Script} (h : Spells source p) (w : Terms) :
    w.Literal p.nodes :=
  fun v hv => Value.every_of_isWritten (h.written _ hv v rfl)

theorem Project.target?_addSprite {p : Project} {place : Place} {t : Target} (new : Target)
    (h : p.target? place = some t) :
    { p with sprites := p.sprites ++ [new] }.target? place = some t := by
  cases place with
  | stage => exact h
  | sprite i => exact (List.getElem?_append_left (List.getElem?_eq_some_iff.mp h).1).trans h

theorem Project.grows_addSprite (p : Project) (new : Target) :
    p.Grows { p with sprites := p.sprites ++ [new] } := by
  intro place
  cases hplace : p.target? place with
  | some t =>
    rw [dataAt, dataAt, hplace, target?_addSprite new hplace]
    exact List.Subset.refl _
  | none =>
    rw [dataAt, dataAt, hplace]
    exact List.subset_append_right _ _

namespace Build

variable {w : Terms} {s s' : BuildState}

/-- A step after which all that is recorded is still at hand. -/
def Supplying (w : Terms) (s s' : BuildState) : Prop := s.draft.Supplied w → s'.draft.Supplied w

instance : IsPreorder BuildState (Supplying w) where
  refl _ := id
  trans _ _ _ h k hs := k (h hs)

theorem Supplying.of_draft (h : s'.draft = s.draft) : Supplying w s s' := by
  intro hs
  rwa [h]

theorem supplying_moveTo (p : Position) : Within (Supplying w) (moveTo p) :=
  fun _ _ _ h => .of_draft (quiet_moveTo h).draft

theorem supplying_log (level : Level) (text : String) : Within (Supplying w) (log level text) :=
  fun _ _ _ h => .of_draft (log_ok h).1

section

theorem supplying_addGlobal (g : Global) : Within (Supplying w) (addGlobal g) := by
  rw [addGlobal_eq]
  refine .bind (.bind (supplying_moveTo _) fun _ => .setup supplying_moveTo _) fun v => ?_
  intro s u s' h hs
  obtain ⟨-, -, d, t, hadd, rfl⟩ := keepGlobal_ok.mp h
  refine (addData_supplied hs (.inl rfl) (fun _ => rfl) (fun heq => ?_) hadd).2.1
  simpa [globalName, cloneData, String.toList_append] using congrArg String.toList heq

theorem supplying_setup (folder : String) (tree : Setup) :
    Within (Supplying w) (setup folder tree) := by
  refine .bind (.modify fun s hs => { hs with }) fun _ => ?_
  exact .bind (.modify fun s => .of_draft rfl) fun _ => Within.forM supplying_addGlobal _

theorem supplying_addStage (folder : Location) {script : Script} (h : w.Literal script.nodes) :
    Within (Supplying w) (addStage folder script) := by
  have hadd : ∀ asset, Within (Supplying w) (modifyTarget .stage (·.addAsset asset)) :=
    fun asset => .modify fun s hs =>
      hs.modify (fun _ => rfl) (fun _ => List.Subset.refl _) (fun _ _ hown => .inl hown)
        fun _ _ _ hscript => .inl hscript
  have hassets : ∀ kind paths, Within (Supplying w) (addAssets folder kind .stage paths) :=
    within_addAssets hadd (supplying_log _) folder
  refine .bind (within_declarations supplying_moveTo _ _ _) fun properties => ?_
  refine .bind (hassets _ _) fun _ => .bind (hassets _ _) fun _ => ?_
  exact .modify fun s hs => { hs with stageLiteral := h }

/-- A new sprite has no scripts yet, and no variables to look up. -/
theorem supplied_withSprite {d : Draft} {f : SpriteFile} {target : Target} (hd : d.Supplied w)
    (hdata : target.data = []) (hcustom : target.custom = []) (hscripts : target.scripts = [])
    (hliteral : w.Literal f.script.nodes) : (withSprite d f target).Supplied w := by
  have hgrows := d.project.grows_addSprite target
  have hlast : (withSprite d f target).project.target? (.sprite d.project.sprites.length) =
      some target := List.getElem?_concat_length
  have hnew : ∀ place t, d.project.target? place = none →
      (withSprite d f target).project.target? place = some t → t = target := by
    intro place t hold ht
    cases place with
    | stage => cases hold
    | sprite i =>
      have hat : (d.project.sprites ++ [target])[i]? = [target][i - d.project.sprites.length]? :=
        List.getElem?_append_right (List.getElem?_eq_none_iff.mp hold)
      exact List.mem_singleton.mp (List.mem_of_getElem? (hat.symm.trans ht))
  refine
    { stands := fun place t ht own hown => ?_
      globals := fun item hitem => hgrows _ (hd.globals item hitem)
      stage := fun item hitem => hgrows _ (hd.stage item hitem)
      tables := fun item hitem => ?_
      broadcasts := fun b hb => ⟨hgrows _ (hd.broadcasts b hb).1, (hd.broadcasts b hb).2⟩
      scripts := fun place t ht script hscript => ?_
      keys := Assoc.nodup_keys_put hd.keys
      named := fun item hitem => ?_
      stageLiteral := hd.stageLiteral
      literal := fun item hitem => ?_ }
  · cases hold : d.project.target? place with
    | some before =>
      obtain rfl := Option.some.inj ((Project.target?_addSprite target hold).symm.trans ht)
      exact hd.stands place before hold own hown
    | none =>
      obtain rfl := hnew place t hold ht
      simp [dataOf, hdata] at hown
  · rcases Assoc.mem_put hitem with rfl | hitem
    · intro own hown
      cases hown
    · exact fun own hown => hgrows _ (hd.tables item hitem own hown)
  · cases hold : d.project.target? place with
    | some before =>
      obtain rfl := Option.some.inj ((Project.target?_addSprite target hold).symm.trans ht)
      exact (hd.scripts place before hold script hscript).mono hgrows.supplies
    | none =>
      obtain rfl := hnew place t hold ht
      rw [Target.written, hcustom, hscripts] at hscript
      cases hscript
  · rcases Assoc.mem_put hitem with rfl | hitem
    · exact congrArg (Option.map Target.name) hlast
    · have hold := hd.named item hitem
      obtain ⟨before, hbefore, hname⟩ := Option.map_eq_some_iff.mp hold
      rw [← hname]
      exact congrArg (Option.map Target.name) (Project.target?_addSprite target hbefore)
  · rcases Assoc.mem_put hitem with rfl | hitem
    · exact hliteral
    · exact hd.literal item hitem

theorem supplying_addSprite (folder : Location) {f : SpriteFile} (h : w.Literal f.script.nodes) :
    Within (Supplying w) (addSprite folder f.script f.filename) := by
  intro s name s' hrun hs
  obtain ⟨target, -, ⟨hdata, hcustom, hscripts⟩, hdraft, -⟩ := addSprite_ok hrun
  rw [hdraft]
  exact supplied_withSprite hs hdata hcustom hscripts h

end

section

/-- Building a target of the draft leaves all in order, and the sprites listed. -/
theorem buildTarget_supplied (hs : s.draft.Supplied w) (hown : s.draft.Lists own)
    (hbody : w.Literal (Stmt.nodesAll body)) (hknows : w.Knows own body)
    (h : buildTarget own file body s = .ok () s') :
    s'.draft.Supplied w ∧ s'.draft.sprites.map listed = s.draft.sprites.map listed := by
  obtain ⟨-, _, hcreates, -⟩ := buildTarget_creates h
  have h := modify_bind_ok.mp h
  have hstocked : Stocked w own { s with session.current := some file, frame := .fresh own } :=
    ⟨rfl, hs, hown, nofun, nofun, nofun, nofun⟩
  obtain ⟨hlasts, -⟩ := safe_target hbody hknows () s' hstocked h
  exact ⟨hlasts.holds.draft, hcreates.listing⟩

theorem supplied_buildStage (hs : s.draft.Supplied w)
    (hknows : w.Knows .stage s.draft.stageStatements) (hrun : buildStage s = .ok () s') :
    s'.draft.Supplied w := by
  rw [buildStage, get_bind_ok] at hrun
  split at hrun
  · exact supplying_log _ _ _ _ _ hrun hs
  · obtain ⟨_, t, hbuild, hlog⟩ := bind_ok.mp hrun
    refine supplying_log _ _ _ _ _ hlog ?_
    exact (buildTarget_supplied hs (.inl rfl) hs.stageLiteral hknows hbuild).1

/-- The sprites that are listed are built one after another. -/
theorem supplied_buildSprites {items : List (String × SpriteEntry)} (hs : s.draft.Supplied w)
    (hitems : ∀ item ∈ items, listed item ∈ s.draft.sprites.map listed ∧
      w.Literal (Stmt.nodesAll item.2.statements) ∧
      w.Knows (.sprite item.2.index) item.2.statements)
    (hrun : (items.forM fun (name, entry) => buildSprite name entry : Build Unit) s = .ok () s') :
    s'.draft.Supplied w := by
  induction items generalizing s with
  | nil =>
    obtain ⟨-, rfl⟩ := pure_ok.mp hrun
    exact hs
  | cons item rest ih =>
    obtain ⟨⟨hlisted, hliteral, hknows⟩, hrest⟩ := List.forall_mem_cons.mp hitems
    obtain ⟨t, hfirst, hrun⟩ := forM_cons_ok.mp hrun
    obtain ⟨_, t₀, hbuild, hlog⟩ := bind_ok.mp hfirst
    obtain ⟨hdraft, -⟩ := debug_ok hlog
    obtain ⟨entry, hentry, hsame⟩ := List.mem_map.mp hlisted
    have hown : s.draft.Lists (.sprite item.2.index) := by
      refine .inr ⟨entry, hentry, ?_⟩
      rw [← index_listed, ← hsame, index_listed]
    obtain ⟨hsupplied, hlisting⟩ := buildTarget_supplied hs hown hliteral hknows hbuild
    rw [← hdraft] at hsupplied hlisting
    exact ih hsupplied (by rwa [hlisting]) hrun

theorem supplied_project (hs : s.draft.Supplied w)
    (hknows : ∀ place body, s.draft.Tells place body → w.Knows place body)
    (hrun : project s = .ok () s') : s'.draft.Supplied w := by
  obtain ⟨t, hstage, hsprites, hrun⟩ := project_ok hrun
  have hbuilt := supplied_buildStage hs (hknows _ _ (.inl ⟨rfl, rfl⟩)) hstage
  refine supplied_buildSprites hbuilt (fun item hitem => ?_) hrun
  rw [hsprites]
  exact ⟨List.mem_map_of_mem hitem, hs.literal item hitem,
    hknows _ _ (.inr ⟨item, hitem, rfl, rfl⟩)⟩

theorem supplying_project (hw : w.calls) : Within (Supplying w) project :=
  fun _ _ _ hrun hs => supplied_project hs (fun _ _ _ _ _ _ => .inl hw) hrun

end

section

/-- The expressions in the scripts that an edit brings. -/
def Edit.nodes : Edit → List Expr
  | setup _ _ | build => []
  | stage _ script => script.nodes
  | sprite _ file => file.script.nodes

/-- What a history builds is not known in advance, so it may call anything. -/
theorem Edit.supplying {edit : Edit} (h : w.Literal edit.nodes ∧ (edit = .build → w.calls)) :
    Within (Supplying w) edit.run := by
  cases edit with
  | setup folder tree => exact supplying_setup folder tree
  | stage folder script => exact supplying_addStage folder h.1
  | sprite folder file => exact .bind (supplying_addSprite folder h.1) fun _ => .pure _
  | build => exact supplying_project (h.2 rfl)

theorem supplying_history
    (h : ∀ edit ∈ edits, w.Literal edit.nodes ∧ (edit = .build → w.calls)) :
    Within (Supplying w) (history edits) := by
  induction edits with
  | nil => exact .pure _
  | cons edit rest ih =>
    obtain ⟨hfirst, hrest⟩ := List.forall_mem_cons.mp h
    exact .bind (Edit.supplying hfirst) fun _ => ih hrest

theorem supplying_openSource : Within (Supplying w) (openSource folder path) := by
  refine .bind (.ofExcept _) fun text => .bind (.modify fun s => .of_draft rfl) fun _ => ?_
  exact supplying_log _ _

theorem supplying_closeSource : Within (Supplying w) closeSource := by
  refine .get_bind fun t => .bind (.ofExcept _) fun session => ?_
  exact .modify fun s => .of_draft rfl

theorem supplying_parseSetup : Within (Supplying w) parseSetup := by
  refine .get_bind fun t => .bind (.modify fun s => .of_draft rfl) fun _ => ?_
  split
  · exact .pure _
  · intro s a s' h
    cases h

theorem supplying_parseScript : Within (Supplying w) parseScript := by
  refine .get_bind fun t => .bind (.modify fun s => .of_draft rfl) fun _ => ?_
  split
  · exact .pure _
  · intro s a s' h
    cases h

/-- What is parsed is what a text spells. -/
theorem gives_parseScript :
    Gives (fun script => ∃ source, Grammar.Spells source script) parseScript := by
  intro s script s' h
  rw [parseScript, get_bind_ok] at h
  cases hparse : s.session.parseScript with
  | mk result session =>
    simp only [hparse] at h
    obtain ⟨_, t, -, h⟩ := bind_ok.mp h
    cases result with
    | error failure => cases h
    | ok p =>
      obtain ⟨rfl, -⟩ := pure_ok.mp h
      cases hcontent : s.session.content with
      | ok source => exact ⟨source, Session.parseScript_spells hcontent hparse⟩
      | error f =>
        simp only [Session.parseScript, Session.parseFragment, hcontent] at hparse
        cases hparse

theorem supplying_readSetup (folder : Location) : Within (Supplying w) (readSetup folder) := by
  refine .bind (supplying_log _ _) fun _ => ?_
  split
  · refine .bind supplying_openSource fun _ => .bind supplying_parseSetup fun tree => ?_
    exact .bind (supplying_setup _ _) fun _ => .bind supplying_closeSource fun _ => supplying_log _ _
  · exact supplying_log _ _

theorem supplying_readStage (folder : Location) : Within (Supplying w) (readStage folder) := by
  refine .bind (supplying_log _ _) fun _ => ?_
  split
  · refine .bind supplying_openSource fun _ => ?_
    refine .bind_of_gives supplying_parseScript gives_parseScript fun script hscript => ?_
    obtain ⟨source, hspells⟩ := hscript
    exact .bind (supplying_addStage _ (hspells.literal w)) fun _ => supplying_closeSource
  · exact supplying_log _ _

theorem supplying_readSprite (folder : Location) (path : String) :
    Within (Supplying w) (readSprite folder path) := by
  refine .bind (supplying_log _ _) fun _ => .bind supplying_openSource fun _ => ?_
  refine .bind_of_gives supplying_parseScript gives_parseScript fun script hscript => ?_
  obtain ⟨source, hspells⟩ := hscript
  have hadd := supplying_addSprite folder (f := ⟨script, baseName path⟩) (hspells.literal w)
  exact .bind hadd fun _ => .bind supplying_closeSource fun _ => supplying_log _ _

theorem supplying_readSprites (folder : Location) : Within (Supplying w) (readSprites folder) := by
  have hrest : Within (Supplying w) (do
      debug "Adding sprites"
      (folder.search "sprites/*.sbs").forM (readSprite folder)) :=
    .bind (supplying_log _ _) fun _ => Within.forM (supplying_readSprite folder) _
  refine .bind (supplying_log _ _) fun _ => ?_
  split
  · refine .bind (supplying_log _ _) fun _ => ?_
    dsimp only
    split
    · exact .bind (supplying_log _ _) fun _ => hrest
    · exact hrest
  · exact supplying_log _ _

theorem saved_log (h : log level text s = .ok () s') : s'.saved = s.saved := by
  rw [log, get_bind_ok] at h
  obtain ⟨line, -, h⟩ := ofExcept_bind_ok.mp h
  cases line with
  | some line =>
    obtain rfl := modify_ok.mp h
    rfl
  | none =>
    obtain ⟨-, rfl⟩ := pure_ok.mp h
    rfl

/-- What a run saves last is what it has built. -/
theorem supplied_compile (w : Terms) (hw : w.calls) (h : compile location o s = .ok () s') :
    s'.draft.Supplied w ∧ ∃ name, s'.saved.getLast? = some (name, s'.draft.project) := by
  have hbuild : ∀ folder, Within (Supplying w) (do
      readSetup folder
      readStage folder
      readSprites folder
      debug "Building project"
      project
      info "Project built"
      debug "Saving project") := fun folder =>
    .bind (supplying_readSetup folder) fun _ => .bind (supplying_readStage folder) fun _ =>
      .bind (supplying_readSprites folder) fun _ => .bind (supplying_log _ _) fun _ =>
        .bind (supplying_project hw) fun _ => .bind (supplying_log _ _) fun _ => supplying_log _ _
  have hparts : compile location o = (do
      debug ("Changing running directory to " ++ o.path)
      let folder ← ofExcept (location.enter o.path)
      modifyDraft fun _ => Draft.fresh folder.name
      (do
        readSetup folder
        readStage folder
        readSprites folder
        debug "Building project"
        project
        info "Project built"
        debug "Saving project")
      let filename ← save o.filename
      info ("Project saved as \"" ++ filename ++ "\"")
      if o.openAfter then fault .noSuchProperty) := by
    simp only [compile, bind_assoc]
  rw [hparts] at h
  obtain ⟨_, t₁, -, folder, t₂, -, h⟩ := bind_bind_ok.mp h
  have h := modifyDraft_bind_ok.mp h
  obtain ⟨_, t, hbuilt, h⟩ := bind_ok.mp h
  have hsupplied := hbuild folder _ _ _ hbuilt (Draft.supplied_fresh w folder.name)
  obtain ⟨name, t₄, hsave, h⟩ := bind_ok.mp h
  rw [save, get_bind_ok] at hsave
  have hname := modify_bind_ok.mp hsave
  obtain ⟨-, rfl⟩ := pure_ok.mp hname
  obtain ⟨_, t₆, hlog, h⟩ := bind_ok.mp h
  split at h
  · cases h
  · obtain ⟨-, rfl⟩ := pure_ok.mp h
    rw [(log_ok hlog).1, saved_log hlog]
    exact ⟨hsupplied, _, List.getLast?_concat⟩

end

/-- Every variable and list in a script, at any depth, has the name and kind of one that its target
or the stage has. This holds after every history of edits, in any order, if the literals of the
scripts hold no variables; and of what every run of the compiler builds and saves. -/
theorem project_closed :
    (∀ (session : Session) (folder : String) (edits : List Edit) (s' : BuildState),
      (∀ edit ∈ edits, Expr.Literal edit.nodes) →
      history edits (.fresh session folder) = .ok () s' → s'.draft.project.Closed) ∧
    ∀ (location : Location) (o : Options) (s s' : BuildState), compile location o s = .ok () s' →
      s'.draft.project.Closed ∧ ∃ name, s'.saved.getLast? = some (name, s'.draft.project) := by
  refine ⟨fun session folder edits s' hliteral hrun => ?_, fun location o s s' hrun => ?_⟩
  · have hany : ∀ edit ∈ edits, Terms.any.Literal edit.nodes ∧ (edit = .build → Terms.any.calls) :=
      fun edit hedit => ⟨(hliteral edit hedit).any, fun _ => trivial⟩
    exact (supplying_history hany _ _ _ hrun (Draft.supplied_fresh _ folder)).closed
  · obtain ⟨hsupplied, hsaved⟩ := supplied_compile Terms.any trivial hrun
    exact ⟨hsupplied.closed, hsaved⟩

/-- A global, and a sprite with a function, a message, a list and a question about clones. -/
def guardedProject : List Edit :=
  [.setup "project" ⟨.absent, [⟨.start 0, "best", .ofNumber, .int 3⟩]⟩,
    .sprite (.root "project" (.folder [])) ⟨⟨[],
      [.function (.start 0) (some .ofNumber) "f" ["a"] false
        [.giveBack (.start 0) (some (.name (.start 0) "best"))],
       .hat (.start 0) (.attr (.start 0) (.str "scratch") "on_broadcast")
          [.str "go", .name (.start 0) "text"]
        [.declare (.start 0) (.name (.start 0) "seen") .ofList (some (.list [.int 1])) false,
         .ifThen (.start 0) (.attr (.start 0) (.str "this") "is_clone")
          [.assign (.start 0) (.index (.start 0) (.name (.start 0) "seen") (.int 0))
            (.call (.start 0) (.name (.start 0) "f") [.name (.start 0) "text"])]]]⟩, "cat.sbs"⟩,
    .build]

theorem project_closed_guarded :
    ∃ s', history guardedProject (.fresh (.fresh (some .error) false) "project") = .ok () s' ∧
      s'.draft.project.Closed ∧
      (s'.draft.project.targets.map fun t => t.written.map fun script =>
        (Value.referencesAll script).map Data.name) =
      [[], [["sg_is_clone"], ["sg_is_clone"],
        ["s2_text", "br_go", "s2_seen", "s2_seen", "sg_is_clone", "s2_text", "s2_text", "s2_seen",
          "fo_f"],
        ["s1_a", "fo_f", "g_best"]]] := by
  have hliteral : ∀ edit ∈ guardedProject, Expr.Literal edit.nodes := by
    simp [guardedProject, Edit.nodes, Expr.Literal, Expr.int, Expr.str]
  refine exists_seen_and (f := fun s => s.draft.project.targets.map fun t => t.written.map
    fun script => (Value.referencesAll script).map Data.name) ?_ fun s' hrun =>
      project_closed.1 _ _ _ _ hliteral hrun
  decide +kernel

end Build

end BlockScript
