import BlockScript.Proofs.Supplies

/-!
What the builder of scripts makes them of. While a target is built, all that is recorded is at hand
for it: in the draft, in the tables of the builder, and in the scripts written so far. Every step
keeps this, and what it gives refers to nothing else. A new variable is at hand from its creation
on, so what was written before it stays in order. Every block that is written has the shape of the
statement it is written for.
-/
namespace BlockScript.Build

open Value (Every EveryAll everyAll_iff everyAll_append)

variable {w : Terms} {s s' t : BuildState} {own : Place}

/-- What the scripts being built may be made of. -/
def atHand (w : Terms) (s : BuildState) : Value → Prop :=
  s.draft.project.Supplies w s.frame.place

/-- A variable that may be set to all that it takes. -/
structure Settable (P : Value → Prop) (d : Data) : Prop where
  part : P (.data d)
  set : ∀ v, d.Takes v → P (.op .setVariable [.data d, v])

theorem Settable.mono (h : Settable P d) (hP : ∀ part, P part → P' part) : Settable P' d :=
  ⟨hP _ h.part, fun v hv => hP _ (h.set v hv)⟩

/-- A function with a result that may be set, and a block that may be called with as many arguments
as it has parameters. -/
structure Usable (P : Value → Prop) (f : Function) : Prop where
  output : ∀ d, f.output = some d → Settable P d
  call : ∀ signature, f.signature = some signature → ∀ arguments : List Value,
    arguments.length = signature.parameters → P (.call signature.label arguments)

/-- What the builder of scripts keeps is in order: functions, what tells clones apart, and the
scripts written so far. -/
structure FrameSupplied (P : Value → Prop) (f : Frame) : Prop where
  functions : ∀ item ∈ f.functions, Usable P item.2
  clone : ∀ d, f.cloneFlag = some d → P (.data d)
  unfinished : ∀ script ∈ f.unfinished, EveryAll P script
  pending : ∀ script ∈ f.pending, Composed P script

theorem FrameSupplied.mono (h : FrameSupplied P f)
    (hP : ∀ part, P part → P' part) : FrameSupplied P' f where
  functions item hitem := ⟨fun d hd => ((h.functions item hitem).output d hd).mono hP,
    fun signature hs _ hcount => hP _ ((h.functions item hitem).call signature hs _ hcount)⟩
  clone d hd := hP _ (h.clone d hd)
  unfinished script hscript := (h.unfinished script hscript).mono hP
  pending script hscript := (h.pending script hscript).mono hP

/-- The target being built is one of the draft, and all that is recorded is at hand. -/
structure Stocked (w : Terms) (own : Place) (s : BuildState) : Prop where
  place : s.frame.place = own
  draft : s.draft.Supplied w
  here : s.draft.Lists s.frame.place
  frame : FrameSupplied (atHand w s) s.frame

abbrev LastsFor (w : Terms) (own : Place) (s s' : BuildState) : Prop :=
  Lasts (Stocked w own) (atHand w) s s'

abbrev SafeFor {α : Type} (w : Terms) (own : Place) (s : BuildState) (x : Build α)
    (post : BuildState → α → Prop) : Prop :=
  Safe (Stocked w own) (atHand w) s x post

/-- A step that keeps all in order, whatever it gives. -/
abbrev Steady {α : Type} (w : Terms) (own : Place) (s : BuildState) (x : Build α) : Prop :=
  SafeFor w own s x fun _ _ => True

section

theorem Stocked.lasts_frame (h : Stocked w own s) (hdraft : s'.draft = s.draft)
    (hplace : s'.frame.place = s.frame.place) (hframe : FrameSupplied (atHand w s) s'.frame) :
    LastsFor w own s s' := by
  have hsame : atHand w s' = atHand w s := by rw [atHand, hdraft, hplace, atHand]
  refine ⟨⟨hplace.trans h.place, hdraft ▸ h.draft, ?_, by rwa [hsame]⟩,
    fun part hpart => by rwa [hsame]⟩
  rw [hdraft, hplace]
  exact h.here

theorem Stocked.lasts_draft (h : Stocked w own s) (hframe : s'.frame = s.frame)
    (hgrows : s.draft.project.Grows s'.draft.project) (hdraft : s'.draft.Supplied w)
    (hlisting : s'.draft.sprites.map listed = s.draft.sprites.map listed) :
    LastsFor w own s s' := by
  have hmore : ∀ part, atHand w s part → atHand w s' part := by
    intro part hpart
    rw [atHand, hframe]
    exact hgrows.supplies part hpart
  refine ⟨⟨by rw [hframe, h.place], hdraft, ?_, hframe ▸ h.frame.mono hmore⟩, hmore⟩
  rw [hframe]
  rcases h.here with hstage | ⟨item, hitem, hplace⟩
  · exact .inl hstage
  · have hlisted : listed item ∈ s'.draft.sprites.map listed := by
      rw [hlisting]
      exact List.mem_map_of_mem hitem
    obtain ⟨after, hafter, hsame⟩ := List.mem_map.mp hlisted
    refine .inr ⟨after, hafter, ?_⟩
    rw [hplace, ← index_listed item, ← hsame, index_listed]

theorem lasts_quiet (h : Stocked w own s) (hquiet : Quiet s s') : LastsFor w own s s' :=
  h.lasts_frame hquiet.draft (by rw [hquiet.frame]) (hquiet.frame ▸ h.frame)

theorem safe_moveTo (pos : Position) : Steady w own s (moveTo pos) :=
  fun _ _ hs h => ⟨lasts_quiet hs (quiet_moveTo h), trivial⟩

theorem safe_debug : Steady w own s (debug text) :=
  fun _ _ hs h => ⟨lasts_quiet hs (quiet_debug h), trivial⟩

/-- A change of the builder that leaves the target and the scripts in order. -/
theorem safe_modifyFrame (hplace : ∀ frame, (f frame).place = frame.place)
    (hf : FrameSupplied (atHand w s) s.frame → FrameSupplied (atHand w s) (f s.frame)) :
    Steady w own s (modifyFrame f) := by
  intro u s' hs h
  obtain rfl := modifyFrame_ok.mp h
  exact ⟨hs.lasts_frame rfl (hplace _) (hf hs.frame), trivial⟩

theorem safe_emitAll (hblocks : EveryAll (atHand w s) blocks) :
    Steady w own s (emitAll blocks) := by
  intro u s' hs h
  obtain ⟨-, rfl⟩ := emitAll_ok.mp h
  refine ⟨hs.lasts_frame rfl rfl { hs.frame with unfinished := ?_ }, trivial⟩
  intro script hscript
  have hold := hs.frame.unfinished
  cases hscripts : s.frame.unfinished with
  | nil =>
    rw [hscripts] at hscript
    cases hscript
  | cons first rest =>
    rw [hscripts] at hscript hold
    rcases List.mem_cons.mp hscript with rfl | hscript
    · exact everyAll_append.mpr ⟨hold first List.mem_cons_self, hblocks⟩
    · exact hold script (List.mem_cons_of_mem _ hscript)

theorem safe_emit (hblock : block.Every (atHand w s)) : Steady w own s (emit block) :=
  safe_emitAll ⟨hblock, trivial⟩

theorem safe_enterScope : Steady w own s enterScope :=
  safe_modifyFrame (fun _ => rfl) fun h => ⟨h.functions, h.clone, h.unfinished, h.pending⟩

theorem safe_exitScope : Steady w own s exitScope := by
  intro u s' hs h
  obtain ⟨_, _, _, -, rfl⟩ := exitScope_ok.mp h
  obtain ⟨hfunctions, hclone, hunfinished, hpending⟩ := hs.frame
  exact ⟨hs.lasts_frame rfl rfl ⟨hfunctions, hclone, hunfinished, hpending⟩, trivial⟩

/-- What is written to a script of its own may be put into another one. -/
theorem safe_inScript (hstep : ∀ t, LastsFor w own s t → Steady w own t step) :
    SafeFor w own s (inScript ownScope step) fun t blocks => EveryAll (atHand w t) blocks := by
  have hopen : Steady w own s (openScript ownScope) := by
    rw [openScript_eq]
    refine Safe.bind (?_ : Steady w own s _) fun t _ ht _ => ?_
    · cases ownScope with
      | true => exact safe_enterScope
      | false => exact .pure trivial
    · exact safe_modifyFrame (fun _ => rfl) fun h =>
        ⟨h.functions, h.clone, List.forall_mem_cons.mpr ⟨trivial, h.unfinished⟩, h.pending⟩
  have hclose : ∀ s, SafeFor w own s (closeScript ownScope)
      fun t blocks => EveryAll (atHand w t) blocks := by
    intro s
    rw [closeScript_eq]
    refine Safe.bind (?_ : Steady w own s _) fun t _ ht _ => ?_
    · cases ownScope with
      | true => exact safe_exitScope
      | false => exact .pure trivial
    · refine .get_bind fun ht => ?_
      split
      · exact .fault
      · rename_i script rest hscripts
        have hall := ht.frame.unfinished
        rw [hscripts] at hall
        obtain ⟨hscript, hrest⟩ := List.forall_mem_cons.mp hall
        have hpop : Steady w own t (modifyFrame fun f => { f with unfinished := rest }) :=
          safe_modifyFrame (fun _ => rfl) fun h => ⟨h.functions, h.clone, hrest, h.pending⟩
        exact hpop.bind fun t₁ _ ht₁ _ => .pure (hscript.mono ht₁.grows)
  exact hopen.bind fun t _ ht _ => (hstep t ht).bind fun t₁ _ _ _ => hclose t₁

end

section

/-- Adding a variable to a target is no matter for its scripts. -/
theorem supplied_addDatum {d : Draft} (h : d.Supplied w) (place : Place) (datum : Datum)
    (hstands : datum.data.Stands place) :
    { d with project := d.project.modify place (·.addDatum datum) }.Supplied w := by
  refine h.modify (fun _ => rfl) (fun t => by simp [dataOf, Target.addDatum]) (fun t own hown => ?_)
    fun _ _ _ hscript => .inl hscript
  simp only [dataOf, Target.addDatum, List.map_append, List.mem_append, List.map_cons, List.map_nil,
    List.mem_singleton] at hown
  rcases hown with hown | rfl
  · exact .inl hown
  · exact .inr hstands

theorem grows_addDatum (p : Project) (place : Place) (datum : Datum) :
    p.Grows (p.modify place (·.addDatum datum)) :=
  p.grows_modify place fun t => by simp [dataOf, Target.addDatum]

theorem mem_addDatum {p : Project} {place : Place} {t : Target} (ht : p.target? place = some t)
    (datum : Datum) : datum.data ∈ (p.modify place (·.addDatum datum)).dataAt place := by
  have hafter : (p.modify place (·.addDatum datum)).target? place = some (t.addDatum datum) := by
    rw [Project.target?_modify, if_pos rfl, ht]
    rfl
  exact Project.mem_dataAt hafter (by simp [dataOf, Target.addDatum])

/-- A variable that is created is there for its target, and it is looked up where it is. -/
theorem addData_supplied {place : Place} {name : String} {type : DataType} {value : Value}
    {constant : Bool} {data : Data} (hs : s.draft.Supplied w) (hplace : s.draft.Lists place)
    (hglobal : isGlobalName name = true → place = .stage) (hname : name ≠ cloneData.name)
    (h : addData place name type value constant s = .ok data s') :
    s'.frame = s.frame ∧ s'.draft.Supplied w ∧ s.draft.project.Grows s'.draft.project ∧
      s'.draft.sprites.map listed = s.draft.sprites.map listed ∧
      data ∈ s'.draft.project.dataAt place ∧
      data = ⟨name, type == .typed .ofList, type, constant⟩ := by
  obtain ⟨target, htarget⟩ := hs.exists_target hplace
  obtain ⟨rfl, hframe, hdraft⟩ := addData_ok h
  have hadded := supplied_addDatum hs place
    ⟨⟨name, type == .typed .ofList, type, constant⟩, value⟩ ⟨rfl, fun hclone => absurd hclone hname⟩
  have hgrows := grows_addDatum s.draft.project place
    ⟨⟨name, type == .typed .ofList, type, constant⟩, value⟩
  have hnew := mem_addDatum htarget ⟨⟨name, type == .typed .ofList, type, constant⟩, value⟩
  rcases hdraft with ⟨hkind, hdraft⟩ | ⟨-, table, htable, hdraft⟩
  · obtain rfl := hglobal hkind
    rw [hdraft]
    exact ⟨hframe, hadded.putGlobal hnew, hgrows, rfl, hnew, rfl⟩
  · have hproject : s'.draft.project = s.draft.project.modify place
        (·.addDatum ⟨⟨name, type == .typed .ofList, type, constant⟩, value⟩) := by
      rw [hdraft, Draft.setLocals_eq]
    rw [hproject, hdraft]
    refine ⟨hframe, hadded.setLocals hplace (Assoc.forall_put hnew fun item hitem => ?_), hgrows,
      listing_setLocals _ _ _, hnew, rfl⟩
    exact hgrows _ (hs.locals hplace htable item hitem)

/-- A variable of the target being built or of the stage. -/
structure Owns (s : BuildState) (d : Data) : Prop where
  mem : d ∈ s.draft.project.dataAt s.frame.place
  kinded : d.Kinded

variable {d : Data}

theorem Owns.atHand (h : Owns s d) : atHand w s (.data d) :=
  ⟨Project.has_of_mem h.mem, h.kinded⟩

/-- A block of a shape that is expected, with arguments at hand. -/
theorem every_block (h : Shape w s.draft.project s.frame.place op arguments)
    (harguments : EveryAll (atHand w s) arguments) :
    (Value.op op arguments).Every (atHand w s) := ⟨h, harguments, trivial⟩

theorem safe_addVariable :
    SafeFor w own s (addVariable name type value constant) fun t d => Owns t d ∧
      d = declaredData own.isSprite s.frame.currentScope name type constant := by
  intro d s' hs h
  obtain ⟨hdata, -⟩ := addVariable_ok h
  rw [hs.place] at hdata
  rw [addVariable, get_bind_ok] at h
  have hlocal := isGlobalName_fullName s.frame.place.isSprite s.frame.currentScope name
  have hclone : fullName s.frame.place.isSprite s.frame.currentScope name ≠ cloneData.name :=
    fun heq => not_isFullName_clone ⟨_, _, _, heq.symm⟩
  obtain ⟨hframe, hdraft, hgrows, hlisting, hmem, -⟩ := addData_supplied hs.draft hs.here
    (fun hkind => by cases hlocal.symm.trans hkind) hclone h
  refine ⟨hs.lasts_draft hframe hgrows hdraft hlisting, ⟨?_, ?_⟩, hdata⟩
  · rwa [hframe]
  · rw [hdata]
    rfl

/-- A variable of the stage is there for every target. -/
theorem safe_addData_stage (hname : name ≠ cloneData.name) (type : DataType) (value : Value)
    (constant : Bool) :
    SafeFor w own s (addData .stage name type value constant) fun t d =>
      d ∈ t.draft.project.dataAt .stage ∧ d = ⟨name, type == .typed .ofList, type, constant⟩ := by
  intro d s' hs h
  obtain ⟨hframe, hdraft, hgrows, hlisting, hmem⟩ :=
    addData_supplied hs.draft (.inl rfl) (fun _ => rfl) hname h
  exact ⟨hs.lasts_draft hframe hgrows hdraft hlisting, hmem⟩

/-- A name that a broadcast can have holds no variable. -/
theorem references_of_broadcastName (hv : v.Every (atHand w s))
    (h : requireBroadcastName v s = .ok () s') : v.references = [] := by
  unfold requireBroadcastName at h
  split at h
  · cases h
  · split at h
    · cases h
    · rename_i hlist hblock
      cases v with
      | list items => exact absurd rfl (hlist items)
      | broadcast name => exact hv
      | data | parameter | call | block => simp [Value.isBlock] at hblock
      | _ => rfl

/-- A variable that carries messages. -/
structure IsMessage (w : Terms) (s : BuildState) (d : Data) : Prop where
  atHand : atHand w s (.data d)
  type : d.type = .message

theorem IsMessage.isList (h : IsMessage w s d) : d.isList = false :=
  Data.Kinded.of_type h.atHand.2 (by rw [h.type]; exact nofun)

theorem safe_broadcastNamed (hname : name.Every (atHand w s)) :
    SafeFor w own s (broadcastNamed name)
      fun t b => IsMessage w t b.message ∧ atHand w t (.broadcast b.name) := by
  refine .read (readOnly_requireBroadcastName name) fun _ hs hrequired => .get_bind fun hs => ?_
  have hliteral := references_of_broadcastName hname hrequired
  split
  · rename_i b hfind
    obtain ⟨hmessage, htype, hown⟩ := hs.draft.broadcasts b (List.mem_of_find?_eq_some hfind)
    have hmem := Project.dataAt_of_stage hmessage s.frame.place
    exact .pure ⟨⟨⟨Project.has_of_mem hmem, hs.draft.kinded hmem⟩, htype⟩, hown⟩
  · refine .read (.ofExcept _) fun text _ _ => ?_
    have hmessageName : "br_" ++ text ≠ cloneData.name := fun heq => by
      simpa [cloneData, String.toList_append] using congrArg String.toList heq
    refine (safe_addData_stage hmessageName _ _ _).bind fun t message ht hmessage => ?_
    obtain ⟨hmem, hdata⟩ := hmessage
    have htype : message.type = .message := by rw [hdata]
    have hkind : message.Kinded := by
      rw [hdata]
      rfl
    have hregister : SafeFor w own t
        (modifyDraft fun d => { d with broadcasts := d.broadcasts ++ [⟨name, message⟩] })
        fun _ _ => True := by
      intro u t₁ ht hrun
      obtain rfl := modifyDraft_ok.mp hrun
      refine ⟨ht.lasts_draft rfl (.refl _) ?_ rfl, trivial⟩
      exact ht.draft.addBroadcast hmem htype hliteral
    refine hregister.bind fun t₁ _ ht₁ _ => (safe_debug).bind fun t₂ _ ht₂ _ => ?_
    have hhere : atHand w t (.data message) :=
      ⟨Project.has_of_mem (Project.dataAt_of_stage hmem t.frame.place), hkind⟩
    exact .pure ⟨⟨ht₂.grows _ (ht₁.grows _ hhere), htype⟩, hliteral⟩

/-- What tells clones apart is created on the sprite, together with the scripts that set it. -/
theorem safe_cloneFlag : SafeFor w own s cloneFlag fun t v => v.Every (atHand w t) := by
  intro v s' hs h
  obtain ⟨d, hkept, rfl⟩ := (cloneFlag_ok h).2
  suffices hlasts : LastsFor w own s s' from ⟨hlasts, hlasts.holds.frame.clone d hkept⟩
  have hsprite := isSprite_of_cloneFlag h
  rcases (cloneFlag_ok h).1 with rfl | ⟨-, rfl⟩
  · exact .refl hs
  · obtain ⟨target, htarget⟩ := hs.draft.exists_target hs.here
    have hgrows := grows_addDatum s.draft.project s.frame.place ⟨cloneData, .int 0⟩
    have hmem := mem_addDatum htarget ⟨cloneData, .int 0⟩
    have hmore : ∀ part, atHand w s part → (s.draft.project.modify s.frame.place
        (·.addDatum ⟨cloneData, .int 0⟩)).Supplies w s.frame.place part := hgrows.supplies
    have hclone : (s.draft.project.modify s.frame.place
        (·.addDatum ⟨cloneData, .int 0⟩)).Supplies w s.frame.place (.data cloneData) :=
      ⟨Project.has_of_mem hmem, rfl⟩
    have hset : ∀ n : Int, (Value.op .setVariable [.data cloneData, .int n]).Every
        ((s.draft.project.modify s.frame.place
          (·.addDatum ⟨cloneData, .int 0⟩)).Supplies w s.frame.place) := fun n =>
      ⟨.set hmem (.inl rfl) nofun ⟨.general, .ofNumber, rfl, rfl, rfl⟩,
        ⟨hclone, trivial, trivial⟩, trivial⟩
    obtain ⟨hfunctions, -, hunfinished, hpending⟩ := hs.frame.mono hmore
    refine ⟨⟨hs.place, supplied_addDatum hs.draft _ _ ⟨rfl, fun _ => hsprite⟩, hs.here,
      hfunctions, ?_, hunfinished, ?_⟩, hmore⟩
    · intro d hd
      obtain rfl := Option.some.inj hd
      exact hclone
    · refine List.forall_mem_append.mpr ⟨hpending, ?_⟩
      refine List.forall_mem_cons.mpr ⟨.plain ⟨⟨.frame rfl, trivial, trivial⟩, hset 0, trivial⟩, ?_⟩
      exact List.forall_mem_singleton.mpr
        (.plain ⟨⟨.frame rfl, trivial, trivial⟩, hset 1, trivial⟩)

/-- A variable that is found in scopes stands in the table. -/
theorem mem_of_findScoped (h : findScoped name scopes table = .ok (some d)) :
    ∃ full, (full, d) ∈ table := by
  induction table with
  | nil => cases h
  | cons item rest ih =>
    obtain ⟨full, data⟩ := item
    have hlater : findScoped name scopes rest = .ok (some d) →
        ∃ full', (full', d) ∈ (full, data) :: rest := by
      intro hrest
      obtain ⟨full', hmem⟩ := ih hrest
      exact ⟨full', List.mem_cons_of_mem _ hmem⟩
    unfold findScoped at h
    split at h
    · exact hlater h
    · cases hdecode : decode? full with
      | error f =>
        rw [hdecode] at h
        cases h
      | ok parts =>
        rw [hdecode] at h
        simp only [bind, Except.bind] at h
        split at h
        · cases h
          exact ⟨full, List.mem_cons_self⟩
        · exact hlater h

/-- A variable that a name stands for is a global, or it stands in the table of the target. -/
theorem mem_of_find? (h : find? key s = .ok (some d) s') :
    (∃ full, (full, d) ∈ s.draft.globals) ∨
      ∃ table, s.draft.locals? s.frame.place = some table ∧ ∃ full, (full, d) ∈ table := by
  rcases find?_some h with ⟨t, hget⟩ | ⟨table, htable, ⟨t, hget⟩ | hscoped⟩
  · exact .inl ⟨_, Assoc.mem_of_get? hget⟩
  · exact .inr ⟨table, htable, _, Assoc.mem_of_get? hget⟩
  · exact .inr ⟨table, htable, mem_of_findScoped hscoped⟩

/-- What a name stands for is a variable of the target or of the stage. -/
theorem owns_named (hs : Stocked w own s) (h : find? key s = .ok (some d) s) : Owns s d := by
  have hmem : d ∈ s.draft.project.dataAt s.frame.place := by
    rcases mem_of_find? h with ⟨full, hglobal⟩ | ⟨table, htable, full, hlocal⟩
    · exact Project.dataAt_of_stage (hs.draft.globals _ hglobal) _
    · exact hs.draft.locals hs.here htable _ hlocal
  exact ⟨hmem, hs.draft.kinded hmem⟩

theorem lenient_atHand (w : Terms) (s : BuildState) :
    Value.Lenient (fun _ => True) (atHand w s) :=
  Project.lenient_supplies

theorem stock : Stock (fun _ => True) (Stocked w own) (atHand w) where
  lenient := lenient_atHand w
  offers _ hentry hallowed hop := .offered hentry hallowed hop
  named hs hfind := (owns_named hs hfind).atHand
  results hs hfunction houtput :=
    ((hs.frame.functions _ (Assoc.mem_of_get? hfunction)).output _ houtput).part
  moveTo _ pos := safe_moveTo pos
  calls hfunction hsignature hcount harguments := .of_holds fun hs =>
    safe_emit ⟨(hs.frame.functions _ (Assoc.mem_of_get? hfunction)).call _ hsignature _ hcount,
      harguments⟩
  cloneFlag _ := safe_cloneFlag

end

section

variable {v operand : Value}

variable {e target : Expr} {callee : Callee}

theorem safe_expression (he : w.Literal e.nodes) :
    SafeFor w own s (expression .script e) fun t v => v.Every (atHand w t) :=
  stock.expression e (fun v hv _ => (he v hv).mono Terms.Written.supplies) (.any _) s

theorem safe_expressions (hes : w.Literal (Expr.nodesAll es)) :
    SafeFor w own s (expressions .script es) fun t values => EveryAll (atHand w t) values :=
  stock.expressions es (fun v hv _ => (hes v hv).mono Terms.Written.supplies) (.any _) s

theorem safe_condition (hc : w.Literal c.nodes) :
    SafeFor w own s (condition c) fun t v => v.Every (atHand w t) ∧ v.Fits .ofBoolean :=
  (safe_expression hc).bind fun _ _ _ hv => .read (.require _ _ _) fun _ _ hfits =>
    .pure ⟨hv, Outcome.require_one.mp (ofOutcome_ok.mp hfits).1⟩

theorem safe_assign (hd : Owns s d) (hname : d.constant = false ∨ IsFullName d.name)
    (hv : v.Every (atHand w s)) : Steady w own s (assign d v) := by
  refine .read readOnly_checkAssignment fun _ _ hcheck => ?_
  have htakes := takes_of_checkAssignment hcheck
  split
  · rename_i htype
    have hlist : d.isList = true := hd.kinded.trans htype
    have hclear : (Value.op .clearList [.data d]).Every (atHand w s) :=
      every_block (.change rfl hlist rfl) ⟨hd.atHand, trivial⟩
    refine (safe_emit hclear).bind fun t _ ht _ => ?_
    split
    · rename_i items
      refine safe_emitAll (everyAll_iff.mpr fun block hblock => ?_)
      obtain ⟨item, hitem, rfl⟩ := List.mem_map.mp hblock
      have hitem := (everyAll_iff.mp hv item hitem).mono ht.grows
      exact every_block (.change rfl hlist rfl) ⟨hitem, ht.grows _ hd.atHand, trivial⟩
    · exact .fault
  · rename_i htype
    have hsingle : d.isList = false := hd.kinded.trans (Bool.eq_false_iff.mpr htype)
    refine safe_emit (every_block (.set hd.mem hname (fun hlist => ?_) htakes)
      ⟨hd.atHand, hv, trivial⟩)
    rw [hsingle] at hlist
    cases hlist

theorem literal_startValue? (h : startValue? type = some e) : w.Literal e.nodes := by
  unfold startValue? at h
  repeat' split at h
  all_goals cases h
  all_goals simp [Terms.Literal, Expr.int, Expr.str]

theorem readOnly_requireUnused (target : Expr) : ReadOnly (requireUnused target) := by
  refine .bind (.ofExcept _) fun name => .bind (readOnly_find? _) fun found => ?_
  split
  · exact .bind (.reject _) fun _ => .pure _
  · exact .pure _

theorem safe_declareVariable (hvalue : w.Literal ((value.map Expr.nodes).getD [])) :
    Steady w own s (declareVariable target type value constant) := by
  refine .read (readOnly_requireUnused target) fun name _ _ => ?_
  split
  · exact .fault
  · rename_i e he
    have hliteral : w.Literal e.nodes := by
      cases value with
      | some own =>
        obtain rfl := Option.some.inj he
        exact hvalue
      | none => exact literal_startValue? he
    refine (safe_expression hliteral).bind fun t v ht hv => ?_
    split
    · exact .fault
    · refine (safe_addVariable).bind fun t₁ d ht₁ hd => ?_
      obtain ⟨howns, rfl⟩ := hd
      exact safe_assign howns (.inr ⟨_, _, _, rfl⟩) (hv.mono ht₁.grows)

theorem safe_startLoop (hstart : w.Literal start.nodes) : Steady w own s (startLoop start) := by
  intro u s' hs h
  obtain ⟨pos, target, type, value, constant, rfl, hdeclare⟩ := startLoop_ok h
  exact safe_declareVariable (fun v hv => hstart v (by simp [hv])) u s' hs hdeclare

theorem safe_assignItem (htarget : w.Literal target.nodes) (hindex : w.Literal index.nodes)
    (hvalue : w.Literal value.nodes) : Steady w own s (assignItem target index value) := by
  refine (safe_expression htarget).bind fun t list ht hlist => ?_
  split
  · rename_i d
    refine .read (readOnly_requireMutable _) fun _ _ _ => ?_
    refine (safe_expression hindex).bind fun t₁ i ht₁ hi => ?_
    refine (safe_expression hvalue).bind fun t₂ v ht₂ hv => ?_
    have hd : atHand w t₂ (.data d) := ht₂.grows _ (ht₁.grows _ hlist)
    refine .read (.require _ _ _) fun _ _ hkind => .read (.require _ _ _) fun _ _ _ => ?_
    refine .read (readOnly_requireLiteralIndex _) fun _ _ _ => .read .requireScript fun _ _ _ => ?_
    refine .read (.ofExcept _) fun place _ hplace => ?_
    have hplace := Value.yields_add (lenient_atHand w t₂) (hi.mono ht₂.grows) (by simp) _
      (ofExcept_ok.mp hplace).1
    obtain ⟨wanted, hwanted, type, htype, hmeets⟩ :=
      @Outcome.require_single _ _ _ [.ofList, .ofString] (ofOutcome_ok.mp hkind).1
    have htype : d.type = .typed type := Option.some.inj (Except.ok.inj htype)
    have hkind : type.meets .ofList = true ∨ type.meets .ofString = true := by
      rcases List.mem_pair.mp hwanted with rfl | rfl
      · exact .inl hmeets
      · exact .inr hmeets
    exact safe_emit (every_block (.replace htype hkind hd.2) ⟨hplace, hd, hv, trivial⟩)
  · exact .fault_bind

/-- A name of the language that may be used, with arguments at hand. -/
theorem safe_emitBuiltin {entry : Entry} (hentry : entry ∈ Builtins.entries)
    (hallowed : entry.spriteOnly = true → s.frame.place.isSprite = true)
    (hvalues : EveryAll (atHand w s) values) :
    Steady w own s (do requireScript; emit (← ofOutcome (entry.builtin.apply values))) := by
  refine .read .requireScript fun _ _ _ => .read (.ofOutcome _) fun block hs hblock => ?_
  exact safe_emit (stock.apply hs hentry hallowed hvalues block (ofOutcome_ok.mp hblock).1)

theorem safe_assignAttribute {target : Expr} (hv : v.Every (atHand w s)) :
    Steady w own s (assignAttribute target v) := by
  refine .read (reads.builtin _ _ _) fun b _ hb => ?_
  obtain ⟨entry, hresolve, rfl, hallowed⟩ := builtin_ok hb
  exact safe_emitBuiltin (Builtins.mem_entries (by simp) hresolve) hallowed ⟨hv, trivial⟩

theorem safe_assignTo (htarget : w.Literal target.nodes) (hvalue : w.Literal value.nodes) :
    Steady w own s (assignTo target value) := by
  refine .read (.ofExcept _) fun p _ _ => (safe_moveTo p).bind fun t _ _ _ => ?_
  refine (safe_expression hvalue).bind fun t₁ v _ hv => ?_
  split
  · exact safe_assignAttribute hv
  · rename_i list index
    exact safe_assignItem (fun v hv => htarget v (by simp [hv]))
      (fun v hv => htarget v (by simp [hv])) hvalue
  · refine .read (.ofExcept _) fun name _ _ => .read (readOnly_find? _) fun found ht₁ hfind => ?_
    split
    · exact .reject
    · refine .read (readOnly_requireMutable _) fun _ _ hmutable => ?_
      exact safe_assign (owns_named ht₁ hfind) (.inl (gives_requireMutable _ _ _ _ hmutable)) hv

theorem safe_updateVariable
    (hoperand : operand.Every (atHand w s)) : Steady w own s (updateVariable op name operand) := by
  refine .read (reads.variableNamed name) fun d hs hd => ?_
  have hd := owns_named hs (variableNamed_ok hd).1
  refine .read (readOnly_requireMutable d) fun _ _ hmutable => .read (.ofExcept _) fun v _ hv => ?_
  have hname : d.constant = false ∨ IsFullName d.name :=
    .inl (gives_requireMutable _ _ _ _ hmutable)
  obtain ⟨happly, -⟩ := ofExcept_ok.mp hv
  have hv := op.yields (v := .data d) (lenient_atHand w s) hd.atHand hoperand v happly
  refine .read readOnly_checkAssignment fun _ _ hcheck => ?_
  have htakes := takes_of_checkAssignment hcheck
  refine safe_emit (every_block (.set hd.mem hname (fun hlist => ?_) htakes)
    ⟨hd.atHand, hv, trivial⟩)
  have htype : d.type = .typed .ofList := by simpa [hlist, Data.Kinded] using hd.kinded.symm
  exact (UpdateOp.apply_list htype happly htakes).1

theorem safe_updateItem {target : Expr} (hindex : w.Literal index.nodes)
    (hoperand : operand.Every (atHand w s)) :
    Steady w own s (updateItem op target index operand) := by
  refine .read (.ofExcept _) fun name _ _ => .read (reads.variableNamed name) fun d hs hd => ?_
  have hd := owns_named hs (variableNamed_ok hd).1
  refine .read (readOnly_requireMutable d) fun _ _ _ => ?_
  refine (safe_expression hindex).bind fun t i ht hi => .read (.ofExcept _) fun place _ hplace => ?_
  have hP := lenient_atHand w t
  have hplace := Value.yields_add hP hi (by simp) _ (ofExcept_ok.mp hplace).1
  have hdata : atHand w t (.data d) := ht.grows _ hd.atHand
  refine .read (.require _ _ _) fun _ _ hkind => .read (.ofExcept _) fun v _ hv => ?_
  have hitem : (Value.op .itemOfList [place, .data d]).Every (atHand w t) :=
    every_block (.operator rfl) ⟨hplace, hdata, trivial⟩
  have hv := op.yields hP hitem (hoperand.mono ht.grows) v (ofExcept_ok.mp hv).1
  obtain ⟨type, htype, hmeets⟩ := Outcome.require_one.mp (ofOutcome_ok.mp hkind).1
  have htype : d.type = .typed type := Option.some.inj (Except.ok.inj htype)
  exact safe_emit
    (every_block (.replace htype (.inl hmeets) hdata.2) ⟨hplace, hdata, hv, trivial⟩)

/-- What can be set in place and is for sprites only is set by a name that is for sprites only. -/
theorem safe_updateAttribute {target : Expr} (hoperand : operand.Every (atHand w s)) :
    Steady w own s (updateAttribute op target operand) := by
  refine .read (reads.builtin _ _ _) fun setter _ hb => ?_
  obtain ⟨entry, hresolve, rfl, hallowed⟩ := builtin_ok hb
  split
  · rename_i current hcurrent
    have hsame := Builtins.spriteOnly_of_setter hresolve hcurrent
    refine .read (.ofOutcome _) fun now hs hnow => .read (.ofExcept _) fun v _ hv => ?_
    have hnone : EveryAll (atHand w s) [] := trivial
    have hnow := stock.apply hs (Builtins.mem_entries (by simp) hcurrent)
      (fun honly => hallowed (hsame ▸ honly)) hnone now (ofOutcome_ok.mp hnow).1
    have hv := op.yields (lenient_atHand w s) hnow hoperand v (ofExcept_ok.mp hv).1
    refine .read (.ofExcept _) fun type _ _ => .read readOnly_checkAssignment fun _ _ _ => ?_
    exact safe_emitBuiltin (Builtins.mem_entries (by simp) hresolve) hallowed ⟨hv, trivial⟩
  · exact .fault

theorem safe_update {operand : Expr} (htarget : w.Literal target.nodes)
    (hoperand : w.Literal operand.nodes) : Steady w own s (update op target operand) := by
  refine (safe_expression hoperand).bind fun t v _ hv => ?_
  split
  · exact safe_updateVariable hv
  · exact safe_updateItem (fun v hv => htarget v (by simp [hv])) hv
  · exact safe_updateAttribute hv
  · exact .fault
  · exact .fault
  · exact .fault
  · exact .fault
  · exact .pure trivial

theorem safe_storeMessage (hvalues : EveryAll (atHand w s) values) :
    SafeFor w own s (storeMessage values) fun t given => EveryAll (atHand w t) given := by
  unfold storeMessage
  split
  · exact .fault
  · rename_i name rest
    refine (safe_broadcastNamed hvalues.1).bind fun t b ht hb => ?_
    have hmessage : (rest.headD (.str "")).Every (atHand w t) := by
      cases rest with
      | nil => trivial
      | cons message _ => exact hvalues.2.1.mono ht.grows
    have hblock : (Value.op .setVariable [.data b.message, rest.headD (.str "")]).Every
        (atHand w t) :=
      every_block (.message hb.1.type hb.1.isList) ⟨hb.1.atHand, hmessage, trivial⟩
    refine (safe_emit hblock).bind fun t₁ _ ht₁ _ => ?_
    exact .pure ⟨ht₁.grows _ hb.2, trivial⟩

/-- What a call statement runs may be used where it stands, with the arguments that it is given. -/
def Callee.Allowed (w : Terms) (s : BuildState) (values : List Value) : Callee → Prop
  | .builtin b => ∃ entry ∈ Builtins.entries, b = entry.builtin ∧
    (entry.spriteOnly = true → s.frame.place.isSprite = true)
  | .custom signature => atHand w s (.call signature.label values)
  | .unknown => True

theorem allowed_of_calleeOf (hs : Stocked w own s)
    (h : calleeOf f values.length s = .ok callee s') :
    callee.Allowed w s values ∧ ∀ signature, callee = .custom signature → isBroadcast f = false := by
  rcases (calleeOf_ok h).2 with ⟨entry, hentry, hallowed, rfl⟩ |
    ⟨-, rfl | ⟨_, _, function, signature, rfl, hfunction, hsignature, rfl, hcount⟩⟩
  · exact ⟨⟨entry, Builtins.mem_entries (by simp) hentry, rfl, hallowed⟩, fun _ h => by cases h⟩
  · exact ⟨trivial, fun _ h => by cases h⟩
  · refine ⟨?_, fun _ _ => rfl⟩
    exact (hs.frame.functions _ (Assoc.mem_of_get? hfunction)).call _ hsignature _ hcount

theorem safe_runCallee (hcallee : callee.Allowed w s values)
    (hvalues : EveryAll (atHand w s) values) : Steady w own s (runCallee callee values) := by
  cases callee with
  | unknown => exact .reject
  | builtin b =>
    obtain ⟨entry, hentry, rfl, hallowed⟩ := hcallee
    exact safe_emitBuiltin hentry hallowed hvalues
  | custom signature =>
    refine .read .requireScript fun _ _ _ => ?_
    rw [Callee.apply, pure_bind]
    exact safe_emit ⟨hcallee, hvalues⟩

theorem safe_callKnown (f : Expr) (hcallee : callee.Allowed w s values)
    (hplain : ∀ signature, callee = .custom signature → isBroadcast f = false)
    (hvalues : EveryAll (atHand w s) values) : Steady w own s (callKnown f callee values) := by
  unfold callKnown
  split
  · exact .fault
  · exact .fault
  · exact .fault
  · exact .fault
  · by_cases hbroadcast : isBroadcast f = true
    · rw [if_pos hbroadcast]
      refine .of_holds fun hs => (safe_storeMessage hvalues).bind fun t given ht hgiven => ?_
      refine safe_runCallee ?_ hgiven
      cases callee with
      | unknown => trivial
      | builtin b =>
        obtain ⟨entry, hentry, heq, hallowed⟩ := hcallee
        rw [hs.place] at hallowed
        exact ⟨entry, hentry, heq, ht.holds.place ▸ hallowed⟩
      | custom signature => simp [hplain signature rfl] at hbroadcast
    · rw [if_neg hbroadcast, pure_bind]
      exact safe_runCallee hcallee hvalues

/-- What a function of a list builds has the list as its last argument. -/
theorem yields_change {P : Value → Prop} (hP : Value.Lenient L P) {action : MemberAction}
    (haction : action.isChange = true) (hd : P (.data d)) (hvalues : EveryAll P values)
    (hchange : ∀ op arguments, op.isListChange = true → arguments.getLast? = some (.data d) →
      P (.op op arguments)) : Value.Yields P (action.apply values (.data d)) := by
  unfold MemberAction.apply
  split
  · rename_i op
    have hop : op.isListChange = true := by
      simp only [MemberAction.isChange, decide_eq_true_eq] at haction
      rcases haction with rfl | rfl <;> rfl
    refine yields_apply (hchange op _ hop (by simp)) (everyAll_append.mpr ⟨hvalues, ?_⟩)
    exact ⟨hd, trivial⟩
  · cases haction
  · refine .bind fun place hplace => .ok ?_
    have hplace := Value.yields_add hP hvalues.1 (by simp) place hplace
    exact ⟨hchange _ _ rfl rfl, ⟨hplace, hd, trivial⟩, trivial⟩
  · refine .bind fun place hplace => .ok ?_
    have hplace := Value.yields_add hP hvalues.1 (by simp) place hplace
    exact ⟨hchange _ _ rfl rfl, ⟨hvalues.2.1, hplace, hd, trivial⟩, trivial⟩
  · exact .error

/-- Only lists have functions. -/
theorem type_of_function {type : DataType}
    (htable : MemberAction.tableOf type.name .function = .ok table)
    (haction : Assoc.get? name table = some action) : type = .typed .ofList := by
  refine DataType.name_list.mp ?_
  generalize type.name = text at htable
  unfold MemberAction.tableOf at htable
  split at htable <;> cases htable <;> simp_all [Assoc.get?]

/-- A function of a list changes the list. -/
theorem safe_changeVariable (hd : Owns s d) (f : Expr) (hvalues : EveryAll (atHand w s) values) :
    Steady w own s (changeVariable f values d) := by
  refine .read .requireScript fun _ _ _ => ?_
  split
  · rename_i pos object name
    refine .read (reads.member _ _ _ _ _ _) fun block _ hblock => safe_emit ?_
    obtain ⟨table, htable, hblock⟩ := ofExcept_bind_ok.mp hblock
    cases haction : Assoc.get? name table with
    | some action =>
      simp only [haction] at hblock
      have hlist : d.isList = true := by
        rw [hd.kinded, type_of_function htable haction]
        rfl
      exact yields_change (lenient_atHand w s) (MemberAction.isChange_function htable haction)
        hd.atHand hvalues (fun op arguments hop hlast => .change hop hlist hlast) block
        (ofExcept_ok.mp hblock).1
    | none =>
      simp only [haction] at hblock
      obtain ⟨_, _, -, _, _, -, hblock⟩ := bind_bind_ok.mp hblock
      cases hblock
  · exact .fault

theorem safe_callStatement (harguments : w.Literal (Expr.nodesAll arguments)) :
    Steady w own s (callStatement f arguments) := by
  refine (safe_expressions harguments).bind fun t values _ hvalues => ?_
  refine .read readOnly_calleeOf fun callee ht hcallee => ?_
  obtain ⟨hallowed, hplain⟩ := allowed_of_calleeOf ht hcallee
  have hknown : Steady w own t (callKnown f callee values) :=
    safe_callKnown f hallowed hplain hvalues
  split
  · refine .read (readOnly_find? _) fun found ht hfind => ?_
    split
    · exact safe_changeVariable (owns_named ht hfind) f hvalues
    · exact hknown
  · exact hknown

theorem safe_storeResult (houtput : ∀ d, output = some d → Settable (atHand w s) d)
    (he : w.Literal e.nodes) : Steady w own s (storeResult output e) := by
  refine (safe_expression he).bind fun t v ht hv => ?_
  split
  · split
    · exact .reject
    · exact .fault
  · rename_i d
    have hd : Settable (atHand w t) d := (houtput d rfl).mono ht.grows
    refine .read (.ofExcept _) fun type _ htype => .read (.ofExcept _) fun found ht hfound => ?_
    split
    · exact .reject
    · obtain ⟨hproblem, -⟩ := ofExcept_ok.mp hfound
      have htakes : d.Takes v := takes_of_problem? (fun t ht => by simp [ht])
        (ofExcept_ok.mp htype).1 hproblem
      exact safe_emit (every_block (hd.set v htakes) ⟨hd.part, hv, trivial⟩)

theorem safe_giveBack (hvalue : w.Literal ((value.map Expr.nodes).getD [])) :
    Steady w own s (giveBack value) := by
  have hstop : ∀ t, Steady w own t (emit (.op .stop [.str "this_script"])) :=
    fun t => safe_emit (every_block (.frame rfl) ⟨trivial, trivial⟩)
  refine .get_bind fun hs => ?_
  cases value with
  | none => exact hstop s
  | some e =>
    dsimp only
    split
    · split
      · rename_i function hfunction
        have husable := hs.frame.functions _ (Assoc.mem_of_get? hfunction)
        exact (safe_storeResult husable.output hvalue).bind fun t _ _ _ => hstop t
      · exact .fault_bind
    · exact hstop s

mutual

/-- A statement writes blocks that refer to what is at hand. -/
theorem safe_statement (h : w.Literal stmt.nodes) (s : BuildState) :
    Steady w own s (statement stmt) := by
  unfold statement
  cases stmt with
  | declare pos target type value constant =>
    exact (safe_moveTo pos).bind fun _ _ _ _ =>
      safe_declareVariable (Terms.literal_append.mp h).2
  | assign pos target value =>
    obtain ⟨htarget, hvalue⟩ := Terms.literal_append.mp h
    exact (safe_moveTo pos).bind fun _ _ _ _ => safe_assignTo htarget hvalue
  | update pos op target operand =>
    obtain ⟨htarget, hvalue⟩ := Terms.literal_append.mp h
    exact (safe_moveTo pos).bind fun _ _ _ _ => safe_update htarget hvalue
  | call pos f arguments =>
    exact (safe_moveTo pos).bind fun _ _ _ _ => safe_callStatement (Terms.literal_append.mp h).2
  | ifThen pos c body =>
    simp only [Stmt.nodes, Terms.literal_append] at h
    refine (safe_moveTo pos).bind fun _ _ _ _ => (safe_condition h.1).bind fun t v _ hv => ?_
    refine (safe_inScript fun t _ => safe_statements h.2 t).bind fun t₁ blocks ht₁ hblocks => ?_
    exact safe_emit (every_block (.frame rfl) ⟨hv.1.mono ht₁.grows, hblocks⟩)
  | ifElse pos c body alternative =>
    simp only [Stmt.nodes, Terms.literal_append] at h
    refine (safe_moveTo pos).bind fun _ _ _ _ => (safe_condition h.1).bind fun t v _ hv => ?_
    refine (safe_inScript fun t _ => safe_statements h.2.1 t).bind fun t₁ blocks ht₁ hblocks => ?_
    refine (safe_inScript fun t _ => safe_statements h.2.2 t).bind fun t₂ others ht₂ hothers => ?_
    exact safe_emit ⟨.frame rfl,
      ⟨(hv.1.mono ht₁.grows).mono ht₂.grows, hblocks.mono ht₂.grows⟩, hothers⟩
  | whileLoop pos c body =>
    simp only [Stmt.nodes, Terms.literal_append] at h
    refine (safe_moveTo pos).bind fun _ _ _ _ => ?_
    refine (safe_inScript fun t _ => safe_statements h.2 t).bind fun t blocks _ hblocks => ?_
    split
    · exact safe_emit (every_block (.frame rfl) hblocks)
    · refine (safe_condition h.1).bind fun t₁ v ht₁ hv => ?_
      refine .read .requireScript fun _ _ _ => .read (.ofExcept _) fun c _ hc => ?_
      have hc := Value.yields_logicalNot (lenient_atHand w t₁) hv.1 hv.2 trivial c
        (ofExcept_ok.mp hc).1
      exact safe_emit (every_block (.frame rfl) ⟨hc, hblocks.mono ht₁.grows⟩)
  | forLoop pos start c next body =>
    simp only [Stmt.nodes, Terms.literal_append] at h
    refine (safe_moveTo pos).bind fun _ _ _ _ => safe_enterScope.bind fun _ _ _ _ => ?_
    refine (safe_startLoop h.1).bind fun _ _ _ _ => ?_
    refine (safe_inScript fun t _ => (safe_statements h.2.2.2 t).bind fun t _ _ _ =>
      safe_statement h.2.2.1 t).bind fun t blocks _ hblocks => ?_
    refine (safe_condition h.2.1).bind fun t₁ v ht₁ hv => ?_
    refine .read .requireScript fun _ _ _ => .read (.ofExcept _) fun c _ hc => ?_
    have hc := Value.yields_logicalNot (lenient_atHand w t₁) hv.1 hv.2 trivial c
      (ofExcept_ok.mp hc).1
    have hloop : (Value.op .repeatUntil (c :: blocks)).Every (atHand w t₁) :=
      every_block (.frame rfl) ⟨hc, hblocks.mono ht₁.grows⟩
    exact (safe_emit hloop).bind fun _ _ _ _ => safe_exitScope
  | giveBack pos value =>
    exact (safe_moveTo pos).bind fun _ _ _ _ => safe_giveBack h
  | shared | function | hat =>
    exact (safe_moveTo _).bind fun _ _ _ _ => .fault
  | bare words =>
    exact .fault
  | malformed pos part f =>
    exact (safe_moveTo pos).bind fun _ _ _ _ => .fault

theorem safe_statements (h : w.Literal (Stmt.nodesAll stmts)) (s : BuildState) :
    Steady w own s (statements stmts) := by
  cases stmts with
  | nil =>
    rw [statements]
    exact .pure trivial
  | cons stmt rest =>
    rw [statements]
    simp only [Stmt.nodesAll, Terms.literal_append] at h
    exact (safe_statement h.1 s).bind fun t _ _ _ => safe_statements h.2 t

end

theorem safe_script (ownScope : Bool) (h : w.Literal (Stmt.nodesAll body)) :
    SafeFor w own s (script ownScope body) fun t blocks => EveryAll (atHand w t) blocks :=
  safe_inScript fun t _ => safe_statements h t

end

section

theorem safe_modifyTarget (hname : ∀ t, (f t).name = t.name) (hdata : ∀ t, dataOf (f t) = dataOf t)
    (hwritten : ∀ t, ∀ script ∈ (f t).written, script ∈ t.written ∨ Composed (atHand w s) script) :
    Steady w own s (modifyTarget own f) := by
  intro u s' hs h
  obtain rfl := modifyTarget_ok.mp h
  have hgrows : ∀ t, dataOf t ⊆ dataOf (f t) := fun t => by rw [hdata t]; exact List.Subset.refl _
  refine ⟨hs.lasts_draft rfl (Project.grows_modify _ _ hgrows) ?_ rfl, trivial⟩
  refine hs.draft.modify hname hgrows (fun t data hmem => .inl (hdata t ▸ hmem))
    fun t _ script hscript => ?_
  rw [← hs.place]
  exact hwritten t script hscript

theorem safe_addShared (target : Expr) (type : Option TypeSet) (hvalue : w.Literal value.nodes) :
    Steady w own s (addShared target type value) := by
  have hstore : ∀ t v, Steady w own t (storeShared target type v) := by
    intro t v
    refine .read (.ofExcept _) fun name _ _ => ?_
    cases type with
    | none => exact .fault
    | some type => exact (safe_addVariable).bind fun _ _ _ _ => .pure trivial
  have hstored : ∀ (t : BuildState) (v : Value) (computed : Bool), Steady w own t (do
      if computed then
        moveTo (← ofExcept value.position)
        reject .computedLocal
      storeShared target type v) := by
    intro t v computed
    cases computed with
    | false => exact hstore t v
    | true =>
      refine .read (.ofExcept _) fun p _ _ => (safe_moveTo p).bind fun t₁ _ _ _ => ?_
      exact Safe.bind (.reject : Steady w own t₁ _)
        fun t₂ _ _ _ => hstore t₂ v
  cases value with
  | truth b =>
    exact Safe.bind (.pure trivial : Steady w own s (pure (Value.bool b)))
      fun t v _ _ => hstored t v _
  | _ => exact (safe_expression hvalue).bind fun t v _ _ => hstored t v _

theorem safe_shareVariable (h : w.Literal stmt.nodes) : Steady w own s (shareVariable stmt) := by
  cases stmt with
  | shared pos target type value =>
    simp only [Stmt.nodes, Terms.literal_append] at h
    exact safe_addShared target type h.2
  | declare pos target type value constant =>
    simp only [Stmt.nodes, Terms.literal_append] at h
    have hvalue : w.Literal (value.getD (.value .null)).nodes := by
      cases value with
      | some e => exact h.2
      | none => simp [Terms.Literal]
    exact safe_addShared target (some type) hvalue
  | assign pos target value =>
    simp only [Stmt.nodes, Terms.literal_append] at h
    exact safe_addShared target none h.2
  | _ => exact .fault

theorem safe_copyParameters (label : String) (index : Nat) (names : List String) (s : BuildState) :
    SafeFor w own s (copyParameters label index names)
      fun t blocks => EveryAll (atHand w t) blocks := by
  induction names generalizing index s with
  | nil => exact .pure trivial
  | cons name rest ih =>
    refine (safe_addVariable).bind fun t d _ hd => ?_
    obtain ⟨howns, rfl⟩ := hd
    have hcopy : ∀ parameter : Value, parameter.Every (atHand w t) →
        parameter.type? = .ok (some (.typed .general)) →
        (Value.op .setVariable [.data (declaredData own.isSprite s.frame.currentScope name .general
          false), parameter]).Every (atHand w t) := fun parameter hparameter htype =>
      every_block (.set howns.mem (.inl rfl) nofun ⟨.general, .general, rfl, htype, rfl⟩)
        ⟨howns.atHand, hparameter, trivial⟩
    refine (ih (index + 1) t).bind fun t₁ blocks ht₁ hblocks => .pure ⟨?_, hblocks⟩
    exact (hcopy (.parameter index label) trivial rfl).mono ht₁.grows

theorem outputName_ne_clone :
    (if sprite = true then "fo_" else "bfo_") ++ function ≠ cloneData.name := by
  intro heq
  have hletters := congrArg String.toList heq
  cases sprite <;> simp [cloneData, String.toList_append] at hletters

theorem safe_addOutput? (name : String) (returns : Option TypeSet) :
    SafeFor w own s (addOutput? name returns)
      fun t output => ∀ d, output = some d → Settable (atHand w t) d := by
  cases returns with
  | none => exact .pure fun d hd => by cases hd
  | some type =>
    refine .map some (.read .inSprite fun sprite hs hsprite => ?_)
    obtain ⟨rfl, -⟩ := inSprite_ok.mp hsprite
    refine fun d s' hs h => ?_
    obtain ⟨hlasts, hmem, hdata⟩ := safe_addData_stage outputName_ne_clone _ _ _ d s' hs h
    refine ⟨hlasts, fun data hdata' => ?_⟩
    obtain rfl := Option.some.inj hdata'
    have hmem := Project.dataAt_of_stage hmem s'.frame.place
    have hname : isOutputName d.name = true := by
      rw [hdata]
      cases s.frame.place <;> simp [isOutputName, Text.beginsWith, Place.isSprite]
    exact ⟨⟨Project.has_of_mem hmem, hlasts.holds.draft.kinded hmem⟩, fun v => .result hmem hname⟩

theorem safe_setFunction (name : String) (hf : Usable (atHand w s) f) :
    Steady w own s (setFunction name f) := by
  refine safe_modifyFrame (fun _ => rfl) fun h => ⟨?_, h.clone, h.unfinished, h.pending⟩
  exact Assoc.forall_put hf h.functions

theorem safe_building (name : String) :
    Steady w own s (modifyFrame fun f => { f with building := name }) :=
  safe_modifyFrame (fun _ => rfl) fun h => ⟨h.functions, h.clone, h.unfinished, h.pending⟩

theorem safe_openFunction :
    SafeFor w own s (openFunction returns name parameters warp) fun t made =>
      EveryAll (atHand w t) made.1 ∧ ∀ d, made.2 = some d → Settable (atHand w t) d := by
  refine .get_bind fun hs => ?_
  rw [hs.place]
  have hblock : Steady w own s (modifyTarget own
      (·.addCustom ⟨blockLabel name parameters.length, warp, none⟩)) := by
    refine safe_modifyTarget (fun _ => rfl) (fun _ => rfl) fun t script hscript => ?_
    simpa [Target.written, Target.addCustom] using Or.inl hscript
  refine hblock.bind fun t _ _ _ => safe_enterScope.bind fun t₁ _ _ _ => ?_
  refine (safe_copyParameters _ _ _ t₁).bind fun t₂ copies _ hcopies => ?_
  refine (safe_addOutput? name returns).bind fun t₃ output ht₃ houtput => ?_
  refine (safe_setFunction name ⟨houtput, fun _ h => by cases h⟩).bind fun t₄ _ ht₄ _ => ?_
  refine (safe_building name).bind fun t₅ _ ht₅ _ => .pure ⟨?_, fun d hd => ?_⟩
  · exact ((hcopies.mono ht₃.grows).mono ht₄.grows).mono ht₅.grows
  · exact ((houtput d hd).mono ht₄.grows).mono ht₅.grows

theorem mem_written_setScript {target : Target} {blocks script : List Value}
    (h : script ∈ (target.setScript index blocks).written) :
    script ∈ target.written ∨ script = blocks := by
  rcases List.mem_append.mp h with h | h
  · exact .inl (List.mem_append_left _ h)
  · obtain ⟨c, hc, hscript⟩ := List.mem_filterMap.mp h
    obtain ⟨i, hi⟩ := List.mem_iff_getElem?.mp hc
    rw [Target.setScript, List.getElem?_modify] at hi
    obtain ⟨before, hbefore, rfl⟩ := Option.map_eq_some_iff.mp hi
    split at hscript
    · exact .inr (Option.some.inj hscript).symm
    · exact .inl (List.mem_append_right _
        (List.mem_filterMap.mpr ⟨before, List.mem_of_getElem? hbefore, hscript⟩))

theorem safe_closeFunction (hname : w.Calls own (blockLabel name parameters) parameters)
    (houtput : ∀ d, output = some d → Settable (atHand w s) d)
    (hblocks : EveryAll (atHand w s) blocks) :
    Steady w own s (closeFunction own index name parameters output blocks) := by
  refine (safe_building "").bind fun t _ ht _ => ?_
  have hscript : Steady w own t (modifyTarget own (·.setScript index blocks)) := by
    refine safe_modifyTarget (fun _ => rfl) (fun _ => rfl) fun target own hown => ?_
    rcases mem_written_setScript hown with hold | rfl
    · exact .inl hold
    · exact .inr (.plain (hblocks.mono ht.grows))
  refine hscript.bind fun t₁ _ ht₁ _ => ?_
  refine (safe_setFunction name ⟨fun d hd => ?_, ?_⟩).bind fun _ _ _ _ => safe_exitScope
  · exact ((houtput d hd).mono ht.grows).mono ht₁.grows
  · rintro _ ⟨⟩ arguments hcount
    rw [atHand, ht₁.holds.place, Project.Supplies, hcount]
    exact hname

theorem safe_addFunction (h : w.Literal (Stmt.nodesAll body))
    (hname : w.Calls own (blockLabel name parameters.length) parameters.length) :
    Steady w own s (addFunction returns name parameters warp body) := by
  intro u s' hs hrun
  rw [addFunction_eq, hs.place] at hrun
  suffices hsafe : Steady w own s _ from hsafe u s' hs hrun
  refine (safe_openFunction).bind fun t made _ hmade => ?_
  refine (safe_script false h).bind fun t₁ blocks ht₁ hblocks => ?_
  refine safe_closeFunction hname (fun d hd => (hmade.2 d hd).mono ht₁.grows) ?_
  exact everyAll_append.mpr ⟨hmade.1.mono ht₁.grows, hblocks⟩

theorem safe_functionOf (h : w.Literal stmt.nodes) (hknows : w.Knows own body)
    (hstmt : stmt ∈ body) : Steady w own s (functionOf stmt) := by
  cases stmt with
  | function pos returns name parameters warp inner =>
    exact safe_addFunction h (hknows _ _ ⟨_, _, _, _, _, _, hstmt, rfl, rfl⟩)
  | _ => exact .fault

theorem safe_addPending {script : List Value} (h : Composed (atHand w s) script) :
    Steady w own s (addPending script) :=
  safe_modifyFrame (fun _ => rfl) fun hframe =>
    ⟨hframe.functions, hframe.clone, hframe.unfinished, fun own hown => by
      rcases List.mem_append.mp hown with hown | hown
      · exact hframe.pending own hown
      · exact List.mem_singleton.mp hown ▸ h⟩

/-- A message is taken into a variable of any type, or it is not asked for. -/
theorem safe_receiveMessage (hmessage : IsMessage w s message) :
    SafeFor w own s (receiveMessage name message) fun t setter => setter = [] ∨
      ∃ d : Data, setter = [.op .setVariable [.data d, .data message]] ∧
        d.type = .typed .general ∧ d.isList = false ∧
        atHand w t (.data d) ∧ atHand w t (.data message) := by
  unfold receiveMessage
  split
  · exact .pure (.inl rfl)
  · exact .pure (.inl rfl)
  · refine (safe_addVariable).bind fun t d ht hd => .pure (.inr ?_)
    obtain ⟨howns, rfl⟩ := hd
    exact ⟨_, rfl, rfl, rfl, howns.atHand, ht.grows _ hmessage.atHand⟩

section

variable (harguments : w.Literal (Expr.nodesAll arguments)) (hbody : w.Literal (Stmt.nodesAll body))

include harguments hbody

theorem safe_addKeyRelease : Steady w own s (addKeyRelease arguments body) := by
  unfold addKeyRelease
  split
  · exact .fault
  · simp only [Expr.nodesAll, Terms.literal_append] at harguments
    refine (safe_expression harguments.1).bind fun t key _ hkey => ?_
    refine (safe_script true hbody).bind fun t₁ blocks ht₁ hblocks => safe_addPending ?_
    have hkey := hkey.mono ht₁.grows
    have hpressed : (Value.op .keyPressed [key]).Every (atHand w t₁) :=
      every_block (.frame rfl) ⟨hkey, trivial⟩
    have hreleased : (Value.op .not [.op .keyPressed [key]]).Every (atHand w t₁) :=
      every_block (.operator rfl) ⟨hpressed, trivial⟩
    exact .plain ⟨every_block (.frame rfl) ⟨hkey, trivial⟩,
      every_block (.frame rfl) ⟨hreleased, trivial⟩, hblocks⟩

theorem safe_addReceiver : Steady w own s (addReceiver arguments body) := by
  intro u s' hs h
  obtain ⟨written, rest, message, name, t, t₁, t₂, t₃, b, setter, blocks, rfl, -, hname, hb,
    henter, hsetter, hblocks, hexit⟩ := addReceiver_ok h
  simp only [Expr.nodesAll, Terms.literal_append] at harguments
  have hwritten : name.Every (atHand w s) := by
    cases written with
    | value v =>
      obtain ⟨rfl, -⟩ := pure_ok.mp hname
      exact (harguments.1 v (by simp)).mono Terms.Written.supplies
    | truth value =>
      obtain ⟨rfl, -⟩ := pure_ok.mp hname
      trivial
    | _ => cases hname
  obtain ⟨ht, hmessage, hown⟩ := safe_broadcastNamed hwritten b t hs hb
  obtain ⟨ht₁, -⟩ := safe_enterScope () t₁ ht.holds henter
  have hmessage : IsMessage w t₁ b.message := ⟨ht₁.grows _ hmessage.atHand, hmessage.type⟩
  obtain ⟨ht₂, hset⟩ := safe_receiveMessage hmessage setter t₂ ht₁.holds hsetter
  obtain ⟨ht₃, hbuilt⟩ := safe_script false hbody blocks t₃ ht₂.holds hblocks
  have hhat : (Value.op .whenBroadcastReceived [.broadcast b.name]).Every (atHand w t₃) :=
    every_block (.frame rfl) ⟨ht₃.grows _ (ht₂.grows _ (ht₁.grows _ hown)), trivial⟩
  have hscript : Composed (atHand w t₃)
      (.op .whenBroadcastReceived [.broadcast b.name] :: setter ++ blocks) := by
    rcases hset with rfl | ⟨d, rfl, htype, hlist, hd, hheard⟩
    · exact .plain ⟨hhat, hbuilt⟩
    · exact .receiving htype hlist hmessage.type
        ⟨hhat, ht₃.grows _ hd, ht₃.grows _ hheard, trivial⟩ hbuilt
  obtain ⟨ht₄, -⟩ := safe_addPending hscript () _ ht₃.holds (addPending_ok.mpr rfl)
  obtain ⟨hs', -⟩ := safe_exitScope () s' ht₄.holds hexit
  exact ⟨(((ht.trans ht₁).trans ht₂).trans ht₃).trans (ht₄.trans hs'), trivial⟩

theorem safe_addPlainHat (hop : op.isFrame = true) :
    Steady w own s (addPlainHat op arguments body) := by
  refine (safe_expressions harguments).bind fun t values _ hvalues => ?_
  refine .read (.ofExcept _) fun hat _ hhat => ?_
  have hhat := yields_apply (P := atHand w t) (.frame hop) hvalues hat (ofExcept_ok.mp hhat).1
  exact (safe_script true hbody).bind fun t₁ blocks ht₁ hblocks =>
    safe_addPending (.plain ⟨hhat.mono ht₁.grows, hblocks⟩)

end

/-- What starts a script sets and changes nothing. -/
theorem isFrame_of_hats (h : Builtins.hats.resolve event = some (.entry op)) :
    op.isFrame = true := by
  have hall : (Builtins.hats.entries.all Opcode.isFrame) = true := by decide
  exact List.all_eq_true.mp hall op (NameTable.mem_entries_of_resolve h)

theorem safe_hatOf (h : w.Literal stmt.nodes) : Steady w own s (hatOf stmt) := by
  cases stmt with
  | hat pos event arguments body =>
    simp only [Stmt.nodes, Terms.literal_append] at h
    refine (safe_moveTo pos).bind fun t _ _ _ => ?_
    cases event with
    | attr place object name =>
      rw [addHat]
      split
      · exact safe_addKeyRelease h.2.1 h.2.2
      · split
        · exact safe_addReceiver h.2.1 h.2.2
        · rename_i hop
          exact safe_addPlainHat h.2.1 h.2.2 (isFrame_of_hats hop)
        · exact .reject
    | _ => exact .fault
  | malformed pos part f => exact (safe_moveTo pos).bind fun _ _ _ _ => .fault
  | _ => exact .fault

theorem literal_of_mem (h : w.Literal (Stmt.nodesAll body))
    (hstmt : stmt ∈ body) : w.Literal stmt.nodes := by
  induction body with
  | nil => cases hstmt
  | cons first rest ih =>
    simp only [Stmt.nodesAll, Terms.literal_append] at h
    rcases List.mem_cons.mp hstmt with rfl | hstmt
    · exact h.1
    · exact ih h.2 hstmt

theorem safe_target (h : w.Literal (Stmt.nodesAll body)) (hknows : w.Knows own body) :
    Steady w own s (target body) := by
  have hpart : ∀ (part : Part), ∀ stmt ∈ ofPart part body,
      w.Literal stmt.nodes :=
    fun part stmt hstmt => literal_of_mem h (List.mem_filter.mp hstmt).1
  refine .read readOnly_checkParts fun _ _ _ => ?_
  refine Safe.bind (.forM fun stmt hstmt _ _ => safe_shareVariable (hpart .shared stmt hstmt))
    fun _ _ _ _ => (safe_debug).bind fun _ _ _ _ => ?_
  refine Safe.bind (.forM fun stmt hstmt _ _ => safe_functionOf (hpart .function stmt hstmt)
      hknows (List.mem_filter.mp hstmt).1) fun _ _ _ _ => (safe_debug).bind fun _ _ _ _ => ?_
  refine Safe.bind (.forM fun stmt hstmt _ _ => safe_hatOf (hpart .hat stmt hstmt))
    fun t₄ _ _ _ => (safe_debug).bind fun t₅ _ _ _ => .get_bind fun ht₅ => ?_
  simp only [ht₅.place]
  refine .forM fun script hscript t₆ ht₆ => ?_
  refine safe_modifyTarget (fun _ => rfl) (fun _ => rfl) fun target own hown => ?_
  have hnew : own ∈ target.written ∨ own = script := by
    simp only [Target.written, Target.addScript, List.mem_append, List.mem_singleton] at hown ⊢
    tauto
  refine hnew.imp_right fun heq => ?_
  exact heq ▸ (ht₅.frame.pending script hscript).mono ht₆.grows

end

end BlockScript.Build
