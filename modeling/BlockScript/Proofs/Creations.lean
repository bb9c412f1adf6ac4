import BlockScript.Proofs.CloneTests
import BlockScript.Proofs.SpriteEffects

/-!
Where variables come from. Every variable or list that building creates has a reason: a global
of a setup, a name in a script, the result of a function, the message of a broadcast, or the need
to tell clones apart. What a step creates is a log of such creations, and the log says what is
added to the targets, to their tables and to the globals. The reasons that a script names can be
read off its statements, and so can whether clones are to be told apart, so the log of a target is
known before the target is built, but for the messages.
-/
namespace BlockScript

inductive Reason
  | global (name : String) (type : TypeSet)
  /-- A variable that a script names: it declares it, or takes it as a parameter or message. -/
  | named (own : Place) (name : String) (type : TypeSet) (constant : Bool)
  | output (own : Place) (function : String) (type : TypeSet)
  | message (text : String)
  /-- What tells clones from the sprite they were made of. -/
  | cloneFlag (own : Place)
  deriving DecidableEq

namespace Build

/-- The variables and lists of a target. -/
def dataOf (t : Target) : List Data := t.data.map Datum.data

/-- The variable that a setup creates for a global. -/
def globalData (name : String) (type : TypeSet) : Data :=
  ⟨globalName name, DataType.typed type == .typed .ofList, .typed type, true⟩

/-- The variable that takes the result of a function. -/
def outputData (sprite : Bool) (function : String) (type : TypeSet) : Data :=
  ⟨(if sprite then "fo_" else "bfo_") ++ function, DataType.typed type == .typed .ofList,
    .typed type, true⟩

end Build

open Build

namespace Reason

/-- The target that the variable is created on. -/
def place : Reason → Place
  | named own _ _ _ | cloneFlag own => own
  | global _ _ | output _ _ _ | message _ => .stage

/-- The variables that a reason can lead to. They differ in nothing but the scope. -/
def Makes : Reason → Data → Prop
  | global name type, d => d = globalData name type
  | named own name type constant, d =>
    ∃ scope, d = declaredData own.isSprite scope name type constant
  | output own function type, d => d = outputData own.isSprite function type
  | message text, d => d = (Broadcast.called text).message
  | cloneFlag own, d => own.isSprite = true ∧ d = cloneData

/-- Whether the variable is recorded in the table of its target. -/
def isFiled : Reason → Bool
  | named _ _ _ _ | output _ _ _ => true
  | global _ _ | message _ | cloneFlag _ => false

/-- Whether the variable is recorded among the globals. -/
def isGlobal : Reason → Bool
  | global _ _ | message _ => true
  | named _ _ _ _ | output _ _ _ | cloneFlag _ => false

/-- Whether a setup or a script says that there is such a variable. -/
def isStated : Reason → Bool
  | global _ _ | named _ _ _ _ | output _ _ _ => true
  | message _ | cloneFlag _ => false

def isClone : Reason → Bool
  | cloneFlag _ => true
  | _ => false

/-- Whether a reason is no matter of another target. -/
def IsOf (own : Place) : Reason → Prop
  | named place _ _ _ | output place _ _ | cloneFlag place => place = own
  | global _ _ | message _ => True

theorem IsOf.place {own : Place} {o : Reason} (h : o.IsOf own) :
    o.place = own ∨ o.place = .stage := by
  cases o with
  | named | cloneFlag => exact .inl h
  | global | output | message => exact .inr rfl

end Reason

structure Creation where
  reason : Reason
  data : Data
  made : reason.Makes data

/-- No variable that is recorded in a table is called as the one that tells clones apart. -/
theorem Creation.name_ne (c : Creation) (h : c.reason.isFiled = true) :
    c.data.name ≠ cloneData.name := by
  have hmade := c.made
  cases hreason : c.reason with
  | named own name type constant =>
    rw [hreason] at hmade
    obtain ⟨scope, hdata⟩ := hmade
    rw [hdata]
    exact fun heq => not_isFullName_clone ⟨_, _, _, heq.symm⟩
  | output own function type =>
    rw [hreason] at hmade
    rw [hmade]
    intro heq
    have hlist := congrArg String.toList heq
    cases hsprite : own.isSprite <;> simp [outputData, hsprite, cloneData] at hlist
  | _ =>
    rw [hreason] at h
    cases h

namespace Build

open Text

variable {s s' t : BuildState} {d d' d₁ : Draft} {own : Place} {log log' : List Creation}

section

/-- What a log creates on a target. -/
def createdAt (place : Place) (log : List Creation) : List Data :=
  (log.filter fun c => c.reason.place = place).map Creation.data

/-- Whether a creation is recorded in the table of a target. -/
def filedAt (place : Place) (c : Creation) : Bool := c.reason.isFiled && c.reason.place = place

/-- A table in which the variables of a log are recorded by their names. -/
def record (log : List Creation) (table : Assoc String Data) : Assoc String Data :=
  log.foldl (fun table c => Assoc.put c.data.name c.data table) table

@[simp] theorem createdAt_nil (place : Place) : createdAt place [] = [] := rfl

theorem createdAt_append (place : Place) (log log' : List Creation) :
    createdAt place (log ++ log') = createdAt place log ++ createdAt place log' := by
  simp [createdAt]

theorem record_append (log log' : List Creation) (table : Assoc String Data) :
    record (log ++ log') table = record log' (record log table) := List.foldl_append

/-- A name that no variable of the log has. -/
theorem get?_record_of_ne (h : ∀ c ∈ log, c.data.name ≠ key) (table : Assoc String Data) :
    Assoc.get? key (record log table) = Assoc.get? key table := by
  induction log generalizing table with
  | nil => rfl
  | cons c rest ih =>
    obtain ⟨hfirst, hrest⟩ := List.forall_mem_cons.mp h
    exact (ih hrest _).trans (Assoc.get?_put_of_ne (Ne.symm hfirst) _ _)

/-- A name that a variable of the log has is looked up to the last one of that name. -/
theorem get?_record (h : ∃ c ∈ log, c.data.name = key) (table : Assoc String Data) :
    ∃ c ∈ log, c.data.name = key ∧ Assoc.get? key (record log table) = some c.data := by
  induction log generalizing table with
  | nil =>
    obtain ⟨c, hc, -⟩ := h
    cases hc
  | cons first rest ih =>
    by_cases hlater : ∃ c ∈ rest, c.data.name = key
    · obtain ⟨c, hc, hname, hget⟩ := ih hlater (Assoc.put first.data.name first.data table)
      exact ⟨c, List.mem_cons_of_mem _ hc, hname, hget⟩
    · have hname : first.data.name = key := by
        obtain ⟨c, hc, hname⟩ := h
        rcases List.mem_cons.mp hc with rfl | hc
        · exact hname
        · exact absurd ⟨c, hc, hname⟩ hlater
      refine ⟨first, List.mem_cons_self, hname, ?_⟩
      have hnew : ∀ c ∈ rest, c.data.name ≠ key := fun c hc hsame => hlater ⟨c, hc, hsame⟩
      have hlast := get?_record_of_ne hnew (Assoc.put first.data.name first.data table)
      refine hlast.trans ?_
      rw [hname]
      exact Assoc.get?_put_self _ _ _

/-- The reasons that are stated in a setup or a script. -/
def statedIn (log : List Creation) : List Reason := (log.map Creation.reason).filter Reason.isStated

theorem statedIn_append (log log' : List Creation) :
    statedIn (log ++ log') = statedIn log ++ statedIn log' := by
  simp [statedIn]

end

/-- A sprite as it is listed, whatever its table holds. -/
def listed (item : String × SpriteEntry) : String × SpriteEntry :=
  (item.1, { item.2 with locals := [] })

/-- What tells clones apart is recorded in no table of a sprite. -/
def Unflagged (d : Draft) : Prop :=
  ∀ item ∈ d.sprites, Assoc.get? cloneData.name item.2.locals = none

theorem Unflagged.locals? (h : Unflagged d) (htable : d.locals? (.sprite i) = some table) :
    Assoc.get? cloneData.name table = none := by
  simp only [Draft.locals?, Option.bind_eq_bind, Option.bind_eq_some_iff] at htable
  obtain ⟨target, -, entry, hentry, hlocals⟩ := htable
  cases hlocals
  exact h _ (Assoc.mem_of_get? hentry)

theorem Unflagged.setLocals (h : Unflagged d) (htable : d.locals? place = some table)
    (hname : name ≠ cloneData.name) (data : Data) :
    Unflagged (d.setLocals place (Assoc.put name data table)) := by
  cases place with
  | stage => exact h
  | sprite i =>
    have hnew : Assoc.get? cloneData.name (Assoc.put name data table) = none :=
      (Assoc.get?_put_of_ne hname.symm _ _).trans (h.locals? htable)
    simp only [Draft.setLocals]
    split
    · split
      · intro item hitem
        rcases Assoc.mem_put hitem with rfl | hitem
        · exact hnew
        · exact h item hitem
      · exact h
    · exact h

/-- What building a target does to the variables of a draft: all that is new is in the log. -/
structure Creates (own : Place) (log : List Creation) (d d' : Draft) : Prop where
  data : ∀ place, (d'.project.target? place).map dataOf =
    ((d.project.target? place).map dataOf).map (· ++ createdAt place log)
  tables : ∀ place, place = own ∨ place = .stage →
    d'.locals? place = (d.locals? place).map (record (log.filter (filedAt place)))
  globals : d'.globals = record (log.filter (·.reason.isGlobal)) d.globals
  others : ∀ place, place ≠ own → place ≠ .stage →
    d'.project.target? place = d.project.target? place
  entries : own = .stage → d'.sprites = d.sprites
  listing : d'.sprites.map listed = d.sprites.map listed
  unflagged : Unflagged d → Unflagged d'
  filed : ∀ c ∈ log, c.reason.isFiled = true →
    (c.reason.place = own ∨ c.reason.place = .stage) ∧ (d.locals? c.reason.place).isSome = true

namespace Creates

/-- A change that concerns no variable. -/
theorem of_same (hdata : ∀ place, (d'.project.target? place).map dataOf =
      (d.project.target? place).map dataOf)
    (hnames : d'.project.sprites.map Target.name = d.project.sprites.map Target.name)
    (hothers : ∀ place, place ≠ own → place ≠ .stage →
      d'.project.target? place = d.project.target? place)
    (hsprites : d'.sprites = d.sprites) (hstage : d'.stageLocals = d.stageLocals)
    (hglobals : d'.globals = d.globals) : Creates own [] d d' where
  data place := by
    rw [hdata]
    cases d.project.target? place <;> simp
  tables place _ := by
    rw [locals?_congr hsprites hnames hstage]
    exact Option.map_id'.symm
  globals := hglobals
  others := hothers
  entries _ := hsprites
  listing := by rw [hsprites]
  unflagged h := by rwa [Unflagged, hsprites]
  filed c hc := by cases hc

theorem of_project (hproject : d'.project = d.project) (hsprites : d'.sprites = d.sprites)
    (hstage : d'.stageLocals = d.stageLocals) (hglobals : d'.globals = d.globals) :
    Creates own [] d d' :=
  .of_same (fun place => by rw [hproject]) (by rw [hproject]) (fun place _ _ => by rw [hproject])
    hsprites hstage hglobals

theorem refl (own : Place) (d : Draft) : Creates own [] d d := .of_project rfl rfl rfl rfl

theorem trans (h : Creates own log d d₁) (h' : Creates own log' d₁ d') :
    Creates own (log ++ log') d d' where
  data place := by
    rw [h'.data, h.data, Option.map_map, createdAt_append]
    congr 1
    funext ds
    exact List.append_assoc _ _ _
  tables place hplace := by
    rw [h'.tables place hplace, h.tables place hplace, Option.map_map, List.filter_append]
    congr 1
    funext table
    exact (record_append _ _ table).symm
  globals := by rw [h'.globals, h.globals, List.filter_append, record_append]
  others place hown hstage := (h'.others place hown hstage).trans (h.others place hown hstage)
  entries hown := (h'.entries hown).trans (h.entries hown)
  listing := h'.listing.trans h.listing
  unflagged hd := h'.unflagged (h.unflagged hd)
  filed c hc hfiled := by
    rcases List.mem_append.mp hc with hc | hc
    · exact h.filed c hc hfiled
    · obtain ⟨hplace, hsome⟩ := h'.filed c hc hfiled
      rw [h.tables _ hplace, Option.isSome_map] at hsome
      exact ⟨hplace, hsome⟩

/-- A change of the target itself or of the stage that leaves its name and its variables as
they are. -/
theorem modifyTarget (hplace : place = own ∨ place = .stage) (d : Draft)
    (hf : ∀ t, (f t).name = t.name ∧ dataOf (f t) = dataOf t) :
    Creates own [] d { d with project := d.project.modify place f } := by
  refine .of_same ?_ (names_modify _ _ _ fun t => (hf t).1) ?_ rfl rfl rfl
  · intro other
    rw [Project.target?_modify]
    split
    · rename_i hsame
      subst hsame
      cases d.project.target? other with
      | none => rfl
      | some t => exact congrArg some (hf t).2
    · rfl
  · intro other hown hstage
    rw [Project.target?_modify, if_neg]
    rintro rfl
    exact hplace.elim hown hstage

end Creates

/-- The table of the stage and that of a sprite are apart. -/
theorem locals?_setLocals_of_ne (hne : other ≠ place) (hstage : place = .stage ∨ other = .stage)
    (new : Assoc String Data) : (d.setLocals place new).locals? other = d.locals? other := by
  cases place with
  | stage =>
    cases other with
    | stage => exact absurd rfl hne
    | sprite k => rfl
  | sprite i =>
    obtain rfl : other = .stage := hstage.resolve_left (by simp)
    simp only [Draft.setLocals]
    split
    · split <;> rfl
    · rfl

/-- To change an entry of a table is no matter for what does not look at the change. -/
theorem map_put {κ υ γ : Type} [BEq κ] [LawfulBEq κ] {key : κ} {value old : υ}
    {table : Assoc κ υ} {f : κ × υ → γ} (hold : Assoc.get? key table = some old)
    (hf : f (key, value) = f (key, old)) : (Assoc.put key value table).map f = table.map f := by
  induction table with
  | nil => cases hold
  | cons entry rest ih =>
    obtain ⟨own, v⟩ := entry
    simp only [Assoc.put, Assoc.get?, List.lookup_cons] at hold ih ⊢
    by_cases hkey : own = key
    · subst hkey
      simp only [BEq.rfl] at hold
      obtain rfl := Option.some.inj hold
      simp [hf]
    · rw [beq_false_of_ne (Ne.symm hkey)] at hold
      simp [hkey, ih hold]

theorem listing_setLocals (d : Draft) (place : Place) (new : Assoc String Data) :
    (d.setLocals place new).sprites.map listed = d.sprites.map listed := by
  unfold Draft.setLocals
  split
  · rfl
  · split
    · split
      · rename_i hentry
        exact map_put hentry rfl
      · rfl
    · rfl

/-- A variable is added to the target of its reason and recorded where its reason says. -/
theorem Creates.add (value : Value) (hplace : c.reason.place = own ∨ c.reason.place = .stage)
    (hproject : d'.project = d.project.modify c.reason.place (·.addDatum ⟨c.data, value⟩))
    (htables : ∀ place, place = own ∨ place = .stage →
      d'.locals? place = (d.locals? place).map (record ([c].filter (filedAt place))))
    (hglobals : d'.globals = record ([c].filter (·.reason.isGlobal)) d.globals)
    (hentries : own = .stage → d'.sprites = d.sprites)
    (hlisting : d'.sprites.map listed = d.sprites.map listed)
    (hunflagged : Unflagged d → Unflagged d')
    (hfiled : c.reason.isFiled = true → (d.locals? c.reason.place).isSome = true) :
    Creates own [c] d d' where
  data place := by
    rw [hproject, Project.target?_modify]
    by_cases hsame : place = c.reason.place
    · subst hsame
      rw [if_pos rfl]
      cases d.project.target? c.reason.place with
      | none => rfl
      | some t => simp [createdAt, dataOf, Target.addDatum]
    · rw [if_neg hsame]
      have hnone : createdAt place [c] = [] := by simp [createdAt, Ne.symm hsame]
      rw [hnone]
      cases d.project.target? place <;> simp
  tables := htables
  globals := hglobals
  others place hown hstage := by
    rw [hproject, Project.target?_modify, if_neg]
    rcases hplace with h | h
    · rw [h]
      exact hown
    · rw [h]
      exact hstage
  entries := hentries
  listing := hlisting
  unflagged := hunflagged
  filed c' hc' := by
    obtain rfl := List.mem_singleton.mp hc'
    exact fun h => ⟨hplace, hfiled h⟩

/-- Creating a variable where its reason says. -/
theorem addData_creates {c : Creation} {name : String} {type : DataType} {value : Value}
    {constant shared : Bool} {data : Data}
    (hdata : c.data = ⟨name, type == .typed .ofList, type, constant⟩)
    (hplace : c.reason.place = own ∨ c.reason.place = .stage) (hkind : isGlobalName name = shared)
    (hglobal : c.reason.isGlobal = shared) (hfiled : c.reason.isFiled = !shared)
    (h : addData c.reason.place name type value constant s = .ok data s') :
    data = c.data ∧ s'.frame = s.frame ∧ Creates own [c] s.draft s'.draft := by
  have hlocals := fun place => locals?_modify s.draft c.reason.place place
    (f := (·.addDatum ⟨⟨name, type == .typed .ofList, type, constant⟩, value⟩)) fun _ => rfl
  subst hkind
  obtain ⟨rfl, hframe, ⟨hkind, hdraft⟩ | ⟨hkind, table, htable, hdraft⟩⟩ := addData_ok h
  · rw [hkind] at hglobal hfiled
    refine ⟨hdata.symm, hframe, .add value hplace ?_ ?_ ?_ ?_ ?_ ?_ (by simp [hfiled])⟩
    · rw [hdraft, hdata]
    · intro place _
      rw [hdraft]
      have hnone : [c].filter (filedAt place) = [] := by simp [filedAt, hfiled]
      rw [hnone]
      exact (hlocals place).trans Option.map_id'.symm
    · rw [hdraft]
      simp [hglobal, record, hdata]
    · intro _
      rw [hdraft]
    · rw [hdraft]
    · rw [hdraft]
      exact id
  · rw [hkind] at hglobal hfiled
    refine ⟨hdata.symm, hframe, .add value hplace ?_ ?_ ?_ ?_ ?_ ?_ fun _ => by rw [htable]; rfl⟩
    · rw [hdraft, Draft.setLocals_eq, hdata]
    · intro place hown
      rw [hdraft]
      by_cases hsame : place = c.reason.place
      · subst hsame
        rw [locals?_setLocals ((hlocals _).trans htable), htable]
        simp [filedAt, hfiled, record, hdata]
      · have hnone : [c].filter (filedAt place) = [] := by simp [filedAt, Ne.symm hsame]
        rw [hnone, locals?_setLocals_of_ne hsame ?_, hlocals]
        · exact Option.map_id'.symm
        · rcases hplace with h | h
          · exact .inr (hown.resolve_left (h ▸ hsame))
          · exact .inl h
    · rw [hdraft]
      have hnone : [c].filter (·.reason.isGlobal) = [] := by simp [hglobal]
      rw [hnone, Draft.setLocals_eq]
      rfl
    · intro hown
      rw [hdraft]
      have hstage : c.reason.place = .stage := by
        rcases hplace with h | h
        · rw [h, hown]
        · exact h
      rw [hstage]
      rfl
    · rw [hdraft, listing_setLocals]
    · rw [hdraft]
      intro hd
      have hname : name ≠ cloneData.name := by
        have hname := c.name_ne hfiled
        rwa [hdata] at hname
      refine Unflagged.setLocals ?_ ((hlocals _).trans htable) hname _
      exact hd

/-- A step of building a target creates what its statements state, and besides that messages and
what tells clones apart. The current scope stays the innermost one. -/
structure Introduces (own : Place) (reasons : List Reason) (s s' : BuildState) : Prop where
  place : s'.frame.place = s.frame.place
  innermost : Innermost s → Innermost s'
  log : s.frame.place = own → ∃ log, Creates own log s.draft s'.draft ∧ statedIn log = reasons ∧
    (∀ c ∈ log, c.reason.IsOf own) ∧ s'.frame.cloneFlag.isSome =
      (s.frame.cloneFlag.isSome || log.any fun c => c.reason.isClone)

section

theorem Introduces.trans (h : Introduces own first s t) (h' : Introduces own second t s') :
    Introduces own (first ++ second) s s' := by
  refine ⟨h'.place.trans h.place, fun hs => h'.innermost (h.innermost hs), fun hown => ?_⟩
  obtain ⟨log, hlog, hfirst, hof, hflag⟩ := h.log hown
  obtain ⟨log', hlog', hsecond, hof', hflag'⟩ := h'.log (h.place.trans hown)
  refine ⟨log ++ log', hlog.trans hlog', ?_, List.forall_mem_append.mpr ⟨hof, hof'⟩, ?_⟩
  · rw [statedIn_append, hfirst, hsecond]
  · rw [hflag', hflag, List.any_append, Bool.or_assoc]

/-- A step that creates nothing. -/
theorem Introduces.of_creates (hplace : s'.frame.place = s.frame.place)
    (hflag : s'.frame.cloneFlag = s.frame.cloneFlag) (hscopes : Innermost s → Innermost s')
    (h : Creates s.frame.place [] s.draft s'.draft) : Introduces own [] s s' :=
  ⟨hplace, hscopes, fun hown => ⟨[], hown ▸ h, rfl, by simp, by simp [hflag]⟩⟩

theorem Introduces.of_draft (hplace : s'.frame.place = s.frame.place)
    (hflag : s'.frame.cloneFlag = s.frame.cloneFlag) (hscopes : Innermost s → Innermost s')
    (hdraft : s'.draft = s.draft) : Introduces own [] s s' :=
  .of_creates hplace hflag hscopes (by rw [hdraft]; exact .refl _ _)

instance : IsPreorder BuildState (Introduces own []) where
  refl _ := .of_draft rfl rfl id rfl
  trans _ _ _ h k := h.trans k

theorem Quiet.introduces (h : Quiet s s') : Introduces own [] s s' :=
  .of_draft (by rw [h.frame]) (by rw [h.frame]) (by simp [Innermost, h.frame]) h.draft

instance : Graded (Introduces own) where
  refl _ := .of_draft rfl rfl id rfl
  trans := .trans

theorem introduces_pure : Within (Introduces own []) (pure a : Build α) := .pure a

theorem introduces_addVariable :
    Within (Introduces own [.named own name type constant])
      (addVariable name type value constant) := by
  intro s d s' h
  rw [addVariable, get_bind_ok] at h
  let c : Creation := ⟨.named s.frame.place name type constant,
    declaredData s.frame.place.isSprite s.frame.currentScope name type constant, _, rfl⟩
  have hkind := isGlobalName_fullName s.frame.place.isSprite s.frame.currentScope name
  obtain ⟨-, hframe, hcreates⟩ := addData_creates (c := c) rfl (.inl rfl) hkind rfl rfl h
  refine ⟨by rw [hframe], by simp [Innermost, hframe], fun hown => ?_⟩
  subst hown
  exact ⟨[c], hcreates, rfl, by simp [c, Reason.IsOf], by simp [hframe, c, Reason.isClone]⟩

theorem introduces_addOutput? {returns : Option TypeSet} :
    Within (Introduces own (returns.toList.map (Reason.output own name)))
      (addOutput? name returns) := by
  cases returns with
  | none => exact introduces_pure
  | some type =>
    refine .map _ fun s d s' h => ?_
    obtain ⟨sprite, t, hsprite, h⟩ := bind_ok.mp h
    obtain ⟨rfl, rfl⟩ := inSprite_ok.mp hsprite
    let c : Creation := ⟨.output s.frame.place name type,
      outputData s.frame.place.isSprite name type, rfl⟩
    have hkind : isGlobalName ((if s.frame.place.isSprite then "fo_" else "bfo_") ++ name) = false := by
      cases s.frame.place.isSprite <;> simp [isGlobalName, beginsWith, List.isPrefixOf]
    obtain ⟨-, hframe, hcreates⟩ :=
      @addData_creates s s' s.frame.place c _ _ _ _ _ _ rfl (.inr rfl) hkind rfl rfl h
    refine ⟨by rw [hframe], by simp [Innermost, hframe], fun hown => ?_⟩
    subst hown
    exact ⟨[c], hcreates, rfl, by simp [c, Reason.IsOf], by simp [hframe, c, Reason.isClone]⟩

theorem introduces_broadcastNamed (name : Value) :
    Within (Introduces own []) (broadcastNamed name) := by
  intro s b s' h
  rcases broadcastNamed_ok h with ⟨rfl, -⟩ | ⟨text, t, -, hadd, hframe, hdraft⟩
  · exact refl _
  · let c : Creation := ⟨.message text, (Broadcast.called text).message, rfl⟩
    have hkind : isGlobalName ("br_" ++ text) = true := by
      simp [isGlobalName, beginsWith, List.isPrefixOf]
    obtain ⟨-, hstay, hcreates⟩ :=
      @addData_creates s t own c _ _ _ _ _ _ rfl (.inr rfl) hkind rfl rfl hadd
    have hregistered : Creates own [] t.draft s'.draft := by
      rw [hdraft]
      exact .of_project rfl rfl rfl rfl
    refine ⟨by rw [hframe, hstay], by simp [Innermost, hframe, hstay], fun hown =>
      ⟨[c], hcreates.trans hregistered, rfl, ?_, ?_⟩⟩
    · simp [c, Reason.IsOf]
    · simp [hframe, hstay, c, Reason.isClone]

theorem isSprite_of_cloneFlag (h : cloneFlag s = .ok v s') : s.frame.place.isSprite = true := by
  obtain ⟨sprite, t, hsprite, h⟩ := bind_ok.mp h
  obtain ⟨rfl, rfl⟩ := inSprite_ok.mp hsprite
  by_contra hstage
  rw [if_pos (by simpa using hstage)] at h
  obtain ⟨_, _, hreject, -⟩ := bind_ok.mp h
  exact reject_ok.mp hreject

theorem introduces_cloneFlag : Within (Introduces own []) cloneFlag := by
  intro s v s' h
  have hsprite := isSprite_of_cloneFlag h
  rcases (cloneFlag_ok h).1 with rfl | ⟨hflag, rfl⟩
  · exact refl _
  · refine ⟨rfl, id, fun hown => ?_⟩
    subst hown
    let c : Creation := ⟨.cloneFlag s.frame.place, cloneData, hsprite, rfl⟩
    refine ⟨[c], .add (.int 0) (.inl rfl) rfl (fun place _ => ?_) rfl (fun _ => rfl) rfl id ?_,
      rfl, ?_, ?_⟩
    · exact (locals?_modify s.draft _ place (f := (·.addDatum ⟨cloneData, .int 0⟩))
        fun _ => rfl).trans Option.map_id'.symm
    · exact fun hfiled => by cases hfiled
    · simp [c, Reason.IsOf]
    · simp [hflag, c, Reason.isClone]

theorem introduces_debug (text : String) : Within (Introduces own []) (debug text) :=
  fun _ _ _ h => (quiet_debug h).introduces

theorem introduces_moveTo (p : Position) : Within (Introduces own []) (moveTo p) :=
  fun _ _ _ h => (quiet_moveTo h).introduces

theorem introduces_enterScope : Within (Introduces own []) enterScope := by
  intro s u s' h
  obtain rfl := enterScope_ok.mp h
  exact .of_draft rfl rfl (fun _ => rfl) rfl

theorem introduces_exitScope : Within (Introduces own []) exitScope := by
  intro s u s' h
  obtain ⟨_, _, _, -, rfl⟩ := exitScope_ok.mp h
  exact .of_draft rfl rfl (fun _ => rfl) rfl

end

section

/-- A variable of the name that an expression stands for. -/
def namedBy (own : Place) (target : Expr) (type : TypeSet) (constant : Bool) : List Reason :=
  match target.plainName with
  | .ok name => [.named own name type constant]
  | .error _ => []

mutual

/-- The variables that a statement declares, at any depth and in the order in which they are
built. -/
def stated (own : Place) : Stmt → List Reason
  | .declare _ target type _ constant => namedBy own target type constant
  | .ifThen _ _ body => statedAll own body
  | .ifElse _ _ body alternative => statedAll own body ++ statedAll own alternative
  | .whileLoop _ _ body => statedAll own body
  | .forLoop _ start _ next body => stated own start ++ (statedAll own body ++ stated own next)
  | _ => []

def statedAll (own : Place) : List Stmt → List Reason
  | [] => []
  | stmt :: rest => stated own stmt ++ statedAll own rest

end

def Work.reason? (own : Place) : Work → Option Reason
  | .declare name type constant => some (.named own name type constant)
  | _ => none

mutual

/-- Expressions declare no variables. -/
theorem reasons_expr (own : Place) (e : Expr) : e.work.filterMap (Work.reason? own) = [] := by
  cases e with
  | attr pos object n =>
    rw [Expr.work]
    split <;> rfl
  | index pos target i =>
    rw [Expr.work, List.filterMap_append, reasons_expr own target, reasons_expr own i]
    rfl
  | call pos f es =>
    rw [Expr.work, List.filterMap_append, reasons_exprs own es]
    rfl
  | list es | concat _ es | arith _ _ es | compare _ _ es | logic _ _ es | unknown _ _ es =>
    exact reasons_exprs own es
  | _ => rfl

theorem reasons_exprs (own : Place) (es : List Expr) :
    (Expr.workAll es).filterMap (Work.reason? own) = [] := by
  cases es with
  | nil => rfl
  | cons e rest =>
    rw [Expr.workAll, List.filterMap_append, reasons_expr own e, reasons_exprs own rest]
    rfl

end

theorem reasons_declare (own : Place) (target : Expr) (type : TypeSet) (value : Option Expr)
    (constant : Bool) : (declareWork target type value constant).filterMap (Work.reason? own) =
      namedBy own target type constant := by
  have hvalue : ((value.map Expr.work).getD []).filterMap (Work.reason? own) = [] := by
    cases value with
    | none => rfl
    | some e => exact reasons_expr own e
  rw [declareWork, List.filterMap_append, hvalue, namedBy]
  cases target.plainName <;> rfl

mutual

theorem reasons_work (own : Place) (b : Bool) (stmt : Stmt) :
    (work b stmt).filterMap (Work.reason? own) = stated own stmt := by
  cases stmt with
  | declare pos target type value constant => exact reasons_declare own target type value constant
  | assign pos target value =>
    cases target <;> simp [work, assignWork, stated, reasons_expr]
  | update pos op target operand =>
    cases target <;> simp [work, updateWork, stated, reasons_expr]
  | giveBack pos value =>
    cases value <;> cases b <;> simp [work, stated, reasons_expr]
  | call pos f arguments =>
    rw [work, List.filterMap_append, reasons_exprs own arguments]
    rfl
  | ifThen pos c body => simp [work, stated, reasons_expr, reasons_workAll own b body]
  | ifElse pos c body alternative =>
    simp [work, stated, reasons_expr, reasons_workAll own b body, reasons_workAll own b alternative]
  | whileLoop pos c body => simp [work, stated, reasons_expr, reasons_workAll own b body]
  | forLoop pos start c next body =>
    simp [work, stated, reasons_expr, reasons_work own b start, reasons_workAll own b body,
      reasons_work own b next]
  | _ => rfl

theorem reasons_workAll (own : Place) (b : Bool) (stmts : List Stmt) :
    (workAll b stmts).filterMap (Work.reason? own) = statedAll own stmts := by
  cases stmts with
  | nil => rfl
  | cons stmt rest =>
    simp [workAll, statedAll, reasons_work own b stmt, reasons_workAll own b rest]

end

instance : Graded fun w => Introduces own (w.filterMap (Work.reason? own)) where
  refl _ := .of_draft rfl rfl id rfl
  trans h h' := by
    rw [List.filterMap_append]
    exact h.trans h'

theorem working_introduces :
    Working false fun w => Introduces own (w.filterMap (Work.reason? own)) where
  moveTo := introduces_moveTo
  emitAll blocks _ := by
    intro s u s' h
    obtain ⟨-, rfl⟩ := emitAll_ok.mp h
    exact .of_draft rfl rfl id rfl
  cloneFlag := introduces_cloneFlag
  calls _ _ := trivial
  declare _ h := introduces_addVariable _ _ _ h
  broadcast := introduces_broadcastNamed
  scope henter h hexit := by
    have hall := (introduces_enterScope _ _ _ henter).trans
      (h.trans (introduces_exitScope _ _ _ hexit))
    rwa [List.nil_append, List.append_nil] at hall
  script h _ := ⟨h.place, h.innermost, h.log⟩
  elsewhere e _ _ _ := by rw [reasons_expr]; rfl

theorem introduces_expression {d : Dialect} {e : Expr} :
    Within (Introduces own []) (expression d e) := by
  rw [← reasons_expr own e]
  exact working_introduces.expression d e

/-- Building a script creates what its body declares. -/
theorem introduces_script :
    Within (Introduces own (statedAll own body)) (script ownScope body) := by
  rw [← reasons_workAll own false body]
  exact working_introduces.inScript ownScope (working_introduces.statements body)

end

section

/-- The variable for a message that has a name. -/
def received (own : Place) (name : Option String) : List Reason :=
  (name.filter (· ≠ "")).toList.map fun name => .named own name .general false

/-- The variable for the message of a receiver. -/
def heardBy (own : Place) (event : Expr) : List Expr → List Reason
  | _ :: message :: _ =>
    if hatOpcode? event = some .whenBroadcastReceived then
      received own message.plainName.toOption
    else []
  | _ => []

/-- The variables that a statement at the top level of a script states. -/
def statedAtTop (own : Place) : Stmt → List Reason
  | .shared _ target type _ => type.toList.flatMap fun t => namedBy own target t false
  | .function _ returns name parameters _ body =>
    parameters.map (fun parameter => .named own parameter .general false) ++
      (returns.toList.map (.output own name) ++ statedAll own body)
  | .hat _ event arguments body => heardBy own event arguments ++ statedAll own body
  | _ => []

/-- The variables that the script of a target states: first those of the whole target, then
those of functions, and then those of hats. -/
def statedBy (own : Place) (body : List Stmt) : List Reason :=
  (body.filter fun stmt => stmt.part == .shared).flatMap (statedAtTop own) ++
    ((body.filter fun stmt => stmt.part == .function).flatMap (statedAtTop own) ++
      (body.filter fun stmt => stmt.part == .hat).flatMap (statedAtTop own))

theorem introduces_storeShared (target : Expr) (type : Option TypeSet) (v : Value) :
    Within (Introduces own (type.toList.flatMap fun t => namedBy own target t false))
      (storeShared target type v) := by
  intro s u s' h
  obtain ⟨name, hname, h⟩ := ofExcept_bind_ok.mp h
  cases type with
  | none => cases h
  | some type =>
    obtain ⟨d, t, hadd, h⟩ := bind_ok.mp h
    obtain ⟨-, rfl⟩ := pure_ok.mp h
    rw [Option.toList_some, List.flatMap_singleton, namedBy, hname]
    exact introduces_addVariable _ _ _ hadd

theorem introduces_addShared (target : Expr) (type : Option TypeSet) (value : Expr) :
    Within (Introduces own (type.toList.flatMap fun t => namedBy own target t false))
      (addShared target type value) := by
  have hstored : ∀ (v : Value) (computed : Bool),
      Within (Introduces own (type.toList.flatMap fun t => namedBy own target t false)) (do
        if computed then
          moveTo (← ofExcept value.position)
          reject .computedLocal
        storeShared target type v) := by
    intro v computed
    cases computed with
    | false => exact introduces_storeShared target type v
    | true =>
      intro s u s' h
      obtain ⟨p, t, -, _, t, -, h⟩ := bind_bind_ok.mp h
      obtain ⟨_, t, hreject, -⟩ := bind_ok.mp h
      cases hreject
  cases value with
  | truth b => exact .seq introduces_pure fun v => hstored v _
  | _ => exact .seq introduces_expression fun v => hstored v _

theorem introduces_shareVariable (hshared : stmt.part = .shared) :
    Within (Introduces own (statedAtTop own stmt)) (shareVariable stmt) := by
  cases stmt with
  | shared pos target type value => exact introduces_addShared target type value
  | malformed pos part f => exact .fault _
  | _ => cases hshared

theorem introduces_copyParameters {names : List String} :
    Within (Introduces own (names.map fun name => .named own name .general false))
      (copyParameters label index names) := by
  induction names generalizing index with
  | nil => exact introduces_pure
  | cons name rest ih =>
    refine .seq introduces_addVariable fun d => ?_
    exact .before ih fun blocks => .pure _

/-- A function is opened, then its body is built, and then it is closed. -/
theorem functionOf_parts (own : Place)
    (h : functionOf (.function pos returns name parameters warp body) s = .ok () s') :
    ∃ t blocks t', Introduces own (parameters.map (fun parameter => .named own parameter .general
        false) ++ returns.toList.map (.output own name)) s t ∧
      script false body t = .ok blocks t' ∧ Introduces own [] t' s' := by
  obtain ⟨t, t₁, t₂, t₃, copies, output, blocks, henter, hcopies, houtput, hbody, hexit⟩ :=
    addFunction_ok h
  have hblock : Introduces own [] s (withBlock s (blockLabel name parameters.length) warp) :=
    .of_creates rfl rfl id (.modifyTarget (.inl rfl) _ fun _ => ⟨rfl, rfl⟩)
  have hopened := hblock.trans (introduces_enterScope _ _ _ henter)
  have hcopied : Introduces own _ t t₁ := introduces_copyParameters _ _ _ hcopies
  have hnamed : Introduces own _ t₁ t₂ := introduces_addOutput? _ _ _ houtput
  have hfunction : Introduces own [] t₂ (withFunction t₂ name output) := .of_draft rfl rfl id rfl
  have hbuilt : Introduces own _ _ t₃ := introduces_script _ _ _ hbody
  have hplace : t₃.frame.place = s.frame.place :=
    hbuilt.place.trans (hnamed.place.trans (hcopied.place.trans hopened.place))
  have hscript : Introduces own [] t₃ (withScript t₃ s.frame.place (blockCount s s.frame.place)
      (copies ++ blocks) name
      ⟨output, some ⟨blockLabel name parameters.length, parameters.length⟩⟩) := by
    refine .of_creates rfl rfl id ?_
    rw [← hplace]
    exact .modifyTarget (.inl rfl) _ fun _ => ⟨rfl, rfl⟩
  refine ⟨withFunction t₂ name output, blocks, t₃, ?_, hbody,
    hscript.trans (introduces_exitScope _ _ _ hexit)⟩
  have hready := hopened.trans (hcopied.trans (hnamed.trans hfunction))
  simpa using hready

theorem introduces_functionOf (stmt : Stmt) :
    Within (Introduces own (statedAtTop own stmt)) (functionOf stmt) := by
  intro s u s' h
  cases stmt with
  | function pos returns name parameters warp body =>
    obtain ⟨t, blocks, t', hopened, hbody, hclosed⟩ := functionOf_parts own h
    have hall := hopened.trans ((introduces_script _ _ _ hbody).trans hclosed)
    simpa [statedAtTop] using hall
  | _ => cases h

theorem introduces_receiveMessage :
    Within (Introduces own (received own name)) (receiveMessage name message) := by
  unfold receiveMessage
  split
  · exact introduces_pure
  · exact introduces_pure
  · rename_i name hname
    have hreceived : received own (some name) = [.named own name .general false] := by
      simpa [received] using hname
    rw [hreceived]
    exact .before introduces_addVariable fun _ => .pure _

theorem heardBy_of_ne (hevent : hatOpcode? event ≠ some .whenBroadcastReceived)
    (arguments : List Expr) : heardBy own event arguments = [] := by
  unfold heardBy
  split
  · rw [if_neg hevent]
  · rfl

theorem addReceiver_parts (own : Place) (hevent : hatOpcode? event = some .whenBroadcastReceived)
    (h : addReceiver arguments body s = .ok () s') :
    ∃ t blocks t', Introduces own (heardBy own event arguments) s t ∧
      script false body t = .ok blocks t' ∧ Introduces own [] t' s' := by
  obtain ⟨written, rest, message, name, t, t₁, t₂, t₃, b, setter, blocks, rfl, hmessage, -,
    hbroadcast, henter, hsetter, hbody, hexit⟩ := addReceiver_ok h
  have hheard : heardBy own event (written :: rest) = received own message := by
    rcases hmessage with ⟨rfl, rfl⟩ | ⟨e, more, word, rfl, hname, rfl⟩
    · rfl
    · rw [heardBy, if_pos hevent, hname]
      rfl
  have hopened : Introduces own [] s t₁ := chain
    (introduces_broadcastNamed _ _ _ _ hbroadcast) (introduces_enterScope _ _ _ henter)
  have hpending : Introduces own [] t₃ { t₃ with frame.pending := t₃.frame.pending ++
      [.op .whenBroadcastReceived [.broadcast b.name] :: setter ++ blocks] } :=
    .of_draft rfl rfl id rfl
  refine ⟨t₂, blocks, t₃, ?_, hbody, hpending.trans (introduces_exitScope _ _ _ hexit)⟩
  rw [hheard]
  exact hopened.trans (introduces_receiveMessage _ _ _ hsetter)

/-- A hat is opened, then its body is built, and then it is closed. -/
theorem hatOf_parts (own : Place) (h : hatOf (.hat pos event arguments body) s = .ok () s') :
    ∃ ownScope t blocks t', Introduces own (heardBy own event arguments) s t ∧
      script ownScope body t = .ok blocks t' ∧ Introduces own [] t' s' := by
  obtain ⟨_, t₀, hmove, h⟩ := bind_ok.mp h
  have hmoved : Introduces own [] s t₀ := (quiet_moveTo hmove).introduces
  cases event with
  | attr place object name =>
    rw [addHat] at h
    by_cases hname : (name == "on_keyrelease") = true
    · rw [if_pos hname] at h
      obtain ⟨key, rest, v, t, t₁, blocks, rfl, hkey, hbody, rfl⟩ := addKeyRelease_ok h
      refine ⟨true, t, blocks, t₁, ?_, hbody, .of_draft rfl rfl id rfl⟩
      rw [heardBy_of_ne (by rw [hatOpcode?, if_pos hname]; decide)]
      exact hmoved.trans (introduces_expression _ _ _ hkey)
    · rw [if_neg hname] at h
      have hopcode : hatOpcode? (.attr place object name) = _ := if_neg hname
      generalize Builtins.hats.resolve (.attr place object name) = found at hopcode h
      split at h
      · obtain ⟨t, blocks, t₁, hopened, hbody, hclosed⟩ := addReceiver_parts own hopcode h
        exact ⟨false, t, blocks, t₁, hmoved.trans hopened, hbody, hclosed⟩
      · rename_i op hother
        obtain ⟨values, t, t₁, blocks, hvalues, hbody, rfl⟩ := addPlainHat_ok h
        refine ⟨true, t, blocks, t₁, ?_, hbody, .of_draft rfl rfl id rfl⟩
        rw [heardBy_of_ne (by rw [hopcode]; simpa using hother)]
        refine hmoved.trans ?_
        rw [← reasons_exprs own arguments]
        exact working_introduces.expressions _ _ _ _ _ hvalues
      · cases h
  | _ => cases h

theorem introduces_hatOf (stmt : Stmt) :
    Within (Introduces own (statedAtTop own stmt)) (hatOf stmt) := by
  intro s u s' h
  cases stmt with
  | hat pos event arguments body =>
    obtain ⟨ownScope, t, blocks, t', hopened, hbody, hclosed⟩ := hatOf_parts own h
    have hall := hopened.trans ((introduces_script _ _ _ hbody).trans hclosed)
    simpa [statedAtTop] using hall
  | malformed pos part f =>
    obtain ⟨_, t, -, h⟩ := bind_ok.mp h
    cases h
  | _ => cases h

theorem introduces_addScripts (hplace : s.frame.place = place) (scripts : List (List Value))
    (h : (scripts.forM (fun script => modifyTarget place (·.addScript script)) : Build Unit) s =
      .ok () s') : Introduces own [] s s' := by
  induction scripts generalizing s with
  | nil => exact introduces_pure _ _ _ h
  | cons script rest ih =>
    obtain ⟨t, hfirst, hrest⟩ := forM_cons_ok.mp h
    have hadded : Introduces own [] s t := by
      obtain rfl := modifyTarget_ok.mp hfirst
      refine .of_creates rfl rfl id ?_
      rw [← hplace]
      exact .modifyTarget (.inl rfl) _ fun _ => ⟨rfl, rfl⟩
    exact hadded.trans (ih (hadded.place.trans hplace) hrest)

/-- Building a target creates what its script states. -/
theorem introduces_target (body : List Stmt) :
    Within (Introduces own (statedBy own body)) (target body) := by
  intro s u s' h
  obtain ⟨t₀, t, t₁, t₂, t₃, t₄, hshares, hquiet, hfunctions, hquiet', hhats, hquiet'', hscripts⟩ :=
    target_parts h
  have hpart : ∀ (p : Part) (f : Stmt → Build Unit), (∀ stmt, stmt.part = p →
      Within (Introduces own (statedAtTop own stmt)) (f stmt)) →
      Within (Introduces own ((ofPart p body).flatMap (statedAtTop own)))
        ((ofPart p body).forM f : Build Unit) :=
    fun p f hf => .each fun stmt hstmt =>
      hf stmt (beq_iff_eq.mp (List.mem_filter.mp hstmt).2)
  have hshared := hpart _ _ (fun _ => introduces_shareVariable) _ _ _ hshares
  have hblocks := hpart _ _ (fun stmt _ => introduces_functionOf stmt) _ _ _ hfunctions
  have hadded := hpart _ _ (fun stmt _ => introduces_hatOf stmt) _ _ _ hhats
  have hall := hshared.trans (hquiet.introduces.trans (hblocks.trans (hquiet'.introduces.trans
    (hadded.trans (hquiet''.introduces.trans (introduces_addScripts rfl _ hscripts))))))
  simpa [statedBy] using hall

/-- What is stated for a target is created, and nothing else is built. -/
def Builds (own : Place) (body : List Stmt) (s s' : BuildState) : Prop :=
  (s'.frame.place = s.frame.place ∨ s'.frame.place = own) ∧ ∃ log, Creates own log s.draft s'.draft ∧
    statedIn log = statedBy own body ∧ (∀ c ∈ log, c.reason.IsOf own) ∧
    (log.any fun c => c.reason.isClone) = body.any fun stmt => asks (topTranslated stmt)

/-- What building a target creates, whatever was built before it. -/
theorem buildTarget_creates (h : buildTarget own file body s = .ok () s') : Builds own body s s' := by
  have h := modify_bind_ok.mp h
  have hbuilt : Introduces own _ _ _ := introduces_target body _ _ _ h
  obtain ⟨log, hcreates, hstated, hof, hflag⟩ := hbuilt.log rfl
  obtain ⟨-, -, -, -, hasks, -⟩ := target_completes rfl h
  exact ⟨.inr hbuilt.place, log, hcreates, hstated, hof, (hasks.symm.trans hflag).symm⟩

end

end Build

end BlockScript
