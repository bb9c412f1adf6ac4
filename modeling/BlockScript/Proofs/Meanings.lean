import BlockScript.Proofs.Plans
import BlockScript.Proofs.Scopes

/-!
What a name stands for while a body is built. Once a name stands for a variable it keeps
standing for it: a name in use cannot be declared again, the variables of inner scopes come
later in the table, and a broadcast is filed under a name that no variable has. So at every
moment of a body all that was in scope at its start is found as it was found there.
-/
namespace BlockScript.Build

open Text

variable {s s' : BuildState}

section

variable {globals locals : Assoc String Data}

/-- A scope that is yet to come has no variables. -/
theorem fresh_not_mem (h : Tidy sprite last locals) (hscope : last < scope) (name : String)
    (d : Data) : (fullName sprite scope name, d) ∉ locals := by
  intro hmem
  have hzero : scope ≠ 0 := by omega
  rcases h _ hmem with hunscoped | ⟨scope', name', -, hbound, hkey⟩
  · rw [unscoped_fullName] at hunscoped
    exact hzero (of_decide_eq_true hunscoped)
  · have hsame := (fullName_inj hkey).1
    omega

/-- A variable that belongs to no scope is not found by its scope. -/
theorem findScoped_put (hfull : unscoped.any (beginsWith · full) = true) (d : Data)
    (name : Option String) (scopes : List Nat) (locals : Assoc String Data) :
    findScoped name scopes (Assoc.put full d locals) = findScoped name scopes locals := by
  induction locals with
  | nil => simp [Assoc.put, findScoped, hfull]
  | cons entry rest ih =>
    obtain ⟨key, data⟩ := entry
    rw [Assoc.put]
    split
    · rename_i hkey
      rw [eq_of_beq hkey, findScoped, findScoped, if_pos hfull, if_pos hfull]
    · rw [findScoped, findScoped, ih]

end

/-- What a name stands for in the tables of a state, if the given scopes are open. -/
def meaning (s : BuildState) (scopes : List Nat) (name : String) :
    Option (Except Fault (Option Data)) :=
  (s.draft.locals? s.frame.place).map fun locals =>
    lookup s.draft.globals locals s.frame.place.isSprite scopes name

theorem meaning_congr (h : bindings s' = bindings s) : meaning s' = meaning s := by
  simp only [bindings, Prod.mk.injEq] at h
  funext scopes name
  rw [meaning, meaning, h.1, h.2.1, h.2.2.1]

variable {name : String}

section

variable (hs : Consistent s)

include hs

/-- Finding a name is asking for its meaning in the open scopes. -/
theorem Consistent.find?_iff :
    find? (.ofName name) s = .ok found s ↔ meaning s s.frame.scopes name = some (.ok found) := by
  obtain ⟨locals, hlocals, htidy, -⟩ := hs.table
  have hcurrent : s.frame.currentScope ∈ s.frame.scopes :=
    List.mem_of_mem_head? (Option.mem_def.mpr hs.innermost)
  have hscopes : lookup s.draft.globals locals s.frame.place.isSprite
        (s.frame.currentScope :: s.frame.scopes) name =
      lookup s.draft.globals locals s.frame.place.isSprite s.frame.scopes name := by
    refine lookup_congr htidy name fun scope _ _ => ?_
    rw [List.mem_cons]
    exact ⟨fun h => h.elim (fun heq => heq ▸ hcurrent) id, .inr⟩
  rw [find?_ofName hlocals, hscopes, meaning, hlocals]
  simp

theorem Consistent.find?_total (name : String) :
    ∃ found, find? (.ofName name) s = .ok found s := by
  obtain ⟨locals, hlocals, htidy, -⟩ := hs.table
  obtain ⟨found, hfound⟩ : ∃ found, lookup s.draft.globals locals s.frame.place.isSprite
      s.frame.scopes name = .ok found := lookup_total htidy s.frame.scopes name
  refine ⟨found, hs.find?_iff.mpr ?_⟩
  rw [meaning, hlocals, Option.map_some, hfound]

/-- The same meaning in the same scopes is the same found. -/
theorem Consistent.find?_congr (hs' : Consistent s')
    (hscopes : s'.frame.scopes = s.frame.scopes) (hmeaning : meaning s' = meaning s)
    (hfind : find? (.ofName name) s = .ok found s) :
    find? (.ofName name) s' = .ok found s' := by
  rw [hs.find?_iff] at hfind
  rw [hs'.find?_iff, hscopes, hmeaning]
  exact hfind

/-- The number of a new scope does not occur in the table. -/
theorem Consistent.meaning_enter (name : String) :
    meaning s ((s.frame.lastScope + 1) :: s.frame.scopes) name = meaning s s.frame.scopes name := by
  obtain ⟨locals, hlocals, htidy, -⟩ := hs.table
  rw [meaning, meaning, hlocals, Option.map_some, Option.map_some]
  refine congrArg some (lookup_congr htidy name fun scope _ hbound => ?_)
  rw [List.mem_cons]
  refine ⟨fun h => h.elim (fun heq => ?_) id, .inr⟩
  omega

end

/-- Building what keeps the scopes open: every name that stands for a variable, in some of
the open scopes, stands for it afterwards. -/
structure Remembers (s s' : BuildState) : Prop where
  scopes : s'.frame.scopes = s.frame.scopes
  consistent : Consistent s → Consistent s'
  known : Consistent s → ∀ scopes ⊆ s.frame.scopes, ∀ name d,
    meaning s scopes name = some (.ok (some d)) → meaning s' scopes name = some (.ok (some d))

instance : IsPreorder BuildState Remembers where
  refl _ := ⟨rfl, id, fun _ _ _ _ _ h => h⟩
  trans a b c h k := by
    refine ⟨k.scopes.trans h.scopes, fun ha => k.consistent (h.consistent ha), ?_⟩
    intro ha scopes hscopes name d hknown
    refine k.known (h.consistent ha) scopes ?_ name d (h.known ha scopes hscopes name d hknown)
    rwa [h.scopes]

/-- A change that concerns neither the meaning of names nor the scopes. -/
theorem Remembers.of_same (hscopes : s'.frame.scopes = s.frame.scopes)
    (hconsistent : Consistent s → Consistent s') (hmeaning : meaning s' = meaning s) :
    Remembers s s' :=
  ⟨hscopes, hconsistent, fun _ _ _ _ _ h => by rw [hmeaning]; exact h⟩

theorem Keeps.remembers (h : Keeps s s') : Remembers s s' :=
  .of_same h.scopes (fun hs => hs.keeps h) (meaning_congr h.bindings)

theorem remembers_declare (hunused : find? (.ofName name) s = .ok none s)
    (h : addVariable name type value constant s = .ok d s') : Remembers s s' := by
  obtain ⟨rfl, hframe, hglobals, -, locals, hlocals, hafter⟩ := addVariable_ok h
  refine ⟨by rw [hframe], fun hs => hs.addVariable h, ?_⟩
  intro hs scopes hscopes own d hknown
  obtain ⟨table, htable, htidy, -⟩ := hs.table
  obtain rfl := Option.some.inj (hlocals.symm.trans htable)
  obtain ⟨hlookup, -⟩ := (find?_ofName hlocals).mp hunused
  obtain ⟨hglobal, habsent⟩ := lookup_none htidy hlookup
  simp only [meaning, hlocals, Option.map_some, Option.some.injEq] at hknown
  have hput : ∀ new : Data,
      Assoc.put (fullName s.frame.place.isSprite s.frame.currentScope name) new locals =
        locals ++ [(fullName s.frame.place.isSprite s.frame.currentScope name, new)] :=
    fun new => Assoc.put_of_absent (absent_of_lookup_none htidy hlookup (.inr List.mem_cons_self))
  rw [meaning, hframe, hglobals, hafter, Option.map_some]
  refine congrArg some ?_
  rw [declaredData, hput]
  by_cases hsame : own = name
  · subst hsame
    rcases lookup_sound htidy hknown with hmem | ⟨scope, hopen, hmem⟩
    · have hne := List.lookup_eq_none_iff.mp hglobal _ hmem
      simp at hne
    · refine absurd hmem (habsent scope d (hopen.imp_right fun h => ?_))
      exact List.mem_cons_of_mem _ (hscopes h)
  · rw [lookup_other hsame]
    exact hknown

/-- The tables agree on what every name stands for, whichever scopes are open. -/
structure Agrees (s s' : BuildState) : Prop where
  frame : s'.frame = s.frame
  meaning : meaning s' = meaning s

instance : IsPreorder BuildState Agrees where
  refl _ := ⟨rfl, rfl⟩
  trans _ _ _ h k := ⟨k.frame.trans h.frame, k.meaning.trans h.meaning⟩

/-- A variable of the stage for a message or a result has no name in a script. -/
theorem agrees_addData_stage
    (hname : beginsWith "br_" name = true ∨ isOutputName name = true) :
    Within Agrees (addData .stage name type value constant) := by
  intro s d s' h
  have hglobal : ∀ own, globalName own ≠ name := by
    rintro own rfl
    simp [globalName, isOutputName, beginsWith, List.isPrefixOf] at hname
  have hshared : ∀ sprite own, fullName sprite 0 own ≠ name := by
    rintro sprite own rfl
    rcases hname with hbroadcast | houtput
    · have hglobal := isGlobalName_fullName sprite 0 own
      simp [isGlobalName, hbroadcast] at hglobal
    · rw [isOutputName_fullName] at houtput
      cases houtput
  obtain ⟨hframe, rfl, hsprites, hnames, htables⟩ := addData_stage_ok h
  refine ⟨hframe, ?_⟩
  funext scopes own
  rw [meaning, meaning, hframe]
  rcases htables with ⟨-, hglobals, hstage⟩ | ⟨hlocal, hglobals, hstage⟩
  · rw [locals?_congr hsprites hnames hstage, hglobals]
    simp only [lookup, Assoc.get?_put_of_ne (hglobal own)]
  · have hunscoped : unscoped.any (beginsWith · d.name) = true := by
      rcases hname with hbroadcast | houtput
      · simp [isGlobalName, hbroadcast] at hlocal
      · exact unscoped_of_isOutputName houtput
    rw [hglobals]
    cases hplace : s.frame.place with
    | stage =>
      simp only [Draft.locals?, hstage, Option.map_some, lookup,
        Assoc.get?_put_of_ne (hshared _ own), findScoped_put hunscoped]
    | sprite i => rw [locals?_sprite hsprites hnames]

theorem agrees_broadcastNamed (name : Value) : Within Agrees (broadcastNamed name) := by
  refine .broadcastNamed (fun text => agrees_addData_stage (.inl ?_))
    (fun hframe hdraft => ⟨hframe, meaning_congr (by rw [bindings, hdraft, hframe]; rfl)⟩) name
  simp [beginsWith, List.isPrefixOf]

theorem building_remembers : Building Remembers where
  moveTo p := (keeps_moveTo p).mono fun _ _ => Keeps.remembers
  emitAll blocks _ := (keeps_emitAll blocks).mono fun _ _ => Keeps.remembers
  cloneFlag := keeps_cloneFlag.mono fun _ _ => Keeps.remembers
  calls _ _ := trivial
  declare := remembers_declare
  broadcast name := by
    intro s b s' h
    have hagrees := agrees_broadcastNamed name s b s' h
    exact .of_same (by rw [hagrees.frame]) (advances_broadcastNamed name s b s' h).consistent
      hagrees.meaning
  scope := by
    intro _ s t t' s' henter h hexit
    have hconsistent : Consistent s → Consistent s' :=
      fun hs => (h.consistent (hs.enter henter)).exit hexit
    obtain rfl := enterScope_ok.mp henter
    obtain ⟨_, outer, rest, hscopes, rfl⟩ := exitScope_ok.mp hexit
    rw [h.scopes] at hscopes
    refine ⟨(List.cons.inj hscopes).2.symm, hconsistent, fun hs scopes hopen => ?_⟩
    exact h.known (hs.enter henter) scopes (List.subset_cons_of_subset _ hopen)
  script := by
    intro _ t t' blocks rest h _
    refine ⟨h.scopes, fun ht => ?_, fun ht => h.known (ht.congr rfl)⟩
    exact (h.consistent (ht.congr rfl)).congr rfl
  elsewhere _ _ _ _ := .rfl

/-- All that a name stands for at one point it stands for at another. -/
def Recalls (s s' : BuildState) : Prop :=
  Consistent s → Consistent s' ∧ ∀ name d,
    find? (.ofName name) s = .ok (some d) s → find? (.ofName name) s' = .ok (some d) s'

instance : IsPreorder BuildState Recalls where
  refl _ := fun hs => ⟨hs, fun _ _ h => h⟩
  trans a b c h k := by
    intro ha
    obtain ⟨hb, hfind⟩ := h ha
    obtain ⟨hc, hfind'⟩ := k hb
    exact ⟨hc, fun name d hname => hfind' name d (hfind name d hname)⟩

theorem Remembers.recalls (h : Remembers s s') : Recalls s s' := by
  intro hs
  have hs' := h.consistent hs
  refine ⟨hs', fun name d hfind => hs'.find?_iff.mpr ?_⟩
  rw [h.scopes]
  exact h.known hs _ (List.Subset.refl _) name d (hs.find?_iff.mp hfind)

/-- What a name stands for does not change when a scope is entered. -/
theorem find?_enterScope (hs : Consistent s) (h : enterScope s = .ok () s')
    (hfind : find? (.ofName name) s = .ok found s) :
    find? (.ofName name) s' = .ok found s' := by
  have hs' := hs.enter h
  rw [hs.find?_iff] at hfind
  rw [hs'.find?_iff]
  obtain rfl := enterScope_ok.mp h
  rw [← hfind]
  exact hs.meaning_enter name

theorem pointing_recalls : Pointing Remembers Recalls where
  building := building_remembers
  step h := h.recalls
  enter := fun s _ s' h hs => ⟨hs.enter h, fun _ _ hfind => find?_enterScope hs h hfind⟩
  opened := by
    intro s
    have hsame : Remembers s { s with frame.unfinished := [] :: s.frame.unfinished } :=
      .of_same rfl (fun hs => hs.congr rfl) rfl
    exact hsame.recalls

end BlockScript.Build
