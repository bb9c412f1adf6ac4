import BlockScript.Proofs.SpriteEffects

/-!
Adding sprites to a draft. What a sprite looks like before its scripts are built depends on its
declarations, on the folder and on nothing else: where a sprite can be added once it can be
added to every draft, and it is the same sprite. So the sprites of a draft and their entries
are a list that follows the order in which they were added.
-/
namespace BlockScript

namespace Assoc

variable [BEq κ] [LawfulBEq κ] {key : κ} {value : υ} {table : Assoc κ υ}

theorem get?_of_mem (hnodup : table.keys.Nodup) (h : (key, value) ∈ table) :
    get? key table = some value := by
  induction table with
  | nil => cases h
  | cons entry rest ih =>
    obtain ⟨own, v⟩ := entry
    obtain ⟨hfresh, hnodup⟩ := List.nodup_cons.mp hnodup
    rcases List.mem_cons.mp h with heq | hrest
    · obtain ⟨rfl, rfl⟩ := Prod.mk.inj heq
      simp [get?]
    · have hne : key ≠ own := by
        rintro rfl
        exact hfresh (List.mem_map.mpr ⟨_, hrest, rfl⟩)
      simp only [get?, List.lookup_cons, beq_false_of_ne hne]
      exact ih hnodup hrest

end Assoc

/-- A sprite as it is read: its script and the file that the script comes from. -/
structure SpriteFile where
  script : Script
  filename : String

namespace SpriteFile

/-- The value that the first declaration of a property gives. -/
def declared (f : SpriteFile) (p : Property) : Option Record :=
  f.script.declarations.findSome? fun d => if d.property = some ("#" ++ p.word) then d.value else none

/-- The name that a sprite is listed by: the one it declares, or else that of its file. -/
def name (f : SpriteFile) : Except Fault String :=
  Build.spriteName ((f.declared .name).getD (Property.default f.filename .name))

/-- A sprite as it is listed, with no variables of its own yet. -/
def entry (f : SpriteFile) (index : Nat) : SpriteEntry :=
  ⟨index, f.filename, f.script.statements, []⟩

end SpriteFile

namespace Build

variable {s s' t t' : BuildState}

section

theorem gives_declarationParts (d : Declaration) :
    Gives (fun parts => d.property = some parts.1 ∧ d.value = some parts.2)
      (declarationParts d) := by
  refine .bind (.any _) fun _ _ => ?_
  cases hvalue : d.value with
  | none => exact .fault
  | some value =>
    cases hproperty : d.property with
    | none => exact .fault
    | some property => exact .pure ⟨rfl, rfl⟩

/-- Reading a property gives what was said before, or else what the first declaration says. -/
theorem gives_readProperty {p : Property} {found : Option Record} {ds : List Declaration} :
    Gives (fun value => value = found.or (ds.findSome? fun d =>
      if d.property = some ("#" ++ p.word) then d.value else none))
      (readProperty p onStage found ds) := by
  induction ds generalizing found with
  | nil =>
    refine .pure ?_
    simp
  | cons d rest ih =>
    refine .bind (gives_declarationParts d) fun parts hparts => ?_
    obtain ⟨property, value⟩ := parts
    obtain ⟨hproperty, hvalue⟩ := hparts
    dsimp only at hproperty hvalue ⊢
    by_cases hother : property = "#" ++ p.word
    · rw [if_neg (by simp [hother])]
      split
      · exact .reject
      · split
        · exact .reject
        · rename_i hnew
          refine .bind (.any _) fun accepted _ => ?_
          split
          · exact .reject
          · intro s v s' hrun
            have hv := ih s v s' hrun
            cases found with
            | some before => simp at hnew
            | none => simp [hv, hproperty, hother, hvalue]
    · rw [if_pos (by simpa using hother)]
      intro s v s' hrun
      have hv := ih s v s' hrun
      simp [hv, hproperty, hother]

/-- Reading declarations does nothing but move. -/
theorem Composing.declarations {J : ∀ {α : Type}, List Work → Build α → Prop} (h : Composing J)
    (hmove : ∀ p, J [] (moveTo p)) (ds : List Declaration) (filename : String) (onStage : Bool) :
    J [] (declarations ds filename onStage) := by
  have hproperty : ∀ (p : Property) (found : Option Record),
      J [] (readProperty p onStage found ds) := by
    intro p
    induction ds with
    | nil => exact fun found => h.pure _
    | cons d rest ih =>
      intro found
      have hparts : J [] (declarationParts d) := by
        refine h.after (hmove _) fun _ => ?_
        split
        · exact h.pure _
        · exact h.fault _
      refine h.after hparts fun parts => ?_
      dsimp only
      split
      · exact ih found
      · split
        · exact h.reject _
        · split
          · exact h.reject _
          · refine h.after (h.ofExcept _) fun accepted => ?_
            split
            · exact h.reject _
            · exact ih _
  unfold Build.declarations
  induction Property.all with
  | nil => exact h.pure _
  | cons p rest ih => exact h.after (hproperty p none) fun found => h.after ih fun _ => h.pure _

theorem gives_declarations (f : SpriteFile) (onStage : Bool) :
    Gives (fun properties => properties.get .name =
      (f.declared .name).getD (Property.default f.filename .name))
      (declarations f.script.declarations f.filename onStage) := by
  refine .bind gives_readProperty fun found hfound => .bind (.any _) fun others _ => ?_
  refine .pure ?_
  rw [hfound]
  rfl

end

/-- Reading declarations does not depend on the state and changes nothing that is built. -/
theorem declarations_anywhere
    (h : declarations ds filename onStage s = .ok properties s') (t : BuildState) :
    ∃ t', declarations ds filename onStage t = .ok properties t' ∧ t'.draft = t.draft ∧
      t'.session.console.level = t.session.console.level := by
  have hmove : ∀ p, Respects (fun _ w : BuildState => w.draft = t.draft ∧
      w.session.console.level = t.session.console.level) (moveTo p) := by
    intro p v w u v' hw hrun
    obtain ⟨hp, -⟩ := moveTo_ok.mp hrun
    exact ⟨_, moveTo_ok.mpr ⟨hp, rfl⟩, hw⟩
  exact Respects.composing.declarations hmove ds filename onStage s t properties s' ⟨rfl, rfl⟩ h

section

/-- A draft in which a target has more costumes or sounds. -/
def withAssets (d : Draft) (place : Place) (more : List Asset) : Draft :=
  { d with project := d.project.modify place fun t => { t with assets := t.assets ++ more } }

theorem modify_modify (p : Project) (place : Place) (f g : Target → Target) :
    (p.modify place f).modify place g = p.modify place (g ∘ f) := by
  cases place with
  | stage => rfl
  | sprite i => simp [Project.modify, List.modify_modify_eq]

theorem withAssets_withAssets (d : Draft) (place : Place) (first second : List Asset) :
    withAssets (withAssets d place first) place second = withAssets d place (first ++ second) := by
  simp only [withAssets, modify_modify, Function.comp_def, List.append_assoc]

theorem withAssets_nil : withAssets d place [] = d := by
  simp only [withAssets, List.append_nil]
  cases place with
  | stage => rfl
  | sprite i =>
    change { d with project.sprites := d.project.sprites.modify i id } = d
    rw [List.modify_id]

/-- A step that adds the same to any target of any draft, if there is a console of a certain
level. -/
def Adds (level : Option Level) (more : List Asset) (step : Place → Build Unit) : Prop :=
  ∀ place t, t.session.console.level = level → ∃ t', step place t = .ok () t' ∧
    t'.draft = withAssets t.draft place more ∧ t'.session.console.level = level

/-- A step that adds the same everywhere if it succeeds once. -/
def Uniform (step : Place → Build Unit) : Prop :=
  ∀ place s s', step place s = .ok () s' → ∃ more, Adds s.session.console.level more step

theorem Adds.nothing (level : Option Level) : Adds level [] fun _ => pure () :=
  fun _ t ht => ⟨t, rfl, (withAssets_nil).symm, ht⟩

theorem Adds.seq (hx : Adds level first x) (hy : Adds level second y) :
    Adds level (first ++ second) fun place => x place >>= fun _ => y place := by
  intro place t ht
  obtain ⟨t₁, hrun₁, hdraft₁, hlevel₁⟩ := hx place t ht
  obtain ⟨t₂, hrun₂, hdraft₂, hlevel₂⟩ := hy place t₁ hlevel₁
  refine ⟨t₂, bind_ok.mpr ⟨(), t₁, hrun₁, hrun₂⟩, ?_, hlevel₂⟩
  rw [hdraft₂, hdraft₁, withAssets_withAssets]

theorem Uniform.seq (hx : Uniform x) (hy : Uniform y) :
    Uniform fun place => x place >>= fun _ => y place := by
  intro place s s' hrun
  obtain ⟨_, t, hfirst, hsecond⟩ := bind_ok.mp hrun
  obtain ⟨first, hadds⟩ := hx place s t hfirst
  obtain ⟨t', hfirst', -, hlevel⟩ := hadds place s rfl
  rw [hfirst] at hfirst'
  obtain ⟨-, rfl⟩ := EStateM.Result.ok.inj hfirst'
  obtain ⟨second, hadds'⟩ := hy place t s' hsecond
  rw [hlevel] at hadds'
  exact ⟨first ++ second, hadds.seq hadds'⟩

theorem Uniform.forM {α : Type} {f : α → Place → Build Unit} (hf : ∀ a, Uniform (f a))
    (items : List α) : Uniform fun place => (items.forM fun a => f a place : Build Unit) := by
  induction items with
  | nil => exact fun place s s' _ => ⟨[], .nothing _⟩
  | cons a rest ih => exact (hf a).seq ih

theorem uniform_addFile (kind : AssetKind) (file : String) : Uniform (fun place => do
    modifyTarget place (·.addAsset ⟨kind, file⟩)
    debug ("  Added asset \"" ++ file ++ "\"")) := by
  intro place s s' hrun
  obtain ⟨_, s₁, hadd, hlog⟩ := bind_ok.mp hrun
  obtain rfl := modifyTarget_ok.mp hadd
  obtain ⟨-, -, hshown, -⟩ := log_ok hlog
  refine ⟨[⟨kind, file⟩], fun place' t ht => ?_⟩
  obtain ⟨t', hlog'⟩ := @exists_log { t with draft := withAssets t.draft place' [⟨kind, file⟩] }
    .debug ("  Added asset \"" ++ file ++ "\"") (by rw [ht]; exact hshown)
  obtain ⟨hdraft, -, -, hlevel⟩ := log_ok hlog'
  exact ⟨t', bind_ok.mpr ⟨(), _, modifyTarget_ok.mpr rfl, hlog'⟩, hdraft, hlevel.trans ht⟩

theorem uniform_addAssets : Uniform fun place => addAssets folder kind place paths := by
  have hat : ∀ path, Uniform fun place => addAssetsAt folder kind place path := by
    intro path
    by_cases hpattern : ∃ pattern, path = .value (.str pattern)
    · obtain ⟨pattern, rfl⟩ := hpattern
      exact Uniform.forM (uniform_addFile kind) _
    · intro place s s' hrun
      unfold addAssetsAt at hrun
      split at hrun
      · rename_i pattern
        exact (hpattern ⟨pattern, rfl⟩).elim
      · cases hrun
  intro place s s' hrun
  obtain ⟨own, s₁, hpaths, hrun⟩ := bind_ok.mp hrun
  have hread : ∀ v, pathsOf paths v = .ok own v ∧ s = s₁ := by
    intro v
    unfold pathsOf at hpaths ⊢
    split at hpaths
    · obtain ⟨rfl, rfl⟩ := pure_ok.mp hpaths
      exact ⟨rfl, rfl⟩
    · obtain ⟨rfl, rfl⟩ := pure_ok.mp hpaths
      exact ⟨rfl, rfl⟩
    · cases hpaths
  obtain rfl := (hread s).2
  obtain ⟨more, hadds⟩ := Uniform.forM hat own place s s' hrun
  refine ⟨more, fun place' t ht => ?_⟩
  obtain ⟨t', hrun', hdraft, hlevel⟩ := hadds place' t ht
  exact ⟨t', bind_ok.mpr ⟨own, t, (hread t).1, hrun'⟩, hdraft, hlevel⟩

end

def withSprite (d : Draft) (f : SpriteFile) (target : Target) : Draft :=
  { d with
    project.sprites := d.project.sprites ++ [target]
    sprites := Assoc.put target.name (f.entry d.project.sprites.length) d.sprites }

/-- A file makes a target in every draft, if there is a console of a certain level. -/
structure Prepares (folder : Location) (level : Option Level) (f : SpriteFile) (target : Target) :
    Prop where
  named : f.name = .ok target.name
  blank : target.data = [] ∧ target.custom = [] ∧ target.scripts = []
  added : ∀ t, t.session.console.level = level →
    ∃ t', addSprite folder f.script f.filename t = .ok target.name t' ∧
      t'.draft = withSprite t.draft f target ∧ t'.session.console.level = level

theorem modify_last (targets : List Target) (target : Target) (f : Target → Target) :
    (targets ++ [target]).modify targets.length f = targets ++ [f target] := by
  induction targets with
  | nil => rfl
  | cons first rest ih => simp [ih]

theorem withAssets_last (d : Draft) (target : Target) (more : List Asset) :
    withAssets { d with project.sprites := d.project.sprites ++ [target] }
      (.sprite d.project.sprites.length) more = { d with project.sprites :=
      d.project.sprites ++ [{ target with assets := target.assets ++ more }] } := by
  simp only [withAssets, Project.modify, modify_last]

/-- A step that adds the same everywhere keeps the level where it succeeds. -/
theorem Adds.level_eq (h : Adds level more step)
    (hs : s.session.console.level = level) (hrun : step place s = .ok () s') :
    s'.session.console.level = level := by
  obtain ⟨t, hrun', -, hlevel⟩ := h place s hs
  rw [hrun] at hrun'
  obtain ⟨-, rfl⟩ := EStateM.Result.ok.inj hrun'
  exact hlevel

/-- A sprite that can be added once can be added everywhere, as the same target. -/
theorem addSprite_prepares (hrun : addSprite folder f.script f.filename s = .ok own s') :
    ∃ target, Prepares folder s.session.console.level f target := by
  obtain ⟨properties, s₁, hread, hrun⟩ := bind_ok.mp hrun
  have hname := gives_declarations f false s properties s₁ hread
  have hlevel₁ : s₁.session.console.level = s.session.console.level := by
    obtain ⟨t, hread', -, hlevel⟩ := declarations_anywhere hread s
    rw [hread] at hread'
    obtain ⟨-, rfl⟩ := EStateM.Result.ok.inj hread'
    exact hlevel
  rw [get_bind_ok] at hrun
  have hrun := modifyDraft_bind_ok.mp hrun
  obtain ⟨_, s₃, hcostumes, _, s₄, hsounds, hrun⟩ := bind_bind_ok.mp hrun
  obtain ⟨listed, hlisted, hrun⟩ := ofExcept_bind_ok.mp hrun
  obtain ⟨costumes, haddCostumes⟩ := uniform_addAssets _ _ _ hcostumes
  have hlevel₃ := haddCostumes.level_eq rfl hcostumes
  obtain ⟨sounds, haddSounds⟩ := uniform_addAssets _ _ _ hsounds
  rw [hlevel₃] at haddSounds
  refine ⟨{ Target.fresh listed (spriteProperties.map properties.get) with
    assets := costumes ++ sounds }, (congrArg spriteName hname).symm.trans hlisted,
    ⟨rfl, rfl, rfl⟩, fun t ht => ?_⟩
  obtain ⟨t₁, hread', hdraft₁, hkept⟩ := declarations_anywhere hread t
  have hlevel₂ : t₁.session.console.level = s₁.session.console.level := by
    rw [hkept, ht, hlevel₁]
  obtain ⟨t₂, hrun₂, hdraft₂, hlevel₂⟩ := haddCostumes (.sprite t₁.draft.project.sprites.length)
    { t₁ with draft.project.sprites := t₁.draft.project.sprites ++
      [Target.fresh listed (spriteProperties.map properties.get)] } hlevel₂
  obtain ⟨t₃, hrun₃, hdraft₃, hlevel₃⟩ :=
    haddSounds (.sprite t₁.draft.project.sprites.length) t₂ hlevel₂
  refine ⟨{ t₃ with
    draft.sprites := Assoc.put listed (f.entry t₁.draft.project.sprites.length) t₃.draft.sprites },
      ?_, ?_, hlevel₃.trans hlevel₁⟩
  · refine bind_ok.mpr ⟨properties, t₁, hread', ?_⟩
    rw [get_bind_ok, hlisted]
    refine bind_ok.mpr ⟨(), _, modifyDraft_ok.mpr rfl, ?_⟩
    refine bind_ok.mpr ⟨(), t₂, hrun₂, bind_ok.mpr ⟨(), t₃, hrun₃, ?_⟩⟩
    refine bind_ok.mpr ⟨listed, t₃, rfl, bind_ok.mpr ⟨(), _, modifyDraft_ok.mpr rfl, rfl⟩⟩
  · simp only [hdraft₃, hdraft₂, withAssets_last, hdraft₁]
    rfl

end Build

end BlockScript
