import BlockScript.Proofs.Histories

/-!
Sprites of the same name. There is a target for each sprite that is added, but the sprites are
listed by their names, so a sprite takes the place of an earlier one of the same name in the
list. Only what is listed is built. So a sprite has the scripts of its own file exactly if no
later sprite has its name; otherwise it stays as empty as it was added.
-/
namespace BlockScript

namespace Assoc

variable [BEq κ] [LawfulBEq κ] {key : κ} {value : υ} {table : Assoc κ υ}

theorem mem_keys_put : own ∈ (put key value table).keys ↔ own = key ∨ own ∈ table.keys := by
  induction table with
  | nil => simp [put, keys]
  | cons first rest ih =>
    obtain ⟨k, v⟩ := first
    simp only [keys, put] at ih ⊢
    by_cases hkey : k = key
    · subst hkey
      simp
    · simp [hkey, ih]
      tauto

theorem nodup_keys_put (h : table.keys.Nodup) : (put key value table).keys.Nodup := by
  induction table with
  | nil => simp [put, keys]
  | cons first rest ih =>
    obtain ⟨k, v⟩ := first
    obtain ⟨hfresh, hrest⟩ := List.nodup_cons.mp h
    by_cases hkey : k = key
    · subst hkey
      simpa [put, keys] using h
    · have hnew : k ∉ (put key value rest).keys := by
        rw [mem_keys_put]
        exact fun hmem => hmem.elim hkey hfresh
      simpa [put, hkey, keys] using List.nodup_cons.mpr ⟨hnew, ih hrest⟩

/-- Putting an entry into a table leaves the entries of the other keys as they are. -/
theorem mem_put_iff (h : table.keys.Nodup) :
    entry ∈ put key value table ↔ entry = (key, value) ∨ entry ∈ table ∧ entry.1 ≠ key := by
  induction table with
  | nil => simp [put]
  | cons first rest ih =>
    obtain ⟨k, v⟩ := first
    obtain ⟨hfresh, hrest⟩ := List.nodup_cons.mp h
    by_cases hkey : k = key
    · subst hkey
      have hother : ∀ item ∈ rest, item.1 ≠ k := fun item hitem hsame =>
        hfresh (List.mem_map.mpr ⟨item, hitem, hsame⟩)
      rw [put, if_pos BEq.rfl, List.mem_cons, List.mem_cons]
      constructor
      · rintro (rfl | hmem)
        · exact .inl rfl
        · exact .inr ⟨.inr hmem, hother entry hmem⟩
      · rintro (rfl | ⟨rfl | hmem, hne⟩)
        · exact .inl rfl
        · exact absurd rfl hne
        · exact .inr hmem
    · rw [put, if_neg (by simpa using hkey), List.mem_cons, List.mem_cons, ih hrest]
      constructor
      · rintro (rfl | rfl | ⟨hmem, hne⟩)
        · exact .inr ⟨.inl rfl, hkey⟩
        · exact .inl rfl
        · exact .inr ⟨.inr hmem, hne⟩
      · rintro (rfl | ⟨rfl | hmem, hne⟩)
        · exact .inr (.inl rfl)
        · exact .inl rfl
        · exact .inr (.inr ⟨hmem, hne⟩)

end Assoc

namespace Build

variable {s s' : BuildState} {files : List SpriteFile} {f g : SpriteFile} {k : Nat}

/-- A target for which nothing has been built. -/
def IsBlank (t : Target) : Prop := t.data = [] ∧ t.custom = [] ∧ t.scripts = []

/-- The files of the sprites that a history adds, in order. -/
def spriteFiles (edits : List Edit) : List SpriteFile :=
  edits.filterMap fun
    | .sprite _ file => some file
    | _ => none

/-- A file at an index, after which no file of its name comes. -/
structure IsLast (files : List SpriteFile) (k : Nat) (f : SpriteFile) : Prop where
  own : files[k]? = some f
  later : ∀ j g, k < j → files[j]? = some g → g.name ≠ f.name

theorem isLast_append : IsLast (files ++ [f]) k g ↔
    k = files.length ∧ g = f ∨ IsLast files k g ∧ g.name ≠ f.name := by
  have hat : ∀ j h, (files ++ [f])[j]? = some h ↔
      files[j]? = some h ∨ j = files.length ∧ h = f := by
    intro j h
    rcases Nat.lt_trichotomy j files.length with hj | rfl | hj
    · simp [List.getElem?_append_left hj, Nat.ne_of_lt hj]
    · simp [eq_comm]
    · have hnone : (files ++ [f])[j]? = none := List.getElem?_eq_none_iff.mpr (by simp; omega)
      have hnone' : files[j]? = none := List.getElem?_eq_none_iff.mpr (Nat.le_of_lt hj)
      simp [hnone, hnone', Nat.ne_of_gt hj]
  have hlt : ∀ {j h}, files[j]? = some h → j < files.length := fun h =>
    (List.getElem?_eq_some_iff.mp h).1
  constructor
  · rintro ⟨hown, hlater⟩
    rcases (hat k g).mp hown with hg | hg
    · refine .inr ⟨⟨hg, fun j h hj hh => hlater j h hj ((hat j h).mpr (.inl hh))⟩, ?_⟩
      exact Ne.symm (hlater files.length f (hlt hg) ((hat _ _).mpr (.inr ⟨rfl, rfl⟩)))
    · exact .inl hg
  · rintro (⟨rfl, rfl⟩ | ⟨⟨hown, hlater⟩, hne⟩)
    · refine ⟨(hat _ _).mpr (.inr ⟨rfl, rfl⟩), fun j h hj hh => ?_⟩
      rcases (hat j h).mp hh with hh | ⟨rfl, -⟩
      · exact absurd (hlt hh) (by omega)
      · exact absurd hj (Nat.lt_irrefl _)
    · refine ⟨(hat _ _).mpr (.inl hown), fun j h hj hh => ?_⟩
      rcases (hat j h).mp hh with hh | ⟨-, rfl⟩
      · exact hlater j h hj hh
      · exact Ne.symm hne

/-- The sprites of a draft for which nothing has been built. Each file has a target, and those
after which no file of their name comes are listed. -/
structure Collected (files : List SpriteFile) (s : BuildState) : Prop where
  targets : List.Forall₂ (fun f t => f.name = .ok t.name ∧ IsBlank t) files s.draft.project.sprites
  entries : ∀ item, item ∈ s.draft.sprites ↔
    ∃ k f, IsLast files k f ∧ f.name = .ok item.1 ∧ item.2 = f.entry k
  keys : s.draft.sprites.keys.Nodup
  stage : s.frame.place = .stage

section

theorem collected_fresh (session : Session) (folder : String) :
    Collected [] (.fresh session folder) := by
  refine ⟨.nil, fun item => ⟨?_, ?_⟩, .nil, rfl⟩
  · intro hitem
    cases hitem
  · rintro ⟨k, f, hlast, -⟩
    cases hlast.own

/-- What is done to the stage is no matter for the sprites. -/
theorem Creates.sprites_eq {log : List Creation} (h : Creates .stage log d d') :
    d'.project.sprites = d.project.sprites := by
  refine List.ext_getElem? fun k => ?_
  exact h.others (.sprite k) (by simp) (by simp)

theorem Collected.of_stage {log : List Creation} (h : Collected files s)
    (hcreates : Creates .stage log s.draft s'.draft) (hstage : s'.frame.place = .stage) :
    Collected files s' := by
  refine ⟨?_, ?_, ?_, hstage⟩
  · rw [hcreates.sprites_eq]
    exact h.targets
  · rw [hcreates.entries rfl]
    exact h.entries
  · rw [hcreates.entries rfl]
    exact h.keys

theorem Collected.introduces (h : Collected files s)
    (hintroduces : Introduces .stage reasons s s') : Collected files s' := by
  obtain ⟨log, hcreates, -⟩ := hintroduces.log h.stage
  exact h.of_stage hcreates (hintroduces.place.trans h.stage)

/-- A sprite is added with a target of its own and takes the place of a namesake in the list. -/
theorem Collected.withSprite {target : Target} (h : Collected files s)
    (hname : f.name = .ok target.name) (hblank : IsBlank target)
    (hdraft : s'.draft = withSprite s.draft f target) (hframe : s'.frame = s.frame) :
    Collected (files ++ [f]) s' := by
  have hlength : s.draft.project.sprites.length = files.length := h.targets.length_eq.symm
  refine ⟨?_, fun item => ?_, ?_, by rw [hframe, h.stage]⟩
  · rw [hdraft]
    exact List.rel_append h.targets (.cons ⟨hname, hblank⟩ .nil)
  · rw [hdraft, Build.withSprite, Assoc.mem_put_iff h.keys, hlength, h.entries]
    constructor
    · rintro (rfl | ⟨⟨k, g, hlast, hown, hentry⟩, hne⟩)
      · exact ⟨files.length, f, isLast_append.mpr (.inl ⟨rfl, rfl⟩), hname, rfl⟩
      · refine ⟨k, g, isLast_append.mpr (.inr ⟨hlast, ?_⟩), hown, hentry⟩
        rw [hown, hname]
        exact fun hsame => hne (Except.ok.inj hsame)
    · rintro ⟨k, g, hlast, hown, hentry⟩
      rcases isLast_append.mp hlast with ⟨rfl, rfl⟩ | ⟨hlast, hne⟩
      · rw [hname] at hown
        exact .inl (Prod.ext (Except.ok.inj hown).symm hentry)
      · refine .inr ⟨⟨k, g, hlast, hown, hentry⟩, fun hsame => hne ?_⟩
        rw [hown, hname, hsame]
  · rw [hdraft]
    exact Assoc.nodup_keys_put h.keys

/-- What a history without building collects. -/
theorem Collected.history (hadding : ∀ edit ∈ edits, edit ≠ .build)
    (h : Collected files s) (hrun : history edits s = .ok () s') :
    Collected (files ++ spriteFiles edits) s' := by
  induction edits generalizing s files with
  | nil =>
    obtain ⟨-, rfl⟩ := pure_ok.mp hrun
    simpa [spriteFiles] using h
  | cons edit rest ih =>
    obtain ⟨hfirst, hothers⟩ := List.forall_mem_cons.mp hadding
    obtain ⟨t, hedit, hrest⟩ := forM_cons_ok.mp hrun
    cases edit with
    | setup folder tree => exact ih hothers (h.introduces (introduces_setup _ _ _ hedit)) hrest
    | stage folder script =>
      exact ih hothers (h.introduces (introduces_addStage _ _ _ hedit)) hrest
    | sprite folder file =>
      obtain ⟨name, t', hadd, hdone⟩ := bind_ok.mp hedit
      obtain ⟨-, rfl⟩ := pure_ok.mp hdone
      obtain ⟨target, hname, hblank, hdraft, hframe⟩ := addSprite_ok hadd
      have hall := ih hothers (h.withSprite hname hblank hdraft hframe) hrest
      rwa [List.append_assoc] at hall
    | build => exact absurd rfl hfirst

end

section

variable {items before after : List (String × SpriteEntry)} {name : String}

def hatsOf (f : SpriteFile) : List Stmt := f.script.statements.filter fun stmt => stmt.part == .hat

def functionsOf (f : SpriteFile) : List Stmt :=
  f.script.statements.filter fun stmt => stmt.part == .function

/-- A sprite that is not among those that are built stays as it is. -/
theorem sprite_eq_of_forM (hitems : ∀ item ∈ items, item.2.index ≠ k)
    (h : (items.forM fun (name, entry) => buildSprite name entry : Build Unit) s = .ok () s') :
    s'.draft.project.sprites[k]? = s.draft.project.sprites[k]? := by
  induction items generalizing s with
  | nil =>
    obtain ⟨-, rfl⟩ := pure_ok.mp h
    rfl
  | cons item rest ih =>
    obtain ⟨hfirst, hrest⟩ := List.forall_mem_cons.mp hitems
    obtain ⟨t, hown, h⟩ := forM_cons_ok.mp h
    obtain ⟨-, log, hcreates, -⟩ := buildSprite_creates hown
    exact (ih hrest h).trans (hcreates.others (.sprite k) (by simpa using Ne.symm hfirst) (by simp))

/-- Building adds no sprites. -/
theorem Creates.length_eq {log : List Creation}
    (h : Creates own log d d') : d'.project.sprites.length = d.project.sprites.length := by
  have hbound : ∀ j, j < d'.project.sprites.length ↔ j < d.project.sprites.length := by
    intro j
    have hsome : d'.project.sprites[j]?.isSome = d.project.sprites[j]?.isSome :=
      h.isSome_target? (.sprite j)
    rw [Bool.eq_iff_iff] at hsome
    simpa using hsome
  exact eq_of_forall_lt_iff hbound

theorem length_eq_of_forM
    (h : (items.forM fun (name, entry) => buildSprite name entry : Build Unit) s = .ok () s') :
    s'.draft.project.sprites.length = s.draft.project.sprites.length := by
  induction items generalizing s with
  | nil =>
    obtain ⟨-, rfl⟩ := pure_ok.mp h
    rfl
  | cons item rest ih =>
    obtain ⟨t, hown, h⟩ := forM_cons_ok.mp h
    obtain ⟨-, log, hcreates, -⟩ := buildSprite_creates hown
    exact (ih h).trans hcreates.length_eq

/-- What building a blank sprite makes of it. -/
theorem buildSprite_made (hblank : IsBlank blank)
    (hown : s.draft.project.target? (.sprite k) = some blank)
    (h : buildSprite name (f.entry k) s = .ok () s') :
    ∃ target own, s'.draft.project.sprites[k]? = some target ∧
      List.Forall₂ IsBlockOf (functionsOf f) target.custom ∧
      List.Forall₂ IsScriptOf (hatsOf f) own ∧ own.Sublist target.scripts := by
  obtain ⟨_, t, hbuild, hlog⟩ := bind_ok.mp h
  obtain ⟨hdraft, -⟩ := debug_ok hlog
  obtain ⟨target, blocks, added, own, htarget, hcustom, hadded, hblocks, hscripts, hsublist⟩ :=
    buildTarget_adds hown hbuild
  rw [hblank.2.1, List.nil_append] at hcustom
  rw [hblank.2.2, List.nil_append] at hadded
  refine ⟨target, own, ?_, ?_, hscripts, ?_⟩
  · rw [hdraft]
    exact htarget
  · rw [hcustom]
    exact hblocks.imp fun _ _ => Copies.isBlockOf
  · rw [hadded]
    exact hsublist

theorem Collected.target (h : Collected files s) (hf : files[k]? = some f) :
    ∃ t, s.draft.project.sprites[k]? = some t ∧ f.name = .ok t.name ∧ IsBlank t := by
  have htargets := h.targets
  clear h
  generalize s.draft.project.sprites = targets at htargets ⊢
  induction htargets generalizing k with
  | nil => cases hf
  | cons hfirst _ ih =>
    cases k with
    | zero => exact ⟨_, rfl, Option.some.inj hf ▸ hfirst⟩
    | succ k => exact ih hf

/-- A listed sprite is built in a pass of its own, and no other pass concerns it. -/
theorem Collected.pass (h : Collected files s) (hlast : IsLast files k f)
    (hname : f.name = .ok name)
    (hrun : (s.draft.sprites.forM fun (name, entry) => buildSprite name entry : Build Unit) start =
      .ok () s') :
    ∃ t u, buildSprite name (f.entry k) t = .ok () u ∧
      t.draft.project.sprites[k]? = start.draft.project.sprites[k]? ∧
      s'.draft.project.sprites[k]? = u.draft.project.sprites[k]? := by
  have hmem : (name, f.entry k) ∈ s.draft.sprites :=
    (h.entries _).mpr ⟨k, f, hlast, hname, rfl⟩
  have hkeys := h.keys
  have hentries := fun item => (h.entries item).mp
  obtain ⟨before, after, hsplit⟩ := List.append_of_mem hmem
  rw [hsplit] at hrun hkeys hentries
  have hsame : ∀ item ∈ before ++ (name, f.entry k) :: after, item.2.index = k → item.1 = name := by
    intro item hitem hindex
    obtain ⟨j, g, hg, hown, hentry⟩ := hentries item hitem
    have hj : j = k := by
      rw [hentry] at hindex
      exact hindex
    subst hj
    obtain rfl := Option.some.inj (hg.own.symm.trans hlast.own)
    exact Except.ok.inj (hown.symm.trans hname)
  have hfresh : name ∉ before.map Prod.fst ++ after.map Prod.fst := by
    have hnodup : (before.map Prod.fst ++ name :: after.map Prod.fst).Nodup := by
      simpa [Assoc.keys] using hkeys
    obtain ⟨-, hafter, hapart⟩ := List.nodup_append.mp hnodup
    rw [List.mem_append]
    rintro (hname | hname)
    · exact hapart _ hname _ List.mem_cons_self rfl
    · exact (List.nodup_cons.mp hafter).1 hname
  have hother : ∀ item, item ∈ before ∨ item ∈ after → item.2.index ≠ k := by
    intro item hitem hindex
    have hmem : item ∈ before ++ (name, f.entry k) :: after := by
      rcases hitem with hitem | hitem <;> simp [hitem]
    rw [← hsame item hmem hindex, ← List.map_append] at hfresh
    exact hfresh (List.mem_map_of_mem (List.mem_append.mpr hitem))
  obtain ⟨t, hbefore, hrest⟩ := forM_append_ok.mp hrun
  obtain ⟨u, hown, hafter⟩ := forM_cons_ok.mp hrest
  refine ⟨t, u, hown, ?_, ?_⟩
  · exact sprite_eq_of_forM (fun item hitem => hother item (.inl hitem)) hbefore
  · exact sprite_eq_of_forM (fun item hitem => hother item (.inr hitem)) hafter

/-- A sprite with a later namesake is not listed. -/
theorem Collected.not_listed (h : Collected files s) (hlast : ¬ IsLast files k f)
    (hf : files[k]? = some f) : ∀ item ∈ s.draft.sprites, item.2.index ≠ k := by
  rintro item hitem rfl
  obtain ⟨j, g, hg, -, hentry⟩ := (h.entries item).mp hitem
  have hj : item.2.index = j := by rw [hentry]; rfl
  rw [hj] at hf hlast
  obtain rfl := Option.some.inj (hg.own.symm.trans hf)
  exact hlast hg

end

/-- Which sprites have the scripts of their own file after setups, stages and sprites were added
in any order and the project was built. There is one target for each sprite, in the order in
which they were added. If no later sprite has its name, it is built from its own file: its
functions are its custom blocks, and each of its hats has a script. Otherwise nothing is built
for it, and it stays blank. So a sprite has the scripts of its own hats exactly if no later sprite
has its name, or if it has no hats. -/
theorem own_scripts_iff_last (session : Session) (folder : String) (edits : List Edit)
    (hadding : ∀ edit ∈ edits, edit ≠ .build) {s s' : BuildState}
    (hedits : history edits (.fresh session folder) = .ok () s) (hbuild : project s = .ok () s') :
    s'.draft.project.sprites.length = (spriteFiles edits).length ∧
    ∀ k f, (spriteFiles edits)[k]? = some f →
      ∃ blank target, s.draft.project.sprites[k]? = some blank ∧ IsBlank blank ∧
        f.name = .ok blank.name ∧ s'.draft.project.sprites[k]? = some target ∧
        (IsLast (spriteFiles edits) k f →
          (∃ t u, buildSprite blank.name (f.entry k) t = .ok () u ∧
            t.draft.project.sprites[k]? = some blank ∧
            u.draft.project.sprites[k]? = some target) ∧
          List.Forall₂ IsBlockOf (functionsOf f) target.custom ∧
          ∃ own, List.Forall₂ IsScriptOf (hatsOf f) own ∧ own.Sublist target.scripts) ∧
        (¬ IsLast (spriteFiles edits) k f → target = blank) ∧
        ((∃ own, List.Forall₂ IsScriptOf (hatsOf f) own ∧ own.Sublist target.scripts) ↔
          IsLast (spriteFiles edits) k f ∨ hatsOf f = []) := by
  have hcollected := (collected_fresh session folder).history hadding hedits
  rw [List.nil_append] at hcollected
  obtain ⟨t, hstage, hlisting, hsprites⟩ := project_ok hbuild
  obtain ⟨-, log, hcreates, -⟩ := buildStage_creates hstage
  refine ⟨?_, fun k f hf => ?_⟩
  · rw [length_eq_of_forM hsprites, hcreates.length_eq, hcollected.targets.length_eq]
  obtain ⟨blank, hblank, hname, hempty⟩ := hcollected.target hf
  have hstart : t.draft.project.sprites[k]? = some blank := by rw [hcreates.sprites_eq, hblank]
  by_cases hlast : IsLast (spriteFiles edits) k f
  · obtain ⟨u, v, hpass, hbefore, hafter⟩ := hcollected.pass hlast hname hsprites
    rw [hstart] at hbefore
    obtain ⟨target, own, htarget, hblocks, hscripts, hsublist⟩ :=
      buildSprite_made hempty hbefore hpass
    refine ⟨blank, target, hblank, hempty, hname, hafter.trans htarget, fun _ =>
      ⟨⟨u, v, hpass, hbefore, htarget⟩, hblocks, own, hscripts, hsublist⟩, fun hnot =>
      absurd hlast hnot, fun _ => .inl hlast, fun _ => ⟨own, hscripts, hsublist⟩⟩
  · have hsame := sprite_eq_of_forM (hcollected.not_listed hlast hf) hsprites
    refine ⟨blank, blank, hblank, hempty, hname, hsame.trans hstart, fun hyes =>
      absurd hyes hlast, fun _ => rfl, ?_, ?_⟩
    · rintro ⟨own, hscripts, hsublist⟩
      rw [hempty.2.2, List.sublist_nil] at hsublist
      subst hsublist
      exact .inr (List.forall₂_nil_right_iff.mp hscripts)
    · rintro (hyes | hnone)
      · exact absurd hyes hlast
      · rw [hnone]
        exact ⟨[], .nil, List.nil_sublist _⟩

/-- A file that gives its sprite the name of a cat and waits for the flag. -/
def catFile (filename : String) : SpriteFile :=
  ⟨⟨[⟨.start 0, some "#name", some (.str "cat")⟩],
    [.hat (.start 0) (.attr (.start 0) (.str "scratch") "on_flag") [] []]⟩, filename⟩

def twoCats : List Edit :=
  [.sprite (.root "project" (.folder [])) (catFile "first.sbs"),
    .sprite (.root "project" (.folder [])) (catFile "second.sbs")]

theorem own_scripts_iff_last_cats :
    ∃ s s' first second,
      history twoCats (.fresh (.fresh (some .error) false) "project") = .ok () s ∧
      project s = .ok () s' ∧ s'.draft.project.sprites = [first, second] ∧ IsBlank first ∧
      (¬ ∃ own, List.Forall₂ IsScriptOf (hatsOf (catFile "first.sbs")) own ∧
        own.Sublist first.scripts) ∧
      ∃ own, List.Forall₂ IsScriptOf (hatsOf (catFile "second.sbs")) own ∧
        own.Sublist second.scripts := by
  have hsucceeds : seen (fun s => seen (fun _ => ()) (project s))
      (history twoCats (.fresh (.fresh (some .error) false) "project")) = some (some ()) := by
    decide +kernel
  have hnames : (catFile "first.sbs").name = (catFile "second.sbs").name := rfl
  obtain ⟨s, hedits, hbuilds⟩ := exists_of_seen hsucceeds
  obtain ⟨s', hbuild, -⟩ := exists_of_seen hbuilds
  have hadding : ∀ edit ∈ twoCats, edit ≠ .build := by simp [twoCats]
  obtain ⟨hlength, hsprites⟩ := own_scripts_iff_last _ _ twoCats hadding hedits hbuild
  have hfirst : ¬ IsLast (spriteFiles twoCats) 0 (catFile "first.sbs") := fun hlast =>
    hlast.later 1 (catFile "second.sbs") Nat.zero_lt_one rfl hnames.symm
  have hsecond : IsLast (spriteFiles twoCats) 1 (catFile "second.sbs") := by
    refine ⟨rfl, fun j g hj hg => ?_⟩
    have hbound : j < 2 := (List.getElem?_eq_some_iff.mp hg).1
    omega
  obtain ⟨blank, first, -, hblank, -, hat, -, hsame, hiff⟩ := hsprites 0 _ rfl
  obtain ⟨-, second, -, -, -, hat', -, -, hiff'⟩ := hsprites 1 _ rfl
  refine ⟨s, s', first, second, hedits, hbuild, ?_, hsame hfirst ▸ hblank, fun hown => ?_,
    hiff'.mpr (.inl hsecond)⟩
  · refine List.ext_getElem? fun j => ?_
    rcases j with _ | _ | j
    · exact hat
    · exact hat'
    · refine List.getElem?_eq_none_iff.mpr ?_
      rw [hlength]
      exact Nat.le_add_left 2 j
  · rcases hiff.mp hown with hlast | hnone
    · exact hfirst hlast
    · cases hnone

end Build

end BlockScript
