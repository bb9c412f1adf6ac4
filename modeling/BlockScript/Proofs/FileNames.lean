import BlockScript.Text.FileName
import Mathlib.Data.List.DropRight

/-!
The names of files that are made from titles. Such a name is the title without the characters that
are refused and without the dots and blanks that then stand at the end. What has been made into a
name stays as it is. Only a title with nothing but refused characters, dots and blanks has no name.
-/
namespace BlockScript.Text

/-- The characters of a title that may stand in a name. -/
def permitted (title : String) : List Char :=
  title.toList.filter fun c => !forbiddenInNames.contains c

/-- Whether a character stays in the name of a title wherever it is written. -/
def staysInName (c : Char) : Bool := !forbiddenInNames.contains c && !isTrailing c

/-- A name that file systems take. -/
structure FileSafe (name : String) : Prop where
  allowed : ∀ c ∈ name.toList, c ∉ forbiddenInNames
  ending : ∀ c ∈ name.toList.getLast?, isTrailing c = false

theorem fileName_eq (title : String) : fileName title =
    if ((permitted title).rdropWhile isTrailing).isEmpty then .error .outOfRange
    else .ok (String.ofList ((permitted title).rdropWhile isTrailing)) := rfl

theorem rdropWhile_permitted_eq_nil (title : String) :
    (permitted title).rdropWhile isTrailing = [] ↔ ∀ c ∈ title.toList, staysInName c = false := by
  simp [permitted, staysInName]

theorem fileName_error_iff (title : String) :
    fileName title = .error .outOfRange ↔ ∀ c ∈ title.toList, staysInName c = false := by
  rw [← rdropWhile_permitted_eq_nil, ← List.isEmpty_iff, fileName_eq]
  split <;> simp [*]

theorem exists_fileName_iff (title : String) :
    (∃ name, fileName title = .ok name) ↔ ∃ c ∈ title.toList, staysInName c = true := by
  rw [← not_iff_not, show (¬∃ c ∈ title.toList, staysInName c = true) ↔
    ∀ c ∈ title.toList, staysInName c = false by simp, ← fileName_error_iff, fileName_eq]
  split <;> simp

/-- A list with a character at its end that is no dot and no blank keeps all that is before. -/
theorem rdropWhile_append_trailing {cs cut : List Char} (hcut : ∀ c ∈ cut, isTrailing c = true)
    (hlast : ∀ c ∈ cs.getLast?, isTrailing c = false) :
    (cs ++ cut).rdropWhile isTrailing = cs := by
  induction cut using List.reverseRecOn with
  | nil =>
    rw [List.append_nil, List.rdropWhile_eq_self_iff]
    intro hne
    simp [hlast _ (List.getLast_mem_getLast? hne)]
  | append_singleton cut c ih =>
    rw [← List.append_assoc, List.rdropWhile_concat_pos _ _ _ (hcut c (by simp))]
    exact ih fun d hd => hcut d (by simp [hd])

theorem fileSafe_rdropWhile (title : String) :
    FileSafe (String.ofList ((permitted title).rdropWhile isTrailing)) := by
  constructor
  · intro c hc
    rw [String.toList_ofList] at hc
    have hmem := (List.rdropWhile_prefix isTrailing (permitted title)).subset hc
    simpa using (List.mem_filter.mp hmem).2
  · intro c hc
    rw [String.toList_ofList] at hc
    obtain ⟨hne, rfl⟩ := List.mem_getLast?_eq_getLast hc
    simpa using List.rdropWhile_last_not isTrailing (permitted title) hne

/-- The name of a title, without the way in which it is found: it is not empty, it is safe, and the
title has only refused characters besides and dots and blanks after it. -/
theorem fileName_ok_iff (title name : String) : fileName title = .ok name ↔
    name ≠ "" ∧ FileSafe name ∧
      ∃ cut, (∀ c ∈ cut, isTrailing c = true) ∧ permitted title = name.toList ++ cut := by
  rw [fileName_eq]
  constructor
  · intro h
    split at h
    · cases h
    rename_i hne
    cases h
    refine ⟨by simpa using hne, fileSafe_rdropWhile title, (permitted title).rtakeWhile isTrailing,
      fun c => List.mem_rtakeWhile_imp, by simp⟩
  · rintro ⟨hne, hsafe, cut, hcut, htitle⟩
    rw [htitle, rdropWhile_append_trailing hcut hsafe.ending, if_neg (by simpa using hne),
      String.ofList_toList]

/-- A name is the name of itself. -/
theorem FileSafe.fileName_eq {name : String} (h : FileSafe name) (hne : name ≠ "") :
    fileName name = .ok name := by
  have hall : permitted name = name.toList :=
    List.filter_eq_self.mpr fun c hc => by simpa using h.allowed c hc
  exact (fileName_ok_iff name name).mpr ⟨hne, h, [], by simp, by simp [hall]⟩

/-- A title has a name exactly if some character of it stays. The name is then safe, it has the
characters of the title in their order, and it is its own name. -/
theorem fileName_made_iff (title : String) :
    ((∃ name, fileName title = .ok name ∧ FileSafe name ∧
        name.toList.Sublist title.toList ∧ fileName name = .ok name) ↔
      ∃ c ∈ title.toList, staysInName c = true) ∧
    (∀ name, fileName title = .ok name ↔ name ≠ "" ∧ FileSafe name ∧
      ∃ cut, (∀ c ∈ cut, isTrailing c = true) ∧ permitted title = name.toList ++ cut) ∧
    (fileName title = .error .outOfRange ↔ ∀ c ∈ title.toList, staysInName c = false) := by
  refine ⟨?_, fileName_ok_iff title, fileName_error_iff title⟩
  rw [← exists_fileName_iff]
  refine exists_congr fun name => ⟨And.left, fun hname => ⟨hname, ?_⟩⟩
  obtain ⟨hne, hsafe, cut, -, htitle⟩ := (fileName_ok_iff title name).mp hname
  have hkept : (permitted title).Sublist title.toList := List.filter_sublist
  rw [htitle] at hkept
  exact ⟨hsafe, (List.sublist_append_left _ cut).trans hkept, hsafe.fileName_eq hne⟩

end BlockScript.Text
