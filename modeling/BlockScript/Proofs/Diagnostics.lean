import BlockScript.Session
import Mathlib.Data.List.Induction
import Mathlib.Data.List.TakeWhile

/-!
Where a report points. With a position it names the line and the column of that place, shows the
line below at most two lines before it, and puts the arrow under the column. Without one it should
point at the last character that is not blank. It does so only if the text does not begin with a
blank and no newline follows that character.
-/
namespace BlockScript

namespace Text

/-- Lines, each with the newline that ends it. -/
def unlines (lines : List (List Char)) : List Char := lines.flatMap (· ++ ['\n'])

@[simp] theorem unlines_cons (line : List Char) (lines : List (List Char)) :
    unlines (line :: lines) = line ++ '\n' :: unlines lines := by
  simp [unlines]

/-- A place in a text: the lines above it, what stands before it and after it in its own line, and
the text from the end of that line on. -/
structure Located (cs : List Char) (place : Nat) (above : List (List Char))
    (left right below : List Char) : Prop where
  text : cs = unlines above ++ left ++ (right ++ below)
  lines : ∀ line ∈ above, '\n' ∉ line
  line : '\n' ∉ left ++ right
  stop : ∀ c ∈ below.head?, c = '\n'
  place : place = (unlines above ++ left).length

theorem exists_unlines (cs : List Char) : ∃ above left, cs = unlines above ++ left ∧
    (∀ line ∈ above, '\n' ∉ line) ∧ '\n' ∉ left := by
  induction cs with
  | nil => exact ⟨[], [], rfl, by simp, by simp⟩
  | cons c cs ih =>
    obtain ⟨above, left, rfl, habove, hleft⟩ := ih
    by_cases hc : c = '\n'
    · exact ⟨[] :: above, left, by simp [hc], by simpa using habove, hleft⟩
    · cases above with
      | nil => exact ⟨[], c :: left, rfl, by simp, by simpa [Ne.symm hc] using hleft⟩
      | cons line above =>
        exact ⟨(c :: line) :: above, left, by simp, by simpa [Ne.symm hc] using habove, hleft⟩

theorem exists_located {cs : List Char} {place : Nat} (h : place ≤ cs.length) :
    ∃ above left right below, Located cs place above left right below := by
  obtain ⟨above, left, hbefore, habove, hleft⟩ := exists_unlines (cs.take place)
  refine ⟨above, left, (cs.drop place).takeWhile (· ≠ '\n'), (cs.drop place).dropWhile (· ≠ '\n'),
    ?_, habove, ?_, ?_, ?_⟩
  · rw [List.takeWhile_append_dropWhile, ← hbefore, List.take_append_drop]
  · have hright : ∀ c ∈ (cs.drop place).takeWhile (· ≠ '\n'), c ≠ '\n' := fun c hc => by
      simpa using List.all_eq_true.mp List.all_takeWhile c hc
    exact fun hmem => (List.mem_append.mp hmem).elim hleft fun hmem => hright _ hmem rfl
  · intro c hc
    have hstop := List.head?_dropWhile_not (fun c => decide (c ≠ '\n')) (cs.drop place)
    rw [Option.mem_def.mp hc] at hstop
    simpa using hstop
  · rw [← hbefore, List.length_take, Nat.min_eq_left h]

theorem lineStart_append {left : List Char} (cs : List Char) (h : '\n' ∉ left) :
    lineStart (cs ++ left) = lineStart cs := by
  have hall : ∀ c ∈ left.reverse, decide (c ≠ '\n') = true := fun c hc => by
    simp only [decide_eq_true_eq]
    rintro rfl
    exact h (List.mem_reverse.mp hc)
  rw [lineStart, lineStart, List.reverse_append, List.takeWhile_append_of_pos hall]
  simp only [List.length_append, List.length_reverse]
  omega

theorem lineStart_unlines (above : List (List Char)) :
    lineStart (unlines above) = (unlines above).length := by
  cases above using List.reverseRecOn with
  | nil => rfl
  | append_singleton above line => simp [unlines, lineStart]

theorem splitLines_append {line : List Char} (h : '\n' ∉ line) (rest : List Char) :
    splitLines (line ++ '\n' :: rest) = line :: splitLines rest := by
  induction line with
  | nil => simp [splitLines]
  | cons c line ih =>
    rw [List.mem_cons, not_or] at h
    simp [splitLines, Ne.symm h.1, ih h.2]

theorem splitLines_line {line : List Char} (h : '\n' ∉ line) : splitLines line = [line] := by
  induction line with
  | nil => rfl
  | cons c line ih =>
    rw [List.mem_cons, not_or] at h
    simp [splitLines, Ne.symm h.1, ih h.2]

theorem splitLines_unlines {above : List (List Char)} (h : ∀ line ∈ above, '\n' ∉ line)
    (rest : List Char) :
    splitLines (unlines above ++ rest) = above ++ splitLines rest := by
  induction above with
  | nil => rfl
  | cons line above ih =>
    rw [List.forall_mem_cons] at h
    simp [splitLines_append h.1, ih h.2]

theorem countNewlines_unlines {above : List (List Char)} (h : ∀ line ∈ above, '\n' ∉ line) :
    countNewlines (unlines above) = above.length := by
  induction above with
  | nil => rfl
  | cons line above ih =>
    rw [List.forall_mem_cons] at h
    simp only [countNewlines] at ih
    simp [countNewlines, List.count_eq_zero_of_not_mem h.1, ih h.2]

namespace Located

variable {cs left right below : List Char} {place : Nat} {above : List (List Char)}
  (h : Located cs place above left right below)

include h

theorem take_clampOffset : cs.take (clampOffset cs.length place) = unlines above ++ left := by
  have hle : place ≤ cs.length := by simp [h.text, h.place]
  have hplace : clampOffset cs.length place = (unlines above ++ left).length := by
    simp only [clampOffset, Int.toNat_natCast, Nat.min_eq_left hle, ← h.place]
    rw [if_neg (by omega)]
  rw [hplace, h.text, List.take_left]

theorem newlinesBefore : newlinesBefore cs place = above.length := by
  have hleft : '\n' ∉ left := fun hmem => h.line (List.mem_append_left _ hmem)
  have habove := countNewlines_unlines h.lines
  rw [countNewlines] at habove
  rw [Text.newlinesBefore, h.take_clampOffset, countNewlines, List.count_append, habove,
    List.count_eq_zero_of_not_mem hleft, Nat.add_zero]

theorem column : column cs place = left.length + 1 := by
  have hleft : '\n' ∉ left := fun hmem => h.line (List.mem_append_left _ hmem)
  rw [Text.column, lastNewline, h.take_clampOffset, lineStart_append _ hleft, lineStart_unlines,
    h.place, List.length_append]
  omega

/-- The lines of the text: those above, the line of the place, and the others. -/
theorem take_splitLines : (splitLines cs).take (above.length + 1) = above ++ [left ++ right] := by
  have hrest : ∃ others, splitLines (left ++ right ++ below) = (left ++ right) :: others := by
    cases below with
    | nil => exact ⟨[], by rw [List.append_nil, splitLines_line h.line]⟩
    | cons c below =>
      obtain rfl := h.stop c rfl
      exact ⟨_, splitLines_append h.line below⟩
  obtain ⟨others, hothers⟩ := hrest
  have htext : cs = unlines above ++ (left ++ right ++ below) := by simp [h.text]
  rw [htext, splitLines_unlines h.lines, hothers, ← List.singleton_append, ← List.append_assoc]
  exact List.take_left' (by simp)

end Located

end Text

namespace Diagnostic

open Text

/-- The report of a problem: its line and column, the lines above and the faulty line, which alone
is marked, and an arrow below the column. -/
def layout (file message : String) (line column : Nat) (above : List String) (faulty : String) :
    String :=
  let heading :=
    "Error on line " ++ Problem.intText line ++ ", column " ++ Problem.intText column ++ ": "
  "There was a problem parsing " ++ Colour.bright ++ file ++ "\n\n" ++
    heading ++ Colour.red ++ message ++ Colour.reset ++ Colour.plain ++ "\n" ++
    String.ofList (List.replicate (heading.length + message.length) '-') ++ "\n" ++
    (String.join (above.map (· ++ "\n")) ++ (Colour.yellow ++ faulty ++ Colour.reset)) ++ "\n" ++
    (String.ofList (List.replicate (column - 1) ' ') ++ "^")

/-- The lines above the faulty one that are shown. -/
def shownAbove (above : List (List Char)) : List String :=
  (above.drop (above.length - 2)).map String.ofList

theorem intercalate_highlightLast (above : List String) (faulty : String) :
    "\n".intercalate (highlightLast (above ++ [faulty])) =
      String.join (above.map (· ++ "\n")) ++ (Colour.yellow ++ faulty ++ Colour.reset) := by
  induction above with
  | nil => simp [highlightLast]
  | cons line above ih =>
    have hne : ∃ first rest, highlightLast (above ++ [faulty]) = first :: rest := by
      cases above with
      | nil => exact ⟨_, _, rfl⟩
      | cons line' above => cases above <;> exact ⟨_, _, rfl⟩
    obtain ⟨first, rest, hrest⟩ := hne
    have hcons : highlightLast (line :: (above ++ [faulty])) =
        line :: highlightLast (above ++ [faulty]) := by
      cases above <;> rfl
    rw [List.cons_append, hcons, hrest, String.intercalate_cons_cons, ← hrest, ih]
    simp [String.append_assoc]

theorem report_located {d : Diagnostic} {n : Nat} {above : List (List Char)}
    {left right below : List Char} (hplace : d.place = n)
    (h : Located d.chars n above left right below) :
    d.report = layout d.file d.problem.message d.lineNumber (left.length + 1) (shownAbove above)
      (.ofList (left ++ right)) := by
  have hlines : d.shownLines = shownAbove above ++ [.ofList (left ++ right)] := by
    simp only [shownLines, hplace, h.newlinesBefore, context, h.take_splitLines]
    rw [List.drop_append_of_le_length (by omega), List.map_append]
    simp [shownAbove]
  have hcolumn : Text.column d.chars d.place = (left.length + 1 : Nat) := by
    rw [hplace, h.column]
    rfl
  have harrow : d.arrow = String.ofList (List.replicate (left.length + 1 - 1) ' ') ++ "^" := by
    rw [arrow, hcolumn]
    simp
  have hshown := intercalate_highlightLast (shownAbove above) (.ofList (left ++ right))
  rw [← hlines] at hshown
  unfold report layout heading
  simp only [hcolumn, harrow, hshown]

/-- At the end of a text the column is that of a place too far to the left if the text begins with a
blank, and the line is a later one if a newline follows the last character that is not blank. -/
theorem report_end {d : Diagnostic} {before after : List Char} {c : Char}
    (hposition : d.position = none)
    (htext : d.chars = before ++ c :: after) (hc : isBlank c = false)
    (hafter : ∀ b ∈ after, isBlank b = true) :
    ∃ place above left right below, Located d.chars place above left right below ∧
      d.report = layout d.file d.problem.message (countNewlines d.chars + 1) (left.length + 1)
        (shownAbove above) (.ofList (left ++ right)) ∧
      (∀ s : Session, s.current = some d.file → s.content = .ok d.source → s.position = none →
        s.diagnose d.problem = .diagnosed d (s.console.shown d.report)) ∧
      (place = before.length ∧ above.length = countNewlines d.chars ↔
        (∀ b ∈ (before ++ [c]).head?, isBlank b = false) ∧ '\n' ∉ after) := by
  have hdrop : d.chars.dropWhile isBlank = before.dropWhile isBlank ++ c :: after := by
    rw [htext, List.dropWhile_append]
    cases hbefore : before.dropWhile isBlank <;> simp [hc]
  have htrim : (trimBy isBlank d.chars).length = (before.dropWhile isBlank).length + 1 := by
    have hblank : after.reverse.dropWhile isBlank = [] := by simpa using hafter
    simp [trimBy, hdrop, List.dropWhile_append, hblank, hc]
  have hplace : d.place = (before.dropWhile isBlank).length := by
    simp [place, hposition, htrim]
  have hle : (before.dropWhile isBlank).length ≤ before.length :=
    (List.dropWhile_sublist isBlank).length_le
  obtain ⟨above, left, right, below, h⟩ : ∃ above left right below,
      Located d.chars (before.dropWhile isBlank).length above left right below :=
    exists_located (by simp [htext]; omega)
  have hreport := report_located hplace h
  have hline : d.lineNumber = countNewlines d.chars + 1 := by simp [lineNumber, hposition]
  rw [hline] at hreport
  refine ⟨_, above, left, right, below, h, hreport, fun s hfile hsource hnone => ?_, ?_⟩
  · simp only [Session.diagnose, hfile, hsource, hnone, ← hposition]
  have hfirst : (before.dropWhile isBlank).length = before.length ↔
      ∀ b ∈ (before ++ [c]).head?, isBlank b = false := by
    cases before with
    | nil => simpa using hc
    | cons b before =>
      have hless := (List.dropWhile_sublist isBlank (l := before)).length_le
      cases hb : isBlank b <;> simp [hb]
      omega
  have hvisible : c ≠ '\n' := by
    rintro rfl
    cases hc
  rw [hfirst]
  refine and_congr_right fun hstart => ?_
  have habove : above.length = before.count '\n' := by
    have hsign : ¬ (before.length : Int) < 0 := by omega
    rw [← h.newlinesBefore, hfirst.mpr hstart, newlinesBefore, htext]
    simp [clampOffset, countNewlines, hsign]
  rw [habove, countNewlines, htext, List.count_append, List.count_cons_of_ne hvisible,
    ← List.count_eq_zero]
  omega

theorem report_end_newline : ∃ place above left right below,
    Located "a\n".toList place above left right below ∧
      ¬ (place = 0 ∧ above.length = countNewlines "a\n".toList) := by
  have htext : "a\n".toList = [] ++ 'a' :: ['\n'] := by decide
  obtain ⟨place, above, left, right, below, hlocated, _, _, hend⟩ :=
    report_end (d := ⟨.expectedSemicolon, "f", "a\n", none⟩) rfl htext rfl (by simp [isBlank])
  exact ⟨place, above, left, right, below, hlocated, fun h => (hend.mp h).2 (by decide)⟩

end Diagnostic

namespace Session

open Text Diagnostic

/-- A problem is shown at its place. Without colour all codes are taken out of the report, and those
that the file has of its own are lost with them. -/
theorem diagnose_located {s : Session} {file source : String} {n : Nat}
    (hfile : s.current = some file) (hsource : s.content = .ok source)
    (hposition : s.position = some (n : Int)) (hn : n ≤ source.toList.length) (p : Problem) :
    ∃ above left right below, Located source.toList n above left right below ∧
      s.diagnose p = .diagnosed ⟨p, file, source, some n⟩
        (s.console.shown (layout file p.message (above.length + 1) (left.length + 1)
          (shownAbove above) (.ofList (left ++ right)))) := by
  obtain ⟨above, left, right, below, h⟩ := exists_located hn
  have hreport := report_located (d := ⟨p, file, source, some n⟩) rfl h
  have hline : (Diagnostic.mk p file source (some n)).lineNumber = above.length + 1 :=
    congrArg (· + 1) h.newlinesBefore
  refine ⟨above, left, right, below, h, ?_⟩
  simp only [diagnose, hfile, hsource, hposition, hreport, hline]

theorem diagnose_located_code : ∃ above left right below,
    Located "\x1b[31ma".toList 5 above left right below ∧
      { (fresh none false).register "f" "\x1b[31ma" with position := some 5 }.diagnose
        .expectedSemicolon = .diagnosed ⟨.expectedSemicolon, "f", "\x1b[31ma", some 5⟩
          ((fresh none false).console.shown (layout "f" Problem.expectedSemicolon.message
            (above.length + 1) (left.length + 1) (shownAbove above) (.ofList (left ++ right)))) :=
  diagnose_located (n := 5)
    (s := { (fresh none false).register "f" "\x1b[31ma" with position := some 5 }) rfl rfl rfl
    (by decide) .expectedSemicolon

end Session

end BlockScript
