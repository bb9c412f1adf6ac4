import BlockScript.Token
import Mathlib.Data.List.Basic

/-!
Scanning words divided by single blanks, up to a semicolon. Every word becomes one token, whether
it is a name, a keyword or a mark, since neither a blank nor a semicolon goes on with a word.
-/
namespace BlockScript.Scan

open Text

/-- A word of a text, with the kind of the token that it is. -/
structure Word where
  kind : Terminal
  text : String
  deriving DecidableEq, Repr

/-- A rest of a text that no word goes on with. -/
def Delimited (rest : List Char) : Prop := ∃ r, rest = ' ' :: r ∨ rest = ';' :: r

/-- A word is one token of its kind wherever a blank or a semicolon comes after it. -/
def Word.Scans (d : Dialect) (w : Word) : Prop :=
  ∃ c cs, w.text.toList = c :: cs ∧ ∀ position rest, Delimited rest →
    lexeme d false position c (cs ++ rest) = .token w.kind (.text w.text) (cs.length + 1)

/-- A text that is scanned as a name or as a keyword. -/
def IsWord (text : String) : Prop :=
  ∃ c cs, text.toList = c :: cs ∧ isWordStart c = true ∧ ∀ d ∈ cs, isWordChar d = true

theorem Delimited.takeWhile (h : Delimited rest) : rest.takeWhile isWordChar = [] := by
  obtain ⟨r, rfl | rfl⟩ := h
  all_goals exact List.takeWhile_cons_of_neg (by decide)

theorem ofWord_of_free (h : word ∉ (Terminal.keywords d).map (·.1)) :
    Terminal.ofWord d word = .word := by
  have hnone : (Terminal.keywords d).lookup word = none := by
    rw [List.lookup_eq_none_iff]
    intro k hk
    rw [bne_iff_ne]
    exact fun heq => h (heq ▸ List.mem_map_of_mem hk)
  rw [Terminal.ofWord, hnone]
  rfl

theorem IsWord.scans (h : IsWord text) (d : Dialect) :
    (Word.mk (Terminal.ofWord d text) text).Scans d := by
  obtain ⟨c, cs, htext, hc, hcs⟩ := h
  refine ⟨c, cs, htext, ?_⟩
  intro position rest hrest
  have hblank : (decide (c = ' ') || decide (c = '\t')) = false := by
    rw [Bool.or_eq_false_iff, decide_eq_false_iff_not, decide_eq_false_iff_not]
    constructor <;> (rintro rfl; revert hc; decide)
  have hnewline : c ≠ '\n' := by
    rintro rfl
    revert hc
    decide
  have hword : (cs ++ rest).takeWhile isWordChar = cs := by
    rw [List.takeWhile_append_of_pos hcs, hrest.takeWhile, List.append_nil]
  have htext' : String.ofList (c :: cs) = text := by rw [← htext, String.ofList_toList]
  have hlength : text.length = cs.length + 1 := by rw [← String.length_toList, htext]; rfl
  simp only [lexeme, hblank, hnewline, hc, hword, htext', hlength, Bool.false_eq_true, if_false,
    Bool.not_false, Bool.and_self, if_true]

/-- The characters of a word that has begun are passed over. -/
theorem scanFrom_skip (d : Dialect) (line position : Nat) (afterWord : Bool)
    (cs rest : List Char) : ∃ afterWord',
      scanFrom d line position afterWord cs.length (cs ++ rest) =
        scanFrom d line (position + cs.length) afterWord' 0 rest := by
  induction cs generalizing position afterWord with
  | nil => exact ⟨afterWord, rfl⟩
  | cons c cs ih =>
    obtain ⟨afterWord', h⟩ := ih (position + 1) (isWordChar c)
    refine ⟨afterWord', ?_⟩
    rw [List.cons_append, List.length_cons, scanFrom, if_pos (Nat.succ_ne_zero _),
      Nat.add_sub_cancel, h, Nat.add_assoc, Nat.add_comm 1]

def push (t : Token) (s : Scan) : Scan := { s with tokens := t :: s.tokens }

theorem Word.Scans.scanFrom {d : Dialect} {w : Word} (h : w.Scans d) (line position : Nat)
    {rest : List Char} (hrest : Delimited rest) : ∃ afterWord,
      scanFrom d line position false 0 (w.text.toList ++ rest) =
        push ⟨w.kind, .text w.text, line, position⟩
          (Scan.scanFrom d line (position + w.text.length) afterWord 0 rest) := by
  obtain ⟨c, cs, htext, hlexeme⟩ := h
  have hlength : w.text.length = cs.length + 1 := by rw [← String.length_toList, htext]; rfl
  obtain ⟨afterWord, hskip⟩ := scanFrom_skip d line (position + 1) (isWordChar c) cs rest
  refine ⟨afterWord, ?_⟩
  rw [htext, List.cons_append, Scan.scanFrom, if_neg (by simp), hlexeme position rest hrest]
  simp only [Nat.add_sub_cancel, hskip, hlength, push]
  rw [Nat.add_assoc, Nat.add_comm 1]

theorem scanFrom_blank (d : Dialect) (line position : Nat) (afterWord : Bool) (rest : List Char) :
    scanFrom d line position afterWord 0 (' ' :: rest) =
      scanFrom d line (position + 1) false 0 rest := rfl

theorem scanFrom_semicolon (line position : Nat) (afterWord : Bool) :
    scanFrom .script line position afterWord 0 [';'] =
      ⟨[⟨.semicolon, .text ";", line, position⟩], none, line⟩ := rfl

def spaced (ws : List Word) : String := " ".intercalate (ws.map (·.text))

/-- What a token says about the word it is, wherever that stands. -/
def isOf (t : Token) : Terminal × Literal := (t.kind, t.value)

theorem delimited_semicolon : Delimited [';'] := ⟨[], .inr rfl⟩

/-- Words divided by blanks and closed by a semicolon are scanned to one token each. -/
theorem scanFrom_spaced {ws : List Word} (hws : ∀ w ∈ ws, w.Scans .script) (hne : ws ≠ [])
    (line position : Nat) : ∃ ts t,
      scanFrom .script line position false 0 ((spaced ws).toList ++ [';']) =
        ⟨ts ++ [t], none, line⟩ ∧
      ts.map isOf = ws.map (fun w => (w.kind, .text w.text)) ∧ t.kind = .semicolon ∧
      ∀ u ∈ ts.head?, u.position = position := by
  induction ws generalizing position with
  | nil => exact absurd rfl hne
  | cons w ws ih =>
    obtain ⟨hw, hrest⟩ := List.forall_mem_cons.mp hws
    cases ws with
    | nil =>
      obtain ⟨afterWord, hscan⟩ := hw.scanFrom line position delimited_semicolon
      refine ⟨[⟨w.kind, .text w.text, line, position⟩],
        ⟨.semicolon, .text ";", line, position + w.text.length⟩, ?_, rfl, rfl, by simp⟩
      have htext : spaced [w] = w.text := by simp [spaced]
      rw [htext, hscan, scanFrom_semicolon]
      rfl
    | cons w' ws =>
      obtain ⟨ts, t, hscan, hts, ht, -⟩ := ih hrest (by simp) (position + w.text.length + 1)
      have hdelimited : Delimited (' ' :: ((spaced (w' :: ws)).toList ++ [';'])) :=
        ⟨_, .inl rfl⟩
      have htext : (spaced (w :: w' :: ws)).toList ++ [';'] =
          w.text.toList ++ ' ' :: ((spaced (w' :: ws)).toList ++ [';']) := by
        simp [spaced, String.toList_intercalate]
      obtain ⟨afterWord, hscan'⟩ := hw.scanFrom line position hdelimited
      refine ⟨⟨w.kind, .text w.text, line, position⟩ :: ts, t, ?_, ?_, ht, by simp⟩
      · rw [htext, hscan', scanFrom_blank, hscan]
        rfl
      · rw [List.map_cons, List.map_cons, hts]
        rfl

end BlockScript.Scan
