import BlockScript.Proofs.SpacedWords
import BlockScript.Text.Lines
import Mathlib.Data.List.TakeWhile

/-!
How a scan divides its text. The tokens of a text that is scanned to its end take up spans one
after the other. What stands between them is blanks, newlines and comments, and every comment runs
to the end of its line. A token is on the line that the newlines before it lead to. Where a mark or
a keyword is scanned, no longer one stands at that place.
-/
namespace BlockScript.Scan

open Text

/-- A text that is left out between tokens, before another text that comes after it. -/
inductive Ignored : List Char → List Char → Prop
  | nil (after : List Char) : Ignored [] after
  | blank {c : Char} {gap after : List Char} (hblank : c ∈ [' ', '\t', '\n'])
      (rest : Ignored gap after) : Ignored (c :: gap) after
  | comment {body gap after : List Char} (hbody : '\n' ∉ body)
      (hend : ∀ c ∈ (gap ++ after).head?, c = '\n') (rest : Ignored gap after) :
      Ignored ('/' :: '/' :: (body ++ gap)) after

/-- The characters of a token. -/
inductive Spelled (d : Dialect) : Terminal → Literal → List Char → Prop
  | word {text : String} (hword : IsWord text) :
      Spelled d (Terminal.ofWord d text) (.text text) text.toList
  | mark {m : String × Terminal} (hmark : m ∈ Terminal.marks d) :
      Spelled d m.2 (.text m.1) m.1.toList
  | string {quote : Char} {body text : List Char} (hquote : quote = '\'' ∨ quote = '"')
      (hclosed : closingLength? quote (body ++ [quote]) = some (body.length + 1))
      (htext : unescape body = some text) :
      Spelled d .string (.string (String.ofList text)) (quote :: (body ++ [quote]))
  | integer {figures : List Char} {n : Nat} (hne : figures ≠ [])
      (hdigits : ∀ c ∈ figures, isDecimalDigit c = true) (hvalue : integerValue? figures = some n) :
      Spelled d .integer (.int n) figures
  | based {letter : Char} {base : Nat} {allowed : Char → Bool} {figures : List Char} {n : Nat}
      (hbase : base? letter = some (base, allowed)) (hne : figures ≠ [])
      (hallowed : ∀ c ∈ figures, allowed c = true) (hvalue : basedValue? base figures = some n) :
      Spelled d .integer (.int n) ('0' :: letter :: figures)
  | decimal {whole fraction : List Char} {x : Float} (hwhole : ∀ c ∈ whole, isDecimalDigit c = true)
      (hne : fraction ≠ []) (hfraction : ∀ c ∈ fraction, isDecimalDigit c = true)
      (hvalue : Decimal.read? (whole ++ '.' :: fraction) = some x) :
      Spelled d .decimal (.float x) (whole ++ '.' :: fraction)

/-- The tokens that are always spelled the same. -/
def table (d : Dialect) : List (String × Terminal) := Terminal.marks d ++ Terminal.keywords d

/-- A kind of the table is spelled as the table says, and no longer spelling of the table stands at
the same place. -/
def Longest (d : Dialect) (kind : Terminal) (text rest : List Char) : Prop :=
  kind ∈ (table d).map Prod.snd → (String.ofList text, kind) ∈ table d ∧
    ∀ e ∈ table d, e.1.toList <+: text ++ rest → e.1.length ≤ text.length

/-- The characters of a token with what makes it one at its place. -/
structure Lexed (d : Dialect) (kind : Terminal) (value : Literal) (text rest : List Char) : Prop
    where
  spelled : Spelled d kind value text
  longest : Longest d kind text rest

/-- What is left out goes on with what is left out. -/
def Continues (skip rest : List Char) : Prop :=
  ∀ gap after, rest = gap ++ after → Ignored gap after → Ignored (skip ++ gap) after

/-- A lexeme stands at the front of a text. -/
def Lexeme.Reads (d : Dialect) (cs : List Char) : Lexeme → Prop
  | token kind value n => ∃ text rest, cs = text ++ rest ∧ text.length = n ∧
      Lexed d kind value text rest
  | newline => ∃ rest, cs = '\n' :: rest
  | skipped n => ∃ skip rest, cs = skip ++ rest ∧ skip.length = n ∧ skip ≠ [] ∧ '\n' ∉ skip ∧
      Continues skip rest
  | error _ => True

theorem isWordChar_of_start (h : isWordStart c = true) : isWordChar c = true := by
  have hword : (c.isAlphanum || c == '_') = true := by
    simp only [isWordStart, Bool.or_eq_true, decide_eq_true_eq] at h
    simpa [Char.isAlphanum] using h.elim (fun h => .inl (.inl h)) .inr
  have hlow : c.toNat < 128 := by
    simp only [isWordStart, Bool.or_eq_true] at h
    delta Char.isAlpha Char.isUpper Char.isLower at h
    simp only [Bool.or_eq_true, decide_eq_true_eq, Bool.and_eq_true] at h
    rcases h with (⟨_, h⟩ | ⟨_, h⟩) | rfl
    · exact Nat.lt_of_le_of_lt (UInt32.le_iff_toNat_le.mp h) (by decide)
    · exact Nat.lt_of_le_of_lt (UInt32.le_iff_toNat_le.mp h) (by decide)
    · decide
  rw [isWordChar, if_pos hlow, hword]

theorem base?_newline (h : base? letter = some (base, allowed)) :
    letter ≠ '\n' ∧ allowed '\n' = false := by
  unfold base? at h
  split at h <;> cases h <;> exact ⟨by decide, by decide⟩

/-- A string that is closed has no newline in it, and it is closed whatever comes after it. -/
theorem closingLength?_split {quote : Char}
    (h : closingLength? quote cs = some n) : ∃ body rest, cs = body ++ quote :: rest ∧
      n = body.length + 1 ∧ '\n' ∉ body ∧
      closingLength? quote (body ++ [quote]) = some (body.length + 1) := by
  fun_induction closingLength? quote cs generalizing n with
  | case1 | case2 => cases h
  | case3 c rest hc ih =>
    obtain ⟨m, hm, rfl⟩ := Option.map_eq_some_iff.mp h
    obtain ⟨body, rest, rfl, rfl, hbody, hclosed⟩ := ih hm
    refine ⟨'\\' :: c :: body, rest, rfl, rfl, ?_, ?_⟩
    · simp only [List.mem_cons, not_or]
      exact ⟨by decide, fun heq => hc heq.symm, hbody⟩
    · simp [closingLength?, hc, hclosed]
  | case4 rest hescape =>
    cases h
    exact ⟨[], rest, rfl, rfl, by simp, by simp [closingLength?]⟩
  | case5 => cases h
  | case6 c rest hescape hquote hplain ih =>
    obtain ⟨m, hm, rfl⟩ := Option.map_eq_some_iff.mp h
    obtain ⟨body, rest, rfl, rfl, hbody, hclosed⟩ := ih hm
    simp only [Bool.or_eq_true, decide_eq_true_eq, not_or] at hplain
    refine ⟨c :: body, rest, rfl, rfl, ?_, ?_⟩
    · simp only [List.mem_cons, not_or]
      exact ⟨fun heq => hplain.1 heq.symm, hbody⟩
    · rw [List.cons_append, closingLength?]
      · simp [hquote, hplain, hclosed]
      · exact fun _ _ heq => absurd heq hplain.2

variable {d : Dialect}

/-- No token goes beyond its line. -/
theorem Spelled.newline (h : Spelled d kind value text) : '\n' ∉ text := by
  have hdigits : ∀ cs : List Char, (∀ c ∈ cs, isDecimalDigit c = true) → '\n' ∉ cs :=
    fun cs hcs hmem => absurd (hcs _ hmem) (by decide)
  cases h with
  | word hword =>
    obtain ⟨c, cs, htext, hc, hcs⟩ := hword
    rw [htext]
    intro hmem
    rcases List.mem_cons.mp hmem with rfl | hmem
    · exact absurd hc (by decide)
    · exact absurd (hcs _ hmem) (by decide)
  | mark hmark =>
    have hmarks : ∀ d, ∀ m ∈ Terminal.marks d, '\n' ∉ m.1.toList := by
      intro d
      cases d <;> decide
    exact hmarks d _ hmark
  | @string quote body text hquote hclosed htext =>
    obtain ⟨body', rest, hsplit, hlength, hbody, -⟩ := closingLength?_split hclosed
    have hsame : body = body' := (List.append_inj hsplit (by omega)).1
    have hother : '\n' ≠ quote := by rcases hquote with rfl | rfl <;> decide
    simp only [List.mem_cons, List.mem_append, List.not_mem_nil, or_false, not_or]
    exact ⟨hother, hsame ▸ hbody, hother⟩
  | integer _ hall _ => exact hdigits _ hall
  | based hbase _ hall _ =>
    obtain ⟨hletter, hnewline⟩ := base?_newline hbase
    simp only [List.mem_cons, not_or]
    exact ⟨by decide, hletter.symm, fun hmem => by simp [hall _ hmem] at hnewline⟩
  | decimal hwhole _ hfraction _ =>
    simp only [List.mem_append, List.mem_cons, not_or]
    exact ⟨hdigits _ hwhole, by decide, hdigits _ hfraction⟩

theorem Spelled.ne_nil (h : Spelled d kind value text) : text ≠ [] := by
  cases h with
  | word hword =>
    obtain ⟨c, cs, htext, -⟩ := hword
    simp [htext]
  | mark hmark =>
    have hmarks : ∀ d, ∀ m ∈ Terminal.marks d, m.1.toList ≠ [] := by
      intro d
      cases d <;> decide
    exact hmarks d _ hmark
  | string | based | decimal => simp
  | integer hne => exact hne

section

variable {d : Dialect} {rest : List Char}

theorem mark_start : ∀ m ∈ Terminal.marks d, ∃ c cs, m.1.toList = c :: cs ∧
    isWordStart c = false := by
  have h : ∀ m ∈ Terminal.marks d, m.1.toList.head?.any (!isWordStart ·) = true := by
    cases d <;> decide
  intro m hm
  have := h m hm
  cases hcs : m.1.toList with
  | nil => simp [hcs] at this
  | cons c cs => exact ⟨c, cs, rfl, by simpa [hcs] using this⟩

theorem keyword_chars : ∀ e ∈ Terminal.keywords d, ∃ c cs, e.1.toList = c :: cs ∧
    isWordStart c = true ∧ ∀ c ∈ e.1.toList, isWordChar c = true := by
  have h : ∀ e ∈ Terminal.keywords d, e.1.toList.head?.any isWordStart = true ∧
      e.1.toList.all isWordChar = true := by
    cases d <;> decide
  intro e he
  obtain ⟨hstart, hall⟩ := h e he
  cases hcs : e.1.toList with
  | nil => simp [hcs] at hstart
  | cons c cs => exact ⟨c, cs, rfl, by simpa [hcs] using hstart, by simpa [hcs] using hall⟩

theorem kind_ne_of_table (h : kind ∈ (table d).map Prod.snd) :
    kind ≠ .word ∧ kind ≠ .string ∧ kind ≠ .integer ∧ kind ≠ .decimal := by
  have hall : ∀ k ∈ (table d).map Prod.snd,
      k ≠ .word ∧ k ≠ .string ∧ k ≠ .integer ∧ k ≠ .decimal := by
    cases d <;> decide
  exact hall kind h

theorem mem_keywords (h : Terminal.ofWord d word = kind) (hkind : kind ≠ .word) :
    (word, kind) ∈ Terminal.keywords d := by
  unfold Terminal.ofWord at h
  cases hlookup : (Terminal.keywords d).lookup word with
  | none =>
    rw [hlookup] at h
    exact absurd h.symm hkind
  | some k =>
    rw [hlookup] at h
    obtain ⟨before, after, hsplit, -⟩ := List.lookup_eq_some_iff.mp hlookup
    have hmem : (word, k) ∈ Terminal.keywords d := hsplit ▸ by simp
    exact h ▸ hmem

/-- What a list starts with and has a property throughout is no longer than its part with it. -/
theorem length_le_takeWhile (h : xs <+: ys)
    (hall : ∀ x ∈ xs, p x = true) : xs.length ≤ (ys.takeWhile p).length := by
  obtain ⟨zs, rfl⟩ := h
  rw [List.takeWhile_append_of_pos hall, List.length_append]
  omega

/-- The first match in a list of texts by falling length is the longest one. -/
theorem length_le_of_find? {p : String × Terminal → Bool} {l : List (String × Terminal)}
    {m : String × Terminal} (hsorted : l.Pairwise fun a b => b.1.length ≤ a.1.length)
    (hfind : l.find? p = some m) : ∀ e ∈ l, p e = true → e.1.length ≤ m.1.length := by
  induction hsorted with
  | nil => cases hfind
  | @cons a l hle _ ih =>
    cases ha : p a with
    | true =>
      rw [List.find?_cons_of_pos ha] at hfind
      cases hfind
      exact List.forall_mem_cons.mpr ⟨fun _ => Nat.le_refl _, fun e he _ => hle e he⟩
    | false =>
      rw [List.find?_cons_of_neg (by simp [ha])] at hfind
      refine List.forall_mem_cons.mpr ⟨fun h => ?_, ih hfind⟩
      rw [ha] at h
      cases h

theorem marks_sorted : (Terminal.marks d).Pairwise fun a b => b.1.length ≤ a.1.length := by
  cases d <;> decide

/-- A word is read as far as it goes, so that no keyword at its place is longer. -/
theorem lexed_word (hc : isWordStart c = true) :
    let word := String.ofList (c :: rest.takeWhile isWordChar)
    Lexed d (Terminal.ofWord d word) (.text word) word.toList (rest.dropWhile isWordChar) := by
  intro word
  have htext : word.toList = c :: rest.takeWhile isWordChar := String.toList_ofList
  have hwhole : word.toList ++ rest.dropWhile isWordChar = c :: rest := by
    rw [htext, List.cons_append, List.takeWhile_append_dropWhile]
  refine ⟨.word ⟨c, _, htext, hc, fun _ he => List.mem_takeWhile_imp he⟩, fun hkind => ?_⟩
  rw [String.ofList_toList, hwhole]
  have hkeyword := mem_keywords rfl (kind_ne_of_table hkind).1
  refine ⟨List.mem_append_right _ hkeyword, fun e he hbegins => ?_⟩
  rcases List.mem_append.mp he with he | he
  · obtain ⟨c', cs, hcs, hstart⟩ := mark_start e he
    rw [hcs, List.cons_prefix_cons] at hbegins
    rw [hbegins.1, hc] at hstart
    cases hstart
  · obtain ⟨-, -, -, -, hall⟩ := keyword_chars e he
    have hle := length_le_takeWhile hbegins hall
    rwa [List.takeWhile_cons_of_pos (isWordChar_of_start hc), ← htext, String.length_toList,
      String.length_toList] at hle

/-- The marks are tried by falling length. -/
theorem mark?_reads (h : mark? d cs = some l) : l.Reads d cs := by
  obtain ⟨m, hm, h⟩ := Option.map_eq_some_iff.mp h
  cases h
  have hmem := List.mem_of_find?_eq_some hm
  have hfound := List.find?_some hm
  obtain ⟨rest, rfl⟩ : m.1.toList <+: cs := List.isPrefixOf_iff_prefix.mp hfound
  refine ⟨m.1.toList, rest, rfl, String.length_toList, .mark hmem, fun _ => ?_⟩
  rw [String.ofList_toList]
  refine ⟨List.mem_append_left _ hmem, fun e he hbegins => ?_⟩
  rw [String.length_toList]
  rcases List.mem_append.mp he with he | he
  · exact length_le_of_find? marks_sorted hm e he (List.isPrefixOf_iff_prefix.mpr hbegins)
  · obtain ⟨c, cs, hcs, hstart, -⟩ := keyword_chars e he
    obtain ⟨c', cs', hcs', hstart'⟩ := mark_start m hmem
    rw [hcs, hcs', List.cons_append, List.cons_prefix_cons] at hbegins
    rw [← hbegins.1, hstart] at hstart'
    cases hstart'

theorem longest_literal (h : kind = .string ∨ kind = .integer ∨ kind = .decimal) :
    Longest d kind text rest := by
  intro hkind
  obtain ⟨-, hstring, hinteger, hdecimal⟩ := kind_ne_of_table hkind
  rcases h with h | h | h
  · exact absurd h hstring
  · exact absurd h hinteger
  · exact absurd h hdecimal

end

section

theorem digits_split (cs : List Char) : ∃ rest, cs = digits cs ++ rest ∧
    cs.drop (digits cs).length = rest ∧ ∀ c ∈ digits cs, isDecimalDigit c = true := by
  obtain ⟨rest, hrest⟩ : digits cs <+: cs := List.takeWhile_prefix _
  refine ⟨rest, hrest.symm, ?_, fun c hc => List.mem_takeWhile_imp hc⟩
  exact (congrArg (List.drop (digits cs).length) hrest.symm).trans List.drop_left

theorem decimal?_split (h : decimal? cs = some text) :
    ∃ whole fraction rest, cs = text ++ rest ∧ text = whole ++ '.' :: fraction ∧ fraction ≠ [] ∧
      (∀ c ∈ whole, isDecimalDigit c = true) ∧ ∀ c ∈ fraction, isDecimalDigit c = true := by
  obtain ⟨after, hcs, hafter, hwhole⟩ := digits_split cs
  unfold decimal? at h
  simp only [hafter] at h
  split at h
  · rename_i rest
    obtain ⟨rest', hrest, -, hfraction⟩ := digits_split rest
    split at h
    · cases h
    · rename_i hne
      cases h
      refine ⟨digits cs, digits rest, rest', ?_, rfl, by simpa using hne, hwhole, hfraction⟩
      rw [List.append_assoc, List.cons_append, ← hrest]
      exact hcs
  · cases h

theorem based?_split (h : based? cs = some (base, figures)) :
    ∃ letter allowed rest, cs = '0' :: letter :: figures ++ rest ∧
      base? letter = some (base, allowed) ∧ figures ≠ [] ∧ ∀ c ∈ figures, allowed c = true := by
  unfold based? at h
  split at h
  · rename_i letter rest
    obtain ⟨⟨base', allowed⟩, hbase, h⟩ := Option.bind_eq_some_iff.mp h
    simp only at h
    split at h
    · cases h
    · rename_i hne
      cases h
      obtain ⟨rest', hrest⟩ : rest.takeWhile allowed <+: rest := List.takeWhile_prefix _
      refine ⟨letter, allowed, rest', ?_, hbase, by simpa using hne,
        fun c hc => List.mem_takeWhile_imp hc⟩
      simp [hrest]
  · cases h

theorem number?_reads (h : number? cs = some l) : l.Reads d cs := by
  unfold number? at h
  split at h
  · rename_i text htext
    obtain ⟨whole, fraction, rest, hcs, rfl, hne, hwhole, hfraction⟩ := decimal?_split htext
    split at h <;> cases h
    · exact ⟨_, rest, hcs, rfl, .decimal hwhole hne hfraction ‹_›, longest_literal (by simp)⟩
    · trivial
  · split at h
    · rename_i base figures hbased
      obtain ⟨letter, allowed, rest, hcs, hbase, hne, hall⟩ := based?_split hbased
      split at h <;> cases h
      · exact ⟨_, rest, hcs, rfl, .based hbase hne hall ‹_›, longest_literal (by simp)⟩
      · trivial
    · obtain ⟨rest, hcs, -, hall⟩ := digits_split cs
      simp only at h
      split at h
      · cases h
      · rename_i hne
        split at h <;> cases h
        · exact ⟨_, rest, hcs, rfl, .integer (by simpa using hne) hall ‹_›,
            longest_literal (by simp)⟩
        · trivial

theorem string?_reads {quote : Char} (hquote : quote = '\'' ∨ quote = '"')
    (h : string? quote cs = some l) : l.Reads d (quote :: cs) := by
  obtain ⟨length, hlength, h⟩ := Option.map_eq_some_iff.mp h
  obtain ⟨body, rest, rfl, rfl, -, hclosed⟩ := closingLength?_split hlength
  rw [Nat.add_sub_cancel, List.take_left] at h
  split at h <;> cases h
  · exact ⟨quote :: (body ++ [quote]), rest, by simp, by simp, .string hquote hclosed ‹_›,
      longest_literal (by simp)⟩
  · trivial

end

theorem comment?_reads (h : comment? cs = some l) : l.Reads d cs := by
  unfold comment? at h
  split at h
  · rename_i hbegins
    cases h
    obtain ⟨tail, rfl⟩ : ['/', '/'] <+: cs := List.isPrefixOf_iff_prefix.mp hbegins
    have hbody : '\n' ∉ tail.takeWhile (· ≠ '\n') :=
      fun hmem => by simpa using List.mem_takeWhile_imp hmem
    refine ⟨'/' :: '/' :: tail.takeWhile (· ≠ '\n'), tail.dropWhile (· ≠ '\n'), ?_, ?_, by simp,
      by simpa using hbody, fun gap after hsplit hgap => .comment hbody ?_ hgap⟩
    · simp [List.takeWhile_append_dropWhile]
    · simp
    · intro c hc
      have hhead := List.head?_dropWhile_not (· ≠ '\n') tail
      rw [hsplit, Option.mem_def.mp hc] at hhead
      simpa using hhead
  · cases h

theorem lexeme_reads (d : Dialect) (afterWord : Bool) (position : Nat) (c : Char)
    (rest : List Char) : (lexeme d afterWord position c rest).Reads d (c :: rest) := by
  unfold lexeme
  split
  · rename_i hblank
    have hblank : c ∈ [' ', '\t'] := by simpa using hblank
    refine ⟨[c], rest, rfl, rfl, by simp, ?_, fun gap after _ hgap => ?_⟩
    · rw [List.mem_singleton]
      rintro rfl
      exact absurd hblank (by decide)
    · exact .blank (List.mem_append_left ['\n'] hblank) hgap
  · split
    · rename_i hnewline
      exact ⟨rest, hnewline ▸ rfl⟩
    · split
      · rename_i hstart
        rw [Bool.and_eq_true] at hstart
        refine ⟨_, _, ?_, String.length_toList, lexed_word hstart.1⟩
        rw [String.toList_ofList, List.cons_append, List.takeWhile_append_dropWhile]
      · dsimp only
        cases hfound : (if (c = '\'' || c = '"') = true then string? c rest else none) <|>
          number? (c :: rest) <|> comment? (c :: rest) <|> mark? d (c :: rest) with
        | none => trivial
        | some l =>
          simp only [Option.orElse_eq_orElse, Option.orElse_eq_or, Option.or_eq_some_iff] at hfound
          rcases hfound with h | ⟨-, h | ⟨-, h | ⟨-, h⟩⟩⟩
          · split at h
            · rename_i hquote
              exact string?_reads (by simpa using hquote) h
            · cases h
          · exact number?_reads h
          · exact comment?_reads h
          · exact mark?_reads h

/-- A token with the place at which its characters end. -/
structure Span where
  token : Token
  stop : Nat

/-- A text from its end on divided into what is left out and tokens, after a text that has been
divided before. Lines are counted from the given one. -/
inductive Divided (d : Dialect) (line : Nat) : List Char → List Char → List Span → Prop
  | last {before cs : List Char} (hignored : Ignored cs []) : Divided d line before cs []
  | next {before cs gap text rest : List Char} {t : Token} {spans : List Span}
      (hcs : cs = gap ++ (text ++ rest)) (hignored : Ignored gap (text ++ rest))
      (hlexed : Lexed d t.kind t.value text rest) (hposition : t.position = (before ++ gap).length)
      (hline : t.line = line + countNewlines (before ++ gap))
      (more : Divided d line (before ++ gap ++ text) rest spans) :
      Divided d line before cs (⟨t, (before ++ gap ++ text).length⟩ :: spans)

section

variable {line : Nat}

/-- What is left out first belongs to the first gap. -/
theorem Divided.skip {skip : List Char} (hskip : Continues skip rest)
    (h : Divided d line (before ++ skip) rest spans) :
    Divided d line before (skip ++ rest) spans := by
  cases h with
  | last hignored => exact .last (hskip rest [] (by simp) hignored)
  | @next _ _ gap text rest t spans hcs hignored hlexed hposition hline more =>
    rw [List.append_assoc before skip gap] at hposition hline more ⊢
    exact .next (by rw [hcs, List.append_assoc]) (hskip gap _ hcs hignored) hlexed hposition hline
      more

theorem Divided.token (hlexed : Lexed d t.kind t.value text rest)
    (hposition : t.position = before.length) (hline : t.line = line + countNewlines before)
    (more : Divided d line (before ++ text) rest spans) :
    Divided d line before (text ++ rest) (⟨t, (before ++ text).length⟩ :: spans) := by
  have h : Divided d line before ([] ++ (text ++ rest))
      (⟨t, (before ++ [] ++ text).length⟩ :: spans) :=
    .next rfl (.nil _) hlexed (by simpa using hposition) (by simpa using hline)
      (by simpa using more)
  rwa [List.nil_append, List.append_nil] at h

/-- The rest of a lexeme is passed over. -/
theorem scanFrom_tail (hsplit : c :: cs = text ++ rest) (hlength : text.length = length)
    (hne : text ≠ []) :
    ∃ afterWord, scanFrom d line (position + 1) (isWordChar c) (length - 1) cs =
      scanFrom d line (position + text.length) afterWord 0 rest := by
  cases text with
  | nil => exact absurd rfl hne
  | cons c' text =>
    rw [List.cons_append] at hsplit
    obtain ⟨rfl, rfl⟩ := List.cons.inj hsplit
    obtain ⟨afterWord, h⟩ := scanFrom_skip d line (position + 1) (isWordChar c) text rest
    refine ⟨afterWord, ?_⟩
    rw [← hlength, List.length_cons, Nat.add_sub_cancel, h, Nat.add_assoc, Nat.add_comm 1]

theorem countNewlines_append (h : '\n' ∉ text) (before : List Char) :
    countNewlines (before ++ text) = countNewlines before := by
  rw [countNewlines, countNewlines, List.count_append, List.count_eq_zero.mpr h, Nat.add_zero]

/-- A text that is scanned to its end is divided by its tokens. The induction is on the length of
the text, since a lexeme takes up as many characters as it has. -/
theorem scanFrom_divided
    (h : (scanFrom d (line + countNewlines before) before.length afterWord 0 cs).error = none) :
    ∃ spans, spans.map Span.token =
        (scanFrom d (line + countNewlines before) before.length afterWord 0 cs).tokens ∧
      Divided d line before cs spans := by
  induction hn : cs.length using Nat.strong_induction_on generalizing cs before afterWord with
  | h n ih =>
    cases cs with
    | nil => exact ⟨[], rfl, .last (.nil [])⟩
    | cons c cs =>
      subst hn
      have hshorter : ∀ {text rest : List Char}, c :: cs = text ++ rest → text ≠ [] →
          rest.length < (c :: cs).length := by
        intro text rest hsplit hne
        have := List.length_pos_iff.mpr hne
        rw [hsplit, List.length_append]
        omega
      have hreads := lexeme_reads d afterWord before.length c cs
      rw [scanFrom, if_neg (by simp)] at h ⊢
      cases hlexeme : lexeme d afterWord before.length c cs with
      | error e =>
        rw [hlexeme] at h
        cases h
      | newline =>
        rw [hlexeme] at h hreads
        obtain ⟨rest, hrest⟩ := hreads
        obtain ⟨rfl, rfl⟩ := List.cons.inj hrest
        have hcount : line + countNewlines before + 1 =
            line + countNewlines (before ++ ['\n']) := by simp [countNewlines, Nat.add_assoc]
        have hlength : before.length + 1 = (before ++ ['\n']).length := by simp
        simp only at h ⊢
        rw [hcount, hlength] at h ⊢
        obtain ⟨spans, hspans, hdivided⟩ := ih _ (by simp) h rfl
        exact ⟨spans, hspans, hdivided.skip fun _ _ _ hgap => .blank (by simp) hgap⟩
      | skipped n =>
        rw [hlexeme] at h hreads
        obtain ⟨skip, rest, hsplit, hlength, hne, hnewline, hskip⟩ := hreads
        obtain ⟨afterWord', htail⟩ := scanFrom_tail hsplit hlength hne
        simp only at h ⊢
        rw [htail, ← countNewlines_append hnewline before, ← List.length_append] at h ⊢
        obtain ⟨spans, hspans, hdivided⟩ := ih _ (hshorter hsplit hne) h rfl
        exact ⟨spans, hspans, hsplit ▸ hdivided.skip hskip⟩
      | token kind value n =>
        rw [hlexeme] at h hreads
        obtain ⟨text, rest, hsplit, hlength, hlexed⟩ := hreads
        obtain ⟨afterWord', htail⟩ := scanFrom_tail hsplit hlength hlexed.spelled.ne_nil
        simp only at h ⊢
        rw [htail, ← countNewlines_append hlexed.spelled.newline before, ← List.length_append]
          at h ⊢
        obtain ⟨spans, hspans, hdivided⟩ := ih _ (hshorter hsplit hlexed.spelled.ne_nil) h rfl
        refine ⟨⟨⟨kind, value, line + countNewlines (before ++ text), before.length⟩,
          (before ++ text).length⟩ :: spans, by rw [List.map_cons, hspans], ?_⟩
        rw [hsplit]
        exact .token hlexed rfl (by rw [countNewlines_append hlexed.spelled.newline]) hdivided

end

/-- The characters of a text from one place to another. -/
def slice (source : List Char) (start stop : Nat) : List Char := (source.take stop).drop start

theorem slice_append (before text rest : List Char) :
    slice (before ++ text ++ rest) before.length (before ++ text).length = text := by
  rw [slice, List.take_left, List.drop_left]

/-- The places between which no token stands: before the first one, between two of them, and after
the last one. -/
def gaps (length : Nat) : Nat → List Span → List (Nat × Nat)
  | start, [] => [(start, length)]
  | start, s :: rest => (start, s.token.position) :: gaps length s.stop rest

/-- A token stands in a text where its span says, on the line that the newlines before it lead
to, and no longer token of the table stands there. -/
structure Span.Stands (d : Dialect) (line : Nat) (source : List Char) (s : Span) : Prop where
  nonempty : s.token.position < s.stop
  inside : s.stop ≤ source.length
  spelled : Spelled d s.token.kind s.token.value (slice source s.token.position s.stop)
  line : s.token.line = line + countNewlines (source.take s.token.position)
  longest : Longest d s.token.kind (slice source s.token.position s.stop) (source.drop s.stop)

namespace Divided

variable {line : Nat}

section

variable (h : Divided d line before cs spans)

include h

theorem stands :
    ∀ s ∈ spans, s.Stands d line (before ++ cs) := by
  induction h with
  | last => simp
  | @next before cs gap text rest t spans hcs hignored hlexed hposition hline more ih =>
    have hsource : before ++ cs = before ++ gap ++ text ++ rest := by simp [hcs]
    have hpos := List.length_pos_iff.mpr hlexed.spelled.ne_nil
    rw [hsource]
    refine List.forall_mem_cons.mpr ⟨⟨?_, ?_, ?_, ?_, ?_⟩, ih⟩
    · show t.position < (before ++ gap ++ text).length
      simp only [hposition, List.length_append]
      omega
    · show (before ++ gap ++ text).length ≤ (before ++ gap ++ text ++ rest).length
      exact (List.prefix_append _ rest).length_le
    · rw [hposition, slice_append]
      exact hlexed.spelled
    · rw [hline, hposition, List.append_assoc _ text, List.take_left]
    · rw [hposition, slice_append, List.drop_left]
      exact hlexed.longest

/-- All spans are after what has been divided before, one after the other. -/
theorem apart :
    (∀ s ∈ spans, before.length ≤ s.token.position) ∧
      spans.Pairwise fun s s' => s.stop ≤ s'.token.position := by
  induction h with
  | last => simp
  | @next before cs gap text rest t spans hcs hignored hlexed hposition hline more ih =>
    obtain ⟨hafter, hapart⟩ := ih
    refine ⟨List.forall_mem_cons.mpr ⟨?_, fun s hs => ?_⟩, .cons hafter hapart⟩
    · rw [hposition, List.length_append]
      omega
    · have := hafter s hs
      rw [List.append_assoc, List.length_append] at this
      omega

/-- What stands between the spans is left out. -/
theorem ignored :
    ∀ gap ∈ gaps (before ++ cs).length before.length spans,
      Ignored (slice (before ++ cs) gap.1 gap.2) ((before ++ cs).drop gap.2) := by
  induction h with
  | last hignored =>
    simp only [gaps, List.mem_singleton, forall_eq, slice, List.take_length, List.drop_left,
      List.drop_length]
    exact hignored
  | @next before cs gap text rest t spans hcs hignored hlexed hposition hline more ih =>
    have hsource : before ++ cs = before ++ gap ++ text ++ rest := by simp [hcs]
    rw [hsource]
    refine List.forall_mem_cons.mpr ⟨?_, ih⟩
    simp only [hposition]
    rw [List.append_assoc (before ++ gap), slice_append, List.drop_left]
    exact hignored

end

end Divided

/-- Scanning a script divides it: its tokens take up spans one after the other, each spelled there
and on its line, and all that stands between them are blanks, newlines and comments. -/
theorem scan_divides_source {source : String} (h : (scan .script 1 source).error = none) :
    ∃ spans : List Span, spans.map Span.token = (scan .script 1 source).tokens ∧
      (spans.Pairwise fun s s' => s.stop ≤ s'.token.position) ∧
      (∀ s ∈ spans, s.Stands .script 1 source.toList) ∧
      ∀ gap ∈ gaps source.length 0 spans,
        Ignored (slice source.toList gap.1 gap.2) (source.toList.drop gap.2) := by
  have hwhole : (scanFrom .script (1 + countNewlines []) ([] : List Char).length false 0
      source.toList).error = none := h
  obtain ⟨spans, htokens, hdivided⟩ := scanFrom_divided hwhole
  refine ⟨spans, htokens, hdivided.apart.2, hdivided.stands, ?_⟩
  have hignored := hdivided.ignored
  rwa [List.nil_append, String.length_toList] at hignored

theorem scan_divides_source_comment :
    (scan .script 1 "x **= 0x1F; // y\n'a' .. .5").error = none ∧
      ∃ spans : List Span,
        spans.map Span.token = (scan .script 1 "x **= 0x1F; // y\n'a' .. .5").tokens ∧
        (spans.Pairwise fun s s' => s.stop ≤ s'.token.position) ∧
        (∀ s ∈ spans, s.Stands .script 1 "x **= 0x1F; // y\n'a' .. .5".toList) ∧
        ∀ gap ∈ gaps "x **= 0x1F; // y\n'a' .. .5".length 0 spans,
          Ignored (slice "x **= 0x1F; // y\n'a' .. .5".toList gap.1 gap.2)
            ("x **= 0x1F; // y\n'a' .. .5".toList.drop gap.2) :=
  ⟨rfl, scan_divides_source rfl⟩

end BlockScript.Scan
