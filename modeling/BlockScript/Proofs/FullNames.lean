import BlockScript.Proofs.Footprint

/-!
Full names and what they encode. The number of a scope is written into the full name of
each of its variables and read back when a name is looked up; both directions agree, and
no full name with a scope is taken for one without.
-/
namespace BlockScript.Build

open Decimal Text

private theorem digit_range {c : Char} (h : c.isDigit) : 48 ≤ c.toNat ∧ c.toNat ≤ 57 := by
  simp only [Char.isDigit, Bool.and_eq_true, decide_eq_true_eq] at h
  exact ⟨UInt32.le_iff_toNat_le.mp h.1, UInt32.le_iff_toNat_le.mp h.2⟩

private theorem readDigits?_cons {c : Char} (h : c.isDigit) (separated : Bool) (value : Nat)
    (cs : List Char) :
    readDigits? 10 separated value (c :: cs) =
      readDigits? 10 true (10 * value + (c.toNat - '0'.toNat)) cs := by
  have hrange := digit_range h
  have hline : c ≠ '_' := by
    rintro rfl
    exact absurd h (by decide)
  have hvalue : c.toNat - '0'.toNat < 10 := by
    have hzero : '0'.toNat = 48 := rfl
    omega
  rw [readDigits?]
  · simp only [digitIn?, h, if_true, hvalue]
    rfl
  · exact fun heq => hline heq

section

variable {cs : List Char} (h : ∀ c ∈ cs, c.isDigit)

include h

/-- Digits are read as the number they write. -/
theorem readDigits?_digits (value : Nat) :
    readDigits? 10 true value cs = some (Nat.ofDigitChars 10 cs value) := by
  induction cs generalizing value with
  | nil => rfl
  | cons c rest ih =>
    rw [readDigits?_cons (h c List.mem_cons_self), Nat.ofDigitChars_cons]
    exact ih (fun d hd => h d (List.mem_cons_of_mem c hd)) _

private theorem plainDigits_digits : plainDigits cs = cs := by
  unfold plainDigits
  refine List.map_congr_left (g := id) ?_ |>.trans (List.map_id cs)
  intro c hc
  have hrange := digit_range (h c hc)
  have hsmall : c.toNat < 128 := by omega
  simp only [digitValue?, hsmall, h c hc, if_true, id_eq]
  have hsum : '0'.toNat + (c.toNat - '0'.toNat) = c.toNat := by
    have hzero : '0'.toNat = 48 := rfl
    omega
  rw [hsum, Char.ofNat_toNat]

private theorem dropWhile_padding : cs.dropWhile isNumberPadding = cs := by
  cases cs with
  | nil => rfl
  | cons c rest =>
    have hrange := digit_range (h c List.mem_cons_self)
    have hpad : isNumberPadding c = false := by
      have hsmall : c.toNat < 128 := by omega
      have h₁ : ¬ c.toNat ≤ 13 := by omega
      have h₂ : ¬ c.toNat ≤ 32 := by omega
      simp [isNumberPadding, isBlank, hsmall, h₁, h₂]
    simp [hpad]

private theorem trimBy_digits : trimBy isNumberPadding cs = cs := by
  unfold trimBy
  rw [dropWhile_padding h, dropWhile_padding, List.reverse_reverse]
  exact fun c hc => h c (List.mem_reverse.mp hc)

private theorem takeSign_digits : takeSign cs = (false, cs) := by
  unfold takeSign
  split
  · exact absurd (h '-' List.mem_cons_self) (by decide)
  · exact absurd (h '+' List.mem_cons_self) (by decide)
  · rfl

end

/-- A number that was written in base ten is read back. -/
theorem readInt?_toDigits (n : Nat) : readInt? (Nat.toDigits 10 n) = some (n : Int) := by
  have hdigits : ∀ c ∈ Nat.toDigits 10 n, c.isDigit := fun c hc =>
    Nat.isDigit_of_mem_toDigits (by decide) (by decide) hc
  have hread : readDigits? 10 false 0 (Nat.toDigits 10 n) = some n := by
    cases htext : Nat.toDigits 10 n with
    | nil => exact absurd htext Nat.toDigits_ne_nil
    | cons c rest =>
      rw [htext] at hdigits
      rw [readDigits?_cons (hdigits c List.mem_cons_self),
        ← readDigits?_cons (hdigits c List.mem_cons_self) true, readDigits?_digits hdigits,
        ← htext, Nat.ofDigitChars_ten_toDigits]
  rw [readInt?, trimBy_digits hdigits, plainDigits_digits hdigits, takeSign_digits hdigits]
  simp [hread]

/-- The letter with which the full names of a sprite or of the stage begin. -/
def kindLetter (sprite : Bool) : Char := if sprite then 's' else 'b'

/-- The number of a scope as it stands in full names; the outermost scope has none. -/
def scopeDigits (scope : Nat) : List Char := if scope = 0 then [] else Nat.toDigits 10 scope

theorem toList_fullName (sprite : Bool) (scope : Nat) (name : String) :
    (fullName sprite scope name).toList =
      kindLetter sprite :: (scopeDigits scope ++ '_' :: name.toList) := by
  have hnumber : (writeInt (scope : Int)).toList = Nat.toDigits 10 scope := by
    have hpos : ¬ (scope : Int) < 0 := by omega
    simp [writeInt, digitText, hpos]
  cases sprite <;> by_cases hscope : scope = 0 <;>
    simp [fullName, kindLetter, scopeDigits, hscope, hnumber]

private theorem isDigit_scopeDigits (h : c ∈ scopeDigits scope) : c.isDigit := by
  unfold scopeDigits at h
  split at h
  · exact absurd h List.not_mem_nil
  · exact Nat.isDigit_of_mem_toDigits (by decide) (by decide) h

/-- After the letter of a full name comes a digit or the line before the name. -/
theorem second_fullName (h : (fullName sprite scope name).toList = letter :: c :: rest) :
    c = '_' ∨ c.isDigit := by
  rw [toList_fullName] at h
  cases hdigits : scopeDigits scope with
  | nil =>
    rw [hdigits] at h
    simp only [List.nil_append, List.cons.injEq] at h
    exact .inl h.2.1.symm
  | cons digit digits =>
    rw [hdigits] at h
    simp only [List.cons_append, List.cons.injEq] at h
    exact .inr (h.2.1 ▸ isDigit_scopeDigits (hdigits ▸ List.mem_cons_self))

/-- A full name inside a scope is decoded to the scope and the name. -/
theorem decode?_fullName (sprite : Bool) (scope : Nat) (name : String) (h : scope ≠ 0) :
    decode? (fullName sprite scope name) = .ok ((scope : Int), name) := by
  have hletter : (kindLetter sprite != '_') = true := by cases sprite <;> decide
  have hdigits : ∀ c ∈ scopeDigits scope, (c != '_') = true := by
    intro c hc
    have hdigit := isDigit_scopeDigits hc
    simp only [bne_iff_ne, ne_eq]
    rintro rfl
    exact absurd hdigit (by decide)
  have hnumber : readInt? (scopeDigits scope) = some (scope : Int) := by
    simp [scopeDigits, h, readInt?_toDigits]
  simp [decode?, toList_fullName, hletter, List.takeWhile_append_of_pos hdigits,
    List.dropWhile_append_of_pos hdigits, hnumber]

/-- What begins like a name without a scope is the name of a variable outside scopes. -/
theorem unscoped_fullName (sprite : Bool) (scope : Nat) (name : String) :
    unscoped.any (beginsWith · (fullName sprite scope name)) = decide (scope = 0) := by
  by_cases hscope : scope = 0
  · cases sprite <;>
      simp [unscoped, beginsWith, toList_fullName, scopeDigits, kindLetter, hscope]
  · obtain ⟨c, rest, hdigits⟩ : ∃ c rest, scopeDigits scope = c :: rest := by
      cases htext : scopeDigits scope with
      | nil => simp [scopeDigits, hscope] at htext
      | cons c rest => exact ⟨c, rest, rfl⟩
    have hdigit : c.isDigit := isDigit_scopeDigits (hdigits ▸ List.mem_cons_self)
    have hline : '_' ≠ c := by
      rintro rfl
      exact absurd hdigit (by decide)
    have hletter : 'f' ≠ c := by
      rintro rfl
      exact absurd hdigit (by decide)
    cases sprite <;>
      simp [unscoped, beginsWith, List.isPrefixOf, toList_fullName, kindLetter, hdigits, hscope,
        hline, hletter]

/-- A full name tells both the scope and the name. -/
theorem fullName_inj (h : fullName sprite scope name = fullName sprite scope' name') :
    scope = scope' ∧ name = name' := by
  have hzero := congrArg (fun full => unscoped.any (beginsWith · full)) h
  simp only [unscoped_fullName, decide_eq_decide] at hzero
  by_cases hscope : scope = 0
  · have hscope' := hzero.mp hscope
    subst hscope hscope'
    have hlist := congrArg String.toList h
    simp only [toList_fullName, scopeDigits, if_true, List.nil_append, List.cons.injEq,
      true_and] at hlist
    exact ⟨rfl, String.toList_injective hlist⟩
  · have hscope' : scope' ≠ 0 := fun h' => hscope (hzero.mpr h')
    have hdecoded := congrArg decode? h
    rw [decode?_fullName _ _ _ hscope, decode?_fullName _ _ _ hscope'] at hdecoded
    simp only [Except.ok.injEq, Prod.mk.injEq, Int.ofNat_inj] at hdecoded
    exact hdecoded

/-- Variables of scripts are never taken for variables of the whole project. -/
theorem isGlobalName_fullName (sprite : Bool) (scope : Nat) (name : String) :
    isGlobalName (fullName sprite scope name) = false := by
  cases hdigits : scopeDigits scope with
  | nil =>
    cases sprite <;>
      simp [isGlobalName, beginsWith, List.isPrefixOf, toList_fullName, kindLetter, hdigits]
  | cons c rest =>
    have hdigit : c.isDigit := isDigit_scopeDigits (hdigits ▸ List.mem_cons_self)
    have hletter : 'r' ≠ c := by
      rintro rfl
      exact absurd hdigit (by decide)
    cases sprite <;>
      simp [isGlobalName, beginsWith, List.isPrefixOf, toList_fullName, kindLetter, hdigits,
        hletter]

end BlockScript.Build
