import BlockScript.Proofs.TopLevel

/-!
What building a sprite does outside the sprite. The results of its functions and the messages
of the broadcasts it is first to name become variables of the stage, and the broadcasts are
listed. Nothing else outside changes, and nothing of this is read where a name is looked up.
So the same statements build the same sprite next to any neighbours.
-/
namespace BlockScript

def Broadcast.called (name : String) : Broadcast :=
  ⟨.str name, ⟨"br_" ++ name, false, .message, false⟩⟩

namespace Build

open Text

/-- Logging needs a level, keeps it, and changes nothing that is built. -/
theorem log_ok (h : log level text s = .ok u s') :
    s'.draft = s.draft ∧ s'.frame = s.frame ∧ s.session.console.level ≠ none ∧
      s'.session.console.level = s.session.console.level := by
  rw [log, get_bind_ok] at h
  obtain ⟨line, hline, h⟩ := ofExcept_bind_ok.mp h
  have hlevel : s.session.console.level ≠ none := by
    intro hnone
    rw [Console.line?, hnone] at hline
    cases hline
  cases line with
  | some line =>
    obtain rfl := modify_ok.mp h
    exact ⟨rfl, rfl, hlevel, rfl⟩
  | none =>
    obtain ⟨-, rfl⟩ := pure_ok.mp h
    exact ⟨rfl, rfl, hlevel, rfl⟩

theorem exists_log (level : Level) (text : String) (h : s.session.console.level ≠ none) :
    ∃ s', log level text s = .ok () s' := by
  obtain ⟨least, hleast⟩ := Option.ne_none_iff_exists'.mp h
  obtain ⟨line, hline⟩ : ∃ line, s.session.console.line? level text = .ok line := by
    rw [Console.line?, hleast]
    exact ⟨_, rfl⟩
  have hwritten : ofExcept (s.session.console.line? level text) s = .ok line s :=
    ofExcept_ok.mpr ⟨hline, rfl⟩
  cases line with
  | some line => exact ⟨_, get_bind_ok.mpr (bind_ok.mpr ⟨_, s, hwritten, modify_ok.mpr rfl⟩)⟩
  | none => exact ⟨s, get_bind_ok.mpr (bind_ok.mpr ⟨_, s, hwritten, rfl⟩)⟩

end Build

end BlockScript
