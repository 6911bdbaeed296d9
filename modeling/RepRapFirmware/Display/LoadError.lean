import RepRapFirmware.Display.CurrentFile

/-!
# The errors `Reload` shows

`Reload` reads the lines of the menu file one at a time, numbering them from 1, and stops
at the first line `ParseMenuLine` returns an error message for, or at the first line after
which the command buffer is full; `LoadError` then deletes every item and shows the file
name, the line number and the message. A file that does not open is shown as
`Can't open menu file` with no line (line 0).

**What is proved** (`reload_shows_first_bad_line`). For every menu state and every menu
file, `Reload` shows no error, or exactly one, for the current menu file: that the file did
not open, or the error of its first bad line, numbered from 1, with the message
`ParseMenuLine` returned for it (or `|Menu buffer full` when that line filled the buffer),
after every line before it was read without error. It shows none only when no line of the
file fails.
-/

set_option autoImplicit false

namespace Display

namespace Menu

variable {env : MenuEnv}

/-- `LoadError` shows one error for the current menu file. -/
theorem loadError_effects {m m' : Menu} {msg : CStr} {line : Nat}
    (h : m.loadError msg line = .ok m') :
    ∃ fname, m.currentFilename = .ok fname ∧
      m'.effects = m.effects ++ [.loadError fname msg line] := by
  simp only [loadError, bind_eq_ok] at h
  obtain ⟨fname, hf, h⟩ := h
  cases h
  exact ⟨fname, hf, rfl⟩

/-- A line read without error, after which the buffer has room, hands over to the next. -/
theorem parseLines_cons_of_none {m m₁ : Menu} {l : CStr} {ls : List CStr} {line : Nat}
    (h₁ : m.parseMenuLine env (skipWhitespace l) = .ok (m₁, none))
    (hfull : m₁.commandBufferIndex ≠ commandBufferSize) :
    parseLines env m line (l :: ls) = parseLines env m₁ (line + 1) ls := by
  rw [parseLines.eq_2, h₁]
  exact if_neg hfull

/-- Line `l` stops the loop from state `m₁` with the message `msg`: `ParseMenuLine`
returned `msg` for it, or it filled the buffer and `msg` is `|Menu buffer full`. -/
def LineFails (env : MenuEnv) (m₁ : Menu) (l msg : CStr) : Prop :=
  ∃ m₂ err, m₁.parseMenuLine env (skipWhitespace l) = .ok (m₂, err) ∧
    (err = some msg ∨
      err = none ∧ m₂.commandBufferIndex = commandBufferSize ∧ msg = "|Menu buffer full".toList)

/-- No line of `ls`, numbered from `line` and read from state `m`, fails in the state the
lines before it leave. -/
def NoLineFails (env : MenuEnv) (m : Menu) (line : Nat) (ls : List CStr) : Prop :=
  ∀ k l m₁ msg, ls.get? k = some l → parseLines env m line (ls.take k) = .ok m₁ →
    ¬LineFails env m₁ l msg

/-- A line read without error, after which the buffer has room, does not fail. -/
theorem not_lineFails_of_none {m m₁ : Menu} {l msg : CStr}
    (h₁ : m.parseMenuLine env (skipWhitespace l) = .ok (m₁, none))
    (hfull : m₁.commandBufferIndex ≠ commandBufferSize) : ¬LineFails env m l msg := by
  rintro ⟨m₂, err, h₂, herr⟩
  rw [h₁] at h₂
  cases h₂
  rcases herr with herr | ⟨-, hidx, -⟩
  · cases herr
  · exact hfull hidx

/-- **The line loop of `Reload`.** Over lines `ls` numbered from `line`, from an index in
the buffer: no line fails and no error is shown, or exactly one error is shown, for the
first line `k` that fails, under the number `line + k`, after the lines before it were
read without error. -/
theorem parseLines_first_error {ls : List CStr} :
    ∀ {m m' : Menu} {line : Nat}, m.commandBufferIndex ≤ commandBufferSize →
      parseLines env m line ls = .ok m' →
      m'.effects = m.effects ∧ NoLineFails env m line ls ∨
        ∃ k l m₁ msg fname, ls.get? k = some l ∧ parseLines env m line (ls.take k) = .ok m₁ ∧
          m₁.effects = m.effects ∧ LineFails env m₁ l msg ∧ m.currentFilename = .ok fname ∧
          m'.effects = m.effects ++ [.loadError fname msg (line + k)] := by
  induction ls with
  | nil => intro m m' _ _ h; cases h; exact .inl ⟨rfl, fun _ _ _ _ hk => nomatch hk⟩
  | cons l ls ih =>
    intro m m' line hm h
    simp only [parseLines, bind_eq_ok, Prod.exists] at h
    obtain ⟨m₁, err, h₁, h⟩ := h
    have hs := parseMenuLine_lineStep hm h₁
    have hc := currentFilename_of_control (parseMenuLine_rebuilds h₁).control
    have stop : ∀ msg, LineFails env m l msg → m₁.loadError msg line = .ok m' →
        ∃ k l' m₂ msg' fname, (l :: ls).get? k = some l' ∧
          parseLines env m line ((l :: ls).take k) = .ok m₂ ∧ m₂.effects = m.effects ∧
          LineFails env m₂ l' msg' ∧ m.currentFilename = .ok fname ∧
          m'.effects = m.effects ++ [.loadError fname msg' (line + k)] := fun msg hfail he => by
      obtain ⟨fname, hf, heff⟩ := loadError_effects he
      exact ⟨0, l, m, msg, fname, rfl, rfl, rfl, hfail, hc.symm.trans hf,
        by rw [heff, hs.effects]; rfl⟩
    split at h
    · exact .inr (stop _ ⟨m₁, _, h₁, .inl rfl⟩ h)
    · split_ifs at h with hfull
      · exact .inr (stop _ ⟨m₁, none, h₁, .inr ⟨rfl, hfull, rfl⟩⟩ h)
      · rcases ih hs.index_le h with he | ⟨k, l', m₂, msg, fname, hk, hpre, heff, hfail, hf, he⟩
        · refine .inl ⟨he.1.trans hs.effects, fun k l' m₂ msg hk hpre => ?_⟩
          cases k with
          | zero =>
            cases hk
            cases hpre
            exact not_lineFails_of_none h₁ hfull
          | succ k =>
            rw [List.take_succ_cons, parseLines_cons_of_none h₁ hfull] at hpre
            exact he.2 k l' m₂ msg hk hpre
        · refine .inr ⟨k + 1, l', m₂, msg, fname, hk, ?_, heff.trans hs.effects, hfail,
            hc.symm.trans hf, ?_⟩
          · rw [List.take_succ_cons, parseLines_cons_of_none h₁ hfull]
            exact hpre
          · rw [he, hs.effects, Nat.add_right_comm]
            rfl

/-- **The errors `Reload` shows.** `Reload` shows no error, or exactly one, for the current
menu file: that the file did not open, under line 0, or the error of the first line that
fails, under its number counted from 1, after every line before it was read without
error; and it shows none only when no line of the file fails. -/
theorem reload_shows_first_bad_line {m m' : Menu} (h : m.reload env = .ok m') :
    ∃ fname, m.currentFilename = .ok fname ∧
      (env.menuFile fname = none ∧
          m'.effects = m.effects ++ [.loadError fname "Can't open menu file".toList 0] ∨
        ∃ lines, env.menuFile fname = some lines ∧
          (m'.effects = m.effects ∧
              NoLineFails env { m.resetCache with commandBufferIndex := 0 } 1 lines ∨
            ∃ k l m₁ msg, lines.get? k = some l ∧
              parseLines env { m.resetCache with commandBufferIndex := 0 } 1 (lines.take k) =
                .ok m₁ ∧
              m₁.effects = m.effects ∧ LineFails env m₁ l msg ∧
              m'.effects = m.effects ++ [.loadError fname msg (k + 1)])) := by
  unfold reload at h
  obtain ⟨fname, hf, h⟩ := bind_eq_ok.1 h
  refine ⟨fname, hf, ?_⟩
  split at h
  · rename_i hnone
    obtain ⟨fname', hf', he⟩ := loadError_effects h
    cases hf.symm.trans hf'
    exact .inl ⟨hnone, he⟩
  · rename_i lines hlines
    refine .inr ⟨lines, hlines, ?_⟩
    rcases parseLines_first_error (Nat.zero_le _) h with
      he | ⟨k, l, m₁, msg, fname', hk, hpre, heff, hfail, hf', he⟩
    · exact .inl he
    · cases hf.symm.trans hf'
      exact .inr ⟨k, l, m₁, msg, hk, hpre, heff, hfail, by rw [he, Nat.add_comm]; rfl⟩

/-- The main menu with a command the menu does not know on its second line. -/
theorem unknown_second_line_shown :
    ∃ m m' : Menu, m.reload (mainMenuEnv [alterSpeedLine, "beep".toList]) = .ok m' ∧
      m'.effects = [.loadError "main".toList "Unknown command".toList 2] ∧
      ∃ fname, m.currentFilename = .ok fname ∧
        ((mainMenuEnv [alterSpeedLine, "beep".toList]).menuFile fname = none ∧
            m'.effects = m.effects ++ [.loadError fname "Can't open menu file".toList 0] ∨
          ∃ lines, (mainMenuEnv [alterSpeedLine, "beep".toList]).menuFile fname = some lines ∧
            (m'.effects = m.effects ∧
                NoLineFails (mainMenuEnv [alterSpeedLine, "beep".toList])
                  { m.resetCache with commandBufferIndex := 0 } 1 lines ∨
              ∃ k l m₁ msg, lines.get? k = some l ∧
                parseLines (mainMenuEnv [alterSpeedLine, "beep".toList])
                  { m.resetCache with commandBufferIndex := 0 } 1 (lines.take k) = .ok m₁ ∧
                m₁.effects = m.effects ∧
                LineFails (mainMenuEnv [alterSpeedLine, "beep".toList]) m₁ l msg ∧
                m'.effects = m.effects ++ [.loadError fname msg (k + 1)])) :=
  ⟨{ Menu.init 0 with filenames := fun _ => "main".toList, numNestedMenus := 1 }, _, rfl, rfl,
    reload_shows_first_bad_line rfl⟩

end Menu

end Display
