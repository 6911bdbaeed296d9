import RepRapFirmware.Display.MenuLaws

/-!
# Reading a menu line

`ParseMenuLine` splits a line into its command word and its arguments, runs the argument
loop over the arguments, and builds the item, copying its strings into the command buffer
with `AppendString`. The argument loop starts from `action = nullptr` and sets it only for
an `A"..."` argument; the item builder passes `action` to `AppendString` for a button and
for a file list without checking it, while the `image` branch of the source checks its own
file name against `nullptr` before it uses it.

**What is proved** (`parseMenuLine_missing_action`). For every argument string the loop
accepts without an `A` argument, a `button` line that is shown and a `files` line hand the
null `action` to `AppendString` whenever the command buffer has room, which dereferences
it; `ParseMenuLine` returns no error message for the missing argument.
-/

set_option autoImplicit false

namespace Display

namespace Menu

/-- A line that starts with a command word, a blank and its arguments is the item that word
and the arguments the loop accepts describe. -/
theorem parseMenuLine_of_args (env : MenuEnv) (m : Menu) {line word args : CStr} {a : LineArgs}
    (hw : splitCommandWord line = some (word, args)) (hhead : line.head? ≠ some ';')
    (hp : parseArgs args.length LineArgs.initial args = .ok a) :
    m.parseMenuLine env line = m.addLineItem env word a := by
  have hne : line ≠ [] := by rintro rfl; cases hw
  unfold parseMenuLine
  rw [if_neg (by rintro (h | h) <;> contradiction), hw]
  simp only [hp]

/-- `AppendString` copies a whole string while the buffer has room for it and its NUL. -/
theorem appendString_some_of_lt (m : Menu) {s : CStr}
    (h : m.commandBufferIndex + s.length + 1 < commandBufferSize) :
    m.appendString (some s) =
      .ok ({ m with commandBufferIndex := m.commandBufferIndex + s.length + 1 }, .copy s) := by
  have hs : safeStrncpy s (commandBufferSize - m.commandBufferIndex) = s :=
    List.take_of_length_le (by omega)
  rw [appendString, if_pos (by omega)]
  simp only [hs]

/-- `AppendString(nullptr)` dereferences the null pointer while the buffer has room. -/
theorem appendString_none_of_lt (m : Menu) (h : m.commandBufferIndex < commandBufferSize) :
    m.appendString none = .error .nullString := by
  rw [appendString, if_pos h]

/-- **A `button` or `files` line without `A"action"` dereferences the null action.** For
every argument string the argument loop accepts without an `A` argument, `ParseMenuLine`
hands the null `action` to `AppendString` as soon as the command buffer has room for it:
for a shown button, after the button's text; for a file list, at once. -/
theorem parseMenuLine_missing_action (env : MenuEnv) (m : Menu) {args : CStr} {a : LineArgs}
    (hp : parseArgs args.length LineArgs.initial args = .ok a) (ha : a.action = none) :
    (showBasedOnPrinterState env a.text a.fname = true →
      m.commandBufferIndex + a.text.length + 1 < commandBufferSize →
      m.parseMenuLine env ("button ".toList ++ args) = .error .nullString) ∧
    (m.commandBufferIndex < commandBufferSize →
      m.parseMenuLine env ("files ".toList ++ args) = .error .nullString) := by
  refine ⟨fun hshow hroom => ?_, fun hroom => ?_⟩
  · have hhead : ("button ".toList ++ args).head? ≠ some ';' := by
      rw [show ("button ".toList ++ args).head? = some 'b' from rfl]; decide
    rw [@parseMenuLine_of_args env m ("button ".toList ++ args) "button".toList args a rfl hhead hp,
      addLineItem, if_neg (by decide), if_neg (by decide), if_pos (by decide), if_pos hshow, ha]
    simp only [appendString_some_of_lt m hroom, bind, Except.bind]
    rw [appendString_none_of_lt _ (by exact hroom)]
  · have hhead : ("files ".toList ++ args).head? ≠ some ';' := by
      rw [show ("files ".toList ++ args).head? = some 'f' from rfl]; decide
    rw [@parseMenuLine_of_args env m ("files ".toList ++ args) "files".toList args a rfl hhead hp,
      addLineItem, if_neg (by decide), if_neg (by decide), if_neg (by decide), if_neg (by decide),
      if_neg (by decide), if_pos (by decide), ha]
    simp only [appendString_none_of_lt m hroom, bind, Except.bind]

/-- The line `button T"Back"`, which has no action, read into an empty menu. -/
theorem back_button_without_action :
    ∃ a, parseArgs "T\"Back\"".toList.length LineArgs.initial "T\"Back\"".toList = .ok a ∧
      a.action = none ∧ showBasedOnPrinterState (mainMenuEnv []) a.text a.fname = true ∧
      (Menu.init 0).commandBufferIndex + a.text.length + 1 < commandBufferSize ∧
      ((showBasedOnPrinterState (mainMenuEnv []) a.text a.fname = true →
          (Menu.init 0).commandBufferIndex + a.text.length + 1 < commandBufferSize →
          (Menu.init 0).parseMenuLine (mainMenuEnv []) ("button ".toList ++ "T\"Back\"".toList) =
            .error .nullString) ∧
        ((Menu.init 0).commandBufferIndex < commandBufferSize →
          (Menu.init 0).parseMenuLine (mainMenuEnv []) ("files ".toList ++ "T\"Back\"".toList) =
            .error .nullString)) := by
  refine ⟨_, rfl, rfl, rfl, by decide, ?_⟩
  refine parseMenuLine_missing_action _ _ ?_ ?_ <;> rfl

end Menu

end Display
