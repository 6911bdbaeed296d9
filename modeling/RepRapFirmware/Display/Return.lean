import RepRapFirmware.Display.CurrentFile

/-!
# Back to the parent menu

`Load(f)` pushes `f` on the stack of menu files and reloads; `Pop()`, which a `return`
action calls, takes it off and reloads. `Reload` reads the stack only through the name of
the innermost file (`currentFilename`) and the log of effects only by appending to it.
`Menu.reframe` changes exactly those two: it puts other names in the slots of the stack
and another log before the effects. Every function `Reload` calls commutes with it
(`parseLines_reframe`), as long as the innermost name stays.

**What is proved** (`pop_after_load`). From every menu with room for one more level whose
file opens, `Load(f)` followed by `Pop()` ends where `Reload()` alone ends: the same items,
highlight, command buffer, stack depth and encoder state, and after the effects `Load`
recorded, the same effects; the only trace of `f` is its name in the slot above the stack.

**The root of the stack** (`reachable_main_at_root`). In every state of every run the stack
is one to `MaxMenuNesting` deep with `main` outermost: `Load` writes the slot at the depth,
never slot 0 once `main` is loaded, and the timeout of `Refresh` loads `main` there again.
-/

set_option autoImplicit false

namespace Display

theorem ok_bind {ε α β : Type} (a : α) (f : α → Except ε β) :
    ((.ok a : Except ε α) >>= f) = f a := rfl

theorem map_ok {ε α β : Type} (f : α → β) (a : α) : (f <$> (.ok a : Except ε α)) = .ok (f a) :=
  rfl

namespace Menu

/-- `m` with the file names `fs`, and with `pre` before its effects. -/
def reframe (fs : Fin maxMenuNesting → CStr) (pre : List MenuEffect) (m : Menu) : Menu :=
  { m with filenames := fs, effects := pre ++ m.effects }

/-! ## What commutes with a change of file names and log -/

section Reframe

variable (fs : Fin maxMenuNesting → CStr) (pre : List MenuEffect)

@[simp] theorem reframe_commandBufferIndex (m : Menu) :
    (m.reframe fs pre).commandBufferIndex = m.commandBufferIndex := rfl

theorem control_reframe (m : Menu) : (m.reframe fs pre).control = (fs, m.control.2) := rfl

theorem addItem_reframe (m : Menu) (item : MenuItem) (sel : Bool) :
    (m.reframe fs pre).addItem item sel = (m.addItem item sel).reframe fs pre := by
  cases sel <;> rfl

theorem appendString_reframe (m : Menu) (s : Option CStr) :
    (m.reframe fs pre).appendString s = Prod.map (reframe fs pre) id <$> m.appendString s := by
  unfold appendString
  rw [reframe_commandBufferIndex]
  by_cases h : m.commandBufferIndex < commandBufferSize
  · rw [if_pos h, if_pos h]
    cases s <;> rfl
  · rw [if_neg h, if_neg h]
    rfl

theorem addLineItem_reframe (env : MenuEnv) (m : Menu) (word : CStr) (a : LineArgs) :
    (m.reframe fs pre).addLineItem env word a =
      Prod.map (reframe fs pre) id <$> m.addLineItem env word a := by
  unfold addLineItem
  simp only [apply_ite (Prod.map (reframe fs pre) id <$> ·), appendString_reframe, bind_map_left,
    map_bind, Prod.map_fst, Prod.map_snd, id_eq, map_ok, addItem_reframe, Prod.map_apply]

theorem parseMenuLine_reframe (env : MenuEnv) (m : Menu) (line : CStr) :
    (m.reframe fs pre).parseMenuLine env line =
      Prod.map (reframe fs pre) id <$> m.parseMenuLine env line := by
  unfold parseMenuLine
  split_ifs
  · rfl
  · split
    · rfl
    · split
      · rfl
      · exact addLineItem_reframe fs pre env m _ _

/-- `LoadError` names the innermost file, so it commutes with a change that keeps it. -/
theorem loadError_reframe {m : Menu} (msg : CStr) (line : Nat)
    (hf : (m.reframe fs pre).currentFilename = m.currentFilename) :
    (m.reframe fs pre).loadError msg line = reframe fs pre <$> m.loadError msg line := by
  have hr : (m.reframe fs pre).resetCache.currentFilename = m.resetCache.currentFilename := hf
  unfold loadError
  simp only [hr]
  cases m.resetCache.currentFilename with
  | error e => rfl
  | ok fname => simp only [ok_bind, map_ok, reframe, resetCache, List.append_assoc]

/-- **The line loop commutes.** Parsing a file from a menu with other file names, the
innermost one kept, and another log before its effects gives the same menu with those
names and that log. -/
theorem parseLines_reframe (env : MenuEnv) : ∀ (lines : List CStr) (m : Menu) (line : Nat),
    (m.reframe fs pre).currentFilename = m.currentFilename →
      parseLines env (m.reframe fs pre) line lines = reframe fs pre <$> parseLines env m line lines
  | [], _, _, _ => rfl
  | l :: ls, m, line, hf => by
    rw [parseLines, parseLines, parseMenuLine_reframe, bind_map_left]
    cases h : m.parseMenuLine env (skipWhitespace l) with
    | error e => rfl
    | ok r =>
      obtain ⟨m₁, err⟩ := r
      have hc := (parseMenuLine_rebuilds h).control
      have hf₁ : (m₁.reframe fs pre).currentFilename = m₁.currentFilename := by
        rw [@currentFilename_of_control (m.reframe fs pre) (m₁.reframe fs pre)
          (by rw [control_reframe, control_reframe, hc]), hf, currentFilename_of_control hc]
      simp only [ok_bind, Prod.map_apply, id_eq]
      cases err with
      | some msg => exact loadError_reframe fs pre msg line hf₁
      | none =>
        simp only [reframe_commandBufferIndex]
        split_ifs
        · exact loadError_reframe fs pre _ line hf₁
        · exact parseLines_reframe env ls m₁ (line + 1) hf₁

end Reframe

/-! ## Load, then Pop -/

/-- `currentFilename` reads the depth of the stack and the innermost slot only. -/
theorem currentFilename_congr {m m' : Menu} (hn : m'.numNestedMenus = m.numNestedMenus)
    (hf : ∀ h, m'.filenames ⟨sizeDec m.numNestedMenus, h⟩ = m.filenames ⟨_, h⟩) :
    m'.currentFilename = m.currentFilename := by
  unfold currentFilename
  rw [hn]
  split
  · rw [hf]
  · rfl

/-- A reload that opens its file parses it from the menu with no items, an empty buffer
and no effects, and puts the file names and effects back around the result. -/
theorem reload_of_menuFile {env : MenuEnv} {m : Menu} {p : CStr} {lines : List CStr}
    (hp : m.currentFilename = .ok p) (hl : env.menuFile p = some lines) :
    m.reload env = reframe m.filenames m.effects <$>
      parseLines env { m.resetCache with commandBufferIndex := 0, effects := [] } 1 lines := by
  have hB : reframe m.filenames m.effects
      { m.resetCache with commandBufferIndex := 0, effects := [] } =
        { m.resetCache with commandBufferIndex := 0 } := by
    simp only [reframe, List.append_nil]
    rfl
  rw [← parseLines_reframe m.filenames m.effects env lines
    { m.resetCache with commandBufferIndex := 0, effects := [] } 1 rfl, hB]
  show (m.currentFilename >>= fun fname => _) = _
  rw [hp, ok_bind]
  simp only [hl]

theorem sizeDec_succ {n : Nat} (h : n < maxMenuNesting) : sizeDec (n + 1) = n := by
  unfold sizeDec maxMenuNesting at *
  omega

theorem sizeDec_ne (n : Nat) : sizeDec n ≠ n := by
  unfold sizeDec
  omega

/-- `Load` writes the slot above the innermost one. -/
theorem update_above (fs : Fin maxMenuNesting → CStr) {n : Nat} (hn : n < maxMenuNesting)
    (v : CStr) (h : sizeDec n < maxMenuNesting) :
    Function.update fs ⟨n, hn⟩ v ⟨sizeDec n, h⟩ = fs ⟨sizeDec n, h⟩ := by
  rw [Function.update_noteq]
  rw [ne_eq, Fin.mk.injEq]
  exact sizeDec_ne n

/-- **Pop undoes Load.** From every menu with room for one more level whose file opens,
`Load(f)` followed by `Pop()` ends where `Reload()` alone ends: the same items, highlight,
command buffer, stack depth and encoder state, and after the effects `Load` recorded the
same effects; the only trace of `f` is its name in the slot above the stack. -/
theorem pop_after_load {env : MenuEnv} {m m₁ : Menu} {f p : CStr}
    (hn : m.numNestedMenus < maxMenuNesting) (hp : m.currentFilename = .ok p)
    (hfile : env.menuFile p ≠ none) (h : m.load env f = .ok m₁) :
    m₁.pop env = (fun r => { r with
        filenames := m₁.filenames
        effects := m₁.effects ++ r.effects.drop m.effects.length }) <$> m.reload env := by
  obtain ⟨lines, hl⟩ := Option.ne_none_iff_exists'.1 hfile
  rw [load, dif_pos hn] at h
  have hc := (reload_spec h).1
  simp only [control, Prod.mk.injEq] at hc
  obtain ⟨hfn, hnn, hsel, hto, hlat⟩ := hc
  have hdepth : sizeDec m₁.numNestedMenus = m.numNestedMenus := by rw [hnn, sizeDec_succ hn]
  -- the popped menu names the parent file again
  have hp₁ : ({ m₁ with numNestedMenus := sizeDec m₁.numNestedMenus } : Menu).currentFilename =
      .ok p :=
    (@currentFilename_congr m { m₁ with numNestedMenus := sizeDec m₁.numNestedMenus } hdepth
      fun _ => by rw [hfn]; exact update_above _ hn _ _).trans hp
  -- both reloads parse the parent file from the same menu, up to the file names
  set B : Menu := { m.resetCache with commandBufferIndex := 0, effects := [] }
  have hB : ({ ({ m₁ with numNestedMenus := sizeDec m₁.numNestedMenus } : Menu).resetCache with
      commandBufferIndex := 0, effects := [] } : Menu) = B.reframe m₁.filenames [] := by
    simp only [B, reframe, resetCache, hdepth, hsel, hto, hlat, List.append_nil]
  have hfB : (B.reframe m₁.filenames []).currentFilename = B.currentFilename :=
    @currentFilename_congr B (B.reframe m₁.filenames []) rfl fun _ => by
      rw [show (B.reframe m₁.filenames []).filenames = m₁.filenames from rfl, hfn]
      exact update_above _ hn _ _
  rw [pop, reload_of_menuFile hp₁ hl, reload_of_menuFile hp hl, hB,
    parseLines_reframe _ _ env lines B 1 hfB, Functor.map_map, Functor.map_map]
  refine congrArg (· <$> parseLines env B 1 lines) (funext fun r => ?_)
  simp only [reframe, List.nil_append, List.drop_left]

/-- The main menu entered again from itself, and left. -/
theorem pop_after_load_main : ∃ m m₁ : Menu,
    (Menu.init 0).load (mainMenuEnv [alterSpeedLine]) "main".toList = .ok m ∧
    (m.numNestedMenus < maxMenuNesting ∧ m.currentFilename = .ok "main".toList ∧
      (mainMenuEnv [alterSpeedLine]).menuFile "main".toList ≠ none ∧
      m.load (mainMenuEnv [alterSpeedLine]) "main".toList = .ok m₁) ∧
    m₁.pop (mainMenuEnv [alterSpeedLine]) = (fun r => { r with
        filenames := m₁.filenames
        effects := m₁.effects ++ r.effects.drop m.effects.length }) <$>
      m.reload (mainMenuEnv [alterSpeedLine]) :=
  ⟨_, _, rfl, ⟨by decide, rfl, by decide, rfl⟩,
    @pop_after_load _ _ _ "main".toList "main".toList (by decide) rfl (by decide) rfl⟩

/-! ## The root of the stack -/

/-- The stack of menu files: one to `MaxMenuNesting` deep, with `main` outermost. -/
structure RootedStack (m : Menu) : Prop where
  depth_pos : 1 ≤ m.numNestedMenus
  depth_le : m.numNestedMenus ≤ maxMenuNesting
  root : m.filenames ⟨0, zero_lt_maxMenuNesting⟩ = "main".toList

theorem RootedStack.of_eq {m m' : Menu} (hs : RootedStack m) (hf : m'.filenames = m.filenames)
    (hn : m'.numNestedMenus = m.numNestedMenus) : RootedStack m' :=
  ⟨hn ▸ hs.1, hn ▸ hs.2, hf ▸ hs.3⟩

/-- A `Reload` that does not fault has read `filenames[numNestedMenus - 1]`, so its depth
is between 1 and `MaxMenuNesting`, and it keeps the file names. -/
theorem reload_rootedStack {env : MenuEnv} {m m' : Menu} (hn : m.numNestedMenus < 2 ^ 32)
    (hr : m.filenames ⟨0, zero_lt_maxMenuNesting⟩ = "main".toList) (h : m.reload env = .ok m') :
    RootedStack m' := by
  obtain ⟨hc, -, hs⟩ := reload_spec h
  simp only [control, Prod.mk.injEq] at hc
  obtain ⟨hfn, hnn, -⟩ := hc
  obtain ⟨h1, h2⟩ := nested_bounds_of_sizeDec hn hs
  exact ⟨hnn ▸ h1, hnn ▸ h2, hfn ▸ hr⟩

/-- `Load` writes the slot at the depth, which is above the root. -/
theorem load_rootedStack {env : MenuEnv} {m m' : Menu} {f : CStr} (hs : RootedStack m)
    (h : m.load env f = .ok m') : RootedStack m' := by
  unfold load at h
  split at h
  · refine reload_rootedStack ?_ ?_ h
    · show m.numNestedMenus + 1 < 2 ^ 32
      have := hs.2
      unfold maxMenuNesting at this
      omega
    · show Function.update m.filenames _ _ _ = _
      rw [Function.update_noteq fun e => by have := hs.1; rw [Fin.mk.injEq] at e; omega]
      exact hs.3
  · cases h
    exact hs

theorem pop_rootedStack {env : MenuEnv} {m m' : Menu} (hs : RootedStack m)
    (h : m.pop env = .ok m') : RootedStack m' := by
  unfold pop at h
  refine reload_rootedStack ?_ ?_ h
  · exact sizeDec_lt
  · exact hs.3

theorem executeHelper_rootedStack {env : MenuEnv} {m m' : Menu} {cmd : CStr}
    (hs : RootedStack m) (h : m.executeHelper env cmd = .ok m') : RootedStack m' := by
  unfold executeHelper at h
  split_ifs at h
  · cases h
    exact hs.of_eq rfl rfl
  · exact pop_rootedStack hs h
  · exact load_rootedStack hs h

theorem executeFields_rootedStack {env : MenuEnv} :
    ∀ {n : Nat} {m m' : Menu} {cmd : CStr}, RootedStack m →
      executeFields env n m cmd = .ok m' → RootedStack m'
  | 0, _, _, _, hs, h => executeHelper_rootedStack hs h
  | n + 1, m, m', cmd, hs, h => by
    rw [executeFields.eq_2] at h
    split_ifs at h
    · exact executeHelper_rootedStack hs h
    · obtain ⟨m₁, h₁, h⟩ := bind_eq_ok.1 h
      exact executeFields_rootedStack (executeHelper_rootedStack hs h₁) h

theorem enterItemHelper_rootedStack {env : MenuEnv} {m m' : Menu} (hs : RootedStack m)
    (h : m.enterItemHelper env = .ok m') : RootedStack m' := by
  unfold enterItemHelper at h
  split at h
  · cases h
    exact hs
  · obtain ⟨⟨item, cmd⟩, -, h⟩ := bind_eq_ok.1 h
    have hs₁ : RootedStack (m.setHighlightedItem item) := hs.of_eq rfl rfl
    dsimp only at h
    split at h
    · obtain ⟨c, -, h⟩ := bind_eq_ok.1 h
      split_ifs at h
      exact executeFields_rootedStack hs₁ h
    · split_ifs at h <;> cases h
      · exact hs₁.of_eq rfl rfl
      · exact hs₁

theorem encoderAction_rootedStack {env : MenuEnv} {m m' : Menu} {a : Int} {now : UInt32}
    (hs : RootedStack m) (h : m.encoderAction env a now = .ok m') : RootedStack m' := by
  unfold encoderAction at h
  obtain ⟨m₁, h₁, h⟩ := bind_eq_ok.1 h
  cases h
  suffices RootedStack m₁ from this.of_eq rfl rfl
  split_ifs at h₁
  · cases h₁
    exact hs
  · cases h₁
    unfold exitItemHelper
    split
    next item _ =>
      generalize item.adjust a = r
      obtain ⟨item', done, effect⟩ := r
      dsimp only
      split_ifs <;> exact hs.of_eq rfl rfl
    · exact hs.of_eq rfl rfl
  · obtain ⟨_, _, rfl⟩ := adjustItemHelper_eq h₁
    exact hs.of_eq rfl rfl
  · exact enterItemHelper_rootedStack hs h₁

/-- The timeout of `Refresh` empties the stack and loads `main` at its root. -/
theorem refresh_rootedStack {env : MenuEnv} {m m' : Menu} {now : UInt32} (hs : RootedStack m)
    (h : m.refresh env now = .ok m') : RootedStack m' := by
  unfold refresh at h
  split_ifs at h
  · obtain ⟨m₁, h₁, h⟩ := bind_eq_ok.1 h
    cases h
    rw [load, dif_pos (by exact Nat.zero_lt_succ 4)] at h₁
    refine (reload_rootedStack ?_ ?_ h₁).of_eq rfl rfl
    · exact Nat.one_lt_two_pow (by decide)
    · rfl
  · cases h
    exact hs

theorem step_rootedStack {env : MenuEnv} {m m' : Menu} {e : MenuEvent} (hs : RootedStack m)
    (h : m.step env e = .ok m') : RootedStack m' := by
  cases e with
  | load f => exact load_rootedStack hs h
  | pop => exact pop_rootedStack hs h
  | reload =>
    refine reload_rootedStack ?_ hs.3 h
    have := hs.2
    unfold maxMenuNesting at this
    omega
  | encoderAction a now => exact encoderAction_rootedStack hs h
  | refresh now => exact refresh_rootedStack hs h

end Menu

/-- **`main` is at the root of the stack.** In every state of every run of the menu, the
stack of menu files is one to `MaxMenuNesting` deep and its outermost file is `main`: `Load`
writes the slot at the depth, never the root, `Pop` and `Reload` write no file name, and
the timeout of `Refresh` puts `main` back at the root. -/
theorem reachable_main_at_root {m : Menu} (h : MenuReachable m) :
    1 ≤ m.numNestedMenus ∧ m.numNestedMenus ≤ maxMenuNesting ∧
      m.filenames ⟨0, Menu.zero_lt_maxMenuNesting⟩ = "main".toList := by
  suffices Menu.RootedStack m from ⟨this.1, this.2, this.3⟩
  induction h with
  | start env now h =>
    rw [Menu.load, dif_pos (by exact Nat.zero_lt_succ 4)] at h
    refine Menu.reload_rootedStack ?_ ?_ h
    · exact Nat.one_lt_two_pow (by decide)
    · rfl
  | step env e _ hs ih => exact Menu.step_rootedStack ih hs

/-- After `main`, a `Load` of a file that does not open: two deep, `main` at the root. -/
theorem main_at_root_after_load : ∃ m, MenuReachable m ∧ m.numNestedMenus = 2 ∧
    1 ≤ m.numNestedMenus ∧ m.numNestedMenus ≤ maxMenuNesting ∧
      m.filenames ⟨0, Menu.zero_lt_maxMenuNesting⟩ = "main".toList := by
  have h₀ : MenuReachable _ := .start (Menu.mainMenuEnv [Menu.alterSpeedLine]) 0 rfl
  have h₁ := MenuReachable.step (Menu.mainMenuEnv [Menu.alterSpeedLine]) (.load "sub".toList) h₀
    rfl
  exact ⟨_, h₁, rfl, reachable_main_at_root h₁⟩

end Display
