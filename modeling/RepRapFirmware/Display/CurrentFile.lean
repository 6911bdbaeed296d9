import RepRapFirmware.Display.CommandBuffer

/-!
# What the menu shows comes from its menu file

`Reload` rebuilds the items from the menu file named at the top of the nesting stack,
`filenames[numNestedMenus - 1]`. Between two rebuilds the encoder changes items in place:
`Select`, `Advance`, `Enter` and `Adjust` move a file list's selection, build its command in
`m_acCommand`, or set a value item's adjusting flag, and none of them touches the strings an
item points into the command buffer. Every other call of the menu goes through `Load`,
`Pop` or `Reload`.

`ShowsFile files m` says that the index of the command buffer is in the buffer, the items'
strings lie below it, and every item copies the arguments of a line of the menu file that
`files` holds under the current file name (`CopiedFrom`). `MenuReachableIn files` is
`MenuReachable` with the menu files fixed to `files`; the printer's state, the listings and
the commands' results may still change between calls.

**What is proved.** Every call keeps `ShowsFile`: a `Reload` builds the items from the
current file or shows an error and keeps none (`reload_commandBuffer`), and the in-place
methods keep the strings of the item they change (`MenuItem.KeepsStrings`). So in every
state of every run in which the menu files stay the same, each item on the menu, with the
label it draws and the action and file name a push runs, is an exact copy of a line of
the menu file at the top of the nesting stack (`reachable_showsFile`).
-/

set_option autoImplicit false

namespace Display

/-- Setting an element to one with the same image leaves the mapped list alone. -/
theorem map_set_of_get? {α β : Type} {f : α → β} {l : List α} {i : Nat} {x y : α}
    (hy : l.get? i = some y) (h : f x = f y) : (l.set i x).map f = l.map f := by
  obtain ⟨hi, rfl⟩ := List.get?_eq_some.1 hy
  apply List.ext_getElem (by simp)
  intro j _ _
  simp only [List.getElem_map, List.getElem_set]
  split
  · rename_i e; subst e; exact h
  · rfl

theorem BufStr.read_eq_ok {p : BufStr} {s : CStr} (h : p.read = .ok s) : p = .copy s := by
  cases p with
  | copy x => cases h; rfl
  | pastEnd => cases h

namespace FilesItem

/-- `f'` is `f` after a method that moved its selection or built its command: it keeps what
`f` took from its line, the action, the directory, the directory it lists and the number
of lines it shows. -/
structure KeepsLine (f f' : FilesItem) : Prop where
  command : f'.command = f.command
  initialDirectory : f'.initialDirectory = f.initialDirectory
  currentDirectory : f'.currentDirectory = f.currentDirectory
  displayLines : f'.displayLines = f.displayLines

theorem KeepsLine.refl (f : FilesItem) : KeepsLine f f := ⟨rfl, rfl, rfl, rfl⟩

theorem KeepsLine.trans {f g h : FilesItem} (h₁ : KeepsLine f g) (h₂ : KeepsLine g h) :
    KeepsLine f h :=
  ⟨h₂.command.trans h₁.command, h₂.initialDirectory.trans h₁.initialDirectory,
    h₂.currentDirectory.trans h₁.currentDirectory, h₂.displayLines.trans h₁.displayLines⟩

theorem advanceDown_keepsLine (f : FilesItem) (n : Nat) : KeepsLine f (f.advanceDown n).1 := by
  induction n generalizing f with
  | zero => exact .refl f
  | succ n ih =>
    rw [advanceDown]
    split
    · exact .refl f
    · dsimp only
      split <;> exact .trans (by exact ⟨rfl, rfl, rfl, rfl⟩) (ih _)

theorem advanceUp_keepsLine (f : FilesItem) (n : Nat) : KeepsLine f (f.advanceUp n).1 := by
  induction n generalizing f with
  | zero => exact .refl f
  | succ n ih =>
    rw [advanceUp]
    split
    · exact .refl f
    · dsimp only
      split <;> exact .trans (by exact ⟨rfl, rfl, rfl, rfl⟩) (ih _)

/-- The entry the scan of `Select` stops at is an entry of the listing. -/
theorem scanEntry_mem : ∀ {entries : List FileInfo} {n : Nat} {e : FileInfo},
    scanEntry entries n = some e → e ∈ entries
  | [], _, _, h => by cases h
  | x :: xs, n, e, h => by
    rw [scanEntry] at h
    split_ifs at h
    · cases h
      exact List.mem_cons_self x xs
    · cases hs : scanEntry xs (n - 1) with
      | none =>
        rw [hs] at h
        cases h
        exact List.mem_cons_self x xs
      | some y =>
        rw [hs] at h
        cases h
        exact List.mem_cons_of_mem x (scanEntry_mem hs)

/-- **`Select` on a file list.** On the entry of the listing the scan stops at: nothing for
a directory; for a file, the command built in `m_acCommand` is the action when it holds no
`#0`, or the action up to the `#0` followed by the file name in double quotes. -/
theorem select_spec {listing : CStr → List FileInfo} {n : Nat} {f f' : FilesItem}
    {cmd : Option CStr} (h : f.select listing n = .ok (f', cmd)) :
    ∃ e ∈ listing f.currentDirectory, e.isDirectory = true ∧ f' = f ∧ cmd = none ∨
      e.isDirectory = false ∧ ∃ act c, f.command = .copy act ∧
        f' = { f with acCommand := c } ∧ cmd = some c ∧
        (stringContains act "#0".toList = -1 ∧ c = act ∨
          stringContains act "#0".toList ≠ -1 ∧
          c = act.take ((stringContains act "#0".toList).toNat - 2) ++ [quoteChar] ++
            e.fileName ++ [quoteChar]) := by
  unfold select at h
  cases hs : scanEntry (listing f.currentDirectory) f.currentSelectedFile.toNat with
  | none => simp only [hs] at h; cases h
  | some e =>
    simp only [hs] at h
    refine ⟨e, scanEntry_mem hs, ?_⟩
    split_ifs at h with hd
    · cases h
      exact .inl ⟨hd, rfl, rfl⟩
    · obtain ⟨act, hr, h⟩ := bind_eq_ok.1 h
      refine .inr ⟨Bool.eq_false_iff.2 hd, act, ?_⟩
      split_ifs at h with _ hi <;> cases h
      · exact ⟨_, BufStr.read_eq_ok hr, rfl, rfl, .inl ⟨hi, rfl⟩⟩
      · exact ⟨_, BufStr.read_eq_ok hr, rfl, rfl, .inr ⟨hi, rfl⟩⟩

theorem select_keepsLine {listing : CStr → List FileInfo} {n : Nat} {f f' : FilesItem}
    {cmd : Option CStr} (h : f.select listing n = .ok (f', cmd)) : KeepsLine f f' := by
  obtain ⟨e, -, ⟨-, rfl, -⟩ | ⟨-, act, c, -, rfl, -⟩⟩ := select_spec h
  · exact .refl _
  · exact ⟨rfl, rfl, rfl, rfl⟩

end FilesItem

namespace MenuItem

/-- `item'` is `item` after a method changed it in place: it points to the same bytes of
the command buffer and is what the builder makes for every line `item` is made for. -/
structure KeepsStrings (item item' : MenuItem) : Prop where
  bytes : item'.bytes = item.bytes
  copies : ∀ word a, item.CopiesArgs word a → item'.CopiesArgs word a

theorem KeepsStrings.refl (item : MenuItem) : KeepsStrings item item := ⟨rfl, fun _ _ => id⟩

/-- A file list keeps its strings while it keeps what it took from its line. -/
theorem KeepsStrings.files {f f' : FilesItem} (h : f.KeepsLine f') :
    KeepsStrings (.files f) (.files f') :=
  ⟨by simp only [bytes_files, h.command, h.initialDirectory], fun _ _ hc => by
    simp only [CopiesArgs, h.command, h.initialDirectory, h.currentDirectory,
      h.displayLines] at hc ⊢
    exact hc⟩

/-- A value item keeps its strings while it shows the same value. -/
theorem KeepsStrings.value {v v' : ValueItem} (h : v'.valIndex = v.valIndex) :
    KeepsStrings (.value v) (.value v') :=
  ⟨rfl, fun _ _ hc => by simp only [CopiesArgs, h] at hc ⊢; exact hc⟩

end MenuItem

namespace MenuItem

variable {listing : CStr → List FileInfo} {maxFilenameLength : Nat}

theorem select_keepsStrings {item item' : MenuItem} {cmd : Option BufStr}
    (h : item.select listing maxFilenameLength = .ok (item', cmd)) : KeepsStrings item item' := by
  cases item with
  | text t => cases h; exact .refl _
  | button b =>
    obtain ⟨c, -, h⟩ := bind_eq_ok.1 h
    cases h; exact .refl _
  | value v => cases h; exact .value rfl
  | files f =>
    obtain ⟨⟨f', c⟩, hf, h⟩ := bind_eq_ok.1 h
    cases h
    exact .files (FilesItem.select_keepsLine hf)

theorem advance_keepsStrings (item : MenuItem) (a : Int) :
    KeepsStrings item (item.advance a).1 := by
  cases item with
  | files f =>
    show KeepsStrings (.files f) (.files (f.advance a).1)
    unfold FilesItem.advance
    split_ifs
    · exact .files (f.advanceDown_keepsLine _)
    · exact .files (f.advanceUp_keepsLine _)
    · exact .refl _
  | _ => exact .refl _

theorem enter_keepsStrings (item : MenuItem) (b : Bool) : KeepsStrings item (item.enter b) := by
  cases item with
  | files f =>
    show KeepsStrings (.files f) (.files (f.enter b))
    unfold FilesItem.enter
    split <;> exact .files ⟨rfl, rfl, rfl, rfl⟩
  | _ => exact .refl _

theorem adjust_keepsStrings (item : MenuItem) (a : Int) :
    KeepsStrings item (item.adjust a).1 := by
  cases item with
  | value v =>
    simp only [adjust]
    split_ifs <;> exact .value rfl
  | _ => exact .refl _

end MenuItem

namespace Menu

/-! ## The invariant -/

/-- The menu shows its current menu file: the index is in the command buffer, the items'
strings lie below it, and every item copies the arguments of a line of the file `files`
holds under `filenames[numNestedMenus - 1]`. -/
structure ShowsFile (files : CStr → Option (List CStr)) (m : Menu) : Prop where
  index_le : m.commandBufferIndex ≤ commandBufferSize
  bytes_le : m.itemBytes ≤ m.commandBufferIndex
  copied : ∀ item ∈ m.items, ∃ fname file, m.currentFilename = .ok fname ∧
    files fname = some file ∧ ∃ l ∈ file, CopiedFrom l item

variable {files : CStr → Option (List CStr)}

theorem currentFilename_of_control {m m' : Menu} (h : m'.control = m.control) :
    m'.currentFilename = m.currentFilename := by
  simp only [control, Prod.mk.injEq] at h
  rw [currentFilename, currentFilename, h.1, h.2.1]

/-- A call that keeps the items, the index and the current file name keeps the invariant. -/
theorem ShowsFile.of_eq {m m' : Menu} (hm : ShowsFile files m) (hi : m'.items = m.items)
    (hx : m'.commandBufferIndex = m.commandBufferIndex)
    (hf : m'.currentFilename = m.currentFilename) : ShowsFile files m' := by
  refine ⟨hx ▸ hm.index_le, ?_, fun item h => ?_⟩
  · rw [itemBytes, hi, hx]; exact hm.bytes_le
  · rw [hf]; exact hm.copied item (hi ▸ h)

/-- An item changed in place at the highlight keeps the invariant. -/
theorem ShowsFile.setHighlightedItem {m : Menu} {item item' : MenuItem} (hm : ShowsFile files m)
    (hf : m.findHighlightedItem = some item) (hk : item.KeepsStrings item') :
    ShowsFile files (m.setHighlightedItem item') := by
  have hbytes : (m.setHighlightedItem item').itemBytes = m.itemBytes := by
    show ((m.selectableItems.set m.highlightedItem.toNat item' ++ m.unSelectableItems).map
      MenuItem.bytes).sum = _
    rw [List.map_append, map_set_of_get? hf hk.bytes, ← List.map_append]
    rfl
  refine ⟨hm.index_le, hbytes ▸ hm.bytes_le, fun i hi => ?_⟩
  rcases List.mem_append.1 hi with hi | hi
  · rcases List.mem_or_eq_of_mem_set hi with hi | rfl
    · exact hm.copied i (List.mem_append_left _ hi)
    · obtain ⟨fname, file, h₁, h₂, l, hl, word, args, a, hw, hp, hc⟩ :=
        hm.copied item (List.mem_append_left _ (List.get?_mem hf))
      exact ⟨fname, file, h₁, h₂, l, hl, word, args, a, hw, hp, hk.copies word a hc⟩
  · exact hm.copied i (List.mem_append_right _ hi)

/-! ## One call -/

section Calls

variable {env : MenuEnv} (henv : env.menuFile = files)
include henv

/-- **`Reload`** from an index in the buffer: the items come from the current file, or
there are none. -/
theorem reload_showsFile {m m' : Menu} (h : m.reload env = .ok m')
    (hm : m.commandBufferIndex ≤ commandBufferSize) : ShowsFile files m' := by
  have hf := currentFilename_of_control (reload_spec h).1
  obtain ⟨hle, ⟨-, fname, file, h₁, h₂, hb⟩ | ⟨-, hitems, -⟩⟩ :=
    reload_commandBuffer (by exact hm) h
  · exact ⟨hle, hb.bytes_le, fun item hi =>
      ⟨fname, file, hf.trans h₁, (congrFun henv fname).symm.trans h₂, hb.copied item hi⟩⟩
  · refine ⟨hle, ?_, fun item hi => absurd (hitems ▸ hi) (List.not_mem_nil _)⟩
    rw [itemBytes, hitems]
    exact Nat.zero_le _

theorem load_showsFile {m m' : Menu} {f : CStr} (hm : ShowsFile files m)
    (h : m.load env f = .ok m') : ShowsFile files m' := by
  unfold load at h
  split at h
  · exact reload_showsFile henv h hm.index_le
  · cases h; exact hm

theorem executeHelper_showsFile {m m' : Menu} {cmd : CStr} (hm : ShowsFile files m)
    (h : m.executeHelper env cmd = .ok m') : ShowsFile files m' := by
  unfold executeHelper at h
  split_ifs at h
  · cases h; exact hm.of_eq rfl rfl rfl
  · exact reload_showsFile henv h hm.index_le
  · exact load_showsFile henv hm h

theorem executeFields_showsFile :
    ∀ {n : Nat} {m m' : Menu} {cmd : CStr}, ShowsFile files m →
      executeFields env n m cmd = .ok m' → ShowsFile files m'
  | 0, _, _, _, hm, h => executeHelper_showsFile henv hm h
  | n + 1, m, m', cmd, hm, h => by
    rw [executeFields.eq_2] at h
    split_ifs at h
    · exact executeHelper_showsFile henv hm h
    · obtain ⟨m₁, h₁, h⟩ := bind_eq_ok.1 h
      exact executeFields_showsFile (executeHelper_showsFile henv hm h₁) h

theorem enterItemHelper_showsFile {m m' : Menu} (hm : ShowsFile files m)
    (h : m.enterItemHelper env = .ok m') : ShowsFile files m' := by
  unfold enterItemHelper at h
  split at h
  · cases h; exact hm
  · rename_i item hf
    obtain ⟨⟨item', cmd⟩, hs, h⟩ := bind_eq_ok.1 h
    have hm₁ := hm.setHighlightedItem hf (MenuItem.select_keepsStrings hs)
    dsimp only at h
    split at h
    · obtain ⟨c, -, h⟩ := bind_eq_ok.1 h
      split_ifs at h
      exact executeFields_showsFile henv hm₁ h
    · split_ifs at h <;> cases h
      · exact hm₁.of_eq rfl rfl rfl
      · exact hm₁

end Calls

theorem exitItemHelper_showsFile {m : Menu} (hm : ShowsFile files m) (a : Int) :
    ShowsFile files (m.exitItemHelper a) := by
  unfold exitItemHelper
  split
  next item hf =>
    have hm₁ := hm.setHighlightedItem hf (item.adjust_keepsStrings a)
    generalize item.adjust a = r at hm₁
    obtain ⟨item', done, effect⟩ := r
    dsimp only
    split_ifs <;> exact hm₁.of_eq rfl rfl rfl
  · exact hm.of_eq rfl rfl rfl

/-- `AdjustItemHelper` changes only the selectable items and the highlight. -/
theorem adjustItemHelper_eq {m m' : Menu} {a : Int} (h : m.adjustItemHelper a = .ok m') :
    ∃ sel k, m' = { m with selectableItems := sel, highlightedItem := k } := by
  unfold adjustItemHelper at h
  split at h
  next item _ =>
    generalize item.advance a = p at h
    obtain ⟨item', r⟩ := p
    dsimp only at h
    split_ifs at h
    · cases h
      exact ⟨_, _, rfl⟩
    · obtain ⟨k, -, h⟩ := bind_eq_ok.1 h
      obtain ⟨k', -, h⟩ := bind_eq_ok.1 h
      split at h <;> cases h
      exact ⟨_, _, rfl⟩
  · cases h

theorem adjustItemHelper_showsFile {m m' : Menu} {a : Int} (hm : ShowsFile files m)
    (h : m.adjustItemHelper a = .ok m') : ShowsFile files m' := by
  unfold adjustItemHelper at h
  split at h
  next item hf =>
    have hm₁ := hm.setHighlightedItem hf (item.advance_keepsStrings a)
    generalize item.advance a = p at h hm₁
    obtain ⟨item', r⟩ := p
    dsimp only at h hm₁
    split_ifs at h
    · cases h; exact hm₁
    · obtain ⟨k, -, h⟩ := bind_eq_ok.1 h
      obtain ⟨k', -, h⟩ := bind_eq_ok.1 h
      split at h
      · rename_i new hnew
        cases h
        exact (show ShowsFile files { m.setHighlightedItem item' with highlightedItem := k' } from
          hm₁.of_eq rfl rfl rfl).setHighlightedItem hnew (new.enter_keepsStrings _)
      · cases h
  · cases h

theorem encoderAction_showsFile {env : MenuEnv} (henv : env.menuFile = files) {m m' : Menu}
    {a : Int} {now : UInt32} (hm : ShowsFile files m) (h : m.encoderAction env a now = .ok m') :
    ShowsFile files m' := by
  unfold encoderAction at h
  obtain ⟨m₁, h₁, h⟩ := bind_eq_ok.1 h
  cases h
  refine ShowsFile.of_eq (show ShowsFile files m₁ from ?_) rfl rfl rfl
  split_ifs at h₁
  · cases h₁; exact hm
  · cases h₁; exact exitItemHelper_showsFile hm a
  · exact adjustItemHelper_showsFile hm h₁
  · exact enterItemHelper_showsFile henv hm h₁

theorem refresh_showsFile {env : MenuEnv} (henv : env.menuFile = files) {m m' : Menu}
    {now : UInt32} (hm : ShowsFile files m) (h : m.refresh env now = .ok m') :
    ShowsFile files m' := by
  unfold refresh at h
  split_ifs at h
  · obtain ⟨m₁, h₁, h⟩ := bind_eq_ok.1 h
    cases h
    rw [load, dif_pos (by exact Nat.zero_lt_succ 4)] at h₁
    exact (reload_showsFile henv h₁ hm.index_le).of_eq rfl rfl rfl
  · cases h; exact hm

theorem step_showsFile {env : MenuEnv} (henv : env.menuFile = files) {m m' : Menu}
    {e : MenuEvent} (hm : ShowsFile files m) (h : m.step env e = .ok m') : ShowsFile files m' := by
  cases e with
  | load f => exact load_showsFile henv hm h
  | pop => exact reload_showsFile henv h hm.index_le
  | reload => exact reload_showsFile henv h hm.index_le
  | encoderAction a now => exact encoderAction_showsFile henv hm h
  | refresh now => exact refresh_showsFile henv hm h

end Menu

/-! ## Every run -/

/-- The states of the menu after `Load("main")` and any calls after it, each without
undefined behaviour, while the menu files are `files` throughout. -/
inductive MenuReachableIn (files : CStr → Option (List CStr)) : Menu → Prop
  | start (env : MenuEnv) (now : UInt32) {m : Menu} :
      (Menu.init now).load { env with menuFile := files } "main".toList = .ok m →
        MenuReachableIn files m
  | step (env : MenuEnv) (e : Menu.MenuEvent) {m m' : Menu} : MenuReachableIn files m →
      m.step { env with menuFile := files } e = .ok m' → MenuReachableIn files m'

/-- **The menu shows its current menu file.** In every state of every run in which the menu
files stay the same, the items' strings lie inside the command buffer, and every item, with
its label, its action and its file name, is an exact copy of the arguments of a line of the
menu file at the top of the nesting stack. -/
theorem reachable_showsFile {files : CStr → Option (List CStr)} {m : Menu}
    (h : MenuReachableIn files m) : Menu.ShowsFile files m := by
  induction h with
  | start env now h =>
    rw [Menu.load, dif_pos (by exact Nat.zero_lt_succ 4)] at h
    exact Menu.reload_showsFile rfl h (Nat.zero_le _)
  | step env e _ hs ih => exact Menu.step_showsFile rfl ih hs

/-- The menu of one alterable value, after its first `Load("main")`. -/
theorem alter_menu_shows_main :
    ∃ m, MenuReachableIn (Menu.mainMenuEnv [Menu.alterSpeedLine]).menuFile m ∧
      Menu.ShowsFile (Menu.mainMenuEnv [Menu.alterSpeedLine]).menuFile m :=
  have h : MenuReachableIn (Menu.mainMenuEnv [Menu.alterSpeedLine]).menuFile _ :=
    .start (Menu.mainMenuEnv [Menu.alterSpeedLine]) 0 (by rfl)
  ⟨_, h, reachable_showsFile h⟩

end Display
