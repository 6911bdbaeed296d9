import RepRapFirmware.Display.CurrentFile
import RepRapFirmware.Display.FileList

/-!
# The commands the menu sends

A push of the encoder on a button or a file list runs an action string. `Select` returns
the button's action, or its `L` file name when the action is `menu`, or the command a file
list builds from its action and the selected file name; `EncoderAction_EnterItemHelper`
cuts the string at each `|` and hands every field to `EncoderAction_ExecuteHelper`, which
sends a field starting with `G`, `M` or `T` to `ProcessCommandFromLcd` and loads or pops a
menu for any other. No other path of the menu reaches the G-code processor: `Reload` only
adds `LoadError` screens to what the menu did, and `Adjust` writes a printer setting
itself.

`SentSince P m m'` says that every command `m'` has sent beyond those `m` had sent
satisfies `P`. Each function of the encoder gets one such lemma: `Reload` sends nothing,
`ExecuteHelper` sends its field if it is a G-code, the field loop sends the G-code fields
of its string, and a push sends fields of what `Select` returned (`LineArgs.Runs`), which
`ShowsFile` ties to a line of a menu file.

**What is proved** (`reachable_commands_from_files`). In every state of every run in which
the menu files and the directory listings stay the same, every command the menu has sent
starts with `G`, `M` or `T` and is one of the `|`-separated fields of a string a line of a
menu file gives a push: a button's action, or its file name `L` when the action is `menu`;
a file list's action, or the action up to its `#0` followed by, in double quotes, the name
of a file its directory lists.
-/

set_option autoImplicit false

namespace Display

namespace Menu

/-- The strings a push on the item of a line with command word `word` and arguments `a`
hands to the field loop, with the directory listings `listing`: a button's action, or its
file name `L` when the action is `menu`; a file list's action when it holds no `#0`, or
the action up to the `#0` followed by the name of a file of the listed directory, a prefix
of `D`, in double quotes. -/
def LineArgs.Runs (listing : CStr → List FileInfo) (word : CStr) (a : LineArgs) (s : CStr) :
    Prop :=
  ∃ act, a.action = some act ∧
    (stringEquals word "button".toList = true ∧
        (act ≠ "menu".toList ∧ s = act ∨ act = "menu".toList ∧ s = a.fname) ∨
      stringEquals word "files".toList = true ∧
        (stringContains act "#0".toList = -1 ∧ s = act ∨
          ∃ k, ∃ e ∈ listing (a.dirpath.take k), e.isDirectory = false ∧
            stringContains act "#0".toList ≠ -1 ∧
            s = act.take ((stringContains act "#0".toList).toNat - 2) ++ [quoteChar] ++
              e.fileName ++ [quoteChar]))

/-- A command comes from the menu files `files` under the listings `listing`: a G-code
(`G`, `M` or `T` first) that is a `|`-separated field of a string a push runs from a line
of one of them. -/
def CommandFrom (files : CStr → Option (List CStr)) (listing : CStr → List FileInfo)
    (c : CStr) : Prop :=
  (c.head? = some 'G' ∨ c.head? = some 'M' ∨ c.head? = some 'T') ∧
    ∃ fname file l word args a, files fname = some file ∧ l ∈ file ∧
      splitCommandWord (skipWhitespace l) = some (word, args) ∧
      parseArgs args.length LineArgs.initial args = .ok a ∧
      ∃ s, a.Runs listing word s ∧ c ∈ s.splitOn '|'

/-- Every command `m'` has sent beyond those of `m` satisfies `P`. -/
def SentSince (P : CStr → Prop) (m m' : Menu) : Prop :=
  ∀ c b, MenuEffect.command c b ∈ m'.effects → MenuEffect.command c b ∈ m.effects ∨ P c

section SentSince

variable {P Q : CStr → Prop} {m m₁ m' : Menu}

theorem SentSince.of_effects (h : m'.effects = m.effects) : SentSince P m m' :=
  fun _ _ hc => .inl (h ▸ hc)

theorem SentSince.mono (h : SentSince P m m') (hPQ : ∀ c, P c → Q c) : SentSince Q m m' :=
  fun c b hc => (h c b hc).imp_right (hPQ c)

theorem SentSince.trans (h₁ : SentSince P m m₁) (h₂ : SentSince P m₁ m') : SentSince P m m' :=
  fun c b hc => (h₂ c b hc).elim (h₁ c b) .inr

end SentSince

/-! ## Rebuilding the items -/

/-- **`Reload` sends nothing**: it adds at most one `LoadError` screen. -/
theorem reload_sentSince {env : MenuEnv} {m m' : Menu} (P : CStr → Prop)
    (hm : m.commandBufferIndex ≤ commandBufferSize) (h : m.reload env = .ok m') :
    SentSince P m m' := by
  obtain ⟨-, ⟨he, -⟩ | ⟨⟨fname, msg, n, he⟩, -⟩⟩ := reload_commandBuffer hm h
  · exact .of_effects he
  · intro c b hc
    rw [he, List.mem_append, List.mem_singleton] at hc
    exact .inl (hc.resolve_right MenuEffect.noConfusion)

theorem load_sentSince {env : MenuEnv} {m m' : Menu} {f : CStr} (P : CStr → Prop)
    (hm : m.commandBufferIndex ≤ commandBufferSize) (h : m.load env f = .ok m') :
    SentSince P m m' := by
  unfold load at h
  split at h
  · exact fun c b hc => reload_sentSince P (by exact hm) h c b hc
  · cases h
    exact .of_effects rfl

theorem pop_sentSince {env : MenuEnv} {m m' : Menu} (P : CStr → Prop)
    (hm : m.commandBufferIndex ≤ commandBufferSize) (h : m.pop env = .ok m') :
    SentSince P m m' :=
  fun c b hc => reload_sentSince P (by exact hm) h c b hc

/-! ## The fields of an action string -/

/-- `ExecuteHelper` sends at most its field, and only a G-code. -/
theorem executeHelper_sentSince {env : MenuEnv} {m m' : Menu} {cmd : CStr}
    (hm : m.commandBufferIndex ≤ commandBufferSize) (h : m.executeHelper env cmd = .ok m') :
    SentSince (fun c => c = cmd ∧ (c.head? = some 'G' ∨ c.head? = some 'M' ∨
      c.head? = some 'T')) m m' := by
  unfold executeHelper at h
  split_ifs at h with hg
  · cases h
    intro c b hc
    rw [List.mem_append, List.mem_singleton, MenuEffect.command.injEq] at hc
    refine hc.imp_right fun e => ⟨e.1, ?_⟩
    rw [e.1]
    exact hg
  · exact pop_sentSince _ hm h
  · exact load_sentSince _ hm h

/-- Running the fields `fs` one after the other sends G-codes among them only. -/
theorem foldlM_executeHelper_sentSince {env : MenuEnv} : ∀ {fs : List CStr} {m m' : Menu},
    m.commandBufferIndex ≤ commandBufferSize → fs.foldlM (executeHelper env) m = .ok m' →
      SentSince (fun c => (c.head? = some 'G' ∨ c.head? = some 'M' ∨ c.head? = some 'T') ∧
        c ∈ fs) m m'
  | [], _, _, _, h => by cases h; exact .of_effects rfl
  | f :: fs, m, m', hm, h => by
    obtain ⟨m₁, h₁, h⟩ := bind_eq_ok.1 h
    exact .trans ((executeHelper_sentSince hm h₁).mono fun c hc =>
        ⟨hc.2, hc.1 ▸ List.mem_cons_self f fs⟩)
      ((foldlM_executeHelper_sentSince (executeHelper_index_le hm h₁) h).mono fun c hc =>
        ⟨hc.1, List.mem_cons_of_mem f hc.2⟩)

/-- **The field loop sends G-code fields of its string**: with fuel that covers the
string, every command it sends is one of its `|`-separated fields. -/
theorem executeFields_sentSince {env : MenuEnv} {n : Nat} {m m' : Menu} {cmd : CStr}
    (hm : m.commandBufferIndex ≤ commandBufferSize) (hn : cmd.length ≤ n)
    (h : executeFields env n m cmd = .ok m') :
    SentSince (fun c => (c.head? = some 'G' ∨ c.head? = some 'M' ∨ c.head? = some 'T') ∧
      c ∈ cmd.splitOn '|') m m' := by
  obtain ⟨f, fs, rfl, hf, hfs⟩ := exists_joinFields cmd
  rw [executeFields_joinFields env fs f m n hf hfs hn] at h
  rw [splitOn_joinFields hf hfs]
  exact foldlM_executeHelper_sentSince hm h

end Menu

/-! ## What a push runs -/

namespace MenuItem

variable {listing : CStr → List FileInfo} {maxFilenameLength : Nat}

/-- **What a push runs.** The string `Select` hands to the field loop of the item a line
with command word `word` and arguments `a` makes is one a push runs from that line. -/
theorem select_runs {item item' : MenuItem} {p : BufStr} {c word : CStr} {a : Menu.LineArgs}
    (ha : item.CopiesArgs word a) (h : item.select listing maxFilenameLength = .ok (item', some p))
    (hr : p.read = .ok c) : a.Runs listing word c := by
  cases item with
  | text t => cases h
  | value v => cases h
  | button b =>
    obtain ⟨command, hcmd, h⟩ := bind_eq_ok.1 h
    cases h
    obtain ⟨hw, -, hact, hfile⟩ := ha
    obtain ⟨act, hs, he⟩ := Option.map_eq_some'.1 hact
    rw [← he] at hcmd
    obtain rfl : act = command := Except.ok.inj hcmd
    refine ⟨act, hs, .inl ⟨hw, ?_⟩⟩
    split at hr
    · rw [hfile] at hr
      cases hr
      exact .inr ⟨‹_›, rfl⟩
    · rw [← he] at hr
      cases hr
      exact .inl ⟨‹_›, rfl⟩
  | files f =>
    obtain ⟨⟨f', cmd⟩, hf, h⟩ := bind_eq_ok.1 h
    cases cmd with
    | none => cases h
    | some x =>
      cases h
      cases hr
      obtain ⟨e, he, ⟨-, -, hx⟩ | ⟨hd, act, c, hc, -, hx, hcmd⟩⟩ := FilesItem.select_spec hf
      · cases hx
      · cases hx
        obtain ⟨hw, hact, -, ⟨k, hk⟩, -⟩ := ha
        rw [hc, Option.map_eq_some'] at hact
        obtain ⟨act', hs, hact⟩ := hact
        obtain rfl : act' = act := BufStr.copy.inj hact
        rw [hk] at he
        exact ⟨_, hs, .inr ⟨hw, hcmd.imp_right fun hcmd => ⟨k, e, he, hd, hcmd⟩⟩⟩

/-- `Adjust` writes a printer setting or beeps; it sends no command. -/
theorem adjust_sends_nothing (item : MenuItem) (a : Int) (c : CStr) (b : Bool) :
    MenuEffect.command c b ∉ (item.adjust a).2.2.toList := by
  cases item with
  | value v =>
    simp only [adjust]
    split_ifs <;> simp only [Option.toList_some, Option.toList_none, List.mem_singleton,
      List.not_mem_nil, adjustSelectEffect, not_false_eq_true]
    split <;> exact MenuEffect.noConfusion
  | _ => exact List.not_mem_nil _

end MenuItem

namespace Menu

/-! ## The encoder -/

variable {files : CStr → Option (List CStr)} {listing : CStr → List FileInfo}

/-- **A push sends fields of what the menu file gives.** On a menu that shows its file,
every command `EnterItemHelper` sends is a G-code field of a string a push runs from a line
of a menu file. -/
theorem enterItemHelper_sentSince {env : MenuEnv} {m m' : Menu} (hm : ShowsFile files m)
    (hl : env.listing = listing) (h : m.enterItemHelper env = .ok m') :
    SentSince (CommandFrom files listing) m m' := by
  unfold enterItemHelper at h
  split at h
  · cases h
    exact .of_effects rfl
  · rename_i item hf
    obtain ⟨⟨item', cmd⟩, hs, h⟩ := bind_eq_ok.1 h
    dsimp only at h
    split at h
    · rename_i p
      obtain ⟨c, hr, h⟩ := bind_eq_ok.1 h
      split_ifs at h
      obtain ⟨fname, file, -, hfile, l, hlf, word, args, a, hw, hp, hc⟩ :=
        hm.copied item (List.mem_append_left _ (List.get?_mem hf))
      rw [hl] at hs
      have hruns := MenuItem.select_runs hc hs hr
      exact (executeFields_sentSince (by exact hm.index_le) (Nat.le_refl _) h).mono
        fun c' hc' => ⟨hc'.1, fname, file, l, word, args, a, hfile, hlf, hw, hp, c, hruns, hc'.2⟩
    · split_ifs at h <;> cases h <;> exact .of_effects rfl

/-- Handing a scroll or a push to the item being adjusted sends nothing. -/
theorem exitItemHelper_sentSince (P : CStr → Prop) (m : Menu) (a : Int) :
    SentSince P m (m.exitItemHelper a) := by
  unfold exitItemHelper
  split
  next item _ =>
    have hno := item.adjust_sends_nothing a
    generalize item.adjust a = r at hno
    obtain ⟨item', done, effect⟩ := r
    intro c b hc
    have he : MenuEffect.command c b ∈ m.effects ++ effect.toList := by
      dsimp only at hc
      split_ifs at hc <;> exact hc
    exact .inl ((List.mem_append.1 he).resolve_right (hno c b))
  · exact .of_effects rfl

theorem encoderAction_sentSince {env : MenuEnv} {m m' : Menu} {a : Int} {now : UInt32}
    (hm : ShowsFile files m) (hl : env.listing = listing)
    (h : m.encoderAction env a now = .ok m') : SentSince (CommandFrom files listing) m m' := by
  unfold encoderAction at h
  obtain ⟨m₁, h₁, h⟩ := bind_eq_ok.1 h
  cases h
  show SentSince _ m m₁
  split_ifs at h₁
  · cases h₁
    exact .of_effects rfl
  · cases h₁
    exact exitItemHelper_sentSince _ m a
  · obtain ⟨_, _, rfl⟩ := adjustItemHelper_eq h₁
    exact .of_effects rfl
  · exact enterItemHelper_sentSince hm hl h₁

theorem refresh_sentSince {env : MenuEnv} {m m' : Menu} {now : UInt32} (P : CStr → Prop)
    (hm : m.commandBufferIndex ≤ commandBufferSize) (h : m.refresh env now = .ok m') :
    SentSince P m m' := by
  unfold refresh at h
  split_ifs at h
  · obtain ⟨m₁, h₁, h⟩ := bind_eq_ok.1 h
    cases h
    exact fun c b hc => load_sentSince P (by exact hm) h₁ c b hc
  · cases h
    exact .of_effects rfl

/-- **One call.** Every call on a menu that shows its file sends only commands that come
from the menu files. -/
theorem step_sentSince {env : MenuEnv} {m m' : Menu} {e : MenuEvent} (hm : ShowsFile files m)
    (hl : env.listing = listing) (h : m.step env e = .ok m') :
    SentSince (CommandFrom files listing) m m' := by
  cases e with
  | load f => exact load_sentSince _ hm.index_le h
  | pop => exact pop_sentSince _ hm.index_le h
  | reload => exact reload_sentSince _ hm.index_le h
  | encoderAction a now => exact encoderAction_sentSince hm hl h
  | refresh now => exact refresh_sentSince _ hm.index_le h

end Menu

/-! ## Every run -/

/-- The states of the menu after `Load("main")` and any calls after it, each without
undefined behaviour, while the menu files are `files` and the directory listings
`listing` throughout. -/
inductive MenuReachableOn (files : CStr → Option (List CStr)) (listing : CStr → List FileInfo) :
    Menu → Prop
  | start (env : MenuEnv) (now : UInt32) {m : Menu} :
      (Menu.init now).load { env with menuFile := files, listing } "main".toList = .ok m →
        MenuReachableOn files listing m
  | step (env : MenuEnv) (e : Menu.MenuEvent) {m m' : Menu} : MenuReachableOn files listing m →
      m.step { env with menuFile := files, listing } e = .ok m' → MenuReachableOn files listing m'

/-- **The menu sends only what its files hold.** In every state of every run in which the
menu files stay `files` and the listings `listing`, every command the menu has sent to the
G-code processor is a G-code field of the action or the file name of a line of a menu file,
or of the action up to its `#0` followed by the name of a file the line's directory lists,
in double quotes. -/
theorem reachable_commands_from_files {files : CStr → Option (List CStr)}
    {listing : CStr → List FileInfo} {m : Menu} (h : MenuReachableOn files listing m) :
    ∀ c b, MenuEffect.command c b ∈ m.effects → Menu.CommandFrom files listing c := by
  suffices Menu.ShowsFile files m ∧ ∀ c b, MenuEffect.command c b ∈ m.effects →
      Menu.CommandFrom files listing c from this.2
  induction h with
  | start env now h =>
    rw [Menu.load, dif_pos (by exact Nat.zero_lt_succ 4)] at h
    refine ⟨Menu.reload_showsFile rfl h (Nat.zero_le _), fun c b hc => ?_⟩
    exact absurd ((Menu.reload_sentSince (fun _ => False) (Nat.zero_le _) h c b hc).resolve_right
      id) (List.not_mem_nil _)
  | step env e _ hs ih =>
    refine ⟨Menu.step_showsFile rfl ih.1 hs, fun c b hc => ?_⟩
    exact (Menu.step_sentSince ih.1 rfl hs c b hc).elim (ih.2 c b) id

/-- A file list whose action homes the printer and then prints the selected file. -/
def homeThenPrintLine : CStr := "files A\"G28|M32 #0\" I\"/gcodes\" N2".toList

/-- Pushing that file list over a directory of three files sends `G28` and then
`M32 "a.g"`: the fields of the action, the second with its `#0` replaced by the selected
file name in double quotes. -/
theorem home_then_print_sends_its_fields : ∃ m,
    MenuReachableOn (Menu.mainMenuEnv [homeThenPrintLine]).menuFile FilesItem.threeFiles m ∧
    MenuEffect.command "G28".toList true ∈ m.effects ∧
    MenuEffect.command ("M32 ".toList ++ [quoteChar] ++ "a.g".toList ++ [quoteChar]) true ∈
      m.effects ∧
    ∀ c b, MenuEffect.command c b ∈ m.effects →
      Menu.CommandFrom (Menu.mainMenuEnv [homeThenPrintLine]).menuFile FilesItem.threeFiles c := by
  have h₀ : MenuReachableOn (Menu.mainMenuEnv [homeThenPrintLine]).menuFile
      FilesItem.threeFiles _ :=
    .start (Menu.mainMenuEnv [homeThenPrintLine]) 0 (by rfl)
  have h₁ := MenuReachableOn.step (Menu.mainMenuEnv [homeThenPrintLine])
    (.encoderAction 0 0) h₀ (by rfl)
  exact ⟨_, h₁, by decide, by decide, reachable_commands_from_files h₁⟩

end Display
