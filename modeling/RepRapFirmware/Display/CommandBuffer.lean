import RepRapFirmware.Display.MenuFile

/-!
# The command buffer

`Reload` frees the 512-byte command buffer of the menu (`commandBufferIndex = 0`) and
parses the menu file line by line; the item builder of `ParseMenuLine` copies each string
an item keeps into the buffer with `AppendString`. `AppendString` copies what fits,
`SafeStrncpy` always ending the copy with a NUL, and moves the index past it; once the
index is at the end it copies nothing and returns the pointer one past the buffer.
After each line `Reload` checks whether the index reached the end, and if so shows
`LoadError("|Menu buffer full")`, which deletes every item.

The model keeps the index and, for every string an item holds, what was copied
(`BufStr`), not the bytes of the buffer: a string lies inside the buffer when the bytes
of the items' strings, NULs included, add up to at most the index (`itemBytes`), the
strings being written one after another from offset 0.

## What is proved

`appendString_spec` says once what `AppendString` can do; `addLineItem_lineStep` and
`parseMenuLine_lineStep` carry it through one line (`LineStep`), and `parseLines_buffer`
through the line loop, with `BufferInv` between two lines: the index below the end, the
items' strings inside the buffer, and each an exact copy of an argument of a line of the
file. `reload_commandBuffer` is the result for `Reload`: the index stays in the buffer,
and either no error was shown and `BufferInv` holds of the new items, or `LoadError`
was shown once and there is no item left to draw or select. A full buffer ends in the
second case, since the first has the index below the end. Only `AppendString` and
`Reload` write the index, so it is in the buffer in every reachable state
(`reachable_commandBufferIndex_le`).

## What this does not give

The buffer check runs after the whole line. On a `files` line the three strings are
appended before `FilesMenuItem`'s constructor runs, and the constructor reads the
directory string at once (`EnterDirectory` copies it with `SafeStrncpy`). When the
action string fills the buffer, the directory is the pointer one past the buffer, and
the constructor reads past its end before `Reload` gets to the check
(`reload_files_line_reads_past_end`).
-/

set_option autoImplicit false

namespace Display

/-- The bytes of the command buffer a string `AppendString` returned takes, its NUL
included; the pointer one past the buffer takes none. -/
def BufStr.bytes : BufStr → Nat
  | .copy s => s.length + 1
  | .pastEnd => 0

@[simp] theorem BufStr.bytes_copy (s : CStr) : (BufStr.copy s).bytes = s.length + 1 := rfl

namespace MenuItem

/-- The strings in the command buffer an item points to. `FilesMenuItem` keeps its
current directory and its command in arrays of its own. -/
def bufStrs : MenuItem → List BufStr
  | .text t => [t]
  | .button b => [b.text, b.command, b.file]
  | .value _ => []
  | .files f => [f.command, f.initialDirectory]

/-- The bytes of the command buffer an item points to. -/
def bytes (item : MenuItem) : Nat := (item.bufStrs.map BufStr.bytes).sum

@[simp] theorem bytes_text (t : BufStr) : (text t).bytes = t.bytes := by
  simp [bytes, bufStrs]

@[simp] theorem bytes_button (b : ButtonItem) :
    (button b).bytes = b.text.bytes + b.command.bytes + b.file.bytes := by
  simp [bytes, bufStrs, Nat.add_assoc]

@[simp] theorem bytes_value (v : ValueItem) : (value v).bytes = 0 := rfl

@[simp] theorem bytes_files (f : FilesItem) :
    (files f).bytes = f.command.bytes + f.initialDirectory.bytes := by
  simp [bytes, bufStrs]

/-- The item the builder makes for the command word `word` with the arguments `a`: an item
of the kind the word names, whose strings are exact copies of the arguments. A text item
copies the text; a button the text, the action and the file name; a value item (`value`
or `alter`) shows value `N`; a file list copies the action and the directory, lists a
prefix of the directory, and shows `N` lines. -/
def CopiesArgs (word : CStr) (a : Menu.LineArgs) : MenuItem → Prop
  | .text t => stringEquals word "text".toList = true ∧ t = .copy a.text
  | .button b => stringEquals word "button".toList = true ∧
    b.text = .copy a.text ∧ a.action.map .copy = some b.command ∧ b.file = .copy a.fname
  | .value v =>
    (stringEquals word "value".toList = true ∨ stringEquals word "alter".toList = true) ∧
      v.valIndex = a.nparam
  | .files f => stringEquals word "files".toList = true ∧
    a.action.map .copy = some f.command ∧ f.initialDirectory = .copy a.dirpath ∧
    (∃ k, f.currentDirectory = a.dirpath.take k) ∧ f.displayLines = UInt32.ofNat a.nparam

end MenuItem

namespace Menu

/-- An item is the one the builder makes for the command word of the line `l` and the
arguments the argument loop reads from it. -/
def CopiedFrom (l : CStr) (item : MenuItem) : Prop :=
  ∃ word args a, splitCommandWord (skipWhitespace l) = some (word, args) ∧
    parseArgs args.length LineArgs.initial args = .ok a ∧ item.CopiesArgs word a

/-- The items of the menu, the selectable ones first. -/
def items (m : Menu) : List MenuItem := m.selectableItems ++ m.unSelectableItems

/-- The bytes of the command buffer the items point to. -/
def itemBytes (m : Menu) : Nat := (m.items.map MenuItem.bytes).sum

/-! ## `AppendString` -/

/-- **`AppendString`.** The index moves forward and stays in the buffer, and nothing
else changes; while the index stays below the end, the string was not null and was
copied whole, the index moving past it and its NUL. -/
theorem appendString_spec {m m' : Menu} {s : Option CStr} {p : BufStr}
    (hm : m.commandBufferIndex ≤ commandBufferSize) (h : m.appendString s = .ok (m', p)) :
    ∃ k, m' = { m with commandBufferIndex := k } ∧ m.commandBufferIndex ≤ k ∧
      k ≤ commandBufferSize ∧
      (k < commandBufferSize → ∃ x, s = some x ∧ p = .copy x ∧
        k = m.commandBufferIndex + x.length + 1) := by
  unfold appendString at h
  split_ifs at h with hlt
  · cases s with
    | none => cases h
    | some x =>
      cases h
      have hc := List.length_take (commandBufferSize - m.commandBufferIndex - 1) x
      refine ⟨_, rfl, by omega, by simp only [safeStrncpy]; omega, fun hend => ⟨x, rfl, ?_⟩⟩
      simp only [safeStrncpy] at hend ⊢
      rw [List.take_of_length_le (by omega)]
      exact ⟨rfl, rfl⟩
  · cases h
    exact ⟨_, rfl, Nat.le_refl _, hm, fun hend => absurd hend hlt⟩

/-- An append as the first step of a `do` block: `appendString_spec` for the string it
returns and the state the rest of the block runs from. -/
theorem appendString_bind {γ : Type} {m : Menu} {s : Option CStr}
    {f : Menu × BufStr → Except MenuFault γ} {r : γ}
    (hm : m.commandBufferIndex ≤ commandBufferSize) (h : m.appendString s >>= f = .ok r) :
    ∃ k p, f ({ m with commandBufferIndex := k }, p) = .ok r ∧ m.commandBufferIndex ≤ k ∧
      k ≤ commandBufferSize ∧
      (k < commandBufferSize → ∃ x, s = some x ∧ p = .copy x ∧
        k = m.commandBufferIndex + x.length + 1) := by
  obtain ⟨⟨m', p⟩, e, h⟩ := bind_eq_ok.1 h
  obtain ⟨k, rfl, hk⟩ := appendString_spec hm e
  exact ⟨k, p, h, hk⟩

/-- `AppendString` at the end of the buffer returns the pointer one past it. -/
theorem appendString_of_end {m : Menu} (s : Option CStr)
    (h : commandBufferSize ≤ m.commandBufferIndex) : m.appendString s = .ok (m, .pastEnd) := by
  unfold appendString
  rw [if_neg (by omega)]

/-- A string that does not fit the room left is cut to it, and the index reaches the end. -/
theorem appendString_fills {m : Menu} {s : CStr} (hlt : m.commandBufferIndex < commandBufferSize)
    (hfull : commandBufferSize ≤ m.commandBufferIndex + s.length + 1) :
    ∃ c, m.appendString (some s) =
      .ok ({ m with commandBufferIndex := commandBufferSize }, .copy c) := by
  have hc := List.length_take (commandBufferSize - m.commandBufferIndex - 1) s
  refine ⟨safeStrncpy s (commandBufferSize - m.commandBufferIndex), ?_⟩
  unfold appendString
  rw [if_pos hlt]
  simp only [safeStrncpy, hc]
  congr 4
  omega

/-! ## One line -/

theorem addItem_commandBufferIndex (m : Menu) (item : MenuItem) (sel : Bool) :
    (m.addItem item sel).commandBufferIndex = m.commandBufferIndex := by
  cases sel <;> rfl

theorem addItem_effects (m : Menu) (item : MenuItem) (sel : Bool) :
    (m.addItem item sel).effects = m.effects := by
  cases sel <;> rfl

theorem mem_items_addItem {m : Menu} {item i : MenuItem} {sel : Bool} :
    i ∈ (m.addItem item sel).items ↔ i ∈ m.items ∨ i = item := by
  cases sel <;> simp only [addItem, items, Bool.false_eq_true, if_false, if_true,
    List.mem_append, List.mem_singleton] <;> tauto

theorem itemBytes_addItem (m : Menu) (item : MenuItem) (sel : Bool) :
    (m.addItem item sel).itemBytes = m.itemBytes + item.bytes := by
  cases sel <;> simp only [addItem, itemBytes, items, Bool.false_eq_true, if_false, if_true,
    List.map_append, List.sum_append, List.map_singleton, List.sum_singleton] <;> omega

/-- `m'` is `m` after the item builder of one line, whose new items satisfy `P`: the
effects are the same, the index moves forward and stays in the buffer, and if it stays
below the end, it moved past the new items' strings and the new items satisfy `P`. -/
structure LineStep (P : MenuItem → Prop) (m m' : Menu) : Prop where
  effects : m'.effects = m.effects
  index_mono : m.commandBufferIndex ≤ m'.commandBufferIndex
  index_le : m'.commandBufferIndex ≤ commandBufferSize
  below_end : m'.commandBufferIndex < commandBufferSize →
    m.commandBufferIndex + m'.itemBytes ≤ m'.commandBufferIndex + m.itemBytes ∧
      ∀ item ∈ m'.items, item ∈ m.items ∨ P item

theorem LineStep.refl {P : MenuItem → Prop} {m : Menu}
    (hm : m.commandBufferIndex ≤ commandBufferSize) : LineStep P m m :=
  ⟨rfl, Nat.le_refl _, hm, fun _ => ⟨Nat.le_refl _, fun _ h => .inl h⟩⟩

theorem LineStep.mono {P Q : MenuItem → Prop} {m m' : Menu} (h : LineStep P m m')
    (hPQ : ∀ item, P item → Q item) : LineStep Q m m' :=
  ⟨h.effects, h.index_mono, h.index_le, fun hlt =>
    (h.below_end hlt).imp_right fun hi item hm => (hi item hm).imp_right (hPQ item)⟩

/-- Adding an item after the appends of its strings, which moved the index to `k`. -/
theorem LineStep.addItem {P : MenuItem → Prop} {m : Menu} {k : Nat} {item : MenuItem}
    {sel : Bool} (h₀ : m.commandBufferIndex ≤ k) (h₁ : k ≤ commandBufferSize)
    (hP : k < commandBufferSize → m.commandBufferIndex + item.bytes ≤ k ∧ P item) :
    LineStep P m ({ m with commandBufferIndex := k }.addItem item sel) := by
  have hk := addItem_commandBufferIndex { m with commandBufferIndex := k } item sel
  refine ⟨addItem_effects _ _ _, by rw [hk]; exact h₀, by rw [hk]; exact h₁, fun hlt => ?_⟩
  rw [hk] at hlt ⊢
  obtain ⟨hb, hp⟩ := hP hlt
  refine ⟨?_, fun i hi => (mem_items_addItem.1 hi).imp_right ?_⟩
  · rw [itemBytes_addItem]
    show m.commandBufferIndex + (m.itemBytes + item.bytes) ≤ k + m.itemBytes
    omega
  · rintro rfl
    exact hp

/-- The constructor of a file list keeps the two strings it is given and the number of
lines, and lists the directory it was given, cut to `MaxFilenameLength`. -/
theorem create_bufStrs {listing : CStr → List FileInfo} {mfl : Nat} {c d : BufStr} {nf : UInt32}
    {f : FilesItem} (h : FilesItem.create listing mfl c d nf = .ok f) :
    f.command = c ∧ f.initialDirectory = d ∧
      (∃ s, d = .copy s ∧ f.currentDirectory = safeStrncpy s mfl) ∧ f.displayLines = nf := by
  cases d with
  | copy d => cases h; exact ⟨rfl, rfl, ⟨d, rfl, rfl⟩, rfl⟩
  | pastEnd => cases h

/-- Every result of the computation `x` is a line step from `m`. -/
def LineStepOk {γ : Type} (P : MenuItem → Prop) (m : Menu)
    (x : Except MenuFault (Menu × γ)) : Prop :=
  ∀ m' c, x = .ok (m', c) → LineStep P m m'

theorem LineStepOk.ite {γ : Type} {P : MenuItem → Prop} {m : Menu} {p : Prop} [Decidable p]
    {x y : Except MenuFault (Menu × γ)} (hx : p → LineStepOk P m x) (hy : ¬p → LineStepOk P m y) :
    LineStepOk P m (if p then x else y) := by
  split
  · exact hx ‹_›
  · exact hy ‹_›

theorem LineStepOk.refl {γ : Type} {P : MenuItem → Prop} {m : Menu}
    (hm : m.commandBufferIndex ≤ commandBufferSize) (c : γ) : LineStepOk P m (.ok (m, c)) :=
  fun _ _ h => by cases h; exact .refl hm

/-- **One line's item.** The item builder appends its strings and adds its item; while
the buffer stays below the end, the new item is of the kind the command word names and
its strings are exact copies of the arguments of the line. -/
theorem addLineItem_lineStep {env : MenuEnv} {m m' : Menu} {word : CStr} {a : LineArgs}
    {err : Option CStr} (hm : m.commandBufferIndex ≤ commandBufferSize)
    (h : m.addLineItem env word a = .ok (m', err)) : LineStep (·.CopiesArgs word a) m m' := by
  refine (?_ : LineStepOk _ m (m.addLineItem env word a)) m' err h
  have value : ∀ sel, (stringEquals word "value".toList = true ∨
      stringEquals word "alter".toList = true) → LineStepOk (·.CopiesArgs word a) m
      (.ok (m.addItem (.value ⟨a.nparam, false⟩) sel, (none : Option CStr))) :=
    fun _ hw _ _ h => by
      cases h
      exact .addItem (Nat.le_refl _) hm fun _ => ⟨Nat.le_refl _, hw, rfl⟩
  unfold addLineItem
  refine .ite (fun hw _ _ h => ?text) fun _ => .ite (fun _ => .refl hm _) fun _ =>
    .ite (fun hw => .ite (fun _ _ _ h => ?button) fun _ => .refl hm _) fun _ =>
    .ite (fun hw => value false (.inl hw)) fun _ => .ite (fun hw => value true (.inr hw)) fun _ =>
    .ite (fun hw _ _ h => ?files) fun _ => .refl hm _
  case text =>
    obtain ⟨k₁, t, h, hk₁, hk₁', hx₁⟩ := appendString_bind hm h
    cases h
    refine .addItem hk₁ hk₁' fun hk => ?_
    obtain ⟨x, hx, rfl, rfl⟩ := hx₁ hk
    cases hx
    exact ⟨by simp only [MenuItem.bytes_text, BufStr.bytes_copy]; omega, hw, rfl⟩
  case button =>
    obtain ⟨k₁, t, h, hk₁, hk₁', hx₁⟩ := appendString_bind hm h
    obtain ⟨k₂, c, h, hk₂, hk₂', hx₂⟩ := appendString_bind hk₁' h
    obtain ⟨k₃, f, h, hk₃, hk₃', hx₃⟩ := appendString_bind hk₂' h
    cases h
    dsimp only at hk₂ hx₂ hk₃ hx₃
    refine .addItem (by omega) hk₃' fun hk => ?_
    obtain ⟨x, hx, rfl, rfl⟩ := hx₁ (by omega)
    obtain ⟨y, hy, rfl, rfl⟩ := hx₂ (by omega)
    obtain ⟨z, hz, rfl, rfl⟩ := hx₃ hk
    cases hx; cases hz
    refine ⟨by simp only [MenuItem.bytes_button, BufStr.bytes_copy]; omega, hw, rfl, ?_, rfl⟩
    rw [hy]; rfl
  case files =>
    obtain ⟨k₁, c, h, hk₁, hk₁', hx₁⟩ := appendString_bind hm h
    obtain ⟨k₂, d, h, hk₂, hk₂', hx₂⟩ := appendString_bind hk₁' h
    obtain ⟨k₃, n, h, hk₃, hk₃', -⟩ := appendString_bind hk₂' h
    obtain ⟨f, hf, h⟩ := bind_eq_ok.1 h
    cases h
    obtain ⟨hc, hd, ⟨s, hs, hcur⟩, hn⟩ := create_bufStrs hf
    dsimp only at hk₂ hx₂ hk₃
    refine .addItem (by omega) hk₃' fun hk => ?_
    obtain ⟨x, hx, rfl, rfl⟩ := hx₁ (by omega)
    obtain ⟨y, hy, rfl, rfl⟩ := hx₂ (by omega)
    cases hy
    cases hs
    refine ⟨?_, hw, by rw [hx, hc]; rfl, hd, ⟨_, hcur⟩, hn⟩
    simp only [MenuItem.bytes_files, hc, hd, BufStr.bytes_copy]
    omega

/-- **One line.** `ParseMenuLine` on a line of the file: comments, lines it cannot read
and unknown commands add nothing; the others are `addLineItem_lineStep`. -/
theorem parseMenuLine_lineStep {env : MenuEnv} {m m' : Menu} {l : CStr} {err : Option CStr}
    (hm : m.commandBufferIndex ≤ commandBufferSize)
    (h : m.parseMenuLine env (skipWhitespace l) = .ok (m', err)) :
    LineStep (CopiedFrom l) m m' := by
  unfold parseMenuLine at h
  split at h
  · cases h; exact .refl hm
  · split at h
    · cases h; exact .refl hm
    · rename_i word args hw
      split at h
      · cases h; exact .refl hm
      · rename_i a hp
        exact (addLineItem_lineStep hm h).mono fun item hc => ⟨word, args, a, hw, hp, hc⟩

/-! ## The line loop -/

/-- The command buffer between two lines of the menu file `file`: the index is below the
end, the items' strings lie before it, and each item copies the arguments of a line of
the file. -/
structure BufferInv (file : List CStr) (m : Menu) : Prop where
  index_lt : m.commandBufferIndex < commandBufferSize
  bytes_le : m.itemBytes ≤ m.commandBufferIndex
  copied : ∀ item ∈ m.items, ∃ l ∈ file, CopiedFrom l item

/-- A line of the file that leaves the index below the end keeps the invariant. -/
theorem BufferInv.lineStep {file : List CStr} {l : CStr} {m m' : Menu} (hl : l ∈ file)
    (hi : BufferInv file m) (hs : LineStep (CopiedFrom l) m m')
    (hlt : m'.commandBufferIndex < commandBufferSize) : BufferInv file m' := by
  obtain ⟨hb, hc⟩ := hs.below_end hlt
  refine ⟨hlt, by have := hi.bytes_le; omega, fun item hitem => ?_⟩
  rcases hc item hitem with hold | hnew
  · exact hi.copied item hold
  · exact ⟨l, hl, hnew⟩

/-- `LoadError` deletes every item, keeps the index, and shows one error. -/
theorem loadError_clears {m m' : Menu} {msg : CStr} {line : Nat}
    (h : m.loadError msg line = .ok m') :
    m'.items = [] ∧ m'.numSelectableItems = 0 ∧
      m'.commandBufferIndex = m.commandBufferIndex ∧
      ∃ fname, m'.effects = m.effects ++ [.loadError fname msg line] := by
  simp only [loadError, bind_eq_ok] at h
  obtain ⟨fname, -, h⟩ := h
  cases h
  exact ⟨rfl, rfl, rfl, fname, rfl⟩

/-- **The line loop of `Reload`.** Over lines `ls` of the file `file`, from a state of
`BufferInv`: the index stays in the buffer, and either no line showed an error and
`BufferInv` holds at the end, or `LoadError` was shown once and deleted every item. -/
theorem parseLines_buffer {env : MenuEnv} {file : List CStr} :
    ∀ {ls : List CStr} {m m' : Menu} {line : Nat}, (∀ l ∈ ls, l ∈ file) →
      BufferInv file m → parseLines env m line ls = .ok m' →
      m'.commandBufferIndex ≤ commandBufferSize ∧
        (m'.effects = m.effects ∧ BufferInv file m' ∨
          (∃ fname msg n, m'.effects = m.effects ++ [.loadError fname msg n]) ∧
            m'.items = [] ∧ m'.numSelectableItems = 0)
  | [], _, _, _, _, hi, h => by
    cases h
    exact ⟨Nat.le_of_lt hi.index_lt, .inl ⟨rfl, hi⟩⟩
  | l :: ls, m, m', line, hls, hi, h => by
    simp only [parseLines, bind_eq_ok, Prod.exists] at h
    obtain ⟨m₁, err, h₁, h⟩ := h
    have hs := parseMenuLine_lineStep (Nat.le_of_lt hi.index_lt) h₁
    have shown : ∀ msg n, m₁.loadError msg n = .ok m' → m'.commandBufferIndex ≤ commandBufferSize ∧
        ((∃ fname msg n, m'.effects = m.effects ++ [.loadError fname msg n]) ∧
          m'.items = [] ∧ m'.numSelectableItems = 0) := fun msg n he => by
      obtain ⟨hitems, hnum, hidx, fname, heff⟩ := loadError_clears he
      exact ⟨hidx ▸ hs.index_le, ⟨fname, msg, n, by rw [heff, hs.effects]⟩, hitems, hnum⟩
    split at h
    · exact (shown _ _ h).imp_right .inr
    · split_ifs at h with hfull
      · exact (shown _ _ h).imp_right .inr
      · have hi₁ := hi.lineStep (hls l (List.mem_cons_self _ _)) hs
          (Nat.lt_of_le_of_ne hs.index_le hfull)
        obtain ⟨hle, hrest⟩ := parseLines_buffer (fun l' h' => hls l' (List.mem_cons_of_mem _ h'))
          hi₁ h
        exact ⟨hle, hs.effects ▸ hrest⟩

/-! ## `Reload` -/

/-- **The command buffer across `Reload`.** From an index in the buffer, `Reload` leaves
the index in the buffer, and either it showed no error, and every item copies exactly
the arguments of a line of the menu file into the buffer below the index
(`BufferInv`), or it showed one error with `LoadError` and left no item to draw or
select. A full buffer is shown as an error: the first case has the index below the
end. -/
theorem reload_commandBuffer {env : MenuEnv} {m m' : Menu}
    (hm : m.commandBufferIndex ≤ commandBufferSize) (h : m.reload env = .ok m') :
    m'.commandBufferIndex ≤ commandBufferSize ∧
      (m'.effects = m.effects ∧ (∃ fname file, m.currentFilename = .ok fname ∧
          env.menuFile fname = some file ∧ BufferInv file m') ∨
        (∃ fname msg n, m'.effects = m.effects ++ [.loadError fname msg n]) ∧
          m'.items = [] ∧ m'.numSelectableItems = 0) := by
  simp only [reload, bind_eq_ok] at h
  obtain ⟨fname, hf, h⟩ := h
  split at h
  · obtain ⟨hitems, hnum, hidx, f, heff⟩ := loadError_clears h
    exact ⟨hidx ▸ hm, .inr ⟨⟨f, _, 0, heff⟩, hitems, hnum⟩⟩
  · rename_i file hfile
    have hi₀ : BufferInv file { m.resetCache with commandBufferIndex := 0 } :=
      ⟨show 0 < commandBufferSize by decide, Nat.le_refl 0, fun _ h => nomatch h⟩
    obtain ⟨hle, hout⟩ := parseLines_buffer (fun _ h => h) hi₀ h
    exact ⟨hle, hout.imp_left fun ⟨he, hb⟩ => ⟨he, fname, file, hf, hfile, hb⟩⟩

/-! ## Every run

Only `AppendString` and `Reload` write the index; every other call of the menu either
changes other fields or goes through `Load`, `Pop` and so `Reload`. -/

theorem load_index_le {env : MenuEnv} {m m' : Menu} {f : CStr}
    (hm : m.commandBufferIndex ≤ commandBufferSize) (h : m.load env f = .ok m') :
    m'.commandBufferIndex ≤ commandBufferSize := by
  unfold load at h
  split at h
  · exact (reload_commandBuffer (by exact hm) h).1
  · cases h
    exact hm

theorem executeHelper_index_le {env : MenuEnv} {m m' : Menu} {cmd : CStr}
    (hm : m.commandBufferIndex ≤ commandBufferSize) (h : m.executeHelper env cmd = .ok m') :
    m'.commandBufferIndex ≤ commandBufferSize := by
  unfold executeHelper at h
  split_ifs at h
  · cases h
    exact hm
  · exact (reload_commandBuffer (by exact hm) h).1
  · exact load_index_le hm h

theorem executeFields_index_le {env : MenuEnv} :
    ∀ {n : Nat} {m m' : Menu} {cmd : CStr}, m.commandBufferIndex ≤ commandBufferSize →
      executeFields env n m cmd = .ok m' → m'.commandBufferIndex ≤ commandBufferSize
  | 0, _, _, _, hm, h => executeHelper_index_le hm h
  | n + 1, m, m', cmd, hm, h => by
    rw [executeFields.eq_2] at h
    split_ifs at h
    · exact executeHelper_index_le hm h
    · obtain ⟨m₁, h₁, h⟩ := bind_eq_ok.1 h
      exact executeFields_index_le (executeHelper_index_le hm h₁) h

theorem enterItemHelper_index_le {env : MenuEnv} {m m' : Menu}
    (hm : m.commandBufferIndex ≤ commandBufferSize) (h : m.enterItemHelper env = .ok m') :
    m'.commandBufferIndex ≤ commandBufferSize := by
  unfold enterItemHelper at h
  split at h
  · cases h
    exact hm
  · obtain ⟨⟨item, cmd⟩, -, h⟩ := bind_eq_ok.1 h
    dsimp only at h
    split at h
    · obtain ⟨c, -, h⟩ := bind_eq_ok.1 h
      split_ifs at h
      exact executeFields_index_le (by exact hm) h
    · split_ifs at h <;> cases h <;> exact hm

theorem exitItemHelper_commandBufferIndex (m : Menu) (a : Int) :
    (m.exitItemHelper a).commandBufferIndex = m.commandBufferIndex := by
  unfold exitItemHelper
  split
  next item _ =>
    generalize item.adjust a = r
    obtain ⟨item', done, effect⟩ := r
    dsimp only
    split_ifs <;> rfl
  · rfl

theorem adjustItemHelper_commandBufferIndex {m m' : Menu} {a : Int}
    (h : m.adjustItemHelper a = .ok m') : m'.commandBufferIndex = m.commandBufferIndex := by
  unfold adjustItemHelper at h
  split at h
  next item _ =>
    generalize item.advance a = p at h
    obtain ⟨item', r⟩ := p
    dsimp only at h
    split_ifs at h
    · cases h
      rfl
    · obtain ⟨k, -, h⟩ := bind_eq_ok.1 h
      obtain ⟨k', -, h⟩ := bind_eq_ok.1 h
      split at h
      · cases h
        rfl
      · cases h
  · cases h

theorem encoderAction_index_le {env : MenuEnv} {m m' : Menu} {a : Int} {now : UInt32}
    (hm : m.commandBufferIndex ≤ commandBufferSize) (h : m.encoderAction env a now = .ok m') :
    m'.commandBufferIndex ≤ commandBufferSize := by
  unfold encoderAction at h
  obtain ⟨m₁, h₁, h⟩ := bind_eq_ok.1 h
  cases h
  show m₁.commandBufferIndex ≤ commandBufferSize
  split_ifs at h₁
  · cases h₁
    exact hm
  · cases h₁
    rw [exitItemHelper_commandBufferIndex]
    exact hm
  · rw [adjustItemHelper_commandBufferIndex h₁]
    exact hm
  · exact enterItemHelper_index_le hm h₁

theorem refresh_index_le {env : MenuEnv} {m m' : Menu} {now : UInt32}
    (hm : m.commandBufferIndex ≤ commandBufferSize) (h : m.refresh env now = .ok m') :
    m'.commandBufferIndex ≤ commandBufferSize := by
  unfold refresh at h
  split_ifs at h
  · obtain ⟨m₁, h₁, h⟩ := bind_eq_ok.1 h
    cases h
    exact (load_index_le (by exact hm) h₁ : m₁.commandBufferIndex ≤ commandBufferSize)
  · cases h
    exact hm

/-- **The index over every run.** In every reachable state of the menu the index of the
command buffer is in the buffer, so `reload_commandBuffer` holds of every `Reload`. -/
theorem reachable_commandBufferIndex_le {m : Menu} (h : MenuReachable m) :
    m.commandBufferIndex ≤ commandBufferSize := by
  induction h with
  | start _ _ h => exact load_index_le (Nat.zero_le _) h
  | step env e _ hs ih =>
    cases e with
    | load f => exact load_index_le ih hs
    | pop => exact (reload_commandBuffer (by exact ih) hs).1
    | reload => exact (reload_commandBuffer ih hs).1
    | encoderAction a now => exact encoderAction_index_le ih hs
    | refresh now => exact refresh_index_le ih hs

/-! ## A file list after a full buffer -/

/-- The menu line `text T"t"`. -/
def textLine (t : CStr) : CStr := "text T\"".toList ++ t ++ [quoteChar]

/-- A line `text T"t"` whose text has no quote and fits the buffer adds a text item with
a copy of `t`. -/
theorem parseMenuLine_textLine (env : MenuEnv) (m : Menu) {t : CStr} (ht : quoteChar ∉ t)
    (hfit : m.commandBufferIndex + t.length + 1 < commandBufferSize) :
    m.parseMenuLine env (skipWhitespace (textLine t)) =
      .ok ({ m with commandBufferIndex := m.commandBufferIndex + t.length + 1 }.addItem
        (.text (.copy t)) false, none) := by
  have hq : ∀ c ∈ t, (c != quoteChar) = true := fun c hc => by
    simpa using fun h : c = quoteChar => ht (h ▸ hc)
  have hp : parseArgs ('T' :: quoteChar :: (t ++ [quoteChar])).length LineArgs.initial
      ('T' :: quoteChar :: (t ++ [quoteChar])) = .ok { LineArgs.initial with text := t } := by
    show parseArgs ((t ++ [quoteChar]).length + 1) (LineArgs.initial.setString 'T'
      ((t ++ [quoteChar]).takeWhile (· != quoteChar)))
      (((t ++ [quoteChar]).dropWhile (· != quoteChar)).drop 1) = _
    rw [List.takeWhile_append_of_pos hq, List.dropWhile_append_of_pos hq,
      show [quoteChar].takeWhile (· != quoteChar) = [] from rfl, List.append_nil]
    rfl
  have hw : splitCommandWord ("text ".toList ++ 'T' :: quoteChar :: (t ++ [quoteChar])) =
      some ("text".toList, 'T' :: quoteChar :: (t ++ [quoteChar])) := rfl
  have hhead : ("text ".toList ++ 'T' :: quoteChar :: (t ++ [quoteChar])).head? ≠ some ';' := by
    rw [show ("text ".toList ++ 'T' :: quoteChar :: (t ++ [quoteChar])).head? = some 't' from rfl]
    decide
  rw [show skipWhitespace (textLine t) = "text ".toList ++ 'T' :: quoteChar :: (t ++ [quoteChar])
    from rfl, parseMenuLine_of_args env m hw hhead hp, addLineItem, if_pos (by decide)]
  simp only [appendString_some_of_lt m hfit, bind, Except.bind]

/-- The line loop over a line `text T"t"` that leaves the buffer below full reads on. -/
theorem parseLines_textLine (env : MenuEnv) (m : Menu) (line : Nat) {t : CStr}
    (ht : quoteChar ∉ t) (hfit : m.commandBufferIndex + t.length + 1 < commandBufferSize)
    (rest : List CStr) :
    parseLines env m line (textLine t :: rest) =
      parseLines env ({ m with commandBufferIndex := m.commandBufferIndex + t.length + 1 }.addItem
        (.text (.copy t)) false) (line + 1) rest := by
  rw [parseLines, parseMenuLine_textLine env m ht hfit]
  dsimp only [bind, Except.bind]
  rw [if_neg (by rw [addItem_commandBufferIndex]; exact Nat.ne_of_lt hfit)]

/-- The line loop reads on past the lines `pre` when they showed no error. -/
theorem parseLines_append {env : MenuEnv} (rest : List CStr) :
    ∀ {pre : List CStr} {m m₁ : Menu} {line : Nat}, m.commandBufferIndex ≤ commandBufferSize →
      parseLines env m line pre = .ok m₁ → m₁.effects = m.effects →
      parseLines env m line (pre ++ rest) = parseLines env m₁ (line + pre.length) rest
  | [], _, _, _, _, h, _ => by cases h; rfl
  | l :: ls, m, m₁, line, hm, h, he => by
    simp only [parseLines, bind_eq_ok, Prod.exists] at h
    obtain ⟨m₂, err, h₂, h⟩ := h
    have hs := parseMenuLine_lineStep hm h₂
    have quiet : ∀ msg n, m₂.loadError msg n ≠ .ok m₁ := fun msg n hl => by
      obtain ⟨-, -, -, f, heff⟩ := loadError_clears hl
      have := congrArg List.length (heff.symm.trans (he.trans hs.effects.symm))
      simp at this
    rw [List.cons_append]
    simp only [parseLines, h₂, bind, Except.bind]
    cases err with
    | some msg => exact absurd h (quiet _ _)
    | none =>
      dsimp only at h ⊢
      split_ifs at h ⊢ with hfull
      · exact absurd h (quiet _ _)
      · rw [parseLines_append rest hs.index_le h (he.trans hs.effects.symm), List.length_cons,
          Nat.add_right_comm, Nat.add_assoc]

/-- `FilesMenuItem`'s constructor reads the directory string it is given. -/
theorem create_pastEnd (listing : CStr → List FileInfo) (mfl : Nat) (c : BufStr) (nf : UInt32) :
    FilesItem.create listing mfl c .pastEnd nf = .error .pastBuffer := rfl

/-- A `files` line whose action string fills the command buffer: the directory string is
the pointer one past the buffer, and `FilesMenuItem`'s constructor reads it. -/
theorem parseMenuLine_files_past_end (env : MenuEnv) {m : Menu} {args s : CStr} {a : LineArgs}
    (hp : parseArgs args.length LineArgs.initial args = .ok a) (ha : a.action = some s)
    (hlt : m.commandBufferIndex < commandBufferSize)
    (hfull : commandBufferSize ≤ m.commandBufferIndex + s.length + 1) :
    m.parseMenuLine env ("files ".toList ++ args) = .error .pastBuffer := by
  have hhead : ("files ".toList ++ args).head? ≠ some ';' := by
    rw [show ("files ".toList ++ args).head? = some 'f' from rfl]; decide
  obtain ⟨c, hc⟩ := appendString_fills hlt hfull
  rw [@parseMenuLine_of_args env m ("files ".toList ++ args) "files".toList args a rfl hhead hp,
    addLineItem, if_neg (by decide), if_neg (by decide), if_neg (by decide), if_neg (by decide),
    if_neg (by decide), if_pos (by decide), ha]
  have hend : ∀ t, ({ m with commandBufferIndex := commandBufferSize } : Menu).appendString t =
      .ok ({ m with commandBufferIndex := commandBufferSize }, .pastEnd) :=
    fun t => appendString_of_end t (Nat.le_refl _)
  simp only [hc, hend, bind, Except.bind, create_pastEnd]

/-- **A file list after a full buffer reads past it.** For every menu file whose lines
before a `files` line show no error, if that line's action string fills the command
buffer, `Reload` does not get to its buffer check: `FilesMenuItem`'s constructor reads
the directory from the pointer one past the buffer first. -/
theorem reload_files_line_reads_past_end {env : MenuEnv} {m m₁ : Menu} {fname args s : CStr}
    {pre post : List CStr} {a : LineArgs} (hf : m.currentFilename = .ok fname)
    (hfile : env.menuFile fname = some (pre ++ ("files ".toList ++ args) :: post))
    (hpre : parseLines env { m.resetCache with commandBufferIndex := 0 } 1 pre = .ok m₁)
    (hquiet : m₁.effects = m.effects)
    (hp : parseArgs args.length LineArgs.initial args = .ok a) (ha : a.action = some s)
    (hfull : commandBufferSize ≤ m₁.commandBufferIndex + s.length + 1) :
    m.reload env = .error .pastBuffer := by
  have hi₀ : BufferInv pre { m.resetCache with commandBufferIndex := 0 } :=
    ⟨show 0 < commandBufferSize by decide, Nat.le_refl 0, fun _ h => nomatch h⟩
  have hlt : m₁.commandBufferIndex < commandBufferSize := by
    obtain ⟨-, ⟨-, hb⟩ | ⟨⟨f, msg, n, he⟩, -⟩⟩ := parseLines_buffer (fun _ h => h) hi₀ hpre
    · exact hb.index_lt
    · have := congrArg List.length (he.symm.trans hquiet)
      simp [resetCache] at this
  have hf' : m.resetCache.currentFilename = .ok fname := hf
  unfold reload
  dsimp only
  rw [hf']
  dsimp only [bind, Except.bind]
  rw [hfile]
  dsimp only at hpre ⊢
  rw [parseLines_append _ (Nat.zero_le _) hpre hquiet, parseLines,
    show skipWhitespace ("files ".toList ++ args) = "files ".toList ++ args from rfl,
    parseMenuLine_files_past_end env hp ha hlt hfull]
  rfl

/-- A menu file whose last line finds the command buffer all but full: seven text lines
of 71 characters and one of 5 take 510 bytes with their NULs, and the action string of
the file list, `M32 #0`, needs 7 more. Every line fits the 80 characters `Reload` reads a
line into. -/
def fullBufferMenu : List CStr :=
  List.replicate 7 (textLine (List.replicate 71 'x')) ++ [textLine "Files".toList] ++
    ["files ".toList ++ "A\"M32 #0\" I\"/gcodes\" N5".toList]

/-- The file `fullBufferMenu` as `main`, read by the first `Reload`: the eight text lines
show no error and leave 2 bytes of the buffer, the action string is cut to `M` and fills
it, and the file list's constructor reads the directory past the buffer. -/
theorem full_buffer_menu_reads_past_end :
    let env := mainMenuEnv fullBufferMenu
    let m : Menu := { Menu.init 0 with filenames := fun _ => "main".toList, numNestedMenus := 1 }
    let pre := List.replicate 7 (textLine (List.replicate 71 'x')) ++ [textLine "Files".toList]
    let args := "A\"M32 #0\" I\"/gcodes\" N5".toList
    (∃ m₁ a, m.currentFilename = .ok "main".toList ∧
      env.menuFile "main".toList = some (pre ++ ("files ".toList ++ args) :: []) ∧
      parseLines env { m.resetCache with commandBufferIndex := 0 } 1 pre = .ok m₁ ∧
      m₁.effects = m.effects ∧ parseArgs args.length LineArgs.initial args = .ok a ∧
      a.action = some "M32 #0".toList ∧
      commandBufferSize ≤ m₁.commandBufferIndex + "M32 #0".toList.length + 1) ∧
    m.reload env = .error .pastBuffer := by
  dsimp only
  have hx : quoteChar ∉ List.replicate 71 'x' := by simp [List.mem_replicate, quoteChar]
  have hf : quoteChar ∉ "Files".toList := by decide
  exact (fun h => ⟨h, h.elim fun _ ⟨_, h₁, h₂, h₃, h₄, h₅, h₆, h₇⟩ =>
      reload_files_line_reads_past_end h₁ h₂ h₃ h₄ h₅ h₆ h₇⟩)
    ⟨_, _, by rfl, by rfl, by
      simp only [List.replicate, List.cons_append, List.nil_append,
        parseLines_textLine _ _ _ hx, parseLines_textLine _ _ _ hf, addItem_commandBufferIndex,
        List.length_replicate, commandBufferSize]
      rfl, by rfl, by rfl, by rfl, by decide⟩

end Menu

end Display
