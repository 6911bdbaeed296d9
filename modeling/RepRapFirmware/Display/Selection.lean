import RepRapFirmware.Display.CurrentFile

/-!
# Adjustment mode

A push on an `alter` line's value item puts the menu in adjustment mode:
`ValueMenuItem::Select` sets the item's `adjusting` and returns a null command, and
`EncoderAction_EnterItemHelper` sets `itemIsSelected` when the item `CanAdjust`. Every
later encoder action goes to the item's `Adjust`, until a push ends the adjustment:
`Adjust_SelectHelper` writes the value and clears `adjusting`, and
`EncoderAction_ExitItemHelper` clears `itemIsSelected`. While a value item is not
adjusting, `ValueMenuItem::Draw` shows the printer's current value.

`Reload` builds fresh items, none of them adjusting (`reload_fresh`), but keeps
`itemIsSelected`: a `Load`, `Pop` or `Reload` while an item is selected, or the timeout of
`Refresh`, leaves the menu in adjustment mode with no item being adjusted. The runs of
`QuietSelectionReachable` are those in which none of these comes while an item is
selected, and `CanAdjust` (which src/ does not define) holds exactly of value items.

**What is proved** (`quiet_selection_exact`). In every state of such a run, an item is
selected exactly when the highlighted item is a value item being adjusted; no other
selectable item and no unselectable item is adjusting, so every value item the user has
not selected shows the printer's value.
-/

set_option autoImplicit false

namespace Display

namespace MenuItem

/-- A value item whose `adjusting` is set. -/
def isAdjusting : MenuItem → Bool
  | .value v => v.adjusting
  | _ => false

variable {listing : CStr → List FileInfo} {n : Nat}

/-- What `Select` leaves adjusting is a value item, and it returns no command for it. -/
theorem select_isAdjusting {item item' : MenuItem} {cmd : Option BufStr}
    (h : item.select listing n = .ok (item', cmd)) :
    item'.isAdjusting = true ↔ cmd = none ∧ ∃ v, item' = .value v := by
  have not_value : ∀ {x : MenuItem}, (∀ v, x ≠ .value v) → x.isAdjusting = false →
      (x.isAdjusting = true ↔ cmd = none ∧ ∃ v, x = .value v) := fun hx hf =>
    iff_of_false (hf ▸ Bool.false_ne_true) fun ⟨_, v, h⟩ => hx v h
  cases item with
  | text t => cases h; exact not_value (fun _ => MenuItem.noConfusion) rfl
  | button b =>
    obtain ⟨_, -, h⟩ := bind_eq_ok.1 h
    cases h
    exact not_value (fun _ => MenuItem.noConfusion) rfl
  | value v => cases h; exact iff_of_true rfl ⟨rfl, _, rfl⟩
  | files f =>
    obtain ⟨_, -, h⟩ := bind_eq_ok.1 h
    cases h
    exact not_value (fun _ => MenuItem.noConfusion) rfl

theorem isAdjusting_advance (item : MenuItem) (a : Int) :
    (item.advance a).1.isAdjusting = item.isAdjusting := by
  cases item <;> rfl

theorem isAdjusting_enter (item : MenuItem) (b : Bool) :
    (item.enter b).isAdjusting = item.isAdjusting := by
  cases item <;> rfl

end MenuItem

namespace Menu

/-! ## Fresh items -/

/-- No item of the menu is adjusting. -/
def Fresh (m : Menu) : Prop := ∀ item ∈ m.items, item.isAdjusting = false

variable {env : MenuEnv} {m m' : Menu}

theorem appendString_items {s : Option CStr} {p : BufStr} (h : m.appendString s = .ok (m', p)) :
    m'.items = m.items := by
  unfold appendString at h
  split at h
  · split at h <;> cases h
    rfl
  · cases h
    rfl

theorem Fresh.addItem (hm : Fresh m) {item : MenuItem} (hx : item.isAdjusting = false)
    (sel : Bool) : Fresh (m.addItem item sel) := fun i hi =>
  (mem_items_addItem.1 hi).elim (hm i) fun h => h ▸ hx

theorem Fresh.of_loadError {msg : CStr} {line : Nat} (h : m.loadError msg line = .ok m') :
    Fresh m' := fun _ hi => absurd ((loadError_clears h).1 ▸ hi) (List.not_mem_nil _)

/-- The item builder of a line adds only fresh items. -/
theorem addLineItem_fresh {word : CStr} {a : LineArgs} {err : Option CStr} (hm : Fresh m)
    (h : m.addLineItem env word a = .ok (m', err)) : Fresh m' := by
  have append : ∀ {m₁ m₂ : Menu} {s p}, Fresh m₁ → m₁.appendString s = .ok (m₂, p) →
      Fresh m₂ := fun h₁ h => fun i hi => h₁ i (appendString_items h ▸ hi)
  have ite : ∀ {p : Prop} [Decidable p] {x y : Except MenuFault (Menu × Option CStr)},
      (x = .ok (m', err) → Fresh m') → (y = .ok (m', err) → Fresh m') →
      (if p then x else y) = .ok (m', err) → Fresh m' := fun hx hy h => by
    split at h
    exacts [hx h, hy h]
  have keep : ∀ {m₁ : Menu} {c : Option CStr}, Fresh m₁ →
      (.ok (m₁, c) : Except MenuFault (Menu × Option CStr)) = .ok (m', err) → Fresh m' :=
    fun h₁ h => by cases h; exact h₁
  unfold addLineItem at h
  refine ite (fun h => ?text) (ite (keep hm) (ite (ite (fun h => ?button) (keep hm))
    (ite (keep (hm.addItem (by rfl) _)) (ite (keep (hm.addItem (by rfl) _))
      (ite (fun h => ?files) (keep hm)))))) h
  case text =>
    obtain ⟨_, h₁, h⟩ := bind_eq_ok.1 h
    exact keep ((append hm h₁).addItem (by rfl) _) h
  case button =>
    obtain ⟨_, h₁, h⟩ := bind_eq_ok.1 h
    obtain ⟨_, h₂, h⟩ := bind_eq_ok.1 h
    obtain ⟨_, h₃, h⟩ := bind_eq_ok.1 h
    exact keep ((append (append (append hm h₁) h₂) h₃).addItem (by rfl) _) h
  case files =>
    obtain ⟨_, h₁, h⟩ := bind_eq_ok.1 h
    obtain ⟨_, h₂, h⟩ := bind_eq_ok.1 h
    obtain ⟨_, h₃, h⟩ := bind_eq_ok.1 h
    obtain ⟨_, -, h⟩ := bind_eq_ok.1 h
    exact keep ((append (append (append hm h₁) h₂) h₃).addItem (by rfl) _) h

theorem parseMenuLine_fresh {line : CStr} {err : Option CStr} (hm : Fresh m)
    (h : m.parseMenuLine env line = .ok (m', err)) : Fresh m' := by
  unfold parseMenuLine at h
  repeat' split at h
  all_goals first
    | exact addLineItem_fresh hm h
    | (cases h; exact hm)

theorem parseLines_fresh {lines : List CStr} :
    ∀ {m m' : Menu} {line : Nat}, Fresh m → parseLines env m line lines = .ok m' →
      Fresh m' := by
  induction lines with
  | nil => intro m m' _ hm h; cases h; exact hm
  | cons l ls ih =>
    intro m m' line hm h
    simp only [parseLines, bind_eq_ok, Prod.exists] at h
    obtain ⟨m₁, err, h₁, h⟩ := h
    have hm₁ := parseMenuLine_fresh hm h₁
    split at h
    · exact .of_loadError h
    · split at h
      · exact .of_loadError h
      · exact ih hm₁ h

/-- **`Reload`** builds fresh items. -/
theorem reload_fresh (h : m.reload env = .ok m') : Fresh m' := by
  unfold reload at h
  obtain ⟨_, -, h⟩ := bind_eq_ok.1 h
  split at h
  · exact .of_loadError h
  · exact parseLines_fresh (fun _ h => absurd h (List.not_mem_nil _)) h

/-! ## The navigation state -/

/-- Navigation: no item is selected and none is adjusting. -/
structure Idle (m : Menu) : Prop where
  not_selected : m.itemIsSelected = false
  fresh : Fresh m

theorem reload_idle (hsel : m.itemIsSelected = false) (h : m.reload env = .ok m') : Idle m' :=
  ⟨(reload_itemIsSelected h).trans hsel, reload_fresh h⟩

theorem load_idle {f : CStr} (hi : Idle m) (h : m.load env f = .ok m') : Idle m' := by
  unfold load at h
  split at h
  · exact reload_idle (by exact hi.1) h
  · cases h; exact hi

theorem pop_idle (hsel : m.itemIsSelected = false) (h : m.pop env = .ok m') : Idle m' := by
  unfold pop at h
  exact reload_idle (by exact hsel) h

theorem executeHelper_idle {cmd : CStr} (hi : Idle m) (h : m.executeHelper env cmd = .ok m') :
    Idle m' := by
  unfold executeHelper at h
  split_ifs at h
  · cases h; exact ⟨hi.1, hi.2⟩
  · exact pop_idle hi.1 h
  · exact load_idle hi h

theorem executeFields_idle :
    ∀ {n : Nat} {m m' : Menu} {cmd : CStr}, Idle m → executeFields env n m cmd = .ok m' →
      Idle m'
  | 0, _, _, _, hi, h => executeHelper_idle hi h
  | n + 1, m, m', cmd, hi, h => by
    rw [executeFields.eq_2] at h
    split_ifs at h
    · exact executeHelper_idle hi h
    · obtain ⟨m₁, h₁, h⟩ := bind_eq_ok.1 h
      exact executeFields_idle (executeHelper_idle hi h₁) h

theorem Idle.setHighlightedItem (hi : Idle m) {x : MenuItem} (hx : x.isAdjusting = false) :
    Idle (m.setHighlightedItem x) := by
  refine ⟨hi.1, fun item h => ?_⟩
  rcases List.mem_append.1 h with h | h
  · rcases List.mem_or_eq_of_mem_set h with h | rfl
    · exact hi.2 item (List.mem_append_left _ h)
    · exact hx
  · exact hi.2 item (List.mem_append_right _ h)

/-! ## The invariant -/

/-- Adjustment mode is exact: an item is selected only when there is a highlighted item;
a selectable item is adjusting exactly when an item is selected and it is the highlighted
one; no unselectable item is adjusting. -/
structure SelectionInv (m : Menu) : Prop where
  selected : m.itemIsSelected = true → m.findHighlightedItem.isSome
  adjusting : ∀ i item, m.selectableItems.get? i = some item →
    (item.isAdjusting = true ↔ m.itemIsSelected = true ∧ i = m.highlightedItem.toNat)
  unselectable : ∀ item ∈ m.unSelectableItems, item.isAdjusting = false

theorem Idle.selectionInv (hi : Idle m) : SelectionInv m := by
  refine ⟨fun h => absurd (hi.1 ▸ h) Bool.false_ne_true, fun i item h => ?_,
    fun item h => hi.2 item (List.mem_append_right _ h)⟩
  rw [hi.2 item (List.mem_append_left _ (List.get?_mem h)), hi.1]
  exact iff_of_false Bool.false_ne_true fun h => Bool.false_ne_true h.1

theorem SelectionInv.idle (hs : SelectionInv m) (hsel : m.itemIsSelected = false) : Idle m := by
  refine ⟨hsel, fun item h => ?_⟩
  rcases List.mem_append.1 h with h | h
  · obtain ⟨i, hi⟩ := List.mem_iff_get?.1 h
    exact Bool.eq_false_iff.2 fun ha => absurd (hsel ▸ ((hs.adjusting i item hi).1 ha).1)
      Bool.false_ne_true
  · exact hs.unselectable item h

theorem get?_setHighlightedItem_ne (x : MenuItem) {i : Nat} (hi : i ≠ m.highlightedItem.toNat) :
    (m.setHighlightedItem x).selectableItems.get? i = m.selectableItems.get? i := by
  show (m.selectableItems.set _ x).get? i = _
  rw [List.get?_eq_getElem?, List.get?_eq_getElem?]
  exact List.getElem?_set_ne (Ne.symm hi)

theorem findHighlightedItem_set {item x : MenuItem} (hf : m.findHighlightedItem = some item) :
    (m.setHighlightedItem x).findHighlightedItem = some x := by
  show (m.selectableItems.set m.highlightedItem.toNat x).get? m.highlightedItem.toNat = some x
  rw [List.get?_eq_getElem?, List.getElem?_set_self (List.get?_eq_some.1 hf).1]

/-- Changing the item at the highlight: the other positions keep their items. -/
theorem get?_setHighlightedItem {item x y : MenuItem} {i : Nat}
    (hf : m.findHighlightedItem = some item)
    (h : (m.setHighlightedItem x).selectableItems.get? i = some y) :
    i = m.highlightedItem.toNat ∧ y = x ∨ i ≠ m.highlightedItem.toNat ∧
      m.selectableItems.get? i = some y := by
  by_cases hi : i = m.highlightedItem.toNat
  · subst hi
    have hx : (m.setHighlightedItem x).findHighlightedItem = some x := findHighlightedItem_set hf
    exact .inl ⟨rfl, Option.some.inj (h.symm.trans hx)⟩
  · exact .inr ⟨hi, (get?_setHighlightedItem_ne x hi).symm.trans h⟩

/-- A push that starts the adjustment of the highlighted item. -/
theorem Idle.selectAt (hi : Idle m) {item x : MenuItem} (hf : m.findHighlightedItem = some item)
    (hx : x.isAdjusting = true) :
    SelectionInv { m.setHighlightedItem x with itemIsSelected := true } := by
  refine ⟨fun _ => Option.isSome_iff_exists.2 ⟨x, findHighlightedItem_set hf⟩,
    fun i y h => ?_, hi.selectionInv.unselectable⟩
  rcases get?_setHighlightedItem hf h with ⟨rfl, rfl⟩ | ⟨hne, h⟩
  · exact iff_of_true hx ⟨rfl, rfl⟩
  · rw [hi.2 y (List.mem_append_left _ (List.get?_mem h))]
    exact iff_of_false Bool.false_ne_true fun h => hne h.2

/-- A change at the highlight that keeps whether the item is adjusting. -/
theorem SelectionInv.setHighlightedItem (hs : SelectionInv m) {item x : MenuItem}
    (hf : m.findHighlightedItem = some item) (hx : x.isAdjusting = item.isAdjusting) :
    SelectionInv (m.setHighlightedItem x) := by
  refine ⟨fun _ => Option.isSome_iff_exists.2 ⟨x, findHighlightedItem_set hf⟩,
    fun i y h => ?_, hs.unselectable⟩
  rcases get?_setHighlightedItem hf h with ⟨rfl, rfl⟩ | ⟨-, h⟩
  · exact hx ▸ hs.adjusting _ item hf
  · exact hs.adjusting i y h

/-- The end of an adjustment: the item at the highlight stops adjusting, and then none does. -/
theorem SelectionInv.fresh_setHighlightedItem (hs : SelectionInv m) {item x : MenuItem}
    (hf : m.findHighlightedItem = some item) (hx : x.isAdjusting = false) :
    Fresh (m.setHighlightedItem x) := by
  intro y h
  rcases List.mem_append.1 h with h | h
  · obtain ⟨i, h⟩ := List.mem_iff_get?.1 h
    rcases get?_setHighlightedItem hf h with ⟨-, rfl⟩ | ⟨hne, h⟩
    · exact hx
    · exact Bool.eq_false_iff.2 fun ha => hne ((hs.adjusting i y h).1 ha).2
  · exact hs.unselectable y h

/-! ## The encoder -/

/-- `CanAdjust` holds exactly of value items. -/
def AdjustsValues (env : MenuEnv) : Prop :=
  ∀ item, env.canAdjust item = true ↔ ∃ v, item = .value v

/-- **A push in navigation.** The highlighted item's `Select` either runs a command, which
keeps the navigation state, or, for a value item, starts its adjustment. -/
theorem enterItemHelper_selectionInv (hc : AdjustsValues env) (hi : Idle m)
    (h : m.enterItemHelper env = .ok m') : SelectionInv m' := by
  unfold enterItemHelper at h
  split at h
  · cases h; exact hi.selectionInv
  · rename_i item hf
    obtain ⟨⟨item', cmd⟩, hs, h⟩ := bind_eq_ok.1 h
    have hsel := MenuItem.select_isAdjusting hs
    dsimp only at h
    split at h
    · obtain ⟨c, -, h⟩ := bind_eq_ok.1 h
      split_ifs at h
      have hx : item'.isAdjusting = false :=
        Bool.eq_false_iff.2 fun ha => Option.some_ne_none _ (hsel.1 ha).1
      exact (executeFields_idle (hi.setHighlightedItem hx) h).selectionInv
    · split_ifs at h with hca <;> cases h
      · exact hi.selectAt hf (hsel.2 ⟨rfl, (hc item').1 hca⟩)
      · have hx : item'.isAdjusting = false :=
          Bool.eq_false_iff.2 fun ha => hca ((hc item').2 (hsel.1 ha).2)
        exact (hi.setHighlightedItem hx).selectionInv

/-- **The encoder in adjustment mode.** A scroll leaves the value item adjusting; a push
writes its value and ends the adjustment. -/
theorem exitItemHelper_selectionInv (hs : SelectionInv m) (hsel : m.itemIsSelected = true)
    (a : Int) : SelectionInv (m.exitItemHelper a) := by
  obtain ⟨item, hf⟩ := Option.isSome_iff_exists.1 (hs.selected hsel)
  have hadj := (hs.adjusting _ item hf).2 ⟨hsel, rfl⟩
  cases item with
  | value v =>
    unfold exitItemHelper
    rw [hf]
    by_cases ha : a = 0
    · have hi : Fresh (m.setHighlightedItem (.value { v with adjusting := false })) :=
        hs.fresh_setHighlightedItem hf rfl
      simp only [MenuItem.adjust, ha, if_true]
      exact Idle.selectionInv ⟨rfl, hi⟩
    · have hs₁ : SelectionInv (m.setHighlightedItem (.value v)) := hs.setHighlightedItem hf rfl
      simp only [MenuItem.adjust, ha, if_false, Bool.false_eq_true]
      exact ⟨hs₁.1, hs₁.2, hs₁.3⟩
  | _ => cases hadj

/-- **A scroll in navigation** moves the highlight and keeps every item fresh. -/
theorem adjustItemHelper_idle {a : Int} (hi : Idle m) (h : m.adjustItemHelper a = .ok m') :
    Idle m' := by
  unfold adjustItemHelper at h
  split at h
  next item hf =>
    have hadv := item.isAdjusting_advance a
    have hx : (item.advance a).1.isAdjusting = false :=
      hadv.trans (hi.2 item (List.mem_append_left _ (List.get?_mem hf)))
    have hi₁ := hi.setHighlightedItem hx
    generalize item.advance a = p at h hi₁
    obtain ⟨item', r⟩ := p
    dsimp only at h
    split_ifs at h
    · cases h; exact hi₁
    · obtain ⟨k, -, h⟩ := bind_eq_ok.1 h
      obtain ⟨k', -, h⟩ := bind_eq_ok.1 h
      split at h
      · next new hnew =>
        cases h
        have hi₂ : Idle { m.setHighlightedItem item' with highlightedItem := k' } :=
          ⟨hi₁.1, hi₁.2⟩
        refine hi₂.setHighlightedItem ?_
        rw [MenuItem.isAdjusting_enter]
        exact hi₂.2 new (List.mem_append_left _ (List.get?_mem hnew))
      · cases h
  · cases h

theorem encoderAction_selectionInv {a : Int} {now : UInt32} (hc : AdjustsValues env)
    (hs : SelectionInv m) (h : m.encoderAction env a now = .ok m') : SelectionInv m' := by
  unfold encoderAction at h
  obtain ⟨m₁, h₁, h⟩ := bind_eq_ok.1 h
  cases h
  suffices hs₁ : SelectionInv m₁ from ⟨hs₁.1, hs₁.2, hs₁.3⟩
  split_ifs at h₁ with _ hsel
  · cases h₁; exact hs
  · cases h₁; exact exitItemHelper_selectionInv hs hsel a
  · exact (adjustItemHelper_idle (hs.idle (Bool.eq_false_iff.2 hsel)) h₁).selectionInv
  · exact enterItemHelper_selectionInv hc (hs.idle (Bool.eq_false_iff.2 hsel)) h₁

/-! ## Every run -/

/-- The calls that rebuild the items: `Load`, `Pop`, `Reload`, and a `Refresh` whose
timeout has run out. -/
def MenuEvent.Reloads (m : Menu) : MenuEvent → Prop
  | .encoderAction _ _ => False
  | .refresh now => m.timeoutEnabled = true ∧ now - m.lastActionTime > 20000
  | _ => True

theorem refresh_selectionInv {now : UInt32} (hs : SelectionInv m)
    (hq : m.itemIsSelected = true → ¬(MenuEvent.refresh now).Reloads m)
    (h : m.refresh env now = .ok m') : SelectionInv m' := by
  unfold refresh at h
  split_ifs at h with ht
  · obtain ⟨m₁, h₁, h⟩ := bind_eq_ok.1 h
    cases h
    have hsel := Bool.eq_false_iff.2 fun hsel => hq hsel ht
    have hi₀ := hs.idle hsel
    have hi := load_idle (by exact ⟨hi₀.1, hi₀.2⟩) h₁
    exact (⟨hi.1, hi.2⟩ : Idle { m₁ with timeoutEnabled := false }).selectionInv
  · cases h; exact hs

theorem step_selectionInv {e : MenuEvent} (hc : AdjustsValues env) (hs : SelectionInv m)
    (hq : m.itemIsSelected = true → ¬e.Reloads m) (h : m.step env e = .ok m') :
    SelectionInv m' := by
  have hsel : e.Reloads m → m.itemIsSelected = false := fun hr =>
    Bool.eq_false_iff.2 fun h => hq h hr
  cases e with
  | load f => exact (load_idle (hs.idle (hsel trivial)) h).selectionInv
  | pop => exact (pop_idle (hsel trivial) h).selectionInv
  | reload => exact (reload_idle (hsel trivial) h).selectionInv
  | encoderAction a now => exact encoderAction_selectionInv hc hs h
  | refresh now => exact refresh_selectionInv hs hq h

end Menu

/-- The runs in which `CanAdjust` holds exactly of value items, and no `Load`, `Pop`,
`Reload` or `Refresh` timeout comes while an item is selected. -/
inductive QuietSelectionReachable : Menu → Prop
  | start (env : MenuEnv) (now : UInt32) {m : Menu} :
      (Menu.init now).load env "main".toList = .ok m → QuietSelectionReachable m
  | step (env : MenuEnv) (e : Menu.MenuEvent) {m m' : Menu} : QuietSelectionReachable m →
      Menu.AdjustsValues env → (m.itemIsSelected = true → ¬e.Reloads m) →
      m.step env e = .ok m' → QuietSelectionReachable m'

theorem quietSelectionReachable_inv {m : Menu} (h : QuietSelectionReachable m) :
    Menu.SelectionInv m := by
  induction h with
  | start env now h =>
    have hi : Menu.Idle (Menu.init now) := ⟨rfl, fun _ h => absurd h (List.not_mem_nil _)⟩
    exact (Menu.load_idle (by exact hi) h).selectionInv
  | step env e _ hc hq hs ih => exact Menu.step_selectionInv hc ih hq hs

/-- **Adjustment mode is exact.** In every state of every run in which `CanAdjust` holds
exactly of value items and no `Load`, `Pop`, `Reload` or `Refresh` timeout comes while an
item is selected, an item is selected exactly when the highlighted item is a value item
being adjusted, every other selectable item is not adjusting, and no unselectable item
is. -/
theorem quiet_selection_exact {m : Menu} (h : QuietSelectionReachable m) :
    (m.itemIsSelected = true ↔
      ∃ v, m.findHighlightedItem = some (.value v) ∧ v.adjusting = true) ∧
    (∀ i item, m.selectableItems.get? i = some item → item.isAdjusting = true →
      i = m.highlightedItem.toNat) ∧
    ∀ item ∈ m.unSelectableItems, item.isAdjusting = false := by
  have hs := quietSelectionReachable_inv h
  refine ⟨⟨fun hsel => ?_, fun ⟨v, hf, hv⟩ => ((hs.adjusting _ _ hf).1 hv).1⟩,
    fun i item hi ha => ((hs.adjusting i item hi).1 ha).2, hs.unselectable⟩
  obtain ⟨item, hf⟩ := Option.isSome_iff_exists.1 (hs.selected hsel)
  have ha := (hs.adjusting _ item hf).2 ⟨hsel, rfl⟩
  cases item with
  | value v => exact ⟨v, hf, ha⟩
  | _ => cases ha

/-- `CanAdjust` of `mainMenuEnv` holds exactly of value items. -/
theorem mainMenuEnv_adjustsValues (lines : List CStr) :
    Menu.AdjustsValues (Menu.mainMenuEnv lines) := by
  intro item
  cases item with
  | value v => exact iff_of_true rfl ⟨v, rfl⟩
  | _ => exact iff_of_false Bool.false_ne_true fun ⟨_, h⟩ => MenuItem.noConfusion h

/-- A push on the speed factor of the one-value menu, then a scroll while it is adjusted. -/
theorem alter_push_then_scroll_adjusting :
    ∃ m, QuietSelectionReachable m ∧ m.findHighlightedItem = some (.value ⟨500, true⟩) ∧
      ((m.itemIsSelected = true ↔
        ∃ v, m.findHighlightedItem = some (.value v) ∧ v.adjusting = true) ∧
      (∀ i item, m.selectableItems.get? i = some item → item.isAdjusting = true →
        i = m.highlightedItem.toNat) ∧
      ∀ item ∈ m.unSelectableItems, item.isAdjusting = false) :=
  have h₀ : QuietSelectionReachable _ := .start (Menu.mainMenuEnv [Menu.alterSpeedLine]) 0 rfl
  have h₁ : QuietSelectionReachable _ :=
    .step (Menu.mainMenuEnv [Menu.alterSpeedLine]) (.encoderAction 0 0) h₀
      (mainMenuEnv_adjustsValues _) (fun _ h => h) rfl
  have h₂ : QuietSelectionReachable _ :=
    .step (Menu.mainMenuEnv [Menu.alterSpeedLine]) (.encoderAction 1 5) h₁
      (mainMenuEnv_adjustsValues _) (fun _ h => h) rfl
  ⟨_, h₂, rfl, quiet_selection_exact h₂⟩

end Display
