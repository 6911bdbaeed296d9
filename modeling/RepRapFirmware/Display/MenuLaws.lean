import RepRapFirmware.Display.Menu

/-!
# Laws of the menu

Every run of the menu keeps two facts (`MenuInv`): `numSelectableItems` counts the
selectable items and the highlight is one of them (or 0 when there is none), and the
nesting depth is between 1 and `MaxMenuNesting`. The first is kept because every
rebuild of the item cache starts from `ResetCache` and only appends items, and the
encoder wraps the highlight around; the second because `Load` checks the depth and
every successful `Reload` has read `filenames[numNestedMenus - 1]`. From the
invariant follow the highlight laws: the highlighted item exists whenever the encoder
reaches a helper, it is the item `Refresh` draws highlighted, and a scroll moves the
highlight by what the item left of it, modulo the number of items.

Two runs show what the invariant does not give. `Pop` does not check the depth, so a
`return` field on the root menu takes it to 0 and `Reload` reads `filenames` at index
`2^32 - 1`. And a rebuild keeps `itemIsSelected`, so after the timeout of `Refresh`
reloads `main` the next push goes to `Adjust` of an item that was never selected.

Each operation has one spec lemma: the cache rebuilders (`appendString`, `addItem`,
`loadError`, `parseMenuLine`, `parseLines`, `reload`) leave the loaded menu and the
encoder's state alone (`Rebuilds`); the encoder's helpers keep `MenuInv`.
-/

set_option autoImplicit false

namespace Display

theorem bind_eq_ok {ε α β : Type} {x : Except ε α} {f : α → Except ε β} {b : β} :
    x >>= f = .ok b ↔ ∃ a, x = .ok a ∧ f a = .ok b := by
  cases x <;> simp [bind, Except.bind]

namespace Menu

/-! ## Rebuilding the item cache -/

/-- Which menu is loaded, and the encoder's state: what only `Load`, `Pop`, the encoder
and `Refresh` change. -/
def control (m : Menu) : (Fin maxMenuNesting → CStr) × Nat × Bool × Bool × UInt32 :=
  (m.filenames, m.numNestedMenus, m.itemIsSelected, m.timeoutEnabled, m.lastActionTime)

/-- `numSelectableItems` counts the selectable items, and the highlight is one of them,
or 0. -/
structure HighlightInv (m : Menu) : Prop where
  count : m.numSelectableItems = m.selectableItems.length
  nonneg : 0 ≤ m.highlightedItem
  lt : m.highlightedItem = 0 ∨ m.highlightedItem < m.numSelectableItems

/-- `m'` is `m` with its item cache rebuilt: the same menu is loaded, the encoder's
state is the same, and the highlight invariant is kept. -/
structure Rebuilds (m m' : Menu) : Prop where
  control : m'.control = m.control
  highlight : HighlightInv m → HighlightInv m'

theorem Rebuilds.refl (m : Menu) : Rebuilds m m := ⟨rfl, id⟩

theorem Rebuilds.trans {m₁ m₂ m₃ : Menu} (h₁ : Rebuilds m₁ m₂) (h₂ : Rebuilds m₂ m₃) :
    Rebuilds m₁ m₃ :=
  ⟨h₂.control.trans h₁.control, h₂.highlight ∘ h₁.highlight⟩

theorem highlightInv_resetCache (m : Menu) : HighlightInv m.resetCache :=
  ⟨rfl, Int.le_refl 0, .inl rfl⟩

theorem addItem_rebuilds (m : Menu) (item : MenuItem) (sel : Bool) :
    Rebuilds m (m.addItem item sel) := by
  refine ⟨by cases sel <;> rfl, fun ⟨hc, hn, hl⟩ => ?_⟩
  cases sel
  · exact ⟨hc, hn, hl⟩
  · refine ⟨by simp [addItem, hc], hn, ?_⟩
    simp only [addItem, if_true]
    omega

theorem appendString_rebuilds {m m' : Menu} {s : Option CStr} {p : BufStr}
    (h : m.appendString s = .ok (m', p)) : Rebuilds m m' := by
  unfold appendString at h
  split at h
  · split at h
    · cases h
    · cases h
      exact ⟨rfl, fun ⟨hc, hn, hl⟩ => ⟨hc, hn, hl⟩⟩
  · cases h
    exact Rebuilds.refl m

theorem currentFilename_lt {m : Menu} {f : CStr} (h : m.currentFilename = .ok f) :
    sizeDec m.numNestedMenus < maxMenuNesting := by
  unfold currentFilename at h
  split at h
  · assumption
  · cases h

/-- `LoadError` empties the cache and keeps the rest. -/
theorem loadError_spec {m m' : Menu} {msg : CStr} {line : Nat}
    (h : m.loadError msg line = .ok m') : m'.control = m.control ∧ HighlightInv m' := by
  simp only [loadError, bind_eq_ok] at h
  obtain ⟨_, -, h⟩ := h
  cases h
  have ⟨hc, hn, hl⟩ := highlightInv_resetCache m
  exact ⟨rfl, hc, hn, hl⟩

/-- Every result of the computation `x` rebuilds `m`. -/
def RebuildsOk {γ : Type} (m : Menu) (x : Except MenuFault (Menu × γ)) : Prop :=
  ∀ m' c, x = .ok (m', c) → Rebuilds m m'

theorem RebuildsOk.ite {γ : Type} {m : Menu} {p : Prop} [Decidable p]
    {x y : Except MenuFault (Menu × γ)} (hx : RebuildsOk m x) (hy : RebuildsOk m y) :
    RebuildsOk m (if p then x else y) := by
  split <;> assumption

theorem RebuildsOk.ok {γ : Type} {m m₁ : Menu} (c : γ) (h : Rebuilds m m₁) :
    RebuildsOk m (.ok (m₁, c)) := by
  intro m' c' e
  cases e
  exact h

theorem RebuildsOk.bind {γ δ : Type} {m : Menu} {x : Except MenuFault (Menu × γ)}
    {f : Menu × γ → Except MenuFault (Menu × δ)} (hx : RebuildsOk m x)
    (hf : ∀ m₁ c, Rebuilds m m₁ → RebuildsOk m (f (m₁, c))) : RebuildsOk m (x >>= f) := by
  intro m' c' e
  obtain ⟨⟨m₁, c⟩, h₁, h⟩ := bind_eq_ok.1 e
  exact hf m₁ c (hx m₁ c h₁) m' c' h

theorem RebuildsOk.bind_value {α δ : Type} {m : Menu} {x : Except MenuFault α}
    {f : α → Except MenuFault (Menu × δ)} (hf : ∀ a, RebuildsOk m (f a)) :
    RebuildsOk m (x >>= f) := by
  intro m' c' e
  obtain ⟨a, -, h⟩ := bind_eq_ok.1 e
  exact hf a m' c' h

theorem RebuildsOk.appendString {m m₁ : Menu} (h : Rebuilds m m₁) (s : Option CStr) :
    RebuildsOk m (m₁.appendString s) :=
  fun _ _ e => h.trans (appendString_rebuilds e)

theorem addLineItem_rebuilds {env : MenuEnv} {m m' : Menu} {word : CStr} {a : LineArgs}
    {err : Option CStr} (h : m.addLineItem env word a = .ok (m', err)) : Rebuilds m m' := by
  refine (?_ : RebuildsOk m (m.addLineItem env word a)) m' err h
  have add : ∀ {m₁} item sel, Rebuilds m m₁ → Rebuilds m (m₁.addItem item sel) :=
    fun _ _ h₁ => h₁.trans (addItem_rebuilds _ _ _)
  unfold addLineItem
  -- text
  refine .ite (.bind (.appendString (.refl m) _) fun _ _ h₁ => .ok _ (add _ _ h₁)) ?_
  -- image
  refine .ite (.ok _ (.refl m)) ?_
  -- button
  refine .ite (.ite (.bind (.appendString (.refl m) _) fun _ _ h₁ =>
    .bind (.appendString h₁ _) fun _ _ h₂ => .bind (.appendString h₂ _) fun _ _ h₃ =>
      .ok _ (add _ _ h₃)) (.ok _ (.refl m))) ?_
  -- value, alter
  refine .ite (.ok _ (add _ _ (.refl m))) (.ite (.ok _ (add _ _ (.refl m))) ?_)
  -- files
  exact .ite (.bind (.appendString (.refl m) _) fun _ _ h₁ =>
    .bind (.appendString h₁ _) fun _ _ h₂ => .bind (.appendString h₂ _) fun _ _ h₃ =>
      .bind_value fun _ => .ok _ (add _ _ h₃)) (.ok _ (.refl m))

theorem parseMenuLine_rebuilds {env : MenuEnv} {m m' : Menu} {line : CStr}
    {err : Option CStr} (h : m.parseMenuLine env line = .ok (m', err)) : Rebuilds m m' := by
  unfold parseMenuLine at h
  repeat' split at h
  all_goals first
    | exact addLineItem_rebuilds h
    | (cases h; exact Rebuilds.refl m)

/-- The line loop of `Reload` keeps the loaded menu and the highlight invariant. -/
theorem parseLines_spec {env : MenuEnv} {lines : List CStr} :
    ∀ {m m' : Menu} {line : Nat}, HighlightInv m → parseLines env m line lines = .ok m' →
      m'.control = m.control ∧ HighlightInv m' := by
  induction lines with
  | nil => intro m m' _ hm h; cases h; exact ⟨rfl, hm⟩
  | cons l ls ih =>
    intro m m' line hm h
    simp only [parseLines, bind_eq_ok, Prod.exists] at h
    obtain ⟨m₁, err, h₁, h⟩ := h
    have hr := parseMenuLine_rebuilds h₁
    have hm₁ := hr.highlight hm
    split at h
    · exact (loadError_spec h).imp (·.trans hr.control) id
    · split at h
      · exact (loadError_spec h).imp (·.trans hr.control) id
      · exact (ih hm₁ h).imp (·.trans hr.control) id

/-- `Reload` rebuilds the cache of the menu it was called with, which it reads
`filenames[numNestedMenus - 1]` of. -/
theorem reload_spec {env : MenuEnv} {m m' : Menu} (h : m.reload env = .ok m') :
    m'.control = m.control ∧ HighlightInv m' ∧ sizeDec m.numNestedMenus < maxMenuNesting := by
  simp only [reload, bind_eq_ok] at h
  obtain ⟨fname, hf, h⟩ := h
  refine ⟨?_, ?_, currentFilename_lt hf⟩ <;> split at h
  · exact (loadError_spec h).1
  · exact (parseLines_spec ⟨rfl, Int.le_refl 0, .inl rfl⟩ h).1
  · exact (loadError_spec h).2
  · exact (parseLines_spec ⟨rfl, Int.le_refl 0, .inl rfl⟩ h).2

/-! ## The invariant -/

/-- What every reachable state of the menu satisfies. -/
structure MenuInv (m : Menu) : Prop where
  highlight : HighlightInv m
  nested_pos : 1 ≤ m.numNestedMenus
  nested_le : m.numNestedMenus ≤ maxMenuNesting

theorem MenuInv.of_eq {m m' : Menu} (hm : MenuInv m)
    (h₁ : m'.selectableItems = m.selectableItems)
    (h₂ : m'.numSelectableItems = m.numSelectableItems)
    (h₃ : m'.highlightedItem = m.highlightedItem)
    (h₄ : m'.numNestedMenus = m.numNestedMenus) : MenuInv m' :=
  ⟨⟨h₂ ▸ h₁ ▸ hm.1.1, h₃ ▸ hm.1.2, h₃ ▸ h₂ ▸ hm.1.3⟩, h₄ ▸ hm.2, h₄ ▸ hm.3⟩

theorem zero_lt_maxMenuNesting : 0 < maxMenuNesting := by decide

theorem sizeDec_lt {n : Nat} : sizeDec n < 2 ^ 32 := Nat.mod_lt _ (Nat.two_pow_pos 32)

/-- A depth whose predecessor indexes `filenames` is between 1 and `MaxMenuNesting`. -/
theorem nested_bounds_of_sizeDec {n : Nat} (hn : n < 2 ^ 32) (h : sizeDec n < maxMenuNesting) :
    1 ≤ n ∧ n ≤ maxMenuNesting := by
  unfold sizeDec maxMenuNesting at *
  omega

theorem reload_menuInv {env : MenuEnv} {m m' : Menu} (hn : m.numNestedMenus < 2 ^ 32)
    (h : m.reload env = .ok m') : MenuInv m' := by
  obtain ⟨hc, hi, hs⟩ := reload_spec h
  have hnest : m'.numNestedMenus = m.numNestedMenus := congrArg (·.2.1) hc
  obtain ⟨h1, h2⟩ := nested_bounds_of_sizeDec hn hs
  exact ⟨hi, hnest ▸ h1, hnest ▸ h2⟩

/-- A `Load` below the maximum depth ends in a state of the invariant. -/
theorem load_menuInv_of_lt {env : MenuEnv} {m m' : Menu} {f : CStr}
    (hn : m.numNestedMenus < maxMenuNesting) (h : m.load env f = .ok m') : MenuInv m' := by
  rw [load, dif_pos hn] at h
  exact reload_menuInv (show m.numNestedMenus + 1 < 2 ^ 32 by unfold maxMenuNesting at hn; omega) h

theorem load_menuInv {env : MenuEnv} {m m' : Menu} {f : CStr} (hm : MenuInv m)
    (h : m.load env f = .ok m') : MenuInv m' := by
  by_cases hn : m.numNestedMenus < maxMenuNesting
  · exact load_menuInv_of_lt hn h
  · rw [load, dif_neg hn] at h
    cases h
    exact hm

theorem pop_menuInv {env : MenuEnv} {m m' : Menu} (h : m.pop env = .ok m') : MenuInv m' := by
  unfold pop at h
  refine reload_menuInv ?_ h
  exact sizeDec_lt

theorem executeHelper_menuInv {env : MenuEnv} {m m' : Menu} {cmd : CStr} (hm : MenuInv m)
    (h : m.executeHelper env cmd = .ok m') : MenuInv m' := by
  unfold executeHelper at h
  split_ifs at h
  · cases h
    exact hm.of_eq rfl rfl rfl rfl
  · exact pop_menuInv h
  · exact load_menuInv hm h

theorem executeFields_menuInv {env : MenuEnv} :
    ∀ {n : Nat} {m m' : Menu} {cmd : CStr}, MenuInv m →
      executeFields env n m cmd = .ok m' → MenuInv m'
  | 0, _, _, _, hm, h => executeHelper_menuInv hm h
  | n + 1, m, m', cmd, hm, h => by
    rw [executeFields.eq_2] at h
    split_ifs at h
    · exact executeHelper_menuInv hm h
    · obtain ⟨m₁, h₁, h⟩ := bind_eq_ok.1 h
      exact executeFields_menuInv (executeHelper_menuInv hm h₁) h

/-! ## The encoder -/

theorem HighlightInv.setHighlightedItem {m : Menu} (hm : HighlightInv m) (item : MenuItem) :
    HighlightInv (m.setHighlightedItem item) :=
  ⟨by simp [Menu.setHighlightedItem, hm.count], hm.nonneg, hm.lt⟩

theorem MenuInv.setHighlightedItem {m : Menu} (hm : MenuInv m) (item : MenuItem) :
    MenuInv (m.setHighlightedItem item) :=
  ⟨hm.1.setHighlightedItem item, hm.2, hm.3⟩

/-- The highlight is an index of the selectable items whenever there are any. -/
theorem HighlightInv.toNat_lt {m : Menu} (hm : HighlightInv m) (hn : m.numSelectableItems ≠ 0) :
    m.highlightedItem.toNat < m.selectableItems.length := by
  have := hm.count
  have := hm.nonneg
  rcases hm.lt with h | h <;> omega

/-- `FindHighlightedItem` is not null whenever there is a selectable item. -/
theorem HighlightInv.findHighlightedItem_isSome {m : Menu} (hm : HighlightInv m)
    (hn : m.numSelectableItems ≠ 0) : m.findHighlightedItem.isSome := by
  rw [findHighlightedItem, List.get?_eq_get (hm.toNat_lt hn)]
  rfl

theorem enterItemHelper_menuInv {env : MenuEnv} {m m' : Menu} (hm : MenuInv m)
    (h : m.enterItemHelper env = .ok m') : MenuInv m' := by
  unfold enterItemHelper at h
  split at h
  · cases h
    exact hm
  · obtain ⟨⟨item, cmd⟩, -, h⟩ := bind_eq_ok.1 h
    have hm₁ := hm.setHighlightedItem item
    dsimp only at h
    split at h
    · obtain ⟨c, -, h⟩ := bind_eq_ok.1 h
      split_ifs at h
      exact executeFields_menuInv hm₁ h
    · split_ifs at h <;> cases h
      · exact hm₁.of_eq rfl rfl rfl rfl
      · exact hm₁

theorem exitItemHelper_menuInv {m : Menu} (hm : MenuInv m) (a : Int) :
    MenuInv (m.exitItemHelper a) := by
  unfold exitItemHelper
  split
  next item _ =>
    generalize item.adjust a = r
    obtain ⟨item', done, effect⟩ := r
    dsimp only
    split_ifs <;> exact (hm.setHighlightedItem item').of_eq rfl rfl rfl rfl
  · exact hm.of_eq rfl rfl rfl rfl

/-- The first wrap-around loop ends at `h mod num` when `h` is negative. -/
theorem raiseHighlight_eq (num h : Int) (hnum : 0 < num) :
    raiseHighlight num h = .ok (if h < 0 then h % num else h) := by
  induction h using raiseHighlight.induct num with
  | case1 h hneg _ ih =>
    rw [raiseHighlight, if_pos hneg, if_pos hnum, ih, if_pos hneg]
    congr 1
    split_ifs with hlt
    · exact Int.add_emod_self
    · exact (Int.emod_eq_of_lt (by omega) (by omega)).symm.trans Int.add_emod_self
  | case2 _ _ hpos => exact absurd hnum hpos
  | case3 h hnn => rw [raiseHighlight, if_neg hnn, if_neg hnn]

/-- The second wrap-around loop ends at `h mod num` when `h` is not negative. -/
theorem lowerHighlight_eq (num h : Int) (hnum : 0 < num) (hh : 0 ≤ h) :
    lowerHighlight num h = .ok (h % num) := by
  induction h using lowerHighlight.induct num with
  | case1 h hle _ ih =>
    rw [lowerHighlight, if_pos hle, if_pos hnum, ih (by omega), ← Int.add_emod_self,
      Int.sub_add_cancel]
  | case2 _ _ hpos => exact absurd hnum hpos
  | case3 h hlt => rw [lowerHighlight, if_neg hlt, Int.emod_eq_of_lt hh (by omega)]

theorem HighlightInv.num_pos {m : Menu} {item : MenuItem} (hm : HighlightInv m)
    (hf : m.findHighlightedItem = some item) : 0 < m.numSelectableItems := by
  have := (List.get?_eq_some.1 hf).1
  have := hm.count
  omega

theorem MenuInv.withHighlight {m : Menu} (hm : MenuInv m) {k : Int} (h₀ : 0 ≤ k)
    (h₁ : k < m.numSelectableItems) : MenuInv { m with highlightedItem := k } :=
  ⟨⟨hm.1.1, h₀, .inr h₁⟩, hm.2, hm.3⟩

/-- Both wrap-around loops together: the highlight modulo the number of items. -/
theorem wrapHighlight_bind {α : Type} (num h : Int) (hnum : 0 < num)
    (f : Int → Except MenuFault α) :
    (raiseHighlight num h >>= fun k => lowerHighlight num k >>= f) = f (h % num) := by
  rw [raiseHighlight_eq num h hnum]
  split_ifs with hneg
  · show lowerHighlight num (h % num) >>= f = _
    rw [lowerHighlight_eq num _ hnum (Int.emod_nonneg _ (by omega)), Int.emod_emod]
    rfl
  · show lowerHighlight num h >>= f = _
    rw [lowerHighlight_eq num h hnum (by omega)]
    rfl

/-- A successful `EncoderAction_AdjustItemHelper` keeps the invariant; it found the
highlighted item, and moved the highlight by the scroll `r` the item left of the
action, modulo the number of items. -/
theorem adjustItemHelper_ok {m m' : Menu} {a : Int} (hm : MenuInv m)
    (h : m.adjustItemHelper a = .ok m') :
    MenuInv m' ∧ ∃ item, m.findHighlightedItem = some item ∧
      m'.highlightedItem = (m.highlightedItem + (item.advance a).2) % m.numSelectableItems := by
  unfold adjustItemHelper at h
  split at h
  next item hf =>
    have hnum := hm.1.num_pos hf
    generalize hadv : item.advance a = p at h
    obtain ⟨item', r⟩ := p
    dsimp only at h
    have hm₁ := hm.setHighlightedItem item'
    have hnum₁ : 0 < (m.setHighlightedItem item').numSelectableItems := hnum
    split_ifs at h with hr
    · cases h
      refine ⟨hm₁, item, hf, ?_⟩
      simp only [hadv, hr, Int.add_zero]
      exact (Int.emod_eq_of_lt hm.1.nonneg (by have := hm.1.lt; omega)).symm
    · rw [wrapHighlight_bind _ _ hnum₁] at h
      split at h
      · cases h
        refine ⟨(hm₁.withHighlight ?_ ?_).setHighlightedItem _, item, hf, by rw [hadv]; rfl⟩
        · exact Int.emod_nonneg _ (by omega)
        · exact Int.emod_lt_of_pos _ hnum
      · cases h
  next => cases h

/-- `EncoderAction_AdjustItemHelper` has no undefined behaviour on a highlighted item
unless the highlight plus the scroll left overflows `int`. -/
theorem adjustItemHelper_progress {m : Menu} {item : MenuItem} {a : Int} (hm : MenuInv m)
    (hf : m.findHighlightedItem = some item)
    (hlo : -2 ^ 31 ≤ m.highlightedItem + (item.advance a).2)
    (hhi : m.highlightedItem + (item.advance a).2 < 2 ^ 31) :
    ∃ m', m.adjustItemHelper a = .ok m' := by
  have hnum := hm.1.num_pos hf
  unfold adjustItemHelper
  rw [hf]
  dsimp only
  generalize hadv : item.advance a = p at hlo hhi ⊢
  obtain ⟨item', r⟩ := p
  dsimp only at hlo hhi ⊢
  have hnum₁ : 0 < (m.setHighlightedItem item').numSelectableItems := hnum
  split_ifs with hr hrange
  · exact ⟨_, rfl⟩
  · rw [wrapHighlight_bind _ _ hnum₁]
    have hm₂ := (hm.setHighlightedItem item').withHighlight
      (Int.emod_nonneg ((m.setHighlightedItem item').highlightedItem + r) (by omega))
      (Int.emod_lt_of_pos _ hnum₁)
    obtain ⟨new, hnew⟩ :=
      Option.isSome_iff_exists.1 (hm₂.1.findHighlightedItem_isSome (Int.ne_of_gt hnum₁))
    rw [hnew]
    exact ⟨_, rfl⟩
  · exact absurd ⟨hlo, hhi⟩ hrange

theorem encoderAction_menuInv {env : MenuEnv} {m m' : Menu} {a : Int} {now : UInt32}
    (hm : MenuInv m) (h : m.encoderAction env a now = .ok m') : MenuInv m' := by
  unfold encoderAction at h
  obtain ⟨m₁, h₁, h⟩ := bind_eq_ok.1 h
  cases h
  suffices MenuInv m₁ from this.of_eq rfl rfl rfl rfl
  split_ifs at h₁
  · cases h₁
    exact hm
  · cases h₁
    exact exitItemHelper_menuInv hm a
  · exact (adjustItemHelper_ok hm h₁).1
  · exact enterItemHelper_menuInv hm h₁

theorem refresh_menuInv {env : MenuEnv} {m m' : Menu} {now : UInt32} (hm : MenuInv m)
    (h : m.refresh env now = .ok m') : MenuInv m' := by
  unfold refresh at h
  split_ifs at h
  · obtain ⟨m₁, h₁, h⟩ := bind_eq_ok.1 h
    cases h
    exact (load_menuInv_of_lt zero_lt_maxMenuNesting h₁).of_eq rfl rfl rfl rfl
  · cases h
    exact hm

/-- Every call keeps the invariant. -/
theorem step_menuInv {env : MenuEnv} {m m' : Menu} {e : MenuEvent} (hm : MenuInv m)
    (h : m.step env e = .ok m') : MenuInv m' := by
  cases e with
  | load f => exact load_menuInv hm h
  | pop => exact pop_menuInv h
  | reload => exact reload_menuInv (by have := hm.3; unfold maxMenuNesting at this; omega) h
  | encoderAction a now => exact encoderAction_menuInv hm h
  | refresh now => exact refresh_menuInv hm h

/-- Every reachable state satisfies the invariant. -/
theorem menuInv_reachable {m : Menu} (h : MenuReachable m) : MenuInv m := by
  induction h with
  | start _ _ h => exact load_menuInv_of_lt zero_lt_maxMenuNesting h
  | step _ _ _ hs ih => exact step_menuInv ih hs

/-! ## The highlight laws -/

/-- The drawing loop from index `i` highlights the item at the highlight, if it has
reached it. -/
theorem drawFrom_highlighted (h : Int) (hh : 0 ≤ h) (items : List MenuItem) :
    ∀ i : Nat, ((drawFrom h i items).filter (·.2)).map Prod.fst =
      if (i : Int) ≤ h then (items.get? (h.toNat - i)).toList else [] := by
  induction items with
  | nil => intro i; split_ifs <;> rfl
  | cons item items ih =>
    intro i
    have hrest := ih (i + 1)
    rcases Int.lt_trichotomy (i : Int) h with hlt | heq | hgt
    · rw [if_pos (by omega)] at hrest
      have : h.toNat - i = h.toNat - (i + 1) + 1 := by omega
      simp [drawFrom, show (i : Int) ≠ h by omega, if_pos (show (i : Int) ≤ h by omega), this,
        hrest]
    · rw [if_neg (by omega)] at hrest
      simp [drawFrom, heq, hrest, show h.toNat - i = 0 by omega]
    · rw [if_neg (by omega)] at hrest
      simp [drawFrom, show (i : Int) ≠ h by omega, show ¬ ((i : Int) ≤ h) by omega, hrest]

/-- `Refresh` draws exactly the item `FindHighlightedItem` returns highlighted. -/
theorem drawnItems_highlighted {m : Menu} (hm : HighlightInv m) :
    (m.drawnItems.filter (·.2)).map Prod.fst = m.findHighlightedItem.toList := by
  rw [drawnItems, drawFrom_highlighted _ hm.nonneg, if_pos (by exact_mod_cast hm.nonneg)]
  rfl

/-- The highlight laws of every reachable state: `numSelectableItems` counts the
selectable items and the highlight is one of them; `FindHighlightedItem` is not null
whenever `EncoderAction` dispatches to a helper, and it is the item `Refresh` draws
highlighted; and `EncoderAction_AdjustItemHelper`, unless the highlight plus the scroll
`r` the item leaves overflows `int`, ends without undefined behaviour with the highlight
at `(h + r) mod numSelectableItems`. -/
theorem reachable_highlight_laws {m : Menu} (h : MenuReachable m) :
    m.numSelectableItems = m.selectableItems.length ∧
    (0 < m.numSelectableItems →
      0 ≤ m.highlightedItem ∧ m.highlightedItem < m.numSelectableItems) ∧
    (m.numSelectableItems ≠ 0 → m.findHighlightedItem.isSome) ∧
    (m.drawnItems.filter (·.2)).map Prod.fst = m.findHighlightedItem.toList ∧
    ∀ (a : Int) (item : MenuItem), m.findHighlightedItem = some item →
      -2 ^ 31 ≤ m.highlightedItem + (item.advance a).2 →
      m.highlightedItem + (item.advance a).2 < 2 ^ 31 →
      ∃ m', m.adjustItemHelper a = .ok m' ∧
        m'.highlightedItem = (m.highlightedItem + (item.advance a).2) % m.numSelectableItems := by
  have hm := menuInv_reachable h
  refine ⟨hm.1.count, fun hpos => ⟨hm.1.nonneg, ?_⟩, hm.1.findHighlightedItem_isSome,
    drawnItems_highlighted hm.1, fun a item hf hlo hhi => ?_⟩
  · rcases hm.1.lt with h0 | hlt
    · rw [h0]; exact hpos
    · exact hlt
  · obtain ⟨m', hok⟩ := adjustItemHelper_progress hm hf hlo hhi
    obtain ⟨-, item', hf', hh⟩ := adjustItemHelper_ok hm hok
    rw [hf] at hf'
    cases hf'
    exact ⟨m', hok, hh⟩

/-! ## Runs -/

/-- A printer whose menu folder holds only `main`, with the given lines, and no other
file; it accepts every command, `CanAdjust` holds for value items, and
`MaxFilenameLength` is 100. -/
def mainMenuEnv (lines : List CStr) : MenuEnv where
  menuFile f := if f = "main".toList then some lines else none
  listing _ := []
  processCommand _ := true
  canAdjust
    | .value _ => true
    | _ => false
  maxFilenameLength := 100
  isReallyPrinting := false
  isPrinting := false
  isPaused := false
  isPausing := false
  isResuming := false
  isDriveMounted := true

/-- A menu line with one alterable value: the speed factor. -/
def alterSpeedLine : CStr := "alter N500".toList

theorem highlight_laws_alter_menu :
    ∃ m, MenuReachable m ∧ m.numSelectableItems = 1 ∧
    (m.numSelectableItems = m.selectableItems.length ∧
    (0 < m.numSelectableItems →
      0 ≤ m.highlightedItem ∧ m.highlightedItem < m.numSelectableItems) ∧
    (m.numSelectableItems ≠ 0 → m.findHighlightedItem.isSome) ∧
    (m.drawnItems.filter (·.2)).map Prod.fst = m.findHighlightedItem.toList ∧
    ∀ (a : Int) (item : MenuItem), m.findHighlightedItem = some item →
      -2 ^ 31 ≤ m.highlightedItem + (item.advance a).2 →
      m.highlightedItem + (item.advance a).2 < 2 ^ 31 →
      ∃ m', m.adjustItemHelper a = .ok m' ∧
        m'.highlightedItem = (m.highlightedItem + (item.advance a).2) % m.numSelectableItems) :=
  have hr : MenuReachable _ := .start (mainMenuEnv [alterSpeedLine]) 0 rfl
  ⟨_, hr, rfl, reachable_highlight_laws hr⟩

/-! ## `Pop` on the root menu -/

/-- `Pop` on the root menu takes the depth to 0, and `Reload` then reads `filenames` at
index `2^32 - 1`. -/
theorem pop_root_faults (env : MenuEnv) {m : Menu} (h : m.numNestedMenus = 1) :
    m.pop env = .error (.filenameIndex (2 ^ 32 - 1)) := by
  have hidx : sizeDec (sizeDec m.numNestedMenus) = 2 ^ 32 - 1 := by rw [h]; rfl
  have hcur : ({ m with numNestedMenus := sizeDec m.numNestedMenus }.resetCache).currentFilename
      = .error (.filenameIndex (2 ^ 32 - 1)) := by
    unfold currentFilename
    rw [dif_neg (by simp only [resetCache, hidx, maxMenuNesting]; omega)]
    exact congrArg (fun i => Except.error (MenuFault.filenameIndex i)) hidx
  unfold pop reload
  dsimp only
  rw [hcur]
  rfl

/-- A `Back` button whose action is `return`. -/
def backButtonLine : CStr := "button T\"Back\" A\"return\"".toList

theorem return_on_root_menu_faults :
    ∃ m, MenuReachable m ∧ m.numNestedMenus = 1 ∧
      m.encoderAction (mainMenuEnv [backButtonLine]) 0 0 =
        .error (.filenameIndex (2 ^ 32 - 1)) :=
  ⟨_, .start (mainMenuEnv [backButtonLine]) 0 rfl, rfl, rfl⟩

/-! ## Action strings -/

/-- The action string `f₁|f₂|…|fₖ` of the fields `f₁` and `[f₂, …, fₖ]`. -/
def joinFields (f : CStr) : List CStr → CStr
  | [] => f
  | g :: gs => f ++ '|' :: joinFields g gs

/-- Every string is the `|`-join of fields without a `|`. -/
theorem exists_joinFields : ∀ s : CStr,
    ∃ f fs, s = joinFields f fs ∧ '|' ∉ f ∧ ∀ g ∈ fs, '|' ∉ g
  | [] => ⟨[], [], rfl, List.not_mem_nil _, fun _ h => absurd h (List.not_mem_nil _)⟩
  | c :: s => by
    obtain ⟨f, fs, rfl, hf, hfs⟩ := exists_joinFields s
    by_cases hc : c = '|'
    · subst hc
      exact ⟨[], f :: fs, rfl, List.not_mem_nil _, List.forall_mem_cons.2 ⟨hf, hfs⟩⟩
    · refine ⟨c :: f, fs, by cases fs <;> rfl, ?_, hfs⟩
      exact List.not_mem_cons_of_ne_of_not_mem (Ne.symm hc) hf

/-- The fields of a `|`-join of fields without a `|` are those fields. -/
theorem splitOn_joinFields : ∀ {fs : List CStr} {f : CStr}, '|' ∉ f → (∀ g ∈ fs, '|' ∉ g) →
    (joinFields f fs).splitOn '|' = f :: fs
  | [], f, hf, _ => List.splitOnP_eq_single _ _ fun x hx e => hf (beq_iff_eq.1 e ▸ hx)
  | g :: gs, f, hf, hgs => by
    rw [joinFields, List.splitOn,
      List.splitOnP_first (· == '|') f (fun x hx e => hf (beq_iff_eq.1 e ▸ hx)) '|'
        (beq_self_eq_true _), ← List.splitOn,
      splitOn_joinFields (hgs g (List.mem_cons_self g gs)) fun g' h => hgs g' (List.mem_cons_of_mem g h)]

/-- `StringContains` finds no `|` in a field. -/
theorem stringContains_bar_of_not_mem {f : CStr} (h : '|' ∉ f) : stringContains f ['|'] = -1 := by
  have := stringContains.go_append_of_not_mem '|' [] h [] 0
  rw [List.append_nil] at this
  exact this

/-- `StringContains` finds the `|` after a field just past it. -/
theorem stringContains_bar_after {f : CStr} (h : '|' ∉ f) (rest : CStr) :
    stringContains (f ++ '|' :: rest) ['|'] = f.length + 1 := by
  unfold stringContains
  rw [stringContains.go_append_of_not_mem '|' [] h, Nat.zero_add]
  simp [stringContains.go]

/-- **The fields run in order.** The loop of `EncoderAction_EnterItemHelper` runs the
`|`-separated fields of an action string one after the other, each once, with any fuel that
covers the string. -/
theorem executeFields_joinFields (env : MenuEnv) : ∀ (fs : List CStr) (f : CStr) (m : Menu)
    (n : Nat), '|' ∉ f → (∀ g ∈ fs, '|' ∉ g) → (joinFields f fs).length ≤ n →
    executeFields env n m (joinFields f fs) = (f :: fs).foldlM (executeHelper env) m
  | [], f, m, n, hf, _, _ => by
    simp only [joinFields, List.foldlM_cons, List.foldlM_nil, bind_pure]
    cases n with
    | zero => rfl
    | succ n => rw [executeFields, if_pos (stringContains_bar_of_not_mem hf)]
  | g :: gs, f, m, n, hf, hgs, hn => by
    have hlen : (joinFields f (g :: gs)).length = f.length + 1 + (joinFields g gs).length := by
      simp only [joinFields, List.length_append, List.length_cons]; omega
    obtain ⟨k, rfl⟩ : ∃ k, n = k + 1 := ⟨n - 1, by omega⟩
    have hi : ((f.length : Int) + 1).toNat = f.length + 1 := by omega
    rw [executeFields, joinFields, stringContains_bar_after hf, if_neg (by omega), hi,
      Nat.add_sub_cancel,
      List.take_left' rfl, List.drop_append, List.drop_one, List.tail_cons, List.foldlM_cons]
    exact congrArg (_ >>= ·) (funext fun m₁ => executeFields_joinFields env gs g m₁ k
      (hgs g (List.mem_cons_self g gs)) (fun g' hg' => hgs g' (List.mem_cons_of_mem g hg'))
      (by omega))

/-- **A `menu` field after another field loads the file `menu`.** Pressing a button whose
action is `f₁|…|fₖ|menu` runs `f₁`, …, `fₖ` in order and then `Load("menu")`, whatever
file its `L` argument names: `ButtonMenuItem::Select` returns the `L` file only for an
action that is `menu` as a whole, and `EncoderAction_ExecuteHelper` loads any other field
it does not run or pop as a menu file of that name. -/
theorem enterItemHelper_menu_field {env : MenuEnv} {m : Menu} {b : ButtonItem} (f : CStr)
    (fs : List CStr) (hh : m.findHighlightedItem = some (.button b))
    (hc : b.command = .copy (joinFields f (fs ++ ["menu".toList])))
    (hf : '|' ∉ f) (hfs : ∀ g ∈ fs, '|' ∉ g)
    (hlen : (joinFields f (fs ++ ["menu".toList])).length + 1 ≤ env.maxFilenameLength + 20) :
    m.enterItemHelper env =
      (f :: fs).foldlM (executeHelper env) (m.setHighlightedItem (.button b)) >>=
        fun m' => m'.load env "menu".toList := by
  have hnot : joinFields f (fs ++ ["menu".toList]) ≠ "menu".toList := by
    cases fs <;> simp only [List.nil_append, List.cons_append, joinFields] <;>
      exact fun h => by simpa [h] using congrArg ('|' ∈ ·) h
  have hbars : ∀ g ∈ fs ++ ["menu".toList], '|' ∉ g := by
    intro g hg
    rcases List.mem_append.1 hg with hg | hg
    · exact hfs g hg
    · rw [List.mem_singleton.1 hg]; decide
  rw [enterItemHelper, hh]
  simp only [MenuItem.select, hc, BufStr.read, bind, Except.bind, if_neg hnot]
  rw [if_neg (by omega), executeFields_joinFields env _ f _ _ hf hbars (le_refl _),
    ← List.cons_append, List.foldlM_append]
  refine bind_congr fun m' => ?_
  simp only [List.foldlM_cons, List.foldlM_nil, bind_pure]
  rfl

/-- A button whose action homes the printer and chains to a menu: `G28|menu` with the
file `sub`. -/
def homeThenMenuLine : CStr := "button T\"Home\" A\"G28|menu\" L\"sub\"".toList

/-- Pressing the button `G28|menu` of `homeThenMenuLine` sends `G28` and then loads the
menu file `menu`, not `sub`. -/
theorem home_then_menu_loads_menu :
    ∃ m b, (Menu.init 0).load (mainMenuEnv [homeThenMenuLine]) "main".toList = .ok m ∧
      m.findHighlightedItem = some (.button b) ∧ b.file = .copy "sub".toList ∧
      m.enterItemHelper (mainMenuEnv [homeThenMenuLine]) =
        ["G28".toList].foldlM (executeHelper (mainMenuEnv [homeThenMenuLine]))
            (m.setHighlightedItem (.button b)) >>=
          fun m' => m'.load (mainMenuEnv [homeThenMenuLine]) "menu".toList := by
  refine ⟨_, _, rfl, rfl, rfl, ?_⟩
  refine @enterItemHelper_menu_field _ _ _ "G28".toList [] ?_ ?_ ?_ ?_ ?_ <;>
    first | rfl | decide

/-! ## The selection across a reload -/

/-- A rebuild of the cache keeps `itemIsSelected`. -/
theorem reload_itemIsSelected {env : MenuEnv} {m m' : Menu} (h : m.reload env = .ok m') :
    m'.itemIsSelected = m.itemIsSelected := by
  have hc := congrArg (fun c => c.2.2.1) (reload_spec h).1
  exact hc

theorem load_itemIsSelected {env : MenuEnv} {m m' : Menu} {f : CStr}
    (h : m.load env f = .ok m') : m'.itemIsSelected = m.itemIsSelected := by
  unfold load at h
  split at h
  · have hs := reload_itemIsSelected h
    exact hs
  · cases h
    rfl

/-- The timeout of `Refresh` reloads `main` and keeps `itemIsSelected`. -/
theorem refresh_itemIsSelected {env : MenuEnv} {m m' : Menu} {now : UInt32}
    (h : m.refresh env now = .ok m') : m'.itemIsSelected = m.itemIsSelected := by
  unfold refresh at h
  split_ifs at h
  · obtain ⟨m₁, h₁, h⟩ := bind_eq_ok.1 h
    cases h
    have hs := load_itemIsSelected h₁
    exact hs
  · cases h
    rfl

theorem timeout_reload_keeps_item_selected :
    ∃ m, MenuReachable m ∧ m.itemIsSelected = true ∧
      m.findHighlightedItem = some (.value ⟨500, false⟩) ∧
      ∃ m', m.encoderAction (mainMenuEnv [alterSpeedLine]) 0 20002 = .ok m' ∧
        m'.effects = m.effects ++ [.setValue 500] :=
  have h₀ : MenuReachable _ := .start (mainMenuEnv [alterSpeedLine]) 0 rfl
  have h₁ : MenuReachable _ := .step (mainMenuEnv [alterSpeedLine]) (.encoderAction 0 0) h₀ rfl
  have h₂ : MenuReachable _ := .step (mainMenuEnv [alterSpeedLine]) (.refresh 20001) h₁ rfl
  ⟨_, h₂, rfl, rfl, _, rfl, rfl⟩

end Menu

end Display
