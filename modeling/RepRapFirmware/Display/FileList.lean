import RepRapFirmware.Display.MenuItem

/-!
# The file list

A `FilesMenuItem` shows `N` lines of a directory listing, with the selected entry on one
of them. `EnterDirectory` counts the entries into `m_uTotalFilesInCurrentDirectory`, the
encoder moves the selection with `Enter` and `Advance`, `Draw` scans the listing to the
first line in view and prints the lines with a `>` before the selected entry, and `Select`
scans it again to the selected entry. All the counters are `unsigned int`, 32 bits wide.

* `WindowInv` is the view of a listing with at least one entry: the selection is an entry
  and lies on one of the lines shown, and `first + N` does not wrap. `Enter` and `Advance`
  keep it (`windowInv_enter`, `windowInv_advance`), so every run from the constructor
  does (`windowInv_reachable`), and on it `Advance` is exact (`advance_law`): it returns
  counts of the sign of its argument, at most as many, moves the selection by the counts it
  used, and returns counts only at the end of the list (`reachable_advance_exact`).
* On such a run `Draw` and `Select` agree (`reachable_draw_marks_selected`): the line with
  the `>` marker is the line of the selection, and it shows the entry `Select` runs.
* On an empty listing nothing stops the selection: `Advance(n)` uses every count and
  moves the selection past the end (`advance_on_empty_listing`).
-/

set_option autoImplicit false

namespace Display

/-! ## `unsigned int` arithmetic -/

theorem u32_toNat_add (a b : UInt32) : (a + b).toNat = (a.toNat + b.toNat) % 2 ^ 32 :=
  BitVec.toNat_add _ _

theorem u32_toNat_sub (a b : UInt32) : (a - b).toNat = (2 ^ 32 - b.toNat + a.toNat) % 2 ^ 32 :=
  BitVec.toNat_sub _ _

theorem u32_lt_iff (a b : UInt32) : a < b ↔ a.toNat < b.toNat := Iff.rfl

theorem u32_eq_iff (a b : UInt32) : a = b ↔ a.toNat = b.toNat := ⟨congrArg _, UInt32.toNat.inj⟩

theorem u32_toNat_lt (a : UInt32) : a.toNat < 2 ^ 32 := a.toBitVec.isLt

theorem u32_toNat_one : (1 : UInt32).toNat = 1 := rfl

theorem u32_toNat_add_of_lt {a b : UInt32} (h : a.toNat + b.toNat < 2 ^ 32) :
    (a + b).toNat = a.toNat + b.toNat := by
  rw [u32_toNat_add]; exact Nat.mod_eq_of_lt h


theorem u8_toNat_add (a b : UInt8) : (a + b).toNat = (a.toNat + b.toNat) % 2 ^ 8 :=
  BitVec.toNat_add _ _

theorem u8_toNat_ofNat (k : Nat) : (UInt8.ofNat k).toNat = k % 2 ^ 8 := BitVec.toNat_ofNat _ _

theorem u8_toNat_toUInt32 (a : UInt8) : a.toUInt32.toNat = a.toNat := rfl

theorem u8_toNat_one : (1 : UInt8).toNat = 1 := rfl

namespace FilesItem

/-! ## One pass of each loop of `Advance` -/

/-- The body of `Advance`'s first loop: select the next entry, and move the view down
when the selection leaves it. -/
def stepDown (f : FilesItem) : FilesItem :=
  let f := { f with currentSelectedFile := f.currentSelectedFile + 1 }
  if f.currentSelectedFile = f.firstFileVisible + f.displayLines
  then { f with firstFileVisible := f.firstFileVisible + 1 } else f

/-- The body of `Advance`'s second loop: select the previous entry, and move the view up
when the selection leaves it. -/
def stepUp (f : FilesItem) : FilesItem :=
  let f := { f with currentSelectedFile := f.currentSelectedFile - 1 }
  if f.currentSelectedFile < f.firstFileVisible
  then { f with firstFileVisible := f.firstFileVisible - 1 } else f

theorem advanceDown_succ (f : FilesItem) (n : Nat) :
    f.advanceDown (n + 1) =
      if f.totalFiles = f.currentSelectedFile + 1 then (f, n + 1) else f.stepDown.advanceDown n :=
  rfl

theorem advanceUp_succ (f : FilesItem) (n : Nat) :
    f.advanceUp (n + 1) =
      if f.currentSelectedFile = 0 then (f, n + 1) else f.stepUp.advanceUp n :=
  rfl

/-- A pass moves the selection and the view, nothing else. -/
theorem stepDown_eq (f : FilesItem) : ∃ v, f.stepDown =
    { f with currentSelectedFile := f.currentSelectedFile + 1, firstFileVisible := v } := by
  dsimp only [stepDown]
  split
  · exact ⟨_, rfl⟩
  · exact ⟨_, rfl⟩

theorem stepUp_eq (f : FilesItem) : ∃ v, f.stepUp =
    { f with currentSelectedFile := f.currentSelectedFile - 1, firstFileVisible := v } := by
  dsimp only [stepUp]
  split
  · exact ⟨_, rfl⟩
  · exact ⟨_, rfl⟩

/-- `Advance` moves the selection and the view, nothing else. -/
theorem advanceDown_eq : ∀ (n : Nat) (f : FilesItem), ∃ s v, (f.advanceDown n).1 =
    { f with currentSelectedFile := s, firstFileVisible := v }
  | 0, f => ⟨_, _, rfl⟩
  | n + 1, f => by
    rw [advanceDown_succ]
    split
    · exact ⟨_, _, rfl⟩
    · obtain ⟨v, hv⟩ := stepDown_eq f
      obtain ⟨s, w, e⟩ := advanceDown_eq n f.stepDown
      exact ⟨s, w, by rw [e, hv]⟩

theorem advanceUp_eq : ∀ (n : Nat) (f : FilesItem), ∃ s v, (f.advanceUp n).1 =
    { f with currentSelectedFile := s, firstFileVisible := v }
  | 0, f => ⟨_, _, rfl⟩
  | n + 1, f => by
    rw [advanceUp_succ]
    split
    · exact ⟨_, _, rfl⟩
    · obtain ⟨v, hv⟩ := stepUp_eq f
      obtain ⟨s, w, e⟩ := advanceUp_eq n f.stepUp
      exact ⟨s, w, by rw [e, hv]⟩

theorem advance_eq (f : FilesItem) (n : Int) : ∃ s v, (f.advance n).1 =
    { f with currentSelectedFile := s, firstFileVisible := v } := by
  unfold advance
  split
  · exact advanceDown_eq _ f
  · split
    · exact advanceUp_eq _ f
    · exact ⟨_, _, rfl⟩

/-! ## The view -/

/-- The view of a listing with an entry: the selection is an entry on one of the `N` lines
shown, and the last line shown, `first + N`, is within `max N T`, so it does not wrap. -/
structure WindowInv (f : FilesItem) : Prop where
  first_le : f.firstFileVisible.toNat ≤ f.currentSelectedFile.toNat
  lt_first_add : f.currentSelectedFile.toNat < f.firstFileVisible.toNat + f.displayLines.toNat
  lt_total : f.currentSelectedFile.toNat < f.totalFiles.toNat
  no_wrap : f.firstFileVisible.toNat + f.displayLines.toNat ≤ max f.displayLines.toNat f.totalFiles.toNat

theorem windowInv_enter {f : FilesItem} (hT : 0 < f.totalFiles.toNat)
    (hL : 0 < f.displayLines.toNat) (forward : Bool) : WindowInv (f.enter forward) := by
  have hsel : (f.totalFiles - 1).toNat = f.totalFiles.toNat - 1 := UInt32.toNat_sub_of_le _ _ hT
  cases forward
  · simp only [enter, Bool.false_eq_true, if_false]
    split <;> rename_i h <;> rw [gt_iff_lt, u32_lt_iff] at h
    · have hfirst := UInt32.toNat_sub_of_le _ _ (Nat.le_of_lt h)
      constructor <;> simp only [hsel, hfirst] <;> omega
    · constructor <;> simp only [hsel, UInt32.toNat_zero] <;> omega
  · constructor <;> simp only [enter, if_true, UInt32.toNat_zero] <;> omega

/-- A pass of the first loop, when the selection is not the last entry, keeps the view and
selects the next entry. -/
theorem windowInv_stepDown {f : FilesItem} (hi : WindowInv f)
    (h : ¬ f.totalFiles = f.currentSelectedFile + 1) :
    WindowInv f.stepDown ∧ f.stepDown.currentSelectedFile.toNat = f.currentSelectedFile.toNat + 1 := by
  obtain ⟨h1, h2, h3, h4⟩ := hi
  have hTb := u32_toNat_lt f.totalFiles
  have hLb := u32_toNat_lt f.displayLines
  have hsel : (f.currentSelectedFile + 1).toNat = f.currentSelectedFile.toNat + 1 :=
    u32_toNat_add_of_lt (by rw [u32_toNat_one]; omega)
  have hview : (f.firstFileVisible + f.displayLines).toNat =
      f.firstFileVisible.toNat + f.displayLines.toNat := u32_toNat_add_of_lt (by omega)
  have hfirst : (f.firstFileVisible + 1).toNat = f.firstFileVisible.toNat + 1 :=
    u32_toNat_add_of_lt (by rw [u32_toNat_one]; omega)
  rw [u32_eq_iff, hsel] at h
  clear hTb hLb
  dsimp only [stepDown]
  split <;> rename_i hs <;> rw [u32_eq_iff, hsel, hview] at hs
  · refine ⟨⟨?_, ?_, ?_, ?_⟩, hsel⟩ <;> simp only [hsel, hfirst] <;> omega
  · refine ⟨⟨?_, ?_, ?_, ?_⟩, hsel⟩ <;> simp only [hsel] <;> omega

/-- A pass of the second loop, when the selection is not the first entry, keeps the view and
selects the previous entry. -/
theorem windowInv_stepUp {f : FilesItem} (hi : WindowInv f) (h : ¬ f.currentSelectedFile = 0) :
    WindowInv f.stepUp ∧ f.stepUp.currentSelectedFile.toNat + 1 = f.currentSelectedFile.toNat := by
  obtain ⟨h1, h2, h3, h4⟩ := hi
  rw [u32_eq_iff, UInt32.toNat_zero] at h
  have hsel : (f.currentSelectedFile - 1).toNat = f.currentSelectedFile.toNat - 1 :=
    UInt32.toNat_sub_of_le _ _ (Nat.pos_of_ne_zero h)
  dsimp only [stepUp]
  split <;> rename_i hs <;> rw [u32_lt_iff, hsel] at hs
  · have hfirst : (f.firstFileVisible - 1).toNat = f.firstFileVisible.toNat - 1 :=
      UInt32.toNat_sub_of_le _ _ (show 1 ≤ f.firstFileVisible.toNat by omega)
    refine ⟨⟨?_, ?_, ?_, ?_⟩, ?_⟩ <;> simp only [hsel, hfirst] <;> omega
  · refine ⟨⟨?_, ?_, ?_, ?_⟩, ?_⟩ <;> simp only [hsel] <;> omega

/-- The first loop of `Advance` on a view: it returns `k ≤ n` counts, moves the selection
down by `n - k`, and returns counts only with the last entry selected. -/
theorem advanceDown_spec : ∀ (n : Nat) {f : FilesItem}, WindowInv f →
    WindowInv (f.advanceDown n).1 ∧ (f.advanceDown n).2 ≤ n ∧
      (f.advanceDown n).1.currentSelectedFile.toNat + (f.advanceDown n).2 =
        f.currentSelectedFile.toNat + n ∧
      ((f.advanceDown n).2 ≠ 0 →
        (f.advanceDown n).1.currentSelectedFile.toNat + 1 = f.totalFiles.toNat)
  | 0, f, hi => ⟨hi, le_refl _, rfl, fun h => absurd rfl h⟩
  | n + 1, f, hi => by
    rw [advanceDown_succ]
    split <;> rename_i hend
    · have hT := u32_toNat_lt f.totalFiles
      rw [u32_eq_iff, u32_toNat_add, u32_toNat_one] at hend
      have := hi.lt_total
      exact ⟨hi, le_refl _, rfl, fun _ =>
        show f.currentSelectedFile.toNat + 1 = f.totalFiles.toNat by omega⟩
    · obtain ⟨hi', hsel⟩ := windowInv_stepDown hi hend
      obtain ⟨hw, hle, hmove, hlast⟩ := advanceDown_spec n hi'
      obtain ⟨v, hv⟩ := stepDown_eq f
      refine ⟨hw, by omega, by omega, fun h => ?_⟩
      rw [hlast h, hv]

/-- The second loop of `Advance` on a view: it returns `k ≤ n` counts, moves the selection
up by `n - k`, and returns counts only with the first entry selected. -/
theorem advanceUp_spec : ∀ (n : Nat) {f : FilesItem}, WindowInv f →
    WindowInv (f.advanceUp n).1 ∧ (f.advanceUp n).2 ≤ n ∧
      (f.advanceUp n).1.currentSelectedFile.toNat + n =
        f.currentSelectedFile.toNat + (f.advanceUp n).2 ∧
      ((f.advanceUp n).2 ≠ 0 → (f.advanceUp n).1.currentSelectedFile.toNat = 0)
  | 0, f, hi => ⟨hi, le_refl _, rfl, fun h => absurd rfl h⟩
  | n + 1, f, hi => by
    rw [advanceUp_succ]
    split <;> rename_i hfirst
    · exact ⟨hi, le_refl _, rfl, fun _ => by rw [hfirst]; rfl⟩
    · obtain ⟨hi', hsel⟩ := windowInv_stepUp hi hfirst
      obtain ⟨hw, hle, hmove, hlast⟩ := advanceUp_spec n hi'
      exact ⟨hw, by omega, by omega, hlast⟩

theorem advance_of_pos (f : FilesItem) {n : Int} (h : 0 < n) :
    f.advance n = ((f.advanceDown n.toNat).1, ((f.advanceDown n.toNat).2 : Int)) := by
  rw [advance, if_pos h]

theorem advance_of_neg (f : FilesItem) {n : Int} (h : n < 0) :
    f.advance n = ((f.advanceUp (-n).toNat).1, -((f.advanceUp (-n).toNat).2 : Int)) := by
  rw [advance, if_neg (by omega), if_pos h]

theorem advance_zero (f : FilesItem) : f.advance 0 = (f, 0) := rfl

theorem windowInv_advance {f : FilesItem} (hi : WindowInv f) (n : Int) :
    WindowInv (f.advance n).1 := by
  rcases (show n < 0 ∨ n = 0 ∨ 0 < n by omega) with h | rfl | h
  · rw [advance_of_neg f h]; exact (advanceUp_spec _ hi).1
  · exact hi
  · rw [advance_of_pos f h]; exact (advanceDown_spec _ hi).1

/-- **`Advance` on a view.** It returns counts `r` that are none or of the sign of `n`, at
most as many as `n`; it moves the selection by `n - r`; and it returns counts only with the
selection at the end of the list in the direction of travel. -/
theorem advance_law {f : FilesItem} (hi : WindowInv f) (n : Int) :
    ((f.advance n).2 = 0 ∨ (0 < (f.advance n).2 ∧ 0 < n) ∨ ((f.advance n).2 < 0 ∧ n < 0)) ∧
      (f.advance n).2.natAbs ≤ n.natAbs ∧
      ((f.advance n).1.currentSelectedFile.toNat : Int) =
        f.currentSelectedFile.toNat + (n - (f.advance n).2) ∧
      ((f.advance n).2 ≠ 0 →
        (0 < n ∧ (f.advance n).1.currentSelectedFile.toNat + 1 = f.totalFiles.toNat) ∨
        (n < 0 ∧ (f.advance n).1.currentSelectedFile.toNat = 0)) := by
  rcases (show n < 0 ∨ n = 0 ∨ 0 < n by omega) with hneg | rfl | hpos
  · obtain ⟨-, hle, hmove, hlast⟩ := advanceUp_spec (-n).toNat hi
    rw [advance_of_neg f hneg]
    dsimp only
    refine ⟨?_, ?_, ?_, fun h => .inr ⟨hneg, hlast (by omega)⟩⟩ <;> omega
  · exact ⟨.inl rfl, Nat.zero_le _, by simp [advance_zero], fun h => absurd rfl h⟩
  · obtain ⟨-, hle, hmove, hlast⟩ := advanceDown_spec n.toNat hi
    rw [advance_of_pos f hpos]
    dsimp only
    refine ⟨?_, ?_, ?_, fun h => .inl ⟨hpos, hlast (by omega)⟩⟩ <;> omega

/-! ## Runs of a file list -/

variable (listing : CStr → List FileInfo) (maxFilenameLength : Nat)

/-- The constructor leaves the first entry selected and in view, and counts the listing. -/
theorem create_ok {command dir : BufStr} {nf : UInt32} {f : FilesItem}
    (h : create listing maxFilenameLength command dir nf = .ok f) :
    f.firstFileVisible = 0 ∧ f.currentSelectedFile = 0 ∧ f.displayLines = nf ∧
      f.totalFiles = UInt32.ofNat (listing f.currentDirectory).length := by
  cases dir with
  | copy d => cases h; exact ⟨rfl, rfl, rfl, rfl⟩
  | pastEnd => cases h

/-- The calls `Menu` makes on a file list that move it: `Enter` and `Advance`. -/
inductive FilesCall
  | enter (forward : Bool)
  | advance (nCounts : Int)

def FilesCall.apply : FilesCall → FilesItem → FilesItem
  | .enter b, f => f.enter b
  | .advance n, f => (f.advance n).1

theorem FilesCall.apply_eq (c : FilesCall) (f : FilesItem) : ∃ s v, c.apply f =
    { f with currentSelectedFile := s, firstFileVisible := v } := by
  cases c with
  | enter b => cases b <;> exact ⟨_, _, rfl⟩
  | advance n => exact advance_eq f n

/-- The file lists a constructor and a sequence of calls produce. -/
inductive FilesReachable : FilesItem → Prop
  | create (command dir : BufStr) (nf : UInt32) {f : FilesItem} :
    create listing maxFilenameLength command dir nf = .ok f → FilesReachable f
  | step (c : FilesCall) {f : FilesItem} : FilesReachable f → FilesReachable (c.apply f)

/-- On every run over a listing with an entry, shown on at least one line, the selection
is an entry on one of the lines shown. -/
theorem windowInv_reachable {f : FilesItem} (h : FilesReachable listing maxFilenameLength f)
    (hT : 0 < f.totalFiles.toNat) (hL : 0 < f.displayLines.toNat) : WindowInv f := by
  induction h with
  | create c d nf hc =>
    obtain ⟨h0, h1, -, -⟩ := create_ok listing maxFilenameLength hc
    refine ⟨?_, ?_, ?_, ?_⟩ <;> simp only [h0, h1, UInt32.toNat_zero] <;> omega
  | step c _ ih =>
    obtain ⟨s, v, e⟩ := c.apply_eq _
    rw [e] at hT hL
    cases c with
    | enter b => exact windowInv_enter hT hL b
    | advance n => exact windowInv_advance (ih hT hL) n

/-- A run moves only the selection and the view: the directory and the count the
constructor made stay. -/
theorem reachable_totalFiles {f : FilesItem} (h : FilesReachable listing maxFilenameLength f) :
    f.totalFiles = UInt32.ofNat (listing f.currentDirectory).length := by
  induction h with
  | create c d nf hc => exact (create_ok listing maxFilenameLength hc).2.2.2
  | step c _ ih =>
    obtain ⟨s, v, e⟩ := c.apply_eq _
    rw [e]
    exact ih

/-- **Scrolling a file list.** On every run of a file list over a listing with an entry,
shown on at least one line, the selection is an entry on one of the lines shown, and
`Advance(n)` is exact: it returns counts that are none or of the sign of `n`, at most as
many, moves the selection by the counts it used, and returns counts only with the selection
at the end of the list in the direction of travel. -/
theorem reachable_advance_exact {f : FilesItem} (h : FilesReachable listing maxFilenameLength f)
    (hT : 0 < f.totalFiles.toNat) (hL : 0 < f.displayLines.toNat) (n : Int) :
    WindowInv f ∧
      ((f.advance n).2 = 0 ∨ (0 < (f.advance n).2 ∧ 0 < n) ∨ ((f.advance n).2 < 0 ∧ n < 0)) ∧
      (f.advance n).2.natAbs ≤ n.natAbs ∧
      ((f.advance n).1.currentSelectedFile.toNat : Int) =
        f.currentSelectedFile.toNat + (n - (f.advance n).2) ∧
      ((f.advance n).2 ≠ 0 →
        (0 < n ∧ (f.advance n).1.currentSelectedFile.toNat + 1 = f.totalFiles.toNat) ∨
        (n < 0 ∧ (f.advance n).1.currentSelectedFile.toNat = 0)) :=
  have hi := windowInv_reachable listing maxFilenameLength h hT hL
  ⟨hi, advance_law hi n⟩

/-- A directory of three files. -/
def threeFiles : CStr → List FileInfo :=
  fun _ => [⟨"a.g".toList, false⟩, ⟨"b.g".toList, false⟩, ⟨"c.g".toList, false⟩]

/-- Two lines over three files, the second entry selected: a scroll by 5 stops at the last
entry and returns the 4 counts it could not use. -/
theorem scroll_past_three_files : ∃ f, FilesReachable threeFiles 100 f ∧
    f.currentSelectedFile.toNat = 1 ∧ (f.advance 5).2 = 4 ∧
    (0 < f.totalFiles.toNat ∧ 0 < f.displayLines.toNat) ∧
    WindowInv f ∧
      ((f.advance 5).2 = 0 ∨ (0 < (f.advance 5).2 ∧ 0 < (5 : Int)) ∨
        ((f.advance 5).2 < 0 ∧ (5 : Int) < 0)) ∧
      (f.advance 5).2.natAbs ≤ (5 : Int).natAbs ∧
      ((f.advance 5).1.currentSelectedFile.toNat : Int) =
        f.currentSelectedFile.toNat + (5 - (f.advance 5).2) ∧
      ((f.advance 5).2 ≠ 0 →
        (0 < (5 : Int) ∧ (f.advance 5).1.currentSelectedFile.toNat + 1 = f.totalFiles.toNat) ∨
        ((5 : Int) < 0 ∧ (f.advance 5).1.currentSelectedFile.toNat = 0)) := by
  have h₀ := @FilesReachable.create threeFiles 100 (.copy "M32 #0".toList) (.copy "/gcodes".toList) 2
    _ rfl
  have h₁ := @FilesReachable.step threeFiles 100 (.advance 1) _ h₀
  exact ⟨_, h₁, by decide, by decide, ⟨by decide, by decide⟩,
    reachable_advance_exact threeFiles 100 h₁ (by decide) (by decide) 5⟩

/-! ## An empty listing -/

/-- With no entry counted, the first loop stops only when the selection wraps. -/
theorem advanceDown_empty : ∀ (n : Nat) {f : FilesItem}, f.totalFiles = 0 →
    f.currentSelectedFile.toNat + n < 2 ^ 32 →
    (f.advanceDown n).2 = 0 ∧
      (f.advanceDown n).1.currentSelectedFile.toNat = f.currentSelectedFile.toNat + n
  | 0, _, _, _ => ⟨rfl, rfl⟩
  | n + 1, f, hT, hn => by
    have hsel : (f.currentSelectedFile + 1).toNat = f.currentSelectedFile.toNat + 1 := by
      rw [u32_toNat_add, u32_toNat_one]; omega
    rw [advanceDown_succ, if_neg (by rw [hT, u32_eq_iff, hsel]; exact (Nat.succ_ne_zero _).symm)]
    obtain ⟨v, hv⟩ := stepDown_eq f
    have ih := advanceDown_empty n (f := f.stepDown) (by rw [hv]; exact hT)
      (by rw [hv]; dsimp only; omega)
    rw [hv] at ih ⊢
    exact ⟨ih.1, by rw [ih.2]; dsimp only; omega⟩

/-- **An empty listing does not stop the selection.** When `EnterDirectory` counted no
entry, `Advance(n)` finds no last entry to stop at: it uses all `n` counts, returns 0 and
moves the selection `n` entries past the end; and `Enter(false)` selects entry `2^32 - 1`. -/
theorem advance_on_empty_listing (f : FilesItem) (hT : f.totalFiles = 0) {n : Nat}
    (hn : f.currentSelectedFile.toNat + n < 2 ^ 32) :
    (f.advance n).2 = 0 ∧
      (f.advance n).1.currentSelectedFile.toNat = f.currentSelectedFile.toNat + n ∧
      (f.enter false).currentSelectedFile.toNat = 2 ^ 32 - 1 := by
  have henter : (f.enter false).currentSelectedFile.toNat = 2 ^ 32 - 1 := by
    have h := u32_toNat_sub f.totalFiles 1
    have h0 : f.totalFiles.toNat = 0 := by rw [hT, UInt32.toNat_zero]
    rw [u32_toNat_one, h0] at h
    exact h.trans (by omega)
  rcases Nat.eq_zero_or_pos n with rfl | hpos
  · exact ⟨rfl, rfl, henter⟩
  · obtain ⟨h0, hsel⟩ := advanceDown_empty n hT hn
    rw [advance_of_pos f (by omega), Int.toNat_ofNat]
    exact ⟨by rw [h0]; rfl, hsel, henter⟩

/-- A file list over an empty directory, after its constructor: one push of the encoder
selects entry 1 and is used up. -/
theorem advance_on_empty_directory :
    ∃ f, create (fun _ => []) 100 (.copy "M32 #0".toList) (.copy "/gcodes".toList) 4 = .ok f ∧
      f.totalFiles = 0 ∧ f.currentSelectedFile.toNat + 1 < 2 ^ 32 ∧
      ((f.advance (1 : Nat)).2 = 0 ∧
        (f.advance (1 : Nat)).1.currentSelectedFile.toNat = f.currentSelectedFile.toNat + 1 ∧
        (f.enter false).currentSelectedFile.toNat = 2 ^ 32 - 1) :=
  ⟨_, rfl, rfl, by decide, advance_on_empty_listing _ rfl (by decide)⟩

/-! ## `Draw` and the directory scans -/

/-- A line `Draw` writes: the entry it prints and whether it has the `>` marker, or `none`
for a line it only clears. -/
abbrev DrawLine := Option (Bool × FileInfo)

/-- The line of `Draw`'s loop with counter `i` and entry `e`: printed when the count says
there is an entry there, with the marker on the selected one; `i + m_uFirstFileVisible` is
an `unsigned int` sum. -/
def drawLine (f : FilesItem) (highlight : Bool) (i : UInt8) (e : FileInfo) : DrawLine :=
  if f.totalFiles > i.toUInt32 + f.firstFileVisible then
    some (highlight && f.currentSelectedFile == i.toUInt32 + f.firstFileVisible, e)
  else none

/-- The `for` loop of `Draw` from the `uint8_t` line counter `i`, over the entry
`oFileInfo` holds and those `FindNext` delivers after it: it stops when the counter reaches
`m_uDisplayLines` or `FindNext` fails. -/
def drawLoop (f : FilesItem) (highlight : Bool) : UInt8 → List FileInfo → List DrawLine
  | _, [] => []
  | i, e :: es =>
    if i.toNat < f.displayLines.toNat then
      f.drawLine highlight i e :: f.drawLoop highlight (i + 1) es
    else []

/-- The entry the seek loop of `Draw` stops at in a listing of `len ≥ 1` entries:
`m_uFirstFileVisible`, compared as an `int`, or the last entry. -/
def drawStart (first : UInt32) (len : Nat) : Nat :=
  if first.toNat < 2 ^ 31 then min first.toNat (len - 1) else 0

/-- `Draw(highlight)`: the lines it writes. On an empty listing `FindFirst` fails, and the
one line the loop writes reads the unset `oFileInfo` if the count says it holds an entry. -/
def draw (f : FilesItem) (highlight : Bool) : Except MenuFault (List DrawLine) :=
  match listing f.currentDirectory with
  | [] =>
    if 0 < f.displayLines.toNat then
      if f.totalFiles > f.firstFileVisible then .error .unsetFileInfo else .ok [none]
    else .ok []
  | entries =>
    .ok (f.drawLoop highlight 0 (entries.drop (drawStart f.firstFileVisible entries.length)))

theorem draw_of_ne_nil {f : FilesItem} (highlight : Bool) (h : listing f.currentDirectory ≠ []) :
    f.draw listing highlight = .ok (f.drawLoop highlight 0 ((listing f.currentDirectory).drop
      (drawStart f.firstFileVisible (listing f.currentDirectory).length))) := by
  unfold draw
  split
  · contradiction
  · rfl

/-- The counter after `k` more lines. -/
theorem add_ofNat_succ (i : UInt8) (k : Nat) : i + 1 + UInt8.ofNat k = i + UInt8.ofNat (k + 1) :=
  UInt8.toNat.inj (by simp only [u8_toNat_add, u8_toNat_ofNat, u8_toNat_one]; omega)

theorem add_ofNat_zero (i : UInt8) : i + UInt8.ofNat 0 = i :=
  UInt8.toNat.inj (by rw [u8_toNat_add, u8_toNat_ofNat]; exact Nat.mod_eq_of_lt i.toBitVec.isLt)

/-- With fewer than 256 lines the counter does not wrap: line `k` from counter `i` is the
entry `k` further on, while `i + k` is a line of the display. -/
theorem drawLoop_getElem?_of_lt (f : FilesItem) (highlight : Bool)
    (hL : f.displayLines.toNat < 2 ^ 8) : ∀ (es : List FileInfo) (i : UInt8) (k : Nat),
    (f.drawLoop highlight i es)[k]? =
      if i.toNat + k < f.displayLines.toNat then
        es[k]?.map (f.drawLine highlight (i + UInt8.ofNat k))
      else none
  | [], i, k => by split <;> rfl
  | e :: es, i, k => by
    rw [drawLoop]
    split <;> rename_i hi
    · cases k with
      | zero => simp only [hi, if_true, Nat.add_zero, List.getElem?_cons_zero, Option.map_some',
          add_ofNat_zero]
      | succ k =>
        have hi1 : (i + 1).toNat = i.toNat + 1 := by
          rw [u8_toNat_add, u8_toNat_one]; omega
        simp only [List.getElem?_cons_succ, hi1, add_ofNat_succ,
          drawLoop_getElem?_of_lt f highlight hL es (i + 1) k,
          show i.toNat + 1 + k = i.toNat + (k + 1) by omega]
    · rw [if_neg (by omega)]; rfl

/-- With 256 lines or more the `uint8_t` counter is always below `m_uDisplayLines`: the
loop writes a line for every entry left, and the counter wraps. -/
theorem drawLoop_getElem?_of_le (f : FilesItem) (highlight : Bool)
    (hL : 2 ^ 8 ≤ f.displayLines.toNat) : ∀ (es : List FileInfo) (i : UInt8) (k : Nat),
    (f.drawLoop highlight i es)[k]? = es[k]?.map (f.drawLine highlight (i + UInt8.ofNat k))
  | [], _, _ => rfl
  | e :: es, i, k => by
    have : i.toNat < 2 ^ 8 := i.toBitVec.isLt
    rw [drawLoop, if_pos (by omega)]
    cases k with
    | zero =>
      rw [List.getElem?_cons_zero, List.getElem?_cons_zero, Option.map_some', add_ofNat_zero]
    | succ k =>
      rw [List.getElem?_cons_succ, drawLoop_getElem?_of_le f highlight hL es (i + 1) k,
        add_ofNat_succ, List.getElem?_cons_succ]

/-- `Select`'s scan stops at the selected entry when there is one. -/
theorem scanEntry_of_lt : ∀ (entries : List FileInfo) {k : Nat}, k < entries.length →
    scanEntry entries k = entries[k]?
  | [], _, h => absurd h (Nat.not_lt_zero _)
  | e :: es, k, h => by
    cases k with
    | zero => simp [scanEntry]
    | succ k =>
      rw [scanEntry, if_neg (Nat.succ_ne_zero k), Nat.add_sub_cancel,
        scanEntry_of_lt es (Nat.lt_of_succ_lt_succ h), List.getElem?_cons_succ,
        List.getElem?_eq_getElem (Nat.lt_of_succ_lt_succ h)]
      rfl

/-- Line `k` of `Draw`'s output on a view whose first line is `first < 2^31`: the entry at
`first + k`, printed while `k` is a line of the display and `first + k` an entry. -/
theorem draw_getElem? {f : FilesItem} (hi : WindowInv f)
    (hT : f.totalFiles.toNat = (listing f.currentDirectory).length)
    (hfirst : f.firstFileVisible.toNat < 2 ^ 31) (highlight : Bool) :
    f.draw listing highlight = .ok (f.drawLoop highlight 0
      ((listing f.currentDirectory).drop f.firstFileVisible.toNat)) := by
  have := hi.first_le; have := hi.lt_total
  rw [draw_of_ne_nil listing highlight (List.ne_nil_of_length_pos (by omega)), drawStart,
    if_pos hfirst, Nat.min_eq_left (by omega)]

/-- The line for counter value `j` on a view is printed, and has the marker exactly for the
selected entry, while `first + j` is an entry. -/
theorem drawLine_of_lt {f : FilesItem} (e : FileInfo) {i : UInt8}
    (hfirst : f.firstFileVisible.toNat < 2 ^ 31)
    (hj : f.firstFileVisible.toNat + i.toNat < f.totalFiles.toNat) :
    f.drawLine true i e =
      some (decide (f.currentSelectedFile.toNat = f.firstFileVisible.toNat + i.toNat), e) := by
  have hi8 : i.toNat < 2 ^ 8 := i.toBitVec.isLt
  have hsum : (i.toUInt32 + f.firstFileVisible).toNat = f.firstFileVisible.toNat + i.toNat := by
    rw [u32_toNat_add, u8_toNat_toUInt32]; omega
  rw [drawLine, if_pos (by rw [gt_iff_lt, u32_lt_iff, hsum]; exact hj)]
  simp only [Bool.true_and, beq_eq_decide, u32_eq_iff, hsum]

/-- **`Draw` and `Select` agree.** On a view with fewer than 256 lines, a line of `Draw`
has the marker exactly when it is line `sel - first`, and it shows the entry `Select`'s
scan stops at. -/
theorem draw_marks_selected {f : FilesItem} (hi : WindowInv f)
    (hT : f.totalFiles.toNat = (listing f.currentDirectory).length)
    (hfirst : f.firstFileVisible.toNat < 2 ^ 31) (hL : f.displayLines.toNat < 2 ^ 8) :
    ∃ lines, f.draw listing true = .ok lines ∧
      ∀ k e, lines[k]? = some (some (true, e)) ↔
        f.firstFileVisible.toNat + k = f.currentSelectedFile.toNat ∧
          scanEntry (listing f.currentDirectory) f.currentSelectedFile.toNat = some e := by
  have := hi.first_le; have := hi.lt_first_add; have := hi.lt_total
  refine ⟨_, draw_getElem? listing hi hT hfirst true, fun k e => ?_⟩
  rw [drawLoop_getElem?_of_lt f true hL, scanEntry_of_lt _ (by omega), List.getElem?_drop,
    show (0 : UInt8).toNat = 0 from rfl, Nat.zero_add]
  by_cases hk : k < f.displayLines.toNat
  · have hj : ((0 : UInt8) + UInt8.ofNat k).toNat = k := by
      rw [u8_toNat_add, u8_toNat_ofNat, show (0 : UInt8).toNat = 0 from rfl]; omega
    rw [if_pos hk]
    cases he : (listing f.currentDirectory)[f.firstFileVisible.toNat + k]? with
    | none =>
      refine ⟨fun h => (nomatch h), fun ⟨hs, hse⟩ => ?_⟩
      rw [← hs, he] at hse
      cases hse
    | some e' =>
      have hlt := (List.getElem?_eq_some.1 he).1
      rw [Option.map_some', drawLine_of_lt e' hfirst (by rw [hj]; omega), hj]
      simp only [Option.some.injEq, Prod.mk.injEq, decide_eq_true_eq,
        @eq_comm _ f.currentSelectedFile.toNat]
      refine and_congr_right fun hs => ?_
      rw [← hs, he, Option.some.injEq]
  · rw [if_neg hk]
    exact ⟨fun h => (nomatch h), fun ⟨hs, _⟩ => absurd (by omega) hk⟩

/-- With 256 lines or more `Draw`'s `uint8_t` line counter wraps: on a view whose selection
is within 256 lines of the first line, the line 256 further down has the marker too, on
the entry 256 after the selected one. -/
theorem draw_marks_past_wrap {f : FilesItem} (hi : WindowInv f)
    (hT : f.totalFiles.toNat = (listing f.currentDirectory).length)
    (hfirst : f.firstFileVisible.toNat < 2 ^ 31) (hL : 2 ^ 8 ≤ f.displayLines.toNat)
    (hsel : f.currentSelectedFile.toNat < f.firstFileVisible.toNat + 2 ^ 8) {e : FileInfo}
    (he : (listing f.currentDirectory)[f.currentSelectedFile.toNat + 2 ^ 8]? = some e) :
    ∃ lines, f.draw listing true = .ok lines ∧
      lines[f.currentSelectedFile.toNat - f.firstFileVisible.toNat + 2 ^ 8]? =
        some (some (true, e)) := by
  have := hi.first_le; have := hi.lt_total
  have hj : ((0 : UInt8) + UInt8.ofNat
      (f.currentSelectedFile.toNat - f.firstFileVisible.toNat + 2 ^ 8)).toNat =
      f.currentSelectedFile.toNat - f.firstFileVisible.toNat := by
    rw [u8_toNat_add, u8_toNat_ofNat, show (0 : UInt8).toNat = 0 from rfl]; omega
  refine ⟨_, draw_getElem? listing hi hT hfirst true, ?_⟩
  rw [drawLoop_getElem?_of_le f true hL, List.getElem?_drop,
    show f.firstFileVisible.toNat + (f.currentSelectedFile.toNat - f.firstFileVisible.toNat + 2 ^ 8)
      = f.currentSelectedFile.toNat + 2 ^ 8 by omega, he, Option.map_some',
    drawLine_of_lt e hfirst (by rw [hj]; omega), hj,
    show f.firstFileVisible.toNat + (f.currentSelectedFile.toNat - f.firstFileVisible.toNat)
      = f.currentSelectedFile.toNat by omega]
  simp

/-- **What `Draw` marks is what `Select` runs.** On every run of a file list over a listing
of at least one and fewer than `2^31` entries, shown on 1 to 255 lines, `Draw` puts the
marker on line `k` exactly when `k` is the line of the selection, and that line shows the
entry `Select`'s scan stops at. -/
theorem reachable_draw_marks_selected {f : FilesItem}
    (h : FilesReachable listing maxFilenameLength f)
    (hT : 0 < (listing f.currentDirectory).length)
    (hT' : (listing f.currentDirectory).length < 2 ^ 31)
    (hL : 0 < f.displayLines.toNat) (hL' : f.displayLines.toNat < 2 ^ 8) :
    ∃ lines, f.draw listing true = .ok lines ∧
      ∀ k e, lines[k]? = some (some (true, e)) ↔
        f.firstFileVisible.toNat + k = f.currentSelectedFile.toNat ∧
          scanEntry (listing f.currentDirectory) f.currentSelectedFile.toNat = some e := by
  have hT₀ : f.totalFiles.toNat = (listing f.currentDirectory).length := by
    rw [reachable_totalFiles listing maxFilenameLength h]
    exact Nat.mod_eq_of_lt (by omega)
  have hi := windowInv_reachable listing maxFilenameLength h (by omega) hL
  have := hi.first_le; have := hi.lt_total
  exact draw_marks_selected listing hi hT₀ (by omega) hL'

/-- After a scroll by 1 over three files on two lines, `Draw` marks line 1, with `b.g`. -/
theorem draw_three_files : ∃ f, FilesReachable threeFiles 100 f ∧
    (0 < (threeFiles f.currentDirectory).length ∧
      (threeFiles f.currentDirectory).length < 2 ^ 31 ∧
      0 < f.displayLines.toNat ∧ f.displayLines.toNat < 2 ^ 8) ∧
    f.firstFileVisible.toNat + 1 = f.currentSelectedFile.toNat ∧
    scanEntry (threeFiles f.currentDirectory) f.currentSelectedFile.toNat =
      some ⟨"b.g".toList, false⟩ ∧
    ∃ lines, f.draw threeFiles true = .ok lines ∧
      ∀ k e, lines[k]? = some (some (true, e)) ↔
        f.firstFileVisible.toNat + k = f.currentSelectedFile.toNat ∧
          scanEntry (threeFiles f.currentDirectory) f.currentSelectedFile.toNat = some e := by
  have h₀ := @FilesReachable.create threeFiles 100 (.copy "M32 #0".toList) (.copy "/gcodes".toList) 2
    _ rfl
  have h₁ := @FilesReachable.step threeFiles 100 (.advance 1) _ h₀
  exact ⟨_, h₁, ⟨by decide, by decide, by decide, by decide⟩, by decide, by decide,
    reachable_draw_marks_selected threeFiles 100 h₁ (by decide) (by decide) (by decide)
      (by decide)⟩

/-! ## `Select` -/

/-- The index `StringContains` reports for `#0` after a prefix without `#`: just past it. -/
theorem stringContains_placeholder {pre : CStr} (hpre : '#' ∉ pre) (post : CStr) :
    stringContains (pre ++ '#' :: '0' :: post) "#0".toList = pre.length + 2 := by
  unfold stringContains
  rw [show "#0".toList = ['#', '0'] from rfl,
    stringContains.go_append_of_not_mem '#' ['0'] hpre, Nat.zero_add]
  simp [stringContains.go]
  omega

/-- **`Select` on a file.** For an action with `#0` after a prefix without `#` that fits
`m_acCommand`, `Select` on a file entry builds the prefix, the file name in double quotes,
and nothing of the action after `#0`; when the prefix and the name do not fit, the copy of
the name runs past the end of `m_acCommand`. -/
theorem select_file_placeholder (f : FilesItem) {e : FileInfo} (pre post : CStr)
    (hscan : scanEntry (listing f.currentDirectory) f.currentSelectedFile.toNat = some e)
    (hfile : e.isDirectory = false) (hcmd : f.command = .copy (pre ++ '#' :: '0' :: post))
    (hpre : '#' ∉ pre) (hfits : pre.length + post.length + 3 ≤ maxFilenameLength + 20) :
    f.select listing maxFilenameLength =
      if pre.length + e.fileName.length + 3 ≤ maxFilenameLength + 20 then
        .ok ({ f with acCommand := pre ++ [quoteChar] ++ e.fileName ++ [quoteChar] },
          some (pre ++ [quoteChar] ++ e.fileName ++ [quoteChar]))
      else .error .overflow := by
  have hlen : (pre ++ '#' :: '0' :: post).length = pre.length + post.length + 2 := by
    simp only [List.length_append, List.length_cons]; omega
  have hj : ((pre.length : Int) + 2).toNat - 2 = pre.length := by omega
  simp only [select, hscan, hfile, hcmd, BufStr.read, Bool.false_eq_true, if_false, bind,
    Except.bind, hlen, stringContains_placeholder hpre]
  rw [if_neg (by omega), if_neg (by omega), hj, List.take_left' rfl]
  split <;> split <;> first | rfl | omega

/-- The action of the menu header's example, `M32 #0|return|return|menu`, on the file
`x.g`: `Select` builds `M32 "x.g"`. -/
theorem select_header_example :
    ∃ f, create (fun _ => [⟨"x.g".toList, false⟩]) 100
        (.copy "M32 #0|return|return|menu".toList) (.copy "/gcodes".toList) 4 = .ok f ∧
      scanEntry [⟨"x.g".toList, false⟩] f.currentSelectedFile.toNat = some ⟨"x.g".toList, false⟩ ∧
      f.command = .copy ("M32 ".toList ++ '#' :: '0' :: "|return|return|menu".toList) ∧
      '#' ∉ "M32 ".toList ∧ ("M32 ".toList.length + "|return|return|menu".toList.length + 3 ≤ 100 + 20) ∧
      f.select (fun _ => [⟨"x.g".toList, false⟩]) 100 =
        if "M32 ".toList.length + "x.g".toList.length + 3 ≤ 100 + 20 then
          .ok ({ f with acCommand := "M32 ".toList ++ [quoteChar] ++ "x.g".toList ++ [quoteChar] },
            some ("M32 ".toList ++ [quoteChar] ++ "x.g".toList ++ [quoteChar]))
        else .error .overflow := by
  refine ⟨_, rfl, rfl, rfl, by decide, by decide, ?_⟩
  refine @select_file_placeholder _ _ _ ⟨"x.g".toList, false⟩ "M32 ".toList
    "|return|return|menu".toList ?_ ?_ ?_ ?_ ?_ <;> first | rfl | decide

end FilesItem

end Display
