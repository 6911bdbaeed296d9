import RepRapFirmware.Tmc2660.DriverState

/-!
# The load window and the SPI interrupt

Inside the stall window, the SPI interrupt's `TransferDone` widens the pair
`minSgLoadRegister`, `maxSgLoadRegister` to each StallGuard load reading it decodes.
`AppendDriverStatus` prints the pair and then resets it with `ResetLoadRegisters`:

    minSgLoadRegister = 1023;
    maxSgLoadRegister = 0;

with interrupts enabled throughout. Here `AppendDriverStatus` is cut at the points where
the interrupt can land: after its reads, which fix the text it prints (`ReportPc.printed`),
and between the two stores (`ReportPc.minReset`). Two ghosts record what the pair should
be: `samples`, the readings recorded since the last completed reset, and `reports`, each
finished report with the pair it printed and the readings it had to cover.

**What is proved.** `LoadInv` says that the pair is the least and greatest reading since the
last completed reset, `(1023, 0)` when there is none (`loadSpan`), and that every finished
report printed a range holding each reading it had to cover. `loadInv_next`: every step
keeps it, except an interrupt inside `AppendDriverStatus`; so it holds along every run in
which none lands there (`loadInv_quiet`), and then the pair has `min ≤ max` exactly when a
reading was recorded (`quiet_reports_cover_loads`). `appendDriverStatus_race_mixes_load` replays a run
with one interrupt between the two stores and one after: the report printed "not available"
although a reading was recorded before its reset, and the next report would print a range
whose minimum is that older reading.
-/

set_option autoImplicit false

namespace Tmc2660

open TmcDriverState

/-- The StallGuard load reading `TransferDone` records, if any: with the drivers powered and
the step interval inside the stall window, bits 19..10 of the decoded status. -/
def TmcDriverState.loadSample (d : TmcDriverState) (driversPowered : Bool)
    (spiDataIn interval : Word) : Option Word :=
  if driversPowered ∧ ¬(interval = 0 ∨ interval > d.maxStallStepInterval) then
    some ((d.transferStatus spiDataIn interval >>> tmcRrSgLoadShift) &&& 1023)
  else none

/-- The least and the greatest of the readings, `(1023, 0)` for none: what the pair should
hold after `ResetLoadRegisters` and the readings. -/
def loadSpan (samples : List Word) : Nat × Nat :=
  (samples.foldr (fun x m => min x.toNat m) 1023, samples.foldr (fun x m => max x.toNat m) 0)

@[simp] theorem loadSpan_nil : loadSpan [] = (1023, 0) := rfl

@[simp] theorem loadSpan_cons (x : Word) (l : List Word) :
    loadSpan (x :: l) = (min x.toNat (loadSpan l).1, max x.toNat (loadSpan l).2) := rfl

/-- Every reading lies within the span. -/
theorem loadSpan_covers {l : List Word} {x : Word} (hx : x ∈ l) :
    (loadSpan l).1 ≤ x.toNat ∧ x.toNat ≤ (loadSpan l).2 := by
  induction l with
  | nil => cases hx
  | cons y l ih =>
    simp only [loadSpan_cons]
    rcases List.mem_cons.mp hx with rfl | hx
    · omega
    · have := ih hx; omega

/-- Readings of at most 1023 span a nonempty range exactly when there is one. -/
theorem loadSpan_le_iff {l : List Word} (h : ∀ x ∈ l, x.toNat ≤ 1023) :
    (loadSpan l).1 ≤ (loadSpan l).2 ↔ l ≠ [] := by
  cases l with
  | nil => simp
  | cons x l =>
    have := loadSpan_covers (List.mem_cons_self x l)
    simp only [ne_eq, reduceCtorEq, not_false_eq_true, iff_true]
    omega

theorem loadSample_le {d : TmcDriverState} {p : Bool} {w i x : Word}
    (h : d.loadSample p w i = some x) : x.toNat ≤ 1023 := by
  unfold loadSample at h
  split at h
  · cases h
    rw [BitVec.toNat_and]
    exact Nat.and_le_right
  · cases h

/-- Widening the pair to a reading takes the least and greatest with it. -/
theorem updateLoadWindow_toNat (d : TmcDriverState) (x : Word) :
    (d.updateLoadWindow x).minSgLoadRegister.toNat = min x.toNat d.minSgLoadRegister.toNat ∧
      (d.updateLoadWindow x).maxSgLoadRegister.toNat = max x.toNat d.maxSgLoadRegister.toNat := by
  by_cases h1 : x < d.minSgLoadRegister <;> by_cases h2 : x > d.maxSgLoadRegister <;>
    simp only [updateLoadWindow, h1, h2, if_true, if_false] <;>
    simp only [BitVec.lt_def, gt_iff_lt] at h1 h2 <;> omega

/-- `TransferDone` moves the pair exactly as the reading it records says. -/
theorem transferDone_window (d : TmcDriverState) (p : Bool) (w i : Word) :
    ((d.transferDone p w i).minSgLoadRegister.toNat, (d.transferDone p w i).maxSgLoadRegister.toNat) =
      match d.loadSample p w i with
      | none => (d.minSgLoadRegister.toNat, d.maxSgLoadRegister.toNat)
      | some x => (min x.toNat d.minSgLoadRegister.toNat, max x.toNat d.maxSgLoadRegister.toNat) := by
  unfold TmcDriverState.loadSample transferDone
  cases p
  · rfl
  · by_cases hw : i = 0 ∨ i > d.maxStallStepInterval
    · rw [if_pos rfl, if_neg (fun h => h.2 hw)]
      dsimp only
      rw [if_pos hw]
    · rw [if_pos rfl, if_pos ⟨rfl, hw⟩]
      dsimp only
      rw [if_neg hw, (updateLoadWindow_toNat _ _).1, (updateLoadWindow_toNat _ _).2]

/-! ## The interleaving -/

/-- Where the main thread is in `AppendDriverStatus`: not in it; past its reads, holding the
pair `(mn, mx)` it read and prints; or past the store `minSgLoadRegister = 1023`, still
holding the printed pair. -/
inductive ReportPc
  | idle
  | printed (mn mx : Word)
  | minReset (mn mx : Word)
  deriving DecidableEq

/-- One driver's record, the main thread's place in `AppendDriverStatus`, and two ghosts:
the readings recorded since the last completed reset, newest first, and the finished
reports, newest first, each with the pair it printed and the readings it had to cover. -/
structure LoadState where
  drv : TmcDriverState
  pc : ReportPc
  samples : List Word
  reports : List ((Word × Word) × List Word)

/-- `AppendDriverStatus`'s reads (the text it prints is `appendDriverStatus`'s, from the
pair read here), the next of its two stores, or the interrupt's `TransferDone`. -/
inductive LoadEvent
  | appendDriverStatus
  | resume
  | transferDone (driversPowered : Bool) (spiDataIn interval : Word)

namespace LoadState

/-- The state after an event, or `none` when the event cannot happen now. -/
def next (s : LoadState) : LoadEvent → Option LoadState
  | .appendDriverStatus =>
    match s.pc with
    | .idle => some { s with pc := .printed s.drv.minSgLoadRegister s.drv.maxSgLoadRegister }
    | _ => none
  | .resume =>
    match s.pc with
    | .idle => none
    | .printed mn mx =>
      some { s with drv := { s.drv with minSgLoadRegister := 1023 }, pc := .minReset mn mx }
    | .minReset mn mx =>
      some { s with drv := { s.drv with maxSgLoadRegister := 0 }, pc := .idle, samples := [],
                    reports := ((mn, mx), s.samples) :: s.reports }
  | .transferDone p w i =>
    some { s with drv := s.drv.transferDone p w i,
                  samples := (s.drv.loadSample p w i).toList ++ s.samples }

/-- The state after a sequence of events, if each can happen. -/
def run (s : LoadState) : List LoadEvent → Option LoadState
  | [] => some s
  | e :: es => (s.next e).bind (·.run es)

/-- The interrupt lands inside `AppendDriverStatus`. -/
def Interrupts (s : LoadState) : LoadEvent → Prop
  | .transferDone _ _ _ => s.pc ≠ .idle
  | _ => False

/-- The pair, as numbers. -/
def window (s : LoadState) : Nat × Nat :=
  (s.drv.minSgLoadRegister.toNat, s.drv.maxSgLoadRegister.toNat)

end LoadState

/-- The state after `Init`: no report under way, no reading, no report. -/
def LoadState.init (stepClockRate axisNumber pin : Word) : LoadState :=
  ⟨TmcDriverState.init stepClockRate axisNumber pin, .idle, [], []⟩

/-- Every state `Init` and any interleaving can produce. -/
inductive LoadReachable (stepClockRate : Word) : LoadState → Prop
  | init (axisNumber pin : Word) :
    LoadReachable stepClockRate (LoadState.init stepClockRate axisNumber pin)
  | step {s s' : LoadState} (e : LoadEvent) :
    LoadReachable stepClockRate s → s.next e = some s' → LoadReachable stepClockRate s'

/-- The states of the runs in which no interrupt lands inside `AppendDriverStatus`. -/
inductive QuietReachable (stepClockRate : Word) : LoadState → Prop
  | init (axisNumber pin : Word) :
    QuietReachable stepClockRate (LoadState.init stepClockRate axisNumber pin)
  | step {s s' : LoadState} (e : LoadEvent) :
    QuietReachable stepClockRate s → s.next e = some s' → ¬ s.Interrupts e →
      QuietReachable stepClockRate s'

theorem LoadReachable.run {stepClockRate : Word} {s s' : LoadState}
    (h : LoadReachable stepClockRate s) {es : List LoadEvent} (hr : s.run es = some s') :
    LoadReachable stepClockRate s' := by
  induction es generalizing s with
  | nil => cases hr; exact h
  | cons e es ih =>
    simp only [LoadState.run] at hr
    cases he : s.next e with
    | none => simp [he] at hr
    | some s₁ => exact ih (h.step e he) (by simpa [he] using hr)

/-- Without an interrupt, the three steps of `AppendDriverStatus` are the atomic call. -/
theorem run_appendDriverStatus (s : LoadState) (hpc : s.pc = .idle) (reply : String) :
    ∃ s', s.run [.appendDriverStatus, .resume, .resume] = some s' ∧
      s'.drv = (s.drv.appendDriverStatus reply).2 ∧ s'.pc = .idle := by
  obtain ⟨d, pc, samples, reports⟩ := s
  cases hpc
  exact ⟨_, rfl, rfl, rfl⟩

/-! ## The invariant -/

/-- A finished report printed a range holding each reading it had to cover. -/
def Covers (r : (Word × Word) × List Word) : Prop :=
  ∀ x ∈ r.2, r.1.1.toNat ≤ x.toNat ∧ x.toNat ≤ r.1.2.toNat

/-- What the pair must hold where the main thread is: the span of the readings since the
last completed reset, outside the stores of `ResetLoadRegisters`; and once the report has
read the pair, it holds that span. -/
def ReportPc.Holds (pc : ReportPc) (window : Nat × Nat) (minReg : Nat) (span : Nat × Nat) :
    Prop :=
  match pc with
  | .idle => window = span
  | .printed mn mx => window = span ∧ (mn.toNat, mx.toNat) = span
  | .minReset mn mx => minReg = 1023 ∧ (mn.toNat, mx.toNat) = span

/-- The load invariant: the readings are 10-bit, every finished report covered its
readings, and the pair is where the main thread's place says. -/
structure LoadInv (s : LoadState) : Prop where
  samples_le : ∀ x ∈ s.samples, x.toNat ≤ 1023
  reports_cover : ∀ r ∈ s.reports, Covers r
  holds : s.pc.Holds s.window s.drv.minSgLoadRegister.toNat (loadSpan s.samples)

theorem loadInv_init (stepClockRate axisNumber pin : Word) :
    LoadInv (LoadState.init stepClockRate axisNumber pin) :=
  ⟨fun _ h => (nomatch h), fun _ h => (nomatch h), rfl⟩

/-- A `TransferDone` outside `AppendDriverStatus` keeps the pair the span of the readings. -/
theorem window_transferDone {s : LoadState} (h : s.window = loadSpan s.samples) (p : Bool)
    (w i : Word) :
    ((s.drv.transferDone p w i).minSgLoadRegister.toNat,
      (s.drv.transferDone p w i).maxSgLoadRegister.toNat) =
      loadSpan ((s.drv.loadSample p w i).toList ++ s.samples) := by
  rw [transferDone_window]
  cases s.drv.loadSample p w i with
  | none => exact h
  | some x =>
    simp only [LoadState.window] at h
    simp only [Option.toList_some, List.singleton_append, loadSpan_cons, ← h]

/-- Every step keeps the invariant, except an interrupt inside `AppendDriverStatus`. -/
theorem loadInv_next {s s' : LoadState} {e : LoadEvent} (hi : LoadInv s)
    (h : s.next e = some s') (hq : ¬ s.Interrupts e) : LoadInv s' := by
  obtain ⟨hle, hrep, hpc⟩ := hi
  obtain ⟨d, pc, samples, reports⟩ := s
  cases e with
  | appendDriverStatus =>
    cases pc <;> simp only [LoadState.next, Option.some.injEq, reduceCtorEq] at h
    subst h
    exact ⟨hle, hrep, hpc, hpc⟩
  | resume =>
    cases pc <;> simp only [LoadState.next, Option.some.injEq, reduceCtorEq] at h <;> subst h
    case printed mn mx => exact ⟨hle, hrep, rfl, hpc.2⟩
    case minReset mn mx =>
      refine ⟨fun _ h => (nomatch h), fun r hr => ?_, ?_⟩
      · rcases List.mem_cons.mp hr with rfl | hr
        · intro x hx
          have hc := loadSpan_covers hx
          rw [← hpc.2] at hc
          exact hc
        · exact hrep r hr
      · exact Prod.ext hpc.1 rfl
  | transferDone p w i =>
    cases pc
    case idle =>
      simp only [LoadState.next, Option.some.injEq] at h
      subst h
      refine ⟨fun x hx => ?_, hrep, window_transferDone hpc p w i⟩
      rcases List.mem_append.mp hx with hx | hx
      · cases hs : d.loadSample p w i with
        | none => rw [hs] at hx; cases hx
        | some y =>
          rw [hs, Option.toList_some, List.mem_singleton] at hx
          exact hx ▸ loadSample_le hs
      · exact hle x hx
    all_goals exact absurd (by simp [LoadState.Interrupts]) hq

/-- In every run without an interrupt inside `AppendDriverStatus`, the invariant holds. -/
theorem loadInv_quiet {stepClockRate : Word} {s : LoadState}
    (h : QuietReachable stepClockRate s) : LoadInv s := by
  induction h with
  | init axisNumber pin => exact loadInv_init stepClockRate axisNumber pin
  | step e _ hn hq ih => exact loadInv_next ih hn hq

/-- **Reports without the race.** On every run without an interrupt inside
`AppendDriverStatus`, whenever no report is under way the pair is the span of the readings
since the last reset, so `min ≤ max` exactly when there is one; and every finished report
printed a range holding the readings it had to cover. -/
theorem quiet_reports_cover_loads {stepClockRate : Word} {s : LoadState}
    (h : QuietReachable stepClockRate s) (hpc : s.pc = .idle) :
    s.window = loadSpan s.samples ∧
      (s.drv.minSgLoadRegister.toNat ≤ s.drv.maxSgLoadRegister.toNat ↔ s.samples ≠ []) ∧
      ∀ r ∈ s.reports, Covers r := by
  obtain ⟨hle, hrep, hw⟩ := loadInv_quiet h
  rw [hpc] at hw
  refine ⟨hw, ?_, hrep⟩
  have := congrArg Prod.fst hw
  have := congrArg Prod.snd hw
  simp only [LoadState.window] at *
  rw [← loadSpan_le_iff hle]
  omega

/-- The frames of `loadRace` with the report made between them rather than around the
second: the report printed `500/500`, and the pair holds the later reading 600 alone. -/
theorem quiet_report_of_reading : ∃ s, QuietReachable 937500 s ∧ s.pc = .idle ∧
    s.samples = [600] ∧ s.reports = [((500, 500), [500])] ∧
    s.window = loadSpan s.samples ∧
      (s.drv.minSgLoadRegister.toNat ≤ s.drv.maxSgLoadRegister.toNat ↔ s.samples ≠ []) ∧
      ∀ r ∈ s.reports, Covers r := by
  have h₀ : QuietReachable 937500 (LoadState.init 937500 0 0) := .init 0 0
  have h₁ := QuietReachable.step (.transferDone true 0x7D 1000) h₀ rfl fun h => h rfl
  have h₂ := QuietReachable.step .appendDriverStatus h₁ rfl id
  have h₃ := QuietReachable.step .resume h₂ rfl id
  have h₄ := QuietReachable.step .resume h₃ rfl id
  have h₅ := QuietReachable.step (.transferDone true 0x96 1000) h₄ rfl fun h => h rfl
  exact ⟨_, h₅, rfl, rfl, rfl, quiet_reports_cover_loads h₅ rfl⟩

/-! ## The race -/

/-- A report, with two frames decoded around its second store: readings 500 and 600
(frames `0x7D` and `0x96`, i.e. loads `0x1F4` and `0x258` after the byte swap and the
shift by 12), at a step interval of 1000 ticks, inside the stall window of a 937500 Hz
step clock (4687 ticks at 200 steps per second). -/
def loadRace : List LoadEvent :=
  [.appendDriverStatus, .resume, .transferDone true 0x7D 1000, .resume,
   .transferDone true 0x96 1000]

/-- After `loadRace`, the finished report printed "not available" although the reading 500
was recorded before its reset, and the pair holds 500 and 600 while the only reading
since that reset is 600: the next report would print `500/600`. -/
theorem appendDriverStatus_race_mixes_load :
    ∃ s, LoadReachable 937500 s ∧ s.pc = .idle ∧
      s.reports = [((1023, 0), [500])] ∧ ¬ Covers ((1023, 0), [500]) ∧
      s.samples = [600] ∧ s.drv.minSgLoadRegister = 500 ∧ s.drv.maxSgLoadRegister = 600 ∧
      s.window ≠ loadSpan s.samples := by
  obtain ⟨s, hr, hpc, hrep, hs, hmin, hmax⟩ : ∃ s, (LoadState.init 937500 0 0).run loadRace = some s ∧
      s.pc = .idle ∧ s.reports = [((1023, 0), [500])] ∧ s.samples = [600] ∧
      s.drv.minSgLoadRegister = 500 ∧ s.drv.maxSgLoadRegister = 600 :=
    ⟨_, rfl, rfl, rfl, rfl, rfl, rfl⟩
  refine ⟨s, (LoadReachable.init 0 0).run hr, hpc, hrep, fun h => ?_, hs, hmin, hmax, ?_⟩
  · exact absurd (h 500 (List.mem_singleton_self _)).1 (by decide)
  · rw [LoadState.window, hmin, hmax, hs]
    decide

end Tmc2660
