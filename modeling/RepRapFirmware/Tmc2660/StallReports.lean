import RepRapFirmware.Tmc2660.Operations

/-!
# Stall reports

The stall bit `TMC_RR_SG` reaches the main thread through two readers. `ReadLiveStatus`
reports the status `TransferDone` decoded last, and `ReadAccumulatedStatus` reports the
OR of every status decoded since the bits were last cleared. `TransferDone` removes the
bit when the full-step interval is outside `[1, maxStallStepInterval]`, and `Enable(true)`
on a disabled driver clears it in both words.

Here every call is atomic (`DriverOp.apply`), and a run carries the history of what its
calls did to the stall bit (`StallObs`, newest first): the disabled-to-enabled
transitions, every frame `TransferDone` decoded with the drivers powered (its status
before the masking, its interval, and the window bound at that moment), and the
`ReadAccumulatedStatus` calls whose kept bits exclude the stall bit.

**What is proved** (`stall_reports_never_stale`). On every run, a live status with the
stall bit comes from an enabled driver whose most recent decoded frame came after the
last enabling, carried the stall bit and was decoded inside the window
(`LatestFrameStalls`); an accumulated status with the stall bit comes from an enabled
driver with such a frame after the last enabling and after the last clearing read
(`StallSince`). `stallReachable_of_reachable` shows every run of the driver is covered.

What it does not establish: anything about the interleaved `Enable`, which
`Tmc2660.StatusRace` treats.
-/

set_option autoImplicit false

namespace Tmc2660

open TmcDriverState

/-- What a call did to the stall bit. -/
inductive StallObs
  /-- `Enable(true)` on a disabled driver. -/
  | enabled
  /-- `TransferDone` with the drivers powered decoded `status` (before the stall bit is
  masked) at the full-step interval `interval`, with the bound `maxInterval`. -/
  | decoded (status interval maxInterval : Word)
  /-- `ReadAccumulatedStatus` with kept bits that exclude the stall bit. -/
  | cleared
  deriving DecidableEq, Repr

/-- A frame that reports a stall: the stall bit on the wire, and the step interval in
`[1, maxStallStepInterval]` when it was decoded. -/
def StallFrame (status interval maxInterval : Word) : Prop :=
  status &&& tmcRrSg ≠ 0 ∧ 1 ≤ interval ∧ interval ≤ maxInterval

instance (status interval maxInterval : Word) : Decidable (StallFrame status interval maxInterval) :=
  inferInstanceAs (Decidable (_ ∧ _ ∧ _))

/-- The most recent decoded frame of the history came after the last enabling and
reports a stall. -/
def LatestFrameStalls : List StallObs → Prop
  | [] | .enabled :: _ => False
  | .cleared :: log => LatestFrameStalls log
  | .decoded status interval maxInterval :: _ => StallFrame status interval maxInterval

/-- Some frame after the last enabling and after the last clearing read reports a stall. -/
def StallSince : List StallObs → Prop
  | [] | .enabled :: _ | .cleared :: _ => False
  | .decoded status interval maxInterval :: log =>
    StallFrame status interval maxInterval ∨ StallSince log

instance decLatestFrameStalls : DecidablePred LatestFrameStalls
  | [] | .enabled :: _ => isFalse id
  | .cleared :: log => decLatestFrameStalls log
  | .decoded status interval maxInterval :: _ =>
    inferInstanceAs (Decidable (StallFrame status interval maxInterval))

instance decStallSince : DecidablePred StallSince
  | [] | .enabled :: _ | .cleared :: _ => isFalse id
  | .decoded status interval maxInterval :: log =>
    have := decStallSince log
    inferInstanceAs (Decidable (StallFrame status interval maxInterval ∨ StallSince log))

/-- The bits `ReadAccumulatedStatus(bitsToKeep)` keeps: never the stall bit while the
driver is disabled. -/
def keptBits (d : TmcDriverState) (bitsToKeep : Word) : Word :=
  bitsToKeep &&& if d.enabled then 0xFFFFFFFF else ~~~tmcRrSg

/-- The entry a call adds to the history, given the record it runs on. -/
def stallObs : DriverOp → TmcDriverState → Option StallObs
  | .enable true, d => if d.enabled then none else some .enabled
  | .transferDone true spiDataIn interval, d =>
    some (.decoded (byteSwap spiDataIn >>> 12) interval d.maxStallStepInterval)
  | .readAccumulatedStatus bitsToKeep, d =>
    if keptBits d bitsToKeep &&& tmcRrSg = 0 then some .cleared else none
  | _, _ => none

/-- A driver with the history of its calls' effect on the stall bit, newest first. -/
structure StallRun where
  drv : TmcDriverState
  log : List StallObs

namespace StallRun

variable (stepClockRate : Word)

def init (axisNumber pin : Word) : StallRun :=
  ⟨TmcDriverState.init stepClockRate axisNumber pin, []⟩

/-- One atomic call, and its entry in the history. -/
def step (s : StallRun) (op : DriverOp) : StallRun :=
  ⟨op.apply stepClockRate s.drv, (stallObs op s.drv).toList ++ s.log⟩

def run (s : StallRun) (ops : List DriverOp) : StallRun := ops.foldl (step stepClockRate) s

theorem step_of_none {s : StallRun} {op : DriverOp} (h : stallObs op s.drv = none) :
    s.step stepClockRate op = ⟨op.apply stepClockRate s.drv, s.log⟩ := by
  simp only [step, h, Option.toList_none, List.nil_append]

theorem step_of_some {s : StallRun} {op : DriverOp} {o : StallObs} (h : stallObs op s.drv = some o) :
    s.step stepClockRate op = ⟨op.apply stepClockRate s.drv, o :: s.log⟩ := by
  simp only [step, h, Option.toList_some, List.singleton_append]

end StallRun

/-- Every run from `Init`, with its history. -/
inductive StallReachable (stepClockRate : Word) : StallRun → Prop
  | init (axisNumber pin : Word) : StallReachable stepClockRate (StallRun.init stepClockRate axisNumber pin)
  | step {s : StallRun} (op : DriverOp) :
    StallReachable stepClockRate s → StallReachable stepClockRate (s.step stepClockRate op)

section Runs

variable {stepClockRate : Word}

theorem StallReachable.run {s : StallRun} (h : StallReachable stepClockRate s)
    (ops : List DriverOp) : StallReachable stepClockRate (s.run stepClockRate ops) := by
  induction ops generalizing s with
  | nil => exact h
  | cons op ops ih => exact ih (h.step op)

/-- Forgetting the history gives a run of the driver. -/
theorem StallReachable.reachable {s : StallRun} (h : StallReachable stepClockRate s) :
    Reachable stepClockRate s.drv := by
  induction h with
  | init a p => exact .init a p
  | step op _ ih => exact ih.step op

/-- Every run of the driver has a history. -/
theorem stallReachable_of_reachable {d : TmcDriverState} (h : Reachable stepClockRate d) :
    ∃ log, StallReachable stepClockRate ⟨d, log⟩ := by
  induction h with
  | init a p => exact ⟨[], .init a p⟩
  | step op _ ih =>
    obtain ⟨log, hl⟩ := ih
    exact ⟨_, hl.step op⟩

end Runs

/-! ## The stall bit under each call -/

/-- The stall bit is bit 0. -/
theorem and_sg_eq_zero_iff (x : Word) : x &&& tmcRrSg = 0 ↔ x.getLsbD 0 = false := by
  rw [BitVec.toNat_eq, BitVec.toNat_and, show tmcRrSg.toNat = 1 from rfl, Nat.and_one_is_mod,
    show (0 : Word).toNat = 0 from rfl, BitVec.getLsbD, Nat.testBit_zero, decide_eq_false_iff_not]
  omega

theorem and_sg_ne_zero_iff (x : Word) : x &&& tmcRrSg ≠ 0 ↔ x.getLsbD 0 = true := by
  rw [Ne, and_sg_eq_zero_iff, Bool.not_eq_false]

theorem and_not_sg_and_sg (x : Word) : x &&& ~~~tmcRrSg &&& tmcRrSg = 0 := by
  rw [and_sg_eq_zero_iff]
  simp [tmcRrSg]

theorem readAccumulatedStatus_snd (d : TmcDriverState) (bitsToKeep : Word) :
    (d.readAccumulatedStatus bitsToKeep).2 =
      { d with accumulatedStatus := d.accumulatedStatus &&& keptBits d bitsToKeep } := rfl

/-- The calls that write a status word or the enable flag. -/
def DriverOp.WritesStatus : DriverOp → Prop
  | .enable _ | .readAccumulatedStatus _ | .transferDone _ _ _ => True
  | _ => False

theorem setChopConf_status (d : TmcDriverState) (v : Word) :
    (d.setChopConf v).2.lastReadStatus = d.lastReadStatus ∧
      (d.setChopConf v).2.accumulatedStatus = d.accumulatedStatus ∧
      (d.setChopConf v).2.enabled = d.enabled := by
  rcases d.setChopConf_cases v with ⟨-, e⟩ | ⟨-, e⟩ <;> rw [e] <;> exact ⟨rfl, rfl, rfl⟩

/-- The other calls leave both status words and the enable flag alone. -/
theorem DriverOp.apply_status_fields (stepClockRate : Word) {op : DriverOp}
    (h : ¬ op.WritesStatus) (d : TmcDriverState) :
    (op.apply stepClockRate d).lastReadStatus = d.lastReadStatus ∧
      (op.apply stepClockRate d).accumulatedStatus = d.accumulatedStatus ∧
      (op.apply stepClockRate d).enabled = d.enabled := by
  cases op with
  | enable | readAccumulatedStatus | transferDone => exact absurd trivial h
  | setChopConf v => exact setChopConf_status d v
  | setOffTime v =>
    rcases d.setOffTime_cases v with e | ⟨w, e⟩ <;>
      simp only [DriverOp.apply, e, setChopConf_status, and_self]
  | setDriverMode m =>
    rcases d.setDriverMode_cases m with e | ⟨w, e⟩ <;>
      simp only [DriverOp.apply, e, setChopConf_status, and_self]
  | startTransfer =>
    obtain ⟨r, e⟩ := d.startTransfer_snd_eq
    simp only [DriverOp.apply, e, and_self]
  | _ => cases d; exact ⟨rfl, rfl, rfl⟩

theorem stallObs_of_not_writesStatus {op : DriverOp} (h : ¬ op.WritesStatus)
    (d : TmcDriverState) : stallObs op d = none := by
  cases op <;> first | rfl | exact absurd trivial h

/-- `Enable(en)` leaves the flag at `en`; on a disabled driver, `Enable(true)` clears the
stall bit of both status words, and every other `Enable` keeps them. -/
theorem enable_status (d : TmcDriverState) (en : Bool) :
    (d.enable en).enabled = en ∧
      (en = true → d.enabled = false →
        (d.enable en).lastReadStatus = d.lastReadStatus &&& ~~~tmcRrSg ∧
          (d.enable en).accumulatedStatus = d.accumulatedStatus &&& ~~~tmcRrSg) ∧
      (en = false ∨ d.enabled = true →
        (d.enable en).lastReadStatus = d.lastReadStatus ∧
          (d.enable en).accumulatedStatus = d.accumulatedStatus) := by
  cases en <;> cases he : d.enabled <;>
    simp [enable, he, updateChopConfRegister, setRegister, markDirty]

/-- A decoded status keeps the stall bit only for a stall frame. -/
theorem transferStatus_sg {d : TmcDriverState} {spiDataIn interval : Word}
    (h : d.transferStatus spiDataIn interval &&& tmcRrSg ≠ 0) :
    StallFrame (byteSwap spiDataIn >>> 12) interval d.maxStallStepInterval := by
  unfold transferStatus at h
  split at h
  · exact absurd (and_not_sg_and_sg _) h
  · rename_i hw
    simp only [not_or, BitVec.le_def, BitVec.lt_def, gt_iff_lt, not_lt, BitVec.toNat_eq,
      show (0 : Word).toNat = 0 from rfl] at hw
    exact ⟨h, by rw [BitVec.le_def, show (1 : Word).toNat = 1 from rfl]; omega, hw.2⟩

theorem transferDone_status (d : TmcDriverState) (spiDataIn interval : Word) :
    (d.transferDone true spiDataIn interval).lastReadStatus = d.transferStatus spiDataIn interval ∧
      (d.transferDone true spiDataIn interval).accumulatedStatus =
        d.accumulatedStatus ||| d.transferStatus spiDataIn interval ∧
      (d.transferDone true spiDataIn interval).enabled = d.enabled := by
  obtain ⟨ls, mn, mx, e⟩ := d.transferDone_eq true spiDataIn interval
  exact ⟨rfl, by rw [e]; rfl, by rw [e]⟩

/-- `ReadLiveStatus` reports the stall bit exactly when the driver is enabled and the last
status holds it. -/
theorem readLiveStatus_sg (d : TmcDriverState) :
    d.readLiveStatus &&& tmcRrSg ≠ 0 ↔ d.enabled = true ∧ d.lastReadStatus &&& tmcRrSg ≠ 0 := by
  have hr : reportedStatusBits.getLsbD 0 = true := by decide
  rw [and_sg_ne_zero_iff, and_sg_ne_zero_iff, readLiveStatus]
  cases d.enabled <;> simp [BitVec.getLsbD_and, hr, tmcRrSg]

/-- `ReadAccumulatedStatus` reports the stall bit exactly when the driver is enabled and
the accumulated status holds it. -/
theorem readAccumulatedStatus_sg (d : TmcDriverState) (bitsToKeep : Word) :
    (d.readAccumulatedStatus bitsToKeep).1 &&& tmcRrSg ≠ 0 ↔
      d.enabled = true ∧ d.accumulatedStatus &&& tmcRrSg ≠ 0 := by
  have hr : reportedStatusBits.getLsbD 0 = true := by decide
  have hm : (0xFFFFFFFF : Word).getLsbD 0 = true := by decide
  rw [and_sg_ne_zero_iff, and_sg_ne_zero_iff, readAccumulatedStatus]
  cases d.enabled <;> simp [BitVec.getLsbD_and, hr, hm, tmcRrSg]

/-! ## The invariant -/

/-- What each status word's stall bit says about the history, while the driver is
enabled. -/
structure StallInv (s : StallRun) : Prop where
  live : s.drv.enabled = true → s.drv.lastReadStatus &&& tmcRrSg ≠ 0 → LatestFrameStalls s.log
  accumulated : s.drv.enabled = true → s.drv.accumulatedStatus &&& tmcRrSg ≠ 0 → StallSince s.log

theorem stallInv_init (stepClockRate axisNumber pin : Word) :
    StallInv (StallRun.init stepClockRate axisNumber pin) := by
  have h0 : (0 : Word) &&& tmcRrSg = 0 := BitVec.zero_and
  exact ⟨fun _ h => (h h0).elim, fun _ h => (h h0).elim⟩

theorem stallInv_step (stepClockRate : Word) {s : StallRun} (hi : StallInv s) (op : DriverOp) :
    StallInv (s.step stepClockRate op) := by
  obtain ⟨d, log⟩ := s
  by_cases hw : op.WritesStatus
  swap
  · obtain ⟨hl, ha, he⟩ := op.apply_status_fields stepClockRate hw d
    rw [StallRun.step_of_none _ (stallObs_of_not_writesStatus hw d)]
    exact ⟨fun h1 h2 => hi.live (he ▸ h1) (hl ▸ h2),
      fun h1 h2 => hi.accumulated (he ▸ h1) (ha ▸ h2)⟩
  cases op with
  | enable en =>
    obtain ⟨hen, hclr, hkeep⟩ := enable_status d en
    rcases en with _ | _
    · exact ⟨fun h1 => absurd (hen ▸ h1) Bool.false_ne_true,
        fun h1 => absurd (hen ▸ h1) Bool.false_ne_true⟩
    cases hd : d.enabled
    · -- enabling a disabled driver clears the stall bit of both words
      obtain ⟨hl, ha⟩ := hclr rfl hd
      refine ⟨fun _ h2 => absurd ?_ h2, fun _ h2 => absurd ?_ h2⟩
      · show (d.enable true).lastReadStatus &&& tmcRrSg = 0
        rw [hl, and_not_sg_and_sg]
      · show (d.enable true).accumulatedStatus &&& tmcRrSg = 0
        rw [ha, and_not_sg_and_sg]
    · obtain ⟨hl, ha⟩ := hkeep (.inr hd)
      rw [StallRun.step_of_none _ (by simp [stallObs, hd])]
      exact ⟨fun _ h2 => hi.live hd (hl ▸ h2), fun _ h2 => hi.accumulated hd (ha ▸ h2)⟩
  | readAccumulatedStatus k =>
    by_cases hk : keptBits d k &&& tmcRrSg = 0
    · -- a clearing read: the accumulated stall bit is gone, the history says so
      have ho : stallObs (.readAccumulatedStatus k) d = some .cleared := if_pos hk
      rw [StallRun.step_of_some _ ho]
      refine ⟨hi.live, fun _ h2 => absurd ?_ h2⟩
      show d.accumulatedStatus &&& keptBits d k &&& tmcRrSg = 0
      rw [BitVec.and_assoc, hk]
      exact BitVec.and_zero
    · have ho : stallObs (.readAccumulatedStatus k) d = none := if_neg hk
      rw [StallRun.step_of_none _ ho]
      refine ⟨hi.live, fun h1 h2 => hi.accumulated h1 ?_⟩
      rw [and_sg_ne_zero_iff] at h2 ⊢
      simp only [DriverOp.apply, readAccumulatedStatus_snd, BitVec.getLsbD_and] at h2
      exact (Bool.and_eq_true_iff.mp h2).1
  | transferDone p w i =>
    cases p
    · exact hi
    obtain ⟨hl, ha, he⟩ := transferDone_status d w i
    refine ⟨fun _ h2 => transferStatus_sg (hl ▸ h2), fun h1 h2 => ?_⟩
    change (d.transferDone true w i).accumulatedStatus &&& tmcRrSg ≠ 0 at h2
    rw [ha, and_sg_ne_zero_iff, BitVec.getLsbD_or, Bool.or_eq_true] at h2
    rcases h2 with h2 | h2
    · exact .inr (hi.accumulated (he ▸ h1) ((and_sg_ne_zero_iff _).mpr h2))
    · exact .inl (transferStatus_sg ((and_sg_ne_zero_iff _).mpr h2))
  | _ => exact hw.elim

theorem stallInv_reachable {stepClockRate : Word} {s : StallRun}
    (h : StallReachable stepClockRate s) : StallInv s := by
  induction h with
  | init a p => exact stallInv_init _ a p
  | step op _ ih => exact stallInv_step _ ih op

/-- **Stall reports are never stale.** On every run, a live status with the stall bit
comes from an enabled driver whose most recent decoded frame is a stall frame decoded after
the last enabling; an accumulated status with the stall bit comes from an enabled driver
with a stall frame decoded after the last enabling and after the last clearing read. -/
theorem stall_reports_never_stale {stepClockRate : Word} {s : StallRun}
    (h : StallReachable stepClockRate s) :
    (s.drv.readLiveStatus &&& tmcRrSg ≠ 0 → s.drv.enabled = true ∧ LatestFrameStalls s.log) ∧
      ∀ bitsToKeep, (s.drv.readAccumulatedStatus bitsToKeep).1 &&& tmcRrSg ≠ 0 →
        s.drv.enabled = true ∧ StallSince s.log := by
  have hi := stallInv_reachable h
  refine ⟨fun hl => ?_, fun k ha => ?_⟩
  · obtain ⟨he, hs⟩ := (readLiveStatus_sg _).mp hl
    exact ⟨he, hi.live he hs⟩
  · obtain ⟨he, hs⟩ := (readAccumulatedStatus_sg _ k).mp ha
    exact ⟨he, hi.accumulated he hs⟩

/-- Enabling the driver and decoding one frame with the stall bit at an interval of 1000
step clocks, inside the window `Init` sets (`937500 / 200 = 4687`), gives both reports. -/
theorem stall_reported_after_enabling :
    ((StallRun.init 937500 0 0).run 937500
        [.enable true, .transferDone true 0x00100000 1000]).drv.readLiveStatus &&& tmcRrSg ≠ 0 ∧
      (((StallRun.init 937500 0 0).run 937500
          [.enable true, .transferDone true 0x00100000 1000]).drv.readLiveStatus &&& tmcRrSg ≠ 0 →
        ((StallRun.init 937500 0 0).run 937500
          [.enable true, .transferDone true 0x00100000 1000]).drv.enabled = true ∧
        LatestFrameStalls ((StallRun.init 937500 0 0).run 937500
          [.enable true, .transferDone true 0x00100000 1000]).log) ∧
      ∀ bitsToKeep, (((StallRun.init 937500 0 0).run 937500
          [.enable true, .transferDone true 0x00100000 1000]).drv.readAccumulatedStatus
            bitsToKeep).1 &&& tmcRrSg ≠ 0 →
        ((StallRun.init 937500 0 0).run 937500
          [.enable true, .transferDone true 0x00100000 1000]).drv.enabled = true ∧
        StallSince ((StallRun.init 937500 0 0).run 937500
          [.enable true, .transferDone true 0x00100000 1000]).log :=
  ⟨by decide, stall_reports_never_stale ((StallReachable.init 0 0).run _)⟩

end Tmc2660
