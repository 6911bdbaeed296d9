import RepRapFirmware.Tmc2660.Fields

/-!
# The stall-speed scale

`SetStallMinimumStepsPerSecond(s)` stores `StepClockRate / max(s, 1)`, the longest
full-step interval at which a stall is believed, and `AppendStallConfig` reports the rate
back as `StepClockRate / maxStallStepInterval`.

**What is proved** (`stall_rate_report_round_trip`). For every rate from 1 to
`StepClockRate` the report exists, it is at least the rate set and the largest rate that
gives the same interval, and setting the reported rate again changes nothing.
-/

set_option autoImplicit false

namespace Tmc2660

open TmcDriverState

/-- A rate is at most the rate read back from the interval it gives. -/
theorem le_div_div_self {R x : Nat} (hx : x ≤ R) : x ≤ R / (R / x) := by
  rcases Nat.eq_zero_or_pos x with rfl | h0
  · exact Nat.zero_le _
  · exact (Nat.le_div_iff_mul_le (Nat.div_pos hx h0)).2 (Nat.mul_div_le R x)

/-- The rate read back from an interval gives that interval again. -/
theorem div_div_div_self {R x : Nat} (h0 : 0 < x) (hx : x ≤ R) : R / (R / (R / x)) = R / x := by
  have hr : x ≤ R / (R / x) := le_div_div_self hx
  exact Nat.le_antisymm (Nat.div_le_div_left hr h0)
    ((Nat.le_div_iff_mul_le (Nat.lt_of_lt_of_le h0 hr)).2 (Nat.mul_div_le R (R / x)))

/-- The interval `SetStallMinimumStepsPerSecond` stores, in naturals. -/
theorem setStallMinimumStepsPerSecond_toNat (d : TmcDriverState) (stepClockRate s : Word) :
    (d.setStallMinimumStepsPerSecond stepClockRate s).maxStallStepInterval.toNat =
      stepClockRate.toNat / max s.toNat 1 := by
  have h1 : (1 : Word).toNat = 1 := rfl
  simp only [setStallMinimumStepsPerSecond, BitVec.toNat_udiv]
  split <;> rename_i h <;> simp only [gt_iff_lt, BitVec.lt_def, h1] at h
  · exact congrArg (_ / ·) (by omega)
  · rw [h1]
    exact congrArg (_ / ·) (by omega)

/-- Setting a rate that gives the stored interval changes nothing. -/
theorem setStallMinimumStepsPerSecond_of_interval {d : TmcDriverState} {stepClockRate s : Word}
    (h : (d.setStallMinimumStepsPerSecond stepClockRate s).maxStallStepInterval =
      d.maxStallStepInterval) :
    d.setStallMinimumStepsPerSecond stepClockRate s = d := by
  cases d
  simp only [setStallMinimumStepsPerSecond] at h ⊢
  rw [h]

/-- **The stall-speed report.** For every rate from 1 to `StepClockRate`, the rate
`AppendStallConfig` then reports is defined, at least the rate set, the largest rate that
gives the same interval, and setting it again leaves the driver as it is. -/
theorem stall_rate_report_round_trip (d : TmcDriverState) {stepClockRate s : Word}
    (reply : String) (hs : 1 ≤ s.toNat) (hR : s.toNat ≤ stepClockRate.toNat) :
    let d' := d.setStallMinimumStepsPerSecond stepClockRate s
    let r := stepClockRate / d'.maxStallStepInterval
    (d'.appendStallConfig stepClockRate reply).isSome ∧ s ≤ r ∧
      d'.setStallMinimumStepsPerSecond stepClockRate r = d' ∧
      ∀ s' : Word, (d.setStallMinimumStepsPerSecond stepClockRate s').maxStallStepInterval =
        d'.maxStallStepInterval → s' ≤ r := by
  intro d' r
  have hq : d'.maxStallStepInterval.toNat = stepClockRate.toNat / s.toNat := by
    rw [setStallMinimumStepsPerSecond_toNat, Nat.max_eq_left hs]
  have hqpos : 0 < stepClockRate.toNat / s.toNat := Nat.div_pos hR hs
  have hr : r.toNat = stepClockRate.toNat / (stepClockRate.toNat / s.toNat) := by
    rw [BitVec.toNat_udiv, hq]
  have hsr : s.toNat ≤ r.toNat := hr ▸ le_div_div_self hR
  refine ⟨?_, BitVec.le_def.2 hsr, ?_, fun s' hs' => BitVec.le_def.2 ?_⟩
  · have hne : d'.maxStallStepInterval ≠ 0 := fun h => by
      rw [h, show (0 : Word).toNat = 0 from rfl] at hq
      omega
    simp only [appendStallConfig, if_neg hne, Option.isSome_some]
  · apply setStallMinimumStepsPerSecond_of_interval
    apply BitVec.eq_of_toNat_eq
    rw [setStallMinimumStepsPerSecond_toNat, hq, Nat.max_eq_left (by omega), hr,
      div_div_div_self hs hR]
  · have h' := congrArg BitVec.toNat hs'
    rw [setStallMinimumStepsPerSecond_toNat, setStallMinimumStepsPerSecond_toNat,
      Nat.max_eq_left hs] at h'
    rcases Nat.eq_zero_or_pos s'.toNat with h0 | h0
    · omega
    · rw [Nat.max_eq_left h0] at h'
      have hle : s'.toNat ≤ stepClockRate.toNat := by
        by_contra hgt
        rw [Nat.div_eq_of_lt (by omega)] at h'
        omega
      rw [hr, ← h']
      exact le_div_div_self hle

/-- At 1000 ticks a second, a minimum of 300 steps a second gives the interval 3, reported
back as 333 steps a second. -/
theorem stall_rate_report_at_thousand :
    (1 ≤ (300 : Word).toNat ∧ (300 : Word).toNat ≤ (1000 : Word).toNat) ∧
      let d' := (init 0 0 0).setStallMinimumStepsPerSecond 1000 300
      let r := (1000 : Word) / d'.maxStallStepInterval
      (d'.appendStallConfig 1000 "").isSome ∧ 300 ≤ r ∧
        d'.setStallMinimumStepsPerSecond 1000 r = d' ∧
        ∀ s' : Word, ((init 0 0 0).setStallMinimumStepsPerSecond 1000 s').maxStallStepInterval =
          d'.maxStallStepInterval → s' ≤ r :=
  ⟨⟨by decide, by decide⟩, stall_rate_report_round_trip _ "" (by decide) (by decide)⟩

end Tmc2660
