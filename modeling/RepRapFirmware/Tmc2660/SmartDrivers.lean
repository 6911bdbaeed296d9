import RepRapFirmware.Tmc2660.DriverState

/-!
# The `SmartDrivers` entry points

`SmartDrivers` is what the rest of the firmware calls. `Init` sets up
`numTmc2660Drivers` driver records; every other entry point takes a driver number, calls
the record's method when the number is below `numTmc2660Drivers`, and otherwise does
nothing and returns a default. `callDriver` is that guard, once; each entry point is
`callDriver` applied to its own method and default, under its source name. Only
`SetMicrostepping` does more: it turns a microstep count into a shift with a loop,
`shiftLoop`, and refuses counts that are not a power of two up to 256.

`Spin` and `TurnDriversOff`, which drive the bus rather than one record, are modelled in
`Tmc2660.Bus`. The records past `numTmc2660Drivers` in `driverStates[MaxSmartDrivers]` are
never read and are left out.

**What is proved.** `setMicrostepping_laws`: for every driver in range and every 32-bit
count `m`, `SetMicrostepping` ends, accepts exactly the counts `2^s` with `s ≤ 8`, and then
`GetMicrostepping` returns `m` and the interpolation flag and the MRES field holds `8 - s`;
a refused count changes nothing. `stall_rate_above_step_clock_zeroes_interval`: a minimum
stall rate above `StepClockRate` stores a zero `maxStallStepInterval`, after which
`AppendStallConfig` divides by zero and `TransferDone` drops the stall bit at every speed.
-/

set_option autoImplicit false

namespace Tmc2660

open TmcDriverState

/-- The driver records `SmartDrivers` keeps: the `numTmc2660Drivers` that `Init` set up. -/
structure SmartDrivers where
  numTmc2660Drivers : Nat
  driverStates : Fin numTmc2660Drivers → TmcDriverState

namespace SmartDrivers

/-- `SmartDrivers::Init(driverSelectPins, numTmcDrivers)`: at most `MaxSmartDrivers`
drivers, each with its chip select pin and the axis of its own number. -/
def init (maxSmartDrivers : Nat) (stepClockRate : Word) (driverSelectPins : Nat → Word)
    (numTmcDrivers : Nat) : SmartDrivers where
  numTmc2660Drivers := min numTmcDrivers maxSmartDrivers
  driverStates i := TmcDriverState.init stepClockRate (BitVec.ofNat 32 i.val) (driverSelectPins i.val)

/-- `driverStates[driver]`, when `driver < numTmc2660Drivers`. -/
def driver? (sd : SmartDrivers) (driver : Nat) : Option TmcDriverState :=
  if h : driver < sd.numTmc2660Drivers then some (sd.driverStates ⟨driver, h⟩) else none

/-- The guard of every entry point: `f` on `driverStates[driver]` when the number is in
range, giving the method's result and the record it leaves; `default` and no change
otherwise. -/
def callDriver {α : Type} (sd : SmartDrivers) (driver : Nat) (default : α)
    (f : TmcDriverState → α × TmcDriverState) : α × SmartDrivers :=
  if h : driver < sd.numTmc2660Drivers then
    let r := f (sd.driverStates ⟨driver, h⟩)
    (r.1, { sd with driverStates := Function.update sd.driverStates ⟨driver, h⟩ r.2 })
  else (default, sd)

/-! ## The entry points -/

section EntryPoints

variable (sd : SmartDrivers) (driver : Nat)

def setAxisNumber (axisNumber : Word) : SmartDrivers :=
  (sd.callDriver driver () fun d => ((), d.setAxisNumber axisNumber)).2

def setCurrent (iCurrent : Word) : SmartDrivers :=
  (sd.callDriver driver () fun d => ((), d.setCurrent iCurrent)).2

def enableDrive (en : Bool) : SmartDrivers :=
  (sd.callDriver driver () fun d => ((), d.enable en)).2

def getLiveStatus : Word :=
  (sd.callDriver driver 0 fun d => (d.readLiveStatus, d)).1

def getAccumulatedStatus (bitsToKeep : Word) : Word × SmartDrivers :=
  sd.callDriver driver 0 fun d => d.readAccumulatedStatus bitsToKeep

/-- `GetMicrostepping(driver, interpolation)`: 1 without interpolation out of range. -/
def getMicrostepping : Word × Bool :=
  (sd.callDriver driver (1, false) fun d => (d.getMicrostepping, d)).1

def setDriverMode (mode : DriverMode) : Bool × SmartDrivers :=
  sd.callDriver driver false fun d => d.setDriverMode mode

def getDriverMode : DriverMode :=
  (sd.callDriver driver .unknown fun d => (d.getDriverMode, d)).1

def setChopperControlRegister (ccr : Word) : Bool × SmartDrivers :=
  sd.callDriver driver false fun d => d.setChopConf ccr

def getChopperControlRegister : Word :=
  (sd.callDriver driver 0 fun d => (d.getChopConf, d)).1

def setOffTime (offTime : Word) : Bool × SmartDrivers :=
  sd.callDriver driver false fun d => d.setOffTime offTime

def getOffTime : Word :=
  (sd.callDriver driver 0 fun d => (d.getOffTime, d)).1

def setStallThreshold (sgThreshold : Int) : SmartDrivers :=
  (sd.callDriver driver () fun d => ((), d.setStallDetectThreshold sgThreshold)).2

def setStallFilter (sgFilter : Bool) : SmartDrivers :=
  (sd.callDriver driver () fun d => ((), d.setStallDetectFilter sgFilter)).2

def setStallMinimumStepsPerSecond (stepClockRate stepsPerSecond : Word) : SmartDrivers :=
  (sd.callDriver driver () fun d =>
    ((), d.setStallMinimumStepsPerSecond stepClockRate stepsPerSecond)).2

def setCoolStep (coolStepConfig : BitVec 16) : SmartDrivers :=
  (sd.callDriver driver () fun d => ((), d.setCoolStep coolStepConfig)).2

/-- `AppendStallConfig(driver, reply)`: `reply` unchanged out of range, `none` where the
driver's method divides by zero. -/
def appendStallConfig (stepClockRate : Word) (reply : String) : Option String :=
  (sd.callDriver driver (some reply) fun d => (d.appendStallConfig stepClockRate reply, d)).1

def appendDriverStatus (reply : String) : String × SmartDrivers :=
  sd.callDriver driver reply fun d => d.appendDriverStatus reply

end EntryPoints

/-! ## `SetMicrostepping` -/

/-- The loop of `SetMicrostepping` that finds how far to shift the count right to reach
its lowest set bit, `while ((uSteps & 1) == 0) { uSteps >>= 1; ++shift; }`, run for
`fuel` shifts at most: the final `uSteps` and `shift`, or `none` if the loop would go on. -/
def shiftLoop (uSteps shift : Word) : Nat → Option (Word × Word)
  | 0 => if uSteps &&& 1 = 0 then none else some (uSteps, shift)
  | fuel + 1 =>
    if uSteps &&& 1 = 0 then shiftLoop (uSteps >>> 1) (shift + 1) fuel else some (uSteps, shift)

/-- `SetMicrostepping(driver, microsteps, interpolate)`: the count must be `1 << shift`
with `shift ≤ 8`. The loop is run with 32 shifts, one per bit of the word; `none` would
mean it had not ended. -/
def setMicrostepping (sd : SmartDrivers) (driver : Nat) (microsteps : Word) (interpolate : Bool) :
    Option (Bool × SmartDrivers) :=
  if driver < sd.numTmc2660Drivers ∧ 0 < microsteps then
    match shiftLoop microsteps 0 32 with
    | none => none
    | some (uSteps, shift) =>
      if uSteps = 1 ∧ shift ≤ 8 then
        some (true, (sd.callDriver driver () fun d => ((), d.setMicrostepping shift interpolate)).2)
      else some (false, sd)
  else some (false, sd)

/-! ## The guard -/

theorem callDriver_of_lt {α : Type} (sd : SmartDrivers) {driver : Nat}
    (h : driver < sd.numTmc2660Drivers) (default : α) (f : TmcDriverState → α × TmcDriverState) :
    sd.callDriver driver default f =
      ((f (sd.driverStates ⟨driver, h⟩)).1,
        { sd with driverStates :=
            Function.update sd.driverStates ⟨driver, h⟩ (f (sd.driverStates ⟨driver, h⟩)).2 }) := by
  rw [callDriver, dif_pos h]

/-- After a call in range, the driver holds the record the method left. -/
theorem driver?_callDriver {α : Type} (sd : SmartDrivers) {driver : Nat}
    (h : driver < sd.numTmc2660Drivers) (default : α) (f : TmcDriverState → α × TmcDriverState) :
    (sd.callDriver driver default f).2.driver? driver = some (f (sd.driverStates ⟨driver, h⟩)).2 := by
  rw [callDriver_of_lt sd h, driver?, dif_pos h]
  simp

/-- A call reports what the method reports on the record `driver?` finds. -/
theorem callDriver_fst_of_driver? {α : Type} {sd : SmartDrivers} {driver : Nat}
    {d : TmcDriverState} (h : sd.driver? driver = some d) (default : α)
    (f : TmcDriverState → α × TmcDriverState) : (sd.callDriver driver default f).1 = (f d).1 := by
  unfold driver? at h
  split at h
  · cases h; rw [callDriver_of_lt]
  · cases h

/-! ## The shift loop -/

theorem toNat_and_one (u : Word) : (u &&& 1).toNat = u.toNat % 2 := by
  rw [BitVec.toNat_and, show (1 : Word).toNat = 1 from rfl, Nat.and_one_is_mod]

/-- The loop ends within `fuel` shifts when the count is nonzero and below `2 ^ (fuel + 1)`,
having shifted out exactly the low zero bits: the final `uSteps` is odd, times `2 ^ k` it
is the count, and `shift` has grown by `k`. -/
theorem shiftLoop_eq (fuel : Nat) : ∀ (u s : Word), 0 < u.toNat → u.toNat < 2 ^ (fuel + 1) →
    ∃ k, k ≤ fuel ∧ shiftLoop u s fuel = some (u >>> k, s + BitVec.ofNat 32 k) ∧
      (u >>> k).toNat % 2 = 1 ∧ u.toNat = (u >>> k).toNat * 2 ^ k := by
  induction fuel with
  | zero =>
    intro u s h0 h1
    have hu : u.toNat = 1 := by omega
    refine ⟨0, le_refl 0, ?_, ?_, ?_⟩
    · rw [shiftLoop, if_neg (fun h => by
        have := congrArg BitVec.toNat h; rw [toNat_and_one] at this; simp at this; omega)]
      simp [BitVec.ushiftRight_zero]
    · simp [BitVec.ushiftRight_zero, hu]
    · simp [BitVec.ushiftRight_zero]
  | succ fuel ih =>
    intro u s h0 h1
    by_cases he : u &&& 1 = 0
    · -- an even count: one shift, and the rest of the loop from `u >>> 1`
      have hev : u.toNat % 2 = 0 := by
        have := congrArg BitVec.toNat he; rwa [toNat_and_one] at this
      have hu' : (u >>> 1).toNat = u.toNat / 2 := by
        rw [BitVec.toNat_ushiftRight, Nat.shiftRight_eq_div_pow, pow_one]
      obtain ⟨k, hk, hl, hodd, hm⟩ :=
        ih (u >>> 1) (s + 1) (by omega) (by rw [hu', pow_succ] at *; omega)
      refine ⟨k + 1, by omega, ?_, ?_, ?_⟩
      · rw [shiftLoop, if_pos he, hl, ← BitVec.shiftRight_add, Nat.add_comm 1 k]
        congr 2
        apply BitVec.eq_of_toNat_eq
        simp only [BitVec.toNat_add, BitVec.toNat_ofNat, show (1 : Word).toNat = 1 from rfl]
        omega
      · rwa [← BitVec.shiftRight_add, Nat.add_comm 1 k] at hodd
      · rw [Nat.add_comm k 1, BitVec.shiftRight_add, Nat.add_comm 1 k, pow_succ,
          ← Nat.mul_assoc, ← hm, hu']
        omega
    · -- an odd count: the loop ends at once
      refine ⟨0, Nat.zero_le _, ?_, ?_, ?_⟩
      · rw [shiftLoop, if_neg he]
        simp [BitVec.ushiftRight_zero]
      · have : (u &&& 1).toNat ≠ 0 := fun h => he (BitVec.eq_of_toNat_eq (by simpa using h))
        rw [toNat_and_one] at this
        simp [BitVec.ushiftRight_zero]
        omega
      · simp [BitVec.ushiftRight_zero]

/-- Of a power of two, only itself is an odd number times a power of two. -/
theorem eq_one_of_two_pow_eq_mul {s k o : Nat} (h : 2 ^ s = o * 2 ^ k) (ho : o % 2 = 1) :
    o = 1 ∧ s = k := by
  rcases Nat.lt_or_ge s k with hlt | hge
  · have h1 : 2 ^ s < 2 ^ k := Nat.pow_lt_pow_right (by decide) hlt
    have h2 : 2 ^ k ≤ o * 2 ^ k := Nat.le_mul_of_pos_left _ (by omega)
    omega
  · obtain ⟨j, rfl⟩ := Nat.exists_eq_add_of_le hge
    rw [Nat.pow_add, Nat.mul_comm] at h
    have ho' : o = 2 ^ j := (Nat.eq_of_mul_eq_mul_right (Nat.two_pow_pos k) h).symm
    cases j with
    | zero => exact ⟨ho', rfl⟩
    | succ j => rw [ho', Nat.pow_succ, Nat.mul_mod_left] at ho; cases ho

/-- The MRES value `SetMicrostepping` writes for the shift `k ≤ 8` the loop found. -/
theorem mres_of_shift {k : Nat} (hk : k ≤ 8) :
    ((8 - ((0 : Word) + BitVec.ofNat 32 k)) <<< tmcDrvctrlMresShift &&& tmcDrvctrlMresMask) >>>
      tmcDrvctrlMresShift = BitVec.ofNat 32 (8 - k) := by
  apply BitVec.eq_of_toNat_eq
  simp only [tmcDrvctrlMresShift, tmcDrvctrlMresMask, BitVec.ushiftRight_zero,
    BitVec.shiftLeft_zero, BitVec.toNat_and, BitVec.toNat_sub, BitVec.toNat_add,
    BitVec.toNat_ofNat, show (15 : Word).toNat = 2 ^ 4 - 1 from rfl,
    Nat.and_pow_two_sub_one_eq_mod, show (0 : Word).toNat = 0 from rfl,
    show (8 : Word).toNat = 8 from rfl]
  omega

/-- A word whose value is `2^k`, for `k < 32`, is `1 << k`. -/
theorem one_shiftLeft_of_toNat_eq_pow {m : Word} {k : Nat} (hpow : m.toNat = 2 ^ k) (hk : k < 32) :
    (1 : Word) <<< k = m := by
  apply BitVec.eq_of_toNat_eq
  rw [hpow, BitVec.toNat_shiftLeft, show (1 : Word).toNat = 1 from rfl, Nat.shiftLeft_eq,
    Nat.one_mul, Nat.mod_eq_of_lt (Nat.pow_lt_pow_right (by decide) hk)]

/-! ## The laws -/

/-- **`SetMicrostepping`.** For a driver in range and any 32-bit count `m`, the call ends;
it accepts exactly the counts `2^s` with `s ≤ 8`, after which `GetMicrostepping` returns
`m` with the interpolation flag given and the MRES field holds `8 - s`; a refused count
changes nothing. -/
theorem setMicrostepping_laws (sd : SmartDrivers) {driver : Nat}
    (hd : driver < sd.numTmc2660Drivers) (m : Word) (b : Bool) :
    ∃ r, sd.setMicrostepping driver m b = some r ∧
      (r.1 = true ↔ ∃ s, s ≤ 8 ∧ m.toNat = 2 ^ s) ∧
      (r.1 = true → ∃ s, s ≤ 8 ∧ m.toNat = 2 ^ s ∧ r.2.getMicrostepping driver = (m, b) ∧
        ∃ d, r.2.driver? driver = some d ∧
          (d.registers driveControl &&& tmcDrvctrlMresMask) >>> tmcDrvctrlMresShift =
            BitVec.ofNat 32 (8 - s)) ∧
      (r.1 = false → r.2 = sd) := by
  by_cases hm0 : m.toNat = 0
  · -- a zero count fails the guard
    have hr : sd.setMicrostepping driver m b = some (false, sd) := by
      rw [setMicrostepping, if_neg]
      rintro ⟨-, h⟩
      rw [BitVec.lt_def, show (0 : Word).toNat = 0 from rfl] at h
      omega
    refine ⟨_, hr, ?_, fun h => absurd h Bool.false_ne_true, fun _ => rfl⟩
    simp only [Bool.false_eq_true, false_iff, not_exists, not_and]
    intro s _ h
    exact absurd (hm0 ▸ h).symm (Nat.two_pow_pos s).ne'
  · obtain ⟨k, hk, hl, hodd, hmk⟩ := shiftLoop_eq 32 m 0 (by omega) (by have := m.isLt; omega)
    have hshift : ((0 : Word) + BitVec.ofNat 32 k).toNat = k := by
      rw [BitVec.toNat_add, BitVec.toNat_ofNat, show (0 : Word).toNat = 0 from rfl]
      omega
    have hguard : driver < sd.numTmc2660Drivers ∧ 0 < m :=
      ⟨hd, by rw [BitVec.lt_def, show (0 : Word).toNat = 0 from rfl]; omega⟩
    by_cases hacc : m >>> k = 1 ∧ (0 : Word) + BitVec.ofNat 32 k ≤ 8
    · -- accepted: the count is `2^k`
      have hk8 : k ≤ 8 := by
        have := hacc.2; rw [BitVec.le_def, hshift] at this; simpa using this
      have hpow : m.toNat = 2 ^ k := by rw [hmk, hacc.1]; simp
      have hr : sd.setMicrostepping driver m b = some (true, (sd.callDriver driver () fun d =>
          ((), d.setMicrostepping ((0 : Word) + BitVec.ofNat 32 k) b)).2) := by
        rw [setMicrostepping, if_pos hguard, hl]
        exact if_pos hacc
      refine ⟨_, hr, ⟨fun _ => ⟨k, hk8, hpow⟩, fun _ => rfl⟩,
        fun _ => ⟨k, hk8, hpow, ?_, _, driver?_callDriver sd hd _ _, ?_⟩, fun h => by cases h⟩
      · rw [getMicrostepping, callDriver_fst_of_driver? (driver?_callDriver sd hd _ _),
          getMicrostepping_setMicrostepping, hshift]
        show ((1 : Word) <<< k, b) = (m, b)
        rw [one_shiftLeft_of_toNat_eq_pow hpow (by omega)]
      · rw [mres_setMicrostepping]
        exact mres_of_shift hk8
    · -- refused: no power of two up to 256 has this odd part and shift
      have hr : sd.setMicrostepping driver m b = some (false, sd) := by
        rw [setMicrostepping, if_pos hguard, hl]
        exact if_neg hacc
      refine ⟨_, hr, ?_, fun h => absurd h Bool.false_ne_true, fun _ => rfl⟩
      simp only [Bool.false_eq_true, false_iff, not_exists, not_and]
      intro s hs h
      obtain ⟨ho, rfl⟩ := eq_one_of_two_pow_eq_mul (h ▸ hmk) hodd
      refine hacc ⟨BitVec.eq_of_toNat_eq ?_, ?_⟩
      · rw [ho]; rfl
      · rw [BitVec.le_def, hshift]; simpa using hs

/-- Sixteen microsteps with interpolation on driver 0 of one. -/
theorem setMicrostepping_laws_sixteen :
    0 < (init 1 937500 (fun _ => 0) 1).numTmc2660Drivers ∧
    ∃ r, (init 1 937500 (fun _ => 0) 1).setMicrostepping 0 16 true = some r ∧
      (r.1 = true ↔ ∃ s, s ≤ 8 ∧ (16 : Word).toNat = 2 ^ s) ∧
      (r.1 = true → ∃ s, s ≤ 8 ∧ (16 : Word).toNat = 2 ^ s ∧ r.2.getMicrostepping 0 = (16, true) ∧
        ∃ d, r.2.driver? 0 = some d ∧
          (d.registers driveControl &&& tmcDrvctrlMresMask) >>> tmcDrvctrlMresShift =
            BitVec.ofNat 32 (8 - s)) ∧
      (r.1 = false → r.2 = init 1 937500 (fun _ => 0) 1) :=
  ⟨by decide, setMicrostepping_laws _ (by decide) 16 true⟩

/-- **A stall rate above the step clock.** `SetStallMinimumStepsPerSecond` with a rate
above `StepClockRate` stores a zero `maxStallStepInterval`; `AppendStallConfig` then
divides by it, and `TransferDone` drops the stall bit at every step interval. -/
theorem stall_rate_above_step_clock_zeroes_interval (sd : SmartDrivers) {driver : Nat}
    (hd : driver < sd.numTmc2660Drivers) {stepClockRate stepsPerSecond : Word}
    (hs : stepClockRate < stepsPerSecond) (reply : String) :
    ∃ d, (sd.setStallMinimumStepsPerSecond driver stepClockRate stepsPerSecond).driver? driver =
        some d ∧
      d.maxStallStepInterval = 0 ∧
      (sd.setStallMinimumStepsPerSecond driver stepClockRate stepsPerSecond).appendStallConfig
        driver stepClockRate reply = none ∧
      ∀ spiDataIn interval, d.transferStatus spiDataIn interval &&& tmcRrSg = 0 := by
  have hz := (sd.driverStates ⟨driver, hd⟩).setStallMinimumStepsPerSecond_eq_zero hs
  have hget :
      (sd.setStallMinimumStepsPerSecond driver stepClockRate stepsPerSecond).driver? driver =
        some ((sd.driverStates ⟨driver, hd⟩).setStallMinimumStepsPerSecond stepClockRate
          stepsPerSecond) :=
    driver?_callDriver sd hd _ _
  refine ⟨_, hget, hz, ?_, transferStatus_sg_of_zero hz⟩
  rw [appendStallConfig, callDriver_fst_of_driver? hget]
  exact appendStallConfig_of_zero hz _ _

/-- One driver on a 937500 Hz step clock, asked for a minimum of a million steps per
second. -/
theorem stall_rate_above_step_clock_init :
    0 < (init 1 937500 (fun _ => 0) 1).numTmc2660Drivers ∧ (937500 : Word) < 1000000 ∧
    ∃ d, ((init 1 937500 (fun _ => 0) 1).setStallMinimumStepsPerSecond 0 937500 1000000).driver? 0 =
        some d ∧
      d.maxStallStepInterval = 0 ∧
      ((init 1 937500 (fun _ => 0) 1).setStallMinimumStepsPerSecond 0 937500 1000000).appendStallConfig
        0 937500 "" = none ∧
      ∀ spiDataIn interval, d.transferStatus spiDataIn interval &&& tmcRrSg = 0 :=
  ⟨by decide, by decide, stall_rate_above_step_clock_zeroes_interval _ (by decide) (by decide) ""⟩

end SmartDrivers

end Tmc2660
