import RepRapFirmware.Tmc2660.Registers

/-!
# One driver: `TmcDriverState`

The per-driver record of `TMC2660.cpp` and its methods, one definition per method and
under the method's name. Each method is a function from the record to the record (and
its result, where it returns one); the CS pin and the PDC set-up that `StartTransfer`
and `TransferDone` also perform live in the bus model (`Tmc2660.Bus`), which calls
these.

What the methods read from outside the record is an argument: the step interval the
motion planner reports (`GetStepInterval`), the word the PDC left in `spiDataIn`,
whether `driversPowered` is set, and `StepClockRate`, which is declared outside src/.
`SetCurrent` takes its argument after the float clamp and cast, as the `uint32_t`
`iCurrent`; floats are not modelled.

Every setter ends with the same read-modify-write of the dirty mask, `markDirty`, after
the store of its register word (`setRegister`). The interleaving model of
`Tmc2660.DirtyMask` splits a setter at exactly that point.
-/

set_option autoImplicit false

namespace Tmc2660

/-- The number of writable registers, `NumRegisters`. -/
abbrev numRegisters : Nat := 5

/-- The modes `SetDriverMode` and `GetDriverMode` name. The enumeration is declared
outside src/; the setter's `switch` accepts the three chopper modes and sends every
other number to its `default` branch, which `unknown` stands for here. -/
inductive DriverMode
  | constantOffTime
  | randomOffTime
  | spreadCycle
  | unknown
  deriving DecidableEq, Repr

/-- The state of one TMC2660 driver (`class TmcDriverState`). -/
structure TmcDriverState where
  /-- The values we want the five writable registers to have, in priority order. -/
  registers : Fin numRegisters → Word
  /-- The chip-select pin of this driver. -/
  pin : Word
  /-- The configured chopper control register, in the enabled state. -/
  configuredChopConfReg : Word
  /-- Bitmap of registers that need to be sent to the chip. -/
  registersToUpdate : Word
  axisNumber : Word
  microstepShiftFactor : Word
  maxStallStepInterval : Word
  minSgLoadRegister : Word
  maxSgLoadRegister : Word
  /-- The status word read most recently, written by the ISR. -/
  lastReadStatus : Word
  accumulatedStatus : Word
  enabled : Bool

namespace TmcDriverState

/-! ## Register numbers -/

def driveControl : Fin numRegisters := 0
def stallGuardConfig : Fin numRegisters := 1
def chopperControl : Fin numRegisters := 2
def driveConfig : Fin numRegisters := 3
def smartEnable : Fin numRegisters := 4

/-- `UpdateAllRegisters`, the dirty bitmap with every register set. -/
def updateAllRegisters : Word := ((1 : Word) <<< numRegisters) - 1

theorem updateAllRegisters_getLsbD (i : Nat) :
    updateAllRegisters.getLsbD i = decide (i < numRegisters) := by
  rw [show updateAllRegisters = BitVec.ofNat 32 (2 ^ 5 - 1) from rfl, BitVec.getLsbD_ofNat,
    Nat.testBit_two_pow_sub_one]
  by_cases h : i < 5
  · simp [h, show i < 32 by omega]
  · simp [h]

/-! ## The two stores every setter ends with -/

/-- `registers[i] = v`. -/
def setRegister (d : TmcDriverState) (i : Fin numRegisters) (v : Word) : TmcDriverState :=
  { d with registers := Function.update d.registers i v }

/-- `registersToUpdate |= 1u << i`. -/
def markDirty (d : TmcDriverState) (i : Fin numRegisters) : TmcDriverState :=
  { d with registersToUpdate := d.registersToUpdate ||| ((1 : Word) <<< i.val) }

@[simp] theorem setRegister_registers_self (d : TmcDriverState) (i : Fin numRegisters)
    (v : Word) : (d.setRegister i v).registers i = v := by
  simp [setRegister]

theorem setRegister_registers_of_ne (d : TmcDriverState) {i j : Fin numRegisters} (v : Word)
    (h : j ≠ i) : (d.setRegister i v).registers j = d.registers j := by
  simp [setRegister, h]

@[simp] theorem markDirty_registers (d : TmcDriverState) (i : Fin numRegisters) :
    (d.markDirty i).registers = d.registers := rfl

@[simp] theorem markDirty_enabled (d : TmcDriverState) (i : Fin numRegisters) :
    (d.markDirty i).enabled = d.enabled := rfl

@[simp] theorem markDirty_configuredChopConfReg (d : TmcDriverState) (i : Fin numRegisters) :
    (d.markDirty i).configuredChopConfReg = d.configuredChopConfReg := rfl

@[simp] theorem setRegister_enabled (d : TmcDriverState) (i : Fin numRegisters) (v : Word) :
    (d.setRegister i v).enabled = d.enabled := rfl

@[simp] theorem setRegister_configuredChopConfReg (d : TmcDriverState) (i : Fin numRegisters)
    (v : Word) : (d.setRegister i v).configuredChopConfReg = d.configuredChopConfReg := rfl

@[simp] theorem setRegister_registersToUpdate (d : TmcDriverState) (i : Fin numRegisters)
    (v : Word) : (d.setRegister i v).registersToUpdate = d.registersToUpdate := rfl

@[simp] theorem markDirty_registersToUpdate (d : TmcDriverState) (i : Fin numRegisters) :
    (d.markDirty i).registersToUpdate = d.registersToUpdate ||| (1 : Word) <<< i.val := rfl

/-! ## Methods -/

def resetLoadRegisters (d : TmcDriverState) : TmcDriverState :=
  { d with minSgLoadRegister := 1023, maxSgLoadRegister := 0 }

def setAxisNumber (d : TmcDriverState) (axisNumber : Word) : TmcDriverState :=
  { d with axisNumber := axisNumber }

/-- Write all registers: called when the drivers are known to be powered up. -/
def writeAll (d : TmcDriverState) : TmcDriverState :=
  { d with registersToUpdate := updateAllRegisters }

/-- Shadow register 2 follows the enable flag: the configured chopper word when
enabled, the same word with TOFF cleared when disabled. -/
def updateChopConfRegister (d : TmcDriverState) : TmcDriverState :=
  (d.setRegister chopperControl
    (if d.enabled then d.configuredChopConfReg
     else d.configuredChopConfReg &&& ~~~tmcChopconfToffMask)).markDirty chopperControl

/-- Check the new chopper control register, update it and return true if it is legal:
TOFF = 0 turns the driver off, and TOFF = 1 is not allowed with TBL = 0. -/
def setChopConf (d : TmcDriverState) (newVal : Word) : Bool × TmcDriverState :=
  let toff := (newVal &&& tmcChopconfToffMask) >>> tmcChopconfToffShift
  if toff = 0 ∨ (toff = 1 ∧ newVal &&& tmcChopconfTblMask = 0) then (false, d)
  else
    (true, updateChopConfRegister
      { d with configuredChopConfReg := (newVal &&& 0x0001FFFF) ||| tmcRegChopconf })

/-- Set the off time in the chopper control register. -/
def setOffTime (d : TmcDriverState) (newVal : Word) : Bool × TmcDriverState :=
  if newVal > 15 then (false, d)
  else
    d.setChopConf ((d.configuredChopConfReg &&& ~~~tmcChopconfToffMask)
      ||| ((newVal <<< tmcChopconfToffShift) &&& tmcChopconfToffMask))

def setDriverMode (d : TmcDriverState) (mode : DriverMode) : Bool × TmcDriverState :=
  match mode with
  | .constantOffTime =>
    d.setChopConf ((d.configuredChopConfReg &&& ~~~tmcChopconfRndtf) ||| tmcChopconfChm)
  | .randomOffTime =>
    d.setChopConf (d.configuredChopConfReg ||| tmcChopconfRndtf ||| tmcChopconfChm)
  | .spreadCycle =>
    d.setChopConf (d.configuredChopConfReg &&& ~~~(tmcChopconfRndtf ||| tmcChopconfChm))
  | .unknown => (false, d)

def getDriverMode (d : TmcDriverState) : DriverMode :=
  if d.configuredChopConfReg &&& tmcChopconfChm = 0 then .spreadCycle
  else if d.configuredChopConfReg &&& tmcChopconfRndtf = 0 then .constantOffTime
  else .randomOffTime

/-- Set the microstepping, `1 << shift`, and the interpolation bit. The source returns
`true` unconditionally; the facade does the checking. -/
def setMicrostepping (d : TmcDriverState) (shift : Word) (interpolate : Bool) :
    TmcDriverState :=
  let drvCtrlReg := d.registers driveControl &&& ~~~tmcDrvctrlMresMask
  let drvCtrlReg :=
    drvCtrlReg ||| (((8 - shift) <<< tmcDrvctrlMresShift) &&& tmcDrvctrlMresMask)
  let drvCtrlReg :=
    if interpolate then drvCtrlReg ||| tmcDrvctrlIntpol else drvCtrlReg &&& ~~~tmcDrvctrlIntpol
  ({ d with microstepShiftFactor := shift }.setRegister driveControl drvCtrlReg).markDirty
    driveControl

/-- Set the motor current, from the clamped and truncated milliamps `iCurrent`: the
formula assumes the 0.051 ohm sense resistor of the production Duet WiFi. -/
def setCurrent (d : TmcDriverState) (iCurrent : Word) : TmcDriverState :=
  let csBits := (32 * iCurrent - 1600) / 3236
  (d.setRegister stallGuardConfig
    ((d.registers stallGuardConfig &&& ~~~tmcSgcsconfCsMask) ||| tmcSgcsconfCs csBits)).markDirty
    stallGuardConfig

/-- Enable or disable the driver. Enabling clears the stall bit of both status words. -/
def enable (d : TmcDriverState) (en : Bool) : TmcDriverState :=
  if d.enabled ≠ en then
    let d := if en then
        { d with accumulatedStatus := d.accumulatedStatus &&& ~~~tmcRrSg,
                 lastReadStatus := d.lastReadStatus &&& ~~~tmcRrSg }
      else d
    updateChopConfRegister { d with enabled := en }
  else d

def readLiveStatus (d : TmcDriverState) : Word :=
  let ret := d.lastReadStatus &&& reportedStatusBits
  if d.enabled then ret else ret &&& ~~~tmcRrSg

/-- Return the accumulated status and keep only `bitsToKeep` of it (never the stall bit
while disabled). The source does the read and the store with interrupts disabled. -/
def readAccumulatedStatus (d : TmcDriverState) (bitsToKeep : Word) : Word × TmcDriverState :=
  let mask : Word := if d.enabled then 0xFFFFFFFF else ~~~tmcRrSg
  let bitsToKeep := bitsToKeep &&& mask
  let status := d.accumulatedStatus
  (status &&& reportedStatusBits &&& mask,
    { d with accumulatedStatus := d.accumulatedStatus &&& bitsToKeep })

def setStallDetectThreshold (d : TmcDriverState) (sgThreshold : Int) : TmcDriverState :=
  let sgVal : Word := BitVec.ofInt 32 (constrain sgThreshold (-64) 63) &&& 127
  (d.setRegister stallGuardConfig
    ((d.registers stallGuardConfig &&& ~~~tmcSgcsconfSgtMask)
      ||| (sgVal <<< tmcSgcsconfSgtShift))).markDirty stallGuardConfig

def setStallDetectFilter (d : TmcDriverState) (sgFilter : Bool) : TmcDriverState :=
  (d.setRegister stallGuardConfig
    (if sgFilter then d.registers stallGuardConfig ||| tmcSgcsconfSgtSfilt
     else d.registers stallGuardConfig &&& ~~~tmcSgcsconfSgtSfilt)).markDirty stallGuardConfig

def setStallMinimumStepsPerSecond (d : TmcDriverState) (stepClockRate stepsPerSecond : Word) :
    TmcDriverState :=
  { d with maxStallStepInterval :=
      stepClockRate / (if stepsPerSecond > 1 then stepsPerSecond else 1) }

def setCoolStep (d : TmcDriverState) (coolStepConfig : BitVec 16) : TmcDriverState :=
  (d.setRegister smartEnable (tmcRegSmarten ||| coolStepConfig.setWidth 32)).markDirty
    smartEnable

/-- The stall threshold `AppendStallConfig` prints: the SGT field read back as a 7-bit
two's complement number. -/
def stallThreshold (d : TmcDriverState) : Int :=
  let threshold : Int :=
    (((d.registers stallGuardConfig &&& tmcSgcsconfSgtMask) >>> tmcSgcsconfSgtShift).toNat : Int)
  if threshold ≥ 64 then threshold - 128 else threshold

/-- The stall filter flag `AppendStallConfig` prints. -/
def stallFiltered (d : TmcDriverState) : Bool :=
  d.registers stallGuardConfig &&& tmcSgcsconfSgtSfilt ≠ 0

/-- `AppendStallConfig`: the text appended to `reply`, or `none` where the source divides
by a zero `maxStallStepInterval`, which C leaves undefined. -/
def appendStallConfig (d : TmcDriverState) (stepClockRate : Word) (reply : String) :
    Option String :=
  if d.maxStallStepInterval = 0 then none
  else
    some (reply ++ "stall threshold " ++ toString d.stallThreshold
      ++ ", filter " ++ (if d.stallFiltered then "on" else "off")
      ++ ", steps/sec " ++ toString (stepClockRate / d.maxStallStepInterval).toNat
      ++ ", coolstep "
      ++ String.mk (Nat.toDigits 16 (d.registers smartEnable &&& 0xFFFF).toNat))

/-- Append the driver status to `reply`, and reset the min/max load values. -/
def appendDriverStatus (d : TmcDriverState) (reply : String) : String × TmcDriverState :=
  let s := d.lastReadStatus
  let r := reply
  let r :=
    if s &&& tmcRrOt ≠ 0 then r ++ " temperature-shutdown!"
    else if s &&& tmcRrOtpw ≠ 0 then r ++ " temperature-warning" else r
  let r := if s &&& tmcRrS2g ≠ 0 then r ++ " short-to-ground" else r
  let r := if s &&& tmcRrOla ≠ 0 ∧ s &&& tmcRrStst = 0 then r ++ " open-load-A" else r
  let r := if s &&& tmcRrOlb ≠ 0 ∧ s &&& tmcRrStst = 0 then r ++ " open-load-B" else r
  let r :=
    if s &&& tmcRrStst ≠ 0 then r ++ " standstill"
    else if s &&& (tmcRrOt ||| tmcRrOtpw ||| tmcRrS2g ||| tmcRrOla ||| tmcRrOlb) = 0 then
      r ++ " ok"
    else r
  let r :=
    if d.minSgLoadRegister ≤ d.maxSgLoadRegister then
      r ++ ", SG min/max " ++ toString d.minSgLoadRegister.toNat ++ "/"
        ++ toString d.maxSgLoadRegister.toNat
    else r ++ ", SG min/max not available"
  (r, d.resetLoadRegisters)

theorem appendDriverStatus_snd (d : TmcDriverState) (reply : String) :
    (d.appendDriverStatus reply).2 = d.resetLoadRegisters := rfl

/-- The microstepping `1 << microstepShiftFactor` and the interpolation flag. -/
def getMicrostepping (d : TmcDriverState) : Word × Bool :=
  ((1 : Word) <<< d.microstepShiftFactor.toNat, d.registers driveControl &&& tmcDrvctrlIntpol ≠ 0)

def getChopConf (d : TmcDriverState) : Word := d.configuredChopConfReg &&& tmcDataMask

def getOffTime (d : TmcDriverState) : Word :=
  (d.configuredChopConfReg &&& tmcChopconfToffMask) >>> tmcChopconfToffShift

/-! ## The transfer methods -/

/-- `be32_to_cpu` (and `cpu_to_be32`) on the little-endian processor: the byte swap. -/
def byteSwap (x : Word) : Word :=
  x.extractLsb' 0 8 ++ x.extractLsb' 8 8 ++ x.extractLsb' 16 8 ++ x.extractLsb' 24 8

/-- The status `TransferDone` decodes from a reply: bits 31..12 of the big-endian frame,
without the stall bit when the motor is too slow for a reliable stall indication
(`interval` is the planner's full-step interval for this axis). -/
def transferStatus (d : TmcDriverState) (spiDataIn interval : Word) : Word :=
  let status := byteSwap spiDataIn >>> 12
  if interval = 0 ∨ interval > d.maxStallStepInterval then status &&& ~~~tmcRrSg else status

/-- Widen the window `[minSgLoadRegister, maxSgLoadRegister]` to the load reading. -/
def updateLoadWindow (d : TmcDriverState) (sgLoad : Word) : TmcDriverState :=
  let d := if sgLoad < d.minSgLoadRegister then { d with minSgLoadRegister := sgLoad } else d
  if sgLoad > d.maxSgLoadRegister then { d with maxSgLoadRegister := sgLoad } else d

/-- `TransferDone`, called by the ISR when the SPI transfer has completed: if the power is
still good, record the decoded status in both status words, and inside the step-rate
window track the StallGuard load reading. -/
def transferDone (d : TmcDriverState) (driversPowered : Bool) (spiDataIn interval : Word) :
    TmcDriverState :=
  if driversPowered then
    let status := d.transferStatus spiDataIn interval
    let d := if interval = 0 ∨ interval > d.maxStallStepInterval then d
      else d.updateLoadWindow ((status >>> tmcRrSgLoadShift) &&& 1023)
    { d with lastReadStatus := status, accumulatedStatus := d.accumulatedStatus ||| status }
  else d

theorem updateLoadWindow_eq (d : TmcDriverState) (sgLoad : Word) :
    ∃ mn mx, d.updateLoadWindow sgLoad =
      { d with minSgLoadRegister := mn, maxSgLoadRegister := mx } := by
  unfold updateLoadWindow
  split <;> dsimp only <;> split <;> exact ⟨_, _, rfl⟩

/-- `TransferDone` writes the two status words and the load window, nothing else, and
ORs the decoded status into the accumulated one while the drivers are powered. -/
theorem transferDone_eq (d : TmcDriverState) (driversPowered : Bool) (spiDataIn interval : Word) :
    ∃ ls mn mx, d.transferDone driversPowered spiDataIn interval =
      { d with lastReadStatus := ls,
               accumulatedStatus := if driversPowered
                 then d.accumulatedStatus ||| d.transferStatus spiDataIn interval
                 else d.accumulatedStatus,
               minSgLoadRegister := mn, maxSgLoadRegister := mx } := by
  cases driversPowered
  · exact ⟨_, _, _, rfl⟩
  · rw [transferDone, if_pos rfl, if_pos rfl]
    dsimp only
    split
    · exact ⟨_, _, _, rfl⟩
    · obtain ⟨mn, mx, e⟩ := d.updateLoadWindow_eq
        ((d.transferStatus spiDataIn interval >>> tmcRrSgLoadShift) &&& 1023)
      exact ⟨_, mn, mx, by rw [e]⟩

/-- The do-while loop of `StartTransfer`: from register `regNum` with bit `mask`, stop
at the first dirty register, or after the last test with `regNum` one past it. `k` is
the number of tests left. -/
def scanDirty (registersToUpdate : Word) (regNum : Nat) (mask : Word) : Nat → Nat × Word
  | 0 => (regNum, mask)
  | k + 1 =>
    if registersToUpdate &&& mask ≠ 0 then (regNum, mask)
    else scanDirty registersToUpdate (regNum + 1) (mask <<< 1) k

theorem scanDirty_fst_le (r : Word) (k : Nat) :
    ∀ (regNum : Nat) (mask : Word), (scanDirty r regNum mask k).1 ≤ regNum + k := by
  induction k with
  | zero => intro regNum mask; simp [scanDirty]
  | succ k ih =>
    intro regNum mask
    simp only [scanDirty]
    split
    · simp
    · have := ih (regNum + 1) (mask <<< 1); omega

/-- The loop keeps `mask == 1u << regNum`. -/
theorem scanDirty_snd (r : Word) (k : Nat) : ∀ n : Nat,
    (scanDirty r n ((1 : Word) <<< n) k).2 = (1 : Word) <<< (scanDirty r n ((1 : Word) <<< n) k).1 := by
  induction k with
  | zero => intro n; rfl
  | succ k ih =>
    intro n
    simp only [scanDirty]
    split
    · rfl
    · rw [← BitVec.shiftLeft_add]; exact ih (n + 1)

/-- Which register `StartTransfer` sends, and the record after it has cleared that
register's dirty bit: the most urgent dirty register, or the SmartEnable register as
a keep-alive when none is dirty. -/
def startTransfer (d : TmcDriverState) : Fin numRegisters × TmcDriverState :=
  if d.registersToUpdate = 0 then (smartEnable, d)
  else
    let s := scanDirty d.registersToUpdate 0 1 (numRegisters - 1)
    (⟨s.1, Nat.lt_of_le_of_lt (scanDirty_fst_le _ _ 0 1) (by decide)⟩,
      { d with registersToUpdate := d.registersToUpdate &&& ~~~s.2 })

/-- `StartTransfer` writes the dirty mask, nothing else. -/
theorem startTransfer_snd_eq (d : TmcDriverState) :
    ∃ r, d.startTransfer.2 = { d with registersToUpdate := r } := by
  unfold startTransfer
  split
  · exact ⟨_, rfl⟩
  · exact ⟨_, rfl⟩

theorem startTransfer_registers (d : TmcDriverState) :
    d.startTransfer.2.registers = d.registers := by
  obtain ⟨r, e⟩ := d.startTransfer_snd_eq
  rw [e]

/-- `StartTransfer` clears the dirty bit of the register it sends; with nothing dirty
it sends the keep-alive and the mask stays zero. -/
theorem startTransfer_registersToUpdate (d : TmcDriverState) :
    d.startTransfer.2.registersToUpdate =
      d.registersToUpdate &&& ~~~((1 : Word) <<< d.startTransfer.1.val) := by
  unfold startTransfer
  split
  · rename_i h; simp [h]
  · have h := scanDirty_snd d.registersToUpdate (numRegisters - 1) 0
    rw [BitVec.shiftLeft_zero] at h
    exact congrArg (fun m => d.registersToUpdate &&& ~~~m) h

theorem startTransfer_getLsbD (d : TmcDriverState) (i : Nat) :
    d.startTransfer.2.registersToUpdate.getLsbD i =
      (d.registersToUpdate.getLsbD i && decide (i ≠ d.startTransfer.1.val)) := by
  rw [startTransfer_registersToUpdate,
    getLsbD_and_not_one_shiftLeft _ (Nat.lt_trans d.startTransfer.1.isLt (by decide))]

/-! ### The register `StartTransfer` sends -/

/-- The registers whose bit is set in the dirty mask, most urgent first. -/
def dirtyRegisters (d : TmcDriverState) : List (Fin numRegisters) :=
  (List.finRange numRegisters).filter fun i => d.registersToUpdate.getLsbD i.val

/-- The mask names the five registers only. -/
def MaskWithin (d : TmcDriverState) : Prop :=
  ∀ j, d.registersToUpdate.getLsbD j = true → j < numRegisters

/-- The first dirty register, as a number, is the first set bit among `0, ..., 4`. -/
theorem dirtyRegisters_head?_map (d : TmcDriverState) :
    d.dirtyRegisters.head?.map Fin.val =
      (List.range numRegisters).find? (d.registersToUpdate.getLsbD ·) := by
  rw [dirtyRegisters, List.filter_head?, ← List.map_coe_finRange, List.find?_map]
  rfl

/-- The do-while loop of `StartTransfer` stops at the first register of `n, ..., n + k - 1`
whose bit is set, or one past them. -/
theorem scanDirty_fst_eq (r : Word) : ∀ (k n : Nat), n + k ≤ 32 →
    (scanDirty r n ((1 : Word) <<< n) k).1 =
      ((List.range' n k).find? (r.getLsbD ·)).getD (n + k)
  | 0, _, _ => rfl
  | k + 1, n, h => by
    rw [scanDirty, List.range'_succ, List.find?_cons]
    cases hb : r.getLsbD n
    · rw [if_neg (not_not.2 ((and_one_shiftLeft_eq_zero (by omega)).2 hb)),
        ← BitVec.shiftLeft_add, scanDirty_fst_eq r k (n + 1) (by omega), Nat.add_right_comm]
      rfl
    · rw [if_pos (mt (and_one_shiftLeft_eq_zero (by omega)).1 (by simp [hb]))]
      rfl

/-- **`StartTransfer` sends the first dirty register**, or SmartEnable when none is dirty.
The scan tests registers 0 to 3 and falls through to 4 without testing it, which agrees
with the list whatever the mask holds. -/
theorem startTransfer_fst (d : TmcDriverState) :
    d.startTransfer.1 = d.dirtyRegisters.head?.getD smartEnable := by
  unfold startTransfer
  split
  · rename_i h0
    have : d.dirtyRegisters = [] := List.filter_eq_nil_iff.2 fun i _ => by simp [h0]
    rw [this]
    rfl
  · apply Fin.ext
    have hs := scanDirty_fst_eq d.registersToUpdate 4 0 (by omega)
    rw [BitVec.shiftLeft_zero] at hs
    show (scanDirty d.registersToUpdate 0 1 4).1 = _
    rw [hs, ← Option.getD_map Fin.val smartEnable, dirtyRegisters_head?_map,
      show List.range numRegisters = List.range' 0 4 ++ [4] from rfl, List.find?_append]
    cases (List.range' 0 4).find? (d.registersToUpdate.getLsbD ·) with
    | some j => rfl
    | none => rw [Option.none_or, List.find?_singleton]; split <;> rfl

/-- A mask within the five registers with none of them dirty is empty. -/
theorem registersToUpdate_eq_zero {d : TmcDriverState} (hd : d.MaskWithin)
    (h : d.dirtyRegisters = []) : d.registersToUpdate = 0 := by
  apply BitVec.eq_of_getLsbD_eq
  intro j
  cases hb : d.registersToUpdate.getLsbD j
  · simp
  · exact (List.filter_eq_nil_iff.1 h ⟨j, hd j hb⟩ (List.mem_finRange _) hb).elim

/-- **`StartTransfer` sends a keep-alive only with an empty mask.** On a mask within the
five registers, a frame whose register has its bit clear is the SmartEnable keep-alive,
and no register is dirty. -/
theorem startTransfer_keepAlive {d : TmcDriverState} (hd : d.MaskWithin)
    (h : d.registersToUpdate.getLsbD d.startTransfer.1 = false) :
    d.startTransfer.1 = smartEnable ∧ d.registersToUpdate = 0 := by
  rw [startTransfer_fst] at h ⊢
  cases hl : d.dirtyRegisters with
  | nil => exact ⟨rfl, registersToUpdate_eq_zero hd hl⟩
  | cons a t =>
    have ha : a ∈ d.dirtyRegisters := hl ▸ List.mem_cons_self a t
    rw [hl] at h
    exact Bool.noConfusion (h.symm.trans (List.mem_filter.1 ha).2)

/-! ## Initialisation -/

/-- The registers' reset values; register 2 starts with TOFF cleared, so the driver
is disabled at start-up. -/
def initialRegisters : Fin numRegisters → Word :=
  ![defaultDrvCtrlReg, defaultSgscConfReg, defaultChopConfReg &&& ~~~tmcChopconfToffMask,
    defaultDrvConfReg, defaultSmartEnReg]

/-- The record `Init` fills in field by field, before it calls the setters. -/
def initBase (axisNumber pin : Word) : TmcDriverState :=
  { registers := initialRegisters, pin, configuredChopConfReg := defaultChopConfReg,
    registersToUpdate := updateAllRegisters, axisNumber, microstepShiftFactor := 0,
    maxStallStepInterval := 0, minSgLoadRegister := 0, maxSgLoadRegister := 0,
    lastReadStatus := 0, accumulatedStatus := 0, enabled := false }

/-- `Init(axisNumber, pin)`: the driver disabled, every register dirty, the defaults
applied through the setters. -/
def init (stepClockRate axisNumber pin : Word) : TmcDriverState :=
  ((((initBase axisNumber pin).resetLoadRegisters.setMicrostepping defaultMicrosteppingShift
    defaultInterpolation).setStallDetectThreshold defaultStallDetectThreshold).setStallDetectFilter
    defaultStallDetectFiltered).setStallMinimumStepsPerSecond stepClockRate
    defaultMinimumStepsPerSecond

/-- `Init` leaves every register dirty. -/
theorem init_registersToUpdate (stepClockRate axisNumber pin : Word) :
    (init stepClockRate axisNumber pin).registersToUpdate = updateAllRegisters := by
  show ((updateAllRegisters ||| (1 : Word) <<< 0) ||| (1 : Word) <<< 1) ||| (1 : Word) <<< 1 =
    updateAllRegisters
  decide

/-- The register words `Init` writes do not depend on the step clock, the axis or the pin. -/
theorem init_registers (stepClockRate axisNumber pin : Word) :
    (init stepClockRate axisNumber pin).registers = (init 0 0 0).registers := by
  simp only [init, initBase, resetLoadRegisters, setMicrostepping, setStallDetectThreshold,
    setStallDetectFilter, setStallMinimumStepsPerSecond, setRegister, markDirty_registers]

/-! ## What the setters leave for the getters -/

/-- `GetMicrostepping` after `SetMicrostepping(shift, interpolate)`: `1 << shift`, and the
interpolation flag as set. -/
theorem getMicrostepping_setMicrostepping (d : TmcDriverState) (shift : Word) (b : Bool) :
    (d.setMicrostepping shift b).getMicrostepping = ((1 : Word) <<< shift.toNat, b) := by
  refine Prod.ext rfl ?_
  simp only [getMicrostepping, setMicrostepping, markDirty_registers, setRegister_registers_self]
  cases b
  · simp [and_not_and_self]
  · simp only [if_true, or_and_self]
    decide

/-- `SetMicrostepping(shift, interpolate)` writes `8 - shift` into the MRES field, whatever
it does to the interpolation bit. -/
theorem mres_setMicrostepping (d : TmcDriverState) (shift : Word) (b : Bool) :
    (d.setMicrostepping shift b).registers driveControl &&& tmcDrvctrlMresMask =
      (8 - shift) <<< tmcDrvctrlMresShift &&& tmcDrvctrlMresMask := by
  have hy := and_self_and_not ((8 - shift) <<< tmcDrvctrlMresShift) tmcDrvctrlMresMask
  have hfield : tmcDrvctrlMresMask &&& tmcDrvctrlIntpol = 0 := by decide
  simp only [setMicrostepping, markDirty_registers, setRegister_registers_self]
  cases b
  · rw [if_neg Bool.false_ne_true, and_eq_of_and_not_eq _ _ (and_not_and_not_self _ _) hfield,
      and_not_or_and_self _ _ _ hy]
  · rw [if_pos rfl, and_eq_of_and_not_eq _ _ (or_and_not_self _ _) hfield,
      and_not_or_and_self _ _ _ hy]

/-- A minimum stall rate above the step clock rate stores a zero interval. -/
theorem setStallMinimumStepsPerSecond_eq_zero (d : TmcDriverState) {stepClockRate s : Word}
    (h : stepClockRate < s) :
    (d.setStallMinimumStepsPerSecond stepClockRate s).maxStallStepInterval = 0 := by
  rw [BitVec.lt_def] at h
  apply BitVec.eq_of_toNat_eq
  simp only [setStallMinimumStepsPerSecond, BitVec.toNat_udiv]
  split
  · exact Nat.div_eq_of_lt h
  · rename_i h1
    simp only [gt_iff_lt, BitVec.lt_def, show (1 : Word).toNat = 1 from rfl] at h1
    rw [show (1 : Word).toNat = 1 from rfl, show (0 : Word).toNat = 0 from rfl, Nat.div_one]
    omega

/-- With a zero interval, `AppendStallConfig` divides by zero. -/
theorem appendStallConfig_of_zero {d : TmcDriverState} (h : d.maxStallStepInterval = 0)
    (stepClockRate : Word) (reply : String) : d.appendStallConfig stepClockRate reply = none := by
  rw [appendStallConfig, if_pos h]

/-- With a zero interval, `TransferDone` drops the stall bit at every step interval. -/
theorem transferStatus_sg_of_zero {d : TmcDriverState} (h : d.maxStallStepInterval = 0)
    (spiDataIn interval : Word) : d.transferStatus spiDataIn interval &&& tmcRrSg = 0 := by
  rw [transferStatus, if_pos, and_not_and_self]
  rw [h]
  by_cases hi : interval = 0
  · exact .inl hi
  · right
    show 0 < interval
    rw [BitVec.lt_def, show (0 : Word).toNat = 0 from rfl]
    exact Nat.pos_of_ne_zero ((BitVec.toNat_ne).mp hi)

end TmcDriverState

end Tmc2660
