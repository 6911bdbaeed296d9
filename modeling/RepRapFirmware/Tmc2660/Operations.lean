import RepRapFirmware.Tmc2660.DriverState

/-!
# Runs of one driver

A driver's life after `Init` is a sequence of its methods: the main thread's setters
and readers, and the `StartTransfer` and `TransferDone` the SPI interrupt runs. Here
each method call is taken whole (an atomic step); `Tmc2660.DirtyMask` and
`Tmc2660.StatusRace` split the calls that race with the interrupt.

`DriverOp` names the calls, `DriverOp.apply` runs one, and `Reachable` is every record
`Init` and a sequence of calls can produce. The frame lemmas at the end say, once per
call, which register word and which chopper fields it may write; the invariant proofs
of `Tmc2660.Chopper` and `Tmc2660.Fields` cite them instead of unfolding the calls.
-/

set_option autoImplicit false

namespace Tmc2660

open TmcDriverState

/-- One call of a `TmcDriverState` method, with its arguments. The transfer calls carry
what they read from outside the record. -/
inductive DriverOp
  | setAxisNumber (axisNumber : Word)
  | writeAll
  | setChopConf (newVal : Word)
  | setOffTime (newVal : Word)
  | setDriverMode (mode : DriverMode)
  | setMicrostepping (shift : Word) (interpolate : Bool)
  | setCurrent (iCurrent : Word)
  | enable (en : Bool)
  | readAccumulatedStatus (bitsToKeep : Word)
  | setStallDetectThreshold (sgThreshold : Int)
  | setStallDetectFilter (sgFilter : Bool)
  | setStallMinimumStepsPerSecond (stepsPerSecond : Word)
  | setCoolStep (coolStepConfig : BitVec 16)
  | appendDriverStatus (reply : String)
  | startTransfer
  | transferDone (driversPowered : Bool) (spiDataIn interval : Word)

namespace DriverOp

variable (stepClockRate : Word)

/-- The record after one call. -/
def apply : DriverOp → TmcDriverState → TmcDriverState
  | .setAxisNumber n, d => d.setAxisNumber n
  | .writeAll, d => d.writeAll
  | .setChopConf v, d => (d.setChopConf v).2
  | .setOffTime v, d => (d.setOffTime v).2
  | .setDriverMode m, d => (d.setDriverMode m).2
  | .setMicrostepping s b, d => d.setMicrostepping s b
  | .setCurrent c, d => d.setCurrent c
  | .enable en, d => d.enable en
  | .readAccumulatedStatus k, d => (d.readAccumulatedStatus k).2
  | .setStallDetectThreshold t, d => d.setStallDetectThreshold t
  | .setStallDetectFilter f, d => d.setStallDetectFilter f
  | .setStallMinimumStepsPerSecond s, d => d.setStallMinimumStepsPerSecond stepClockRate s
  | .setCoolStep c, d => d.setCoolStep c
  | .appendDriverStatus r, d => (d.appendDriverStatus r).2
  | .startTransfer, d => d.startTransfer.2
  | .transferDone p w i, d => d.transferDone p w i

/-- The record after a sequence of calls, first call first. -/
def run (ops : List DriverOp) (d : TmcDriverState) : TmcDriverState :=
  ops.foldl (fun d op => op.apply stepClockRate d) d

@[simp] theorem run_nil (d : TmcDriverState) : run stepClockRate [] d = d := rfl

@[simp] theorem run_cons (op : DriverOp) (ops : List DriverOp) (d : TmcDriverState) :
    run stepClockRate (op :: ops) d = run stepClockRate ops (op.apply stepClockRate d) := rfl

/-- The register whose word a call may store, if any. -/
def register : DriverOp → Option (Fin numRegisters)
  | .setChopConf _ | .setOffTime _ | .setDriverMode _ | .enable _ => some chopperControl
  | .setMicrostepping _ _ => some driveControl
  | .setCurrent _ | .setStallDetectThreshold _ | .setStallDetectFilter _ =>
    some stallGuardConfig
  | .setCoolStep _ => some smartEnable
  | _ => none

/-- The calls that go through `SetChopConf` or `Enable`, the only writers of the
configured chopper word and of the enable flag. -/
def IsChopper : DriverOp → Prop
  | .setChopConf _ | .setOffTime _ | .setDriverMode _ | .enable _ => True
  | _ => False

end DriverOp

/-- Every record `Init` and a sequence of calls can produce. -/
inductive Reachable (stepClockRate : Word) : TmcDriverState → Prop
  | init (axisNumber pin : Word) :
    Reachable stepClockRate (TmcDriverState.init stepClockRate axisNumber pin)
  | step {d : TmcDriverState} (op : DriverOp) :
    Reachable stepClockRate d → Reachable stepClockRate (op.apply stepClockRate d)

theorem Reachable.run {stepClockRate : Word} {d : TmcDriverState}
    (h : Reachable stepClockRate d) (ops : List DriverOp) :
    Reachable stepClockRate (DriverOp.run stepClockRate ops d) := by
  induction ops generalizing d with
  | nil => exact h
  | cons op ops ih => exact ih (h.step op)

/-! ## What each call may write -/

namespace TmcDriverState

variable (d : TmcDriverState)

/-- `SetChopConf` either refuses and leaves the record alone, or accepts and is the
chopper update of `d` with a new configured word. -/
theorem setChopConf_cases (v : Word) :
    ((d.setChopConf v).1 = false ∧ (d.setChopConf v).2 = d) ∨
      ((d.setChopConf v).1 = true ∧ (d.setChopConf v).2 = updateChopConfRegister
        { d with configuredChopConfReg := (v &&& 0x0001FFFF) ||| tmcRegChopconf }) := by
  simp only [setChopConf]
  split
  · exact .inl ⟨rfl, rfl⟩
  · exact .inr ⟨rfl, rfl⟩

theorem setChopConf_eq_of_refused {v : Word} (h : (d.setChopConf v).1 = false) :
    (d.setChopConf v).2 = d := by
  rcases d.setChopConf_cases v with ⟨-, e⟩ | ⟨h', -⟩
  · exact e
  · rw [h] at h'; cases h'

theorem setChopConf_registersToUpdate_of_accepted {v : Word} (h : (d.setChopConf v).1 = true) :
    (d.setChopConf v).2.registersToUpdate = d.registersToUpdate ||| (1 : Word) <<< chopperControl.val := by
  rcases d.setChopConf_cases v with ⟨h', -⟩ | ⟨-, e⟩
  · rw [h] at h'; cases h'
  · rw [e]; rfl

theorem setOffTime_cases (v : Word) :
    d.setOffTime v = (false, d) ∨ ∃ w, d.setOffTime v = d.setChopConf w := by
  simp only [setOffTime]
  split
  · exact .inl rfl
  · exact .inr ⟨_, rfl⟩

theorem setDriverMode_cases (m : DriverMode) :
    d.setDriverMode m = (false, d) ∨ ∃ w, d.setDriverMode m = d.setChopConf w := by
  cases m
  all_goals first | exact .inl rfl | exact .inr ⟨_, rfl⟩

theorem setOffTime_eq_of_refused {n : Word} (h : (d.setOffTime n).1 = false) :
    (d.setOffTime n).2 = d := by
  rcases d.setOffTime_cases n with e | ⟨w, e⟩
  · rw [e]
  · rw [e] at h ⊢; exact d.setChopConf_eq_of_refused h

theorem setDriverMode_eq_of_refused {m : DriverMode} (h : (d.setDriverMode m).1 = false) :
    (d.setDriverMode m).2 = d := by
  rcases d.setDriverMode_cases m with e | ⟨w, e⟩
  · rw [e]
  · rw [e] at h ⊢; exact d.setChopConf_eq_of_refused h

/-- `Enable` either finds the flag already set and leaves the record alone, or flips
the flag and rederives register 2 from a record that differs only in the status words. -/
theorem enable_cases (en : Bool) :
    (d.enabled = en ∧ d.enable en = d) ∨ (d.enabled ≠ en ∧ ∃ e : TmcDriverState,
      e.registers = d.registers ∧ e.configuredChopConfReg = d.configuredChopConfReg ∧
      e.registersToUpdate = d.registersToUpdate ∧
      d.enable en = updateChopConfRegister { e with enabled := en }) := by
  simp only [enable]
  split <;> rename_i h
  · refine .inr ⟨h, _, ?_, ?_, ?_, rfl⟩ <;> split <;> rfl
  · exact .inl ⟨not_not.mp h, rfl⟩

@[simp] theorem updateChopConfRegister_registers_of_ne {i : Fin numRegisters}
    (h : i ≠ chopperControl) : (updateChopConfRegister d).registers i = d.registers i :=
  setRegister_registers_of_ne _ _ h

theorem setChopConf_registers_of_ne (v : Word) {i : Fin numRegisters}
    (h : i ≠ chopperControl) : (d.setChopConf v).2.registers i = d.registers i := by
  rcases d.setChopConf_cases v with ⟨-, e⟩ | ⟨-, e⟩ <;> rw [e]
  exact updateChopConfRegister_registers_of_ne _ h

end TmcDriverState

namespace DriverOp

open TmcDriverState

variable (stepClockRate : Word)

/-- A call stores no register word but its own. -/
theorem apply_registers_of_ne (op : DriverOp) (d : TmcDriverState) {i : Fin numRegisters}
    (h : op.register ≠ some i) : (op.apply stepClockRate d).registers i = d.registers i := by
  have ne : ∀ r, op.register = some r → i ≠ r := fun r hr he => h (he ▸ hr)
  cases op with
  | setChopConf v => exact setChopConf_registers_of_ne d v (ne _ rfl)
  | setOffTime v =>
    rcases d.setOffTime_cases v with e | ⟨w, e⟩ <;> simp only [apply, e]
    exact setChopConf_registers_of_ne d w (ne _ rfl)
  | setDriverMode m =>
    rcases d.setDriverMode_cases m with e | ⟨w, e⟩ <;> simp only [apply, e]
    exact setChopConf_registers_of_ne d w (ne _ rfl)
  | enable en =>
    rcases d.enable_cases en with ⟨-, e⟩ | ⟨-, e', hr, -, -, e⟩ <;> simp only [apply, e]
    rw [updateChopConfRegister_registers_of_ne _ (ne _ rfl)]
    exact congrFun hr i
  | setMicrostepping s b | setCurrent c | setStallDetectThreshold t
  | setStallDetectFilter f | setCoolStep c =>
    exact setRegister_registers_of_ne _ _ (ne _ rfl)
  | startTransfer =>
    obtain ⟨r, e⟩ := d.startTransfer_snd_eq
    simp only [apply, e]
  | transferDone p w iv =>
    obtain ⟨_, _, _, e⟩ := d.transferDone_eq p w iv
    simp only [apply, e]
  | _ => cases d; rfl

/-- A call outside the chopper family changes neither the configured chopper word nor
the enable flag. -/
theorem apply_chopper_fields (op : DriverOp) (d : TmcDriverState) (h : ¬ op.IsChopper) :
    (op.apply stepClockRate d).configuredChopConfReg = d.configuredChopConfReg ∧
      (op.apply stepClockRate d).enabled = d.enabled := by
  cases op with
  | setChopConf | setOffTime | setDriverMode | enable => exact absurd trivial h
  | startTransfer =>
    obtain ⟨r, e⟩ := d.startTransfer_snd_eq
    simp only [apply, e, and_self]
  | transferDone p w iv =>
    obtain ⟨_, _, _, e⟩ := d.transferDone_eq p w iv
    simp only [apply, e, and_self]
  | _ => cases d; exact ⟨rfl, rfl⟩

/-- A run of calls none of which stores register `i` leaves that word alone. -/
theorem run_registers_of_ne (ops : List DriverOp) (d : TmcDriverState) {i : Fin numRegisters}
    (h : ∀ op ∈ ops, op.register ≠ some i) :
    (run stepClockRate ops d).registers i = d.registers i := by
  induction ops generalizing d with
  | nil => rfl
  | cons op ops ih =>
    rw [run_cons, ih _ (fun o ho => h o (List.mem_cons_of_mem _ ho)),
      apply_registers_of_ne _ _ _ (h op (List.mem_cons_self _ _))]

/-- A run of calls outside the chopper family leaves the configured chopper word and
the enable flag alone. -/
theorem run_chopper_fields (ops : List DriverOp) (d : TmcDriverState)
    (h : ∀ op ∈ ops, ¬ op.IsChopper) :
    (run stepClockRate ops d).configuredChopConfReg = d.configuredChopConfReg ∧
      (run stepClockRate ops d).enabled = d.enabled := by
  induction ops generalizing d with
  | nil => exact ⟨rfl, rfl⟩
  | cons op ops ih =>
    obtain ⟨hc, he⟩ := apply_chopper_fields stepClockRate op d (h op (List.mem_cons_self _ _))
    obtain ⟨hc', he'⟩ := ih (op.apply stepClockRate d) (fun o ho => h o (List.mem_cons_of_mem _ ho))
    exact ⟨hc'.trans hc, he'.trans he⟩

end DriverOp

/-- `Init` is the record it fills in field by field, followed by four setter calls. -/
theorem init_eq_run (stepClockRate axisNumber pin : Word) :
    TmcDriverState.init stepClockRate axisNumber pin =
      DriverOp.run stepClockRate
        [.setMicrostepping defaultMicrosteppingShift defaultInterpolation,
         .setStallDetectThreshold defaultStallDetectThreshold,
         .setStallDetectFilter defaultStallDetectFiltered,
         .setStallMinimumStepsPerSecond defaultMinimumStepsPerSecond]
        (initBase axisNumber pin).resetLoadRegisters := rfl

end Tmc2660
