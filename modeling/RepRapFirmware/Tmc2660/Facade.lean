import RepRapFirmware.Tmc2660.SmartDrivers
import RepRapFirmware.Tmc2660.Operations

/-!
# The entry points refine the one-driver model

The invariants of `Tmc2660.Fields`, `Tmc2660.Chopper`, `Tmc2660.DirtyMask`,
`Tmc2660.Polling` and `Tmc2660.StallReports` are proved of one driver record over every
sequence of its methods (`Reachable`). The rest of the firmware does not call those
methods itself: it calls the `SmartDrivers` entry points with a driver number, `Spin`
calls `WriteAll` on every record when the power comes back and `StartTransfer` on record
0, and the SPI interrupt calls `TransferDone` and `StartTransfer` on the record in flight.

`FacadeCall` names those calls, each with the number of the driver it acts on, and
`FacadeReachable` is every state of the records that `SmartDrivers::Init` and a sequence
of calls can produce. `FacadeCall.driverOp` is the abstraction: the one method of the
one-driver model a call runs on its record, or none for a `SetMicrostepping` count the
entry point refuses. Each call is that method, run through the guard
(`FacadeCall.apply_eq`).

**What is proved** (`facade_refines_driver_model`). In every such state every record is a
record of the one-driver model, so every invariant proved of one driver holds of each
driver; and a call on driver `n` keeps the number of drivers and every other record, and
does to record `n` what the method `driverOp` names does, or nothing when it names none.
-/

set_option autoImplicit false

namespace Tmc2660

open TmcDriverState

namespace SmartDrivers

/-! ## The guard, once more -/

section Guard

variable {α : Type} (sd : SmartDrivers) (driver : Nat) (default : α)
  (f : TmcDriverState → α × TmcDriverState)

/-- The records a guarded call leaves depend only on the records its method leaves. -/
theorem callDriver_snd_eq :
    (sd.callDriver driver default f).2 = (sd.callDriver driver () fun d => ((), (f d).2)).2 := by
  unfold callDriver
  split <;> rfl

theorem callDriver_numTmc2660Drivers :
    (sd.callDriver driver default f).2.numTmc2660Drivers = sd.numTmc2660Drivers := by
  unfold callDriver
  split <;> rfl

/-- A guard that finds no driver changes nothing. -/
theorem callDriver_snd_of_not_lt (hd : ¬driver < sd.numTmc2660Drivers) :
    (sd.callDriver driver default f).2 = sd := by
  rw [callDriver, dif_neg hd]

/-- A guarded call of a method that changes nothing changes nothing. -/
theorem callDriver_id : (sd.callDriver driver () fun d => ((), d)).2 = sd := by
  by_cases hd : driver < sd.numTmc2660Drivers
  · rw [callDriver_of_lt sd hd]
    simp only [Function.update_eq_self]
  · exact callDriver_snd_of_not_lt sd driver () _ hd

/-- A guarded call leaves the records of the other drivers alone. -/
theorem driver?_callDriver_of_ne {j : Nat} (hj : j ≠ driver) :
    (sd.callDriver driver default f).2.driver? j = sd.driver? j := by
  by_cases hd : driver < sd.numTmc2660Drivers
  · rw [callDriver_of_lt sd hd]
    unfold driver?
    dsimp only
    split
    · rw [Function.update_noteq (fun e => hj (Fin.mk.inj_iff.1 e))]
    · rfl
  · rw [callDriver, dif_neg hd]

/-- A guarded call runs its method on the record of its driver, if there is one. -/
theorem driver?_callDriver_self :
    (sd.callDriver driver default f).2.driver? driver = (sd.driver? driver).map fun d => (f d).2 := by
  by_cases hd : driver < sd.numTmc2660Drivers
  · rw [driver?_callDriver sd hd, driver?, dif_pos hd, Option.map_some']
  · rw [callDriver, dif_neg hd, driver?, dif_neg hd, Option.map_none']

end Guard

/-! ## The calls -/

/-- A call on the driver records: an entry point of `SmartDrivers` that may change a
record, `WriteAll` from `Spin`, or a transfer the SPI interrupt (or `Spin`) runs on the
record in flight. Each names the driver it acts on. -/
inductive FacadeCall
  | setAxisNumber (driver : Nat) (axisNumber : Word)
  | setCurrent (driver : Nat) (iCurrent : Word)
  | enableDrive (driver : Nat) (en : Bool)
  | getAccumulatedStatus (driver : Nat) (bitsToKeep : Word)
  | setMicrostepping (driver : Nat) (microsteps : Word) (interpolate : Bool)
  | setDriverMode (driver : Nat) (mode : DriverMode)
  | setChopperControlRegister (driver : Nat) (ccr : Word)
  | setOffTime (driver : Nat) (offTime : Word)
  | setStallThreshold (driver : Nat) (sgThreshold : Int)
  | setStallFilter (driver : Nat) (sgFilter : Bool)
  | setStallMinimumStepsPerSecond (driver : Nat) (stepsPerSecond : Word)
  | setCoolStep (driver : Nat) (coolStepConfig : BitVec 16)
  | appendDriverStatus (driver : Nat) (reply : String)
  | writeAll (driver : Nat)
  | startTransfer (driver : Nat)
  | transferDone (driver : Nat) (driversPowered : Bool) (spiDataIn interval : Word)

namespace FacadeCall

/-- The driver a call acts on. -/
def driver : FacadeCall → Nat
  | .setAxisNumber n _ | .setCurrent n _ | .enableDrive n _ | .getAccumulatedStatus n _
  | .setMicrostepping n _ _ | .setDriverMode n _ | .setChopperControlRegister n _
  | .setOffTime n _ | .setStallThreshold n _ | .setStallFilter n _
  | .setStallMinimumStepsPerSecond n _ | .setCoolStep n _ | .appendDriverStatus n _
  | .writeAll n | .startTransfer n | .transferDone n _ _ _ => n

variable (stepClockRate : Word)

/-- The records after a call; `none` where `SetMicrostepping`'s loop would not end. -/
def apply : FacadeCall → SmartDrivers → Option SmartDrivers
  | .setAxisNumber n a, sd => some (sd.setAxisNumber n a)
  | .setCurrent n c, sd => some (sd.setCurrent n c)
  | .enableDrive n en, sd => some (sd.enableDrive n en)
  | .getAccumulatedStatus n k, sd => some (sd.getAccumulatedStatus n k).2
  | .setMicrostepping n m b, sd => (sd.setMicrostepping n m b).map Prod.snd
  | .setDriverMode n mode, sd => some (sd.setDriverMode n mode).2
  | .setChopperControlRegister n v, sd => some (sd.setChopperControlRegister n v).2
  | .setOffTime n t, sd => some (sd.setOffTime n t).2
  | .setStallThreshold n t, sd => some (sd.setStallThreshold n t)
  | .setStallFilter n f, sd => some (sd.setStallFilter n f)
  | .setStallMinimumStepsPerSecond n s, sd =>
    some (sd.setStallMinimumStepsPerSecond n stepClockRate s)
  | .setCoolStep n c, sd => some (sd.setCoolStep n c)
  | .appendDriverStatus n r, sd => some (sd.appendDriverStatus n r).2
  | .writeAll n, sd => some (sd.callDriver n () fun d => ((), d.writeAll)).2
  | .startTransfer n, sd => some (sd.callDriver n () fun d => ((), d.startTransfer.2)).2
  | .transferDone n p w i, sd => some (sd.callDriver n () fun d => ((), d.transferDone p w i)).2

/-- The one method of the one-driver model a call runs on the record of its driver: the
method the entry point calls, with its arguments; for `SetMicrostepping`, `SetMicrostepping`
of the record with the shift the loop finds, for a count `1 << shift` with `shift ≤ 8`,
and none for any other count. -/
def driverOp : FacadeCall → Option DriverOp
  | .setAxisNumber _ a => some (.setAxisNumber a)
  | .setCurrent _ c => some (.setCurrent c)
  | .enableDrive _ en => some (.enable en)
  | .getAccumulatedStatus _ k => some (.readAccumulatedStatus k)
  | .setMicrostepping _ m b =>
    if 0 < m then
      match shiftLoop m 0 32 with
      | some (uSteps, shift) =>
        if uSteps = 1 ∧ shift ≤ 8 then some (.setMicrostepping shift b) else none
      | none => none
    else none
  | .setDriverMode _ mode => some (.setDriverMode mode)
  | .setChopperControlRegister _ v => some (.setChopConf v)
  | .setOffTime _ t => some (.setOffTime t)
  | .setStallThreshold _ t => some (.setStallDetectThreshold t)
  | .setStallFilter _ f => some (.setStallDetectFilter f)
  | .setStallMinimumStepsPerSecond _ s => some (.setStallMinimumStepsPerSecond s)
  | .setCoolStep _ c => some (.setCoolStep c)
  | .appendDriverStatus _ r => some (.appendDriverStatus r)
  | .writeAll _ => some .writeAll
  | .startTransfer _ => some .startTransfer
  | .transferDone _ p w i => some (.transferDone p w i)

/-- **What a call does.** The method `driverOp` names, or none, on the record of its driver,
through the guard. -/
theorem apply_eq (call : FacadeCall) {sd sd' : SmartDrivers}
    (h : call.apply stepClockRate sd = some sd') :
    sd' = (sd.callDriver call.driver () fun d =>
      ((), DriverOp.run stepClockRate call.driverOp.toList d)).2 := by
  cases call with
  | setMicrostepping n m b =>
    simp only [apply, SmartDrivers.setMicrostepping] at h
    by_cases hg : n < sd.numTmc2660Drivers ∧ 0 < m
    · rw [if_pos hg] at h
      simp only [driver, driverOp, if_pos hg.2]
      split at h
      · cases h
      · rename_i uSteps shift hl
        simp only [hl]
        split_ifs at h ⊢ <;> cases h
        · rfl
        · exact (callDriver_id _ _).symm
    · rw [if_neg hg] at h
      cases h
      by_cases hn : n < sd.numTmc2660Drivers
      · simp only [driver, driverOp, if_neg fun hm => hg ⟨hn, hm⟩, Option.toList_none]
        exact (callDriver_id _ _).symm
      · exact (callDriver_snd_of_not_lt _ _ _ _ hn).symm
  | setAxisNumber | setCurrent | enableDrive | setStallThreshold | setStallFilter
  | setStallMinimumStepsPerSecond | setCoolStep | writeAll | startTransfer | transferDone =>
    cases h; rfl
  | getAccumulatedStatus | setDriverMode | setChopperControlRegister | setOffTime
  | appendDriverStatus => cases h; exact callDriver_snd_eq _ _ _ _

end FacadeCall

/-- Every state of the driver records `Init` and a sequence of calls can produce. -/
inductive FacadeReachable (stepClockRate : Word) : SmartDrivers → Prop
  | init (maxSmartDrivers : Nat) (driverSelectPins : Nat → Word) (numTmcDrivers : Nat) :
    FacadeReachable stepClockRate (init maxSmartDrivers stepClockRate driverSelectPins numTmcDrivers)
  | step {sd sd' : SmartDrivers} (call : FacadeCall) : FacadeReachable stepClockRate sd →
    call.apply stepClockRate sd = some sd' → FacadeReachable stepClockRate sd'

/-! ## The refinement -/

variable {stepClockRate : Word}

/-- A call keeps the number of drivers and the other records, and runs on the record of its
driver the method `driverOp` names, or none. -/
theorem FacadeCall.apply_frame (call : FacadeCall) {sd sd' : SmartDrivers}
    (h : call.apply stepClockRate sd = some sd') :
    sd'.numTmc2660Drivers = sd.numTmc2660Drivers ∧
      (∀ j, j ≠ call.driver → sd'.driver? j = sd.driver? j) ∧
      sd'.driver? call.driver =
        (sd.driver? call.driver).map (DriverOp.run stepClockRate call.driverOp.toList) := by
  rw [call.apply_eq stepClockRate h]
  exact ⟨callDriver_numTmc2660Drivers _ _ _ _, fun j hj => driver?_callDriver_of_ne _ _ _ _ hj,
    driver?_callDriver_self _ _ _ _⟩

theorem facade_records_reachable {sd : SmartDrivers} (h : FacadeReachable stepClockRate sd) :
    ∀ j d, sd.driver? j = some d → Reachable stepClockRate d := by
  induction h with
  | init maxSmartDrivers pins num =>
    intro j d hd
    unfold driver? at hd
    split at hd
    · cases hd
      exact .init _ _
    · cases hd
  | step call _ hs ih =>
    intro j d hd
    rw [call.apply_eq stepClockRate hs] at hd
    by_cases hj : j = call.driver
    · subst hj
      rw [driver?_callDriver_self, Option.map_eq_some'] at hd
      obtain ⟨d₀, h₀, rfl⟩ := hd
      exact (ih _ d₀ h₀).run _
    · rw [driver?_callDriver_of_ne _ _ _ _ hj] at hd
      exact ih j d hd

/-- **The entry points refine the one-driver model.** In every state `Init` and any
sequence of entry-point calls, `Spin`'s `WriteAll`s and the interrupt's transfers produce,
every driver record is a record of the one-driver model, so each invariant proved over
`Reachable` holds of every driver; and from there a call on driver `n` keeps the number of
drivers and every other record, and runs on record `n` the one method `driverOp` names, or
none. -/
theorem facade_refines_driver_model {sd : SmartDrivers} (h : FacadeReachable stepClockRate sd) :
    (∀ j d, sd.driver? j = some d → Reachable stepClockRate d) ∧
      ∀ (call : FacadeCall) (sd' : SmartDrivers), call.apply stepClockRate sd = some sd' →
        sd'.numTmc2660Drivers = sd.numTmc2660Drivers ∧
        (∀ j, j ≠ call.driver → sd'.driver? j = sd.driver? j) ∧
        sd'.driver? call.driver =
          (sd.driver? call.driver).map (DriverOp.run stepClockRate call.driverOp.toList) :=
  ⟨facade_records_reachable h, fun call _ hs => call.apply_frame hs⟩

/-- Two drivers on a 937500 Hz step clock, after driver 1 is set to one ampere. -/
theorem facade_after_set_current : ∃ sd, FacadeReachable 937500 sd ∧
    (∀ j d, sd.driver? j = some d → Reachable 937500 d) ∧
      ∀ (call : FacadeCall) (sd' : SmartDrivers), call.apply 937500 sd = some sd' →
        sd'.numTmc2660Drivers = sd.numTmc2660Drivers ∧
        (∀ j, j ≠ call.driver → sd'.driver? j = sd.driver? j) ∧
        sd'.driver? call.driver =
          (sd.driver? call.driver).map (DriverOp.run 937500 call.driverOp.toList) :=
  have h₀ : FacadeReachable 937500 (init 2 937500 (fun _ => 0) 2) := .init 2 (fun _ => 0) 2
  have h₁ := FacadeReachable.step (.setCurrent 1 1000) h₀ rfl
  ⟨_, h₁, facade_refines_driver_model h₁⟩

end SmartDrivers

end Tmc2660
