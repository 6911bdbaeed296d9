import RepRapFirmware.Tmc2660.Operations

/-!
# The dirty mask and the SPI interrupt

Every register setter ends with `registersToUpdate |= 1u << r`, which the main thread
does with interrupts enabled: a load of the mask, then a store of the loaded value with
bit `r` set. The SPI interrupt's `StartTransfer` runs between any two of these steps; it
clears the bit of the register it sends, or sends the SmartEnable register as a
keep-alive when no bit is set.

Here a setter is cut into the three steps the interrupt can see (`MaskStep`): all its
stores but the mask (`beginCall`), the load, and the store of the mask. `WriteAll` is a
single store. The state carries, as a ghost, the word the interrupt last sent for each
register since the last `WriteAll` (`MaskState.sent`). `maskStep_call` checks the cut:
a call the interrupt does not enter ends in the record `DriverOp.apply` computes.

**What is proved** (`reachable_dirty_mask`). Under every interleaving the mask only
names registers 0..4; whenever no setter is in progress, every register whose bit is
clear was last sent with its current value; and the interrupt sends a frame that clears
no bit, the SmartEnable keep-alive, only when the mask is empty
(`startTransfer_keepAlive`), by which time every register has been sent since the last
`WriteAll`. So after `WriteAll` every register goes out with its current word before the
next keep-alive.
An update whose bit the interrupt clears between the setter's load and store is not
lost: the stale store sets the bit again, and the invariant `MaskInv` accounts for
the stale value through `MaskPc.pending`.
-/

set_option autoImplicit false

namespace Tmc2660

open TmcDriverState

namespace DriverOp

variable (stepClockRate : Word)

/-- Whether a call reaches its closing `registersToUpdate |= 1u << r`: the field setters
always do, the `SetChopConf` family when the word is accepted, `Enable` when it changes
the flag. -/
def marks : DriverOp → TmcDriverState → Bool
  | .setChopConf v, d => (d.setChopConf v).1
  | .setOffTime v, d => (d.setOffTime v).1
  | .setDriverMode m, d => (d.setDriverMode m).1
  | .enable en, d => d.enabled != en
  | .setMicrostepping _ _, _ | .setCurrent _, _ | .setStallDetectThreshold _, _
  | .setStallDetectFilter _, _ | .setCoolStep _, _ => true
  | _, _ => false

/-- A register setter that does not mark its register made no store at all. -/
theorem apply_of_not_marks (op : DriverOp) (d : TmcDriverState) {r : Fin numRegisters}
    (hr : op.register = some r) (h : op.marks d = false) : op.apply stepClockRate d = d := by
  cases op with
  | setChopConf v => exact d.setChopConf_eq_of_refused h
  | setOffTime v =>
    rcases d.setOffTime_cases v with e | ⟨w, e⟩ <;> simp only [marks, e] at h <;>
      simp only [apply, e]
    exact d.setChopConf_eq_of_refused h
  | setDriverMode m =>
    rcases d.setDriverMode_cases m with e | ⟨w, e⟩ <;> simp only [marks, e] at h <;>
      simp only [apply, e]
    exact d.setChopConf_eq_of_refused h
  | enable en =>
    rcases d.enable_cases en with ⟨-, e⟩ | ⟨hne, -⟩
    · exact e
    · simp [marks, hne] at h
  | setMicrostepping | setCurrent | setStallDetectThreshold | setStallDetectFilter
  | setCoolStep => cases h
  | _ => cases hr

/-- A call that marks register `r` leaves the mask it found with bit `r` set. -/
theorem apply_registersToUpdate_of_marks (op : DriverOp) (d : TmcDriverState)
    {r : Fin numRegisters} (hr : op.register = some r) (h : op.marks d = true) :
    (op.apply stepClockRate d).registersToUpdate = d.registersToUpdate ||| (1 : Word) <<< r.val := by
  cases op with
  | setChopConf v =>
    cases Option.some.inj hr
    exact d.setChopConf_registersToUpdate_of_accepted h
  | setOffTime v =>
    cases Option.some.inj hr
    rcases d.setOffTime_cases v with e | ⟨w, e⟩ <;> simp only [marks, e, Bool.false_eq_true] at h
    simp only [apply, e]
    exact d.setChopConf_registersToUpdate_of_accepted h
  | setDriverMode m =>
    cases Option.some.inj hr
    rcases d.setDriverMode_cases m with e | ⟨w, e⟩ <;> simp only [marks, e, Bool.false_eq_true] at h
    simp only [apply, e]
    exact d.setChopConf_registersToUpdate_of_accepted h
  | enable en =>
    cases Option.some.inj hr
    rcases d.enable_cases en with ⟨heq, -⟩ | ⟨-, e, -, -, hrtu, he⟩
    · simp [marks, heq] at h
    · simp only [apply, he, updateChopConfRegister, markDirty_registersToUpdate,
        setRegister_registersToUpdate, hrtu]
  | setMicrostepping | setCurrent | setStallDetectThreshold | setStallDetectFilter
  | setCoolStep => cases Option.some.inj hr; rfl
  | _ => cases hr

end DriverOp

/-! ## The interleaving -/

/-- Where the main thread is in a setter's closing `registersToUpdate |= 1u << r`: not in
one, after the stores before it, or after the load, holding the loaded mask. -/
inductive MaskPc
  | idle
  | stored (r : Fin numRegisters)
  | loaded (r : Fin numRegisters) (rtu : Word)

namespace MaskPc

/-- The register of the setter in progress. -/
def register : MaskPc → Option (Fin numRegisters)
  | .idle => none
  | .stored r | .loaded r _ => some r

/-- The mask the main thread's store will be based on: the loaded value once loaded,
the live mask `live` before. -/
def pending : MaskPc → Word → Word
  | .loaded _ rtu, _ => rtu
  | _, live => live

end MaskPc

/-- One driver's record, the main thread's position in it, and for each register the
word the interrupt last sent since the last `WriteAll` (a ghost). -/
structure MaskState where
  drv : TmcDriverState
  pc : MaskPc
  sent : Fin numRegisters → Option Word

/-- The record after all of a call's stores except the one to the dirty mask. -/
def beginCall (stepClockRate : Word) (op : DriverOp) (d : TmcDriverState) : TmcDriverState :=
  { op.apply stepClockRate d with registersToUpdate := d.registersToUpdate }

/-- The interrupt: `StartTransfer` whole, recording the word it sends. -/
def MaskState.interrupt (s : MaskState) : MaskState :=
  { s with drv := s.drv.startTransfer.2,
           sent := Function.update s.sent s.drv.startTransfer.1
             (some (s.drv.registers s.drv.startTransfer.1)) }

/-- The main thread's steps, and the interrupt's. -/
inductive MaskStep (stepClockRate : Word) : MaskState → MaskState → Prop
  | begin {s : MaskState} (op : DriverOp) {r : Fin numRegisters} (hr : op.register = some r)
      (hpc : s.pc = .idle) (hm : op.marks s.drv = true) :
      MaskStep stepClockRate s { s with drv := beginCall stepClockRate op s.drv, pc := .stored r }
  | refuse {s : MaskState} (op : DriverOp) {r : Fin numRegisters} (hr : op.register = some r)
      (hpc : s.pc = .idle) (hm : op.marks s.drv = false) :
      MaskStep stepClockRate s { s with drv := op.apply stepClockRate s.drv }
  | load {s : MaskState} {r : Fin numRegisters} (hpc : s.pc = .stored r) :
      MaskStep stepClockRate s { s with pc := .loaded r s.drv.registersToUpdate }
  | store {s : MaskState} {r : Fin numRegisters} {rtu : Word} (hpc : s.pc = .loaded r rtu) :
      MaskStep stepClockRate s
        { s with drv := { s.drv with registersToUpdate := rtu ||| (1 : Word) <<< r.val }, pc := .idle }
  | writeAll {s : MaskState} (hpc : s.pc = .idle) :
      MaskStep stepClockRate s { s with drv := s.drv.writeAll, sent := fun _ => none }
  | interrupt (s : MaskState) : MaskStep stepClockRate s s.interrupt

/-- The state after `Init`: no setter under way, nothing sent yet. -/
def MaskState.init (stepClockRate axisNumber pin : Word) : MaskState :=
  ⟨TmcDriverState.init stepClockRate axisNumber pin, .idle, fun _ => none⟩

/-- Every state `Init` and an interleaving of the two threads can produce. -/
inductive MaskReachable (stepClockRate : Word) : MaskState → Prop
  | init (axisNumber pin : Word) :
    MaskReachable stepClockRate (MaskState.init stepClockRate axisNumber pin)
  | step {s s' : MaskState} : MaskReachable stepClockRate s → MaskStep stepClockRate s s' →
    MaskReachable stepClockRate s'

/-- A marking call the interrupt does not enter ends in the record of the atomic call of
`Tmc2660.Operations` (a call that marks nothing is the single step `refuse`). -/
theorem maskStep_call (stepClockRate : Word) (s : MaskState) (op : DriverOp)
    {r : Fin numRegisters} (hr : op.register = some r) (hpc : s.pc = .idle)
    (hm : op.marks s.drv = true) :
    ∃ s₁ s₂, MaskStep stepClockRate s s₁ ∧ MaskStep stepClockRate s₁ s₂ ∧
      MaskStep stepClockRate s₂ { s with drv := op.apply stepClockRate s.drv } := by
  refine ⟨_, _, .begin op hr hpc hm, .load rfl, ?_⟩
  have e : op.apply stepClockRate s.drv =
      { beginCall stepClockRate op s.drv with
        registersToUpdate := s.drv.registersToUpdate ||| (1 : Word) <<< r.val } := by
    rw [beginCall, ← op.apply_registersToUpdate_of_marks _ _ hr hm]
  obtain ⟨d, pc, sent⟩ := s
  cases hpc
  rw [e]
  exact .store rfl
/-! ## The invariant -/

/-- The mask the main thread's pending store is based on. -/
def MaskState.pending (s : MaskState) : Word := s.pc.pending s.drv.registersToUpdate

/-- What holds between any two steps. -/
structure MaskInv (s : MaskState) : Prop where
  /-- The pending mask names registers 0..4 only. -/
  pending_lt : ∀ j, s.pending.getLsbD j = true → j < numRegisters
  /-- The interrupt clears bits of the live mask only. -/
  live_le : ∀ j, s.drv.registersToUpdate.getLsbD j = true → s.pending.getLsbD j = true
  /-- A register neither pending nor being written was last sent with its current word. -/
  sent_eq : ∀ i, s.pc.register ≠ some i → s.pending.getLsbD i = false →
    s.sent i = some (s.drv.registers i)
  /-- A register whose live bit is clear has been sent since the last `WriteAll`. -/
  sent_isSome : ∀ i : Fin numRegisters, s.drv.registersToUpdate.getLsbD i = false →
    (s.sent i).isSome

namespace MaskState

variable (s : MaskState)

@[simp] theorem interrupt_pc : s.interrupt.pc = s.pc := rfl

@[simp] theorem interrupt_registers : s.interrupt.drv.registers = s.drv.registers :=
  s.drv.startTransfer_registers

theorem interrupt_sent_self :
    s.interrupt.sent s.drv.startTransfer.1 = some (s.drv.registers s.drv.startTransfer.1) :=
  Function.update_same _ _ _

theorem interrupt_sent_of_ne {i : Fin numRegisters} (h : i ≠ s.drv.startTransfer.1) :
    s.interrupt.sent i = s.sent i :=
  Function.update_noteq h _ _

/-- The interrupt clears pending bits only. -/
theorem interrupt_pending_le {j : Nat} (h : s.interrupt.pending.getLsbD j = true) :
    s.pending.getLsbD j = true := by
  obtain ⟨d, pc, sent⟩ := s
  cases pc <;> simp_all [pending, interrupt, MaskPc.pending, startTransfer_getLsbD]

/-- Off the register it sends, the interrupt leaves the pending mask alone. -/
theorem interrupt_pending_of_ne {j : Nat} (h : j ≠ s.drv.startTransfer.1.val) :
    s.interrupt.pending.getLsbD j = s.pending.getLsbD j := by
  obtain ⟨d, pc, sent⟩ := s
  cases pc <;> simp [pending, interrupt, MaskPc.pending, startTransfer_getLsbD, h]

end MaskState

theorem maskInv_interrupt {s : MaskState} (hi : MaskInv s) : MaskInv s.interrupt := by
  have live : ∀ j, s.interrupt.drv.registersToUpdate.getLsbD j =
      (s.drv.registersToUpdate.getLsbD j && decide (j ≠ s.drv.startTransfer.1.val)) :=
    s.drv.startTransfer_getLsbD
  refine ⟨fun j h => hi.pending_lt j (s.interrupt_pending_le h), fun j h => ?_, fun i hr h => ?_,
    fun i h => ?_⟩
  · rw [live, Bool.and_eq_true, decide_eq_true_iff] at h
    rw [s.interrupt_pending_of_ne h.2]
    exact hi.live_le j h.1
  · by_cases hk : i = s.drv.startTransfer.1
    · subst hk; rw [s.interrupt_sent_self, s.interrupt_registers]
    · rw [s.interrupt_sent_of_ne hk, s.interrupt_registers]
      rw [s.interrupt_pending_of_ne (Fin.val_ne_of_ne hk)] at h
      exact hi.sent_eq i hr h
  · by_cases hk : i = s.drv.startTransfer.1
    · subst hk; rw [s.interrupt_sent_self]; rfl
    · rw [s.interrupt_sent_of_ne hk]
      rw [live, Fin.val_ne_of_ne hk |> decide_eq_true, Bool.and_true] at h
      exact hi.sent_isSome i h

@[simp] theorem beginCall_registersToUpdate (stepClockRate : Word) (op : DriverOp)
    (d : TmcDriverState) : (beginCall stepClockRate op d).registersToUpdate = d.registersToUpdate :=
  rfl

@[simp] theorem beginCall_registers (stepClockRate : Word) (op : DriverOp) (d : TmcDriverState) :
    (beginCall stepClockRate op d).registers = (op.apply stepClockRate d).registers := rfl

/-- Every step keeps the invariant. -/
theorem maskInv_step {stepClockRate : Word} {s s' : MaskState}
    (h : MaskStep stepClockRate s s') (hi : MaskInv s) : MaskInv s' := by
  cases h with
  | begin op hr hpc hm =>
    obtain ⟨d, pc, sent⟩ := s
    cases hpc
    refine ⟨hi.pending_lt, fun j h => h, fun i hne h => ?_, hi.sent_isSome⟩
    rw [beginCall_registers, op.apply_registers_of_ne _ _ (hr ▸ hne)]
    exact hi.sent_eq i (by simp [MaskPc.register]) h
  | refuse op hr hpc hm =>
    rw [op.apply_of_not_marks _ _ hr hm]
    exact hi
  | load hpc =>
    obtain ⟨d, pc, sent⟩ := s
    cases hpc
    exact ⟨hi.pending_lt, hi.live_le, hi.sent_eq, hi.sent_isSome⟩
  | store hpc =>
    rename_i r rtu
    obtain ⟨d, pc, sent⟩ := s
    cases hpc
    have bit : ∀ j,
        (rtu ||| (1 : Word) <<< r.val).getLsbD j = (rtu.getLsbD j || decide (j = r.val)) :=
      getLsbD_or_one_shiftLeft rtu (Nat.lt_trans r.isLt (by decide))
    have clear : ∀ i : Fin numRegisters, (rtu ||| (1 : Word) <<< r.val).getLsbD i = false →
        sent i = some (d.registers i) := by
      intro i h
      rw [bit, Bool.or_eq_false_iff, decide_eq_false_iff_not] at h
      exact hi.sent_eq i (fun e => h.2 (congrArg Fin.val (Option.some.inj e).symm)) h.1
    refine ⟨fun j h => ?_, fun j h => h, fun i _ h => clear i h, fun i h => by simp [clear i h]⟩
    change (rtu ||| (1 : Word) <<< r.val).getLsbD j = true at h
    rw [bit] at h
    rcases Bool.or_eq_true_iff.mp h with h | h
    · exact hi.pending_lt j h
    · rw [decide_eq_true_iff] at h; exact h ▸ r.isLt
  | writeAll hpc =>
    obtain ⟨d, pc, sent⟩ := s
    cases hpc
    have all : ∀ i : Fin numRegisters, (d.writeAll.registersToUpdate).getLsbD i = true := fun i =>
      (updateAllRegisters_getLsbD i).trans (decide_eq_true i.isLt)
    refine ⟨fun j h => ?_, fun j h => h, fun i _ h => ?_, fun i h => ?_⟩
    · exact of_decide_eq_true ((updateAllRegisters_getLsbD j).symm.trans h)
    · exact absurd (all i) (by simpa [MaskState.pending, MaskPc.pending] using h)
    · exact absurd (all i) (by simpa using h)
  | interrupt => exact maskInv_interrupt hi

theorem maskInv_init (stepClockRate axisNumber pin : Word) :
    MaskInv (MaskState.init stepClockRate axisNumber pin) := by
  have bit : ∀ j, (TmcDriverState.init stepClockRate axisNumber pin).registersToUpdate.getLsbD j =
      decide (j < numRegisters) := by
    intro j; rw [init_registersToUpdate, updateAllRegisters_getLsbD]
  refine ⟨fun j h => ?_, fun j h => h, fun i _ h => ?_, fun i h => ?_⟩
  · exact of_decide_eq_true ((bit j).symm.trans h)
  · simp [MaskState.init, MaskState.pending, MaskPc.pending, bit] at h
  · simp [MaskState.init, bit] at h

theorem maskInv_reachable {stepClockRate : Word} {s : MaskState}
    (h : MaskReachable stepClockRate s) : MaskInv s := by
  induction h with
  | init axisNumber pin => exact maskInv_init stepClockRate axisNumber pin
  | step _ hs ih => exact maskInv_step hs ih

/-- Under every interleaving of setters, `WriteAll` and the interrupt's `StartTransfer`,
the dirty mask names registers 0..4 only; whenever no setter is in progress, every
register whose bit is clear was last sent with its current word; whenever the mask is
empty every register has been sent since the last `WriteAll`; and the next frame clears
no bit, being the SmartEnable keep-alive, only when the mask is empty, after every
register was sent, with its current word when no setter is in progress. -/
theorem reachable_dirty_mask {stepClockRate : Word} {s : MaskState}
    (h : MaskReachable stepClockRate s) :
    (∀ j, s.drv.registersToUpdate.getLsbD j = true → j < numRegisters) ∧
    (s.pc = .idle → ∀ i : Fin numRegisters, s.drv.registersToUpdate.getLsbD i = false →
      s.sent i = some (s.drv.registers i)) ∧
    (s.drv.registersToUpdate = 0 → ∀ i, (s.sent i).isSome) ∧
    (s.drv.registersToUpdate.getLsbD s.drv.startTransfer.1 = false →
      s.drv.startTransfer.1 = smartEnable ∧ s.drv.registersToUpdate = 0 ∧
      ∀ i, (s.sent i).isSome ∧ (s.pc = .idle → s.sent i = some (s.drv.registers i))) := by
  have hi := maskInv_reachable h
  have within : s.drv.MaskWithin := fun j hj => hi.pending_lt j (hi.live_le j hj)
  have current : s.pc = .idle → ∀ i : Fin numRegisters,
      s.drv.registersToUpdate.getLsbD i = false → s.sent i = some (s.drv.registers i) := by
    intro hpc i hc
    obtain ⟨d, pc, sent⟩ := s
    cases hpc
    exact hi.sent_eq i (by simp [MaskPc.register]) hc
  have sent : s.drv.registersToUpdate = 0 → ∀ i, (s.sent i).isSome :=
    fun h0 i => hi.sent_isSome i (by rw [h0]; simp)
  refine ⟨within, current, sent, fun hk => ?_⟩
  obtain ⟨hse, h0⟩ := startTransfer_keepAlive within hk
  exact ⟨hse, h0, fun i => ⟨sent h0 i, fun hpc => current hpc i (by rw [h0]; simp)⟩⟩

/-- The five frames after `Init`, then a `SetCurrent` that the interrupt enters between the
load and the store of the mask, with a keep-alive, and the frame that sends its register:
no setter is in progress, the mask is empty and the next frame is a keep-alive. -/
theorem dirty_mask_after_set_current :
    ∃ s, MaskReachable 0 s ∧ s.pc = .idle ∧ s.drv.registersToUpdate = 0 ∧
      (∀ j, s.drv.registersToUpdate.getLsbD j = true → j < numRegisters) ∧
      (s.pc = .idle → ∀ i : Fin numRegisters, s.drv.registersToUpdate.getLsbD i = false →
        s.sent i = some (s.drv.registers i)) ∧
      (s.drv.registersToUpdate = 0 → ∀ i, (s.sent i).isSome) ∧
      (s.drv.registersToUpdate.getLsbD s.drv.startTransfer.1 = false →
        s.drv.startTransfer.1 = smartEnable ∧ s.drv.registersToUpdate = 0 ∧
        ∀ i, (s.sent i).isSome ∧ (s.pc = .idle → s.sent i = some (s.drv.registers i))) := by
  have h₅ : MaskReachable 0 (MaskState.init 0 0 0).interrupt.interrupt.interrupt.interrupt.interrupt :=
    (((((MaskReachable.init 0 0).step (.interrupt _)).step (.interrupt _)).step
      (.interrupt _)).step (.interrupt _)).step (.interrupt _)
  have h : MaskReachable 0 _ :=
    ((((h₅.step (.begin (.setCurrent 1000) rfl rfl rfl)).step (.load rfl)).step
      (.interrupt _)).step (.store rfl)).step (.interrupt _)
  exact ⟨_, h, rfl, by decide, reachable_dirty_mask h⟩

end Tmc2660
