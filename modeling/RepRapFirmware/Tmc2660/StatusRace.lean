import RepRapFirmware.Tmc2660.Operations

/-!
# The status words and the SPI interrupt

The SPI interrupt's `TransferDone` ORs each decoded status into `accumulatedStatus`, and
`ReadAccumulatedStatus` reports the word and keeps the bits its caller asks for, reading
and storing it with interrupts disabled. `Enable(true)` on a disabled driver clears the
stall bit of both status words with two read-modify-writes that run with interrupts
enabled:

    accumulatedStatus &= ~TMC_RR_SG;
    lastReadStatus &= ~TMC_RR_SG;

Here those two are cut into their loads and stores (`EnablePc`), every other call is a
single step, and the interrupt's `TransferDone` may run between any two steps
(`StatusState.next`). The ghost `StatusState.decoded` collects every status bit
`TransferDone` decoded since the last `ReadAccumulatedStatus`.

**What is proved.** `StatusInv` says that each non-stall bit decoded since the last read
is in the accumulated word the next read will see. `statusInv_next` shows that every
step keeps it except one: a `TransferDone` between `Enable`'s load of
`accumulatedStatus` and its store. `readAccumulatedStatus_covers` turns the invariant
into the reported value, so on every run in which that interrupt never lands a read
reports every non-stall bit decoded since the last one (`quiet_read_reports_decoded_bits`).
`enable_loses_status_bit` replays a run in which it lands: an over-temperature bit decoded
after a read is missing from the next read.
-/

set_option autoImplicit false

namespace Tmc2660

open TmcDriverState

/-- The status bits other than the stall bit: over-temperature, its pre-warning,
short to ground, open load on either coil, standstill. -/
def nonStallBits : Word := tmcRrOt ||| tmcRrOtpw ||| tmcRrS2g ||| tmcRrOla ||| tmcRrOlb ||| tmcRrStst

theorem nonStallBits_getLsbD_sg {i : Nat} (h : nonStallBits.getLsbD i = true) :
    tmcRrSg.getLsbD i = false := by
  have : (nonStallBits &&& tmcRrSg).getLsbD i = false := by
    rw [show nonStallBits &&& tmcRrSg = 0 by decide]; exact BitVec.getLsbD_zero
  simpa [h] using this

/-- `ReadAccumulatedStatus` reports every non-stall bit of the accumulated word. -/
theorem readAccumulatedStatus_getLsbD (d : TmcDriverState) (bitsToKeep : Word) {i : Nat}
    (h : nonStallBits.getLsbD i = true) :
    (d.readAccumulatedStatus bitsToKeep).1.getLsbD i = d.accumulatedStatus.getLsbD i := by
  have hrep := getLsbD_of_and_not_eq_zero
    (show nonStallBits &&& ~~~reportedStatusBits = 0 by decide) h
  have hall : (BitVec.ofNat 32 0xFFFFFFFF).getLsbD i = true := by
    rw [BitVec.getLsbD_ofNat, show 0xFFFFFFFF = 2 ^ 32 - 1 from rfl, Nat.testBit_two_pow_sub_one]
    simp [BitVec.lt_of_getLsbD h]
  simp only [readAccumulatedStatus, BitVec.getLsbD_and, hrep, Bool.and_true]
  cases d.enabled <;> simp [nonStallBits_getLsbD_sg h, BitVec.lt_of_getLsbD h, hall]

theorem enable_false_accumulatedStatus (d : TmcDriverState) :
    (d.enable false).accumulatedStatus = d.accumulatedStatus := by
  unfold enable; split <;> rfl

/-! ## The interleaving -/

/-- Where the main thread is inside `Enable(true)` on a disabled driver: not in it,
holding the loaded `accumulatedStatus`, past its store, or holding the loaded
`lastReadStatus`. -/
inductive EnablePc
  | idle
  | accLoaded (acc : Word)
  | accStored
  | lastLoaded (last : Word)

/-- The accumulated word the main thread's next store to it is based on: the loaded
value while it holds one, the live word `live` otherwise. -/
def EnablePc.accBase : EnablePc → Word → Word
  | .accLoaded acc, _ => acc
  | _, live => live

theorem EnablePc.accBase_of_ne {pc : EnablePc} (h : ∀ acc, pc ≠ .accLoaded acc) (live : Word) :
    pc.accBase live = live := by
  cases pc
  case accLoaded acc => exact absurd rfl (h acc)
  all_goals rfl

/-- One driver's record, the main thread's position in `Enable`, and the status bits
decoded since the last `ReadAccumulatedStatus` (a ghost). -/
structure StatusState where
  drv : TmcDriverState
  pc : EnablePc
  decoded : Word

/-- A main-thread call, the next step of a split `Enable(true)`, or the interrupt. -/
inductive StatusEvent
  | enable (en : Bool)
  | resume
  | readAccumulatedStatus (bitsToKeep : Word)
  | transferDone (driversPowered : Bool) (spiDataIn interval : Word)

namespace StatusState

/-- The state after an event, or `none` when the event cannot happen now: a main-thread
call while `Enable` is under way, or `resume` when it is not. -/
def next (s : StatusState) : StatusEvent → Option StatusState
  | .enable en =>
    match s.pc with
    | .idle =>
      if en && !s.drv.enabled then some { s with pc := .accLoaded s.drv.accumulatedStatus }
      else some { s with drv := s.drv.enable en }
    | _ => none
  | .resume =>
    match s.pc with
    | .idle => none
    | .accLoaded acc =>
      some { s with drv := { s.drv with accumulatedStatus := acc &&& ~~~tmcRrSg },
                    pc := .accStored }
    | .accStored => some { s with pc := .lastLoaded s.drv.lastReadStatus }
    | .lastLoaded last =>
      some { s with drv := updateChopConfRegister
                      { s.drv with lastReadStatus := last &&& ~~~tmcRrSg, enabled := true },
                    pc := .idle }
  | .readAccumulatedStatus k =>
    match s.pc with
    | .idle => some { s with drv := (s.drv.readAccumulatedStatus k).2, decoded := 0 }
    | _ => none
  | .transferDone p w i =>
    some { s with drv := s.drv.transferDone p w i,
                  decoded := if p then s.decoded ||| s.drv.transferStatus w i else s.decoded }

/-- The state after a sequence of events, if each can happen. -/
def run (s : StatusState) : List StatusEvent → Option StatusState
  | [] => some s
  | e :: es => (s.next e).bind (·.run es)

/-- `Enable`'s load of `accumulatedStatus` has happened and its store has not. -/
def inWindow (s : StatusState) : Bool :=
  match s.pc with
  | .accLoaded _ => true
  | _ => false

end StatusState

/-- The state after `Init`: no call under way, nothing decoded yet. -/
def StatusState.init (stepClockRate axisNumber pin : Word) : StatusState :=
  ⟨TmcDriverState.init stepClockRate axisNumber pin, .idle, 0⟩

/-- Every state `Init` and a sequence of events can produce. -/
inductive StatusReachable (stepClockRate : Word) : StatusState → Prop
  | init (axisNumber pin : Word) :
    StatusReachable stepClockRate (StatusState.init stepClockRate axisNumber pin)
  | step {s s' : StatusState} (e : StatusEvent) :
    StatusReachable stepClockRate s → s.next e = some s' → StatusReachable stepClockRate s'

theorem StatusReachable.run {stepClockRate : Word} {s s' : StatusState}
    (h : StatusReachable stepClockRate s) {es : List StatusEvent} (hr : s.run es = some s') :
    StatusReachable stepClockRate s' := by
  induction es generalizing s with
  | nil => cases hr; exact h
  | cons e es ih =>
    simp only [StatusState.run] at hr
    cases he : s.next e with
    | none => simp [he] at hr
    | some s₁ => exact ih (h.step e he) (by simpa [he] using hr)

/-- A split `Enable(true)` the interrupt does not enter is the atomic `Enable(true)`. -/
theorem run_enable_true (s : StatusState) (hpc : s.pc = .idle) (hen : s.drv.enabled = false) :
    s.run [.enable true, .resume, .resume, .resume] =
      some { s with drv := s.drv.enable true } := by
  obtain ⟨d, pc, decoded⟩ := s
  cases hpc
  simp only at hen
  simp only [StatusState.run, StatusState.next, hen, Bool.not_false, Bool.and_self, if_true,
    Option.some_bind]
  simp only [enable, hen, ne_eq, Bool.false_eq_true, not_false_eq_true, if_true]

/-! ## The invariant -/

/-- Every non-stall bit decoded since the last read is in the accumulated word the next
read will see. -/
def StatusInv (s : StatusState) : Prop :=
  ∀ i, s.decoded.getLsbD i = true → nonStallBits.getLsbD i = true →
    (s.pc.accBase s.drv.accumulatedStatus).getLsbD i = true

theorem statusInv_init (stepClockRate axisNumber pin : Word) :
    StatusInv (StatusState.init stepClockRate axisNumber pin) := by
  intro i h; simp [StatusState.init] at h

/-- Every step keeps the invariant, except a `TransferDone` inside `Enable`'s
read-modify-write of `accumulatedStatus`. -/
theorem statusInv_next {s s' : StatusState} {e : StatusEvent} (hi : StatusInv s)
    (h : s.next e = some s')
    (hw : s.inWindow = true → ∀ p w i, e ≠ .transferDone p w i) : StatusInv s' := by
  obtain ⟨d, pc, decoded⟩ := s
  cases e with
  | enable en =>
    cases pc <;> simp only [StatusState.next, reduceCtorEq] at h
    split at h <;> cases h
    · exact hi
    · rename_i hen
      have hacc : (d.enable en).accumulatedStatus = d.accumulatedStatus := by
        cases en
        · exact enable_false_accumulatedStatus d
        · simp only [Bool.true_and, Bool.not_eq_true', Bool.not_eq_false] at hen
          rw [show d.enable true = d by simp [enable, hen]]
      intro i hd hn
      show (d.enable en).accumulatedStatus.getLsbD i = true
      rw [hacc]; exact hi i hd hn
  | resume =>
    cases pc <;> simp only [StatusState.next, Option.some.injEq, reduceCtorEq] at h <;> subst h
    case accLoaded acc =>
      intro i hd hn
      have h1 : acc.getLsbD i = true := hi i hd hn
      simp [EnablePc.accBase, h1, nonStallBits_getLsbD_sg hn, BitVec.lt_of_getLsbD hn]
    all_goals exact hi
  | readAccumulatedStatus k =>
    cases pc <;> simp only [StatusState.next, Option.some.injEq, reduceCtorEq] at h
    subst h
    intro i hd; simp at hd
  | transferDone p w iv =>
    simp only [StatusState.next, Option.some.injEq] at h
    subst h
    have hpc : ∀ acc, pc ≠ .accLoaded acc := by
      rintro acc rfl; exact hw rfl p w iv rfl
    obtain ⟨ls, mn, mx, e⟩ := d.transferDone_eq p w iv
    intro i hd hn
    have old : decoded.getLsbD i = true → d.accumulatedStatus.getLsbD i = true := fun hd => by
      have := hi i hd hn; rwa [EnablePc.accBase_of_ne hpc] at this
    show (pc.accBase (d.transferDone p w iv).accumulatedStatus).getLsbD i = true
    rw [EnablePc.accBase_of_ne hpc, e]
    cases p
    · exact old hd
    · simp only [↓reduceIte, BitVec.getLsbD_or] at hd ⊢
      rcases Bool.or_eq_true_iff.mp hd with hd | hd <;> simp [old, hd]

/-- While the invariant holds and no call is under way, `ReadAccumulatedStatus` reports
every non-stall bit decoded since the last read. -/
theorem readAccumulatedStatus_covers {s : StatusState} (hi : StatusInv s)
    (hpc : s.pc = .idle) (bitsToKeep : Word) (i : Nat) (hd : s.decoded.getLsbD i = true)
    (hn : nonStallBits.getLsbD i = true) :
    (s.drv.readAccumulatedStatus bitsToKeep).1.getLsbD i = true := by
  rw [readAccumulatedStatus_getLsbD _ _ hn]
  have := hi i hd hn
  rwa [hpc] at this

/-- A non-stall bit missing from the accumulated word is missing from the report. -/
theorem readAccumulatedStatus_and_eq_zero (d : TmcDriverState) {b : Word}
    (hb : b &&& ~~~nonStallBits = 0) (h : d.accumulatedStatus &&& b = 0) (bitsToKeep : Word) :
    (d.readAccumulatedStatus bitsToKeep).1 &&& b = 0 := by
  ext j
  have hj := congrArg (fun v => BitVec.getLsbD v j) h
  simp only [BitVec.getLsbD_and, BitVec.getLsbD_zero] at hj ⊢
  cases hbj : b.getLsbD j
  · simp
  · rw [readAccumulatedStatus_getLsbD _ _ (getLsbD_of_and_not_eq_zero hb hbj)]
    simpa [hbj] using hj

/-! ## Runs without the race -/

/-- The states of the runs in which no `TransferDone` lands between `Enable`'s load of
`accumulatedStatus` and its store. -/
inductive QuietStatusReachable (stepClockRate : Word) : StatusState → Prop
  | init (axisNumber pin : Word) :
    QuietStatusReachable stepClockRate (StatusState.init stepClockRate axisNumber pin)
  | step {s s' : StatusState} (e : StatusEvent) :
    QuietStatusReachable stepClockRate s → s.next e = some s' →
      (s.inWindow = true → ∀ p w i, e ≠ .transferDone p w i) →
      QuietStatusReachable stepClockRate s'

theorem statusInv_quiet {stepClockRate : Word} {s : StatusState}
    (h : QuietStatusReachable stepClockRate s) : StatusInv s := by
  induction h with
  | init axisNumber pin => exact statusInv_init stepClockRate axisNumber pin
  | step e _ hn hw ih => exact statusInv_next ih hn hw

/-- **Only the race loses a bit.** In every run in which no `TransferDone` lands inside
`Enable`'s read-modify-write of `accumulatedStatus`, a `ReadAccumulatedStatus` made while
no call is under way reports every non-stall bit decoded since the last read, whatever
bits it is asked to keep. -/
theorem quiet_read_reports_decoded_bits {stepClockRate : Word} {s : StatusState}
    (h : QuietStatusReachable stepClockRate s) (hpc : s.pc = .idle) (bitsToKeep : Word) :
    (s.drv.readAccumulatedStatus bitsToKeep).1 &&& (s.decoded &&& nonStallBits) =
      s.decoded &&& nonStallBits := by
  have hi := statusInv_quiet h
  ext j
  simp only [BitVec.getLsbD_and]
  cases hd : s.decoded.getLsbD j <;> cases hn : nonStallBits.getLsbD j <;>
    simp only [Bool.and_false, Bool.false_and, Bool.and_true]
  exact readAccumulatedStatus_covers hi hpc bitsToKeep j hd hn

/-- The over-temperature report of `lostOverTemperature`, decoded before `Enable(true)`
rather than inside it, is in the next read. -/
theorem quiet_read_after_over_temperature : ∃ s, QuietStatusReachable 0 s ∧ s.pc = .idle ∧
    s.decoded &&& tmcRrOt = tmcRrOt ∧
    (s.drv.readAccumulatedStatus 0).1 &&& (s.decoded &&& nonStallBits) =
      s.decoded &&& nonStallBits := by
  have h₀ : QuietStatusReachable 0 (StatusState.init 0 0 0) := .init 0 0
  have h₁ := QuietStatusReachable.step (.readAccumulatedStatus 0) h₀ rfl
    (fun h => absurd h (by decide))
  have h₂ := QuietStatusReachable.step (.transferDone true 0x00200000 0) h₁ rfl
    (fun h => absurd h (by decide))
  have h₃ := QuietStatusReachable.step (.enable true) h₂ rfl (fun h => absurd h (by decide))
  have h₄ := QuietStatusReachable.step .resume h₃ rfl (fun _ _ _ _ => nofun)
  have h₅ := QuietStatusReachable.step .resume h₄ rfl (fun h => absurd h (by decide))
  have h₆ := QuietStatusReachable.step .resume h₅ rfl (fun h => absurd h (by decide))
  exact ⟨_, h₆, rfl, by decide, quiet_read_reports_decoded_bits h₆ rfl 0⟩

/-! ## The lost bit -/

/-- A read, then `Enable(true)` on the disabled driver, with an over-temperature report
decoded between `Enable`'s load of `accumulatedStatus` and its store. The frame
`0x00200000` is status bit 1 (`TMC_RR_OT`) after the byte swap and the shift by 12;
interval 0 marks the motor as too slow for stall detection. -/
def lostOverTemperature : List StatusEvent :=
  [.readAccumulatedStatus 0, .enable true, .transferDone true 0x00200000 0,
   .resume, .resume, .resume]

/-- After `lostOverTemperature` no call is under way, the over-temperature bit was
decoded after the last read, and the next `ReadAccumulatedStatus` does not report it,
whatever bits it is asked to keep. -/
theorem enable_loses_status_bit :
    ∃ s, StatusReachable 0 s ∧ s.pc = .idle ∧ s.decoded &&& tmcRrOt = tmcRrOt ∧
      ∀ bitsToKeep, (s.drv.readAccumulatedStatus bitsToKeep).1 &&& tmcRrOt = 0 := by
  obtain ⟨s, hr, hpc, hd, hacc⟩ : ∃ s, (StatusState.init 0 0 0).run
      lostOverTemperature = some s ∧ s.pc = .idle ∧ s.decoded &&& tmcRrOt = tmcRrOt ∧
      s.drv.accumulatedStatus &&& tmcRrOt = 0 :=
    ⟨_, rfl, rfl, by decide, by decide⟩
  exact ⟨s, (StatusReachable.init 0 0).run hr, hpc, hd,
    readAccumulatedStatus_and_eq_zero s.drv (by decide) hacc⟩

end Tmc2660
