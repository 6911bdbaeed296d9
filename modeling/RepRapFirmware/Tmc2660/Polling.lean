import RepRapFirmware.Tmc2660.DirtyMask

/-!
# The polling order of one driver

Each SPI frame a driver gets is one `StartTransfer`: it sends the most urgent register
whose bit is set in `registersToUpdate`, scanning the bits from register 0 (DriveControl)
up, and clears that bit; with no bit set it sends SmartEnable, whose reply keeps the status
words fresh. Only the register setters and `WriteAll` set bits.

`dirtyRegisters d`, defined beside `StartTransfer`, lists the registers whose bit is set,
most urgent first: the order the specification of `StartTransfer` asks for. `DriverOp.frames` records what a sequence of
calls sends, one register number and word per `StartTransfer`, as `SetupDMA` gets them.

**What is proved.** One `StartTransfer` sends the head of `dirtyRegisters`, or SmartEnable
when the list is empty (`startTransfer_fst`: the do-while scan of the source and its early
exit at the last register agree with the list for every mask), and leaves its tail
(`dirtyRegisters_startTransfer`). Along every run of calls that store no
register, whatever readers and `TransferDone`s it holds, the `i`-th frame sends the `i`-th
dirty register with its current word, or SmartEnable once they are all sent
(`frames_of_keepsRegisters`). Every reachable record's mask names only the five registers
(`reachable_maskWithin`), so on it the mask is empty after as many frames as there were
dirty registers, at most five (`reachable_polling_order`).
-/

set_option autoImplicit false

namespace Tmc2660

open TmcDriverState

/-- A list read past its head. -/
theorem getD_tail {α : Type} (l : List α) (i : Nat) (x : α) :
    l.tail.getD i x = l.getD (i + 1) x := by
  cases l <;> simp

/-- Filtering out the first element a filter keeps leaves the rest it keeps. -/
theorem filter_and_ne_of_filter_eq_cons {α : Type} [DecidableEq α] {p : α → Bool} :
    ∀ {l : List α} {a : α} {t : List α}, l.Nodup → l.filter p = a :: t →
      l.filter (fun x => p x && decide (x ≠ a)) = t
  | [], _, _, _, h => by cases h
  | x :: xs, a, t, hl, h => by
    obtain ⟨hx, hxs⟩ := List.nodup_cons.1 hl
    by_cases hp : p x = true
    · rw [List.filter_cons_of_pos hp] at h
      obtain ⟨rfl, rfl⟩ := List.cons.inj h
      rw [List.filter_cons_of_neg (by simp)]
      exact List.filter_congr fun y hy => by
        simp [show y ≠ x from fun e => hx (e ▸ hy)]
    · rw [List.filter_cons_of_neg hp] at h
      rw [List.filter_cons_of_neg (by simp [hp])]
      exact filter_and_ne_of_filter_eq_cons hxs h

namespace TmcDriverState

/-! ## The poll order -/

/-- The register the `i`-th frame from `d` sends while nothing else is dirtied: the
`i`-th dirty register, or the SmartEnable keep-alive past the last. -/
def pollOrder (d : TmcDriverState) (i : Nat) : Fin numRegisters :=
  d.dirtyRegisters.getD i smartEnable

theorem dirtyRegisters_congr {d d' : TmcDriverState}
    (h : d'.registersToUpdate = d.registersToUpdate) : d'.dirtyRegisters = d.dirtyRegisters := by
  rw [dirtyRegisters, h, dirtyRegisters]

/-- **`StartTransfer` leaves the other dirty registers**, in their order. -/
theorem dirtyRegisters_startTransfer (d : TmcDriverState) :
    d.startTransfer.2.dirtyRegisters = d.dirtyRegisters.tail := by
  have hbits : ∀ i : Fin numRegisters, d.startTransfer.2.registersToUpdate.getLsbD i.val =
      (d.registersToUpdate.getLsbD i.val && decide (i ≠ d.startTransfer.1)) := fun i => by
    rw [startTransfer_getLsbD]
    simp [Fin.val_ne_iff]
  show (List.finRange numRegisters).filter
    (fun i => d.startTransfer.2.registersToUpdate.getLsbD i.val) = _
  rw [List.filter_congr fun i _ => hbits i, startTransfer_fst]
  cases h : d.dirtyRegisters with
  | nil =>
    refine List.filter_eq_nil_iff.2 fun i hi hp => ?_
    exact List.filter_eq_nil_iff.1 h i hi (Bool.and_eq_true_iff.1 hp).1
  | cons a t => exact filter_and_ne_of_filter_eq_cons (List.nodup_finRange _) h

end TmcDriverState

/-! ## Runs that store no register -/

namespace DriverOp

variable (stepClockRate : Word)

/-- The calls that store neither a register word nor the dirty mask, apart from the bit
`StartTransfer` clears: the readers, the transfer calls, and the setters of fields outside
the registers. -/
def keepsRegisters : DriverOp → Bool
  | .setAxisNumber _ | .readAccumulatedStatus _ | .setStallMinimumStepsPerSecond _
  | .appendDriverStatus _ | .startTransfer | .transferDone _ _ _ => true
  | _ => false

/-- Whether a call is the SPI interrupt's `StartTransfer`, which sends one frame. -/
def isStartTransfer : DriverOp → Bool
  | .startTransfer => true
  | _ => false

/-- The frame a call sends: the number and the word of the register `StartTransfer` hands
to `SetupDMA`. The other calls send none. -/
def frame : DriverOp → TmcDriverState → List (Fin numRegisters × Word)
  | .startTransfer, d => [(d.startTransfer.1, d.registers d.startTransfer.1)]
  | _, _ => []

/-- The frames a sequence of calls sends, first frame first. -/
def frames : List DriverOp → TmcDriverState → List (Fin numRegisters × Word)
  | [], _ => []
  | op :: ops, d => op.frame d ++ frames ops (op.apply stepClockRate d)

/-- A call other than `StartTransfer` that stores no register leaves the words and the
mask as they were. -/
theorem apply_of_keepsRegisters {op : DriverOp} (h : op.keepsRegisters = true)
    (hs : op.isStartTransfer = false) (d : TmcDriverState) :
    (op.apply stepClockRate d).registers = d.registers ∧
      (op.apply stepClockRate d).registersToUpdate = d.registersToUpdate := by
  cases op with
  | transferDone p w i =>
    obtain ⟨ls, mn, mx, e⟩ := d.transferDone_eq p w i
    simp only [apply, e, and_self]
  | setAxisNumber | readAccumulatedStatus | setStallMinimumStepsPerSecond
  | appendDriverStatus => exact ⟨rfl, rfl⟩
  | startTransfer => cases hs
  | _ => cases h

/-- **Every call keeps the mask within the five registers**: a setter sets its own bit,
`WriteAll` sets all five, and `StartTransfer` only clears. -/
theorem maskWithin_apply (op : DriverOp) {d : TmcDriverState} (hd : d.MaskWithin) :
    (op.apply stepClockRate d).MaskWithin := by
  cases hr : op.register with
  | some r =>
    cases hm : op.marks d
    · rw [op.apply_of_not_marks _ _ hr hm]; exact hd
    · intro j hj
      rw [op.apply_registersToUpdate_of_marks _ _ hr hm,
        getLsbD_or_one_shiftLeft _ (Nat.lt_trans r.isLt (by decide))] at hj
      rcases Bool.or_eq_true_iff.1 hj with hj | hj
      · exact hd j hj
      · rw [of_decide_eq_true hj]; exact r.isLt
  | none =>
    cases op with
    | writeAll =>
      intro j hj
      simpa [apply, TmcDriverState.writeAll, updateAllRegisters_getLsbD] using hj
    | startTransfer =>
      intro j hj
      rw [apply, startTransfer_getLsbD, Bool.and_eq_true] at hj
      exact hd j hj.1
    | transferDone p w i =>
      intro j hj
      rw [(apply_of_keepsRegisters stepClockRate
        (show (transferDone p w i).keepsRegisters = true from rfl) rfl d).2] at hj
      exact hd j hj
    | setAxisNumber | readAccumulatedStatus | setStallMinimumStepsPerSecond
    | appendDriverStatus => exact hd
    | _ => cases hr

/-- The frames of a run, one call off its front: `StartTransfer` sends the register at the
head of the poll order. -/
theorem frames_cons (op : DriverOp) (ops : List DriverOp) (d : TmcDriverState) :
    frames stepClockRate (op :: ops) d =
      (if op.isStartTransfer then [(d.pollOrder 0, d.registers (d.pollOrder 0))] else []) ++
        frames stepClockRate ops (op.apply stepClockRate d) := by
  cases op with
  | startTransfer =>
    rw [frames, frame, startTransfer_fst, pollOrder, List.getD_eq_getElem?_getD,
      List.head?_eq_getElem?]
    rfl
  | _ => rfl

/-- Along a run that stores no register, the words stay and the dirty registers are
sent from the front, one per `StartTransfer`. -/
theorem run_of_keepsRegisters : ∀ {ops : List DriverOp}, (∀ op ∈ ops, op.keepsRegisters = true) →
    ∀ d : TmcDriverState, (run stepClockRate ops d).registers = d.registers ∧
      (run stepClockRate ops d).dirtyRegisters =
        d.dirtyRegisters.drop (ops.countP isStartTransfer)
  | [], _, d => ⟨rfl, rfl⟩
  | op :: ops, hops, d => by
    have ih := run_of_keepsRegisters (fun o ho => hops o (List.mem_cons_of_mem _ ho))
      (op.apply stepClockRate d)
    rw [run_cons]
    cases hs : op.isStartTransfer
    · obtain ⟨hr, hm⟩ := apply_of_keepsRegisters stepClockRate (hops op (List.mem_cons_self _ _))
        hs d
      rw [List.countP_cons_of_neg _ _ (by simp [hs]), ← dirtyRegisters_congr hm, ← hr]
      exact ih
    · cases op <;> try cases hs
      rw [List.countP_cons_of_pos _ _ rfl, ← List.drop_tail, ← dirtyRegisters_startTransfer]
      exact ⟨ih.1.trans (startTransfer_registers d), ih.2⟩

/-- **The frames of a run that stores no register.** Whatever readers and `TransferDone`s
it holds, the `i`-th frame sends the `i`-th register that was dirty when the run began,
most urgent first, with its word, or SmartEnable once they are all sent. -/
theorem frames_of_keepsRegisters : ∀ {ops : List DriverOp},
    (∀ op ∈ ops, op.keepsRegisters = true) → ∀ d : TmcDriverState,
    frames stepClockRate ops d = (List.range (ops.countP isStartTransfer)).map fun i =>
      (d.pollOrder i, d.registers (d.pollOrder i))
  | [], _, _ => rfl
  | op :: ops, hops, d => by
    have hop := hops op (List.mem_cons_self _ _)
    have ih := frames_of_keepsRegisters (fun o ho => hops o (List.mem_cons_of_mem _ ho))
      (op.apply stepClockRate d)
    rw [frames_cons, ih]
    cases hs : op.isStartTransfer
    · obtain ⟨hr, hm⟩ := apply_of_keepsRegisters stepClockRate hop hs d
      simp only [List.countP_cons_of_neg _ _ (show ¬op.isStartTransfer = true by simp [hs]),
        pollOrder, dirtyRegisters_congr hm, hr, Bool.false_eq_true, if_false, List.nil_append]
    · cases op <;> try cases hs
      simp only [List.countP_cons_of_pos _ _ (show isStartTransfer startTransfer = true from rfl),
        List.range_succ_eq_map, List.map_cons, List.map_map, if_true, List.singleton_append,
        apply, startTransfer_registers]
      congr 1
      refine List.map_congr_left fun i _ => ?_
      simp only [Function.comp, pollOrder, dirtyRegisters_startTransfer, getD_tail]

end DriverOp

/-! ## Every reachable record -/

/-- Every reachable record's mask names the five registers only. -/
theorem reachable_maskWithin {stepClockRate : Word} {d : TmcDriverState}
    (h : Reachable stepClockRate d) : d.MaskWithin := by
  induction h with
  | init axisNumber pin =>
    intro j hj
    rw [init_registersToUpdate, updateAllRegisters_getLsbD] at hj
    exact of_decide_eq_true hj
  | step op _ ih => exact op.maskWithin_apply stepClockRate ih

/-- **The polling order of a reachable driver.** Along every run of calls that store no
register, the `i`-th frame sends the `i`-th register dirty at the start, most urgent first,
with its word, or the SmartEnable keep-alive once they are all sent; and after as many
frames as there were dirty registers, at most five, the mask is empty. -/
theorem reachable_polling_order {stepClockRate : Word} {d : TmcDriverState}
    (hd : Reachable stepClockRate d) {ops : List DriverOp}
    (hops : ∀ op ∈ ops, op.keepsRegisters = true) :
    DriverOp.frames stepClockRate ops d =
        (List.range (ops.countP DriverOp.isStartTransfer)).map
          (fun i => (d.pollOrder i, d.registers (d.pollOrder i))) ∧
      (d.dirtyRegisters.length ≤ ops.countP DriverOp.isStartTransfer →
        (DriverOp.run stepClockRate ops d).registersToUpdate = 0) := by
  refine ⟨DriverOp.frames_of_keepsRegisters stepClockRate hops d, fun hk => ?_⟩
  apply registersToUpdate_eq_zero (reachable_maskWithin (hd.run ops))
  rw [(DriverOp.run_of_keepsRegisters stepClockRate hops d).2, List.drop_eq_nil_of_le hk]

/-- Two polls of a freshly initialised driver with a status reply between them. -/
theorem polling_order_after_init :
    Reachable 0 (init 0 0 0) ∧
      (∀ op ∈ [DriverOp.startTransfer, .transferDone true 0 0, .startTransfer],
        op.keepsRegisters = true) ∧
      DriverOp.frames 0 [.startTransfer, .transferDone true 0 0, .startTransfer] (init 0 0 0) =
        (List.range 2).map (fun i => ((init 0 0 0).pollOrder i,
          (init 0 0 0).registers ((init 0 0 0).pollOrder i))) :=
  have hd : Reachable 0 (init 0 0 0) := .init 0 0
  have hops : ∀ op ∈ [DriverOp.startTransfer, .transferDone true 0 0, .startTransfer],
      op.keepsRegisters = true := by decide
  ⟨hd, hops, (reachable_polling_order hd hops).1⟩

end Tmc2660
