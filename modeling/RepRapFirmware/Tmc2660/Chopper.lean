import RepRapFirmware.Tmc2660.Operations

/-!
# The chopper register and the enable flag

The TMC2660 has no enable bit. `TMC2660.cpp` disables a driver by sending its chopper
register with the off-time field TOFF cleared, which stops commutation, and keeps the
user's chopper word, TOFF included, in `configuredChopConfReg`. Two things must then
hold in every state the firmware can reach:

- the configured word is one `SetChopConf` accepts: the CHOPCONF address over a 17-bit
  payload with TOFF ≠ 0, and never TOFF = 1 with blanking time TBL = 0;
- shadow register 2 is the configured word when the driver is enabled and the
  configured word with TOFF cleared when it is disabled.

`ChopInv` states both. `chopInv_step` shows that every call keeps it: the calls that
go through `SetChopConf` or `Enable` re-derive register 2 from a valid word, and every
other call touches neither the word, nor the flag, nor register 2
(`DriverOp.apply_chopper_fields`, `DriverOp.apply_registers_of_ne`). From it,
`chopInv_reachable` gives the law for every reachable record, and with it that TOFF of
register 2 is zero exactly when the driver is disabled.

The setters' contract follows from the law (`reachable_chopper_setters`): `SetChopConf`
accepts exactly the words whose TOFF is nonzero and not 1 over TBL 0; `SetOffTime`
changes only TOFF and `SetDriverMode` only the mode bits CHM and RNDTF, and since the
configured word is valid, `SetDriverMode` never refuses one of the three modes; and every
refused call leaves the record as it was.
-/

set_option autoImplicit false

namespace Tmc2660

open TmcDriverState

/-- The TOFF field as `SetChopConf` and `GetOffTime` read it. -/
def toff (v : Word) : Word := (v &&& tmcChopconfToffMask) >>> tmcChopconfToffShift

/-- A chopper word `SetChopConf` could have stored: the CHOPCONF address over a 17-bit
payload, TOFF ≠ 0, and TBL ≠ 0 when TOFF = 1. -/
structure ValidChopConf (v : Word) : Prop where
  address : v &&& ~~~tmcDataMask = tmcRegChopconf
  toff_ne_zero : toff v ≠ 0
  tbl_ne_zero_of_toff_one : toff v = 1 → v &&& tmcChopconfTblMask ≠ 0

/-- The chopper law of one driver. -/
structure ChopInv (d : TmcDriverState) : Prop where
  valid : ValidChopConf d.configuredChopConfReg
  shadow : d.registers chopperControl =
    if d.enabled then d.configuredChopConfReg
    else d.configuredChopConfReg &&& ~~~tmcChopconfToffMask

theorem toff_eq (v : Word) : toff v = v &&& tmcChopconfToffMask := by
  simp [toff, tmcChopconfToffShift]

/-- `SetChopConf` accepts exactly the words whose TOFF is nonzero and not 1 over TBL 0. -/
theorem setChopConf_accepts (d : TmcDriverState) (v : Word) :
    (d.setChopConf v).1 = true ↔ toff v ≠ 0 ∧ (toff v = 1 → v &&& tmcChopconfTblMask ≠ 0) := by
  simp only [setChopConf, toff]
  split <;> rename_i h
  · simp only [Bool.false_eq_true, false_iff]; tauto
  · simp only [true_iff]; tauto

/-- A field inside the payload reads the same in the word `SetChopConf` stores as in the
word it was given. -/
theorem stored_and {v f : Word} (hf : f &&& ~~~0x0001FFFF = 0) (ha : tmcRegChopconf &&& f = 0) :
    ((v &&& 0x0001FFFF) ||| tmcRegChopconf) &&& f = v &&& f :=
  and_or_and_of_sub _ _ hf ha

theorem toff_stored (v : Word) : toff ((v &&& 0x0001FFFF) ||| tmcRegChopconf) = toff v := by
  simp only [toff_eq]
  exact stored_and (by decide) (by decide)

/-- The word `SetChopConf` stores for an accepted `v` is valid. -/
theorem validChopConf_of_accepts {v : Word} (h0 : toff v ≠ 0)
    (h1 : toff v = 1 → v &&& tmcChopconfTblMask ≠ 0) :
    ValidChopConf ((v &&& 0x0001FFFF) ||| tmcRegChopconf) := by
  refine ⟨?_, (toff_stored v) ▸ h0, fun h => ?_⟩
  · rw [show tmcDataMask = 0x0001FFFF from rfl, and_or_and_not]; decide
  · rw [stored_and (by decide) (by decide)]
    exact h1 ((toff_stored v) ▸ h)

/-- Re-deriving register 2 from a valid configured word establishes the law. -/
theorem chopInv_updateChopConfRegister (d : TmcDriverState)
    (h : ValidChopConf d.configuredChopConfReg) : ChopInv (updateChopConfRegister d) :=
  ⟨h, by simp [updateChopConfRegister]⟩

theorem chopInv_setChopConf {d : TmcDriverState} (h : ChopInv d) (v : Word) :
    ChopInv (d.setChopConf v).2 := by
  rcases d.setChopConf_cases v with ⟨-, e⟩ | ⟨ha, e⟩ <;> rw [e]
  · exact h
  · obtain ⟨h0, h1⟩ := (setChopConf_accepts d v).mp ha
    exact chopInv_updateChopConfRegister _ (validChopConf_of_accepts h0 h1)

/-- Calls outside the chopper family do not store register 2. -/
theorem DriverOp.register_ne_chopperControl {op : DriverOp} (h : ¬ op.IsChopper) :
    op.register ≠ some chopperControl := by
  cases op <;> first | exact absurd trivial h | (simp only [DriverOp.register]; decide)

/-- One call keeps the chopper law. -/
theorem chopInv_step (stepClockRate : Word) {d : TmcDriverState} (h : ChopInv d)
    (op : DriverOp) : ChopInv (op.apply stepClockRate d) := by
  by_cases hc : op.IsChopper
  · cases op with
    | setChopConf v => exact chopInv_setChopConf h v
    | setOffTime v =>
      rcases d.setOffTime_cases v with e | ⟨w, e⟩ <;> simp only [DriverOp.apply, e]
      exacts [h, chopInv_setChopConf h w]
    | setDriverMode m =>
      rcases d.setDriverMode_cases m with e | ⟨w, e⟩ <;> simp only [DriverOp.apply, e]
      exacts [h, chopInv_setChopConf h w]
    | enable en =>
      rcases d.enable_cases en with ⟨-, e⟩ | ⟨-, e', -, hcfg, -, e⟩ <;>
        simp only [DriverOp.apply, e]
      · exact h
      · exact chopInv_updateChopConfRegister _ (hcfg ▸ h.valid)
    | _ => exact absurd hc id
  · obtain ⟨hcfg, hen⟩ := op.apply_chopper_fields stepClockRate d hc
    have hreg := op.apply_registers_of_ne stepClockRate d (DriverOp.register_ne_chopperControl hc)
    exact ⟨hcfg ▸ h.valid, by rw [hreg, hcfg, hen]; exact h.shadow⟩

theorem chopInv_init (stepClockRate axisNumber pin : Word) :
    ChopInv (TmcDriverState.init stepClockRate axisNumber pin) := by
  rw [init_eq_run]
  have hops : ∀ op ∈ [DriverOp.setMicrostepping defaultMicrosteppingShift defaultInterpolation,
      .setStallDetectThreshold defaultStallDetectThreshold,
      .setStallDetectFilter defaultStallDetectFiltered,
      .setStallMinimumStepsPerSecond defaultMinimumStepsPerSecond], ¬ op.IsChopper := by
    simp [DriverOp.IsChopper]
  obtain ⟨hc, he⟩ := DriverOp.run_chopper_fields stepClockRate _
    (initBase axisNumber pin).resetLoadRegisters hops
  have hr := DriverOp.run_registers_of_ne stepClockRate _
    (initBase axisNumber pin).resetLoadRegisters
    (fun op hop => DriverOp.register_ne_chopperControl (hops op hop))
  refine ⟨?_, ?_⟩
  · rw [hc]
    show ValidChopConf defaultChopConfReg
    exact ⟨by decide, by decide, by decide⟩
  · rw [hr, hc, he]
    show initialRegisters chopperControl =
      if false then defaultChopConfReg else defaultChopConfReg &&& ~~~tmcChopconfToffMask
    decide

theorem chopInv_reachable {stepClockRate : Word} {d : TmcDriverState}
    (h : Reachable stepClockRate d) : ChopInv d := by
  induction h with
  | init axisNumber pin => exact chopInv_init stepClockRate axisNumber pin
  | step op _ ih => exact chopInv_step stepClockRate ih op

/-- In every reachable state the configured chopper word is valid and register 2
follows the enable flag, so TOFF of register 2 is zero exactly when the driver is
disabled. -/
theorem reachable_chopper_law {stepClockRate : Word} {d : TmcDriverState}
    (h : Reachable stepClockRate d) :
    ChopInv d ∧ (toff (d.registers chopperControl) = 0 ↔ d.enabled = false) := by
  have hi := chopInv_reachable h
  refine ⟨hi, ?_⟩
  rw [hi.shadow]
  cases d.enabled
  · simp [toff_eq, and_not_and_self]
  · simpa using hi.valid.toff_ne_zero

/-- A driver after `SetChopConf`, `SetCurrent` and `Enable(true)`: enabled, with register 2
holding the configured word. -/
theorem chopper_law_enabled :
    ∃ d, Reachable 0 d ∧ d.enabled = true ∧ ChopInv d ∧
      (toff (d.registers chopperControl) = 0 ↔ d.enabled = false) :=
  have h₀ : Reachable 0 (init 0 0 0) := .init 0 0
  have hd := h₀.run [.setChopConf 0x000901B4, .setCurrent 1000, .enable true]
  ⟨_, hd, rfl, reachable_chopper_law hd⟩

/-! ## The chopper setters -/

/-- The chopper mode bits `SetDriverMode` writes, `TMC_CHOPCONF_RNDTF | TMC_CHOPCONF_CHM`. -/
def modeBits : Word := tmcChopconfRndtf ||| tmcChopconfChm

/-- A word `(v & k) | a` whose high part `a` is also `c`'s agrees with `c` outside `m`
when `v` does. -/
theorem and_or_and_not_eq {v c a k m : Word} (hc : c &&& ~~~k = a) (ha : a &&& k = 0)
    (h : v &&& ~~~m = c &&& ~~~m) : ((v &&& k) ||| a) &&& ~~~m = c &&& ~~~m := by
  ext i
  have h1 := congrArg (fun w => BitVec.getLsbD w i) hc
  have h2 := congrArg (fun w => BitVec.getLsbD w i) ha
  have h3 := congrArg (fun w => BitVec.getLsbD w i) h
  simp only [BitVec.getLsbD_and, BitVec.getLsbD_or, BitVec.getLsbD_not, BitVec.getLsbD_zero]
    at h1 h2 h3 ⊢
  revert h1 h2 h3
  cases v.getLsbD i <;> cases c.getLsbD i <;> cases a.getLsbD i <;> cases k.getLsbD i <;>
    cases m.getLsbD i <;> simp

/-- An accepted `SetChopConf(v)` stores `(v & 0x1FFFF) | TMC_REG_CHOPCONF`. -/
theorem setChopConf_configured_of_accepted (d : TmcDriverState) {v : Word}
    (h : (d.setChopConf v).1 = true) :
    (d.setChopConf v).2.configuredChopConfReg = (v &&& 0x0001FFFF) ||| tmcRegChopconf := by
  rcases d.setChopConf_cases v with ⟨h', -⟩ | ⟨-, e⟩
  · rw [h] at h'; cases h'
  · rw [e]; rfl

/-- The word `SetOffTime(n)` hands `SetChopConf` for `n ≤ 15` has TOFF `n` and the
configured word's other bits. -/
theorem offTimeWord_fields (c n : Word) (hn : n ≤ 15) :
    toff ((c &&& ~~~tmcChopconfToffMask)
      ||| ((n <<< tmcChopconfToffShift) &&& tmcChopconfToffMask)) = n ∧
    ((c &&& ~~~tmcChopconfToffMask) ||| ((n <<< tmcChopconfToffShift) &&& tmcChopconfToffMask))
      &&& ~~~tmcChopconfToffMask = c &&& ~~~tmcChopconfToffMask := by
  have hy := and_self_and_not (n <<< tmcChopconfToffShift) tmcChopconfToffMask
  refine ⟨?_, and_not_or_of_sub _ _ _ hy⟩
  rw [toff_eq, and_not_or_and_self _ _ _ hy]
  apply BitVec.eq_of_toNat_eq
  rw [BitVec.le_def] at hn
  simp only [tmcChopconfToffShift, tmcChopconfToffMask, BitVec.shiftLeft_zero, BitVec.toNat_and,
    show (15 : Word).toNat = 2 ^ 4 - 1 from rfl, Nat.and_pow_two_sub_one_eq_mod] at hn ⊢
  omega

/-- The three words `SetDriverMode` builds from a configured word `x`, for constant
off-time, random off-time and spread cycle, keep every bit of `x` outside the mode bits and
set CHM and RNDTF as their mode says. -/
theorem mode_words_bits (x : Word) :
    ((x &&& ~~~tmcChopconfRndtf) ||| tmcChopconfChm) &&& ~~~modeBits = x &&& ~~~modeBits ∧
    ((x &&& ~~~tmcChopconfRndtf) ||| tmcChopconfChm) &&& tmcChopconfRndtf = 0 ∧
    (x ||| tmcChopconfRndtf ||| tmcChopconfChm) &&& ~~~modeBits = x &&& ~~~modeBits ∧
    (x ||| tmcChopconfRndtf ||| tmcChopconfChm) &&& tmcChopconfRndtf = tmcChopconfRndtf ∧
    (x &&& ~~~(tmcChopconfRndtf ||| tmcChopconfChm)) &&& ~~~modeBits = x &&& ~~~modeBits ∧
    (x &&& ~~~(tmcChopconfRndtf ||| tmcChopconfChm)) &&& tmcChopconfChm = 0 := by
  refine ⟨?_, ?_, ?_, ?_, ?_, ?_⟩ <;> ext ⟨i, hi⟩ <;>
    simp only [modeBits, BitVec.getLsbD_and, BitVec.getLsbD_or, BitVec.getLsbD_not,
      BitVec.getLsbD_zero, tmcChopconfRndtf, tmcChopconfChm, getLsbD_one_shiftLeft] <;>
    rcases (show i = 13 ∨ i = 14 ∨ (13 ≠ i ∧ 14 ≠ i) by omega) with rfl | rfl | ⟨h13, h14⟩ <;>
    simp [*]

/-- The word `SetDriverMode(m)` hands `SetChopConf` for each of the three modes: the
configured word with only the mode bits changed, and stored it reads back as `m`. -/
theorem setDriverMode_word (d : TmcDriverState) {m : DriverMode} (hm : m ≠ .unknown) :
    ∃ w, d.setDriverMode m = d.setChopConf w ∧
      w &&& ~~~modeBits = d.configuredChopConfReg &&& ~~~modeBits ∧
      ∀ e : TmcDriverState, e.configuredChopConfReg = (w &&& 0x0001FFFF) ||| tmcRegChopconf →
        e.getDriverMode = m := by
  have hchm : tmcChopconfChm &&& ~~~0x0001FFFF = 0 ∧ tmcRegChopconf &&& tmcChopconfChm = 0 :=
    ⟨by decide, by decide⟩
  have hrnd : tmcChopconfRndtf &&& ~~~0x0001FFFF = 0 ∧ tmcRegChopconf &&& tmcChopconfRndtf = 0 :=
    ⟨by decide, by decide⟩
  obtain ⟨hc1, hc2, hr1, hr2, hs1, hs2⟩ := mode_words_bits d.configuredChopConfReg
  cases m with
  | constantOffTime =>
    refine ⟨_, rfl, hc1, fun e he => ?_⟩
    rw [getDriverMode, he, stored_and hchm.1 hchm.2, or_and_self, if_neg (by decide),
      stored_and hrnd.1 hrnd.2, hc2, if_pos rfl]
  | randomOffTime =>
    refine ⟨_, rfl, hr1, fun e he => ?_⟩
    rw [getDriverMode, he, stored_and hchm.1 hchm.2, or_and_self, if_neg (by decide),
      stored_and hrnd.1 hrnd.2, hr2, if_neg (by decide)]
  | spreadCycle =>
    refine ⟨_, rfl, hs1, fun e he => ?_⟩
    rw [getDriverMode, he, stored_and hchm.1 hchm.2, hs2, if_pos rfl]
  | unknown => exact absurd rfl hm

theorem one_le_iff_ne_zero (n : Word) : 1 ≤ n ↔ n ≠ 0 := by
  rw [BitVec.le_def, show (1 : Word).toNat = 1 from rfl, ne_eq, BitVec.toNat_eq,
    show (0 : Word).toNat = 0 from rfl]
  omega

/-- `SetOffTime(n)` on a valid configured word: it accepts exactly `1 ≤ n ≤ 15`, not 1 over
TBL 0, and an accepted call changes only TOFF, to `n`. -/
theorem setOffTime_laws (d : TmcDriverState) (hv : ValidChopConf d.configuredChopConfReg)
    (n : Word) :
    ((d.setOffTime n).1 = true ↔
      1 ≤ n ∧ n ≤ 15 ∧ ¬(n = 1 ∧ d.configuredChopConfReg &&& tmcChopconfTblMask = 0)) ∧
    ((d.setOffTime n).1 = true →
      (d.setOffTime n).2.configuredChopConfReg &&& ~~~tmcChopconfToffMask =
        d.configuredChopConfReg &&& ~~~tmcChopconfToffMask ∧
      (d.setOffTime n).2.getOffTime = n) := by
  by_cases hn : n > 15
  · have hr : d.setOffTime n = (false, d) := by rw [setOffTime, if_pos hn]
    rw [hr]
    refine ⟨?_, fun h => by cases h⟩
    simp only [Bool.false_eq_true, false_iff, not_and]
    intro _ h15; exact absurd h15 (by simpa using hn)
  · have hn15 : n ≤ 15 := by simpa using hn
    obtain ⟨htoff, hout⟩ := offTimeWord_fields d.configuredChopConfReg n hn15
    have hr : d.setOffTime n = d.setChopConf ((d.configuredChopConfReg &&& ~~~tmcChopconfToffMask)
        ||| ((n <<< tmcChopconfToffShift) &&& tmcChopconfToffMask)) := by
      rw [setOffTime, if_neg hn]
    have htbl := and_eq_of_and_not_eq _ _ hout
      (show tmcChopconfTblMask &&& tmcChopconfToffMask = 0 by decide)
    rw [hr]
    refine ⟨by rw [setChopConf_accepts, htoff, htbl, one_le_iff_ne_zero]; tauto, fun hacc => ?_⟩
    rw [getOffTime, setChopConf_configured_of_accepted d hacc]
    exact ⟨and_or_and_not_eq hv.address (by decide) hout, by rw [← toff, toff_stored, htoff]⟩

/-- `SetDriverMode(m)` on a valid configured word accepts each of the three modes, changes
only CHM and RNDTF, and reads back the mode. -/
theorem setDriverMode_laws (d : TmcDriverState) (hv : ValidChopConf d.configuredChopConfReg)
    {m : DriverMode} (hm : m ≠ .unknown) :
    (d.setDriverMode m).1 = true ∧ (d.setDriverMode m).2.getDriverMode = m ∧
      (d.setDriverMode m).2.configuredChopConfReg &&& ~~~modeBits =
        d.configuredChopConfReg &&& ~~~modeBits := by
  obtain ⟨w, hw, hout, hmode⟩ := setDriverMode_word d hm
  have htoff : toff w = toff d.configuredChopConfReg := by
    simp only [toff_eq]; exact and_eq_of_and_not_eq _ _ hout (by decide)
  have htbl := and_eq_of_and_not_eq _ _ hout
    (show tmcChopconfTblMask &&& modeBits = 0 by decide)
  have hacc : (d.setChopConf w).1 = true := by
    rw [setChopConf_accepts, htoff, htbl]
    exact ⟨hv.toff_ne_zero, hv.tbl_ne_zero_of_toff_one⟩
  have hcfg := setChopConf_configured_of_accepted d hacc
  rw [hw]
  exact ⟨hacc, hmode _ hcfg, by rw [hcfg]; exact and_or_and_not_eq hv.address (by decide) hout⟩

/-- **The chopper setters.** In every reachable state: `SetChopConf(v)` accepts exactly
the words whose TOFF is nonzero and not 1 over TBL 0, and then reads back as
`v & 0x1FFFF` with off-time TOFF; `SetOffTime(n)` accepts exactly `1 ≤ n ≤ 15`, not 1
over the configured TBL 0, and changes only TOFF, to `n`; `SetDriverMode` accepts each
of the three modes, changes only CHM and RNDTF, and reads back the mode; and a refused
call leaves the whole record as it was. -/
theorem reachable_chopper_setters {stepClockRate : Word} {d : TmcDriverState}
    (h : Reachable stepClockRate d) :
    (∀ v : Word,
      ((d.setChopConf v).1 = true ↔ toff v ≠ 0 ∧ ¬(toff v = 1 ∧ v &&& tmcChopconfTblMask = 0)) ∧
      ((d.setChopConf v).1 = true → (d.setChopConf v).2.getChopConf = v &&& 0x0001FFFF ∧
        (d.setChopConf v).2.getOffTime = toff v)) ∧
    (∀ n : Word,
      ((d.setOffTime n).1 = true ↔
        1 ≤ n ∧ n ≤ 15 ∧ ¬(n = 1 ∧ d.configuredChopConfReg &&& tmcChopconfTblMask = 0)) ∧
      ((d.setOffTime n).1 = true →
        (d.setOffTime n).2.configuredChopConfReg &&& ~~~tmcChopconfToffMask =
          d.configuredChopConfReg &&& ~~~tmcChopconfToffMask ∧
        (d.setOffTime n).2.getOffTime = n)) ∧
    (∀ m : DriverMode, m ≠ .unknown →
      (d.setDriverMode m).1 = true ∧ (d.setDriverMode m).2.getDriverMode = m ∧
      (d.setDriverMode m).2.configuredChopConfReg &&& ~~~modeBits =
        d.configuredChopConfReg &&& ~~~modeBits) ∧
    (∀ v, (d.setChopConf v).1 = false → (d.setChopConf v).2 = d) ∧
    (∀ n, (d.setOffTime n).1 = false → (d.setOffTime n).2 = d) ∧
    (∀ m, (d.setDriverMode m).1 = false → (d.setDriverMode m).2 = d) := by
  have hv := (chopInv_reachable h).valid
  refine ⟨fun v => ⟨?_, fun hacc => ?_⟩, setOffTime_laws d hv, fun m hm => setDriverMode_laws d hv hm,
    fun v => d.setChopConf_eq_of_refused, fun n => d.setOffTime_eq_of_refused,
    fun m => d.setDriverMode_eq_of_refused⟩
  · -- SetChopConf's test
    rw [not_and]; exact setChopConf_accepts d v
  · -- what an accepted SetChopConf stores
    simp only [getChopConf, getOffTime, setChopConf_configured_of_accepted d hacc]
    exact ⟨stored_and (by decide) (by decide), toff_stored v⟩

/-- The chopper setters on a driver after `SetChopConf`, `SetCurrent` and `Enable(true)`. -/
theorem chopper_setters_enabled :
    ∃ d, Reachable 0 d ∧ d.enabled = true ∧
    (∀ v : Word,
      ((d.setChopConf v).1 = true ↔ toff v ≠ 0 ∧ ¬(toff v = 1 ∧ v &&& tmcChopconfTblMask = 0)) ∧
      ((d.setChopConf v).1 = true → (d.setChopConf v).2.getChopConf = v &&& 0x0001FFFF ∧
        (d.setChopConf v).2.getOffTime = toff v)) ∧
    (∀ n : Word,
      ((d.setOffTime n).1 = true ↔
        1 ≤ n ∧ n ≤ 15 ∧ ¬(n = 1 ∧ d.configuredChopConfReg &&& tmcChopconfTblMask = 0)) ∧
      ((d.setOffTime n).1 = true →
        (d.setOffTime n).2.configuredChopConfReg &&& ~~~tmcChopconfToffMask =
          d.configuredChopConfReg &&& ~~~tmcChopconfToffMask ∧
        (d.setOffTime n).2.getOffTime = n)) ∧
    (∀ m : DriverMode, m ≠ .unknown →
      (d.setDriverMode m).1 = true ∧ (d.setDriverMode m).2.getDriverMode = m ∧
      (d.setDriverMode m).2.configuredChopConfReg &&& ~~~modeBits =
        d.configuredChopConfReg &&& ~~~modeBits) ∧
    (∀ v, (d.setChopConf v).1 = false → (d.setChopConf v).2 = d) ∧
    (∀ n, (d.setOffTime n).1 = false → (d.setOffTime n).2 = d) ∧
    (∀ m, (d.setDriverMode m).1 = false → (d.setDriverMode m).2 = d) :=
  have h₀ : Reachable 0 (init 0 0 0) := .init 0 0
  have hd := h₀.run [.setChopConf 0x000901B4, .setCurrent 1000, .enable true]
  ⟨_, hd, rfl, reachable_chopper_setters hd⟩

end Tmc2660
