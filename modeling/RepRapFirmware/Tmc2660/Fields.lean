import RepRapFirmware.Tmc2660.Chopper

/-!
# Every setter writes only its own field

Three setters share register 1 (`SetCurrent` the CS field, `SetStallDetectThreshold`
the SGT field, `SetStallDetectFilter` the SFILT flag), `SetMicrostepping` writes MRES and
INTPOL of register 0, `SetCoolStep` the payload of register 4, and the chopper calls
register 2. `ChangesOnly d d' r m` says that `d'` differs from `d` at most in the bits
`m` of register `r`; each setter is shown to satisfy it for its own field, and every
call's footprint is collected in `DriverOp.footprint`.

Two consequences are proved for every reachable record. Each register word keeps its
own address in bits 19..17 and nothing above (`AddressInv`), and a field read back
after any calls that are not its own setter is what that setter last wrote: the
interpolation flag of `GetMicrostepping`, the stall filter flag, and the stall
threshold `AppendStallConfig` decodes from the 7-bit two's complement SGT field, which
is `constrain(t, -64, 63)` for the last `SetStallDetectThreshold(t)`.
-/

set_option autoImplicit false

namespace Tmc2660

open TmcDriverState

/-- `d'` differs from `d` at most in the bits `m` of register `r`. -/
structure ChangesOnly (d d' : TmcDriverState) (r : Fin numRegisters) (m : Word) : Prop where
  others : ∀ i, i ≠ r → d'.registers i = d.registers i
  outside : d'.registers r &&& ~~~m = d.registers r &&& ~~~m

/-- A store of `v` into register `r` that agrees with the old word outside `m`. -/
theorem changesOnly_of_update {d d' : TmcDriverState} {r : Fin numRegisters} {v m : Word}
    (hreg : d'.registers = Function.update d.registers r v)
    (h : v &&& ~~~m = d.registers r &&& ~~~m) : ChangesOnly d d' r m :=
  ⟨fun i hi => by rw [hreg, Function.update_noteq hi], by rw [hreg, Function.update_same, h]⟩

/-- A field outside the changed bits, or in another register, keeps its value. -/
theorem ChangesOnly.field {d d' : TmcDriverState} {r : Fin numRegisters} {m : Word}
    (h : ChangesOnly d d' r m) (j : Fin numRegisters) {f : Word} (hf : j ≠ r ∨ f &&& m = 0) :
    d'.registers j &&& f = d.registers j &&& f := by
  by_cases hj : j = r
  · subst hj
    exact and_eq_of_and_not_eq _ _ h.outside (hf.resolve_left (not_not.mpr rfl))
  · rw [h.others j hj]

theorem tmcSgcsconfCs_eq (n : Word) : tmcSgcsconfCs n = n &&& tmcSgcsconfCsMask := by
  simp [tmcSgcsconfCs, tmcSgcsconfCsMask, BitVec.shiftLeft_zero]

/-! ## The setters -/

section Setters

variable (d : TmcDriverState)

theorem setMicrostepping_changesOnly (shift : Word) (interpolate : Bool) :
    ChangesOnly d (d.setMicrostepping shift interpolate) driveControl
      (tmcDrvctrlMresMask ||| tmcDrvctrlIntpol) := by
  refine changesOnly_of_update rfl ?_
  have hMres := and_not_or_of_sub (d.registers driveControl) _ _
    (and_self_and_not ((8 - shift) <<< tmcDrvctrlMresShift) tmcDrvctrlMresMask)
  have hIntpol : ∀ x : Word,
      (if interpolate then x ||| tmcDrvctrlIntpol else x &&& ~~~tmcDrvctrlIntpol)
        &&& ~~~tmcDrvctrlIntpol = x &&& ~~~tmcDrvctrlIntpol := by
    intro x; cases interpolate
    exacts [and_not_and_not_self x _, or_and_not_self x _]
  exact (and_not_eq_mono _ _ (hIntpol _) (by decide)).trans
    (and_not_eq_mono _ _ hMres (by decide))

theorem setCurrent_changesOnly (iCurrent : Word) :
    ChangesOnly d (d.setCurrent iCurrent) stallGuardConfig tmcSgcsconfCsMask :=
  changesOnly_of_update rfl (and_not_or_of_sub _ _ _ (by
    rw [tmcSgcsconfCs_eq]; exact and_self_and_not _ _))

theorem setStallDetectThreshold_changesOnly (sgThreshold : Int) :
    ChangesOnly d (d.setStallDetectThreshold sgThreshold) stallGuardConfig
      tmcSgcsconfSgtMask :=
  changesOnly_of_update rfl (and_not_or_of_sub _ _ _ (shiftLeft_and_sub _ 127 8))

theorem setStallDetectFilter_changesOnly (sgFilter : Bool) :
    ChangesOnly d (d.setStallDetectFilter sgFilter) stallGuardConfig tmcSgcsconfSgtSfilt := by
  refine changesOnly_of_update rfl ?_
  cases sgFilter
  exacts [and_not_and_not_self _ _, or_and_not_self _ _]

theorem tmcDataMask_getLsbD (i : Nat) : tmcDataMask.getLsbD i = decide (i < 17) := by
  rw [show tmcDataMask = BitVec.ofNat 32 (2 ^ 17 - 1) from rfl, BitVec.getLsbD_ofNat,
    Nat.testBit_two_pow_sub_one]
  by_cases h : i < 17
  · simp [h, show i < 32 by omega]
  · simp [h]

/-- A 16-bit coolStep payload lies inside the 17-bit data mask. -/
theorem setWidth_and_not_tmcDataMask (c : BitVec 16) :
    c.setWidth 32 &&& ~~~tmcDataMask = 0 := by
  ext i
  simp only [BitVec.getLsbD_and, BitVec.getLsbD_setWidth, BitVec.getLsbD_not,
    tmcDataMask_getLsbD, BitVec.getLsbD_zero]
  by_cases h : (i : Nat) < 16
  · simp [show (i : Nat) < 17 by omega]
  · simp [BitVec.getLsbD_ge c i (by omega)]

/-- `SetCoolStep` writes the whole word, so it changes only the payload where the old
word already carried the SMARTEN address. -/
theorem setCoolStep_changesOnly (c : BitVec 16)
    (h : d.registers smartEnable &&& ~~~tmcDataMask = tmcRegSmarten) :
    ChangesOnly d (d.setCoolStep c) smartEnable tmcDataMask := by
  refine changesOnly_of_update rfl ?_
  rw [h, BitVec.or_comm, or_and_not_of_sub _ _ _ (setWidth_and_not_tmcDataMask c)]
  decide

end Setters

theorem and_not_allOnes (x : Word) : x &&& ~~~(BitVec.allOnes 32) = 0 := by
  ext i; simp

/-! ## Every call's footprint -/

/-- Each register's own address, `TMC_REG_*`, in priority order. -/
def registerAddress : Fin numRegisters → Word :=
  ![tmcRegDrvctrl, tmcRegSgcsconf, tmcRegChopconf, tmcRegDrvconf, tmcRegSmarten]

/-- Every register word carries its own address in bits 19..17 and no bit above. -/
def AddressInv (d : TmcDriverState) : Prop :=
  ∀ i, d.registers i &&& ~~~tmcDataMask = registerAddress i

namespace DriverOp

/-- The register a call may change, and the bits of it: the field a setter owns, the
whole chopper word for the chopper calls, nothing for the rest. -/
def footprint : DriverOp → Fin numRegisters × Word
  | .setMicrostepping _ _ => (driveControl, tmcDrvctrlMresMask ||| tmcDrvctrlIntpol)
  | .setCurrent _ => (stallGuardConfig, tmcSgcsconfCsMask)
  | .setStallDetectThreshold _ => (stallGuardConfig, tmcSgcsconfSgtMask)
  | .setStallDetectFilter _ => (stallGuardConfig, tmcSgcsconfSgtSfilt)
  | .setCoolStep _ => (smartEnable, tmcDataMask)
  | .setChopConf _ | .setOffTime _ | .setDriverMode _ | .enable _ =>
    (chopperControl, BitVec.allOnes 32)
  | _ => (driveControl, 0)

/-- In a record that carries its addresses, every call changes only its footprint. -/
theorem apply_changesOnly (stepClockRate : Word) (op : DriverOp) (d : TmcDriverState)
    (hA : AddressInv d) :
    ChangesOnly d (op.apply stepClockRate d) op.footprint.1 op.footprint.2 := by
  cases op with
  | setMicrostepping s b => exact setMicrostepping_changesOnly d s b
  | setCurrent c => exact setCurrent_changesOnly d c
  | setStallDetectThreshold t => exact setStallDetectThreshold_changesOnly d t
  | setStallDetectFilter f => exact setStallDetectFilter_changesOnly d f
  | setCoolStep c => exact setCoolStep_changesOnly d c (hA smartEnable)
  | setChopConf _ | setOffTime _ | setDriverMode _ | enable _ =>
    exact ⟨fun i hi => apply_registers_of_ne _ _ d fun h => hi (Option.some.inj h).symm,
      by simp only [footprint, and_not_allOnes]⟩
  | _ =>
    exact ⟨fun i _ => apply_registers_of_ne _ _ d (by simp [register]),
      by rw [apply_registers_of_ne _ _ d (by simp [register])]⟩

/-- Outside the chopper family, a footprint lies inside the payload. -/
theorem footprint_sub {op : DriverOp} (h : ¬ op.IsChopper) :
    op.footprint.2 &&& ~~~tmcDataMask = 0 := by
  cases op <;> first | exact absurd trivial h | (simp only [footprint]; decide)

end DriverOp

theorem addressInv_step (stepClockRate : Word) {d : TmcDriverState} (op : DriverOp)
    (hA : AddressInv d) (hC : ChopInv (op.apply stepClockRate d)) :
    AddressInv (op.apply stepClockRate d) := by
  intro i
  have hco := op.apply_changesOnly stepClockRate d hA
  by_cases hi : i = op.footprint.1
  · by_cases hc : op.IsChopper
    · have h2 : i = chopperControl := by
        cases op <;> first | exact absurd hc id | exact hi
      subst h2
      rw [hC.shadow]
      split
      · exact hC.valid.address
      · rw [and_not_eq_mono _ _ (and_not_and_not_self _ _) (by decide)]
        exact hC.valid.address
    · subst hi
      rw [and_not_eq_mono _ _ hco.outside (DriverOp.footprint_sub hc)]
      exact hA _
  · rw [hco.others i hi]
    exact hA i

theorem addressInv_init (stepClockRate axisNumber pin : Word) :
    AddressInv (TmcDriverState.init stepClockRate axisNumber pin) := by
  unfold AddressInv
  rw [TmcDriverState.init_registers]
  decide

theorem addressInv_reachable {stepClockRate : Word} {d : TmcDriverState}
    (h : Reachable stepClockRate d) : AddressInv d := by
  induction h with
  | init axisNumber pin => exact addressInv_init stepClockRate axisNumber pin
  | step op hd ih => exact addressInv_step stepClockRate op ih (chopInv_reachable (hd.step op))

/-! ## Fields read back -/

namespace DriverOp

def IsSetMicrostepping : DriverOp → Prop
  | .setMicrostepping _ _ => True
  | _ => False

def IsSetStallDetectThreshold : DriverOp → Prop
  | .setStallDetectThreshold _ => True
  | _ => False

def IsSetStallDetectFilter : DriverOp → Prop
  | .setStallDetectFilter _ => True
  | _ => False

/-- From a reachable record, calls whose footprints miss field `f` of register `j`
leave that field alone. -/
theorem run_field {stepClockRate : Word} {d : TmcDriverState} (hR : Reachable stepClockRate d)
    (ops : List DriverOp) (j : Fin numRegisters) {f : Word}
    (h : ∀ op ∈ ops, j ≠ op.footprint.1 ∨ f &&& op.footprint.2 = 0) :
    (run stepClockRate ops d).registers j &&& f = d.registers j &&& f := by
  induction ops generalizing d with
  | nil => rfl
  | cons op ops ih =>
    rw [run_cons, ih (hR.step op) fun o ho => h o (List.mem_cons_of_mem _ ho)]
    exact (op.apply_changesOnly stepClockRate d (addressInv_reachable hR)).field j
      (h op (List.mem_cons_self _ _))

theorem footprint_intpol {op : DriverOp} (h : ¬ op.IsSetMicrostepping) :
    driveControl ≠ op.footprint.1 ∨ tmcDrvctrlIntpol &&& op.footprint.2 = 0 := by
  cases op <;> first | exact absurd trivial h | (simp only [footprint]; decide)

theorem footprint_sgt {op : DriverOp} (h : ¬ op.IsSetStallDetectThreshold) :
    stallGuardConfig ≠ op.footprint.1 ∨ tmcSgcsconfSgtMask &&& op.footprint.2 = 0 := by
  cases op <;> first | exact absurd trivial h | (simp only [footprint]; decide)

theorem footprint_sfilt {op : DriverOp} (h : ¬ op.IsSetStallDetectFilter) :
    stallGuardConfig ≠ op.footprint.1 ∨ tmcSgcsconfSgtSfilt &&& op.footprint.2 = 0 := by
  cases op <;> first | exact absurd trivial h | (simp only [footprint]; decide)

end DriverOp

theorem constrain_mem (t : Int) : -64 ≤ constrain t (-64) 63 ∧ constrain t (-64) 63 ≤ 63 := by
  unfold constrain; split_ifs <;> omega

/-- The SGT field decodes, as 7-bit two's complement, to the clamped threshold. -/
theorem stallThreshold_setStallDetectThreshold (d : TmcDriverState) (t : Int) :
    (d.setStallDetectThreshold t).stallThreshold = constrain t (-64) 63 := by
  have hc := constrain_mem t
  have hsgt : (d.setStallDetectThreshold t).registers stallGuardConfig &&& tmcSgcsconfSgtMask =
      (BitVec.ofInt 32 (constrain t (-64) 63) &&& 127) <<< tmcSgcsconfSgtShift := by
    simp only [setStallDetectThreshold, markDirty_registers, setRegister_registers_self]
    exact and_not_or_and_self _ _ _ (shiftLeft_and_sub _ 127 8)
  have hval : ((BitVec.ofInt 32 (constrain t (-64) 63) &&& (127 : Word)).toNat : Int) =
      if constrain t (-64) 63 < 0 then constrain t (-64) 63 + 128 else constrain t (-64) 63 := by
    rw [BitVec.toNat_and, show (127 : Word).toNat = 2 ^ 7 - 1 from rfl,
      Nat.and_pow_two_sub_one_eq_mod, BitVec.toNat_ofInt]
    split <;> omega
  have hlt : (BitVec.ofInt 32 (constrain t (-64) 63) &&& (127 : Word)).toNat < 128 := by
    rw [BitVec.toNat_and, show (127 : Word).toNat = 2 ^ 7 - 1 from rfl,
      Nat.and_pow_two_sub_one_eq_mod]
    exact Nat.mod_lt _ (by decide)
  simp only [stallThreshold, hsgt, tmcSgcsconfSgtShift, BitVec.toNat_ushiftRight,
    BitVec.toNat_shiftLeft, Nat.shiftLeft_eq, Nat.shiftRight_eq_div_pow]
  rw [Nat.mod_eq_of_lt (by omega), Nat.mul_div_cancel _ (by decide)]
  split <;> split at hval <;> omega

theorem stallFiltered_setStallDetectFilter (d : TmcDriverState) (f : Bool) :
    (d.setStallDetectFilter f).stallFiltered = f := by
  cases f <;> simp [stallFiltered, setStallDetectFilter, or_and_self, and_not_and_self]
  decide

theorem interpolation_setMicrostepping (d : TmcDriverState) (shift : Word) (b : Bool) :
    (d.setMicrostepping shift b).getMicrostepping.2 = b := by
  cases b <;> simp [getMicrostepping, setMicrostepping, or_and_self, and_not_and_self]
  decide

/-- The register laws of one record: the address discipline, every call's footprint,
and the three fields that are read back. -/
structure RegisterLaws (stepClockRate : Word) (d : TmcDriverState) : Prop where
  address : AddressInv d
  frame : ∀ op : DriverOp, ChangesOnly d (op.apply stepClockRate d) op.footprint.1 op.footprint.2
  interpolation : ∀ (shift : Word) (interpolate : Bool) (ops : List DriverOp),
    (∀ op ∈ ops, ¬ op.IsSetMicrostepping) →
    (DriverOp.run stepClockRate ops (d.setMicrostepping shift interpolate)).getMicrostepping.2 =
      interpolate
  threshold : ∀ (sgThreshold : Int) (ops : List DriverOp),
    (∀ op ∈ ops, ¬ op.IsSetStallDetectThreshold) →
    (DriverOp.run stepClockRate ops (d.setStallDetectThreshold sgThreshold)).stallThreshold =
      constrain sgThreshold (-64) 63
  filter : ∀ (sgFilter : Bool) (ops : List DriverOp),
    (∀ op ∈ ops, ¬ op.IsSetStallDetectFilter) →
    (DriverOp.run stepClockRate ops (d.setStallDetectFilter sgFilter)).stallFiltered = sgFilter

/-- Every reachable record obeys the register laws. -/
theorem reachable_register_laws {stepClockRate : Word} {d : TmcDriverState}
    (h : Reachable stepClockRate d) : RegisterLaws stepClockRate d := by
  refine ⟨addressInv_reachable h, fun op => op.apply_changesOnly _ d (addressInv_reachable h),
    fun shift b ops hops => ?_, fun t ops hops => ?_, fun f ops hops => ?_⟩
  · have := DriverOp.run_field (h.step (.setMicrostepping shift b)) ops driveControl
      fun op hop => DriverOp.footprint_intpol (hops op hop)
    exact (congrArg (fun w => decide (w ≠ 0)) this).trans (interpolation_setMicrostepping d shift b)
  · have := DriverOp.run_field (h.step (.setStallDetectThreshold t)) ops stallGuardConfig
      fun op hop => DriverOp.footprint_sgt (hops op hop)
    rw [← stallThreshold_setStallDetectThreshold d t]
    exact congrArg (fun w : Word => if ((w >>> tmcSgcsconfSgtShift).toNat : Int) ≥ 64
      then ((w >>> tmcSgcsconfSgtShift).toNat : Int) - 128
      else ((w >>> tmcSgcsconfSgtShift).toNat : Int)) this
  · have := DriverOp.run_field (h.step (.setStallDetectFilter f)) ops stallGuardConfig
      fun op hop => DriverOp.footprint_sfilt (hops op hop)
    exact (congrArg (fun w => decide (w ≠ 0)) this).trans (stallFiltered_setStallDetectFilter d f)

/-- The register laws on a driver after `SetChopConf`, `SetCurrent`,
`SetStallDetectThreshold` and `Enable(true)`. -/
theorem register_laws_enabled :
    ∃ d, Reachable 0 d ∧ d.enabled = true ∧ RegisterLaws 0 d :=
  have h₀ : Reachable 0 (init 0 0 0) := .init 0 0
  have hd := h₀.run [.setChopConf 0x000901B4, .setCurrent 1000, .setStallDetectThreshold (-10),
    .enable true]
  ⟨_, hd, rfl, reachable_register_laws hd⟩

end Tmc2660
