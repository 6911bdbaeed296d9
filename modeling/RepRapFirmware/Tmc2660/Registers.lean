import Mathlib.Data.BitVec
import Mathlib.Data.Fin.VecNotation

/-!
# TMC2660 register words and their fields

The TMC2660 driver chip has five writable 20-bit registers. The firmware keeps a
32-bit shadow word for each (`uint32_t`, here `Word`), with the register's address
in bits 19..17 and the payload in bits 16..0, and it writes every multi-bit field
the same way: mask the old field out, OR the shifted new value in.

This module holds the constants of `TMC2660.cpp` under their source names, and the
small algebra of that masking idiom. Everything later says "this setter changes only
the bits of mask `m`" as `x' &&& ~~~m = x &&& ~~~m`; the lemmas here turn each of the
source's spellings of a field write into that form once, so that no setter proof has
to look at bits again.

The readback bits `TMC_RR_*` are declared in `TMC2660.h`, which src/ does not hold;
they are taken from the spec's readback table.
-/

set_option autoImplicit false

namespace Tmc2660

/-- A `uint32_t` of the firmware. Arithmetic on it wraps, as the source's does. -/
abbrev Word := BitVec 32

/-! ## Register addresses and fields -/

def tmcRegDrvctrl : Word := 0
def tmcRegChopconf : Word := 0x80000
def tmcRegSmarten : Word := 0xA0000
def tmcRegSgcsconf : Word := 0xC0000
def tmcRegDrvconf : Word := 0xE0000
def tmcDataMask : Word := 0x0001FFFF

def tmcDrvconfRdsel1 : Word := (1 : Word) <<< 4
def tmcDrvconfVsense : Word := (1 : Word) <<< 6
def tmcDrvconfTs2g0p8 : Word := (3 : Word) <<< 8

def tmcChopconfToffMask : Word := 15
def tmcChopconfToffShift : Nat := 0
/-- `TMC_CHOPCONF_TOFF(n)`. -/
def tmcChopconfToff (n : Word) : Word := (n &&& 15) <<< 0
/-- `TMC_CHOPCONF_HSTRT(n)`. -/
def tmcChopconfHstrt (n : Word) : Word := (n &&& 7) <<< 4
/-- `TMC_CHOPCONF_HEND(n)`. -/
def tmcChopconfHend (n : Word) : Word := (n &&& 15) <<< 7
/-- `TMC_CHOPCONF_HDEC(n)`. -/
def tmcChopconfHdec (n : Word) : Word := (n &&& 3) <<< 11
def tmcChopconfRndtf : Word := (1 : Word) <<< 13
def tmcChopconfChm : Word := (1 : Word) <<< 14
def tmcChopconfTblMask : Word := (3 : Word) <<< 15
def tmcChopconfTblShift : Nat := 15
/-- `TMC_CHOPCONF_TBL(n)`. -/
def tmcChopconfTbl (n : Word) : Word := (n &&& 3) <<< 15

def tmcDrvctrlMresMask : Word := 0x0F
def tmcDrvctrlMresShift : Nat := 0
def tmcDrvctrlMres16 : Word := 0x04
def tmcDrvctrlIntpol : Word := (1 : Word) <<< 9

def tmcSgcsconfCsMask : Word := 31
/-- `TMC_SGCSCONF_CS(n)`. -/
def tmcSgcsconfCs (n : Word) : Word := (n &&& 31) <<< 0
def tmcSgcsconfSgtMask : Word := (127 : Word) <<< 8
def tmcSgcsconfSgtShift : Nat := 8
def tmcSgcsconfSgtSfilt : Word := (1 : Word) <<< 16

/-! ## Readback bits

Modelled from the spec: `TMC2660.h` is not in src/, and the spec's readback table
gives SG[0], OT[1], OTPW[2], S2G[3], OLA[5], OLB[6], STST[7] and LOAD[19:10]. -/

def tmcRrSg : Word := (1 : Word) <<< 0
def tmcRrOt : Word := (1 : Word) <<< 1
def tmcRrOtpw : Word := (1 : Word) <<< 2
def tmcRrS2g : Word := (1 : Word) <<< 3
def tmcRrOla : Word := (1 : Word) <<< 5
def tmcRrOlb : Word := (1 : Word) <<< 6
def tmcRrStst : Word := (1 : Word) <<< 7
def tmcRrSgLoadShift : Nat := 10

/-- The status bits `ReadLiveStatus` and `ReadAccumulatedStatus` report. -/
def reportedStatusBits : Word :=
  tmcRrSg ||| tmcRrOt ||| tmcRrOtpw ||| tmcRrS2g ||| tmcRrOla ||| tmcRrOlb ||| tmcRrStst

/-! ## Defaults -/

def defaultMicrosteppingShift : Word := 4
def defaultInterpolation : Bool := true
def defaultStallDetectThreshold : Int := 1
def defaultStallDetectFiltered : Bool := false
def defaultMinimumStepsPerSecond : Word := 200
def defaultStallGuardThreshold : Word := 1

/-- 0x901B4, the datasheet's example: spread cycle, TBL 2, HEND 3, HSTRT 3, TOFF 4. -/
def defaultChopConfReg : Word :=
  tmcRegChopconf ||| tmcChopconfTbl 2 ||| tmcChopconfHdec 0 ||| tmcChopconfHend 3
    ||| tmcChopconfHstrt 3 ||| tmcChopconfToff 4

def defaultSgscConfReg : Word := tmcRegSgcsconf ||| ((defaultStallGuardThreshold &&& 127) <<< 8)

def defaultDrvConfReg : Word :=
  tmcRegDrvconf ||| tmcDrvconfRdsel1 ||| tmcDrvconfVsense ||| tmcDrvconfTs2g0p8 ||| 0

def defaultDrvCtrlReg : Word := tmcRegDrvctrl ||| tmcDrvctrlMres16 ||| tmcDrvctrlIntpol

def defaultSmartEnReg : Word := tmcRegSmarten ||| 0

/-- `constrain<T>(val, vmin, vmax)` of the firmware's general headers (outside src/),
on `int`: the value clamped into `[vmin, vmax]`. -/
def constrain (val vmin vmax : Int) : Int :=
  if val < vmin then vmin else if val > vmax then vmax else val

/-! ## The masking idiom

`x &&& ~~~m = x' &&& ~~~m` says that `x` and `x'` agree outside the bits of `m`.
Each lemma below turns one of the source's spellings of a field write into it. -/

section Masks

variable (x y m : Word)

/-- Writing `(x & ~m) | y` with `y` inside `m` keeps everything outside `m`. -/
theorem and_not_or_of_sub (hy : y &&& ~~~m = 0) :
    ((x &&& ~~~m) ||| y) &&& ~~~m = x &&& ~~~m := by
  ext i
  have := congrArg (fun v => BitVec.getLsbD v i) hy
  simp only [BitVec.getLsbD_and, BitVec.getLsbD_or, BitVec.getLsbD_not,
    BitVec.getLsbD_zero] at this ⊢
  revert this
  cases x.getLsbD i <;> cases y.getLsbD i <;> cases m.getLsbD i <;> simp

/-- Setting a flag `x | m` keeps everything outside `m`. -/
theorem or_and_not_self : (x ||| m) &&& ~~~m = x &&& ~~~m := by
  ext i
  simp only [BitVec.getLsbD_and, BitVec.getLsbD_or, BitVec.getLsbD_not]
  cases x.getLsbD i <;> cases m.getLsbD i <;> simp

/-- Clearing a flag `x & ~m` keeps everything outside `m`. -/
theorem and_not_and_not_self : (x &&& ~~~m) &&& ~~~m = x &&& ~~~m := by
  rw [BitVec.and_assoc, BitVec.and_self]

/-- A value masked by `m` lies inside `m`. -/
theorem and_self_and_not : (y &&& m) &&& ~~~m = 0 := by
  ext i
  simp only [BitVec.getLsbD_and, BitVec.getLsbD_not, BitVec.getLsbD_zero]
  cases m.getLsbD i <;> simp

/-- A value masked by `k` and shifted lies inside `k` shifted: the `TMC_..._FIELD(n)`
macros write inside their field. -/
theorem shiftLeft_and_sub (k : Word) (s : Nat) : ((y &&& k) <<< s) &&& ~~~(k <<< s) = 0 := by
  ext i
  simp only [BitVec.getLsbD_and, BitVec.getLsbD_shiftLeft, BitVec.getLsbD_not,
    BitVec.getLsbD_zero]
  cases y.getLsbD (i - s) <;> cases k.getLsbD (i - s) <;> simp

/-- Agreement outside `m` is agreement outside any larger mask `m'`. -/
theorem and_not_eq_mono {x' m' : Word} (h : x' &&& ~~~m = x &&& ~~~m)
    (hm : m &&& ~~~m' = 0) : x' &&& ~~~m' = x &&& ~~~m' := by
  ext i
  have h1 := congrArg (fun v => BitVec.getLsbD v i) h
  have h2 := congrArg (fun v => BitVec.getLsbD v i) hm
  simp only [BitVec.getLsbD_and, BitVec.getLsbD_not, BitVec.getLsbD_zero] at h1 h2 ⊢
  revert h1 h2
  cases x.getLsbD i <;> cases x'.getLsbD i <;> cases m.getLsbD i <;> cases m'.getLsbD i <;> simp

/-- Agreement outside `m` is agreement on every field `f` disjoint from `m`. -/
theorem and_eq_of_and_not_eq {x' f : Word} (h : x' &&& ~~~m = x &&& ~~~m)
    (hf : f &&& m = 0) : x' &&& f = x &&& f := by
  ext i
  have h1 := congrArg (fun v => BitVec.getLsbD v i) h
  have h2 := congrArg (fun v => BitVec.getLsbD v i) hf
  simp only [BitVec.getLsbD_and, BitVec.getLsbD_not, BitVec.getLsbD_zero] at h1 h2 ⊢
  revert h1 h2
  cases x.getLsbD i <;> cases x'.getLsbD i <;> cases m.getLsbD i <;> cases f.getLsbD i <;> simp

/-- Writing `(x & ~m) | y` with `y` inside `m` leaves exactly `y` in the field `m`. -/
theorem and_not_or_and_self (hy : y &&& ~~~m = 0) : ((x &&& ~~~m) ||| y) &&& m = y := by
  ext i
  have := congrArg (fun v => BitVec.getLsbD v i) hy
  simp only [BitVec.getLsbD_and, BitVec.getLsbD_or, BitVec.getLsbD_not,
    BitVec.getLsbD_zero] at this ⊢
  revert this
  cases x.getLsbD i <;> cases y.getLsbD i <;> cases m.getLsbD i <;> simp

/-- OR-ing in a value `y` inside `m` changes nothing outside `m`. -/
theorem or_and_not_of_sub (a : Word) (hy : y &&& ~~~m = 0) : (y ||| a) &&& ~~~m = a &&& ~~~m := by
  ext i
  have := congrArg (fun v => BitVec.getLsbD v i) hy
  simp only [BitVec.getLsbD_and, BitVec.getLsbD_or, BitVec.getLsbD_not,
    BitVec.getLsbD_zero] at this ⊢
  revert this
  cases y.getLsbD i <;> cases m.getLsbD i <;> cases a.getLsbD i <;> simp

/-- Setting a flag leaves exactly the flag in its field. -/
theorem or_and_self : (x ||| m) &&& m = m := by
  ext i
  simp only [BitVec.getLsbD_and, BitVec.getLsbD_or]
  cases x.getLsbD i <;> cases m.getLsbD i <;> simp

/-- Clearing a field leaves nothing in it. -/
theorem and_not_and_self : (x &&& ~~~m) &&& m = 0 := by
  ext i
  simp only [BitVec.getLsbD_and, BitVec.getLsbD_not, BitVec.getLsbD_zero]
  cases m.getLsbD i <;> simp

/-- Outside the payload mask `m`, `(v & m) | a` is what `a` puts there: the address a
setter ORs into a masked payload is the whole of the word's high part. -/
theorem and_or_and_not (a : Word) : ((y &&& m) ||| a) &&& ~~~m = a &&& ~~~m := by
  ext i
  simp only [BitVec.getLsbD_and, BitVec.getLsbD_or, BitVec.getLsbD_not]
  cases y.getLsbD i <;> cases m.getLsbD i <;> cases a.getLsbD i <;> simp

/-- A field `f` inside the payload mask `m` and disjoint from the OR-ed address `a`
reads the same in `(v & m) | a` as in `v`. -/
theorem and_or_and_of_sub {a f : Word} (hf : f &&& ~~~m = 0) (ha : a &&& f = 0) :
    ((y &&& m) ||| a) &&& f = y &&& f := by
  ext i
  have h1 := congrArg (fun v => BitVec.getLsbD v i) hf
  have h2 := congrArg (fun v => BitVec.getLsbD v i) ha
  simp only [BitVec.getLsbD_and, BitVec.getLsbD_or, BitVec.getLsbD_not,
    BitVec.getLsbD_zero] at h1 h2 ⊢
  revert h1 h2
  cases y.getLsbD i <;> cases m.getLsbD i <;> cases a.getLsbD i <;> cases f.getLsbD i <;> simp

/-- A bit of `x` is a bit of `y` when `x` has no bit outside `y`. -/
theorem getLsbD_of_and_not_eq_zero {x y : Word} (h : x &&& ~~~y = 0) {i : Nat}
    (hx : x.getLsbD i = true) : y.getLsbD i = true := by
  have := congrArg (fun v => BitVec.getLsbD v i) h
  simpa [hx, BitVec.lt_of_getLsbD hx] using this

/-! ### Single bits, for the dirty mask -/

theorem getLsbD_one_shiftLeft (k i : Nat) :
    ((1 : Word) <<< k).getLsbD i = (decide (k < 32) && decide (k = i)) :=
  BitVec.getLsbD_twoPow k i

/-- `x | 1u << k` sets bit `k` and keeps the others. -/
theorem getLsbD_or_one_shiftLeft {k : Nat} (hk : k < 32) (i : Nat) :
    (x ||| (1 : Word) <<< k).getLsbD i = (x.getLsbD i || decide (i = k)) := by
  simp only [BitVec.getLsbD_or, getLsbD_one_shiftLeft, hk, decide_True, Bool.true_and, eq_comm]

/-- `x & ~(1u << k)` clears bit `k` and keeps the others. -/
theorem getLsbD_and_not_one_shiftLeft {k : Nat} (hk : k < 32) (i : Nat) :
    (x &&& ~~~((1 : Word) <<< k)).getLsbD i = (x.getLsbD i && decide (i ≠ k)) := by
  by_cases hi : i < 32
  · simp only [BitVec.getLsbD_and, BitVec.getLsbD_not, getLsbD_one_shiftLeft, hi, hk,
      decide_True, Bool.true_and]
    cases x.getLsbD i <;> simp [eq_comm]
  · simp [BitVec.getLsbD_ge x i (by omega)]

/-- Masking a word with bit `n` leaves zero exactly when bit `n` is clear. -/
theorem and_one_shiftLeft_eq_zero {r : Word} {n : Nat} (hn : n < 32) :
    r &&& (1 : Word) <<< n = 0 ↔ r.getLsbD n = false := by
  constructor
  · intro h
    simpa [getLsbD_one_shiftLeft, hn] using congrArg (BitVec.getLsbD · n) h
  · intro h
    apply BitVec.eq_of_getLsbD_eq
    intro i
    simp only [BitVec.getLsbD_and, getLsbD_one_shiftLeft, hn, decide_True, Bool.true_and,
      BitVec.getLsbD_zero]
    by_cases hi : n = i.val
    · subst hi; simp [h]
    · simp [hi]

end Masks

end Tmc2660
