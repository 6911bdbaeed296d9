import RepRapFirmware.Tmc2660.DriverState

/-!
# The SPI frame on the wire

`SetupDMA(outVal)` stores `spiDataOut = cpu_to_be32(outVal << 8)` and hands the PDC three
bytes from `&spiDataOut`; the PDC stores the three bytes it receives from `&spiDataIn`, and
`TransferDone` decodes the status as `be32_to_cpu(spiDataIn) >> 12`. The SAM processors are
little-endian, so the PDC sends and stores the bytes of a word lowest address first, and the
SPI clocks each byte out most significant bit first. This module says where a register
value lands in the 24 bits of a frame.

* `memByte w a` is the byte of `w` at address offset `a`. A byte swap reverses the four
  (`memByte_byteSwap`); a shift left by 8 moves each one address up (`memByte_shiftLeft`).
* `wireOut w` is what the PDC clocks out of `w`, as a 24-bit number whose most significant
  bit goes first; `storeReceived old b0 b1 b2` is `spiDataIn` after the PDC stored three
  received bytes over the word `old`.

**What is proved** (`spi_frame_alignment`). For a 20-bit register value `v` the 24 bits
sent are the number `v`: four zero bits, then `v`, so that `v` is what the chip holds in
its shift register when CS rises. The status `TransferDone` decodes is the first 20 of the
24 bits received, whatever the fourth byte of `spiDataIn` holds.
-/

set_option autoImplicit false

namespace Tmc2660

open TmcDriverState

/-- The byte of `w` at address offset `a`, on a little-endian processor. -/
def memByte (w : Word) (a : Nat) : BitVec 8 := w.extractLsb' (8 * a) 8

/-- `spiDataOut` as `SetupDMA(outVal)` stores it: `cpu_to_be32(outVal << 8)`. -/
def setupDma (outVal : Word) : Word := byteSwap (outVal <<< 8)

/-- The 24 bits the PDC clocks out of the word `w` with `PERIPH_TCR = 3`: the bytes at
offsets 0, 1 and 2, each most significant bit first. -/
def wireOut (w : Word) : BitVec 24 := memByte w 0 ++ memByte w 1 ++ memByte w 2

/-- `spiDataIn` after the PDC stored the received bytes `b0`, `b1`, `b2` at offsets 0, 1
and 2 of the word `old` (`PERIPH_RCR = 3`); byte 3 keeps what it held. -/
def storeReceived (old : Word) (b0 b1 b2 : BitVec 8) : Word := memByte old 3 ++ b2 ++ b1 ++ b0

/-! ## Bytes -/

/-- Bit `i` of a byte-swapped word comes from the mirror byte, at the same place in it. -/
theorem getLsbD_byteSwap (x : Word) {i : Nat} (hi : i < 32) :
    (byteSwap x).getLsbD i = x.getLsbD (8 * (3 - i / 8) + i % 8) := by
  simp only [byteSwap, BitVec.getLsbD_append, BitVec.getLsbD_extractLsb', cond_eq_if,
    decide_eq_true_eq]
  rcases (show i < 8 ∨ (8 ≤ i ∧ i < 16) ∨ (16 ≤ i ∧ i < 24) ∨ 24 ≤ i by omega)
    with h | h | h | h
  · rw [if_pos h, show 8 * (3 - i / 8) + i % 8 = 24 + i by omega]
    simp [h]
  · rw [if_neg (by omega), if_pos (by omega), show 8 * (3 - i / 8) + i % 8 = 16 + (i - 8) by omega]
    simp [show i - 8 < 8 by omega]
  · rw [if_neg (by omega), if_neg (by omega), if_pos (by omega),
      show 8 * (3 - i / 8) + i % 8 = 8 + (i - 8 - 8) by omega]
    simp [show i - 8 - 8 < 8 by omega]
  · rw [if_neg (by omega), if_neg (by omega), if_neg (by omega),
      show 8 * (3 - i / 8) + i % 8 = 0 + (i - 8 - 8 - 8) by omega]
    simp [show i - 8 - 8 - 8 < 8 by omega]

/-- A byte swap reverses the bytes in memory. -/
theorem memByte_byteSwap (x : Word) {a : Nat} (h : a < 4) :
    memByte (byteSwap x) a = memByte x (3 - a) := by
  ext ⟨j, hj⟩
  simp only [memByte, BitVec.getLsbD_extractLsb', hj, decide_True, Bool.true_and]
  rw [getLsbD_byteSwap x (by omega), show (8 * a + j) / 8 = a by omega,
    show (8 * a + j) % 8 = j by omega]

/-- A shift left by 8 moves every byte one address up. -/
theorem memByte_shiftLeft (x : Word) {a : Nat} (h : a < 3) :
    memByte (x <<< 8) (a + 1) = memByte x a := by
  ext ⟨j, hj⟩
  simp only [memByte, BitVec.getLsbD_extractLsb', hj, decide_True, Bool.true_and,
    BitVec.getLsbD_shiftLeft]
  rw [show 8 * (a + 1) + j - 8 = 8 * a + j by omega]
  simp [show 8 * (a + 1) + j < 32 by omega, show ¬ 8 * (a + 1) + j < 8 by omega]

/-- Bits read most significant first are the number `x * 2 ^ n + y`. -/
theorem toNat_append_eq_add {m n : Nat} (x : BitVec m) (y : BitVec n) :
    (x ++ y).toNat = x.toNat * 2 ^ n + y.toNat := by
  rw [BitVec.toNat_append, Nat.shiftLeft_eq, Nat.mul_comm, Nat.mul_add_lt_is_or y.isLt]

theorem toNat_memByte (w : Word) (a : Nat) :
    (memByte w a).toNat = w.toNat / 2 ^ (8 * a) % 2 ^ 8 := by
  rw [memByte, BitVec.extractLsb'_toNat, Nat.shiftRight_eq_div_pow]

theorem toNat_byteSwap (x : Word) : (byteSwap x).toNat =
    x.toNat % 2 ^ 8 * 2 ^ 24 + x.toNat / 2 ^ 8 % 2 ^ 8 * 2 ^ 16 + x.toNat / 2 ^ 16 % 2 ^ 8 * 2 ^ 8
      + x.toNat / 2 ^ 24 % 2 ^ 8 := by
  simp only [byteSwap, toNat_append_eq_add, BitVec.extractLsb'_toNat, Nat.shiftRight_eq_div_pow]
  omega

/-! ## The frame -/

/-- The PDC sends the low 24 bits of the value `SetupDMA` is given, most significant
first: `cpu_to_be32` puts them at offsets 0 to 2, and the shift by 8 keeps the unsent
byte 3 free. -/
theorem wireOut_setupDma (v : Word) : (wireOut (setupDma v)).toNat = v.toNat % 2 ^ 24 := by
  rw [wireOut, setupDma, memByte_byteSwap _ (by decide), memByte_byteSwap _ (by decide),
    memByte_byteSwap _ (by decide), show 3 - 0 = 2 + 1 from rfl, show 3 - 1 = 1 + 1 from rfl,
    show 3 - 2 = 0 + 1 from rfl, memByte_shiftLeft _ (by decide),
    memByte_shiftLeft _ (by decide), memByte_shiftLeft _ (by decide)]
  simp only [toNat_append_eq_add, toNat_memByte, Nat.reduceMul, Nat.reducePow, Nat.div_one]
  omega

/-- The status `TransferDone` decodes is the first 20 of the 24 bits received; the byte
the PDC does not write falls off in the shift by 12. -/
theorem byteSwap_storeReceived (old : Word) (b0 b1 b2 : BitVec 8) :
    (byteSwap (storeReceived old b0 b1 b2) >>> 12).toNat =
      (b0.toNat * 2 ^ 16 + b1.toNat * 2 ^ 8 + b2.toNat) >>> 4 := by
  have h0 := b0.isLt
  have h1 := b1.isLt
  have h2 := b2.isLt
  have h3 := (memByte old 3).isLt
  simp only [storeReceived, BitVec.toNat_ushiftRight, Nat.shiftRight_eq_div_pow, toNat_byteSwap,
    toNat_append_eq_add]
  omega

/-- **The frame alignment.** A 20-bit register value goes out as the 24-bit number `v`,
filling the last 20 bits before CS rises; the status decoded from a reply is its first 20
bits, `(b0·2^16 + b1·2^8 + b2) >> 4`. -/
theorem spi_frame_alignment (v : Word) (hv : v.toNat < 2 ^ 20) (old : Word) (b0 b1 b2 : BitVec 8) :
    (wireOut (setupDma v)).toNat = v.toNat ∧
      (byteSwap (storeReceived old b0 b1 b2) >>> 12).toNat =
        (b0.toNat * 2 ^ 16 + b1.toNat * 2 ^ 8 + b2.toNat) >>> 4 :=
  ⟨by rw [wireOut_setupDma]; omega, byteSwap_storeReceived old b0 b1 b2⟩

/-- The default chopper word `0x901B4` goes out as itself, and a reply `0x12 0x34 0x56`
decodes to `0x12345`. -/
theorem spi_frame_default_chopconf :
    defaultChopConfReg.toNat < 2 ^ 20 ∧
      ((wireOut (setupDma defaultChopConfReg)).toNat = defaultChopConfReg.toNat ∧
        (byteSwap (storeReceived 0 0x12 0x34 0x56) >>> 12).toNat =
          ((0x12 : BitVec 8).toNat * 2 ^ 16 + (0x34 : BitVec 8).toNat * 2 ^ 8
            + (0x56 : BitVec 8).toNat) >>> 4) :=
  ⟨by decide, spi_frame_alignment _ (by decide) 0 0x12 0x34 0x56⟩

end Tmc2660
