import Mathlib.Data.Nat.Defs
import Mathlib.Logic.Function.Basic

/-!
# The SPI bus, the polling ring and the enable pin

`SmartDrivers::Spin(powered)` runs in the main loop. It records the new power state,
drives the global enable pin LOW on a rising edge and HIGH on a falling one, and starts a
polling chain on driver 0 when none is running. Each completed frame raises an SPI
interrupt, whose handler `TMC2660_SPI_Handler` raises the chip select of the current
driver and, while the drivers are powered, starts a frame on the next driver in turn; when
they are not, it stops the chain. `TurnDriversOff` runs in the tick interrupt, possibly in
the middle of `Spin`: it drives the enable pin HIGH and clears `driversPowered`.

Here `Spin` is cut at each of its statements that reads or writes shared state
(`SpinPc`), and the two interrupt handlers are single steps that may run between any
two of them, the SPI one only while a frame is in flight (`BusState.next`). The driver
records are left out: the bus sees only `currentDriver`, the chip selects and the frames.
`numTmc2660Drivers` is whatever `Init` left.

**What is proved.** `BusInv` holds in every reachable state (`busInv_reachable`):
the bus is free, claimed by `Spin` between its `currentDriver = this` and the frame, or
carrying one frame of the current driver, whose chip select alone is low. Hence at most
one frame is in flight and one chip select low, `currentDriver` is null or a driver, and
consecutive frames of a chain go to drivers `i` and `(i + 1) % n` while a chain starts at
driver 0 (`reachable_bus_safe`); and whenever `Spin` is not running and the drivers are
powered, a frame is in flight (`reachable_ring_alive`). The enable pin is another
matter: `turnDriversOff_in_spin_leaves_drivers_enabled` replays a tick that lands between
`Spin(true)`'s store of `driversPowered` and its write of the pin, which leaves the pin
LOW with `driversPowered` false, and no later `Spin(false)` raises it. That tick is the only
way: on every run in which it never lands there, the pin is LOW, with `Spin` idle, only
while the drivers are flagged powered (`quiet_pin_low_only_when_powered`).
-/

set_option autoImplicit false

namespace Tmc2660

/-- The driver after `c` in the polling ring: `++driver`, wrapping to `driverStates` at
`driverStates + numTmc2660Drivers`. -/
def nextDriver (numDrivers c : Nat) : Nat := if c + 1 = numDrivers then 0 else c + 1

theorem nextDriver_eq_mod {numDrivers c : Nat} (h : c < numDrivers) :
    nextDriver numDrivers c = (c + 1) % numDrivers := by
  unfold nextDriver
  split
  · simp [*]
  · rw [Nat.mod_eq_of_lt (by omega)]

theorem nextDriver_lt {numDrivers c : Nat} (h : c < numDrivers) :
    nextDriver numDrivers c < numDrivers := by
  unfold nextDriver; split <;> omega

/-- Where `Spin(powered)` is: the next statement it runs. -/
inductive SpinPc
  /-- Not running. -/
  | idle
  /-- `driversPowered = powered`, having loaded `wasPowered`. -/
  | store (powered wasPowered : Bool)
  /-- `digitalWrite(GlobalTmc2660EnablePin, LOW)`, then the `WriteAll` loop, which the bus
  does not see. -/
  | writeLow
  /-- The load of `currentDriver` in `currentDriver == nullptr && numTmc2660Drivers != 0`. -/
  | check
  /-- `driverStates[0].StartTransfer()`: its `currentDriver = this`. -/
  | kick
  /-- The rest of `StartTransfer`, with interrupts disabled: CS low and the frame. -/
  | start
  /-- `digitalWrite(GlobalTmc2660EnablePin, HIGH)`. -/
  | writeHigh
  deriving DecidableEq

/-- The statements between `Spin(true)`'s store of `driversPowered` and its
`StartTransfer`, where the ring may still be stopped. -/
def SpinPc.restarting : SpinPc → Bool
  | .writeLow | .check | .kick | .start => true
  | _ => false

/-- What the bus sees: the shared variables, each driver's chip select (`true` = driven
LOW), the frames in flight, oldest first, and `Spin`'s position. `previous` is a ghost:
the driver of the frame before the one in flight, in its chain; `none` when the frame in
flight began a chain. -/
structure BusState where
  numDrivers : Nat
  driversPowered : Bool
  enablePinLow : Bool
  currentDriver : Option Nat
  inFlight : List Nat
  csLow : Nat → Bool
  spin : SpinPc
  previous : Option Nat

/-- The state `SmartDrivers::Init` leaves: the drivers unpowered, the enable pin HIGH,
every chip select HIGH, no transfer. -/
def BusState.init (numDrivers : Nat) : BusState where
  numDrivers := numDrivers
  driversPowered := false
  enablePinLow := false
  currentDriver := none
  inFlight := []
  csLow := fun _ => false
  spin := .idle
  previous := none

/-- The start of a `Spin` call, the next statement of the one under way, the tick
interrupt's `TurnDriversOff`, or the SPI interrupt. -/
inductive BusEvent
  | spin (powered : Bool)
  | step
  | turnDriversOff
  | interrupt

namespace BusState

/-- `TMC2660_SPI_Handler` after the oldest frame in flight has completed. -/
def handler (s : BusState) : BusState :=
  let done := s.inFlight.head?
  let s := { s with inFlight := s.inFlight.tail }
  match s.currentDriver with
  | some c =>
    let s := { s with csLow := Function.update s.csLow c false }
    if s.driversPowered then
      let c' := nextDriver s.numDrivers c
      { s with currentDriver := some c', csLow := Function.update s.csLow c' true,
               inFlight := s.inFlight ++ [c'], previous := done }
    else { s with currentDriver := none }
  | none => { s with currentDriver := none }

/-- The next statement of `Spin`. -/
def spinStep (s : BusState) : SpinPc → Option BusState
  | .idle => none
  | .store p w =>
    some { s with driversPowered := p,
                  spin := if p then (if w then .check else .writeLow)
                          else (if w then .writeHigh else .idle) }
  | .writeLow => some { s with enablePinLow := true, spin := .check }
  | .check =>
    some { s with spin := if s.currentDriver = none ∧ s.numDrivers ≠ 0 then .kick else .idle }
  | .kick => some { s with currentDriver := some 0, spin := .start }
  | .start =>
    some { s with csLow := Function.update s.csLow 0 true, inFlight := s.inFlight ++ [0],
                  previous := none, spin := .idle }
  | .writeHigh => some { s with enablePinLow := false, spin := .idle }

/-- The state after an event, or `none` when it cannot happen now: a second `Spin`, a
step with no `Spin` running, an SPI interrupt with no frame in flight. -/
def next (s : BusState) : BusEvent → Option BusState
  | .spin p => if s.spin = .idle then some { s with spin := .store p s.driversPowered } else none
  | .step => s.spinStep s.spin
  | .turnDriversOff => some { s with enablePinLow := false, driversPowered := false }
  | .interrupt => if s.inFlight = [] then none else some s.handler

/-- The state after a sequence of events, if each can happen. -/
def run (s : BusState) : List BusEvent → Option BusState
  | [] => some s
  | e :: es => (s.next e).bind (·.run es)

end BusState

/-- Every state `Init` and a sequence of events can produce. -/
inductive BusReachable : BusState → Prop
  | init (numDrivers : Nat) : BusReachable (BusState.init numDrivers)
  | step {s s' : BusState} (e : BusEvent) : BusReachable s → s.next e = some s' →
    BusReachable s'

theorem BusReachable.run {s s' : BusState} (h : BusReachable s) {es : List BusEvent}
    (hr : s.run es = some s') : BusReachable s' := by
  induction es generalizing s with
  | nil => cases hr; exact h
  | cons e es ih =>
    simp only [BusState.run] at hr
    cases he : s.next e with
    | none => simp [he] at hr
    | some s₁ => exact ih (h.step e he) (by simpa [he] using hr)

/-! ## The invariant -/

/-- The bus is free; or claimed by `Spin` between its `currentDriver = this` and the
frame; or carrying one frame, of the current driver `k`, whose chip select alone is low,
and `k` is driver 0 if the frame began its chain and the successor of the frame before
it otherwise. -/
inductive BusShape (s : BusState) : Prop
  | free (hc : s.currentDriver = none) (hf : s.inFlight = []) (hcs : ∀ i, s.csLow i = false)
      (hpc : s.spin ≠ .start)
  | claimed (hn : 0 < s.numDrivers) (hc : s.currentDriver = some 0) (hf : s.inFlight = [])
      (hcs : ∀ i, s.csLow i = false) (hpc : s.spin = .start)
  | busy (k : Nat) (hk : k < s.numDrivers) (hc : s.currentDriver = some k) (hf : s.inFlight = [k])
      (hcs : ∀ i, s.csLow i = decide (i = k)) (hpc : s.spin ≠ .start)
      (chain : (s.previous = none ∧ k = 0) ∨
        ∃ j, s.previous = some j ∧ k = (j + 1) % s.numDrivers)

/-- What holds between any two steps. -/
structure BusInv (s : BusState) : Prop where
  shape : BusShape s
  kick : s.spin = .kick → s.currentDriver = none ∧ s.numDrivers ≠ 0
  writeHigh : s.spin = .writeHigh → s.driversPowered = false
  ring : s.driversPowered = true → s.numDrivers ≠ 0 → s.inFlight ≠ [] ∨ s.spin.restarting

/-- A step that moves neither the bus nor `Spin` into or out of `start` keeps the
shape. -/
theorem BusShape.congr {s s' : BusState} (h : BusShape s) (hn : s'.numDrivers = s.numDrivers)
    (hc : s'.currentDriver = s.currentDriver) (hf : s'.inFlight = s.inFlight)
    (hcs : s'.csLow = s.csLow) (hp : s'.previous = s.previous)
    (hpc : s'.spin = .start ↔ s.spin = .start) : BusShape s' := by
  cases h with
  | free c f cs pc => exact .free (hc ▸ c) (hf ▸ f) (hcs ▸ cs) (mt hpc.mp pc)
  | claimed n c f cs pc => exact .claimed (hn ▸ n) (hc ▸ c) (hf ▸ f) (hcs ▸ cs) (hpc.mpr pc)
  | busy k hk c f cs pc ch =>
    exact .busy k (hn ▸ hk) (hc ▸ c) (hf ▸ f) (hcs ▸ cs) (mt hpc.mp pc) (hn ▸ hp ▸ ch)

theorem BusShape.inFlight_ne_nil {s : BusState} (h : BusShape s) (hc : s.currentDriver ≠ none)
    (hpc : s.spin ≠ .start) : s.inFlight ≠ [] := by
  cases h with
  | free c => exact absurd c hc
  | claimed _ _ _ _ pc => exact absurd pc hpc
  | busy _ _ _ f => simp [f]

/-- The SPI interrupt, on a bus that carries a frame, keeps the invariant. -/
theorem busInv_handler {s : BusState} (hi : BusInv s) (hf : s.inFlight ≠ []) :
    BusInv s.handler := by
  obtain ⟨n, p, pin, cur, fl, cs, pc, prev⟩ := s
  obtain ⟨shape, kick, writeHigh, ring⟩ := hi
  cases shape with
  | free c f => exact absurd f hf
  | claimed _ _ f => exact absurd f hf
  | busy k hk c f cs' pc' ch =>
    simp only at hk c f cs' pc' ch
    subst c f
    have hkick : pc ≠ .kick := fun h => by simpa using (kick h).1
    cases p
    · refine ⟨.free rfl rfl (fun i => ?_) pc', fun h => absurd h hkick, writeHigh,
        by simp [BusState.handler]⟩
      by_cases hi : i = k
      · subst hi; simp [BusState.handler]
      · simp [BusState.handler, Function.update_noteq hi, cs', hi]
    · refine ⟨.busy (nextDriver n k) (nextDriver_lt hk) rfl rfl (fun i => ?_) pc'
        (.inr ⟨k, rfl, nextDriver_eq_mod hk⟩), fun h => absurd h hkick, writeHigh,
        fun _ _ => .inl (by simp [BusState.handler])⟩
      by_cases hi : i = nextDriver n k
      · subst hi; simp [BusState.handler]
      · by_cases hik : i = k
        · subst hik; simp [BusState.handler, Function.update_noteq hi, hi]
        · simp [BusState.handler, Function.update_noteq hi, Function.update_noteq hik, cs', hik,
            hi]

/-- Each statement of `Spin` keeps the invariant. -/
theorem busInv_spinStep {s s' : BusState} (hi : BusInv s) (h : s.spinStep s.spin = some s') :
    BusInv s' := by
  obtain ⟨n, p, pin, cur, fl, cs, pc, prev⟩ := s
  obtain ⟨shape, kick, writeHigh, ring⟩ := hi
  cases pc with
  | idle => cases h
  | store p' w =>
    cases h
    refine ⟨shape.congr rfl rfl rfl rfl rfl ?_, ?_, ?_, ?_⟩ <;> cases p' <;> cases w <;>
      simp [SpinPc.restarting]
  | writeLow =>
    cases h
    exact ⟨shape.congr rfl rfl rfl rfl rfl (by simp), by simp, by simp,
      fun _ _ => .inr rfl⟩
  | check =>
    simp only [BusState.spinStep, Option.some.injEq] at h
    subst h
    split <;> rename_i hc
    · exact ⟨shape.congr rfl rfl rfl rfl rfl (by simp), fun _ => hc, by simp,
        fun _ _ => .inr rfl⟩
    · refine ⟨shape.congr rfl rfl rfl rfl rfl (by simp), by simp, by simp,
        fun _ hn => .inl (shape.inFlight_ne_nil ?_ (by simp))⟩
      simpa [hn] using hc
  | kick =>
    cases h
    obtain ⟨hc, hn⟩ := kick rfl
    simp only at hc hn
    cases shape with
    | free _ f cs' => exact ⟨.claimed (Nat.pos_of_ne_zero hn) rfl f cs' rfl, by simp, by simp,
        fun _ _ => .inr rfl⟩
    | claimed _ _ _ _ pc' => cases pc'
    | busy _ _ c => simp [hc] at c
  | start =>
    cases h
    cases shape with
    | free _ _ _ pc' => exact absurd rfl pc'
    | busy _ _ _ _ _ pc' => exact absurd rfl pc'
    | claimed hn c f cs' =>
      simp only at hn c f cs'
      subst c f
      refine ⟨.busy 0 hn rfl rfl (fun i => ?_) (by simp) (.inl ⟨rfl, rfl⟩), by simp, by simp,
        fun _ _ => .inl (by simp)⟩
      by_cases hi : i = 0
      · subst hi; simp
      · simp [Function.update_noteq hi, cs', hi]
  | writeHigh =>
    cases h
    have hp : p = false := writeHigh rfl
    exact ⟨shape.congr rfl rfl rfl rfl rfl (by simp), by simp, by simp, by simp [hp]⟩

/-- Every event keeps the invariant. -/
theorem busInv_next {s s' : BusState} {e : BusEvent} (hi : BusInv s) (h : s.next e = some s') :
    BusInv s' := by
  cases e with
  | spin p =>
    simp only [BusState.next] at h
    split at h <;> cases h
    rename_i hpc
    refine ⟨hi.shape.congr rfl rfl rfl rfl rfl (by simp [hpc]), by simp, by simp,
      fun hp hn => ?_⟩
    simpa [hpc, SpinPc.restarting] using hi.ring hp hn
  | step => exact busInv_spinStep hi h
  | turnDriversOff =>
    cases h
    exact ⟨hi.shape.congr rfl rfl rfl rfl rfl Iff.rfl, hi.kick, fun _ => rfl, by simp⟩
  | interrupt =>
    simp only [BusState.next] at h
    split at h
    · cases h
    · cases h; exact busInv_handler hi ‹_›

theorem busInv_init (numDrivers : Nat) : BusInv (BusState.init numDrivers) :=
  ⟨.free rfl rfl (fun _ => rfl) (by simp [BusState.init]), by simp [BusState.init],
    by simp [BusState.init], by simp [BusState.init]⟩

theorem busInv_reachable {s : BusState} (h : BusReachable s) : BusInv s := by
  induction h with
  | init numDrivers => exact busInv_init numDrivers
  | step _ _ he ih => exact busInv_next ih he

/-- In every run: at most one frame is in flight; a chip select is low exactly while its
driver's frame is in flight and that driver is `currentDriver`, so at most one is low;
`currentDriver` is null or one of the drivers; and the frame in flight went to driver 0
if it began its chain, and to `(i + 1) % numTmc2660Drivers` if the frame before it in
the chain went to driver `i`. -/
theorem reachable_bus_safe {s : BusState} (h : BusReachable s) :
    s.inFlight.length ≤ 1 ∧
    (∀ i, s.csLow i = true ↔ s.inFlight = [i] ∧ s.currentDriver = some i) ∧
    (∀ i j, s.csLow i = true → s.csLow j = true → i = j) ∧
    (∀ i, s.currentDriver = some i → i < s.numDrivers) ∧
    (∀ k, s.inFlight = [k] → (s.previous = none ∧ k = 0) ∨
      ∃ j, s.previous = some j ∧ k = (j + 1) % s.numDrivers) := by
  have shape := (busInv_reachable h).shape
  have cs_iff : ∀ i, s.csLow i = true ↔ s.inFlight = [i] ∧ s.currentDriver = some i := by
    intro i
    cases shape with
    | free c f cs => simp [cs, f]
    | claimed _ c f cs => simp [cs, f]
    | busy k _ c f cs => simp [cs, f, c, eq_comm]
  refine ⟨?_, cs_iff, fun i j hi hj => ?_, fun i hc => ?_, fun k hk => ?_⟩
  · -- at most one frame
    cases shape with
    | free _ f => simp [f]
    | claimed _ _ f => simp [f]
    | busy _ _ _ f => simp [f]
  · -- both chip selects belong to the one frame in flight
    have hfi := ((cs_iff i).1 hi).1
    rw [((cs_iff j).1 hj).1, List.singleton_inj] at hfi
    exact hfi.symm
  · -- the current driver is a driver
    cases shape with
    | free c => simp [c] at hc
    | claimed hn c => cases c.symm.trans hc; exact hn
    | busy _ hk c => cases c.symm.trans hc; exact hk
  · -- the chain condition of the frame in flight
    cases shape with
    | free _ f => simp [f] at hk
    | claimed _ _ f => simp [f] at hk
    | busy _ _ _ f _ _ chain => cases (List.singleton_inj.1 (f.symm.trans hk)); exact chain

/-- Whenever `Spin` is not running and the drivers are powered, the polling ring is
alive: `currentDriver` is set and a frame is in flight. -/
theorem reachable_ring_alive {s : BusState} (h : BusReachable s) (hidle : s.spin = .idle)
    (hp : s.driversPowered = true) (hn : 0 < s.numDrivers) :
    s.currentDriver ≠ none ∧ s.inFlight ≠ [] := by
  have hi := busInv_reachable h
  have hf : s.inFlight ≠ [] := by
    simpa [hidle, SpinPc.restarting] using hi.ring hp (Nat.pos_iff_ne_zero.mp hn)
  refine ⟨fun hc => ?_, hf⟩
  cases hi.shape with
  | free _ f => exact hf f
  | claimed _ c => simp [c] at hc
  | busy _ _ c => simp [c] at hc

/-- `Spin(true)` on three drivers, run to the end, then three SPI interrupts: the ring has
wrapped, and the frame in flight is driver 0's, after driver 2's in the same chain. -/
theorem bus_safe_after_wrap :
    ∃ s, BusReachable s ∧ s.inFlight = [0] ∧ s.currentDriver = some 0 ∧ s.previous = some 2 ∧
      s.inFlight.length ≤ 1 ∧
      (∀ i, s.csLow i = true ↔ s.inFlight = [i] ∧ s.currentDriver = some i) ∧
      (∀ i j, s.csLow i = true → s.csLow j = true → i = j) ∧
      (∀ i, s.currentDriver = some i → i < s.numDrivers) ∧
      (∀ k, s.inFlight = [k] → (s.previous = none ∧ k = 0) ∨
        ∃ j, s.previous = some j ∧ k = (j + 1) % s.numDrivers) := by
  obtain ⟨s, hr, hf, hc, hp⟩ : ∃ s, (BusState.init 3).run
      [.spin true, .step, .step, .step, .step, .step, .interrupt, .interrupt, .interrupt] =
        some s ∧ s.inFlight = [0] ∧ s.currentDriver = some 0 ∧ s.previous = some 2 :=
    ⟨_, rfl, rfl, rfl, rfl⟩
  have hs := (BusReachable.init 3).run hr
  exact ⟨s, hs, hf, hc, hp, reachable_bus_safe hs⟩

/-- `Spin(true)` on one unpowered driver, run to the end: it starts the ring. -/
theorem spin_true_starts_ring :
    ∃ s, BusReachable s ∧ s.spin = .idle ∧ s.driversPowered = true ∧ 0 < s.numDrivers ∧
      s.currentDriver ≠ none ∧ s.inFlight ≠ [] := by
  obtain ⟨s, hr, hidle, hp, hn⟩ : ∃ s, (BusState.init 1).run
      [.spin true, .step, .step, .step, .step, .step] = some s ∧
      s.spin = .idle ∧ s.driversPowered = true ∧ 0 < s.numDrivers :=
    ⟨_, rfl, rfl, rfl, Nat.one_pos⟩
  have hs := (BusReachable.init 1).run hr
  exact ⟨s, hs, hidle, hp, hn, reachable_ring_alive hs hidle hp hn⟩

/-! ## The enable pin -/

/-- What keeps the enable pin honest: it is LOW only while the drivers are flagged powered,
or in `Spin(false)` before its write of the pin; `Spin(true)` reaches its write of the pin
with the drivers flagged powered; and a `Spin` that loaded `wasPowered` false has not seen
the pin LOW since. -/
structure PinInv (s : BusState) : Prop where
  pin : s.enablePinLow = true → s.driversPowered = true ∨ s.spin = .writeHigh
  writeLow : s.spin = .writeLow → s.driversPowered = true
  store : ∀ p w, s.spin = .store p w → s.enablePinLow = true → w = true

/-- The SPI interrupt touches neither the pin, the power flag nor `Spin`. -/
theorem handler_pin (s : BusState) : s.handler.enablePinLow = s.enablePinLow ∧
    s.handler.driversPowered = s.driversPowered ∧ s.handler.spin = s.spin := by
  unfold BusState.handler
  dsimp only
  cases s.currentDriver with
  | none => exact ⟨rfl, rfl, rfl⟩
  | some c => dsimp only; split <;> exact ⟨rfl, rfl, rfl⟩

/-- `TurnDriversOff` lands in `Spin(true)` between its store of `driversPowered` and its
write of the enable pin. -/
def TicksInSpin (s : BusState) (e : BusEvent) : Prop := s.spin = .writeLow ∧ e = .turnDriversOff

/-- The states of the runs in which no tick lands there. -/
inductive QuietBusReachable : BusState → Prop
  | init (numDrivers : Nat) : QuietBusReachable (BusState.init numDrivers)
  | step {s s' : BusState} (e : BusEvent) : QuietBusReachable s → s.next e = some s' →
    ¬ TicksInSpin s e → QuietBusReachable s'

/-- Every event keeps `PinInv`, except a tick inside `Spin(true)`'s window. -/
theorem pinInv_next {s s' : BusState} {e : BusEvent} (hi : PinInv s) (h : s.next e = some s')
    (hq : ¬ TicksInSpin s e) : PinInv s' := by
  obtain ⟨n, p, pin, cur, fl, cs, pc, prev⟩ := s
  obtain ⟨hpin, hlow, hstore⟩ := hi
  simp only at hpin hlow hstore
  -- a LOW pin outside `Spin(false)`'s write means the drivers are flagged powered
  have powered : pin = true → pc ≠ .writeHigh → p = true := fun hl hpc =>
    (hpin hl).resolve_right hpc
  cases e with
  | spin p' =>
    simp only [BusState.next] at h
    split at h <;> cases h
    rename_i hidle
    subst hidle
    have hp := fun hl => powered hl SpinPc.noConfusion
    exact ⟨fun hl => .inl (hp hl), SpinPc.noConfusion, fun _ _ hs hl => by cases hs; exact hp hl⟩
  | step =>
    cases pc with
    | idle => cases h
    | store p' w =>
      cases h
      have hw : pin = true → w = true := hstore p' w rfl
      refine ⟨fun hl => ?_, fun hwl => ?_, fun _ _ hs => ?_⟩
      · cases p'
        · exact .inr (by cases hw hl; rfl)
        · exact .inl rfl
      · cases p'
        · cases w <;> cases hwl
        · rfl
      · cases p' <;> cases w <;> cases hs
    | writeLow =>
      cases h
      exact ⟨fun _ => .inl (hlow rfl), SpinPc.noConfusion, fun _ _ => SpinPc.noConfusion⟩
    | check =>
      simp only [BusState.next, BusState.spinStep, Option.some.injEq] at h
      subst h
      refine ⟨fun hl => .inl (powered hl SpinPc.noConfusion), fun hs => ?_, fun _ _ hs => ?_⟩ <;>
        split at hs <;> exact SpinPc.noConfusion hs
    | kick =>
      cases h
      exact ⟨fun hl => .inl (powered hl SpinPc.noConfusion), SpinPc.noConfusion,
        fun _ _ => SpinPc.noConfusion⟩
    | start =>
      cases h
      exact ⟨fun hl => .inl (powered hl SpinPc.noConfusion), SpinPc.noConfusion,
        fun _ _ => SpinPc.noConfusion⟩
    | writeHigh =>
      cases h
      exact ⟨Bool.noConfusion, SpinPc.noConfusion, fun _ _ => SpinPc.noConfusion⟩
  | turnDriversOff =>
    cases h
    exact ⟨Bool.noConfusion, fun hwl => absurd ⟨hwl, rfl⟩ hq, fun _ _ _ => Bool.noConfusion⟩
  | interrupt =>
    simp only [BusState.next] at h
    split at h
    · cases h
    · cases h
      obtain ⟨h₁, h₂, h₃⟩ := handler_pin _
      exact ⟨by rw [h₁, h₂, h₃]; exact hpin, by rw [h₂, h₃]; exact hlow,
        by rw [h₁, h₃]; exact hstore⟩

theorem pinInv_quiet {s : BusState} (h : QuietBusReachable s) : PinInv s := by
  induction h with
  | init numDrivers => exact ⟨Bool.noConfusion, SpinPc.noConfusion, fun _ _ => SpinPc.noConfusion⟩
  | step e _ hn hq ih => exact pinInv_next ih hn hq

/-- **Only the tick inside `Spin(true)` enables unpowered drivers.** On every run in which
`TurnDriversOff` never lands between `Spin(true)`'s store of `driversPowered` and its write
of the enable pin, whenever `Spin` is not running the enable pin is LOW only while the
drivers are flagged powered. -/
theorem quiet_pin_low_only_when_powered {s : BusState} (h : QuietBusReachable s)
    (hidle : s.spin = .idle) (hpin : s.enablePinLow = true) : s.driversPowered = true :=
  ((pinInv_quiet h).pin hpin).resolve_right (by rw [hidle]; exact SpinPc.noConfusion)

/-- `Spin(true)` on one unpowered driver, run to the end without a tick: the pin is LOW and
the drivers are flagged powered. -/
theorem spin_true_quiet_pin_low : ∃ s, QuietBusReachable s ∧ s.spin = .idle ∧
    s.enablePinLow = true ∧ s.driversPowered = true := by
  have h₀ : QuietBusReachable (BusState.init 1) := .init 1
  have h₁ := QuietBusReachable.step (.spin true) h₀ rfl fun h => BusEvent.noConfusion h.2
  have h₂ := QuietBusReachable.step .step h₁ rfl fun h => BusEvent.noConfusion h.2
  have h₃ := QuietBusReachable.step .step h₂ rfl fun h => BusEvent.noConfusion h.2
  have h₄ := QuietBusReachable.step .step h₃ rfl fun h => BusEvent.noConfusion h.2
  have h₅ := QuietBusReachable.step .step h₄ rfl fun h => BusEvent.noConfusion h.2
  have h₆ := QuietBusReachable.step .step h₅ rfl fun h => BusEvent.noConfusion h.2
  exact ⟨_, h₆, rfl, rfl, quiet_pin_low_only_when_powered h₆ rfl rfl⟩

/-- `Spin(false)` with the drivers already unpowered sees no falling edge: uninterrupted,
it changes nothing, so it never raises an enable pin left LOW. -/
theorem run_spin_false_of_unpowered (s : BusState) (hidle : s.spin = .idle)
    (hp : s.driversPowered = false) : s.run [.spin false, .step] = some s := by
  obtain ⟨n, p, pin, cur, fl, cs, pc, prev⟩ := s
  simp only at hidle hp
  subst hidle hp
  rfl

/-- A tick lands in `Spin(true)` between its store of `driversPowered` and its write of
the enable pin, on one driver. -/
def tickInSpin : List BusEvent :=
  [.spin true, .step, .turnDriversOff, .step, .step, .step, .step]

/-- After `tickInSpin`, `Spin` has finished with the enable pin LOW, so the drivers are
enabled, while `driversPowered` is false; and a following `Spin(false)` leaves it so. -/
theorem turnDriversOff_in_spin_leaves_drivers_enabled :
    ∃ s, BusReachable s ∧ s.spin = .idle ∧ s.enablePinLow = true ∧ s.driversPowered = false ∧
      s.run [.spin false, .step] = some s := by
  obtain ⟨s, hr, hidle, hpin, hp⟩ : ∃ s, (BusState.init 1).run tickInSpin = some s ∧
      s.spin = .idle ∧ s.enablePinLow = true ∧ s.driversPowered = false :=
    ⟨_, rfl, rfl, rfl, rfl⟩
  exact ⟨s, (BusReachable.init 1).run hr, hidle, hpin, hp,
    run_spin_false_of_unpowered s hidle hp⟩

end Tmc2660
