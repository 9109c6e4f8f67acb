import Mathlib.Algebra.Ring.Int.Defs
import Mathlib.Algebra.Ring.Nat
import AndroidX86Tv.Lib.History
import AndroidX86Tv.Lib.Memory

/-!
# The tablet mode daemon (tablet-mode/tablet-mode.c)

The daemon reads the events of a switch device and emits those of a lid switch for
the changes of the tablet mode. `read` returns a signed number that is kept as an
unsigned one, so that a failure does not look like too little data.

## Implementation notes

`iev` is declared in the loop, but nothing initialises it, so that it still holds
what earlier reads left there. On the first pass that is whatever the stack held.
-/

namespace AndroidX86Tv.TabletMode

open ByteMemory EventHistory

def evSyn : UInt16 := 0
def evSw : UInt16 := 5
def synReport : UInt16 := 0
def swLid : UInt16 := 0
def swTabletMode : UInt16 := 1

/-- `sizeof(struct input_event)`: two words of time, then `type` at 16, `code` at
18 and `value` at 20. -/
def sizeofInputEvent : Nat := 24

/-- A `struct input_event`, but for its time. -/
@[ext]
structure InputEvent where
  type : UInt16
  code : UInt16
  value : UInt32
  deriving DecidableEq

/-- The event that lies in memory. -/
def InputEvent.read (m : Memory) : InputEvent := ⟨load16 m 16, load16 m 18, load32 m 20⟩

/-- What `read` does: it stores at most as many bytes as were asked for, or fails. -/
inductive ReadResult where
  | data (bytes : List UInt8) (fits : bytes.length ≤ sizeofInputEvent)
  | error

namespace ReadResult

/-- The value of `read`, of type `ssize_t`. -/
def returned : ReadResult → Int
  | data bytes _ => bytes.length
  | error => -1

/-- That value in `res`, of type `size_t`. -/
def res (result : ReadResult) : Nat := (result.returned % 2 ^ 64).toNat

/-- The buffer after the call. -/
def fill (iev : Memory) : ReadResult → Memory
  | data bytes _ => store iev 0 bytes
  | error => iev

end ReadResult

/-- The events that `send_switch` writes. -/
def sendSwitch (state : UInt32) : List InputEvent :=
  [⟨evSw, swLid, if state ≠ 0 then 1 else 0⟩, ⟨evSyn, synReport, 0⟩]

structure Daemon where
  iev : Memory
  emitted : List InputEvent

/-- The report before the loop, from the switch state, if it can be had. -/
def initialReport (swState : Option UInt64) : List InputEvent :=
  match swState with
  | some state => sendSwitch (if state >>> 1 &&& 1 ≠ 0 then 1 else 0)
  | none => []

namespace Daemon

/-- The daemon at its loop, with a buffer that holds anything. -/
def start (swState : Option UInt64) (iev : Memory) : Daemon := ⟨iev, initialReport swState⟩

/-- One pass of the loop. -/
def step (d : Daemon) (result : ReadResult) : Daemon :=
  let iev := result.fill d.iev
  if result.res < sizeofInputEvent then { d with iev := iev }
  else
    let event := InputEvent.read iev
    if event.type = evSw ∧ event.code = swTabletMode then
      ⟨iev, d.emitted ++ sendSwitch event.value⟩
    else { d with iev := iev }

/-- What is to be emitted for an event. -/
def forward (event : InputEvent) : List InputEvent :=
  if event.type = evSw ∧ event.code = swTabletMode then sendSwitch event.value else []

/-- What is to be emitted for a result of `read`: something for a complete event
only. -/
def expected : ReadResult → List InputEvent
  | .data bytes _ =>
      if bytes.length = sizeofInputEvent then forward (InputEvent.read (ofBytes bytes)) else []
  | .error => []

/-- The buffer holds an event of the tablet mode switch. -/
def HoldsSwitch (iev : Memory) : Prop :=
  load16 iev 16 = evSw ∧ load16 iev 18 = swTabletMode

instance (iev : Memory) : Decidable (HoldsSwitch iev) := inferInstanceAs (Decidable (_ ∧ _))

/-- The read does not fail on a buffer that holds an old event of the switch. -/
def NoStaleSwitch (d : Daemon) (result : ReadResult) : Prop :=
  result.returned = -1 → ¬ HoldsSwitch d.iev

instance (d : Daemon) (result : ReadResult) : Decidable (d.NoStaleSwitch result) :=
  inferInstanceAs (Decidable (_ → _))

/-- What a pass emits. -/
def emits (d : Daemon) (result : ReadResult) : List InputEvent :=
  if result.res < sizeofInputEvent then [] else forward (InputEvent.read (result.fill d.iev))

theorem step_emitted (d : Daemon) (result : ReadResult) :
    (d.step result).emitted = d.emitted ++ d.emits result := by
  simp only [step, emits, forward]
  split_ifs
  · exact (List.append_nil _).symm
  · rfl
  · exact (List.append_nil _).symm

theorem res_data {bytes : List UInt8} (fits : bytes.length ≤ sizeofInputEvent) :
    (ReadResult.data bytes fits).res = bytes.length := by
  have hsmall : bytes.length ≤ 24 := fits
  simp only [ReadResult.res, ReadResult.returned]
  omega

/-- A failure counts as a great deal of data. -/
theorem res_error : ReadResult.error.res = 2 ^ 64 - 1 := by decide

/-- A complete event is what the buffer holds after its read. -/
theorem read_fill {bytes : List UInt8} (fits : bytes.length ≤ sizeofInputEvent)
    (hfull : bytes.length = sizeofInputEvent) (iev : Memory) :
    InputEvent.read ((ReadResult.data bytes fits).fill iev) = InputEvent.read (ofBytes bytes) := by
  have hlength : bytes.length = 24 := hfull
  have hholds := holds_store iev 0 bytes
  have hhalf : ∀ k, k + 2 ≤ 24 → load16 (store iev 0 bytes) k = load16 (ofBytes bytes) k := by
    intro k hk
    rw [← hholds.load16_eq (by omega), Nat.zero_add]
  have hword : load32 (store iev 0 bytes) 20 = load32 (ofBytes bytes) 20 := by
    rw [← hholds.load32_eq (by omega), Nat.zero_add]
  simp only [InputEvent.read, ReadResult.fill]
  rw [hhalf 16 (by decide), hhalf 18 (by decide), hword]

theorem emits_data (d : Daemon) {bytes : List UInt8} (fits : bytes.length ≤ sizeofInputEvent) :
    d.emits (.data bytes fits) = expected (.data bytes fits) := by
  rw [emits, expected, res_data]
  rcases Nat.lt_or_eq_of_le fits with hshort | hfull
  · rw [if_pos hshort, if_neg (Nat.ne_of_lt hshort)]
  · rw [if_neg (by omega), if_pos hfull, read_fill fits hfull]

theorem emits_error (d : Daemon) : d.emits .error = forward (InputEvent.read d.iev) := by
  rw [emits, res_error, if_neg (by decide)]
  rfl

theorem forward_of_holds {iev : Memory} (h : HoldsSwitch iev) :
    forward (InputEvent.read iev) = sendSwitch (load32 iev 20) := if_pos h

theorem forward_of_not_holds {iev : Memory} (h : ¬ HoldsSwitch iev) :
    forward (InputEvent.read iev) = [] := if_neg h

theorem emits_eq_expected (d : Daemon) (result : ReadResult) (h : d.NoStaleSwitch result) :
    d.emits result = expected result := by
  cases result with
  | data bytes fits => exact emits_data d fits
  | error => rw [emits_error, forward_of_not_holds (h rfl), expected]

/-- A failed read on an old event of the switch emits it once more. -/
theorem emits_more (d : Daemon) (result : ReadResult) (h : ¬ d.NoStaleSwitch result) :
    (expected result).length < (d.emits result).length := by
  cases result with
  | data bytes fits =>
      refine absurd (fun hfails => ?_) h
      have hcount : (0 : Int) ≤ bytes.length := Int.natCast_nonneg _
      rw [show (bytes.length : Int) = -1 from hfails] at hcount
      exact absurd hcount (by decide)
  | error =>
      have hholds : HoldsSwitch d.iev := by
        by_contra hno
        exact h fun _ => hno
      rw [emits_error, forward_of_holds hholds]
      exact Nat.zero_lt_two

/-- The daemon emits the initial report and then what is expected for each read
exactly if no read fails while the buffer holds an old event of the switch. -/
theorem emitted_iff (swState : Option UInt64) (iev : Memory) (results : List ReadResult) :
    (run step (start swState iev) results).emitted =
        initialReport swState ++ results.flatMap expected ↔
      AllSteps step NoStaleSwitch (start swState iev) results :=
  output_eq_iff step_emitted emits_eq_expected emits_more (start swState iev) results

/-- The switch goes on. -/
def switchOn : List UInt8 :=
  List.replicate 16 0 ++ bytes16 evSw ++ bytes16 swTabletMode ++ bytes32 1

/-- A failed read behind an event repeats it. -/
theorem failed_read_repeats : ¬ ∀ (swState : Option UInt64) (iev : Memory)
    (results : List ReadResult), (run step (start swState iev) results).emitted =
      initialReport swState ++ results.flatMap expected := by
  intro h
  have hrun := h none (fun _ => 0) [.data switchOn (by decide), .error]
  exact absurd hrun (by decide +kernel)

end Daemon

end AndroidX86Tv.TabletMode
