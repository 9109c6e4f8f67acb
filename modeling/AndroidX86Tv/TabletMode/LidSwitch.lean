import AndroidX86Tv.TabletMode.Daemon

/-!
# The lid switch as the system sees it

The kernel hands out whole events. Then what the daemon writes is a list of reports,
each a state of the lid switch and the end of the report, and the last one has the
state of the tablet mode switch that was read last. A failed read repeats a report at
most.
-/

namespace AndroidX86Tv.TabletMode

open ByteMemory EventHistory

/-- The state of the tablet mode switch that an event gives. -/
def InputEvent.switched (event : InputEvent) : Option Bool :=
  if event.type = evSw ∧ event.code = swTabletMode then some (decide (event.value ≠ 0)) else none

/-- The state that a read gives, if it is a whole event of the switch. -/
def ReadResult.switched : ReadResult → Option Bool
  | .data bytes _ =>
      if bytes.length = sizeofInputEvent then (InputEvent.read (ofBytes bytes)).switched else none
  | .error => none

/-- The kernel stores a whole event or nothing. -/
def ReadResult.Whole : ReadResult → Prop
  | .data bytes _ => bytes.length = sizeofInputEvent ∨ bytes = []
  | .error => True

/-- The state that is reported first. -/
def initialState (swState : Option UInt64) : Option Bool :=
  swState.map fun (state : UInt64) => decide (state >>> 1 &&& 1 ≠ 0)

/-- A report of the lid switch. -/
def lidReport (state : Bool) : List InputEvent :=
  [⟨evSw, swLid, if state then 1 else 0⟩, ⟨evSyn, synReport, 0⟩]

theorem sendSwitch_eq (state : UInt32) : sendSwitch state = lidReport (decide (state ≠ 0)) := by
  by_cases h : state ≠ 0 <;> simp [sendSwitch, lidReport, h]

namespace Daemon

theorem forward_eq (event : InputEvent) :
    forward event = event.switched.elim [] lidReport := by
  unfold forward InputEvent.switched
  split_ifs
  · exact sendSwitch_eq event.value
  · rfl

/-- The daemon has written whole reports, the last with the given state, and its buffer
holds no other state. -/
structure ShowsSwitch (state : Option Bool) (d : Daemon) : Prop where
  reports : ∃ states : List Bool, d.emitted = states.flatMap lidReport ∧ states.getLast? = state
  held : ∀ old, (InputEvent.read d.iev).switched = some old → state = some old

variable {state : Option Bool} {d : Daemon}

/-- A report for an event that is read, or read once more. -/
theorem ShowsSwitch.forward (h : ShowsSwitch state d) (event : InputEvent)
    {emitted : List InputEvent} (hemitted : emitted = d.emitted ++ Daemon.forward event) :
    ∃ states : List Bool, emitted = states.flatMap lidReport ∧
      states.getLast? = event.switched.or state := by
  obtain ⟨states, hstates, hlast⟩ := h.reports
  rw [hstates, forward_eq] at hemitted
  cases hswitched : event.switched with
  | none =>
      rw [hswitched, Option.elim_none, List.append_nil] at hemitted
      exact ⟨states, hemitted, hlast⟩
  | some new =>
      rw [hswitched, Option.elim_some] at hemitted
      refine ⟨states ++ [new], ?_, by simp⟩
      rw [hemitted, List.flatMap_append, List.flatMap_singleton]

theorem step_iev (d : Daemon) (result : ReadResult) : (d.step result).iev = result.fill d.iev := by
  simp only [step]
  split_ifs <;> rfl

/-- A pass shows the state that it reads; a failed or empty read leaves the state. -/
theorem ShowsSwitch.step (h : ShowsSwitch state d) {result : ReadResult} (hwhole : result.Whole) :
    ShowsSwitch (result.switched.or state) (d.step result) := by
  have hemitted := step_emitted d result
  cases result with
  | error =>
      rw [emits_error] at hemitted
      obtain ⟨states, hstates, hlast⟩ := h.forward _ hemitted
      refine ⟨⟨states, hstates, ?_⟩, ?_⟩
      · rw [hlast]
        cases hold : (InputEvent.read d.iev).switched with
        | none => rfl
        | some old => exact (h.held old hold).symm
      · rw [step_iev]
        exact h.held
  | data bytes fits =>
      rcases hwhole with hfull | rfl
      · rw [emits_data, expected, if_pos hfull] at hemitted
        rw [ReadResult.switched, if_pos hfull]
        refine ⟨h.forward _ hemitted, fun old hold => ?_⟩
        rw [step_iev, read_fill fits hfull] at hold
        rw [hold, Option.some_or]
      · have hnone : (ReadResult.data [] fits).switched = none := by
          rw [ReadResult.switched, if_neg (by decide)]
        rw [emits_data, expected, if_neg (by decide), List.append_nil] at hemitted
        rw [hnone, Option.none_or]
        refine ⟨hemitted ▸ h.reports, ?_⟩
        rw [step_iev]
        exact h.held

theorem ShowsSwitch.run (h : ShowsSwitch state d) {results : List ReadResult}
    (hwhole : ∀ result ∈ results, result.Whole) :
    ShowsSwitch ((results.filterMap ReadResult.switched).getLast?.or state)
      (EventHistory.run Daemon.step d results) := by
  induction results generalizing state d with
  | nil => exact h
  | cons result results ih =>
      have hrest := ih (h.step (hwhole result List.mem_cons_self)) fun later hlater =>
        hwhole later (List.mem_cons_of_mem result hlater)
      rw [run_cons, List.filterMap_cons]
      cases hswitched : result.switched with
      | none => simpa [hswitched] using hrest
      | some new =>
          rw [hswitched, Option.some_or] at hrest
          simpa [List.getLast?_cons, Option.or_some] using hrest

/-- Through all failed and empty reads the daemon writes whole reports, and the last one has
the state of the switch that was read last, or the initial one before any was read. -/
theorem run_showsSwitch (swState : Option UInt64) (iev : Memory)
    (hfresh : ¬ HoldsSwitch iev) (results : List ReadResult)
    (hwhole : ∀ result ∈ results, result.Whole) :
    ∃ states : List Bool,
      (EventHistory.run step (start swState iev) results).emitted = states.flatMap lidReport ∧
        states.getLast? =
          (results.filterMap ReadResult.switched).getLast?.or (initialState swState) := by
  have hstart : ShowsSwitch (initialState swState) (start swState iev) := by
    constructor
    · cases swState with
      | none => exact ⟨[], rfl, rfl⟩
      | some state =>
          refine ⟨[decide (state >>> 1 &&& 1 ≠ 0)], ?_, rfl⟩
          rw [start, initialReport, sendSwitch_eq, List.flatMap_singleton]
          by_cases h : state >>> 1 &&& 1 ≠ 0 <;> simp [h]
    · intro old hold
      have hnone : (InputEvent.read iev).switched = none := if_neg hfresh
      exact absurd (hnone.symm.trans hold) nofun
  exact (hstart.run hwhole).reports

/-- The switch goes on, and then two reads fail. -/
theorem run_showsSwitch_repeated :
    ∃ states : List Bool,
      (EventHistory.run step (start none fun _ => 0)
        [.data switchOn (by decide), .error, .error]).emitted = states.flatMap lidReport ∧
        states.getLast? = some true :=
  run_showsSwitch none (fun _ => 0) (by decide +kernel) [.data switchOn (by decide), .error, .error]
    (by simp [ReadResult.Whole, switchOn, sizeofInputEvent, bytes16, bytes32])

end Daemon

end AndroidX86Tv.TabletMode
