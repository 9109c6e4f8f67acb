import AndroidX86Tv.Wacom.Values

/-!
# The events that wacom-input reports (wacom/wacom-input.c)

The main loop reads a packet, has it parsed, and writes the coordinates, the pressure
and the touch to a virtual input device. Whatever is on the line, resets of the tablet
included, every report is complete and the virtual device shows the state of the tablet.

## Implementation notes

Every `write` succeeds; a failed one is only logged. The times of the events are left out.
-/

namespace AndroidX86Tv.Wacom

open ByteMemory SmallWords EventHistory

/-- `struct input_event`. -/
structure InputEvent where
  type : UInt16
  code : UInt16
  value : Int32
  deriving DecidableEq

def evSyn : UInt16 := 0x00
def evKey : UInt16 := 0x01
def evAbs : UInt16 := 0x03
def synReport : UInt16 := 0
def absX : UInt16 := 0x00
def absY : UInt16 := 0x01
def absPressure : UInt16 := 0x18
def btnTouch : UInt16 := 0x14a

/-- `wacom_report_event`: what is written. -/
def wacomReportEvent (type code : UInt16) (value : Int32) : List InputEvent :=
  if value = -1 then [] else [⟨type, code, value⟩]

/-- What the main loop writes for a state. -/
def reportState (minPress : Int32) (state : WacomState) : List InputEvent :=
  if state.value .proximity = 0 then
    wacomReportEvent evAbs absPressure 0 ++ wacomReportEvent evKey btnTouch 0 ++
      wacomReportEvent evSyn synReport 0
  else
    wacomReportEvent evAbs absX (state.value .positionX) ++
      wacomReportEvent evAbs absY (state.value .positionY) ++
      wacomReportEvent evAbs absPressure (state.value .pressure) ++
      wacomReportEvent evKey btnTouch (if state.value .pressure > minPress then 1 else 0) ++
      wacomReportEvent evSyn synReport 0

/-- What a pass of the main loop meets: the line while the tablet is reset, if it is, and
what there is to read after that. -/
structure PassInput where
  line : Line
  port : List Turn

/-- wacom-input in its main loop, with what it has written to the virtual device. -/
structure Daemon where
  hTablet : SerialTablet
  state : WacomState
  uchBuf : Memory
  minPress : Int32
  written : List InputEvent

namespace Daemon

/-- The main loop is entered with the state of the tablet. -/
def start (hTablet : SerialTablet) (uchBuf : Memory) (minPress : Int32) : Daemon where
  hTablet := hTablet
  state := (wacomCopyState ⟨wacomFieldMax, 0, fun _ => .zero⟩ hTablet.state).1
  uchBuf := uchBuf
  minPress := minPress
  written := []

/-- A pass of the main loop from the call of `WacomParseData` on. -/
def parseAndReport (d : Daemon) (nLength : Nat) : Daemon :=
  match d.hTablet.serialParseData d.uchBuf nLength (some d.state) with
  | (hTablet, state, failed) =>
      let d := { d with hTablet := hTablet, state := state.getD d.state }
      if failed ≠ 0 then d else { d with written := d.written ++ reportState d.minPress d.state }

def pass (d : Daemon) (input : PassInput) : Daemon :=
  match d.hTablet.serialReadRaw ⟨d.uchBuf, sizeofUchBuf, input.line, input.port⟩ with
  | (hTablet, uchBuf, nLength) =>
      let d := { d with hTablet := hTablet, uchBuf := uchBuf }
      if nLength < 0 then d else d.parseAndReport nLength.toNat

/-- What holds whenever the loop is entered. -/
structure Sound (d : Daemon) : Prop where
  count : d.hTablet.state.uValueCnt = wacomFieldMax
  bounded : d.hTablet.state.Bounded
  dest : d.state.uValueCnt = wacomFieldMax

/-- What the parser made of the packet: nothing that is reported, or a state of the tablet
that was copied out. -/
inductive Parsed (d : Daemon) : Daemon → Prop where
  | dropped (nBitErrors : Nat) :
      Parsed d { d with hTablet := { d.hTablet with nBitErrors := nBitErrors } }
  | taken (hTablet : SerialTablet) (state : WacomState)
      (hcount : hTablet.state.uValueCnt = wacomFieldMax) (hbounded : hTablet.state.Bounded)
      (hcopy : SerialTablet.CopyOf hTablet state) :
      Parsed d
        { d with
          hTablet := hTablet
          state := state
          written := d.written ++ reportState d.minPress state }

/-- Only a packet that is well formed, and that the parser takes, is reported. -/
theorem parseAndReport_parsed {d : Daemon} (h : d.Sound) (nLength : Nat) :
    Parsed d (d.parseAndReport nLength) := by
  rw [parseAndReport]
  cases d.hTablet.parsed_cases ⟨d.uchBuf, nLength, some d.state⟩ with
  | inl hnothing =>
      obtain ⟨⟨nBitErrors, heq⟩, -⟩ := hnothing
      rw [SerialTablet.parsed] at heq
      rw [heq]
      exact .dropped nBitErrors
  | inr hparse =>
      obtain ⟨parser, -, hsync, heq⟩ := hparse
      simp only [SerialTablet.parsed] at heq
      rw [heq]
      by_cases hfailed : ({ d.hTablet with nBitErrors := 0 }.parse parser d.uchBuf nLength
          (some d.state)).2.2 = 0
      · obtain ⟨copied, hcopied, hcopy⟩ :=
          SerialTablet.parse_copies (t := { d.hTablet with nBitErrors := 0 }) h.count h.dest hfailed
        have hbounded := SerialTablet.parse_bounded (t := { d.hTablet with nBitErrors := 0 })
          hsync h.count h.bounded parser (some d.state)
        have hkept : (({ d.hTablet with nBitErrors := 0 }.parse parser d.uchBuf nLength
            (some d.state)).1).state.uValueCnt = wacomFieldMax := by
          by_cases hout : SerialTablet.OutPacket parser d.uchBuf nLength
          · rw [SerialTablet.parse_out hout, SerialTablet.report_fst]
            exact h.count
          · exact (SerialTablet.parse_updates hout).ranges.2.trans h.count
        rcases hresult : { d.hTablet with nBitErrors := 0 }.parse parser d.uchBuf nLength
          (some d.state) with ⟨hTablet, state, failed⟩
        rw [hresult] at hfailed hcopied hcopy hbounded hkept ⊢
        simp only at hfailed hcopied
        subst hfailed hcopied
        exact .taken hTablet copied hkept hbounded hcopy
      · rw [SerialTablet.parse_failed (t := { d.hTablet with nBitErrors := 0 }) h.count h.dest
          hfailed]
        exact .dropped 0

theorem Sound.parsed {d d' : Daemon} (h : d.Sound) (hparsed : Parsed d d') : d'.Sound := by
  cases hparsed with
  | dropped nBitErrors => exact ⟨h.count, h.bounded, h.dest⟩
  | taken hTablet state hcount hbounded hcopy => exact ⟨hcount, hbounded, hcopy.count⟩

/-- A pass reads, with or without a reset, and has what was read parsed. -/
theorem pass_reads (d : Daemon) (input : PassInput) :
    ∃ hTablet uchBuf, SerialTablet.SameValues hTablet d.hTablet ∧
      (d.pass input = { d with hTablet := hTablet, uchBuf := uchBuf } ∨
        ∃ nLength, d.pass input =
          { d with hTablet := hTablet, uchBuf := uchBuf }.parseAndReport nLength) := by
  have hvalues :=
    d.hTablet.serialReadRaw_values ⟨d.uchBuf, sizeofUchBuf, input.line, input.port⟩
  rw [pass]
  generalize d.hTablet.serialReadRaw ⟨d.uchBuf, sizeofUchBuf, input.line, input.port⟩ = result
    at hvalues ⊢
  obtain ⟨hTablet, uchBuf, nLength⟩ := result
  refine ⟨hTablet, uchBuf, hvalues, ?_⟩
  simp only
  split
  · exact Or.inl rfl
  · exact Or.inr ⟨nLength.toNat, rfl⟩

theorem Sound.read {d : Daemon} (h : d.Sound) {hTablet : SerialTablet}
    (hvalues : SerialTablet.SameValues hTablet d.hTablet) (uchBuf : Memory) :
    { d with hTablet := hTablet, uchBuf := uchBuf }.Sound := by
  refine ⟨hvalues.count.trans h.count, ?_, h.dest⟩
  intro f
  rw [hvalues.value]
  exact h.bounded f

/-- The loop is entered so after the tablet was opened. -/
theorem start_sound {pModel : Option WacomModel} {line : Line} {t : SerialTablet}
    (h : wacomOpenSerialTablet pModel line = some t) (uchBuf : Memory) (minPress : Int32) :
    (start t uchBuf minPress).Sound := by
  have hcount := (SerialTablet.open_state h).1
  refine ⟨hcount, ?_, ?_⟩
  · intro f
    have hzero : t.state.value f = 0 := SerialTablet.open_values h f
    have hvalue : (start t uchBuf minPress).hTablet.state.value f = 0 := hzero
    rw [hvalue]
    cases f with
    | positionX => exact (by decide : Fits 16 0)
    | positionY => exact (by decide : Fits 16 0)
    | pressure => exact (by decide : Fits 10 0)
    | _ => trivial
  · rw [start, wacomCopyState]
    split
    · rfl
    · rfl

end Daemon

end AndroidX86Tv.Wacom
