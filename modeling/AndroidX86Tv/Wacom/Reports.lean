import AndroidX86Tv.Wacom.Reporting

/-!
# What the virtual device is told (wacom/wacom-input.c)

`wacom_report_event` drops an event of value -1, so that a report is complete only
because the parsers never give such a value. A pass of the main loop reports the state of
the tablet or leaves it; the virtual device shows at every time what the tablet last said.
-/

namespace AndroidX86Tv.Wacom

open ByteMemory SmallWords EventHistory

/-- A number from zero on, below a bound. -/
def Within (bound : Int) (v : Int32) : Prop := 0 ≤ v.toInt ∧ v.toInt < bound

/-- The report of a position and a pressure. -/
def reportTool (minPress x y press : Int32) : List InputEvent :=
  [⟨evAbs, absX, x⟩, ⟨evAbs, absY, y⟩, ⟨evAbs, absPressure, press⟩,
    ⟨evKey, btnTouch, if press > minPress then 1 else 0⟩, ⟨evSyn, synReport, 0⟩]

/-- The report that no tool is near. -/
def reportAway : List InputEvent :=
  [⟨evAbs, absPressure, 0⟩, ⟨evKey, btnTouch, 0⟩, ⟨evSyn, synReport, 0⟩]

/-- The whole report of a state. -/
def report (minPress : Int32) (state : WacomState) : List InputEvent :=
  if state.value .proximity = 0 then reportAway
  else reportTool minPress (state.value .positionX) (state.value .positionY)
    (state.value .pressure)

/-- The coordinates and the pressure of a state are in the ranges of the virtual device. -/
structure InRange (state : WacomState) : Prop where
  x : Within (2 ^ 16) (state.value .positionX)
  y : Within (2 ^ 16) (state.value .positionY)
  pressure : Within (2 ^ 10) (state.value .pressure)

/-- The values of the virtual device, by the type and the code of an event. -/
abbrev Axes := UInt16 → UInt16 → Int32

def Axes.set (axes : Axes) (ev : InputEvent) : Axes := fun type code =>
  if type = ev.type ∧ code = ev.code then ev.value else axes type code

/-- What a device shows that was created with zeros. -/
def shown (events : List InputEvent) : Axes := events.foldl Axes.set fun _ _ => 0

theorem shown_append (events new : List InputEvent) :
    shown (events ++ new) = new.foldl Axes.set (shown events) :=
  List.foldl_append

/-- The device shows a state of the tablet; the coordinates while a tool is near. -/
structure Shows (minPress : Int32) (state : WacomState) (axes : Axes) : Prop where
  touch : axes evKey btnTouch =
    if state.value .proximity ≠ 0 ∧ state.value .pressure > minPress then 1 else 0
  pressure : axes evAbs absPressure =
    if state.value .proximity ≠ 0 then state.value .pressure else 0
  position : state.value .proximity ≠ 0 →
    axes evAbs absX = state.value .positionX ∧ axes evAbs absY = state.value .positionY

section Report

variable {state : WacomState} (minPress : Int32)

theorem wacomReportEvent_eq {value : Int32} (h : value ≠ -1) (type code : UInt16) :
    wacomReportEvent type code value = [⟨type, code, value⟩] :=
  if_neg h

theorem touch_ne_neg_one (press : Int32) : (if press > minPress then (1 : Int32) else 0) ≠ -1 := by
  split
  · decide
  · decide

theorem report_away (h : state.value .proximity = 0) : report minPress state = reportAway :=
  if_pos h

theorem report_tool (h : state.value .proximity ≠ 0) :
    report minPress state = reportTool minPress (state.value .positionX) (state.value .positionY)
      (state.value .pressure) :=
  if_neg h

/-- No event of a report is dropped. -/
theorem reportState_eq (hbounded : state.Bounded) :
    reportState minPress state = report minPress state := by
  by_cases h : state.value .proximity = 0
  · rw [reportState, if_pos h, report_away minPress h]
    rfl
  · have hx : Fits 16 (state.value .positionX) := hbounded .positionX
    have hy : Fits 16 (state.value .positionY) := hbounded .positionY
    have hpress : Fits 10 (state.value .pressure) := hbounded .pressure
    rw [reportState, if_neg h, report_tool minPress h,
      wacomReportEvent_eq (hx.ne_neg_one (by decide)),
      wacomReportEvent_eq (hy.ne_neg_one (by decide)),
      wacomReportEvent_eq (hpress.ne_neg_one (by decide)),
      wacomReportEvent_eq (touch_ne_neg_one minPress _)]
    rfl

theorem inRange_of_bounded (hbounded : state.Bounded) : InRange state where
  x := Fits.bounds (hbounded .positionX) (by decide)
  y := Fits.bounds (hbounded .positionY) (by decide)
  pressure := Fits.bounds (hbounded .pressure) (by decide)

/-- After a report the device shows what was reported, whatever it showed before. -/
theorem shows_report (state : WacomState) (axes : Axes) :
    Shows minPress state ((report minPress state).foldl Axes.set axes) := by
  by_cases h : state.value .proximity = 0
  · rw [report_away minPress h]
    constructor
    · rw [if_neg fun htool => htool.1 h]
      rfl
    · rw [if_neg (not_not_intro h)]
      rfl
    · exact fun htool => absurd h htool
  · rw [report_tool minPress h]
    constructor
    · rw [ite_cond_congr (propext (and_iff_right h))]
      rfl
    · rw [if_pos h]
      rfl
    · exact fun _ => ⟨rfl, rfl⟩

theorem report_congr {state' : WacomState} (hvalue : state'.value = state.value) :
    report minPress state' = report minPress state := by
  rw [report, report, hvalue]

theorem Shows.congr {state' : WacomState} {axes : Axes} (h : Shows minPress state axes)
    (hvalue : state'.value = state.value) : Shows minPress state' axes := by
  constructor
  · rw [hvalue]
    exact h.touch
  · rw [hvalue]
    exact h.pressure
  · rw [hvalue]
    exact h.position

/-- What is shown of the coordinates changes only with a tool near. -/
theorem report_stays (h : state.value .proximity = 0) (axes : Axes) :
    (report minPress state).foldl Axes.set axes evAbs absX = axes evAbs absX ∧
      (report minPress state).foldl Axes.set axes evAbs absY = axes evAbs absY := by
  rw [report_away minPress h]
  exact ⟨rfl, rfl⟩

end Report

namespace Daemon

variable {pModel : Option WacomModel} {line : Line} {t : SerialTablet} {d d' : Daemon}

/-- The value of a field of a copy. -/
theorem copy_value {state : WacomState} (h : SerialTablet.CopyOf t state) :
    state.value = t.state.value := by
  funext f
  rw [WacomState.value, h.values]
  rfl

theorem copy_bounded {state : WacomState} (h : SerialTablet.CopyOf t state)
    (hbounded : t.state.Bounded) : state.Bounded := by
  intro f
  rw [copy_value h]
  exact hbounded f

/-- A pass writes nothing and leaves the values of the tablet's state, or it writes the
report of the state that the tablet then has. -/
inductive PassReports (d d' : Daemon) : Prop where
  | leaves (written : d'.written = d.written)
      (values : d'.hTablet.state.value = d.hTablet.state.value)
  | reports (written : d'.written = d.written ++ report d.minPress d'.hTablet.state)

theorem PassReports.of_parsed (hparsed : Parsed d d') :
    PassReports d d' ∧ d'.minPress = d.minPress := by
  cases hparsed with
  | dropped nBitErrors => exact ⟨.leaves rfl rfl, rfl⟩
  | taken hTablet state hcount hbounded hcopy =>
      refine ⟨.reports ?_, rfl⟩
      rw [← report_congr d.minPress (copy_value hcopy),
        ← reportState_eq d.minPress (copy_bounded hcopy hbounded)]

theorem pass_reports (h : d.Sound) (input : PassInput) :
    (d.pass input).Sound ∧ PassReports d (d.pass input) ∧
      (d.pass input).minPress = d.minPress := by
  obtain ⟨hTablet, uchBuf, hvalues, hcases⟩ := d.pass_reads input
  have hsound := h.read hvalues uchBuf
  cases hcases with
  | inl hfailed =>
      rw [hfailed]
      exact ⟨hsound, .leaves rfl hvalues.value, rfl⟩
  | inr hreads =>
      obtain ⟨nLength, heq⟩ := hreads
      have hparsed := parseAndReport_parsed hsound nLength
      obtain ⟨hreports, hmin⟩ := PassReports.of_parsed hparsed
      rw [heq]
      refine ⟨hsound.parsed hparsed, ?_, hmin⟩
      cases hreports with
      | leaves hwritten hsame => exact .leaves hwritten (hsame.trans hvalues.value)
      | reports hwritten => exact .reports hwritten

/-- The states of the tablet after the passes, one after the other. -/
def states (d : Daemon) : List PassInput → List WacomState
  | [] => []
  | input :: inputs => (d.pass input).hTablet.state :: (d.pass input).states inputs

/-- From where the loop is entered on, what is written is the reports of some of the states
that the tablet has, in their order. -/
theorem Sound.written_reports (h : d.Sound) (inputs : List PassInput) :
    ∃ reported : List WacomState, reported.Sublist (d.states inputs) ∧
      (∀ state ∈ reported, InRange state) ∧
      (run pass d inputs).written = d.written ++ reported.flatMap (report d.minPress) := by
  induction inputs generalizing d with
  | nil => exact ⟨[], .slnil, List.forall_mem_nil _, (List.append_nil _).symm⟩
  | cons input inputs ih =>
      obtain ⟨hsound, hreports, hmin⟩ := pass_reports h input
      obtain ⟨reported, hsub, hrange, hwritten⟩ := ih hsound
      rw [run_cons, hwritten, hmin]
      cases hreports with
      | leaves hleft _ => exact ⟨reported, hsub.cons _, hrange, by rw [hleft]⟩
      | reports hnew =>
          refine ⟨(d.pass input).hTablet.state :: reported, hsub.cons_cons _, ?_, ?_⟩
          · exact List.forall_mem_cons.mpr ⟨inRange_of_bounded hsound.bounded, hrange⟩
          · rw [hnew, List.flatMap_cons, List.append_assoc]

/-- What is written is one whole report after the other, each of a state of the tablet with
coordinates and pressure in their ranges, in the order of these states, whatever is on the
line. -/
theorem run_reports (h : wacomOpenSerialTablet pModel line = some t) (uchBuf : Memory)
    (minPress : Int32) (inputs : List PassInput) :
    ∃ reported : List WacomState,
      reported.Sublist ((start t uchBuf minPress).states inputs) ∧
      (∀ state ∈ reported, InRange state) ∧
      (run pass (start t uchBuf minPress) inputs).written =
        reported.flatMap (report minPress) :=
  (start_sound h uchBuf minPress).written_reports inputs

/-- A pen comes in and is pressed on an Intuos. -/
def penInputs : List PassInput :=
  [⟨SerialTablet.intuosLine, [.data [0xC2, 0x41, 0x08, 0, 0, 0, 0, 0, 0]]⟩,
    ⟨SerialTablet.intuosLine, [.data [0xE0, 0x11, 0x22, 0x33, 0x44], .data [0x53, 0x7F, 0, 0]]⟩]

theorem run_reports_pen :
    (run pass (start SerialTablet.intuos (fun _ => 0) 20) penInputs).written.length = 10 ∧
      ∃ reported : List WacomState,
        reported.Sublist ((start SerialTablet.intuos (fun _ => 0) 20).states penInputs) ∧
          (∀ state ∈ reported, InRange state) ∧
          (run pass (start SerialTablet.intuos (fun _ => 0) 20) penInputs).written =
            reported.flatMap (report 20) :=
  ⟨by decide +kernel, run_reports SerialTablet.open_intuos (fun _ => 0) 20 penInputs⟩

/-- A pass after which the device shows the state of the tablet, and the coordinates from
before where no tool is near. -/
structure PassShows (d d' : Daemon) : Prop where
  reports : PassReports d d'
  shows : Shows d.minPress d'.hTablet.state (shown d'.written)
  stays : d'.hTablet.state.value .proximity = 0 →
    shown d'.written evAbs absX = shown d.written evAbs absX ∧
      shown d'.written evAbs absY = shown d.written evAbs absY

theorem PassReports.shows (h : PassReports d d')
    (hshows : Shows d.minPress d.hTablet.state (shown d.written)) : PassShows d d' := by
  cases h with
  | leaves hwritten hvalues =>
      refine ⟨.leaves hwritten hvalues, ?_, fun _ => by rw [hwritten]; exact ⟨rfl, rfl⟩⟩
      rw [hwritten]
      exact hshows.congr d.minPress hvalues
  | reports hwritten =>
      refine ⟨.reports hwritten, ?_, fun haway => ?_⟩
      · rw [hwritten, shown_append]
        exact shows_report d.minPress d'.hTablet.state _
      · rw [hwritten, shown_append]
        exact report_stays d.minPress haway _

/-- A tablet that was opened is shown by a device that was created. -/
theorem start_shows (h : wacomOpenSerialTablet pModel line = some t) (uchBuf : Memory)
    (minPress : Int32) :
    Shows minPress (start t uchBuf minPress).hTablet.state (shown []) := by
  have hzero : ∀ f, (start t uchBuf minPress).hTablet.state.value f = 0 :=
    fun f => SerialTablet.open_values h f
  constructor
  · rw [if_neg fun htool => htool.1 (hzero .proximity)]
    rfl
  · rw [if_neg (not_not_intro (hzero .proximity))]
    rfl
  · exact fun htool => absurd (hzero .proximity) htool

/-- What holds whenever the loop is entered: the device shows the state of the tablet. -/
structure Showing (d : Daemon) (minPress : Int32) : Prop where
  sound : d.Sound
  press : d.minPress = minPress
  shows : Shows minPress d.hTablet.state (shown d.written)

theorem pass_showing {minPress : Int32} (h : d.Showing minPress) (input : PassInput) :
    (d.pass input).Showing minPress ∧ PassShows d (d.pass input) := by
  obtain ⟨hsound, hreports, hkept⟩ := pass_reports h.sound input
  have hshows : PassShows d (d.pass input) := by
    apply hreports.shows
    rw [h.press]
    exact h.shows
  refine ⟨⟨hsound, hkept.trans h.press, ?_⟩, hshows⟩
  rw [← h.press]
  exact hshows.shows

/-- Every pass of a run reports the new state of the tablet or leaves its values, and the
virtual device shows that state after it. -/
theorem run_shows (h : wacomOpenSerialTablet pModel line = some t) (uchBuf : Memory)
    (minPress : Int32) (inputs : List PassInput) :
    Shows minPress (start t uchBuf minPress).hTablet.state (shown []) ∧
      AllSteps pass (fun d input => d.minPress = minPress ∧ PassShows d (d.pass input))
        (start t uchBuf minPress) inputs := by
  have hstart := start_shows h uchBuf minPress
  refine ⟨hstart, ?_⟩
  have hpass : ∀ (d : Daemon) (input : PassInput), d.Showing minPress → True →
      d.minPress = minPress ∧ PassShows d (d.pass input) :=
    fun d input hd _ => ⟨hd.press, (pass_showing hd input).2⟩
  have hkeeps : ∀ (d : Daemon) (input : PassInput), d.Showing minPress → True →
      (d.pass input).Showing minPress :=
    fun d input hd _ => (pass_showing hd input).1
  exact allSteps_of_invariant hpass hkeeps ⟨start_sound h uchBuf minPress, rfl, hstart⟩
    fun _ _ => trivial

theorem run_shows_pen :
    shown (run pass (start SerialTablet.intuos (fun _ => 0) 20) penInputs).written evKey btnTouch =
        1 ∧
      Shows 20 (start SerialTablet.intuos (fun _ => 0) 20).hTablet.state (shown []) ∧
      AllSteps pass (fun d input => d.minPress = 20 ∧ PassShows d (d.pass input))
        (start SerialTablet.intuos (fun _ => 0) 20) penInputs :=
  ⟨by decide +kernel, run_shows SerialTablet.open_intuos (fun _ => 0) 20 penInputs⟩

end Daemon

end AndroidX86Tv.Wacom
