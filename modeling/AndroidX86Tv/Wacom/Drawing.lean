import AndroidX86Tv.Wacom.Strokes

/-!
# The strokes of a pen, one after the other (wacom/wacserial.c, wacom/wacom-input.c)

Each packet of a stroke is well formed, the parser of its format takes it, and the main
loop reports what it says. So a tablet that was opened reports every stroke as it was drawn.
-/

namespace AndroidX86Tv.Wacom

open ByteMemory StreamFraming EventHistory

namespace PenFormat

section Form

variable {format : PenFormat}

theorem highBit_ofNat {a : Nat} (h : a < 128) :
    highBit (UInt8.ofNat (128 + a)) = true ∧ highBit (UInt8.ofNat a) = false := by
  have hall : ∀ a < 128, highBit (UInt8.ofNat (128 + a)) = true ∧
      highBit (UInt8.ofNat a) = false := by decide
  exact hall a h

theorem wellFormed_packetOf {first : Nat} {others : List Nat} (hfirst : first < 128)
    (hothers : ∀ b ∈ others, b < 128) : wellFormed highBit (packetOf first others) = true := by
  rw [packetOf, wellFormed, (highBit_ofNat hfirst).1, Bool.true_and, List.all_map, List.all_eq_true]
  intro b hb
  simp [(highBit_ofNat (hothers b hb)).2]

/-- A packet of the format on the line. -/
structure Fit (format : PenFormat) (packet : List UInt8) : Prop where
  length : packet.length = format.packetLength
  wellFormed : StreamFraming.wellFormed highBit packet = true

theorem fit_packetIV {x y bits last : Nat} {tilts : List Nat} (hx : x < 2 ^ 16) (hy : y < 2 ^ 16)
    (hbits : bits < 16) (hlast : last < 128) (htilts : ∀ b ∈ tilts, b < 128)
    (hlength : format.packetLength = 7 + tilts.length) :
    format.Fit (packetIV x y bits last tilts) := by
  constructor
  · rw [hlength, packetIV, packetOf]
    simp only [List.length_cons, List.length_map, List.length_append, List.length_nil]
    omega
  · apply wellFormed_packetOf (by omega)
    simp only [List.forall_mem_append, List.forall_mem_cons]
    exact ⟨⟨by omega, by omega, by omega, by omega, by omega, hlast, List.forall_mem_nil _⟩,
      htilts⟩

theorem bitsIV_lt (pressure : Nat) (stylus stylus2 : Bool) :
    bitsIV pressure stylus stylus2 < 16 := by
  have hstylus := stylus.toNat_le
  have hstylus2 := stylus2.toNat_le
  rw [bitsIV]
  omega

theorem lastIV_lt (pressure : Nat) : lastIV pressure < 128 := by
  rw [lastIV]
  split
  · omega
  · omega

theorem fit_packet (format : PenFormat) (s : Sample format.pressureBits) :
    format.Fit (format.packet s) := by
  have hx := s.x.isLt
  have hy := s.y.isLt
  have hpress := s.pressure.isLt
  have hstylus := s.stylus.toNat_le
  have hstylus2 := s.stylus2.toNat_le
  have htilts : ∀ b ∈ [s.tiltX.val, s.tiltY.val], b < 128 := by simp
  cases format with
  | wacomV =>
      refine ⟨rfl, wellFormed_packetOf (by omega) ?_⟩
      simp only [pressureBits] at hpress
      simp only [List.forall_mem_cons]
      exact ⟨by omega, by omega, by omega, by omega, by omega, by omega, s.tiltX.isLt,
        s.tiltY.isLt, List.forall_mem_nil _⟩
  | wacomIV =>
      exact fit_packetIV hx hy (bitsIV_lt _ _ _) (lastIV_lt _) (List.forall_mem_nil _) rfl
  | wacomIVTilt => exact fit_packetIV hx hy (bitsIV_lt _ _ _) (lastIV_lt _) htilts rfl
  | wacomIV7 =>
      refine fit_packetIV hx hy (by omega) ?_ (List.forall_mem_nil _) rfl
      split
      · omega
      · omega
  | tabletPC =>
      refine ⟨rfl, wellFormed_packetOf (by omega) ?_⟩
      simp only [pressureBits] at hpress
      simp only [List.forall_mem_cons]
      exact ⟨by omega, by omega, by omega, by omega, by omega, by omega, s.tiltX.isLt,
        s.tiltY.isLt, List.forall_mem_nil _⟩

theorem fit_inPacket (toolId : Fin (2 ^ 12)) (serial : Fin (2 ^ 32)) :
    wacomV.Fit (inPacket toolId serial) := by
  have htool := toolId.isLt
  have hserial := serial.isLt
  refine ⟨rfl, wellFormed_packetOf (by omega) ?_⟩
  simp only [List.forall_mem_cons]
  exact ⟨by omega, by omega, by omega, by omega, by omega, by omega, by omega, by omega,
    List.forall_mem_nil _⟩

theorem fit_outPacket (format : PenFormat) : format.Fit format.outPacket := by
  constructor
  · cases format <;> rfl
  · exact wellFormed_packetOf (by omega) fun b hb => by rw [List.eq_of_mem_replicate hb]; omega

theorem fit_packets (format : PenFormat) (stroke : Stroke format.pressureBits) :
    ∀ packet ∈ format.packets stroke, format.Fit packet := by
  simp only [packets, List.forall_mem_append, List.forall_mem_map, List.forall_mem_singleton]
  refine ⟨⟨?_, fun s _ => fit_packet format s⟩, fit_outPacket format⟩
  split
  · next hformat =>
      subst hformat
      exact List.forall_mem_singleton.mpr (fit_inPacket _ _)
  · exact List.forall_mem_nil _

end Form

end PenFormat

namespace SerialTablet

open PenFormat

/-- The parser takes the packet, and leaves a tablet of the kind. -/
def Leaves (parser : ParseFunc) (packet : List UInt8) (t : SerialTablet)
    (kind : SerialTablet → Prop) : Prop :=
  ∀ dest : WacomState, dest.uValueCnt = wacomFieldMax → ∃ t' copied,
    t.parse parser (ofBytes packet) packet.length (some dest) = (t', some copied, 0) ∧ kind t'

section Parse

variable {t t' : SerialTablet} {packet : List UInt8} {parser : ParseFunc}
  {kind : SerialTablet → Prop}

/-- A parser that reports the tablet. -/
theorem leaves_of_report (hcount : t'.state.uValueCnt = wacomFieldMax) (hkind : kind t')
    (hparse : ∀ pState, t.parse parser (ofBytes packet) packet.length pState = t'.report pState) :
    Leaves parser packet t kind := by
  intro dest hdest
  obtain ⟨copied, hreport, -⟩ := report_copies hcount hdest
  exact ⟨t', copied, (hparse _).trans hreport, hkind⟩

variable (hcount : t.state.uValueCnt = wacomFieldMax)

include hcount

/-- A parser that sets some values and reports the tablet. -/
theorem leaves_of_values {values : List (Field × Int32)} (hvalues : t' = t.setValues values)
    (hkind : kind t')
    (hparse : ∀ pState, t.parse parser (ofBytes packet) packet.length pState = t'.report pState) :
    Leaves parser packet t kind := by
  refine leaves_of_report ?_ hkind hparse
  rw [hvalues]
  exact (setValues_count _ _).trans hcount

theorem leaves_IV13 (hlength : packet.length = 7) (hkind : kind (t.packetIV13 (ofBytes packet))) :
    Leaves .serialParseWacomIV13 packet t kind := by
  obtain ⟨values, hvalues⟩ := packetIV13_setValues (ofBytes packet) t
  refine leaves_of_values hcount hvalues hkind fun pState => ?_
  rw [hlength, parse, serialParseWacomIV13, if_neg (not_not_intro rfl)]

theorem leaves_IV12 (hlength : packet.length = 7) (hkind : kind (t.packetIV12 (ofBytes packet))) :
    Leaves .serialParseWacomIV12 packet t kind := by
  obtain ⟨values, hvalues⟩ := packetIV12_setValues (ofBytes packet) t
  refine leaves_of_values hcount hvalues hkind fun pState => ?_
  rw [hlength, parse, serialParseWacomIV12, if_neg (not_not_intro rfl)]

theorem leaves_tabletPC (hlength : packet.length = 9)
    (hkind : kind (t.packetTabletPC (ofBytes packet))) :
    Leaves .serialParseTabletPC packet t kind := by
  obtain ⟨values, hvalues⟩ := packetTabletPC_setValues (ofBytes packet) t
  refine leaves_of_values hcount hvalues hkind fun pState => ?_
  rw [hlength, parse, serialParseTabletPC, if_neg (not_not_intro rfl)]

/-- The parser with the tilt is that without it, where the tilt does not matter. -/
theorem leaves_IV14 (hlength : packet.length = 7 ∨ packet.length = 9)
    (hkind : kind (t.packetIV13 (ofBytes packet)))
    (htilt : ∀ t', kind t' → kind { t' with state := setTiltValues (ofBytes packet) t'.state }) :
    Leaves .serialParseWacomIV14 packet t kind := by
  intro dest hdest
  obtain ⟨values, hvalues⟩ := packetIV13_setValues (ofBytes packet) t
  obtain ⟨copied, hreport, -⟩ := report_copies (t := t.packetIV13 (ofBytes packet))
    (by rw [hvalues]; exact (setValues_count _ _).trans hcount) hdest
  have hthirteen : serialParseWacomIV13 (ofBytes packet) t 7 (some dest) = _ := hreport
  rw [parse, serialParseWacomIV14]
  cases hlength with
  | inl hseven =>
      simp only [hthirteen, hseven]
      exact ⟨_, copied, rfl, hkind⟩
  | inr hnine =>
      simp only [hthirteen, hnine]
      exact ⟨_, _, rfl, htilt _ hkind⟩

end Parse

section Kinds

variable {t : SerialTablet} {x y pressure : Nat}

theorem Draws.tilt (d : Memory) (h : t.Draws x y pressure) :
    { t with state := setTiltValues d t.state }.Draws x y pressure := by
  constructor
  · simpa [setTiltValues, WacomState.setValues] using h.near
  · simpa [setTiltValues, WacomState.setValues] using h.x
  · simpa [setTiltValues, WacomState.setValues] using h.y
  · simpa [setTiltValues, WacomState.setValues] using h.pressure

theorem Blank.tilt (d : Memory) (h : t.Blank) :
    { t with state := setTiltValues d t.state }.Blank := by
  constructor
  · simpa [setTiltValues, WacomState.setValues] using h.away
  · simpa [setTiltValues, WacomState.setValues] using h.x
  · simpa [setTiltValues, WacomState.setValues] using h.y
  · simpa [setTiltValues, WacomState.setValues] using h.pressure

end Kinds

section Formats

variable {t : SerialTablet} {format : PenFormat} {parser : ParseFunc}
  (hcount : t.state.uValueCnt = wacomFieldMax)

include hcount

/-- The parser of the format reads a sample as it was packed. -/
theorem sample_leaves (hparses : format.Parses parser t.nVerMinor)
    (s : Sample format.pressureBits)
    (hnear : format = wacomV → t.state.value .proximity ≠ 0) :
    Leaves parser (format.packet s) t (Draws · s.x s.y s.pressure) := by
  have hx := s.x.isLt
  have hy := s.y.isLt
  have hpress := s.pressure.isLt
  have hlength := (fit_packet format s).length
  cases format with
  | wacomV =>
      obtain rfl : parser = .serialParseWacomV := hparses
      have hpen := isPen_packet s
      have hother : ¬ isIn (ofBytes (packet .wacomV s) 0) ∧
          ¬ isOut (ofBytes (packet .wacomV s) 0) :=
        (by decide : ∀ a b : Bool,
          ¬ isIn (UInt8.ofNat (128 + (32 + a.toNat * 2 + b.toNat * 4))) ∧
            ¬ isOut (UInt8.ofNat (128 + (32 + a.toNat * 2 + b.toNat * 4)))) s.stylus s.stylus2
      refine leaves_of_report ?_ (packetPen_draws s (hnear rfl)) fun pState => ?_
      · exact (setValues_count _ _).trans hcount
      · have hnine : (packet .wacomV s).length = 9 := hlength
        rw [hnine, parse, serialParseWacomV, if_neg (by decide), if_neg hother.1,
          if_neg hother.2, if_pos (Or.inl hpen)]
  | wacomIV =>
      have hdraws := packetIV13_draws (t := t) [] hx hy hpress s.stylus s.stylus2
      rcases hparses with rfl | rfl | ⟨rfl, hminor⟩
      · exact leaves_IV14 hcount (Or.inl hlength) hdraws fun _ h => h.tilt _
      · exact leaves_IV13 hcount hlength hdraws
      · refine leaves_IV12 hcount hlength (packetIV12_draws _ _ hx hy ?_)
        rw [pressure12, if_pos hminor]
        exact pressureIV_packet _ hpress hy _ _ _
  | wacomIVTilt =>
      obtain rfl : parser = .serialParseWacomIV14 := hparses
      exact leaves_IV14 hcount (Or.inr hlength) (packetIV13_draws _ hx hy hpress _ _)
        fun _ h => h.tilt _
  | wacomIV7 =>
      obtain ⟨rfl, hminor⟩ := hparses
      exact leaves_IV12 hcount hlength
        (packetIV12_draws _ _ hx hy (pressure12_packet _ hpress hminor))
  | tabletPC =>
      obtain rfl : parser = .serialParseTabletPC := hparses
      exact leaves_tabletPC hcount hlength (packetTabletPC_draws s)

/-- The first packet of a pen is reported as a position too. -/
theorem inPacket_leaves (hblank : t.Blank) (toolId : Fin (2 ^ 12)) (serial : Fin (2 ^ 32)) :
    Leaves .serialParseWacomV (inPacket toolId serial) t (Draws · 0 0 0) := by
  have hdraws : (t.packetIn (ofBytes (inPacket toolId serial))).Draws 0 0 0 := by
    constructor
    · simp [packetIn, setValues, WacomState.setValues]
    · simpa [packetIn, setValues, WacomState.setValues] using hblank.x
    · simpa [packetIn, setValues, WacomState.setValues] using hblank.y
    · simpa [packetIn, setValues, WacomState.setValues] using hblank.pressure
  have hin : isIn (ofBytes (inPacket toolId serial) 0) := by
    have hfirst : isIn (UInt8.ofNat (128 + 66)) := by decide
    exact hfirst
  refine leaves_of_report ?_ hdraws fun pState => ?_
  · exact (setValues_count _ _).trans hcount
  · have hnine : (inPacket toolId serial).length = 9 := rfl
    rw [hnine, parse, serialParseWacomV, if_neg (by decide), if_pos hin]

theorem packetOut_blank : t.packetOut.Blank := by
  constructor
  · exact t.state.value_clearValues .proximity hcount
  · exact t.state.value_clearValues .positionX hcount
  · exact t.state.value_clearValues .positionY hcount
  · exact t.state.value_clearValues .pressure hcount

/-- The last packet leaves nothing of a pen. -/
theorem outPacket_leaves {minor : Int32} (hparses : format.Parses parser minor) :
    Leaves parser format.outPacket t Blank := by
  have hlength := (fit_outPacket format).length
  have hfirst : ¬ (UInt8.ofNat (128 + 0) &&& 0x40 ≠ 0) := by decide
  have haway : ¬ (ofBytes format.outPacket 0 &&& 0x40 ≠ 0) := hfirst
  have hthirteen : (t.packetIV13 (ofBytes format.outPacket)).Blank := by
    rw [packetIV13, if_neg haway]
    exact setSix_blank _ _
  have htwelve : (t.packetIV12 (ofBytes format.outPacket)).Blank := by
    rw [packetIV12, if_neg haway]
    exact setSix_blank _ _
  cases format with
  | wacomV =>
      obtain rfl : parser = .serialParseWacomV := hparses
      have hout : isOut (ofBytes (outPacket .wacomV) 0) := by decide
      refine leaves_of_report ?_ (packetOut_blank hcount) fun pState => ?_
      · exact hcount
      · exact parse_out ⟨rfl, hlength, hout⟩
  | wacomIV =>
      rcases hparses with rfl | rfl | ⟨rfl, -⟩
      · exact leaves_IV14 hcount (Or.inl hlength) hthirteen fun _ h => h.tilt _
      · exact leaves_IV13 hcount hlength hthirteen
      · exact leaves_IV12 hcount hlength htwelve
  | wacomIVTilt =>
      obtain rfl : parser = .serialParseWacomIV14 := hparses
      exact leaves_IV14 hcount (Or.inr hlength) hthirteen fun _ h => h.tilt _
  | wacomIV7 =>
      obtain ⟨rfl, -⟩ := hparses
      exact leaves_IV12 hcount hlength htwelve
  | tabletPC =>
      obtain rfl : parser = .serialParseTabletPC := hparses
      exact leaves_tabletPC hcount hlength (setSix_blank _ _)

end Formats

variable {t : SerialTablet} {x y pressure : Nat}

theorem Draws.report (h : t.Draws x y pressure) (minPress : Int32) :
    Wacom.report minPress t.state = reportAt minPress x y pressure := by
  rw [report_tool minPress h.near, h.x, h.y, h.pressure, reportAt]

theorem Blank.report (h : t.Blank) (minPress : Int32) :
    Wacom.report minPress t.state = reportAway :=
  report_away minPress h.away

end SerialTablet

namespace Daemon

open PenFormat SerialTablet

variable {d : Daemon} {format : PenFormat} {minPress : Int32}

/-- What holds whenever the loop is entered, with a tablet that speaks the format. -/
structure Hears (d : Daemon) (format : PenFormat) (minPress : Int32) : Prop where
  sound : d.Sound
  speaks : format.Speaks d.hTablet
  press : d.minPress = minPress

theorem take_speaks (h : format.Speaks d.hTablet) (packet : List UInt8) :
    format.Speaks (d.take packet).hTablet := by
  obtain ⟨nToolID, state, hframe⟩ := take_frame d packet
  rw [hframe]
  exact ⟨h.length, h.parser⟩

/-- A packet that the parsers of the format take is reported. -/
theorem Hears.take (h : d.Hears format minPress) {packet : List UInt8}
    (hfit : format.Fit packet) {kind : SerialTablet → Prop}
    (hleaves : ∀ parser, format.Parses parser d.hTablet.nVerMinor →
      Leaves parser packet { d.hTablet with nBitErrors := 0 } kind) :
    (d.take packet).Hears format minPress ∧ kind (d.take packet).hTablet ∧
      (d.take packet).written =
        d.written ++ report minPress (d.take packet).hTablet.state := by
  have hne : packet ≠ [] := by
    rintro rfl
    cases hfit.wellFormed
  have hsync := (synchronised_iff hne).mpr hfit.wellFormed
  obtain ⟨parser, hparser, hparses⟩ := h.speaks.parser
  obtain ⟨t', copied, hparse, hkind⟩ := hleaves parser hparses d.state h.sound.dest
  have hcopies := parse_copies (t := { d.hTablet with nBitErrors := 0 }) h.sound.count h.sound.dest
    (congrArg (·.2.2) hparse)
  rw [hparse] at hcopies
  obtain ⟨copied', hsame, hcopy⟩ := hcopies
  obtain rfl : copied = copied' := Option.some.inj hsame
  have hparsed : d.hTablet.parsed ⟨ofBytes packet, packet.length, some d.state⟩ =
      (t', some copied, 0) := (parsed_synchronised hsync hparser).trans hparse
  rw [SerialTablet.parsed] at hparsed
  have htake : d.take packet =
      { d with
        hTablet := t'
        state := copied
        uchBuf := ofBytes packet
        written := d.written ++ reportState d.minPress copied } := by
    rw [Daemon.take, parseAndReport, hparsed]
    rfl
  have hread : { d with uchBuf := ofBytes packet }.Sound :=
    ⟨h.sound.count, h.sound.bounded, h.sound.dest⟩
  have hsound : (d.take packet).Sound :=
    hread.parsed (parseAndReport_parsed hread packet.length)
  have hspeaks := take_speaks h.speaks packet
  rw [htake] at hsound hspeaks ⊢
  refine ⟨⟨hsound, hspeaks, h.press⟩, hkind, ?_⟩
  simp only
  rw [h.press, reportState_eq minPress (copy_bounded hcopy hsound.bounded),
    report_congr minPress (copy_value hcopy)]

/-- What was written meanwhile. -/
structure Reported (format : PenFormat) (minPress : Int32) (d d' : Daemon)
    (events : List InputEvent) : Prop where
  hears : d'.Hears format minPress
  written : d'.written = d.written ++ events

theorem Reported.refl (h : d.Hears format minPress) : Reported format minPress d d [] :=
  ⟨h, (List.append_nil _).symm⟩

theorem Reported.trans {d' d'' : Daemon} {events events' : List InputEvent}
    (h : Reported format minPress d d' events) (h' : Reported format minPress d' d'' events') :
    Reported format minPress d d'' (events ++ events') := by
  refine ⟨h'.hears, ?_⟩
  rw [h'.written, h.written, List.append_assoc]

theorem take_sample (h : d.Hears format minPress) (s : Sample format.pressureBits)
    (hnear : format = wacomV → d.hTablet.state.value .proximity ≠ 0) :
    Reported format minPress d (d.take (format.packet s)) (reportAt minPress s.x s.y s.pressure) ∧
      (d.take (format.packet s)).hTablet.Draws s.x s.y s.pressure := by
  obtain ⟨hhears, hdraws, hwritten⟩ := h.take (fit_packet format s) fun parser hparses =>
    sample_leaves (t := { d.hTablet with nBitErrors := 0 }) h.sound.count hparses s hnear
  rw [hdraws.report] at hwritten
  exact ⟨⟨hhears, hwritten⟩, hdraws⟩

/-- The samples are reported one after the other. -/
theorem take_samples (h : d.Hears format minPress) (samples : List (Sample format.pressureBits))
    (hnear : format = wacomV → d.hTablet.state.value .proximity ≠ 0) :
    Reported format minPress d (run take d (samples.map format.packet))
      (samples.flatMap fun s => reportAt minPress s.x s.y s.pressure) := by
  induction samples generalizing d with
  | nil => exact .refl h
  | cons s samples ih =>
      obtain ⟨hreported, hdraws⟩ := take_sample h s hnear
      exact hreported.trans (ih hreported.hears fun _ => hdraws.near)

/-- A pen of protocol V is announced. -/
theorem take_announcement (h : d.Hears format minPress) (hblank : d.hTablet.Blank)
    (toolId : Fin (2 ^ 12)) (serial : Fin (2 ^ 32)) :
    Reported format minPress d
        (run take d (if format = wacomV then [inPacket toolId serial] else []))
        (if format = wacomV then reportAt minPress 0 0 0 else []) ∧
      (format = wacomV →
        (run take d (if format = wacomV then [inPacket toolId serial] else [])).hTablet.state.value
          .proximity ≠ 0) := by
  by_cases hformat : format = wacomV
  · subst hformat
    obtain ⟨hhears, hdraws, hwritten⟩ := h.take (fit_inPacket toolId serial)
      fun parser hparses => by
        obtain rfl : parser = .serialParseWacomV := hparses
        exact inPacket_leaves (t := { d.hTablet with nBitErrors := 0 }) h.sound.count
          ⟨hblank.away, hblank.x, hblank.y, hblank.pressure⟩ toolId serial
    rw [hdraws.report] at hwritten
    rw [if_pos rfl, if_pos rfl]
    exact ⟨⟨hhears, hwritten⟩, fun _ => hdraws.near⟩
  · rw [if_neg hformat, if_neg hformat]
    exact ⟨.refl h, fun hwacomV => absurd hwacomV hformat⟩

theorem take_leaving (h : d.Hears format minPress) :
    Reported format minPress d (d.take format.outPacket) reportAway ∧
      (d.take format.outPacket).hTablet.Blank := by
  obtain ⟨hhears, hblank, hwritten⟩ := h.take (fit_outPacket format) fun parser hparses =>
    outPacket_leaves (t := { d.hTablet with nBitErrors := 0 }) h.sound.count hparses
  rw [hblank.report] at hwritten
  exact ⟨⟨hhears, hwritten⟩, hblank⟩

theorem take_stroke (h : d.Hears format minPress) (hblank : d.hTablet.Blank)
    (stroke : Stroke format.pressureBits) :
    Reported format minPress d (run take d (format.packets stroke))
        (format.events minPress stroke) ∧
      (run take d (format.packets stroke)).hTablet.Blank := by
  obtain ⟨hannounced, hnear⟩ := take_announcement h hblank stroke.toolId stroke.serial
  have hdrawn := take_samples hannounced.hears stroke.samples hnear
  obtain ⟨hleft, hblank'⟩ := take_leaving hdrawn.hears
  rw [packets, events, run_append, run_append]
  exact ⟨(hannounced.trans hdrawn).trans hleft, hblank'⟩

/-- So are strokes one after the other. -/
theorem take_strokes (h : d.Hears format minPress) (hblank : d.hTablet.Blank)
    (strokes : List (Stroke format.pressureBits)) :
    Reported format minPress d (run take d (strokes.flatMap format.packets))
      (strokes.flatMap (format.events minPress)) := by
  induction strokes generalizing d with
  | nil => exact .refl h
  | cons stroke strokes ih =>
      obtain ⟨hreported, hblank'⟩ := take_stroke h hblank stroke
      rw [List.flatMap_cons, List.flatMap_cons, run_append]
      exact hreported.trans (ih hreported.hears hblank')

section Opened

variable {pModel : Option WacomModel} {line : Line} {t : SerialTablet} {port : List Turn}

theorem start_ready (h : wacomOpenSerialTablet pModel line = some t) (uchBuf : Memory)
    (minPress : Int32) : (start t uchBuf minPress).Ready := by
  have hlength := open_packetLength h
  have herrors := open_errors h
  have hsize : sizeofUchBuf = 64 := rfl
  have htablet : (start t uchBuf minPress).hTablet = t := rfl
  constructor
  · rw [htablet]
    omega
  · rw [htablet]
    omega
  · rw [htablet]
    omega

/-- A tablet that was opened, and that speaks the format, reports the strokes of a pen as
they were drawn, in whatever pieces their packets arrive. -/
theorem strokes_reported (h : wacomOpenSerialTablet pModel line = some t)
    {format : PenFormat} (hspeaks : format.Speaks t) (uchBuf : Memory) (minPress : Int32)
    (strokes : List (Stroke format.pressureBits))
    (hfeeds : Feeds port (strokes.flatMap format.packets).flatten) {lines : List Line}
    (hlong : (strokes.flatMap format.packets).flatten.length ≤ lines.length) :
    (run passOn (start t uchBuf minPress, port) lines).1.written =
      strokes.flatMap (format.events minPress) := by
  have hready := start_ready h uchBuf minPress
  have hblank : (start t uchBuf minPress).hTablet.Blank :=
    ⟨open_values h _, open_values h _, open_values h _, open_values h _⟩
  have hpackets : ∀ packet ∈ strokes.flatMap format.packets,
      packet.length = t.uPacketLength ∧ wellFormed highBit packet = true := by
    intro packet hpacket
    obtain ⟨stroke, -, hmem⟩ := List.mem_flatMap.mp hpacket
    have hfit := fit_packets format stroke packet hmem
    exact ⟨hfit.length.trans hspeaks.length.symm, hfit.wellFormed⟩
  have hclean : Clean (start t uchBuf minPress, port) :=
    ⟨hready, strokes.flatMap format.packets, hfeeds, hpackets⟩
  have hheard := take_strokes ⟨start_sound h uchBuf minPress, hspeaks, rfl⟩ hblank strokes
  have howes := (owes_packets hready hpackets hfeeds).run (hclean.errors lines)
  exact (howes.written.2 (Nat.sub_eq_zero_of_le hlong)).trans hheard.written

/-- A pen touches the corner of the tablet. -/
def penStroke : Stroke PenFormat.wacomV.pressureBits where
  toolId := 0x822
  serial := 1
  samples := [⟨4660, 13398, 511, 0, 0, false, false⟩]

/-- Its packets, the first of them in two pieces. -/
def strokePort : List Turn :=
  [.data (([penStroke].flatMap wacomV.packets).flatten.take 4),
    .data (([penStroke].flatMap wacomV.packets).flatten.drop 4)]

theorem strokes_reported_intuos :
    (run passOn (start intuos (fun _ => 0) 20, strokePort)
      (List.replicate 27 intuosLine)).1.written = [penStroke].flatMap (wacomV.events 20) := by
  have hspeaks : wacomV.Speaks intuos :=
    ⟨by decide +kernel, .serialParseWacomV, by decide +kernel, rfl⟩
  have hfeeds : Feeds strokePort ([penStroke].flatMap wacomV.packets).flatten := by
    rw [← List.take_append_drop 4 ([penStroke].flatMap wacomV.packets).flatten]
    refine .chunk (by decide) ?_
    rw [← List.append_nil (List.drop 4 _)]
    exact .chunk (by decide) .done
  exact strokes_reported open_intuos hspeaks (fun _ => 0) 20 [penStroke] hfeeds (by decide)

end Opened

end Daemon

end AndroidX86Tv.Wacom
