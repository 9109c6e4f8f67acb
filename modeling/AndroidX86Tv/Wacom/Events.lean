import AndroidX86Tv.Wacom.Reporting
import AndroidX86Tv.Wacom.View

/-!
# From the bytes on the line to the events (wacom/wacserial.c, wacom/wacom-input.c)

A parser reads no byte behind its packet, so that what the main loop writes depends on
the bytes of the stream and not on how they arrive.
-/

namespace AndroidX86Tv.Wacom

open ByteMemory StreamFraming EventHistory

namespace SerialTablet

section Congruence

variable {d d' : Memory} {uLength : Nat}

theorem serialParseWacomV_congr (h : ∀ k < 9, d k = d' k) (t : SerialTablet)
    (pState : Option WacomState) :
    serialParseWacomV d t 9 pState = serialParseWacomV d' t 9 pState := by
  have h0 := h 0 (by decide)
  have h1 := h 1 (by decide)
  have h2 := h 2 (by decide)
  have h3 := h 3 (by decide)
  have h4 := h 4 (by decide)
  have h5 := h 5 (by decide)
  have h6 := h 6 (by decide)
  have h7 := h 7 (by decide)
  have h8 := h 8 (by decide)
  have htool : toolId d = toolId d' := by rw [toolId, toolId, h1, h2]
  have hserial : serialNumber d = serialNumber d' := by
    rw [serialNumber, serialNumber, h2, h3, h4, h5, h6, h7]
  have hx : positionX d = positionX d' := by rw [positionX, positionX, h1, h2, h3]
  have hy : positionY d = positionY d' := by rw [positionY, positionY, h3, h4, h5]
  have hten : tenBits d = tenBits d' := by rw [tenBits, tenBits, h5, h6]
  have hbuttons : penButtons d = penButtons d' := by rw [penButtons, penButtons, h0, hten]
  have hrotation : rotation d = rotation d' := by rw [rotation, rotation, h6, h7]
  have hin : packetIn d t = packetIn d' t := by rw [packetIn, packetIn, htool, hserial]
  have hpen : packetPen d t = packetPen d' t := by
    rw [packetPen, packetPen, h0, h7, h8, hx, hy, hten, hbuttons]
  have hmouse : packetMouse d t = packetMouse d' t := by
    rw [packetMouse, packetMouse, mouseWheel, mouseWheel, mouseThrottle, mouseThrottle,
      mouseButton, mouseButton, h8, hx, hy, hten]
  have hmouse2 : packetMouse2 d t = packetMouse2 d' t := by
    rw [packetMouse2, packetMouse2, hx, hy, hrotation]
  rw [serialParseWacomV, serialParseWacomV, h0, hin, hpen, hmouse, hmouse2]

theorem serialParseWacomIV13_congr (h : ∀ k < 7, d k = d' k) (t : SerialTablet) (uLength : Nat)
    (pState : Option WacomState) :
    serialParseWacomIV13 d t uLength pState = serialParseWacomIV13 d' t uLength pState := by
  have h0 := h 0 (by decide)
  have h1 := h 1 (by decide)
  have h2 := h 2 (by decide)
  have h3 := h 3 (by decide)
  have h4 := h 4 (by decide)
  have h5 := h 5 (by decide)
  have h6 := h 6 (by decide)
  have hx : positionXIV d = positionXIV d' := by rw [positionXIV, positionXIV, h0, h1, h2]
  have hy : positionYIV d = positionYIV d' := by rw [positionYIV, positionYIV, h3, h4, h5]
  have hpress : pressureIV d = pressureIV d' := by rw [pressureIV, pressureIV, h3, h6]
  have hbuttons : stylusButtons13 d = stylusButtons13 d' := by
    funext tool
    rw [stylusButtons13, stylusButtons13, h3, hpress]
  have hpacket : packetIV13 d t = packetIV13 d' t := by
    rw [packetIV13, packetIV13, mouseButtonIV, mouseButtonIV, h0, h3, hx, hy, hpress, hbuttons]
  rw [serialParseWacomIV13, serialParseWacomIV13, hpacket]

theorem serialParseWacomIV12_congr (h : ∀ k < 7, d k = d' k) (t : SerialTablet) (uLength : Nat)
    (pState : Option WacomState) :
    serialParseWacomIV12 d t uLength pState = serialParseWacomIV12 d' t uLength pState := by
  have h0 := h 0 (by decide)
  have h1 := h 1 (by decide)
  have h2 := h 2 (by decide)
  have h3 := h 3 (by decide)
  have h4 := h 4 (by decide)
  have h5 := h 5 (by decide)
  have h6 := h 6 (by decide)
  have hx : positionXIV d = positionXIV d' := by rw [positionXIV, positionXIV, h0, h1, h2]
  have hy : positionYIV d = positionYIV d' := by rw [positionYIV, positionYIV, h3, h4, h5]
  have hpress : pressure12 d = pressure12 d' := by
    funext nVerMinor
    rw [pressure12, pressure12, pressureIV, pressureIV, h3, h6]
  have hpacket : packetIV12 d t = packetIV12 d' t := by
    rw [packetIV12, packetIV12, mouseButtonIV, mouseButtonIV, h0, h3, hx, hy, hpress]
  rw [serialParseWacomIV12, serialParseWacomIV12, hpacket]

theorem serialParseTabletPC_congr (h : ∀ k < 9, d k = d' k) (t : SerialTablet) (uLength : Nat)
    (pState : Option WacomState) :
    serialParseTabletPC d t uLength pState = serialParseTabletPC d' t uLength pState := by
  have h0 := h 0 (by decide)
  have h1 := h 1 (by decide)
  have h2 := h 2 (by decide)
  have h3 := h 3 (by decide)
  have h4 := h 4 (by decide)
  have h5 := h 5 (by decide)
  have h6 := h 6 (by decide)
  have hpacket : packetTabletPC d t = packetTabletPC d' t := by
    rw [packetTabletPC, packetTabletPC, h0, h1, h2, h3, h4, h5, h6]
  rw [serialParseTabletPC, serialParseTabletPC, hpacket]

/-- A parser reads no byte behind its packet. -/
theorem parse_congr (h : ∀ k < uLength, d k = d' k) (t : SerialTablet) (parser : ParseFunc)
    (pState : Option WacomState) :
    t.parse parser d uLength pState = t.parse parser d' uLength pState := by
  cases parser with
  | serialParseWacomV =>
      by_cases hlength : uLength = 9
      · subst hlength
        exact serialParseWacomV_congr h t pState
      · simp only [parse, serialParseWacomV, ne_eq, hlength, not_false_eq_true, if_true]
  | serialParseWacomIV14 =>
      by_cases hlength : uLength ≠ 7 ∧ uLength ≠ 9
      · simp only [parse, serialParseWacomIV14, if_pos hlength]
      · have hseven : ∀ k < 7, d k = d' k := fun k hk => h k (by omega)
        have htilt : uLength = 9 → setTiltValues d = setTiltValues d' := by
          intro hnine
          funext state
          rw [setTiltValues, setTiltValues, h 7 (by omega), h 8 (by omega)]
        simp only [parse, serialParseWacomIV14, if_neg hlength,
          serialParseWacomIV13_congr hseven t 7 pState]
        by_cases hnine : uLength = 9
        · rw [htilt hnine]
        · simp only [if_neg hnine]
  | serialParseWacomIV13 =>
      by_cases hlength : uLength = 7
      · subst hlength
        exact serialParseWacomIV13_congr h t 7 pState
      · simp only [parse, serialParseWacomIV13, ne_eq, hlength, not_false_eq_true, if_true]
  | serialParseWacomIV12 =>
      by_cases hlength : uLength = 7
      · subst hlength
        exact serialParseWacomIV12_congr h t 7 pState
      · simp only [parse, serialParseWacomIV12, ne_eq, hlength, not_false_eq_true, if_true]
  | serialParseTabletPC =>
      by_cases hlength : uLength = 9
      · subst hlength
        exact serialParseTabletPC_congr h t 9 pState
      · simp only [parse, serialParseTabletPC, ne_eq, hlength, not_false_eq_true, if_true]

/-- Nor does the check of the packet. -/
theorem serialParseData_congr (hpos : 0 < uLength) (h : ∀ k < uLength, d k = d' k)
    (t : SerialTablet) (pState : Option WacomState) :
    t.serialParseData d uLength pState = t.serialParseData d' uLength pState := by
  have hothers : bytesAt d 1 (uLength - 1) = bytesAt d' 1 (uLength - 1) := by
    apply List.map_congr_left
    intro k hk
    rw [List.mem_range] at hk
    exact h (1 + k) (by omega)
  have hsync : Synchronised d uLength ↔ Synchronised d' uLength := by
    rw [Synchronised, Synchronised, h 0 hpos, hothers]
  by_cases hd : Synchronised d uLength
  · rw [serialParseData, serialParseData, if_neg (not_not_intro hd),
      if_neg (not_not_intro (hsync.mp hd))]
    simp only [parse_congr h]
  · rw [serialParseData, serialParseData, if_pos hd, if_pos fun hd' => hd (hsync.mpr hd')]

/-- The packets that pass the check are the well-formed ones. -/
theorem synchronised_iff {packet : List UInt8} (hne : packet ≠ []) :
    Synchronised (ofBytes packet) packet.length ↔ wellFormed highBit packet = true := by
  cases packet with
  | nil => exact absurd rfl hne
  | cons a rest =>
      have hholds := holds_ofBytes (a :: rest)
      have hothers := hholds.2.bytesAt_eq
      rw [Nat.zero_add] at hothers
      rw [Synchronised, hholds.1, List.length_cons, Nat.add_sub_cancel, hothers, wellFormed]
      simp

end Congruence

end SerialTablet

namespace Daemon

/-- What the daemon does with a packet in its buffer. -/
def take (d : Daemon) (packet : List UInt8) : Daemon :=
  { d with uchBuf := ofBytes packet }.parseAndReport packet.length

/-- What a pass leaves on the line. -/
def unread (d : Daemon) (input : PassInput) : List Turn :=
  if sizeofUchBuf < d.hTablet.uPacketLength then input.port
  else
    (fill d.hTablet.uPacketLength d.uchBuf (d.hTablet.resetIfErrors input.line).nBitErrors 0
      input.port).port

/-- A pass over the line. -/
def passOn (s : Daemon × List Turn) (line : Line) : Daemon × List Turn :=
  (s.1.pass ⟨line, s.2⟩, s.1.unread ⟨line, s.2⟩)

/-- Bytes that were dropped, and what else is in the buffer. -/
def junk (d : Daemon) (nBitErrors : Nat) (uchBuf : Memory) : Daemon :=
  { d with hTablet := { d.hTablet with nBitErrors := nBitErrors }, uchBuf := uchBuf }

section Take

variable {d : Daemon} {packet : List UInt8}

theorem parseAndReport_holds (h : Holds d.uchBuf 0 packet) (hne : packet ≠ []) :
    d.parseAndReport packet.length = { d.take packet with uchBuf := d.uchBuf } := by
  have hsame : ∀ k < packet.length, d.uchBuf k = ofBytes packet k := by
    intro k hk
    have hk' := h.eq_ofBytes hk
    rwa [Nat.zero_add] at hk'
  have hcall := SerialTablet.serialParseData_congr (List.length_pos_of_ne_nil hne) hsame d.hTablet
    (some d.state)
  rw [take, parseAndReport, parseAndReport, hcall]
  rcases d.hTablet.serialParseData (ofBytes packet) packet.length (some d.state) with
    ⟨hTablet, state, failed⟩
  simp only
  split
  · rfl
  · rfl

theorem take_garbled (hne : packet ≠ []) (hwell : wellFormed highBit packet = false) :
    d.take packet = d.junk (d.hTablet.nBitErrors + 1) (ofBytes packet) := by
  have hsync : ¬ SerialTablet.Synchronised (ofBytes packet) packet.length := by
    rw [SerialTablet.synchronised_iff hne, hwell]
    exact Bool.false_ne_true
  rw [take, parseAndReport, SerialTablet.serialParseData, if_pos hsync]
  rfl

/-- A well-formed packet is taken without regard to what came before it. -/
theorem take_junk (hwell : wellFormed highBit packet = true) (nBitErrors : Nat)
    (uchBuf : Memory) : (d.junk nBitErrors uchBuf).take packet = d.take packet := by
  have hne : packet ≠ [] := by
    rintro rfl
    cases hwell
  have hsync := (SerialTablet.synchronised_iff hne).mpr hwell
  rw [take, take, parseAndReport, parseAndReport, SerialTablet.serialParseData,
    SerialTablet.serialParseData, if_neg (not_not_intro hsync), if_neg (not_not_intro hsync)]
  rfl

/-- What a packet changes in the handle. -/
theorem take_frame (d : Daemon) (packet : List UInt8) : ∃ nToolID state,
    (d.take packet).hTablet =
      { d.hTablet with
        nToolID := nToolID
        state := state
        nBitErrors :=
          if SerialTablet.Synchronised (ofBytes packet) packet.length then 0
          else d.hTablet.nBitErrors + 1 } := by
  obtain ⟨nToolID, state, hframe⟩ :=
    d.hTablet.serialParseData_frame (ofBytes packet) packet.length (some d.state)
  refine ⟨nToolID, state, ?_⟩
  rw [take, parseAndReport]
  rcases hresult : d.hTablet.serialParseData (ofBytes packet) packet.length (some d.state) with
    ⟨hTablet, state', failed⟩
  rw [hresult] at hframe
  simp only at hframe ⊢
  rw [← hframe]
  split
  · rfl
  · rfl

theorem take_packetLength (d : Daemon) (packet : List UInt8) :
    (d.take packet).hTablet.uPacketLength = d.hTablet.uPacketLength := by
  obtain ⟨nToolID, state, hframe⟩ := take_frame d packet
  rw [hframe]

/-- Nor does what is written for well-formed packets depend on that. -/
theorem run_take_junk {packets : List (List UInt8)}
    (hpackets : ∀ packet ∈ packets, wellFormed highBit packet = true) (nBitErrors : Nat)
    (uchBuf : Memory) :
    (run take (d.junk nBitErrors uchBuf) packets).written = (run take d packets).written := by
  cases packets with
  | nil => rfl
  | cons packet packets =>
      rw [run_cons, run_cons, take_junk (hpackets packet List.mem_cons_self)]

end Take

/-- What a pass makes of the stream on the line: a packet is taken, bytes are dropped, or
the stream ends. -/
inductive Consumes (d : Daemon) (stream : List UInt8) : Daemon → List UInt8 → Prop where
  | packet (uchBuf : Memory)
      (hlong : d.hTablet.uPacketLength ≤ (seek highBit stream).length)
      (hwell : wellFormed highBit ((seek highBit stream).take d.hTablet.uPacketLength) = true) :
      Consumes d stream
        { d.take ((seek highBit stream).take d.hTablet.uPacketLength) with uchBuf := uchBuf }
        ((seek highBit stream).drop d.hTablet.uPacketLength)
  | garbled (nBitErrors : Nat) (uchBuf : Memory)
      (hlong : d.hTablet.uPacketLength ≤ (seek highBit stream).length)
      (hwell : wellFormed highBit ((seek highBit stream).take d.hTablet.uPacketLength) = false) :
      Consumes d stream (d.junk nBitErrors uchBuf)
        ((seek highBit stream).drop d.hTablet.uPacketLength)
  | short (nBitErrors : Nat) (uchBuf : Memory)
      (hshort : (seek highBit stream).length < d.hTablet.uPacketLength) :
      Consumes d stream (d.junk nBitErrors uchBuf) []

/-- The packets of a daemon fit into its buffer, and no reset is due. -/
structure Ready (d : Daemon) : Prop where
  positive : 0 < d.hTablet.uPacketLength
  fits : d.hTablet.uPacketLength ≤ sizeofUchBuf
  errors : d.hTablet.nBitErrors ≤ 3

variable {d : Daemon} {port : List Turn} {stream : List UInt8}

theorem pass_consumes (h : d.Ready) (hfeeds : Feeds port stream) (line : Line) :
    ∃ rest, Feeds (d.unread ⟨line, port⟩) rest ∧
      Consumes d stream (d.pass ⟨line, port⟩) rest := by
  have hkept : d.hTablet.resetIfErrors line = d.hTablet := by
    have herrors := h.errors
    exact if_neg (by omega)
  have hsmall : ¬ sizeofUchBuf < d.hTablet.uPacketLength := Nat.not_lt.mpr h.fits
  have hfills := fill_fills h.positive hfeeds (holds_nil d.uchBuf 0) rfl (Nat.zero_le _)
    d.hTablet.nBitErrors
  rw [List.nil_append, List.length_nil] at hfills
  rw [unread, pass, SerialTablet.serialReadRaw, if_neg hsmall, if_neg hsmall]
  simp only [hkept]
  generalize fill d.hTablet.uPacketLength d.uchBuf d.hTablet.nBitErrors 0 port = filled
    at hfills ⊢
  by_cases hlong : d.hTablet.uPacketLength ≤ (seek highBit stream).length
  · obtain ⟨hreturned, hholds, hrest⟩ := hfills.whole hlong
    have hlength := List.length_take_of_le hlong
    have hne : (seek highBit stream).take d.hTablet.uPacketLength ≠ [] := by
      apply List.ne_nil_of_length_pos
      rw [hlength]
      exact h.positive
    refine ⟨_, hrest, ?_⟩
    rw [hreturned, if_neg (by omega), Int.toNat_natCast]
    have hparse := parseAndReport_holds (d := d.junk filled.nBitErrors filled.puchData) hholds hne
    rw [hlength] at hparse
    have hjunk : ({ d with
        hTablet := { d.hTablet with nBitErrors := filled.nBitErrors }
        uchBuf := filled.puchData } : Daemon) = d.junk filled.nBitErrors filled.puchData := rfl
    rw [hjunk, hparse]
    by_cases hwell : wellFormed highBit ((seek highBit stream).take d.hTablet.uPacketLength) = true
    · rw [take_junk hwell]
      exact .packet filled.puchData hlong hwell
    · rw [take_garbled hne (by simpa using hwell)]
      exact .garbled (filled.nBitErrors + 1) filled.puchData hlong (by simpa using hwell)
  · obtain ⟨hreturned, hport⟩ := hfills.short (by omega)
    rw [hreturned, if_pos (by decide), hport]
    exact ⟨[], .done, .short filled.nBitErrors filled.puchData (by omega)⟩

section Owed

/-- The events that are written once the stream on the line has been read. -/
structure Owes (events : List InputEvent) (left : Nat) (s : Daemon × List Turn) : Prop where
  positive : 0 < s.1.hTablet.uPacketLength
  fits : s.1.hTablet.uPacketLength ≤ sizeofUchBuf
  stream : ∃ stream, Feeds s.2 stream ∧ stream.length ≤ left ∧
    (run take s.1 (deframe highBit s.1.hTablet.uPacketLength stream)).written = events

theorem deframe_wellFormed (n : Nat) (stream : List UInt8) :
    ∀ packet ∈ deframe highBit n stream, wellFormed highBit packet = true :=
  fun _ hpacket => (wellFormed_of_mem_deframe hpacket).2

/-- A pass takes the next packet, or drops bytes that hold none. -/
theorem Owes.passOn {events : List InputEvent} {left : Nat} {s : Daemon × List Turn}
    (h : Owes events left s) (herrors : s.1.hTablet.nBitErrors ≤ 3) (line : Line) :
    Owes events (left - 1) (passOn s line) := by
  obtain ⟨d, port⟩ := s
  have hpos : 0 < d.hTablet.uPacketLength := h.positive
  have hfits : d.hTablet.uPacketLength ≤ sizeofUchBuf := h.fits
  obtain ⟨stream, hfeeds, hleft, howed⟩ := h.stream
  obtain ⟨rest, hrest, hconsumes⟩ := pass_consumes ⟨hpos, hfits, herrors⟩ hfeeds line
  have hseek := (seek_sublist highBit stream).length_le
  have hless : ((seek highBit stream).drop d.hTablet.uPacketLength).length ≤ stream.length - 1 := by
    rw [List.length_drop]
    omega
  rw [Daemon.passOn]
  generalize d.pass ⟨line, port⟩ = d', d.unread ⟨line, port⟩ = port' at hrest hconsumes ⊢
  cases hconsumes with
  | packet uchBuf hlong hwell =>
      have hlength := take_packetLength d ((seek highBit stream).take d.hTablet.uPacketLength)
      have hframes := deframe_of_le hpos hlong
      rw [List.filter_cons_of_pos hwell, List.filter_nil, List.singleton_append] at hframes
      rw [hframes, run_cons] at howed
      refine ⟨hlength.symm ▸ hpos, hlength.symm ▸ hfits, _, hrest, by omega, ?_⟩
      have hwritten := run_take_junk
        (d := d.take ((seek highBit stream).take d.hTablet.uPacketLength))
        (deframe_wellFormed d.hTablet.uPacketLength
          ((seek highBit stream).drop d.hTablet.uPacketLength))
        (d.take ((seek highBit stream).take d.hTablet.uPacketLength)).hTablet.nBitErrors uchBuf
      simp only [hlength]
      exact hwritten.trans howed
  | garbled nBitErrors uchBuf hlong hwell =>
      have hframes := deframe_of_le hpos hlong
      rw [List.filter_cons_of_neg (by rw [hwell]; exact Bool.false_ne_true), List.filter_nil,
        List.nil_append] at hframes
      rw [hframes] at howed
      refine ⟨hpos, hfits, _, hrest, by omega, ?_⟩
      exact (run_take_junk (deframe_wellFormed _ _) nBitErrors uchBuf).trans howed
  | short nBitErrors uchBuf hshort =>
      rw [deframe_of_lt hshort] at howed
      refine ⟨hpos, hfits, [], hrest, Nat.zero_le _, ?_⟩
      have hnone : deframe highBit (d.junk nBitErrors uchBuf).hTablet.uPacketLength [] = [] :=
        deframe_of_lt (by rw [seek_nil]; exact hpos)
      rw [hnone]
      exact howed

/-- So do passes one after the other. -/
theorem Owes.run {events : List InputEvent} {left : Nat} {s : Daemon × List Turn}
    (h : Owes events left s) {lines : List Line}
    (herrors : AllSteps Daemon.passOn (fun s _ => s.1.hTablet.nBitErrors ≤ 3) s lines) :
    Owes events (left - lines.length) (EventHistory.run Daemon.passOn s lines) := by
  induction lines generalizing s left with
  | nil => exact h
  | cons line lines ih =>
      have hrest := ih (h.passOn herrors.1 line) herrors.2
      rwa [Nat.sub_sub, Nat.add_comm 1] at hrest

theorem take_written (d : Daemon) (packet : List UInt8) :
    d.written <+: (d.take packet).written := by
  rw [take, parseAndReport]
  simp only
  split
  · exact List.prefix_refl _
  · exact List.prefix_append _ _

theorem run_take_written (d : Daemon) (packets : List (List UInt8)) :
    d.written <+: (run take d packets).written := by
  induction packets generalizing d with
  | nil => exact List.prefix_refl _
  | cons packet packets ih => exact (take_written d packet).trans (ih (d.take packet))

theorem Owes.written {events : List InputEvent} {left : Nat} {s : Daemon × List Turn}
    (h : Owes events left s) : s.1.written <+: events ∧ (left = 0 → s.1.written = events) := by
  obtain ⟨stream, -, hleft, rfl⟩ := h.stream
  refine ⟨run_take_written _ _, ?_⟩
  rintro rfl
  have hnil : stream = [] := List.length_eq_zero_iff.mp (Nat.le_zero.mp hleft)
  rw [hnil, deframe_of_lt (by rw [seek_nil]; exact h.positive)]
  rfl

end Owed

section Streams

/-- What is written depends on the bytes of the stream and not on how they arrive, as long
as no reset is due. -/
theorem passes_follow_stream (hpos : 0 < d.hTablet.uPacketLength)
    (hfits : d.hTablet.uPacketLength ≤ sizeofUchBuf) (hfeeds : Feeds port stream)
    {lines : List Line}
    (herrors : AllSteps passOn (fun s _ => s.1.hTablet.nBitErrors ≤ 3) (d, port) lines) :
    (run passOn (d, port) lines).1.written <+:
        (run take d (deframe highBit d.hTablet.uPacketLength stream)).written ∧
      (stream.length ≤ lines.length →
        (run passOn (d, port) lines).1.written =
          (run take d (deframe highBit d.hTablet.uPacketLength stream)).written) := by
  have howes : Owes (run take d (deframe highBit d.hTablet.uPacketLength stream)).written
      stream.length (d, port) := ⟨hpos, hfits, stream, hfeeds, le_rfl, rfl⟩
  have hwritten := (howes.run herrors).written
  exact ⟨hwritten.1, fun hlong => hwritten.2 (Nat.sub_eq_zero_of_le hlong)⟩

/-- The packets of a pen on an Intuos, in pieces. -/
def penPort : List Turn :=
  [.data [0xC2, 0x41], .data [0x08, 0, 0, 0, 0, 0, 0, 0xE0, 0x11, 0x22],
    .data [0x33, 0x44, 0x53, 0x7F, 0, 0]]

def penPackets : List (List UInt8) :=
  [[0xC2, 0x41, 0x08, 0, 0, 0, 0, 0, 0], [0xE0, 0x11, 0x22, 0x33, 0x44, 0x53, 0x7F, 0, 0]]

def penDaemon : Daemon := start SerialTablet.intuos (fun _ => 0) 20

theorem feeds_penPort : Feeds penPort penPackets.flatten :=
  .chunk (by decide) (.chunk (by decide) (.chunk (by decide) .done))

/-- Two bytes of junk before them. -/
def lateLine : Daemon × List Turn := (penDaemon, .data [1, 2] :: penPort)

theorem passes_follow_pen :
    (run passOn lateLine (List.replicate 20 SerialTablet.intuosLine)).1.written =
      (run take penDaemon
        (deframe highBit penDaemon.hTablet.uPacketLength ([1, 2] ++ penPackets.flatten))).written :=
  (passes_follow_stream (by decide +kernel) (by decide +kernel)
    (.chunk (by decide) feeds_penPort) (by decide +kernel)).2 (by decide +kernel)

/-- Nothing but packets is on the line, and no reset is due. -/
structure Clean (s : Daemon × List Turn) : Prop where
  ready : s.1.Ready
  packets : ∃ packets : List (List UInt8), Feeds s.2 packets.flatten ∧
    ∀ packet ∈ packets,
      packet.length = s.1.hTablet.uPacketLength ∧ wellFormed highBit packet = true

theorem take_errors {packet : List UInt8} (hwell : wellFormed highBit packet = true) :
    (d.take packet).hTablet.nBitErrors = 0 := by
  have hne : packet ≠ [] := by
    rintro rfl
    cases hwell
  obtain ⟨nToolID, state, hframe⟩ := take_frame d packet
  rw [hframe]
  exact if_pos ((SerialTablet.synchronised_iff hne).mpr hwell)

theorem feeds_nil (h : Feeds port []) : port = [] := by
  generalize hstream : ([] : List UInt8) = stream at h
  cases h with
  | done => rfl
  | chunk hbytes _ => exact absurd (List.append_eq_nil_iff.mp hstream.symm).1 hbytes

/-- With nothing left on the line a pass changes nothing. -/
theorem pass_nil (h : d.Ready) (line : Line) : passOn (d, []) line = (d, []) := by
  have hkept : d.hTablet.resetIfErrors line = d.hTablet := by
    have herrors := h.errors
    exact if_neg (by omega)
  have hsmall : ¬ sizeofUchBuf < d.hTablet.uPacketLength := Nat.not_lt.mpr h.fits
  have hfill : fill d.hTablet.uPacketLength d.uchBuf d.hTablet.nBitErrors 0 [] =
      ⟨-1, d.uchBuf, d.hTablet.nBitErrors, []⟩ := by
    rw [fill, if_pos h.positive]
  rw [passOn, pass, unread, SerialTablet.serialReadRaw, if_neg hsmall, if_neg hsmall]
  simp only [hkept, hfill]
  rfl

theorem Clean.passOn {s : Daemon × List Turn} (h : Clean s) (line : Line) :
    Clean (passOn s line) := by
  obtain ⟨d, port⟩ := s
  have hready : d.Ready := h.ready
  obtain ⟨packets, hfeeds, hpackets⟩ := h.packets
  simp only at hfeeds hpackets
  cases packets with
  | nil =>
      rw [feeds_nil hfeeds, pass_nil hready]
      exact ⟨hready, [], .done, List.forall_mem_nil _⟩
  | cons packet packets =>
      obtain ⟨hlength, hwell⟩ := hpackets packet List.mem_cons_self
      have hothers := fun p hp => hpackets p (List.mem_cons_of_mem packet hp)
      obtain ⟨rest, hrest, hconsumes⟩ := pass_consumes hready hfeeds line
      have hseek : seek highBit (packet :: packets).flatten = packet ++ packets.flatten := by
        cases packet with
        | nil => cases hwell
        | cons a tail =>
            simp only [wellFormed, Bool.and_eq_true] at hwell
            exact seek_cons hwell.1 _
      rw [Daemon.passOn]
      generalize d.pass ⟨line, port⟩ = d', d.unread ⟨line, port⟩ = port' at hrest hconsumes ⊢
      cases hconsumes with
      | packet uchBuf hlong hwell' =>
          rw [hseek, List.drop_left' hlength] at hrest
          rw [hseek, List.take_left' hlength]
          have hkept := take_packetLength d packet
          constructor
          · exact ⟨hkept.symm ▸ hready.positive, hkept.symm ▸ hready.fits,
              (take_errors (d := d) hwell).symm ▸ Nat.zero_le 3⟩
          · refine ⟨packets, hrest, fun p hp => ?_⟩
            obtain ⟨hp', hwellp⟩ := hothers p hp
            exact ⟨hp'.trans hkept.symm, hwellp⟩
      | garbled nBitErrors uchBuf hlong hwell' =>
          rw [hseek, List.take_left' hlength, hwell] at hwell'
          cases hwell'
      | short nBitErrors uchBuf hshort =>
          rw [hseek, List.length_append, hlength] at hshort
          omega

theorem Clean.errors {s : Daemon × List Turn} (h : Clean s) (lines : List Line) :
    AllSteps Daemon.passOn (fun s _ => s.1.hTablet.nBitErrors ≤ 3) s lines :=
  allSteps_of_invariant
    (fun (s : Daemon × List Turn) (_ : Line) (hs : Clean s) (_ : True) => hs.ready.errors)
    (fun _ line hs _ => hs.passOn line) h fun _ _ => trivial

/-- All of them are owed at first. -/
theorem owes_packets (h : d.Ready) {packets : List (List UInt8)}
    (hpackets : ∀ packet ∈ packets,
      packet.length = d.hTablet.uPacketLength ∧ wellFormed highBit packet = true)
    (hfeeds : Feeds port packets.flatten) :
    Owes (EventHistory.run take d packets).written packets.flatten.length (d, port) := by
  have hframes := deframe_frames hpackets (List.forall_mem_nil _)
  rw [List.nil_append] at hframes
  exact ⟨h.positive, h.fits, packets.flatten, hfeeds, le_rfl, by rw [hframes]⟩

/-- Every packet of a line that carries nothing else is taken once and in its place, in
whatever pieces it arrives. -/
theorem packets_taken (h : d.Ready) {packets : List (List UInt8)}
    (hpackets : ∀ packet ∈ packets,
      packet.length = d.hTablet.uPacketLength ∧ wellFormed highBit packet = true)
    (hfeeds : Feeds port packets.flatten) {lines : List Line}
    (hlong : packets.flatten.length ≤ lines.length) :
    (run passOn (d, port) lines).1.written = (run take d packets).written := by
  have hclean : Clean (d, port) := ⟨h, packets, hfeeds, hpackets⟩
  have howes := (owes_packets h hpackets hfeeds).run (hclean.errors lines)
  exact howes.written.2 (Nat.sub_eq_zero_of_le hlong)

theorem packets_taken_pen :
    (run take penDaemon penPackets).written.length = 10 ∧
      (run passOn (penDaemon, penPort) (List.replicate 18 SerialTablet.intuosLine)).1.written =
        (run take penDaemon penPackets).written :=
  ⟨by decide +kernel,
    packets_taken ⟨by decide +kernel, by decide +kernel, by decide +kernel⟩ (by decide +kernel)
      feeds_penPort (by decide +kernel)⟩

end Streams

end Daemon

end AndroidX86Tv.Wacom
