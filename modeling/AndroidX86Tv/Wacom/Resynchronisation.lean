import AndroidX86Tv.Wacom.Events

/-!
# An open handle resynchronises (wacom/wacserial.c, wacom/wacom-input.c)

The loop over an open handle and the loop over a tablet on the line, as `Packets` has it,
mirror each other: the one has taken what the other has handed to the parser. So after
junk an open handle loses at most the first packet.
-/

namespace AndroidX86Tv.Wacom

open ByteMemory StreamFraming EventHistory

namespace Daemon

variable {d₀ d : Daemon} {w : WacomInput} {stream : List UInt8}

/-- What a check of a packet leaves in the handle a pass leaves too. -/
theorem parseAndReport_hTablet (d : Daemon) (nLength : Nat) :
    (d.parseAndReport nLength).hTablet =
        (d.hTablet.serialParseData d.uchBuf nLength (some d.state)).1 ∧
      (d.parseAndReport nLength).uchBuf = d.uchBuf := by
  rw [parseAndReport]
  simp only
  split
  · exact ⟨rfl, rfl⟩
  · exact ⟨rfl, rfl⟩

/-- The handle that a pass leaves, and its buffer, are seen in the tablet on the line. -/
theorem pass_views (h : SerialTablet.Views d.hTablet w.tablet) (hbuffer : d.uchBuf = w.uchBuf)
    (herrors : d.hTablet.nBitErrors ≤ 3) (reset : Serial → Serial) (line : Line) :
    SerialTablet.Views (d.pass ⟨line, w.tablet.port⟩).hTablet (w.pass reset).tablet ∧
      (d.pass ⟨line, w.tablet.port⟩).uchBuf = (w.pass reset).uchBuf := by
  obtain ⟨hreturned, hviews⟩ :=
    h.serialReadRaw herrors reset ⟨d.uchBuf, sizeofUchBuf, line, w.tablet.port⟩ rfl
  rw [pass, WacomInput.pass, ← hbuffer]
  rcases hread : d.hTablet.serialReadRaw ⟨d.uchBuf, sizeofUchBuf, line, w.tablet.port⟩ with
    ⟨left, uchBuf, nLength⟩
  rcases hviewed : serialReadRaw reset w.tablet d.uchBuf sizeofUchBuf with ⟨s, returned⟩
  rw [hread, hviewed] at hreturned hviews
  simp only at hreturned
  subst hreturned
  simp only
  split
  · exact ⟨hviews, rfl⟩
  · obtain ⟨hTablet, huchBuf⟩ := parseAndReport_hTablet
      { d with hTablet := left, uchBuf := uchBuf } nLength.toNat
    rw [hTablet, huchBuf]
    exact ⟨hviews.serialParseData _ _ _, rfl⟩

/-- What a pass leaves on the line is the same for both. -/
theorem pass_port (h : SerialTablet.Views d.hTablet w.tablet) (hbuffer : d.uchBuf = w.uchBuf)
    (herrors : d.hTablet.nBitErrors ≤ 3) (reset : Serial → Serial) (line : Line) :
    d.unread ⟨line, w.tablet.port⟩ = (w.pass reset).tablet.port := by
  have hfits := w.tablet.fits
  have hsize : sizeofUchBuf = 64 := rfl
  have hkept : d.hTablet.resetIfErrors line = d.hTablet := if_neg (by omega)
  have hlength := h.length
  rw [unread, if_neg (by omega), pass_eq (by rw [h.errors]; exact herrors) reset rfl, hkept,
    ← h.length, ← h.errors, hbuffer]
  split
  · rfl
  · obtain ⟨parsed, hchecked⟩ := SerialTablet.checked_frame (w.tablet.afterFill
      (fill w.tablet.uPacketLength w.uchBuf w.tablet.nBitErrors 0 w.tablet.port)) _ _
    rw [hchecked]
    rfl

/-- A daemon with an open handle, and the loop over a tablet on the line: the daemon has
taken the packets that were handed to the parser. -/
structure Mirrors (d₀ : Daemon) (s : Daemon × List Turn) (w : WacomInput) : Prop where
  views : SerialTablet.Views s.1.hTablet w.tablet
  buffer : s.1.uchBuf = w.uchBuf
  port : s.2 = w.tablet.port
  taken : s.1 = (run take d₀ w.tablet.parsed).junk s.1.hTablet.nBitErrors s.1.uchBuf

theorem Mirrors.passOn {s : Daemon × List Turn} (h : Mirrors d₀ s w)
    (herrors : s.1.hTablet.nBitErrors ≤ 3) (hparser : w.tablet.pfnParse.isSome = true)
    (hfeeds : Feeds w.tablet.port stream) (reset : Serial → Serial) (line : Line) :
    Mirrors d₀ (passOn s line) (w.pass reset) := by
  obtain ⟨d, port⟩ := s
  obtain ⟨hviews, hbuffer, rfl, htaken⟩ := h
  simp only at hviews hbuffer htaken herrors
  have hpos := w.tablet.positive
  have hfits := w.tablet.fits
  have hlength := hviews.length
  have hready : d.Ready := ⟨by omega, by rw [sizeofUchBuf]; omega, herrors⟩
  obtain ⟨hviews', hbuffer'⟩ := pass_views hviews hbuffer herrors reset line
  refine ⟨hviews', hbuffer', pass_port hviews hbuffer herrors reset line, ?_⟩
  obtain ⟨rest, -, hconsumes⟩ := pass_consumes hready hfeeds line
  obtain ⟨rest', hhanded⟩ := pass_hands hparser hfeeds (by rw [hviews.errors]; exact herrors) reset
  rw [Daemon.passOn]
  generalize d.pass ⟨line, w.tablet.port⟩ = d' at hconsumes ⊢
  cases hconsumes with
  | packet uchBuf hlong hwell =>
      rw [← hlength] at hlong hwell ⊢
      rw [(hhanded.whole hlong).2, List.filter_cons_of_pos hwell, List.filter_nil, run_append]
      have htake := take_junk (d := run take d₀ w.tablet.parsed) hwell d.hTablet.nBitErrors d.uchBuf
      rw [← htaken] at htake
      rw [htake]
      rfl
  | garbled nBitErrors uchBuf hlong hwell =>
      rw [← hlength] at hlong hwell
      have hfalse : ¬ wellFormed highBit
          ((seek highBit stream).take w.tablet.uPacketLength) = true := by
        rw [hwell]
        exact Bool.false_ne_true
      rw [(hhanded.whole hlong).2, List.filter_cons_of_neg hfalse, List.filter_nil,
        List.append_nil, htaken]
      rfl
  | short nBitErrors uchBuf hshort =>
      rw [← hlength] at hshort
      rw [(hhanded.short hshort).2, htaken]
      rfl

/-- So do passes one after the other, as long as no reset is due. -/
theorem Mirrors.run {s : Daemon × List Turn} (h : Mirrors d₀ s w) {due : List (List UInt8)}
    {left : Nat} (hdue : Due due left w) {lines : List Line}
    (herrors : AllSteps Daemon.passOn (fun s _ => s.1.hTablet.nBitErrors ≤ 3) s lines) :
    ∃ w', Mirrors d₀ (EventHistory.run Daemon.passOn s lines) w' ∧
      Due due (left - lines.length) w' := by
  induction lines generalizing s w left with
  | nil => exact ⟨w, h, hdue⟩
  | cons line lines ih =>
      obtain ⟨hparser, stream, hfeeds, -⟩ := id hdue
      have hpass := h.passOn herrors.1 hparser hfeeds id line
      have hdue' := hdue.pass (by rw [h.views.errors]; exact herrors.1) id
      obtain ⟨w', hmirrors, hleft⟩ := ih hpass hdue' herrors.2
      refine ⟨w', hmirrors, ?_⟩
      rwa [Nat.sub_sub, Nat.add_comm 1] at hleft

section Opened

variable {pModel : Option WacomModel} {line : Line} {t : SerialTablet} {port : List Turn}

/-- After junk the daemon over an open handle is at any time in the state to which the
packets so far have taken it, but for the errors and the buffer: some that lie in the junk,
and then all but at most the first. -/
theorem open_resynchronises (h : wacomOpenSerialTablet pModel line = some t)
    (hparser : t.pfnParse.isSome = true) (uchBuf : Memory) (minPress : Int32)
    {junk : List UInt8} {packets : List (List UInt8)}
    (hpackets : ∀ packet ∈ packets,
      packet.length = t.uPacketLength ∧ wellFormed highBit packet = true)
    (hfeeds : Feeds port (junk ++ packets.flatten)) :
    ∃ inJunk delivered : List (List UInt8), inJunk.flatten.Sublist junk ∧
      (delivered = packets ∨ delivered = packets.tail) ∧
      ∀ lines : List Line,
        AllSteps passOn (fun s _ => s.1.hTablet.nBitErrors ≤ 3) (start t uchBuf minPress, port)
          lines →
        ∃ (taken : List (List UInt8)) (nBitErrors : Nat) (buffer : Memory),
          taken <+: inJunk ++ delivered ∧
          ((junk ++ packets.flatten).length ≤ lines.length → taken = inJunk ++ delivered) ∧
          (EventHistory.run passOn (start t uchBuf minPress, port) lines).1 =
            (EventHistory.run take (start t uchBuf minPress) taken).junk nBitErrors buffer := by
  obtain ⟨s, hviews, hport, hparsed⟩ := SerialTablet.open_viewed h port
  have hmirrors :
      Mirrors (start t uchBuf minPress) (start t uchBuf minPress, port) ⟨s, uchBuf⟩ := by
    refine ⟨hviews, rfl, hport.symm, ?_⟩
    rw [hparsed]
    rfl
  obtain ⟨inJunk, delivered, hjunk, hdelivered, hframes⟩ :=
    deframe_resynchronises s.positive junk (by rw [hviews.length]; exact hpackets)
  have hdue : Due (inJunk ++ delivered) (junk ++ packets.flatten).length ⟨s, uchBuf⟩ := by
    refine ⟨hviews.parser.trans hparser, _, hport ▸ hfeeds, le_rfl, ?_⟩
    rw [hparsed, List.nil_append]
    exact hframes
  refine ⟨inJunk, delivered, hjunk, hdelivered, fun lines herrors => ?_⟩
  obtain ⟨w, hmirrors', -, stream, -, hleft, hdue'⟩ := hmirrors.run hdue herrors
  refine ⟨w.tablet.parsed, _, _, ?_, fun hlong => ?_, hmirrors'.taken⟩
  · rw [← hdue']
    exact List.prefix_append _ _
  · have hnil : stream = [] := List.length_eq_zero_iff.mp (by omega)
    rw [← hdue', hnil, deframe_of_lt (by rw [seek_nil]; exact w.tablet.positive), List.append_nil]

/-- Two bytes of junk before the packets of a pen. -/
theorem open_resynchronises_pen :
    ∃ inJunk delivered : List (List UInt8), inJunk.flatten.Sublist [1, 2] ∧
      (delivered = penPackets ∨ delivered = penPackets.tail) ∧
      ∃ (nBitErrors : Nat) (buffer : Memory),
        (EventHistory.run passOn lateLine (List.replicate 20 SerialTablet.intuosLine)).1 =
          (EventHistory.run take penDaemon (inJunk ++ delivered)).junk nBitErrors buffer := by
  have hfeeds : Feeds (.data [1, 2] :: penPort) ([1, 2] ++ penPackets.flatten) :=
    .chunk (by decide) feeds_penPort
  obtain ⟨inJunk, delivered, hjunk, hdelivered, hruns⟩ :=
    open_resynchronises SerialTablet.open_intuos (by decide +kernel) (fun _ => 0) 20
      (by decide +kernel) hfeeds
  obtain ⟨taken, nBitErrors, buffer, -, hall, hstate⟩ :=
    hruns (List.replicate 20 SerialTablet.intuosLine) (by decide +kernel)
  obtain rfl : taken = inJunk ++ delivered := hall (by decide)
  exact ⟨inJunk, delivered, hjunk, hdelivered, nBitErrors, buffer, hstate⟩

end Opened

end Daemon

end AndroidX86Tv.Wacom
