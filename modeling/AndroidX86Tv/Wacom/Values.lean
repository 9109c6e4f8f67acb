import AndroidX86Tv.Lib.SmallWords
import AndroidX86Tv.Wacom.Ranges

/-!
# The values that are reported (wacom/wacserial.c)

Whatever the packets say, the coordinates fit in 16 bits and the pressure in 10, and a
reset leaves the values as they are. A parser that succeeds copies them all out.
-/

namespace AndroidX86Tv.Wacom

open ByteMemory SmallWords

/-- The bits of a coordinate or a pressure; a value of any other field is not bounded. -/
def Suits : Field → Int32 → Prop
  | .positionX, v => Fits 16 v
  | .positionY, v => Fits 16 v
  | .pressure, v => Fits 10 v
  | _, _ => True

namespace WacomState

/-- The coordinates and the pressure have their bits. -/
def Bounded (s : WacomState) : Prop := ∀ f, Suits f (s.value f)

variable {s : WacomState}

theorem Bounded.setValues (h : s.Bounded) {values : List (Field × Int32)}
    (hvalues : ∀ v ∈ values, Suits v.1 v.2) : (s.setValues values).Bounded := by
  rw [WacomState.setValues]
  induction values generalizing s with
  | nil => exact h
  | cons v values ih =>
      rw [List.foldl_cons]
      apply ih
      · intro f
        rw [value_setValue]
        split
        · next heq => rw [heq]; exact hvalues v List.mem_cons_self
        · exact h f
      · exact fun w hw => hvalues w (List.mem_cons_of_mem v hw)

theorem bounded_clearValues (hcount : s.uValueCnt = wacomFieldMax) : s.clearValues.Bounded := by
  intro f
  rw [s.value_clearValues f hcount]
  cases f with
  | positionX => exact (by decide : Fits 16 0)
  | positionY => exact (by decide : Fits 16 0)
  | pressure => exact (by decide : Fits 10 0)
  | _ => trivial

@[simp] theorem value_setMin (s : WacomState) (f : Field) (n : Int32) :
    (s.setMin f n).value = s.value := by
  funext g
  simp only [value, setMin, update]
  split
  · rfl
  · rfl

@[simp] theorem value_setMax (s : WacomState) (f : Field) (n : Int32) :
    (s.setMax f n).value = s.value := by
  funext g
  simp only [value, setMax, update]
  split
  · rfl
  · rfl

end WacomState

namespace SerialTablet

section Packets

variable {d : Memory} {uLength : Nat} {parser : ParseFunc} {t : SerialTablet}

/-- A byte after the first of a packet that is synchronised. -/
theorem Synchronised.fits (h : Synchronised d uLength) {k : Nat} (hpos : 0 < k)
    (hk : k < uLength) : Fits 7 (int (d k)) := by
  apply fits_lowByte
  have hmem : d k ∈ bytesAt d 1 (uLength - 1) := by
    apply List.mem_map.mpr
    exact ⟨k - 1, List.mem_range.mpr (by omega), by rw [Nat.add_sub_cancel' hpos]⟩
  have hclear : ¬ highBit (d k) = true := fun hhigh => h.2 (List.any_eq_true.mpr ⟨d k, hmem, hhigh⟩)
  simpa [highBit] using hclear

theorem fits_positionX (d : Memory) : Fits 16 (positionX d) := by
  have hhigh := (fits_and (int (d 1)) (w := 0x7f) (k := 7) (by decide)).shiftLeft (n := 9)
    (s := 9) (by decide) (by decide)
  have hmiddle := (fits_and (int (d 2)) (w := 0x7f) (k := 7) (by decide)).shiftLeft (n := 2)
    (s := 2) (by decide) (by decide)
  have hlow := (fits_and (int (d 3)) (w := 0x60) (k := 7) (by decide)).shiftRight (by decide) 5
  exact (hhigh.or (hmiddle.mono (by decide))).or (hlow.mono (by decide))

theorem fits_positionY (d : Memory) : Fits 16 (positionY d) := by
  have hhigh := (fits_and (int (d 3)) (w := 0x1f) (k := 5) (by decide)).shiftLeft (n := 11)
    (s := 11) (by decide) (by decide)
  have hmiddle := (fits_and (int (d 4)) (w := 0x7f) (k := 7) (by decide)).shiftLeft (n := 4)
    (s := 4) (by decide) (by decide)
  have hlow := (fits_and (int (d 5)) (w := 0x78) (k := 7) (by decide)).shiftRight (by decide) 3
  exact (hhigh.or (hmiddle.mono (by decide))).or (hlow.mono (by decide))

theorem fits_tenBits (d : Memory) : Fits 10 (tenBits d) := by
  have hhigh := (fits_and (int (d 5)) (w := 0x07) (k := 3) (by decide)).shiftLeft (n := 7)
    (s := 7) (by decide) (by decide)
  have hlow := fits_and (int (d 6)) (w := 0x7f) (k := 7) (by decide)
  exact hhigh.or (hlow.mono (by decide))

/-- Two low bytes and two bits make a coordinate of protocol IV. -/
theorem fits_coordinateIV {low high : Int32} (hlow : Fits 7 low) (hhigh : Fits 7 high)
    (top : Int32) : Fits 16 (low ||| high <<< 7 ||| (top &&& 0x3) <<< 14) := by
  have hmiddle := hhigh.shiftLeft (n := 7) (s := 7) (by decide) (by decide)
  have htop := (fits_and top (w := 0x3) (k := 2) (by decide)).shiftLeft (n := 14) (s := 14)
    (by decide) (by decide)
  exact ((hlow.mono (by decide)).or (hmiddle.mono (by decide))).or htop

theorem fits_pressureIV (d : Memory) : Fits 10 (pressureIV d) := by
  have hhigh := (fits_and (int (d 6)) (w := 0x3F) (k := 6) (by decide)).shiftLeft (n := 1)
    (s := 1) (by decide) (by decide)
  have hlow := (fits_and (int (d 3)) (w := 0x4) (k := 3) (by decide)).shiftRight (by decide) 2
  have htop : Fits 10 (if d 6 &&& 0x40 ≠ 0 then 0 else 0x80) := by
    split
    · decide
    · decide
  exact ((hhigh.mono (by decide)).or (hlow.mono (by decide))).or htop

theorem fits_pressure12 (d : Memory) (nVerMinor : Int32) : Fits 10 (pressure12 d nVerMinor) := by
  rw [pressure12]
  split
  · exact fits_pressureIV d
  · have hlow := fits_and (int (d 6)) (w := 0x3F) (k := 9) (by decide)
    apply hlow.add
    split
    · decide
    · decide

/-- Two low bytes and a few bits make a coordinate of a tablet PC. -/
theorem fits_coordinateTabletPC {low high bits : Int32} (hlow : Fits 7 low) (hhigh : Fits 7 high)
    (hbits : Fits 7 bits) (s : Int32) : Fits 16 (bits >>> s ||| low <<< 2 ||| high <<< 9) := by
  have hfirst := hbits.shiftRight (by decide) s
  have hmiddle := hlow.shiftLeft (n := 2) (s := 2) (by decide) (by decide)
  have htop := hhigh.shiftLeft (n := 9) (s := 9) (by decide) (by decide)
  exact ((hfirst.mono (by decide)).or (hmiddle.mono (by decide))).or htop

theorem fits_pressureTabletPC (d : Memory) :
    Fits 10 ((int (d 6) &&& 0x01) <<< 7 ||| int (d 5) &&& 0x7F) := by
  have hhigh := (fits_and (int (d 6)) (w := 0x01) (k := 1) (by decide)).shiftLeft (n := 7)
    (s := 7) (by decide) (by decide)
  have hlow := fits_and (int (d 5)) (w := 0x7F) (k := 7) (by decide)
  exact (hhigh.mono (by decide)).or (hlow.mono (by decide))

/-- The six fields that protocol IV and the tablet PCs set. -/
theorem setSix_bounded (h : t.state.Bounded) {x y press : Int32} (hx : Fits 16 x)
    (hy : Fits 16 y) (hpress : Fits 10 press) (prox tool button : Int32) :
    (t.setSix prox tool x y press button).state.Bounded := by
  apply h.setValues
  simp only [List.forall_mem_cons, List.not_mem_nil, false_imp_iff, implies_true, and_true]
  exact ⟨trivial, trivial, hx, hy, hpress, trivial⟩

theorem setSix_zero_bounded (h : t.state.Bounded) (tool button : Int32) :
    (t.setSix 0 tool 0 0 0 button).state.Bounded :=
  setSix_bounded h (by decide) (by decide) (by decide) _ _ _

theorem packetPen_bounded (h : t.state.Bounded) (d : Memory) :
    (t.packetPen d).state.Bounded := by
  have hpress : Fits 10 (if isPen (d 0) then tenBits d else 0) := by
    split
    · exact fits_tenBits d
    · decide
  apply h.setValues
  simp only [List.forall_mem_cons, List.not_mem_nil, false_imp_iff, implies_true, and_true]
  exact ⟨fits_positionX d, fits_positionY d, trivial, trivial, hpress, trivial, trivial⟩

theorem packetMouse_bounded (h : t.state.Bounded) (d : Memory) :
    (t.packetMouse d).state.Bounded := by
  apply h.setValues
  simp only [List.forall_mem_cons, List.not_mem_nil, false_imp_iff, implies_true, and_true]
  exact ⟨fits_positionX d, fits_positionY d, trivial, trivial, trivial⟩

theorem packetMouse2_bounded (h : t.state.Bounded) (d : Memory) :
    (t.packetMouse2 d).state.Bounded := by
  apply h.setValues
  simp only [List.forall_mem_cons, List.not_mem_nil, false_imp_iff, implies_true, and_true]
  exact ⟨fits_positionX d, fits_positionY d, trivial⟩

theorem packetIn_bounded (h : t.state.Bounded) (d : Memory) : (t.packetIn d).state.Bounded := by
  apply h.setValues
  simp only [List.forall_mem_cons, List.not_mem_nil, false_imp_iff, implies_true, and_true]
  exact ⟨trivial, trivial, trivial⟩

theorem setTiltValues_bounded {state : WacomState} (h : state.Bounded) (d : Memory) :
    (setTiltValues d state).Bounded := by
  apply h.setValues
  simp only [List.forall_mem_cons, List.not_mem_nil, false_imp_iff, implies_true, and_true]
  exact ⟨trivial, trivial⟩

theorem packetIV13_bounded (hsync : Synchronised d 7) (h : t.state.Bounded) :
    (packetIV13 d t).state.Bounded := by
  have hbyte : ∀ k, 0 < k → k < 7 → Fits 7 (int (d k)) := fun k hpos hk => hsync.fits hpos hk
  rw [packetIV13]
  split
  · apply setSix_bounded h
    · exact fits_coordinateIV (hbyte 2 (by decide) (by decide)) (hbyte 1 (by decide) (by decide)) _
    · exact fits_coordinateIV (hbyte 5 (by decide) (by decide)) (hbyte 4 (by decide) (by decide)) _
    · exact fits_pressureIV d
  · exact setSix_zero_bounded h _ _

theorem packetIV12_bounded (hsync : Synchronised d 7) (h : t.state.Bounded) :
    (packetIV12 d t).state.Bounded := by
  have hbyte : ∀ k, 0 < k → k < 7 → Fits 7 (int (d k)) := fun k hpos hk => hsync.fits hpos hk
  have hx : Fits 16 (positionXIV d) :=
    fits_coordinateIV (hbyte 2 (by decide) (by decide)) (hbyte 1 (by decide) (by decide)) _
  have hy : Fits 16 (positionYIV d) :=
    fits_coordinateIV (hbyte 5 (by decide) (by decide)) (hbyte 4 (by decide) (by decide)) _
  rw [packetIV12]
  split
  · simp only
    split
    · exact setSix_bounded h hx hy (fits_pressure12 d _) _ _ _
    · exact setSix_bounded h hx hy (fits_pressure12 d _) _ _ _
  · exact setSix_zero_bounded h _ _

theorem packetTabletPC_bounded (hsync : Synchronised d 9) (h : t.state.Bounded) :
    (packetTabletPC d t).state.Bounded := by
  have hbyte : ∀ k, 0 < k → k < 9 → Fits 7 (int (d k)) := fun k hpos hk => hsync.fits hpos hk
  rw [packetTabletPC]
  split
  · apply setSix_bounded h
    · exact fits_coordinateTabletPC (hbyte 2 (by decide) (by decide))
        (hbyte 1 (by decide) (by decide)) (fits_and _ (by decide)) _
    · exact fits_coordinateTabletPC (hbyte 4 (by decide) (by decide))
        (hbyte 3 (by decide) (by decide)) (fits_and _ (by decide)) _
    · exact fits_pressureTabletPC d
  · exact setSix_zero_bounded h _ _

theorem Synchronised.mono (h : Synchronised d uLength) {n : Nat} (hn : n ≤ uLength) :
    Synchronised d n := by
  refine ⟨h.1, fun hany => h.2 ?_⟩
  obtain ⟨b, hmem, hhigh⟩ := List.any_eq_true.mp hany
  obtain ⟨k, hk, rfl⟩ := List.mem_map.mp hmem
  rw [List.mem_range] at hk
  apply List.any_eq_true.mpr
  exact ⟨d (1 + k), List.mem_map.mpr ⟨k, List.mem_range.mpr (by omega), rfl⟩, hhigh⟩

theorem serialParseWacomV_bounded (hcount : t.state.uValueCnt = wacomFieldMax)
    (h : t.state.Bounded) (pState : Option WacomState) :
    (serialParseWacomV d t uLength pState).1.state.Bounded := by
  rw [serialParseWacomV]
  split
  · exact h
  · split
    · rw [report_fst]
      exact packetIn_bounded h d
    · split
      · rw [report_fst]
        exact WacomState.bounded_clearValues hcount
      · split
        · rw [report_fst]
          exact packetPen_bounded h d
        · split
          · rw [report_fst]
            exact packetMouse_bounded h d
          · split
            · rw [report_fst]
              exact packetMouse2_bounded h d
            · exact h

theorem serialParseWacomIV13_bounded (hsync : Synchronised d 7) (h : t.state.Bounded)
    (pState : Option WacomState) : (serialParseWacomIV13 d t 7 pState).1.state.Bounded := by
  rw [serialParseWacomIV13, if_neg (by decide), report_fst]
  exact packetIV13_bounded hsync h

theorem serialParseWacomIV14_bounded (hsync : Synchronised d uLength) (h : t.state.Bounded)
    (pState : Option WacomState) :
    (serialParseWacomIV14 d t uLength pState).1.state.Bounded := by
  rw [serialParseWacomIV14]
  split
  · exact h
  · next hlength =>
      have hseven : Synchronised d 7 := hsync.mono (by omega)
      have hparsed := serialParseWacomIV13_bounded hseven h pState
      rcases hresult : serialParseWacomIV13 d t 7 pState with ⟨t', pState', failed⟩
      rw [hresult] at hparsed
      simp only
      split
      · exact hparsed
      · split
        · exact setTiltValues_bounded hparsed d
        · exact hparsed

/-- A parser keeps the values bounded, given a packet that was checked. -/
theorem parse_bounded (hsync : Synchronised d uLength)
    (hcount : t.state.uValueCnt = wacomFieldMax) (h : t.state.Bounded) (parser : ParseFunc)
    (pState : Option WacomState) : (t.parse parser d uLength pState).1.state.Bounded := by
  cases parser with
  | serialParseWacomV => exact serialParseWacomV_bounded hcount h pState
  | serialParseWacomIV14 => exact serialParseWacomIV14_bounded hsync h pState
  | serialParseWacomIV13 =>
      by_cases hlength : uLength = 7
      · subst hlength
        exact serialParseWacomIV13_bounded hsync h pState
      · rw [parse, serialParseWacomIV13, if_pos hlength]
        exact h
  | serialParseWacomIV12 =>
      by_cases hlength : uLength = 7
      · subst hlength
        rw [parse, serialParseWacomIV12, if_neg (by decide), report_fst]
        exact packetIV12_bounded hsync h
      · rw [parse, serialParseWacomIV12, if_pos hlength]
        exact h
  | serialParseTabletPC =>
      by_cases hlength : uLength = 9
      · subst hlength
        rw [parse, serialParseTabletPC, if_neg (by decide), report_fst]
        exact packetTabletPC_bounded hsync h
      · rw [parse, serialParseTabletPC, if_pos hlength]
        exact h

end Packets

section Copies

variable {t : SerialTablet} {d : Memory} {uLength : Nat} {parser : ParseFunc} {dest : WacomState}

/-- A copy of a tablet's state: all values, and the valid bits. -/
structure CopyOf (t : SerialTablet) (copied : WacomState) : Prop where
  count : copied.uValueCnt = wacomFieldMax
  values : copied.values = t.state.values

theorem report_copies (hcount : t.state.uValueCnt = wacomFieldMax)
    (hdest : dest.uValueCnt = wacomFieldMax) :
    ∃ copied, t.report (some dest) = (t, some copied, 0) ∧ CopyOf t copied := by
  have hnonzero : ¬ (t.state.uValueCnt = 0 ∨ dest.uValueCnt = 0) := by
    rw [hcount, hdest]
    decide
  rw [report, wacomCopyState, if_neg hnonzero]
  refine ⟨_, rfl, hdest, ?_⟩
  funext f
  have hlt := f.index_lt
  exact if_pos (by rw [hcount, hdest, Nat.min_self]; exact hlt)

theorem setValues_congr {s s' : WacomState} (h : s.values = s'.values)
    (values : List (Field × Int32)) :
    (s.setValues values).values = (s'.setValues values).values := by
  rw [WacomState.setValues, WacomState.setValues]
  induction values generalizing s s' with
  | nil => exact h
  | cons v values ih =>
      rw [List.foldl_cons, List.foldl_cons]
      apply ih
      simp only [WacomState.setValue, WacomState.update, h]

/-- A parser that succeeds has copied the whole state of the tablet. -/
theorem parse_copies (hcount : t.state.uValueCnt = wacomFieldMax)
    (hdest : dest.uValueCnt = wacomFieldMax)
    (h : (t.parse parser d uLength (some dest)).2.2 = 0) :
    ∃ copied, (t.parse parser d uLength (some dest)).2.1 = some copied ∧
      CopyOf (t.parse parser d uLength (some dest)).1 copied := by
  by_cases hout : OutPacket parser d uLength
  · obtain ⟨copied, hreport, hcopy⟩ := report_copies (t := t.packetOut) hcount hdest
    rw [parse_out hout, hreport]
    exact ⟨copied, rfl, hcopy⟩
  · have hupdates : Updates d t (some dest) (t.parse parser d uLength (some dest)) :=
      parse_updates hout
    generalize t.parse parser d uLength (some dest) = result at h hupdates ⊢
    cases hupdates with
    | nothing => cases h
    | values nToolID values =>
        obtain ⟨copied, hreport, hcopy⟩ := report_copies
          (t := { t with nToolID := nToolID }.setValues values)
          ((setValues_count _ _).trans hcount) hdest
        rw [hreport]
        exact ⟨copied, rfl, hcopy⟩
    | tilt values =>
        obtain ⟨copied, hreport, hcopy⟩ := report_copies (t := t.setValues values)
          ((setValues_count _ _).trans hcount) hdest
        rw [hreport]
        refine ⟨setTiltValues d copied, rfl, ?_, ?_⟩
        · exact (setValues_count copied _).trans hcopy.count
        · exact setValues_congr hcopy.values _

/-- A parser that fails has done nothing. -/
theorem parse_failed (hcount : t.state.uValueCnt = wacomFieldMax)
    (hdest : dest.uValueCnt = wacomFieldMax)
    (h : (t.parse parser d uLength (some dest)).2.2 ≠ 0) :
    t.parse parser d uLength (some dest) = (t, some dest, 1) := by
  have hcopies : ∀ t' : SerialTablet, t'.state.uValueCnt = wacomFieldMax →
      (t'.report (some dest)).2.2 = 0 := by
    intro t' hcount'
    obtain ⟨copied, hreport, -⟩ := report_copies hcount' hdest
    rw [hreport]
  by_cases hout : OutPacket parser d uLength
  · rw [parse_out hout] at h
    exact absurd (hcopies t.packetOut hcount) h
  · have hupdates : Updates d t (some dest) (t.parse parser d uLength (some dest)) :=
      parse_updates hout
    generalize t.parse parser d uLength (some dest) = result at h hupdates ⊢
    cases hupdates with
    | nothing => rfl
    | values nToolID values => exact absurd (hcopies _ ((setValues_count _ _).trans hcount)) h
    | tilt values => exact absurd rfl h

end Copies

section Reset

variable (t : SerialTablet)

/-- What no reset changes, successful or not. -/
structure SameValues (t' t : SerialTablet) : Prop where
  value : t'.state.value = t.state.value
  count : t'.state.uValueCnt = t.state.uValueCnt

theorem SameValues.refl : SameValues t t := ⟨rfl, rfl⟩

variable {t}

theorem SameValues.trans {t' t'' : SerialTablet} (h : SameValues t'' t') (h' : SameValues t' t) :
    SameValues t'' t :=
  ⟨h.value.trans h'.value, h.count.trans h'.count⟩

variable (t)

theorem ident_values (line : Line) : SameValues (t.ident line).1 t := by
  have hwacom : SameValues (t.serialIdentWacom line).1 t := by
    rcases hrequest : identRequest line with ⟨line', answer⟩
    rw [serialIdentWacom, hrequest]
    cases answer with
    | none => exact .refl t
    | some chResp =>
        simp only
        split
        · exact .refl t
        · next pDev pSub _ =>
            obtain ⟨major, minor, release, hversion⟩ :=
              (t.setFound pDev pSub).readVersion_frame (versionPart chResp)
            rw [hversion]
            exact ⟨rfl, rfl⟩
  rw [ident]
  split
  · exact .refl t
  · exact hwacom
  · exact hwacom
  · rw [serialIdentTabletPC]
    split
    · split
      · exact .refl t
      · split
        · exact ⟨rfl, rfl⟩
        · exact .refl t
        · exact ⟨rfl, rfl⟩
    · exact .refl t

theorem storeDimensions_value (state : WacomState) (scanned : List Int32) :
    (storeDimensions state scanned).value = state.value := by
  match scanned with
  | [] => rfl
  | [x] => simp [storeDimensions]
  | x :: y :: _ => simp [storeDimensions]

theorem initProtocol_value (device : SerialDevice) (line : Line) :
    (t.initProtocol device line).1.state.value = t.state.value := by
  rw [initProtocol]
  split
  · rw [initProtocol4]
    split
    · split
      · simp only
        split
        · rfl
        · simp [setTilt]
      · split
        · simp
        · split
          · simp
          · split
            · simp
            · rfl
    · rfl
  · split
    · simp [setRangesV, setTilt]
    · rfl

theorem init_values (line : Line) : SameValues (t.init line).1 t := by
  refine ⟨?_, (t.init_frame line).count⟩
  rw [init]
  split
  · rfl
  · rw [serialInitWacom]
    split
    · rfl
    · next chResp _ =>
        have hdimensions := storeDimensions_value t.state (scanInts (chars ",") chResp)
        simp only
        split
        · exact hdimensions
        · split
          · exact hdimensions
          · exact (initProtocol_value _ _ _).trans hdimensions
  · simp [serialInitTabletPC]

theorem identAndInit_values (line : Line) : SameValues (t.identAndInit line).1 t := by
  have hident := t.ident_values line
  rcases hresult : t.ident line with ⟨t', line', outcome⟩
  rw [hresult] at hident
  rw [identAndInit, hresult]
  cases outcome with
  | success => exact (t'.init_values line').trans hident
  | failure => exact hident
  | nullDereference => exact hident

theorem resetFor_values (pVendor : Option SerialVendor) (pDevice : Option SerialDevice)
    (pSubType : Option SerialSubType) (line : Line) :
    SameValues (t.resetFor pVendor pDevice pSubType line).1 t := by
  rcases hresult : t.serialSetDevice pVendor pDevice pSubType with ⟨chosen, outcome⟩
  have hset : SameValues chosen t := by
    rw [serialSetDevice_eq hresult]
    exact ⟨rfl, rfl⟩
  rw [resetFor, hresult]
  cases outcome with
  | success =>
      simp only
      split
      · exact hset
      · exact (chosen.identAndInit_values _).trans hset
  | failure => exact hset
  | nullDereference => exact hset

/-- A reset keeps the values, wherever it stops. -/
theorem serialReset_values (pModel : Option WacomModel) (line : Line) :
    SameValues (t.serialReset pModel line).1 t := by
  rw [serialReset]
  split
  · exact t.resetFor_values none none none line
  · exact .refl t
  · exact .refl t
  · exact t.resetFor_values _ _ _ line

/-- So does a read. -/
theorem serialReadRaw_values (call : ReadCall) : SameValues (t.serialReadRaw call).1 t := by
  have hreset : SameValues (t.resetIfErrors call.line) t := by
    rw [resetIfErrors]
    split
    · exact (serialReset_values { t with nBitErrors := 0 } _ _).trans ⟨rfl, rfl⟩
    · exact .refl t
  rw [serialReadRaw]
  split
  · exact .refl t
  · exact ⟨hreset.value, hreset.count⟩

/-- The values of an open handle are zero. -/
theorem open_values {pModel : Option WacomModel} {line : Line} {t : SerialTablet}
    (h : wacomOpenSerialTablet pModel line = some t) (f : Field) : t.state.value f = 0 := by
  have hreset := (newTablet pModel).serialReset_values pModel line
  rw [wacomOpenSerialTablet] at h
  split at h
  · next reset heq =>
      cases h
      rw [heq] at hreset
      exact congrFun hreset.value f
  · cases h

end Reset

end SerialTablet

end AndroidX86Tv.Wacom
