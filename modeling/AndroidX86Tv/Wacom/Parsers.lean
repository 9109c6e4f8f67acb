import AndroidX86Tv.Wacom.Tablet

/-!
# The parsers of serial packets (wacom/wacserial.c)

A parser for every protocol, each of which updates the values of the tablet and copies
the state out, and `SerialParseData`, which checks a packet and calls the parser.

## Implementation notes

A parser gives the handle, the state copied to if there is one, and the number that the
C function returns.
-/

namespace AndroidX86Tv.Wacom

open ByteMemory

/-- `(int)` of a byte. -/
def int (b : UInt8) : Int32 := b.toUInt32.toInt32

/-- `BIT(n)` if the condition holds, else 0. -/
def bitIf (c : Prop) [Decidable c] (n : Int32) : Int32 := if c then bit n else 0

/-- The values of some fields are set. -/
def WacomState.setValues (s : WacomState) (values : List (Field × Int32)) : WacomState :=
  values.foldl (fun s v => s.setValue v.1 v.2) s

namespace SerialTablet

/-- `return pState ? WacomCopyState(pState,&pSerial->state) : 0;` -/
def report (t : SerialTablet) : Option WacomState → SerialTablet × Option WacomState × Int
  | none => (t, none, 0)
  | some dest =>
      (t, some (wacomCopyState dest t.state).1, (wacomCopyState dest t.state).2)

def setValues (t : SerialTablet) (values : List (Field × Int32)) : SerialTablet :=
  { t with state := t.state.setValues values }

section WacomV

/-- The kinds of packets of protocol V, by the first byte. -/
def isIn (b : UInt8) : Prop := b &&& 0xFC = 0xC0

def isOut (b : UInt8) : Prop := b &&& 0xFE = 0x80

def isPen (b : UInt8) : Prop := b &&& 0xB8 = 0xA0

/-- The 2nd airbrush packet. -/
def isWheel (b : UInt8) : Prop := b &&& 0xBE = 0xB4

def isMouse (b : UInt8) : Prop := b &&& 0xBE = 0xA8 ∨ b &&& 0xBE = 0xB0

/-- The 2nd 4D mouse packet. -/
def isMouse2 (b : UInt8) : Prop := b &&& 0xBE = 0xAA

instance (b : UInt8) : Decidable (isIn b) := inferInstanceAs (Decidable (_ = _))
instance (b : UInt8) : Decidable (isOut b) := inferInstanceAs (Decidable (_ = _))
instance (b : UInt8) : Decidable (isPen b) := inferInstanceAs (Decidable (_ = _))
instance (b : UInt8) : Decidable (isWheel b) := inferInstanceAs (Decidable (_ = _))
instance (b : UInt8) : Decidable (isMouse b) := inferInstanceAs (Decidable (_ ∨ _))
instance (b : UInt8) : Decidable (isMouse2 b) := inferInstanceAs (Decidable (_ = _))

variable (d : Memory)

def toolId : Int32 := (int (d 1) &&& 0x7F) <<< 5 ||| (int (d 2) &&& 0x7C) >>> 2

def serialNumber : Int32 :=
  (int (d 2) &&& 0x03) <<< 30 ||| (int (d 3) &&& 0x7f) <<< 23 ||| (int (d 4) &&& 0x7f) <<< 16 |||
    (int (d 5) &&& 0x7f) <<< 9 ||| (int (d 6) &&& 0x7f) <<< 2 ||| (int (d 7) &&& 0x60) >>> 5

/-- The tool that an identifier stands for. -/
def toolOf (toolid : Int32) : Int32 :=
  if toolid ∈ [0x812, 0x012] then wacomToolTypePencil
  else if toolid ∈ [0x822, 0x852, 0x842, 0x022] then wacomToolTypePen
  else if toolid ∈ [0x832, 0x032] then wacomToolTypeBrush
  else if toolid ∈ [0x007, 0x09C, 0x094] then wacomToolTypeMouse
  else if toolid = 0x096 then wacomToolTypeLens
  else if toolid ∈ [0x82a, 0x85a, 0x91a, 0x0fa] then wacomToolTypeEraser
  else if toolid = 0x112 then wacomToolTypeAirbrush
  else wacomToolTypePen

def positionX : Int32 :=
  (int (d 1) &&& 0x7f) <<< 9 ||| (int (d 2) &&& 0x7f) <<< 2 ||| (int (d 3) &&& 0x60) >>> 5

def positionY : Int32 :=
  (int (d 3) &&& 0x1f) <<< 11 ||| (int (d 4) &&& 0x7f) <<< 4 ||| (int (d 5) &&& 0x78) >>> 3

/-- The ten bits that are the pressure, the wheel or the throttle. -/
def tenBits : Int32 := (int (d 5) &&& 0x07) <<< 7 ||| int (d 6) &&& 0x7f

def tilt (b : UInt8) : Int32 :=
  if b &&& 0x40 ≠ 0 then (int b &&& 0x3F) - 0x40 else int b &&& 0x3F

def penButtons : Int32 :=
  bitIf (tenBits d > 10) wacomButtonTouch ||| bitIf (d 0 &&& 0x02 ≠ 0) wacomButtonStylus |||
    bitIf (d 0 &&& 0x04 ≠ 0) wacomButtonStylus2

def mouseThrottle : Int32 := if d 8 &&& 0x08 ≠ 0 then -tenBits d else tenBits d

/-- The buttons of a 4D mouse, a lens cursor or a 2D mouse. -/
def mouseButton (nToolID : Int32) : Int32 :=
  if nToolID = 0x094 then (int (d 8) &&& 0x70) >>> 1 ||| int (d 8) &&& 0x07
  else if nToolID = 0x096 then int (d 8) &&& 0x1F
  else (int (d 8) &&& 0x1C) >>> 2

def mouseWheel (nToolID : Int32) : Int32 :=
  if nToolID = 0x094 ∨ nToolID = 0x096 then 0
  else -(int (d 8) &&& (1 : Int32)) + ((int (d 8) &&& (2 : Int32)) >>> (1 : Int32))

/-- The buttons that a mouse packet carries. -/
def mouseMask : Int32 :=
  bit wacomButtonLeft ||| bit wacomButtonRight ||| bit wacomButtonMiddle |||
    bit wacomButtonExtra ||| bit wacomButtonSide

/-- The buttons after a mouse packet. -/
def mergeButtons (old button : Int32) : Int32 :=
  old &&& ~~~mouseMask ||| bitIf (button &&& 1 ≠ 0) wacomButtonLeft |||
    bitIf (button &&& 2 ≠ 0) wacomButtonMiddle ||| bitIf (button &&& 4 ≠ 0) wacomButtonRight |||
    bitIf (button &&& 8 ≠ 0) wacomButtonExtra ||| bitIf (button &&& 16 ≠ 0) wacomButtonSide

def rotation : Int32 :=
  let rot := (int (d 6) &&& 0x0f) <<< 7 ||| int (d 7) &&& 0x7f
  if rot < 900 then -rot else 1799 - rot

/-- The tablet after an in packet. -/
def packetIn (t : SerialTablet) : SerialTablet :=
  { t with nToolID := toolId d }.setValues
    [(.proximity, 1), (.serial, serialNumber d), (.toolType, toolOf (toolId d))]

def packetOut (t : SerialTablet) : SerialTablet :=
  { t with nToolID := 0, state := t.state.clearValues }

/-- The tablet after a pen packet or a 2nd airbrush packet. -/
def packetPen (t : SerialTablet) : SerialTablet :=
  t.setValues
    [(.positionX, positionX d), (.positionY, positionY d), (.tiltX, tilt (d 7)),
      (.tiltY, tilt (d 8)), (.pressure, if isPen (d 0) then tenBits d else 0),
      (.buttons, if isPen (d 0) then penButtons d else 0),
      (.absWheel, if isPen (d 0) then 0 else tenBits d)]

def packetMouse (t : SerialTablet) : SerialTablet :=
  t.setValues
    [(.positionX, positionX d), (.positionY, positionY d), (.relWheel, mouseWheel d t.nToolID),
      (.throttle, mouseThrottle d),
      (.buttons, mergeButtons (t.state.value .buttons) (mouseButton d t.nToolID))]

def packetMouse2 (t : SerialTablet) : SerialTablet :=
  t.setValues
    [(.positionX, positionX d), (.positionY, positionY d), (.rotationZ, rotation d)]

def serialParseWacomV (t : SerialTablet) (uLength : Nat) (pState : Option WacomState) :
    SerialTablet × Option WacomState × Int :=
  if uLength ≠ 9 then (t, pState, 1)
  else if isIn (d 0) then (t.packetIn d).report pState
  else if isOut (d 0) then t.packetOut.report pState
  else if isPen (d 0) ∨ isWheel (d 0) then (t.packetPen d).report pState
  else if isMouse (d 0) then (t.packetMouse d).report pState
  else if isMouse2 (d 0) then (t.packetMouse2 d).report pState
  else (t, pState, 1)

end WacomV

section WacomIV

variable (d : Memory)

def positionXIV : Int32 := int (d 2) ||| int (d 1) <<< 7 ||| (int (d 0) &&& 0x3) <<< 14

def positionYIV : Int32 := int (d 5) ||| int (d 4) <<< 7 ||| (int (d 3) &&& 0x3) <<< 14

/-- The pressure in eight bits. -/
def pressureIV : Int32 :=
  (int (d 6) &&& 0x3F) <<< 1 ||| (int (d 3) &&& 0x4) >>> 2 ||| if d 6 &&& 0x40 ≠ 0 then 0 else 0x80

def mouseButtonIV : Int32 := (int (d 3) &&& 0x78) >>> 3

/-- The six fields that these protocols set. -/
def setSix (t : SerialTablet) (prox tool x y press button : Int32) : SerialTablet :=
  t.setValues [(.proximity, prox), (.toolType, tool), (.positionX, x), (.positionY, y),
    (.pressure, press), (.buttons, button)]

/-- The tool of a stylus: chosen on entering proximity, and kept. -/
def stylusTool (t : SerialTablet) (eraser : Bool) : Int32 :=
  if t.state.value .proximity = 0 then
    if eraser then wacomToolTypeEraser else wacomToolTypePen
  else t.state.value .toolType

def stylusButtons13 (tool : Int32) : Int32 :=
  let button := bitIf (pressureIV d > 10) wacomButtonTouch
  if tool = wacomToolTypePen then
    button ||| bitIf (d 3 &&& 0x10 ≠ 0) wacomButtonStylus |||
      bitIf (d 3 &&& 0x20 ≠ 0) wacomButtonStylus2
  else button

/-- The tablet after a packet of `SerialParseWacomIV_1_3`. -/
def packetIV13 (t : SerialTablet) : SerialTablet :=
  if d 0 &&& 0x40 ≠ 0 then
    let stylus := d 0 &&& 0x20 ≠ 0
    let tool := if stylus then t.stylusTool (d 3 &&& 0x20 ≠ 0) else wacomToolTypeMouse
    t.setSix 1 tool (positionXIV d) (positionYIV d) (pressureIV d)
      (if stylus then stylusButtons13 d tool else mouseButtonIV d)
  else t.setSix 0 wacomToolTypeNone 0 0 0 0

def serialParseWacomIV13 (t : SerialTablet) (uLength : Nat) (pState : Option WacomState) :
    SerialTablet × Option WacomState × Int :=
  if uLength ≠ 7 then (t, pState, 1) else (t.packetIV13 d).report pState

/-- The values of the tilt, in the tablet or in a state copied to. -/
def setTiltValues (state : WacomState) : WacomState :=
  state.setValues [(.tiltX, tilt (d 7)), (.tiltY, tilt (d 8))]

def serialParseWacomIV14 (t : SerialTablet) (uLength : Nat) (pState : Option WacomState) :
    SerialTablet × Option WacomState × Int :=
  if uLength ≠ 7 ∧ uLength ≠ 9 then (t, pState, 1)
  else
    let (t, pState, failed) := serialParseWacomIV13 d t 7 pState
    if failed ≠ 0 then (t, pState, 1)
    else if uLength = 9 then
      ({ t with state := setTiltValues d t.state }, pState.map (setTiltValues d), 0)
    else (t, pState, 0)

/-- The pressure, by the minor version. -/
def pressure12 (nVerMinor : Int32) : Int32 :=
  if nVerMinor = 2 then pressureIV d
  else (int (d 6) &&& 0x3F) + if d 6 &&& 0x40 ≠ 0 then 0 else 64

/-- The tablet after a packet of `SerialParseWacomIV_1_2`. -/
def packetIV12 (t : SerialTablet) : SerialTablet :=
  if d 0 &&& 0x40 ≠ 0 then
    let press := pressure12 d t.nVerMinor
    if d 0 &&& 0x20 ≠ 0 then
      t.setSix 1 wacomToolTypePen (positionXIV d) (positionYIV d) press
        (bitIf (press > 10) wacomButtonTouch ||| bitIf (d 3 &&& 0x10 ≠ 0) wacomButtonStylus)
    else t.setSix 1 wacomToolTypeMouse (positionXIV d) (positionYIV d) press (mouseButtonIV d)
  else t.setSix 0 0 0 0 0 wacomToolTypeNone

def serialParseWacomIV12 (t : SerialTablet) (uLength : Nat) (pState : Option WacomState) :
    SerialTablet × Option WacomState × Int :=
  if uLength ≠ 7 then (t, pState, 1) else (t.packetIV12 d).report pState

end WacomIV

section TabletPC

variable (d : Memory)

/-- The tablet after a packet of `SerialParseTabletPC`. -/
def packetTabletPC (t : SerialTablet) : SerialTablet :=
  if d 0 &&& 0x20 ≠ 0 then
    let tool := if d 0 &&& 0x04 ≠ 0 then wacomToolTypeEraser else wacomToolTypePen
    let press := (int (d 6) &&& 0x01) <<< 7 ||| int (d 5) &&& 0x7F
    let touch := bitIf (d 0 &&& 0x01 ≠ 0) wacomButtonTouch
    let button :=
      if tool = wacomToolTypePen then
        touch ||| bitIf (d 0 &&& 0x02 ≠ 0) wacomButtonStylus |||
          bitIf (d 0 &&& 0x04 ≠ 0) wacomButtonStylus2
      else touch
    let x := (int (d 6) &&& 0x60) >>> 5 ||| int (d 2) <<< 2 ||| int (d 1) <<< 9
    let y := (int (d 6) &&& 0x18) >>> 3 ||| int (d 4) <<< 2 ||| int (d 3) <<< 9
    t.setSix 1 tool x y press button
  else t.setSix 0 wacomToolTypeNone 0 0 0 0

def serialParseTabletPC (t : SerialTablet) (uLength : Nat) (pState : Option WacomState) :
    SerialTablet × Option WacomState × Int :=
  if uLength ≠ 9 then (t, pState, 1) else (t.packetTabletPC d).report pState

end TabletPC

/-- A call of `pfnParse`. -/
def parse (t : SerialTablet) (parser : ParseFunc) (puchData : Memory) (uLength : Nat)
    (pState : Option WacomState) : SerialTablet × Option WacomState × Int :=
  match parser with
  | .serialParseWacomV => serialParseWacomV puchData t uLength pState
  | .serialParseWacomIV14 => serialParseWacomIV14 puchData t uLength pState
  | .serialParseWacomIV13 => serialParseWacomIV13 puchData t uLength pState
  | .serialParseWacomIV12 => serialParseWacomIV12 puchData t uLength pState
  | .serialParseTabletPC => serialParseTabletPC puchData t uLength pState

/-- The first byte has the high bit, and no other byte of the packet. -/
def Synchronised (puchData : Memory) (uLength : Nat) : Prop :=
  highBit (puchData 0) ∧ ¬ (bytesAt puchData 1 (uLength - 1)).any highBit

instance (puchData : Memory) (uLength : Nat) : Decidable (Synchronised puchData uLength) :=
  inferInstanceAs (Decidable (_ ∧ _))

/-- `SerialParseData`. -/
def serialParseData (t : SerialTablet) (puchData : Memory) (uLength : Nat)
    (pState : Option WacomState) : SerialTablet × Option WacomState × Int :=
  if ¬ Synchronised puchData uLength then
    ({ t with nBitErrors := t.nBitErrors + 1 }, pState, 1)
  else
    match t.pfnParse with
    | some parser => { t with nBitErrors := 0 }.parse parser puchData uLength pState
    | none => ({ t with nBitErrors := 0 }, pState, 1)

section Updates

/-- An out packet, after which nothing is known of the tool. -/
structure OutPacket (parser : ParseFunc) (d : Memory) (uLength : Nat) : Prop where
  wacomV : parser = .serialParseWacomV
  length : uLength = 9
  out : isOut (d 0)

/-- What a parser does with any other packet: nothing, or it sets values of fields, and
those of the tilt once more. -/
inductive Updates (d : Memory) (t : SerialTablet) (pState : Option WacomState) :
    SerialTablet × Option WacomState × Int → Prop where
  | nothing : Updates d t pState (t, pState, 1)
  | values (nToolID : Int32) (values : List (Field × Int32)) :
      Updates d t pState (({ t with nToolID := nToolID }.setValues values).report pState)
  | tilt (values : List (Field × Int32)) (h : ((t.setValues values).report pState).2.2 = 0) :
      Updates d t pState
        ({ t.setValues values with state := setTiltValues d (t.setValues values).state },
          ((t.setValues values).report pState).2.1.map (setTiltValues d), 0)

variable {d : Memory} {t : SerialTablet} {pState : Option WacomState} {uLength : Nat}

theorem report_fst (t : SerialTablet) (pState : Option WacomState) : (t.report pState).1 = t := by
  cases pState with
  | none => rfl
  | some dest => rfl

theorem report_result (t : SerialTablet) (pState : Option WacomState) :
    (t.report pState).2.2 = 0 ∨ (t.report pState).2.2 = 1 := by
  cases pState with
  | none => exact Or.inl rfl
  | some dest =>
      rw [report, wacomCopyState]
      split
      · exact Or.inr rfl
      · exact Or.inl rfl

/-- What is seen through one mask excludes what is not seen through both. -/
theorem and_ne_of_and_eq {b m₁ v₁ m₂ v₂ : UInt8} (hne : v₁ &&& m₂ ≠ v₂ &&& m₁)
    (h : b &&& m₁ = v₁) : b &&& m₂ ≠ v₂ := by
  rintro rfl
  apply hne
  rw [← h, UInt8.and_assoc, UInt8.and_assoc, UInt8.and_comm m₁]

theorem not_isIn_of_isOut {b : UInt8} (h : isOut b) : ¬ isIn b :=
  and_ne_of_and_eq (by decide) h

theorem parse_out {parser : ParseFunc} (h : OutPacket parser d uLength) :
    t.parse parser d uLength pState = t.packetOut.report pState := by
  obtain ⟨rfl, rfl, hout⟩ := h
  rw [parse]
  simp only [serialParseWacomV]
  rw [if_neg (by decide), if_neg (not_isIn_of_isOut hout), if_pos hout]

/-- With the tool identifier that is there. -/
theorem Updates.setValues (values : List (Field × Int32)) :
    Updates d t pState ((t.setValues values).report pState) :=
  .values t.nToolID values

theorem serialParseWacomV_updates (h : ¬ (uLength = 9 ∧ isOut (d 0))) :
    Updates d t pState (serialParseWacomV d t uLength pState) := by
  rw [serialParseWacomV]
  by_cases hlength : uLength ≠ 9
  · rw [if_pos hlength]
    exact .nothing
  · rw [if_neg hlength]
    split
    · exact .values _ _
    · rw [if_neg fun hout => h ⟨not_not.mp hlength, hout⟩]
      split
      · exact .setValues _
      · split
        · exact .setValues _
        · split
          · exact .setValues _
          · exact .nothing

theorem packetIV13_setValues (d : Memory) (t : SerialTablet) :
    ∃ values, packetIV13 d t = t.setValues values := by
  rw [packetIV13]
  split
  · exact ⟨_, rfl⟩
  · exact ⟨_, rfl⟩

theorem packetIV12_setValues (d : Memory) (t : SerialTablet) :
    ∃ values, packetIV12 d t = t.setValues values := by
  rw [packetIV12]
  split
  · simp only
    split
    · exact ⟨_, rfl⟩
    · exact ⟨_, rfl⟩
  · exact ⟨_, rfl⟩

theorem packetTabletPC_setValues (d : Memory) (t : SerialTablet) :
    ∃ values, packetTabletPC d t = t.setValues values := by
  rw [packetTabletPC]
  split
  · exact ⟨_, rfl⟩
  · exact ⟨_, rfl⟩

theorem serialParseWacomIV14_updates :
    Updates d t pState (serialParseWacomIV14 d t uLength pState) := by
  obtain ⟨values, hpacket⟩ := packetIV13_setValues d t
  rw [serialParseWacomIV14]
  split
  · exact .nothing
  · simp only [serialParseWacomIV13, ne_eq, not_true_eq_false, if_false, hpacket]
    have hfst := (t.setValues values).report_fst pState
    cases (t.setValues values).report_result pState with
    | inl hsuccess =>
        rw [if_neg (not_not_intro hsuccess)]
        split
        · rw [hfst]
          exact .tilt values hsuccess
        · have hreport : (((t.setValues values).report pState).1,
              ((t.setValues values).report pState).2.1, (0 : Int)) =
              (t.setValues values).report pState := by rw [← hsuccess]
          rw [hreport]
          exact .setValues values
    | inr hfailed =>
        have hreport : (((t.setValues values).report pState).1,
            ((t.setValues values).report pState).2.1, (1 : Int)) =
            (t.setValues values).report pState := by rw [← hfailed]
        rw [if_pos (by rw [hfailed]; decide), hreport]
        exact .setValues values

theorem parse_updates {parser : ParseFunc} (h : ¬ OutPacket parser d uLength) :
    Updates d t pState (t.parse parser d uLength pState) := by
  cases parser with
  | serialParseWacomV => exact serialParseWacomV_updates fun hout => h ⟨rfl, hout.1, hout.2⟩
  | serialParseWacomIV14 => exact serialParseWacomIV14_updates
  | serialParseWacomIV13 =>
      obtain ⟨values, hpacket⟩ := packetIV13_setValues d t
      simp only [parse, serialParseWacomIV13, hpacket]
      split
      · exact .nothing
      · exact .setValues values
  | serialParseWacomIV12 =>
      obtain ⟨values, hpacket⟩ := packetIV12_setValues d t
      simp only [parse, serialParseWacomIV12, hpacket]
      split
      · exact .nothing
      · exact .setValues values
  | serialParseTabletPC =>
      obtain ⟨values, hpacket⟩ := packetTabletPC_setValues d t
      simp only [parse, serialParseTabletPC, hpacket]
      split
      · exact .nothing
      · exact .setValues values

/-- A parser changes nothing of the handle but the tool and the state. -/
theorem parse_frame (t : SerialTablet) (parser : ParseFunc) (d : Memory) (uLength : Nat)
    (pState : Option WacomState) : ∃ nToolID state,
      (t.parse parser d uLength pState).1 = { t with nToolID := nToolID, state := state } := by
  by_cases hout : OutPacket parser d uLength
  · rw [parse_out hout, report_fst]
    exact ⟨_, _, rfl⟩
  · have hupdates : Updates d t pState (t.parse parser d uLength pState) := parse_updates hout
    generalize t.parse parser d uLength pState = result at hupdates ⊢
    cases hupdates with
    | nothing => exact ⟨t.nToolID, t.state, rfl⟩
    | values nToolID values =>
        rw [report_fst]
        exact ⟨_, _, rfl⟩
    | tilt values => exact ⟨t.nToolID, _, rfl⟩

end Updates

end SerialTablet

end AndroidX86Tv.Wacom
