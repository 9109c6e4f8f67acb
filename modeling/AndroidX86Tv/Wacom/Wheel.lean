import AndroidX86Tv.Lib.Insertion
import AndroidX86Tv.Wacom.Ranges

/-!
# Wheel packets (wacom/wacserial.c)

The second packet of an airbrush carries the wheel where a pen packet carries the
pressure. Both go through one branch of `SerialParseWacomV`, which sets the pressure,
the buttons and the wheel for either of them.
-/

namespace AndroidX86Tv.Wacom

open ByteMemory EventHistory InsertedInputs SerialTablet

/-- What `SerialParseWacomV` takes a packet for. -/
inductive PacketKind where
  | enters
  | leaves
  | pen
  | wheel
  | mouse
  | mouse2
  | rejected
  deriving DecidableEq

def kindOf (call : DataCall) : PacketKind :=
  if ¬ Synchronised call.puchData call.uLength ∨ call.uLength ≠ 9 then .rejected
  else if isIn (call.puchData 0) then .enters
  else if isOut (call.puchData 0) then .leaves
  else if isPen (call.puchData 0) then .pen
  else if isWheel (call.puchData 0) then .wheel
  else if isMouse (call.puchData 0) then .mouse
  else if isMouse2 (call.puchData 0) then .mouse2
  else .rejected

/-- The packets that are taken for wheel packets: no mask before lets one of them through. -/
theorem kindOf_wheel_iff {call : DataCall} : kindOf call = .wheel ↔
    Synchronised call.puchData call.uLength ∧ call.uLength = 9 ∧ isWheel (call.puchData 0) := by
  constructor
  · intro h
    rw [kindOf] at h
    split at h
    · cases h
    · next hwell =>
        obtain ⟨hsync, hlength⟩ := not_or.mp hwell
        refine ⟨not_not.mp hsync, not_not.mp hlength, ?_⟩
        by_contra hother
        rw [if_neg hother] at h
        repeat (split at h; cases h)
        cases h
  · rintro ⟨hsync, hlength, hwheel⟩
    have hin : ¬ isIn (call.puchData 0) := and_ne_of_and_eq (by decide) hwheel
    have hout : ¬ isOut (call.puchData 0) := and_ne_of_and_eq (by decide) hwheel
    have hpen : ¬ isPen (call.puchData 0) := and_ne_of_and_eq (by decide) hwheel
    rw [kindOf, if_neg (not_or.mpr ⟨not_not_intro hsync, not_not_intro hlength⟩), if_neg hin,
      if_neg hout, if_neg hpen, if_pos hwheel]

/-- The tool, and the values that pen packets and wheel packets are about. -/
structure Reported where
  nToolID : Int32
  press : Int32
  button : Int32
  wheel : Int32
  deriving DecidableEq

namespace Reported

/-- What a packet makes of them. -/
def step (r : Reported) (call : DataCall) : Reported :=
  match kindOf call with
  | .enters => { r with nToolID := toolId call.puchData }
  | .leaves => ⟨0, 0, 0, 0⟩
  | .pen => ⟨r.nToolID, tenBits call.puchData, penButtons call.puchData, 0⟩
  | .wheel => ⟨r.nToolID, 0, 0, tenBits call.puchData⟩
  | .mouse =>
      { r with button := mergeButtons r.button (mouseButton call.puchData r.nToolID) }
  | .mouse2 => r
  | .rejected => r

end Reported

namespace SerialTablet

def reported (t : SerialTablet) : Reported :=
  ⟨t.nToolID, t.state.value .pressure, t.state.value .buttons, t.state.value .absWheel⟩

section Refinement

variable {t : SerialTablet} {call : DataCall} {d : Memory}

/-- The values of the fields after they are set. -/
theorem reported_setValues (t : SerialTablet) (values : List (Field × Int32)) :
    (t.setValues values).reported =
      ⟨t.nToolID, (t.state.setValues values).value .pressure,
        (t.state.setValues values).value .buttons, (t.state.setValues values).value .absWheel⟩ :=
  rfl

theorem reported_packetIn :
    (t.packetIn d).reported = { t.reported with nToolID := toolId d } := by
  rw [packetIn, reported_setValues]
  simp [WacomState.setValues, reported]

theorem reported_packetOut (hcount : t.state.uValueCnt = wacomFieldMax) :
    t.packetOut.reported = ⟨0, 0, 0, 0⟩ := by
  simp only [reported, packetOut, WacomState.value_clearValues _ _ hcount]

theorem reported_packetPen (hpen : isPen (d 0)) :
    (t.packetPen d).reported = ⟨t.nToolID, tenBits d, penButtons d, 0⟩ := by
  rw [packetPen, reported_setValues]
  simp [WacomState.setValues, hpen]

/-- The branch that is shared sets the pressure and the buttons as well. -/
theorem reported_packetWheel (hpen : ¬ isPen (d 0)) :
    (t.packetPen d).reported = ⟨t.nToolID, 0, 0, tenBits d⟩ := by
  rw [packetPen, reported_setValues]
  simp [WacomState.setValues, hpen]

theorem reported_packetMouse :
    (t.packetMouse d).reported = { t.reported with
      button := mergeButtons t.reported.button (mouseButton d t.nToolID) } := by
  rw [packetMouse, reported_setValues]
  simp [WacomState.setValues, reported]

theorem reported_packetMouse2 : (t.packetMouse2 d).reported = t.reported := by
  rw [packetMouse2, reported_setValues]
  simp [WacomState.setValues, reported]

/-- What protocol V makes of a packet of the right length, by its kind. -/
theorem reported_serialParseWacomV (hcount : t.state.uValueCnt = wacomFieldMax)
    (hsync : Synchronised call.puchData call.uLength) (hlength : call.uLength = 9) :
    (serialParseWacomV call.puchData t call.uLength call.pState).1.reported =
      t.reported.step call := by
  have hwell : ¬ (¬ Synchronised call.puchData call.uLength ∨ call.uLength ≠ 9) :=
    not_or.mpr ⟨not_not_intro hsync, not_not_intro hlength⟩
  rw [serialParseWacomV, if_neg (not_not_intro hlength), Reported.step, kindOf, if_neg hwell]
  by_cases hin : isIn (call.puchData 0)
  · rw [if_pos hin, if_pos hin, report_fst]
    exact reported_packetIn
  · rw [if_neg hin, if_neg hin]
    by_cases hout : isOut (call.puchData 0)
    · rw [if_pos hout, if_pos hout, report_fst]
      exact reported_packetOut hcount
    · rw [if_neg hout, if_neg hout]
      by_cases hpen : isPen (call.puchData 0)
      · rw [if_pos (Or.inl hpen), if_pos hpen, report_fst]
        exact reported_packetPen hpen
      · rw [if_neg hpen]
        by_cases hwheel : isWheel (call.puchData 0)
        · rw [if_pos (Or.inr hwheel), if_pos hwheel, report_fst]
          exact reported_packetWheel hpen
        · rw [if_neg (not_or.mpr ⟨hpen, hwheel⟩), if_neg hwheel]
          by_cases hmouse : isMouse (call.puchData 0)
          · rw [if_pos hmouse, if_pos hmouse, report_fst]
            exact reported_packetMouse
          · rw [if_neg hmouse, if_neg hmouse]
            by_cases hmouse2 : isMouse2 (call.puchData 0)
            · rw [if_pos hmouse2, if_pos hmouse2, report_fst]
              exact reported_packetMouse2
            · rw [if_neg hmouse2, if_neg hmouse2]

/-- A packet of protocol V does to the tablet what is said of the values. -/
theorem reported_parseStep (hparser : t.pfnParse = some .serialParseWacomV)
    (hcount : t.state.uValueCnt = wacomFieldMax) :
    (t.parseStep call).reported = t.reported.step call := by
  rw [parseStep]
  by_cases hsync : Synchronised call.puchData call.uLength
  · rw [parsed_synchronised hsync hparser, parse]
    by_cases hlength : call.uLength = 9
    · exact reported_serialParseWacomV (t := { t with nBitErrors := 0 }) hcount hsync hlength
    · have hrejected : kindOf call = .rejected := if_pos (Or.inr hlength)
      rw [Reported.step, hrejected]
      simp only [serialParseWacomV]
      rw [if_pos hlength]
      rfl
  · have hrejected : kindOf call = .rejected := if_pos (Or.inl hsync)
    rw [parsed, serialParseData, if_pos hsync, Reported.step, hrejected]
    rfl

end Refinement

end SerialTablet

/-- What the latest wheel packet since the tool came in carried, after a packet. -/
def latestAfter (latest : Option Int32) (call : DataCall) : Option Int32 :=
  match kindOf call with
  | .enters => none
  | .leaves => none
  | .wheel => some (tenBits call.puchData)
  | _ => latest

def isWheelCall (call : DataCall) : Bool := kindOf call = .wheel

/-- The tablet, with what the latest wheel packet carried. -/
def trackStep (s : SerialTablet × Option Int32) (call : DataCall) : SerialTablet × Option Int32 :=
  (s.1.parseStep call, latestAfter s.2 call)

/-- The first reports the pressure and the buttons of the second, and the wheel of the latest
wheel packet. -/
structure ReportsAs (a b : SerialTablet × Option Int32) : Prop where
  pressure : a.1.state.value .pressure = b.1.state.value .pressure
  buttons : a.1.state.value .buttons = b.1.state.value .buttons
  wheel : ∀ x, a.2 = some x → a.1.state.value .absWheel = x

/-- Zero in the place of the pressure and the buttons does not show at the next packet that
is not a wheel packet. -/
def Restored (press button : Int32) : Option DataCall → Prop
  | none => press = 0 ∧ button = 0
  | some next =>
      match kindOf next with
      | .pen => True
      | .leaves => True
      -- not among the packets that are looked for
      | .wheel => True
      | .mouse => press = 0 ∧ button &&& ~~~mouseMask = 0
      | _ => press = 0 ∧ button = 0

/-- A wheel packet comes when there is no pressure or button to lose, and a pen packet when
there is no wheel to lose. -/
def Harmless (s : Reported × Option Int32) (call : DataCall) (rest : List DataCall) : Prop :=
  match kindOf call with
  | .wheel => Restored s.1.press s.1.button (rest.find? fun next => !isWheelCall next)
  | .pen => s.2.getD 0 = 0
  | _ => True

def reportedStep (s : Reported × Option Int32) (call : DataCall) : Reported × Option Int32 :=
  (s.1.step call, latestAfter s.2 call)

def HarmlessFrom : Reported × Option Int32 → List DataCall → Prop
  | _, [] => True
  | s, call :: rest => Harmless s call rest ∧ HarmlessFrom (reportedStep s call) rest

section Buttons

theorem bitIf_mouse {c : Prop} [Decidable c] {n : Int32}
    (hn : bit n &&& ~~~mouseMask = 0) : bitIf c n &&& ~~~mouseMask = 0 := by
  rw [bitIf]
  split
  · exact hn
  · exact Int32.zero_and

theorem or_and_right (a b c : Int32) : (a ||| b) &&& c = a &&& c ||| b &&& c :=
  Int32.toBitVec_inj.mp BitVec.and_or_distrib_right

/-- The buttons that a mouse packet does not carry stay. -/
theorem mergeButtons_others (old button : Int32) :
    mergeButtons old button &&& ~~~mouseMask = old &&& ~~~mouseMask := by
  have hself : old &&& ~~~mouseMask &&& ~~~mouseMask = old &&& ~~~mouseMask := by
    rw [Int32.and_assoc, Int32.and_self]
  rw [mergeButtons]
  simp only [or_and_right, hself, bitIf_mouse (n := wacomButtonLeft) (by decide),
    bitIf_mouse (n := wacomButtonMiddle) (by decide),
    bitIf_mouse (n := wacomButtonRight) (by decide),
    bitIf_mouse (n := wacomButtonExtra) (by decide),
    bitIf_mouse (n := wacomButtonSide) (by decide), Int32.or_zero]

/-- Buttons that were zeroed do not show after a mouse packet exactly if only buttons of a
mouse were. -/
theorem mergeButtons_zero_iff (old button : Int32) :
    mergeButtons 0 button = mergeButtons old button ↔ old &&& ~~~mouseMask = 0 := by
  constructor
  · intro h
    rw [← mergeButtons_others old button, ← h, mergeButtons_others, Int32.zero_and]
  · intro h
    simp only [mergeButtons, h, Int32.zero_and]

end Buttons

section Comparison

/-- The pressure and the buttons are the same. -/
structure SameKeys (a b : Reported) : Prop where
  press : a.press = b.press
  button : a.button = b.button

/-- The pressure and the buttons are the same after the next packet, if there is one. -/
def Catches (a b : Reported) : Option DataCall → Prop
  | none => SameKeys a b
  | some next => SameKeys (a.step next) (b.step next)

/-- `ReportsAs` for the values. -/
structure Agrees (a b : Reported × Option Int32) : Prop where
  keys : SameKeys a.1 b.1
  wheel : ∀ x, a.2 = some x → a.1.wheel = x

variable {a b z : Reported} {call : DataCall} {next : Option DataCall}

theorem step_nToolID (htool : a.nToolID = b.nToolID) (call : DataCall) :
    (a.step call).nToolID = (b.step call).nToolID := by
  rw [Reported.step, Reported.step]
  cases kindOf call with
  | enters => rfl
  | leaves => rfl
  | pen => exact htool
  | wheel => exact htool
  | mouse => exact htool
  | mouse2 => exact htool
  | rejected => exact htool

/-- A wheel packet leaves the tool. -/
theorem step_wheel (h : kindOf call = .wheel) :
    a.step call = ⟨a.nToolID, 0, 0, tenBits call.puchData⟩ := by
  rw [Reported.step, h]

theorem SameKeys.step (htool : a.nToolID = b.nToolID) (h : SameKeys a b) (call : DataCall) :
    SameKeys (a.step call) (b.step call) := by
  rw [Reported.step, Reported.step]
  cases kindOf call with
  | enters => exact ⟨h.press, h.button⟩
  | leaves => exact ⟨rfl, rfl⟩
  | pen => exact ⟨rfl, rfl⟩
  | wheel => exact ⟨rfl, rfl⟩
  | mouse => exact ⟨h.press, by rw [htool, h.button]⟩
  | mouse2 => exact h
  | rejected => exact h

theorem SameKeys.catches (htool : a.nToolID = b.nToolID) (h : SameKeys a b) :
    Catches a b next := by
  cases next with
  | none => exact h
  | some call => exact h.step htool call

theorem SameKeys.symm (h : SameKeys a b) : SameKeys b a := ⟨h.press.symm, h.button.symm⟩

theorem SameKeys.trans {c : Reported} (hab : SameKeys a b) (hbc : SameKeys b c) : SameKeys a c :=
  ⟨hab.press.trans hbc.press, hab.button.trans hbc.button⟩

theorem catches_congr (htool : z.nToolID = a.nToolID) (h : SameKeys z a) :
    Catches z b next ↔ Catches a b next := by
  cases next with
  | none => exact ⟨fun hz => h.symm.trans hz, fun ha => h.trans ha⟩
  | some call =>
      have hstep := h.step htool call
      exact ⟨fun hz => hstep.symm.trans hz, fun ha => hstep.trans ha⟩

/-- Zeros in the place of the pressure and the buttons. -/
theorem zero_sameKeys_iff (hpress : z.press = 0) (hbutton : z.button = 0) :
    SameKeys z b ↔ b.press = 0 ∧ b.button = 0 := by
  constructor
  · intro h
    exact ⟨h.press.symm.trans hpress, h.button.symm.trans hbutton⟩
  · intro h
    exact ⟨hpress.trans h.1.symm, hbutton.trans h.2.symm⟩

theorem zero_catches_iff (htool : z.nToolID = b.nToolID) (hpress : z.press = 0)
    (hbutton : z.button = 0) : Catches z b next ↔ Restored b.press b.button next := by
  cases next with
  | none => exact zero_sameKeys_iff hpress hbutton
  | some call =>
      rw [Catches, Reported.step, Reported.step, Restored]
      cases kindOf call with
      | enters => exact zero_sameKeys_iff hpress hbutton
      | leaves => exact iff_of_true ⟨rfl, rfl⟩ trivial
      | pen => exact iff_of_true ⟨rfl, rfl⟩ trivial
      | wheel => exact iff_of_true ⟨rfl, rfl⟩ trivial
      | mouse =>
          have hmouse := mergeButtons_zero_iff b.button (mouseButton call.puchData b.nToolID)
          simp only [htool, hbutton]
          rw [← hmouse]
          constructor
          · intro h
            exact ⟨h.press.symm.trans hpress, h.button⟩
          · intro h
            exact ⟨hpress.trans h.1.symm, h.2⟩
      | mouse2 => exact zero_sameKeys_iff hpress hbutton
      | rejected => exact zero_sameKeys_iff hpress hbutton

/-- With zeros the runs agree after the next packet exactly if they did without, and the zeros
do not show. -/
theorem zeroed_catches_iff (hsame : z.nToolID = a.nToolID) (htool : a.nToolID = b.nToolID)
    (hzero : z.press = 0 ∧ z.button = 0)
    (hkeys : SameKeys a b ∨ a.press = 0 ∧ a.button = 0) :
    Catches z b next ↔ Catches a b next ∧ Restored a.press a.button next := by
  cases hkeys with
  | inl hkeys =>
      rw [zero_catches_iff (hsame.trans htool) hzero.1 hzero.2, hkeys.press, hkeys.button]
      exact (and_iff_right (hkeys.catches htool)).symm
  | inr hnone =>
      have hagain : SameKeys z a := ⟨hzero.1.trans hnone.1.symm, hzero.2.trans hnone.2.symm⟩
      have hrestored : Restored a.press a.button next :=
        (zero_catches_iff rfl hnone.1 hnone.2).mp (SameKeys.catches rfl ⟨rfl, rfl⟩)
      rw [catches_congr hsame hagain]
      exact (and_iff_left hrestored).symm

/-- A packet that is not a wheel packet keeps the wheel that is due exactly if it is harmless. -/
theorem wheel_kept_iff {s : Reported × Option Int32} (hkind : kindOf call ≠ .wheel)
    (hwheel : ∀ x, s.2 = some x → s.1.wheel = x) (rest : List DataCall) :
    (∀ x, (reportedStep s call).2 = some x → (reportedStep s call).1.wheel = x) ↔
      Harmless s call rest := by
  rw [Harmless, reportedStep, Reported.step, latestAfter]
  cases hcall : kindOf call with
  | enters => exact iff_of_true (fun x hx => nomatch hx) trivial
  | leaves => exact iff_of_true (fun x hx => nomatch hx) trivial
  | pen =>
      cases s.2 with
      | none => exact iff_of_true (fun x hx => nomatch hx) rfl
      | some latest =>
          constructor
          · intro h
            exact (h latest rfl).symm
          · intro h x hx
            exact h.symm.trans (Option.some.inj hx)
  | wheel => exact absurd hcall hkind
  | mouse => exact iff_of_true hwheel trivial
  | mouse2 => exact iff_of_true hwheel trivial
  | rejected => exact iff_of_true hwheel trivial

/-- The runs agree exactly if what was taken away before does not show, and every packet is
harmless. By induction on the packets: either the keys are the same, or a wheel packet has
just zeroed those of the first run. -/
theorem agreesFrom_iff {s u : Reported × Option Int32} {calls : List DataCall}
    (htool : s.1.nToolID = u.1.nToolID) (hwheel : ∀ x, s.2 = some x → s.1.wheel = x)
    (hkeys : SameKeys s.1 u.1 ∨ s.1.press = 0 ∧ s.1.button = 0) :
    AgreesFrom reportedStep isWheelCall Agrees s u calls ↔
      Catches s.1 u.1 (calls.find? fun next => !isWheelCall next) ∧ HarmlessFrom s calls := by
  induction calls generalizing s u with
  | nil => exact ⟨fun h => ⟨h.keys, trivial⟩, fun h => ⟨h.1, hwheel⟩⟩
  | cons call calls ih =>
      cases hcall : isWheelCall call with
      | true =>
          have hkind : kindOf call = .wheel := of_decide_eq_true hcall
          have hstep : (reportedStep s call).1 = ⟨s.1.nToolID, 0, 0, tenBits call.puchData⟩ :=
            step_wheel hkind
          have hlatest : (reportedStep s call).2 = some (tenBits call.puchData) := by
            rw [reportedStep, latestAfter, hkind]
          have hzero : (reportedStep s call).1.press = 0 ∧ (reportedStep s call).1.button = 0 := by
            rw [hstep]
            exact ⟨rfl, rfl⟩
          have hsameTool : (reportedStep s call).1.nToolID = s.1.nToolID := by rw [hstep]
          have hharmless : Harmless s call calls ↔
              Restored s.1.press s.1.button (calls.find? fun next => !isWheelCall next) := by
            rw [Harmless, hkind]
          rw [agreesFrom_inserted hcall, ih (hsameTool.trans htool)
            (fun x hx => by rw [hlatest] at hx; rw [hstep]; exact Option.some.inj hx)
            (Or.inr hzero), List.find?_cons_of_neg (by rw [hcall]; decide), HarmlessFrom,
            hharmless, ← and_assoc]
          apply and_congr_left
          intro _
          exact zeroed_catches_iff hsameTool htool hzero hkeys
      | false =>
          have hkind : kindOf call ≠ .wheel := of_decide_eq_false hcall
          have htool' := step_nToolID htool call
          rw [agreesFrom_other hcall, List.find?_cons_of_pos (by rw [hcall]; rfl), HarmlessFrom,
            ← wheel_kept_iff hkind hwheel calls]
          constructor
          · rintro ⟨hagrees, hrest⟩
            have hnext := (ih htool' hagrees.wheel (Or.inl hagrees.keys)).mp hrest
            exact ⟨hagrees.keys, hagrees.wheel, hnext.2⟩
          · rintro ⟨hcatches, hkept, hrest⟩
            have hsame : SameKeys (reportedStep s call).1 (reportedStep u call).1 := hcatches
            refine ⟨⟨hsame, hkept⟩, (ih htool' hkept (Or.inl hsame)).mpr ⟨?_, hrest⟩⟩
            exact hsame.catches htool'

end Comparison

section Runs

variable {t : SerialTablet}

/-- A tablet of protocol V reports the pressure and the buttons as without the wheel packets,
and the wheel of the latest of them, exactly if no wheel packet comes while there is a
pressure or a button that the next packet does not replace, and no pen packet while there is
a wheel. -/
theorem wheel_iff (hparser : t.pfnParse = some .serialParseWacomV)
    (hcount : t.state.uValueCnt = wacomFieldMax) (calls : List DataCall) :
    AgreesThroughout trackStep isWheelCall ReportsAs (t, none) (t, none) calls ↔
      HarmlessFrom (t.reported, none) calls := by
  have hsame : SameKeys t.reported t.reported := ⟨rfl, rfl⟩
  have hnone : ∀ x : Int32, none = some x → t.reported.wheel = x := fun x hx => nomatch hx
  rw [agreesThroughout_iff,
    agreesFrom_abstract (fun s => (s.1.reported, s.2)) reportedStep Agrees
      (fun s => ParsesLike t s.1) ?_ ?_ ?_ ⟨rfl, hcount⟩ ⟨rfl, hcount⟩,
    agreesFrom_iff (s := (t.reported, none)) rfl hnone (Or.inl hsame)]
  · exact and_iff_right (hsame.catches rfl)
  · intro s call h
    exact h.step call
  · intro s call h
    rw [trackStep, reportedStep, reported_parseStep (h.parser.trans hparser) h.count]
  · intro a b
    constructor
    · intro h
      exact ⟨⟨h.pressure, h.buttons⟩, h.wheel⟩
    · intro h
      exact ⟨h.keys.press, h.keys.button, h.wheel⟩

/-- An airbrush comes in, and its wheel is turned. -/
def wheelPackets : List DataCall :=
  [packetV [0xC0, 0x08, 0x48], packetV [0xB4, 0, 0, 0, 0, 0, 5]]

theorem intuos_wacomV : intuos.pfnParse = some .serialParseWacomV := by decide +kernel

theorem intuos_count : intuos.state.uValueCnt = wacomFieldMax := (open_state open_intuos).1

theorem wheel_iff_airbrush :
    AgreesThroughout trackStep isWheelCall ReportsAs (intuos, none) (intuos, none)
      wheelPackets := by
  apply (wheel_iff intuos_wacomV intuos_count wheelPackets).mpr
  have henters : kindOf (packetV [0xC0, 0x08, 0x48]) = .enters := by decide +kernel
  have hwheel : kindOf (packetV [0xB4, 0, 0, 0, 0, 0, 5]) = .wheel := by decide +kernel
  refine ⟨?_, ?_, trivial⟩
  · rw [Harmless, henters]
    trivial
  · rw [Harmless, hwheel]
    exact ⟨by decide +kernel, by decide +kernel⟩

/-- The same with pressure on the pen when the wheel packet comes. -/
def pressedPackets : List DataCall :=
  [packetV [0xC0, 0x08, 0x48], packetV [0xA0, 0, 0, 0, 0, 0, 0x7F],
    packetV [0xB4, 0, 0, 0, 0, 0, 5]]

/-- A wheel packet takes the pressure and the buttons away. -/
theorem not_wheel : ¬ ∀ t : SerialTablet, t.pfnParse = some .serialParseWacomV →
    t.state.uValueCnt = wacomFieldMax → ∀ calls : List DataCall,
      AgreesThroughout trackStep isWheelCall ReportsAs (t, none) (t, none) calls := by
  intro h
  have hend := h intuos intuos_wacomV intuos_count pressedPackets pressedPackets []
    (List.append_nil _).symm (Or.inl rfl)
  exact absurd hend.pressure (by decide +kernel)

end Runs

end AndroidX86Tv.Wacom
