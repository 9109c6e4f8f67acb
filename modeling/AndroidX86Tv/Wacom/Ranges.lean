import AndroidX86Tv.Lib.History
import AndroidX86Tv.Wacom.Parsers

/-!
# The ranges of the fields (wacom/wacserial.c)

A packet changes the values of fields and not their ranges, but for the out packet of
protocol V: `SerialParseWacomV` clears the values with `memset`, which takes the ranges
with them.
-/

namespace AndroidX86Tv.Wacom

open ByteMemory EventHistory

/-- A call of `SerialParseData`. -/
structure DataCall where
  puchData : Memory
  uLength : Nat
  pState : Option WacomState

namespace SerialTablet

/-- A call of `SerialParseData`, with all that it returns. -/
def parsed (t : SerialTablet) (call : DataCall) : SerialTablet × Option WacomState × Int :=
  t.serialParseData call.puchData call.uLength call.pState

def parseStep (t : SerialTablet) (call : DataCall) : SerialTablet := (t.parsed call).1

/-- The call is given a well-formed out packet of protocol V. -/
def TakesOut (pfnParse : Option ParseFunc) (call : DataCall) : Prop :=
  ∃ parser, pfnParse = some parser ∧ Synchronised call.puchData call.uLength ∧
    OutPacket parser call.puchData call.uLength

section Values

variable (s : WacomState) (values : List (Field × Int32))

theorem setValues_ranges : (s.setValues values).ranges = s.ranges := by
  rw [WacomState.setValues]
  induction values generalizing s with
  | nil => rfl
  | cons v values ih => rw [List.foldl_cons, ih, WacomState.ranges_setValue]

theorem setValues_count : (s.setValues values).uValueCnt = s.uValueCnt := by
  rw [WacomState.setValues]
  induction values generalizing s with
  | nil => rfl
  | cons v values ih => rw [List.foldl_cons, ih, WacomState.setValue_uValueCnt]

end Values

section Parsing

variable {t : SerialTablet} {parser : ParseFunc} {d : Memory} {uLength : Nat}
  {pState : Option WacomState}

theorem packetOut_ranges (hcount : t.state.uValueCnt = wacomFieldMax) :
    t.packetOut.state.ranges = fun _ => (0, 0) :=
  t.state.ranges_clearValues hcount

/-- Any other packet leaves the ranges as they are. -/
theorem Updates.ranges {result : SerialTablet × Option WacomState × Int}
    (h : Updates d t pState result) :
    result.1.state.ranges = t.state.ranges ∧ result.1.state.uValueCnt = t.state.uValueCnt := by
  cases h with
  | nothing => exact ⟨rfl, rfl⟩
  | values nToolID values =>
      rw [report_fst]
      exact ⟨setValues_ranges _ _, setValues_count _ _⟩
  | tilt values =>
      constructor
      · exact (setValues_ranges _ _).trans (setValues_ranges _ _)
      · exact (setValues_count _ _).trans (setValues_count _ _)

/-- What `WacomCopyState` copied has the ranges of the tablet. -/
theorem report_ranges (hcount : t.state.uValueCnt = wacomFieldMax) {dest : WacomState}
    (h : (t.report (some dest)).2.2 = 0) :
    ∃ copied, (t.report (some dest)).2.1 = some copied ∧
      ∀ f : Field, f.index < dest.uValueCnt → copied.ranges f = t.state.ranges f := by
  refine ⟨_, rfl, fun f hf => ?_⟩
  rw [report, wacomCopyState] at h
  split at h
  · cases h
  · next hnonzero =>
      rw [wacomCopyState, if_neg hnonzero]
      have hlt := f.index_lt
      simp only [WacomState.ranges]
      rw [if_pos (by omega)]

/-- A state that a parser copies to. -/
theorem parse_copied (hcount : t.state.uValueCnt = wacomFieldMax) {dest : WacomState}
    (h : (t.parse parser d uLength (some dest)).2.2 = 0) :
    ∃ copied, (t.parse parser d uLength (some dest)).2.1 = some copied ∧
      ∀ f : Field, f.index < dest.uValueCnt →
        copied.ranges f = (t.parse parser d uLength (some dest)).1.state.ranges f := by
  by_cases hout : OutPacket parser d uLength
  · rw [parse_out hout] at h ⊢
    rw [report_fst]
    exact report_ranges (t := t.packetOut) hcount h
  · have hupdates : Updates d t (some dest) (t.parse parser d uLength (some dest)) :=
      parse_updates hout
    generalize t.parse parser d uLength (some dest) = result at h hupdates ⊢
    cases hupdates with
    | nothing => cases h
    | values nToolID values =>
        rw [report_fst]
        exact report_ranges ((setValues_count _ _).trans hcount) h
    | tilt values hreport =>
        obtain ⟨copied, hcopied, hranges⟩ :=
          report_ranges ((setValues_count t.state values).trans hcount) hreport
        refine ⟨setTiltValues d copied, by rw [hcopied]; rfl, fun f hf => ?_⟩
        rw [setTiltValues, setTiltValues, setValues_ranges, setValues_ranges]
        exact hranges f hf

end Parsing

section Steps

variable {t : SerialTablet} {call : DataCall}

theorem parsed_synchronised {parser : ParseFunc}
    (hsync : Synchronised call.puchData call.uLength) (hparser : t.pfnParse = some parser) :
    t.parsed call =
      { t with nBitErrors := 0 }.parse parser call.puchData call.uLength call.pState := by
  rw [parsed, serialParseData, if_neg (not_not_intro hsync)]
  split
  · next other hother =>
      cases hparser.symm.trans hother
      rfl
  · next hnone => cases hparser.symm.trans hnone

/-- A call gives nothing, or what the parser gives. -/
theorem parsed_cases (t : SerialTablet) (call : DataCall) :
    (∃ nBitErrors, t.parsed call = ({ t with nBitErrors := nBitErrors }, call.pState, 1)) ∧
        ¬ TakesOut t.pfnParse call ∨
      ∃ parser, t.pfnParse = some parser ∧ Synchronised call.puchData call.uLength ∧
        t.parsed call =
          { t with nBitErrors := 0 }.parse parser call.puchData call.uLength call.pState := by
  by_cases hsync : Synchronised call.puchData call.uLength
  · cases Option.eq_none_or_eq_some t.pfnParse with
    | inl hnone =>
        rw [parsed, serialParseData, if_neg (not_not_intro hsync)]
        simp only [hnone]
        refine Or.inl ⟨⟨0, rfl⟩, ?_⟩
        rintro ⟨parser, hsome, -⟩
        cases hsome
    | inr hsome =>
        obtain ⟨parser, hparser⟩ := hsome
        exact Or.inr ⟨parser, hparser, hsync, parsed_synchronised hsync hparser⟩
  · rw [parsed, serialParseData, if_pos hsync]
    refine Or.inl ⟨⟨_, rfl⟩, ?_⟩
    rintro ⟨parser, -, hother, -⟩
    exact hsync hother

theorem parseStep_pfnParse (t : SerialTablet) (call : DataCall) :
    (t.parseStep call).pfnParse = t.pfnParse := by
  rw [parseStep]
  cases t.parsed_cases call with
  | inl hnothing =>
      obtain ⟨⟨nBitErrors, heq⟩, -⟩ := hnothing
      rw [heq]
  | inr hparse =>
      obtain ⟨parser, -, -, heq⟩ := hparse
      obtain ⟨nToolID, state, hframe⟩ := parse_frame { t with nBitErrors := 0 } parser
        call.puchData call.uLength call.pState
      rw [heq, hframe]

theorem parseStep_ranges (h : ¬ TakesOut t.pfnParse call) :
    (t.parseStep call).state.ranges = t.state.ranges ∧
      (t.parseStep call).state.uValueCnt = t.state.uValueCnt := by
  rw [parseStep]
  cases t.parsed_cases call with
  | inl hnothing =>
      obtain ⟨⟨nBitErrors, heq⟩, -⟩ := hnothing
      rw [heq]
      exact ⟨rfl, rfl⟩
  | inr hparse =>
      obtain ⟨parser, hparser, hsync, heq⟩ := hparse
      rw [heq]
      exact (parse_updates fun hout => h ⟨parser, hparser, hsync, hout⟩).ranges

theorem parseStep_out (h : TakesOut t.pfnParse call) (hcount : t.state.uValueCnt = wacomFieldMax) :
    (t.parseStep call).state.ranges = (fun _ => (0, 0)) ∧
      (t.parseStep call).state.uValueCnt = wacomFieldMax := by
  rw [parseStep]
  cases t.parsed_cases call with
  | inl hnothing => exact absurd h hnothing.2
  | inr hparse =>
      obtain ⟨parser, hparser, -, heq⟩ := hparse
      obtain ⟨other, hother, -, hout⟩ := h
      cases hother.symm.trans hparser
      rw [heq, parse_out hout, report_fst]
      exact ⟨packetOut_ranges hcount, hcount⟩

/-- A state that is copied out has the ranges of the tablet. -/
theorem parsed_copied (hcount : t.state.uValueCnt = wacomFieldMax) {dest : WacomState}
    (hdest : call.pState = some dest) (hsuccess : (t.parsed call).2.2 = 0) :
    ∃ copied, (t.parsed call).2.1 = some copied ∧
      ∀ f : Field, f.index < dest.uValueCnt →
        copied.ranges f = (t.parseStep call).state.ranges f := by
  rw [parseStep]
  cases t.parsed_cases call with
  | inl hnothing =>
      obtain ⟨⟨nBitErrors, heq⟩, -⟩ := hnothing
      rw [heq] at hsuccess
      cases hsuccess
  | inr hparse =>
      obtain ⟨parser, -, -, heq⟩ := hparse
      rw [heq, hdest] at hsuccess ⊢
      exact parse_copied (t := { t with nBitErrors := 0 }) hcount hsuccess

end Steps

/-- The ranges stay as they are, in the tablet and in the states that are copied out. -/
structure RangesKept (t : SerialTablet) (calls : List DataCall) : Prop where
  tablet : ∀ before after, calls = before ++ after →
    (run parseStep t before).state.ranges = t.state.ranges
  copied : ∀ before call after dest, calls = before ++ call :: after → call.pState = some dest →
    ((run parseStep t before).parsed call).2.2 = 0 →
      ∃ copied, ((run parseStep t before).parsed call).2.1 = some copied ∧
        ∀ f : Field, f.index < dest.uValueCnt → copied.ranges f = t.state.ranges f

section Runs

variable {pModel : Option WacomModel} {line : Line} {t : SerialTablet}

/-- What an open handle starts from. -/
theorem open_state (h : wacomOpenSerialTablet pModel line = some t) :
    t.state.uValueCnt = wacomFieldMax ∧
      (t.pfnParse = some .serialParseWacomV → (t.state.values .pressure).nMax = 1023) := by
  obtain ⟨identified, chosen, line', line'', hran⟩ := open_ran h
  obtain ⟨pVendor, pDevice, pSubType, -, hset⟩ := hran.found
  have hchosen := serialSetDevice_eq hset
  have hident := chosen.ident_frame line'
  have hinit := identified.init_frame line''
  rw [hran.identifies] at hident
  rw [hran.initialises.1] at hinit
  constructor
  · rw [hinit.count, hident.count, hchosen]
    rfl
  · intro hparser
    cases hinit.pressure hparser with
    | inl hbefore =>
        rw [hident.parser, hchosen] at hbefore
        cases hbefore
    | inr hpressure => exact hpressure

/-- What every handle of a run has in common with the first. -/
structure ParsesLike (t s : SerialTablet) : Prop where
  parser : s.pfnParse = t.pfnParse
  count : s.state.uValueCnt = wacomFieldMax

theorem ParsesLike.step {s : SerialTablet} (h : ParsesLike t s) (call : DataCall) :
    ParsesLike t (s.parseStep call) := by
  refine ⟨(s.parseStep_pfnParse call).trans h.parser, ?_⟩
  by_cases hout : TakesOut s.pfnParse call
  · exact (parseStep_out hout h.count).2
  · exact (parseStep_ranges hout).2.trans h.count

/-- An out packet takes away a range that the opening established. -/
theorem parseStep_ranges_iff {s : SerialTablet} (h : ParsesLike t s)
    (hpressure : t.pfnParse = some .serialParseWacomV → (t.state.values .pressure).nMax = 1023)
    (hranges : s.state.ranges = t.state.ranges) (call : DataCall) :
    (s.parseStep call).state.ranges = t.state.ranges ↔ ¬ TakesOut t.pfnParse call := by
  rw [← h.parser]
  constructor
  · intro hkept hout
    obtain ⟨parser, hsome, -, hpacket⟩ := id hout
    have hmax := hpressure (by rw [← h.parser, hsome, hpacket.wacomV])
    have hzero := congrFun ((parseStep_out hout h.count).1.symm.trans hkept) .pressure
    have hnMax : (0 : Int32) = (t.state.values .pressure).nMax := congrArg Prod.snd hzero
    rw [hmax] at hnMax
    exact absurd hnMax (by decide)
  · intro hout
    exact (parseStep_ranges hout).1.trans hranges

/-- After an opening the ranges stay as they are exactly if no out packet of protocol V is
taken. -/
theorem ranges_kept_iff (hopen : wacomOpenSerialTablet pModel line = some t)
    (calls : List DataCall) :
    RangesKept t calls ↔ ∀ call ∈ calls, ¬ TakesOut t.pfnParse call := by
  obtain ⟨hcount, hpressure⟩ := open_state hopen
  have htablet : (∀ before after, calls = before ++ after →
      (run parseStep t before).state.ranges = t.state.ranges) ↔
        ∀ call ∈ calls, ¬ TakesOut t.pfnParse call := by
    rw [← allSteps_forall parseStep t calls]
    exact always_iff_allSteps (fun s => s.state.ranges = t.state.ranges) (ParsesLike t)
      (fun s call h => h.step call)
      (fun s call h hranges => parseStep_ranges_iff h hpressure hranges call) ⟨rfl, hcount⟩ rfl
      calls
  refine ⟨fun h => htablet.mp h.tablet, fun h => ⟨htablet.mpr h, ?_⟩⟩
  rintro before call after dest rfl hdest hsuccess
  have hreached : ParsesLike t (run parseStep t before) :=
    run_invariant (fun s call h => h.step call) ⟨rfl, hcount⟩ before
  obtain ⟨copied, hcopied, hranges⟩ := parsed_copied hreached.count hdest hsuccess
  refine ⟨copied, hcopied, fun f hf => ?_⟩
  have hnext := htablet.mpr h (before ++ [call]) after (List.append_cons before call after)
  rw [run_append] at hnext
  rw [hranges f hf]
  exact congrFun hnext f

/-- The line of an Intuos. -/
def intuosLine : Line :=
  answeringLine [3, 2, 3, 2, 3, 2, 4, 3, 3, 12, 3] "~#GD-0608-R00,V1.2-5\r~C20320,16240\r"

theorem intuos_opens : (wacomOpenSerialTablet none intuosLine).isSome = true := by
  decide +kernel

def intuos : SerialTablet := (wacomOpenSerialTablet none intuosLine).get intuos_opens

theorem open_intuos : wacomOpenSerialTablet none intuosLine = some intuos :=
  (Option.some_get intuos_opens).symm

/-- A packet of protocol V that begins with the bytes, and has zeros after them. -/
def packetV (bytes : List UInt8) : DataCall := ⟨ofBytes bytes, 9, none⟩

/-- A tool comes in and is moved. -/
theorem ranges_kept_in_pen : RangesKept intuos [packetV [0xC0], packetV [0xA0]] := by
  apply (ranges_kept_iff open_intuos [packetV [0xC0], packetV [0xA0]]).mpr
  intro call hcall
  rintro ⟨parser, -, -, hpacket⟩
  have hout := hpacket.out
  simp only [List.mem_cons, List.not_mem_nil, or_false] at hcall
  cases hcall with
  | inl hin => rw [hin] at hout; exact absurd hout (by decide)
  | inr hpen => rw [hpen] at hout; exact absurd hout (by decide)

/-- A tool that goes out takes the ranges with it. -/
theorem not_ranges_kept :
    ¬ ∀ (pModel : Option WacomModel) (line : Line) (t : SerialTablet),
      wacomOpenSerialTablet pModel line = some t → ∀ calls : List DataCall,
        RangesKept t calls := by
  intro h
  have hkept :=
    (h none intuosLine intuos open_intuos [packetV [0x80]]).tablet [packetV [0x80]] [] rfl
  have hpressure := congrFun hkept .pressure
  exact absurd hpressure (by decide +kernel)

end Runs

end SerialTablet

end AndroidX86Tv.Wacom
