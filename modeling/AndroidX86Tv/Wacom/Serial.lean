import AndroidX86Tv.Lib.Framing
import AndroidX86Tv.Lib.Memory
import Mathlib.Algebra.Ring.Nat
import Mathlib.Logic.Function.Iterate

/-!
# Packets from a serial tablet (wacom/wacserial.c, wacom/wacom-input.c)

A packet starts with a byte that has the high bit set, and no other byte of it has.
`SerialReadRaw` fills a buffer from the serial line and discards what comes before
such a byte, `SerialParseData` checks the packet and hands it to the parser of the
protocol, and wacom-input's main loop calls the one and then the other.

## Implementation notes

`nBitErrors`, an `int`, is a natural number. What the parser does to the state of the
tablet is left out; the calls of it are recorded.
-/

namespace AndroidX86Tv.Wacom

open ByteMemory StreamFraming

/-- What a turn of the loop meets: bytes that are there to be read, a `select` that
times out or fails, or a `read` that fails. -/
inductive Turn where
  | data (bytes : List UInt8)
  | timeout
  | failure

def Turn.weight : Turn → Nat
  | data bytes => bytes.length + 1
  | timeout => 1
  | failure => 1

/-- The line after a `read` that left bytes unread. -/
def putBack (bytes : List UInt8) (port : List Turn) : List Turn :=
  if bytes = [] then port else .data bytes :: port

/-- A parser of one protocol (`PARSEFUNC`), by the number it returns. -/
abbrev Parser := List UInt8 → Int

/-- The tablet. The tables of devices and `SerialInitWacom` give packets of 7 or 9 bytes. -/
structure Serial where
  uPacketLength : Nat
  positive : 0 < uPacketLength
  fits : uPacketLength ≤ 64
  nBitErrors : Nat
  pfnParse : Option Parser
  port : List Turn
  /-- The packets that the parser was called with. -/
  parsed : List (List UInt8)

def highBit (b : UInt8) : Bool := b &&& 0x80 ≠ 0

/-- The offset of the first byte with the high bit between `puchData` and `pEnd`, or
that of `pEnd`. -/
def pPos (puchData : Memory) (nXfer : Nat) : Nat := (bytesAt puchData 0 nXfer).findIdx highBit

def memmove (m : Memory) (dest src n : Nat) : Memory := store m dest (bytesAt m src n)

/-- What the loop of `SerialReadRaw` leaves. -/
structure Filled where
  returned : Int
  puchData : Memory
  nBitErrors : Nat
  port : List Turn

/-- A `read` of some of the bytes leaves less on the line. -/
theorem weight_putBack_lt {bytes : List UInt8} {n : Nat} (h : bytes.take n ≠ [])
    (port : List Turn) :
    ((putBack (bytes.drop n) port).map Turn.weight).sum <
      ((Turn.data bytes :: port).map Turn.weight).sum := by
  have hsplit := congrArg List.length (List.take_append_drop n bytes)
  have hpos := List.length_pos_of_ne_nil h
  rw [List.length_append] at hsplit
  rw [putBack]
  split
  · simp only [List.map_cons, List.sum_cons, Turn.weight]
    omega
  · simp only [List.map_cons, List.sum_cons, Turn.weight]
    omega

/-- The loop of `SerialReadRaw`, from a turn with `uCnt` bytes in the buffer on. -/
def fill (uPacketLength : Nat) (puchData : Memory) (nBitErrors uCnt : Nat) (port : List Turn) :
    Filled :=
  if uCnt < uPacketLength then
    match port with
    | [] => ⟨-1, puchData, nBitErrors, []⟩
    | .timeout :: port => ⟨-1, puchData, nBitErrors, port⟩
    | .failure :: port => ⟨-1, puchData, nBitErrors, port⟩
    | .data bytes :: port =>
        let got := bytes.take (uPacketLength - uCnt)
        if got = [] then ⟨0, puchData, nBitErrors, port⟩
        else
          let left := putBack (bytes.drop (uPacketLength - uCnt)) port
          let puchData := store puchData uCnt got
          let nXfer := got.length
          let off := pPos puchData nXfer
          if off ≠ 0 then
            fill uPacketLength (memmove puchData 0 off (nXfer - off)) (nBitErrors + 1)
              (uCnt + (nXfer - off)) left
          else fill uPacketLength puchData nBitErrors (uCnt + nXfer) left
  else ⟨uCnt, puchData, nBitErrors, port⟩
termination_by (port.map Turn.weight).sum
decreasing_by all_goals exact weight_putBack_lt (by assumption) _

/-- The tablet after the loop. -/
def Serial.afterFill (s : Serial) (filled : Filled) : Serial :=
  { s with nBitErrors := filled.nBitErrors, port := filled.port }

/-- `SerialReadRaw`: the tablet, the buffer and the number returned. -/
def serialReadRaw (reset : Serial → Serial) (s : Serial) (puchData : Memory) (uSize : Nat) :
    Serial × Memory × Int :=
  if uSize < s.uPacketLength then (s, puchData, 0)
  else
    let s' := if s.nBitErrors > 3 then reset { s with nBitErrors := 0 } else s
    let filled := fill s.uPacketLength puchData s'.nBitErrors 0 s'.port
    (s'.afterFill filled, filled.puchData, filled.returned)

/-- `SerialParseData`: the tablet and the number returned. -/
def serialParseData (s : Serial) (puchData : Memory) (uLength : Nat) : Serial × Int :=
  if ¬ highBit (puchData 0) then ({ s with nBitErrors := s.nBitErrors + 1 }, 1)
  else if (bytesAt puchData 1 (uLength - 1)).any highBit then
    ({ s with nBitErrors := s.nBitErrors + 1 }, 1)
  else
    match s.pfnParse with
    | some parse =>
        ({ s with nBitErrors := 0, parsed := s.parsed ++ [bytesAt puchData 0 uLength] },
          parse (bytesAt puchData 0 uLength))
    | none => ({ s with nBitErrors := 0 }, 1)

/-- What wacom-input's main loop works on. -/
structure WacomInput where
  tablet : Serial
  uchBuf : Memory

/-- `sizeof(uchBuf)`. -/
def sizeofUchBuf : Nat := 64

/-- One pass of the main loop, up to what it reports. -/
def WacomInput.pass (reset : Serial → Serial) (w : WacomInput) : WacomInput :=
  let (tablet, uchBuf, nLength) := serialReadRaw reset w.tablet w.uchBuf sizeofUchBuf
  if nLength < 0 then ⟨tablet, uchBuf⟩
  else ⟨(serialParseData tablet uchBuf nLength.toNat).1, uchBuf⟩

/-- The line gives the bytes in chunks of at least one byte. -/
inductive Feeds : List Turn → List UInt8 → Prop
  | done : Feeds [] []
  | chunk {bytes rest : List UInt8} {port : List Turn} (hbytes : bytes ≠ [])
      (hport : Feeds port rest) : Feeds (.data bytes :: port) (bytes ++ rest)

theorem Feeds.putBack {rest : List UInt8} {port : List Turn} (h : Feeds port rest)
    (bytes : List UInt8) : Feeds (putBack bytes port) (bytes ++ rest) := by
  rw [Wacom.putBack]
  split
  · next hnil => rwa [hnil, List.nil_append]
  · next hne => exact .chunk hne h

theorem pPos_eq {puchData : Memory} {bytes : List UInt8} (h : Holds puchData 0 bytes) {n : Nat}
    (hn : n ≤ bytes.length) : pPos puchData n = (bytes.take n).findIdx highBit := by
  have hbytes := (h.take n).bytesAt_eq
  rw [List.length_take_of_le hn] at hbytes
  rw [pPos, hbytes]

/-- After `memmove` the bytes from the offset on stand at the start. -/
theorem holds_memmove {puchData : Memory} {bytes : List UInt8} (h : Holds puchData 0 bytes)
    {off : Nat} (hoff : off ≤ bytes.length) :
    Holds (memmove puchData 0 off (bytes.length - off)) 0 (bytes.drop off) := by
  have hdrop := (h.drop hoff).bytesAt_eq
  rw [List.length_drop, Nat.zero_add] at hdrop
  rw [memmove, hdrop]
  exact holds_store _ _ _

theorem holds_store_append {puchData : Memory} {kept : List UInt8} (hkept : Holds puchData 0 kept)
    (got : List UInt8) : Holds (store puchData kept.length got) 0 (kept ++ got) := by
  rw [holds_append, Nat.zero_add]
  exact ⟨hkept.store (Or.inr (by omega)), holds_store _ _ _⟩

/-- With a high bit at the start of the buffer the scan stops there. -/
theorem pPos_store_append {puchData : Memory} {a : UInt8} {rest got : List UInt8}
    (hkept : Holds puchData 0 (a :: rest)) (ha : highBit a = true) (hgot : got ≠ []) :
    pPos (store puchData (a :: rest).length got) got.length = 0 := by
  obtain ⟨m, hm⟩ : ∃ m, got.length = m + 1 :=
    Nat.exists_eq_add_of_le' (List.length_pos_of_ne_nil hgot)
  have hin : got.length ≤ ((a :: rest) ++ got).length := by
    rw [List.length_append]
    exact Nat.le_add_left _ _
  rw [pPos_eq (holds_store_append hkept got) hin, hm, List.cons_append, List.take_succ_cons,
    List.findIdx_cons, ha, cond_true]

/-- A `read` for at least one byte gets one. -/
theorem read_ne_nil {uCnt uPacketLength : Nat} (hlt : uCnt < uPacketLength) {bytes : List UInt8}
    (hbytes : bytes ≠ []) : bytes.take (uPacketLength - uCnt) ≠ [] := by
  simp only [ne_eq, List.take_eq_nil_iff, hbytes, or_false]
  omega

/-- A turn that reads bytes leaves those from the first high bit on in the buffer. -/
theorem fill_data {uPacketLength : Nat} (nBitErrors : Nat) {puchData : Memory}
    {kept bytes : List UInt8} (port : List Turn) (hkept : Holds puchData 0 kept)
    (hsync : seek highBit kept = kept) (hlt : kept.length < uPacketLength) (hbytes : bytes ≠ []) :
    ∃ puchData' nBitErrors',
      Holds puchData' 0 (seek highBit (kept ++ bytes.take (uPacketLength - kept.length))) ∧
        fill uPacketLength puchData nBitErrors kept.length (.data bytes :: port) =
          fill uPacketLength puchData' nBitErrors'
            (seek highBit (kept ++ bytes.take (uPacketLength - kept.length))).length
            (putBack (bytes.drop (uPacketLength - kept.length)) port) := by
  have hne := read_ne_nil hlt hbytes
  rw [fill, if_pos hlt]
  simp only [if_neg hne]
  generalize bytes.take (uPacketLength - kept.length) = got at hne ⊢
  have hstored := holds_store_append hkept got
  cases kept with
  | nil =>
      rw [List.nil_append] at hstored ⊢
      rw [List.length_nil] at hstored ⊢
      have hoff : pPos (store puchData 0 got) got.length = got.findIdx highBit := by
        rw [pPos_eq hstored (Nat.le_refl _), List.take_length]
      have hle : got.findIdx highBit ≤ got.length := List.findIdx_le_length
      rw [seek_eq_drop, hoff]
      by_cases h0 : got.findIdx highBit = 0
      · refine ⟨store puchData 0 got, nBitErrors, ?_, ?_⟩
        · rwa [h0, List.drop_zero]
        · simp only [h0, ne_eq, not_true_eq_false, if_false, List.drop_zero, Nat.zero_add]
      · refine ⟨_, nBitErrors + 1, holds_memmove hstored hle, ?_⟩
        simp only [h0, ne_eq, not_false_eq_true, if_true, List.length_drop, Nat.zero_add]
  | cons a rest =>
      -- The first byte of the buffer is where it was expected.
      have ha : highBit a = true := seek_eq_self_iff.mp hsync a rest rfl
      refine ⟨store puchData (a :: rest).length got, nBitErrors, ?_, ?_⟩
      · rwa [List.cons_append, seek_cons ha]
      · rw [if_neg (not_not_intro (pPos_store_append hkept ha hne)), List.cons_append,
          seek_cons ha, ← List.cons_append, List.length_append]

/-- What the loop is for: a packet from the first high bit on, if the stream has one. -/
structure Fills (uPacketLength : Nat) (stream : List UInt8) (filled : Filled) : Prop where
  whole : uPacketLength ≤ (seek highBit stream).length →
    filled.returned = uPacketLength ∧
      Holds filled.puchData 0 ((seek highBit stream).take uPacketLength) ∧
      Feeds filled.port ((seek highBit stream).drop uPacketLength)
  short : (seek highBit stream).length < uPacketLength → filled.returned = -1 ∧ filled.port = []

theorem Fills.congr {uPacketLength : Nat} {stream stream' : List UInt8} {filled : Filled}
    (h : Fills uPacketLength stream filled) (heq : seek highBit stream = seek highBit stream') :
    Fills uPacketLength stream' filled := by
  constructor
  · rw [← heq]
    exact h.whole
  · rw [← heq]
    exact h.short

/-- A full buffer, of which the first byte has the high bit, is the packet. -/
theorem fills_full {uPacketLength : Nat} (hpos : 0 < uPacketLength) {port : List Turn}
    {stream : List UInt8} (hfeeds : Feeds port stream) {kept : List UInt8} {puchData : Memory}
    (hkept : Holds puchData 0 kept) (hsync : seek highBit kept = kept)
    (hlength : kept.length = uPacketLength) (nBitErrors : Nat) :
    Fills uPacketLength (kept ++ stream) ⟨kept.length, puchData, nBitErrors, port⟩ := by
  have hseek : seek highBit (kept ++ stream) = kept ++ stream := by
    rw [seek_append (by rw [hsync]; exact List.ne_nil_of_length_pos (by omega)), hsync]
  constructor
  · intro _
    rw [hseek, List.take_left' hlength, List.drop_left' hlength, hlength]
    exact ⟨rfl, hkept, hfeeds⟩
  · intro hshort
    rw [hseek, List.length_append] at hshort
    omega

/-- With some bytes in the buffer, the first of them with the high bit, the loop treats
these and the bytes on the line as one stream. By induction on what is on the line. -/
theorem fill_fills {uPacketLength : Nat} (hpos : 0 < uPacketLength) {port : List Turn}
    {stream : List UInt8} (hfeeds : Feeds port stream) {kept : List UInt8} {puchData : Memory}
    (hkept : Holds puchData 0 kept) (hsync : seek highBit kept = kept)
    (hle : kept.length ≤ uPacketLength) (nBitErrors : Nat) :
    Fills uPacketLength (kept ++ stream)
      (fill uPacketLength puchData nBitErrors kept.length port) := by
  induction hweight : (port.map Turn.weight).sum using Nat.strong_induction_on
    generalizing port stream kept puchData nBitErrors with
  | _ weight ih =>
      by_cases hlt : kept.length < uPacketLength
      · cases hfeeds with
        | done =>
            have hshort : (seek highBit (kept ++ [])).length < uPacketLength := by
              rwa [List.append_nil, hsync]
            rw [fill, if_pos hlt]
            exact ⟨fun h => absurd h (by omega), fun _ => ⟨rfl, rfl⟩⟩
        | @chunk bytes rest port hbytes hport =>
            obtain ⟨puchData', nBitErrors', hkept', hturn⟩ :=
              fill_data nBitErrors port hkept hsync hlt hbytes
            have hle' : (seek highBit
                (kept ++ bytes.take (uPacketLength - kept.length))).length ≤ uPacketLength := by
              refine (seek_sublist highBit _).length_le.trans ?_
              rw [List.length_append, List.length_take]
              omega
            have hnext := ih _ (hweight ▸ weight_putBack_lt (read_ne_nil hlt hbytes) port)
              (hport.putBack (bytes.drop (uPacketLength - kept.length))) hkept' (seek_seek _ _) hle'
              nBitErrors' rfl
            rw [hturn]
            apply hnext.congr
            rw [seek_seek_append, List.append_assoc, ← List.append_assoc (List.take _ _),
              List.take_append_drop]
      · rw [fill.eq_def, if_neg hlt]
        exact fills_full hpos hfeeds hkept hsync (by omega) nBitErrors

end AndroidX86Tv.Wacom
