import AndroidX86Tv.Wacom.Events
import AndroidX86Tv.Wacom.Reports

/-!
# What a pen draws is what is reported (wacom/wacserial.c, wacom/wacom-input.c)

A format packs the samples of a pen into packets. Whatever the pen draws, in whatever
pieces the packets arrive, its positions and pressures are reported exactly and in order.

## Implementation notes

The formats are read off the parsers. A pen of protocol V is announced by a packet of its
own, which the main loop reports as a position: the one of the values that were cleared.
-/

namespace AndroidX86Tv.Wacom

open ByteMemory SmallWords StreamFraming EventHistory

/-- What a pen tells while it is near the tablet. -/
structure Sample (pressureBits : Nat) where
  x : Fin (2 ^ 16)
  y : Fin (2 ^ 16)
  pressure : Fin (2 ^ pressureBits)
  tiltX : Fin 128
  tiltY : Fin 128
  stylus : Bool
  stylus2 : Bool

/-- A pen comes near the tablet, and leaves it again. -/
structure Stroke (pressureBits : Nat) where
  toolId : Fin (2 ^ 12)
  serial : Fin (2 ^ 32)
  samples : List (Sample pressureBits)

/-- The formats of the packets of a pen: protocol V, protocol IV with eight bits for the
pressure, with the tilt too, or with seven bits, and that of the tablet PCs. -/
inductive PenFormat where
  | wacomV
  | wacomIV
  | wacomIVTilt
  | wacomIV7
  | tabletPC
  deriving DecidableEq

namespace PenFormat

def pressureBits : PenFormat → Nat
  | wacomV => 10
  | wacomIV7 => 7
  | _ => 8

def packetLength : PenFormat → Nat
  | wacomIV => 7
  | wacomIV7 => 7
  | _ => 9

/-- The parser, with the minor version, that reads the format. -/
def Parses : PenFormat → ParseFunc → Int32 → Prop
  | wacomV, parser, _ => parser = .serialParseWacomV
  | wacomIV, parser, minor =>
      parser = .serialParseWacomIV14 ∨ parser = .serialParseWacomIV13 ∨
        parser = .serialParseWacomIV12 ∧ minor = 2
  | wacomIVTilt, parser, _ => parser = .serialParseWacomIV14
  | wacomIV7, parser, minor => parser = .serialParseWacomIV12 ∧ minor ≠ 2
  | tabletPC, parser, _ => parser = .serialParseTabletPC

/-- The tablet sends packets of the format. -/
structure Speaks (format : PenFormat) (t : SerialTablet) : Prop where
  length : t.uPacketLength = format.packetLength
  parser : ∃ parser, t.pfnParse = some parser ∧ format.Parses parser t.nVerMinor

/-- The first byte of a packet, and the others, which have no high bit. -/
def packetOf (first : Nat) (others : List Nat) : List UInt8 :=
  UInt8.ofNat (128 + first) :: others.map UInt8.ofNat

/-- A stylus in protocol IV, with four bits beside those of the vertical position. -/
def packetIV (x y bits last : Nat) (tilts : List Nat) : List UInt8 :=
  packetOf (96 + x / 16384)
    ([x / 128 % 128, x % 128, y / 16384 + bits * 4, y / 128 % 128, y % 128, last] ++ tilts)

/-- A pressure of eight bits: six of them and the inverse of the highest one. -/
def lastIV (pressure : Nat) : Nat := pressure / 2 % 64 + if pressure < 128 then 64 else 0

/-- The lowest bit of the pressure and the switches. -/
def bitsIV (pressure : Nat) (stylus stylus2 : Bool) : Nat :=
  pressure % 2 + stylus.toNat * 4 + stylus2.toNat * 8

/-- The packet of a sample. -/
def packet : (format : PenFormat) → Sample format.pressureBits → List UInt8
  | wacomV, s =>
      packetOf (32 + s.stylus.toNat * 2 + s.stylus2.toNat * 4)
        [s.x.val / 512, s.x.val / 4 % 128, s.x.val % 4 * 32 + s.y.val / 2048, s.y.val / 16 % 128,
          s.y.val % 16 * 8 + s.pressure.val / 128, s.pressure.val % 128, s.tiltX.val,
          s.tiltY.val]
  | wacomIV, s =>
      packetIV s.x.val s.y.val (bitsIV s.pressure.val s.stylus s.stylus2) (lastIV s.pressure.val) []
  | wacomIVTilt, s =>
      packetIV s.x.val s.y.val (bitsIV s.pressure.val s.stylus s.stylus2) (lastIV s.pressure.val)
        [s.tiltX.val, s.tiltY.val]
  | wacomIV7, s =>
      packetIV s.x.val s.y.val (s.stylus.toNat * 4)
        (s.pressure.val % 64 + if s.pressure.val < 64 then 64 else 0) []
  | tabletPC, s =>
      packetOf (32 + s.stylus.toNat * 2 + s.stylus2.toNat * 4)
        [s.x.val / 512, s.x.val / 4 % 128, s.y.val / 512, s.y.val / 4 % 128,
          s.pressure.val % 128, s.x.val % 4 * 32 + s.y.val % 4 * 8 + s.pressure.val / 128,
          s.tiltX.val, s.tiltY.val]

/-- The packet that announces a pen of protocol V. -/
def inPacket (toolId serial : Nat) : List UInt8 :=
  packetOf 66
    [toolId / 32, toolId % 32 * 4 + serial / 2 ^ 30, serial / 2 ^ 23 % 128,
      serial / 2 ^ 16 % 128, serial / 2 ^ 9 % 128, serial / 4 % 128, serial % 4 * 32, 0]

/-- The packet of a pen that leaves. -/
def outPacket (format : PenFormat) : List UInt8 :=
  packetOf 0 (List.replicate (format.packetLength - 1) 0)

/-- The packets of a stroke. -/
def packets (format : PenFormat) (stroke : Stroke format.pressureBits) : List (List UInt8) :=
  (if format = wacomV then [inPacket stroke.toolId stroke.serial] else []) ++
    stroke.samples.map format.packet ++ [format.outPacket]

end PenFormat

/-- The report of a position and a pressure. -/
def reportAt (minPress : Int32) (x y pressure : Nat) : List InputEvent :=
  reportTool minPress (Int32.ofNat x) (Int32.ofNat y) (Int32.ofNat pressure)

/-- What is reported of a stroke. -/
def PenFormat.events (format : PenFormat) (minPress : Int32)
    (stroke : Stroke format.pressureBits) : List InputEvent :=
  (if format = wacomV then reportAt minPress 0 0 0 else []) ++
    stroke.samples.flatMap (fun s => reportAt minPress s.x s.y s.pressure) ++ reportAway

namespace SerialTablet

section Parts

variable (d : Memory)

theorem positionX_toNat :
    (positionX d).toBitVec.toNat =
      (d 1).toNat % 128 * 512 + (d 2).toNat % 128 * 4 + (d 3).toNat / 32 % 4 := by
  have hhigh := forall_byte
    (P := fun b => ((int b &&& 0x7f) <<< 9).toBitVec.toNat = b.toNat % 128 * 512)
    (by decide +kernel) (d 1)
  have hmiddle := forall_byte
    (P := fun b => ((int b &&& 0x7f) <<< 2).toBitVec.toNat = b.toNat % 128 * 4)
    (by decide +kernel) (d 2)
  have hlow := forall_byte
    (P := fun b => ((int b &&& 0x60) >>> 5).toBitVec.toNat = b.toNat / 32 % 4)
    (by decide +kernel) (d 3)
  rw [positionX, toNat_or, toNat_or, hhigh, hmiddle, hlow]
  exact or_or_eq_add (k := 9) (n := 2) (Nat.dvd_mul_left _ _) (Nat.dvd_mul_left _ _) (by omega)
    (by omega)

theorem positionY_toNat :
    (positionY d).toBitVec.toNat =
      (d 3).toNat % 32 * 2048 + (d 4).toNat % 128 * 16 + (d 5).toNat / 8 % 16 := by
  have hhigh := forall_byte
    (P := fun b => ((int b &&& 0x1f) <<< 11).toBitVec.toNat = b.toNat % 32 * 2048)
    (by decide +kernel) (d 3)
  have hmiddle := forall_byte
    (P := fun b => ((int b &&& 0x7f) <<< 4).toBitVec.toNat = b.toNat % 128 * 16)
    (by decide +kernel) (d 4)
  have hlow := forall_byte
    (P := fun b => ((int b &&& 0x78) >>> 3).toBitVec.toNat = b.toNat / 8 % 16)
    (by decide +kernel) (d 5)
  rw [positionY, toNat_or, toNat_or, hhigh, hmiddle, hlow]
  exact or_or_eq_add (k := 11) (n := 4) (Nat.dvd_mul_left _ _) (Nat.dvd_mul_left _ _) (by omega)
    (by omega)

theorem tenBits_toNat :
    (tenBits d).toBitVec.toNat = (d 5).toNat % 8 * 128 + (d 6).toNat % 128 := by
  have hhigh := forall_byte
    (P := fun b => ((int b &&& 0x07) <<< 7).toBitVec.toNat = b.toNat % 8 * 128)
    (by decide +kernel) (d 5)
  have hlow := forall_byte
    (P := fun b => (int b &&& 0x7f).toBitVec.toNat = b.toNat % 128) (by decide +kernel) (d 6)
  rw [tenBits, toNat_or, hhigh, hlow]
  exact or_eq_add (k := 7) (Nat.dvd_mul_left _ _) (by omega)

/-- Two bytes without a high bit and two bits make a coordinate of protocol IV. -/
theorem coordinateIV_toNat {low high : UInt8} (hlow : low.toNat < 128) (hhigh : high.toNat < 128)
    (top : UInt8) :
    (int low ||| int high <<< 7 ||| (int top &&& 0x3) <<< 14).toBitVec.toNat =
      top.toNat % 4 * 16384 + high.toNat * 128 + low.toNat := by
  have htop := forall_byte
    (P := fun b => ((int b &&& 0x3) <<< 14).toBitVec.toNat = b.toNat % 4 * 16384)
    (by decide +kernel) top
  have hmiddle := forall_byte
    (P := fun b => (int b <<< 7).toBitVec.toNat = b.toNat * 128) (by decide +kernel) high
  have hbyte := forall_byte (P := fun b => (int b).toBitVec.toNat = b.toNat) (by decide +kernel) low
  rw [toNat_or, toNat_or, htop, hmiddle, hbyte]
  exact or_or_eq_add' (k := 14) (n := 7) (Nat.dvd_mul_left _ _) (Nat.dvd_mul_left _ _) hlow
    (by omega)

theorem pressureIV_toNat :
    (pressureIV d).toBitVec.toNat =
      (if (d 6).toNat / 64 % 2 = 1 then 0 else 128) + (d 6).toNat % 64 * 2 +
        (d 3).toNat / 4 % 2 := by
  have hhigh := forall_byte
    (P := fun b => (if b &&& 0x40 ≠ 0 then (0 : Int32) else 0x80).toBitVec.toNat =
      if b.toNat / 64 % 2 = 1 then 0 else 128) (by decide +kernel) (d 6)
  have hmiddle := forall_byte
    (P := fun b => ((int b &&& 0x3F) <<< 1).toBitVec.toNat = b.toNat % 64 * 2)
    (by decide +kernel) (d 6)
  have hlow := forall_byte
    (P := fun b => ((int b &&& 0x4) >>> 2).toBitVec.toNat = b.toNat / 4 % 2)
    (by decide +kernel) (d 3)
  rw [pressureIV, toNat_or, toNat_or, hhigh, hmiddle, hlow, Nat.or_comm, ← Nat.or_assoc]
  apply or_or_eq_add (k := 7) (n := 1) _ (Nat.dvd_mul_left _ _) (by omega) (by omega)
  split
  · decide
  · decide

/-- The pressure of seven bits. -/
theorem pressure12_toNat {nVerMinor : Int32} (h : nVerMinor ≠ 2) :
    (pressure12 d nVerMinor).toBitVec.toNat =
      (d 6).toNat % 64 + if (d 6).toNat / 64 % 2 = 1 then 0 else 64 := by
  rw [pressure12, if_neg h]
  exact forall_byte
    (P := fun b => ((int b &&& 0x3F) + if b &&& 0x40 ≠ 0 then 0 else 64).toBitVec.toNat =
      b.toNat % 64 + if b.toNat / 64 % 2 = 1 then 0 else 64) (by decide +kernel) (d 6)

/-- Two bits, from the one at the shift, and two bytes make a coordinate of a tablet PC. -/
theorem coordinateTabletPC_toNat {low : UInt8} (hlow : low.toNat < 128) (high : UInt8)
    {bits : Int32} (hbits : bits.toBitVec.toNat < 4) :
    (bits ||| int low <<< 2 ||| int high <<< 9).toBitVec.toNat =
      high.toNat * 512 + low.toNat * 4 + bits.toBitVec.toNat := by
  have htop := forall_byte
    (P := fun b => (int b <<< 9).toBitVec.toNat = b.toNat * 512) (by decide +kernel) high
  have hmiddle := forall_byte
    (P := fun b => (int b <<< 2).toBitVec.toNat = b.toNat * 4) (by decide +kernel) low
  rw [toNat_or, toNat_or, htop, hmiddle]
  exact or_or_eq_add' (k := 9) (n := 2) (Nat.dvd_mul_left _ _) (Nat.dvd_mul_left _ _) hbits
    (by omega)

theorem pressureTabletPC_toNat :
    ((int (d 6) &&& 0x01) <<< 7 ||| int (d 5) &&& 0x7F).toBitVec.toNat =
      (d 6).toNat % 2 * 128 + (d 5).toNat % 128 := by
  have hhigh := forall_byte
    (P := fun b => ((int b &&& 0x01) <<< 7).toBitVec.toNat = b.toNat % 2 * 128)
    (by decide +kernel) (d 6)
  have hlow := forall_byte
    (P := fun b => (int b &&& 0x7F).toBitVec.toNat = b.toNat % 128) (by decide +kernel) (d 5)
  rw [toNat_or, hhigh, hlow]
  exact or_eq_add (k := 7) (Nat.dvd_mul_left _ _) (by omega)

end Parts

/-- The tablet has a pen near it, with this position and pressure. -/
structure Draws (t : SerialTablet) (x y pressure : Nat) : Prop where
  near : t.state.value .proximity ≠ 0
  x : t.state.value .positionX = Int32.ofNat x
  y : t.state.value .positionY = Int32.ofNat y
  pressure : t.state.value .pressure = Int32.ofNat pressure

/-- No pen is near, and nothing is left of the last one. -/
structure Blank (t : SerialTablet) : Prop where
  away : t.state.value .proximity = 0
  x : t.state.value .positionX = 0
  y : t.state.value .positionY = 0
  pressure : t.state.value .pressure = 0

section Samples

open PenFormat

variable {t : SerialTablet}

theorem byte_toNat {a : Nat} (h : a < 256) : (UInt8.ofNat a).toNat = a := by
  rw [UInt8.toNat_ofNat', Nat.mod_eq_of_lt h]

theorem setSix_draws {x y press : Int32} {a b c : Nat} (hx : x.toBitVec.toNat = a)
    (hy : y.toBitVec.toNat = b) (hpress : press.toBitVec.toNat = c) (tool button : Int32) :
    (t.setSix 1 tool x y press button).Draws a b c := by
  rw [eq_ofNat hx, eq_ofNat hy, eq_ofNat hpress]
  constructor
  · simp [setSix, setValues, WacomState.setValues]
  · simp [setSix, setValues, WacomState.setValues]
  · simp [setSix, setValues, WacomState.setValues]
  · simp [setSix, setValues, WacomState.setValues]

theorem setSix_blank (tool button : Int32) : (t.setSix 0 tool 0 0 0 button).Blank := by
  constructor
  · simp [setSix, setValues, WacomState.setValues]
  · simp [setSix, setValues, WacomState.setValues]
  · simp [setSix, setValues, WacomState.setValues]
  · simp [setSix, setValues, WacomState.setValues]

theorem byte_packetOf (first : Nat) (others : List Nat) (k : Nat) :
    (ofBytes (packetOf first others) (k + 1)).toNat = others.getD k 0 % 256 := by
  rw [packetOf, ofBytes, List.getD_cons_succ]
  cases hget : others[k]? with
  | none => simp [List.getD_eq_getElem?_getD, hget]
  | some a => simp [List.getD_eq_getElem?_getD, hget]

section WacomV

variable (s : Sample wacomV.pressureBits)

theorem positionX_packet : (positionX (ofBytes (packet .wacomV s))).toBitVec.toNat = s.x := by
  have hx := s.x.isLt
  have hy := s.y.isLt
  rw [positionX_toNat, packet, byte_packetOf, byte_packetOf, byte_packetOf]
  simp only [List.getD_cons_succ, List.getD_cons_zero]
  omega

theorem positionY_packet : (positionY (ofBytes (packet .wacomV s))).toBitVec.toNat = s.y := by
  have hx := s.x.isLt
  have hy := s.y.isLt
  have hpress : s.pressure.val < 2 ^ 10 := s.pressure.isLt
  rw [positionY_toNat, packet, byte_packetOf, byte_packetOf, byte_packetOf]
  simp only [List.getD_cons_succ, List.getD_cons_zero]
  omega

theorem tenBits_packet : (tenBits (ofBytes (packet .wacomV s))).toBitVec.toNat = s.pressure := by
  have hpress : s.pressure.val < 2 ^ 10 := s.pressure.isLt
  rw [tenBits_toNat, packet, byte_packetOf, byte_packetOf]
  simp only [List.getD_cons_succ, List.getD_cons_zero]
  omega

theorem isPen_packet : isPen (ofBytes (packet .wacomV s) 0) :=
  (by decide : ∀ a b : Bool, isPen (UInt8.ofNat (128 + (32 + a.toNat * 2 + b.toNat * 4))))
    s.stylus s.stylus2

theorem packetPen_draws (hnear : t.state.value .proximity ≠ 0) :
    (t.packetPen (ofBytes (packet .wacomV s))).Draws s.x s.y s.pressure := by
  constructor
  · simpa [packetPen, setValues, WacomState.setValues] using hnear
  · simp [packetPen, setValues, WacomState.setValues, eq_ofNat (positionX_packet s)]
  · simp [packetPen, setValues, WacomState.setValues, eq_ofNat (positionY_packet s)]
  · simp [packetPen, setValues, WacomState.setValues, isPen_packet s,
      eq_ofNat (tenBits_packet s)]

end WacomV

section WacomIV

variable {x y bits : Nat} (last : Nat) (tilts : List Nat)

/-- A coordinate in the bytes that protocol IV has for it. -/
theorem coordinateIV_packet {low high top : UInt8} (hlow : low.toNat = x % 128 % 256)
    (hhigh : high.toNat = x / 128 % 128 % 256) (htop : top.toNat % 4 = x / 16384) :
    (int low ||| int high <<< 7 ||| (int top &&& 0x3) <<< 14).toBitVec.toNat = x := by
  rw [coordinateIV_toNat (by omega) (by omega)]
  omega

theorem positionXIV_packet (hx : x < 2 ^ 16) (y bits : Nat) :
    (positionXIV (ofBytes (packetIV x y bits last tilts))).toBitVec.toNat = x := by
  apply coordinateIV_packet
  · exact byte_packetOf _ _ 1
  · exact byte_packetOf _ _ 0
  · have hfirst : (ofBytes (packetIV x y bits last tilts) 0).toNat = 128 + (96 + x / 16384) :=
      byte_toNat (by omega)
    omega

theorem positionYIV_packet (hy : y < 2 ^ 16) (x : Nat) :
    (positionYIV (ofBytes (packetIV x y bits last tilts))).toBitVec.toNat = y := by
  apply coordinateIV_packet
  · exact byte_packetOf _ _ 4
  · exact byte_packetOf _ _ 3
  · have hthird : (ofBytes (packetIV x y bits last tilts) 3).toNat = (y / 16384 + bits * 4) % 256 :=
      byte_packetOf _ _ 2
    omega

theorem pressureIV_packet {pressure : Nat} (hpress : pressure < 2 ^ 8) (hy : y < 2 ^ 16)
    (stylus stylus2 : Bool) (x : Nat) :
    (pressureIV (ofBytes (packetIV x y (bitsIV pressure stylus stylus2) (lastIV pressure)
      tilts))).toBitVec.toNat = pressure := by
  have hthird : (ofBytes (packetIV x y (bitsIV pressure stylus stylus2) (lastIV pressure)
      tilts) 3).toNat = (y / 16384 + bitsIV pressure stylus stylus2 * 4) % 256 :=
    byte_packetOf _ _ 2
  have hlast : (ofBytes (packetIV x y (bitsIV pressure stylus stylus2) (lastIV pressure)
      tilts) 6).toNat = lastIV pressure % 256 := byte_packetOf _ _ 5
  have hstylus := stylus.toNat_le
  have hstylus2 := stylus2.toNat_le
  rw [pressureIV_toNat, hthird, hlast, bitsIV, lastIV]
  split
  · split
    · omega
    · omega
  · split
    · omega
    · omega

theorem first_packetIV (hx : x < 2 ^ 16) (y bits : Nat) :
    ofBytes (packetIV x y bits last tilts) 0 &&& 0x40 ≠ 0 ∧
      ofBytes (packetIV x y bits last tilts) 0 &&& 0x20 ≠ 0 := by
  have hfirst : ∀ a < 4, UInt8.ofNat (128 + (96 + a)) &&& 0x40 ≠ 0 ∧
      UInt8.ofNat (128 + (96 + a)) &&& 0x20 ≠ 0 := by decide
  exact hfirst (x / 16384) (by omega)

theorem packetIV13_draws {pressure : Nat} (hx : x < 2 ^ 16) (hy : y < 2 ^ 16)
    (hpress : pressure < 2 ^ 8) (stylus stylus2 : Bool) :
    (packetIV13 (ofBytes (packetIV x y (bitsIV pressure stylus stylus2) (lastIV pressure) tilts))
      t).Draws x y pressure := by
  rw [packetIV13, if_pos (first_packetIV _ _ hx _ _).1]
  exact setSix_draws (positionXIV_packet _ _ hx _ _) (positionYIV_packet _ _ hy _)
    (pressureIV_packet _ hpress hy _ _ _) _ _

theorem packetIV12_draws {pressure : Nat} (hx : x < 2 ^ 16) (hy : y < 2 ^ 16)
    (hpress : (pressure12 (ofBytes (packetIV x y bits last tilts)) t.nVerMinor).toBitVec.toNat =
      pressure) :
    (packetIV12 (ofBytes (packetIV x y bits last tilts)) t).Draws x y pressure := by
  obtain ⟨hnear, hstylus⟩ := first_packetIV last tilts hx y bits
  rw [packetIV12, if_pos hnear]
  simp only [if_pos hstylus]
  exact setSix_draws (positionXIV_packet _ _ hx _ _) (positionYIV_packet _ _ hy _) hpress _ _

theorem pressure12_packet {pressure : Nat} (hpress : pressure < 2 ^ 7) {nVerMinor : Int32}
    (hminor : nVerMinor ≠ 2) :
    (pressure12 (ofBytes (packetIV x y bits
      (pressure % 64 + if pressure < 64 then 64 else 0) tilts)) nVerMinor).toBitVec.toNat =
        pressure := by
  have hlast : (ofBytes (packetIV x y bits
      (pressure % 64 + if pressure < 64 then 64 else 0) tilts) 6).toNat =
        (pressure % 64 + if pressure < 64 then 64 else 0) % 256 := byte_packetOf _ _ 5
  rw [pressure12_toNat _ hminor, hlast]
  split
  · split
    · omega
    · omega
  · split
    · omega
    · omega

end WacomIV

section TabletPC

variable (s : Sample tabletPC.pressureBits)

theorem first_packetTabletPC : ofBytes (packet .tabletPC s) 0 &&& 0x20 ≠ 0 :=
  (by decide : ∀ a b : Bool, UInt8.ofNat (128 + (32 + a.toNat * 2 + b.toNat * 4)) &&& 0x20 ≠ 0)
    s.stylus s.stylus2

theorem packetTabletPC_draws :
    (packetTabletPC (ofBytes (packet .tabletPC s)) t).Draws s.x s.y s.pressure := by
  have hx := s.x.isLt
  have hy := s.y.isLt
  have hpress : s.pressure.val < 2 ^ 8 := s.pressure.isLt
  have hfirst : (ofBytes (packet .tabletPC s) 1).toNat = s.x.val / 512 % 256 := byte_packetOf _ _ 0
  have hsecond : (ofBytes (packet .tabletPC s) 2).toNat = s.x.val / 4 % 128 % 256 :=
    byte_packetOf _ _ 1
  have hthird : (ofBytes (packet .tabletPC s) 3).toNat = s.y.val / 512 % 256 := byte_packetOf _ _ 2
  have hfourth : (ofBytes (packet .tabletPC s) 4).toNat = s.y.val / 4 % 128 % 256 :=
    byte_packetOf _ _ 3
  have hfifth : (ofBytes (packet .tabletPC s) 5).toNat = s.pressure.val % 128 % 256 :=
    byte_packetOf _ _ 4
  have hsixth : (ofBytes (packet .tabletPC s) 6).toNat =
      (s.x.val % 4 * 32 + s.y.val % 4 * 8 + s.pressure.val / 128) % 256 := byte_packetOf _ _ 5
  have hxbits := forall_byte
    (P := fun b => ((int b &&& 0x60) >>> 5).toBitVec.toNat = b.toNat / 32 % 4)
    (by decide +kernel) (ofBytes (packet .tabletPC s) 6)
  have hybits := forall_byte
    (P := fun b => ((int b &&& 0x18) >>> 3).toBitVec.toNat = b.toNat / 8 % 4)
    (by decide +kernel) (ofBytes (packet .tabletPC s) 6)
  rw [packetTabletPC, if_pos (first_packetTabletPC s)]
  apply setSix_draws
  · rw [coordinateTabletPC_toNat (by omega) _ (by omega), hxbits]
    omega
  · rw [coordinateTabletPC_toNat (by omega) _ (by omega), hybits]
    omega
  · rw [pressureTabletPC_toNat]
    omega

end TabletPC

end Samples

end SerialTablet

end AndroidX86Tv.Wacom
