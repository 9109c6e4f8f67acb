import Mathlib.Data.List.Basic

/-!
# The serial line of a tablet (wacom/wacserial.c)

What is sent to the tablet, and how its answer to a request is read.

## Implementation notes

What the calls into the system return is given beforehand. The tablet may answer
anything, so what is sent to it is not kept. A loop of `read` calls that goes on until
it has its bytes reads them one by one.
-/

namespace AndroidX86Tv.Wacom

/-- What comes from the line: a byte, nothing for so long that a `select` times out, or a
`read` that returns zero or fails. -/
inductive Arrival where
  | byte (b : UInt8)
  | nothing
  | hangUp
  | failure

/-- The calls that are still to come, by their results. -/
structure Line where
  isatty : Bool
  /-- Whether `tcgetattr` succeeds. -/
  tcgetattr : Bool
  /-- Whether the calls of `tcsetattr` succeed. -/
  tcsetattr : List Bool
  /-- What the calls of `write` return. -/
  write : List Int
  arrivals : List Arrival
  errno : Int32
  /-- The `errno` of a `read` or `write` that fails. -/
  ioError : Int32

def einval : Int32 := 22
def etimedout : Int32 := 110

/-- The characters of a string literal. -/
def chars (s : String) : List UInt8 := s.toList.map fun c => UInt8.ofNat c.toNat

/-- The string that a buffer holds, up to the terminating zero. -/
def cString (buffer : List UInt8) : List UInt8 := buffer.takeWhile (· ≠ 0)

namespace Line

/-- `if (f()) return 1; return g();` -/
def andThen (f g : Line → Line × Int) (line : Line) : Line × Int :=
  let (line, failed) := f line
  if failed ≠ 0 then (line, 1) else g line

/-- `if (c && f()) return 1;`, going on after it. -/
def onlyIf (c : Bool) (f : Line → Line × Int) (line : Line) : Line × Int :=
  if c then f line else (line, 0)

end Line

section Sending

/-- The loop of `SerialSendRaw` with so many bytes left to write. -/
def writeLoop (line : Line) (left : Nat) : List Int → Line × Int
  | [] =>
      if left = 0 then ({ line with write := [] }, 0)
      else ({ line with write := [], errno := line.ioError }, 1)
  | nXfer :: writes =>
      if left = 0 then ({ line with write := nXfer :: writes }, 0)
      else if nXfer < 0 then ({ line with write := writes, errno := line.ioError }, 1)
      else if nXfer = 0 then ({ line with write := writes }, 1)
      else writeLoop line (left - nXfer.toNat) writes

def serialSendRaw (uSize : Nat) (line : Line) : Line × Int := writeLoop line uSize line.write

def serialSend (pszMsg : String) (line : Line) : Line × Int :=
  serialSendRaw (chars pszMsg).length line

def serialSendReset : Line → Line × Int :=
  Line.andThen (serialSend "\r$\r") (serialSend "#\r")

def serialSendStop : Line → Line × Int := serialSend "\rSP\r"

/-- `WacomFlush`, which always returns 0; what it drops is not among the arrivals. -/
def wacomFlush (line : Line) : Line × Int := (line, 0)

/-- A call of `tcsetattr`. -/
def setAttr (line : Line) : Line × Int :=
  match line.tcsetattr with
  | true :: results => ({ line with tcsetattr := results }, 0)
  | false :: results => ({ line with tcsetattr := results }, 1)
  | [] => (line, 1)

/-- `SerialResetAtBaud`; the rate itself changes nothing here. -/
def serialResetAtBaud (_nBaud : Nat) : Line → Line × Int := Line.andThen setAttr serialSendReset

/-- `SerialConfigTTY`, for a device with the least baud rate if it is known. -/
def serialConfigTTY (nMinBaudRate : Option Nat) (line : Line) : Line × Int :=
  let nBaudRate := nMinBaudRate.getD 9600
  let configure : Line → Line × Int :=
    if line.isatty then
      Line.andThen (fun line => (line, if line.tcgetattr then 0 else 1)) <|
      Line.andThen setAttr <|
      Line.andThen (serialResetAtBaud 38400) <|
      Line.andThen (Line.onlyIf (nBaudRate ≤ 19200) (serialResetAtBaud 19200)) <|
      Line.andThen (Line.onlyIf (nBaudRate ≤ 9600) (serialResetAtBaud 9600))
        (Line.onlyIf (nBaudRate < 9600) (serialResetAtBaud nBaudRate))
    else serialSendReset
  Line.andThen configure (Line.andThen serialSendStop wacomFlush) line

end Sending

section Requests

/-- How a request fails, by what becomes of `errno`. -/
inductive RequestError where
  | timedOut
  | hungUp
  | readFailed
  | incorrect
  | invalid

def RequestError.errno (line : Line) : RequestError → Int32
  | timedOut => etimedout
  | hungUp => line.errno
  | readFailed => line.ioError
  | incorrect => line.errno
  | invalid => einval

/-- Read until the first header character. -/
def seekHeader (c : UInt8) : List Arrival → List Arrival × Except RequestError Unit
  | [] => ([], .error .timedOut)
  | .nothing :: arrivals => (arrivals, .error .timedOut)
  | .hangUp :: arrivals => (arrivals, .error .hungUp)
  | .failure :: arrivals => (arrivals, .error .readFailed)
  | .byte b :: arrivals => if b = c then (arrivals, .ok ()) else seekHeader c arrivals

/-- A `read` of a byte, which waits for it. -/
def readByte : List Arrival → List Arrival × Except RequestError UInt8
  | [] => ([], .error .readFailed)
  | .nothing :: arrivals => readByte arrivals
  | .hangUp :: arrivals => (arrivals, .error .hungUp)
  | .failure :: arrivals => (arrivals, .error .readFailed)
  | .byte b :: arrivals => (arrivals, .ok b)

/-- Read the rest of the header. -/
def readBytes : Nat → List Arrival → List Arrival × Except RequestError (List UInt8)
  | 0, arrivals => (arrivals, .ok [])
  | n + 1, arrivals =>
      match readByte arrivals with
      | (arrivals, .error e) => (arrivals, .error e)
      | (arrivals, .ok b) =>
          match readBytes n arrivals with
          | (arrivals, .error e) => (arrivals, .error e)
          | (arrivals, .ok bytes) => (arrivals, .ok (b :: bytes))

/-- Read up to a carriage return, which is among the first `uSize` bytes. -/
def readAnswer : Nat → List Arrival → List Arrival × Except RequestError (List UInt8)
  | 0, arrivals => (arrivals, .error .invalid)
  | uSize + 1, arrivals =>
      match readByte arrivals with
      | (arrivals, .error e) => (arrivals, .error e)
      | (arrivals, .ok b) =>
          if b = 13 then (arrivals, .ok [])
          else
            match readAnswer uSize arrivals with
            | (arrivals, .error e) => (arrivals, .error e)
            | (arrivals, .ok bytes) => (arrivals, .ok (b :: bytes))

/-- The answer to a request with the header, which the answer repeats. -/
def readResponse (c : UInt8) (header : List UInt8) (uSize : Nat) (arrivals : List Arrival) :
    List Arrival × Except RequestError (List UInt8) :=
  match seekHeader c arrivals with
  | (arrivals, .error e) => (arrivals, .error e)
  | (arrivals, .ok ()) =>
      match readBytes header.length arrivals with
      | (arrivals, .error e) => (arrivals, .error e)
      | (arrivals, .ok repeated) =>
          if repeated ≠ header then (arrivals, .error .incorrect) else readAnswer uSize arrivals

/-- `SerialSendRequest` for a request of `c`, the rest of the header and a carriage
return: the string that it leaves in the buffer, or none if it returns 1. -/
def serialSendRequest (c : UInt8) (header : List UInt8) (uSize : Nat) (line : Line) :
    Line × Option (List UInt8) :=
  let (line, failed) := serialSendRaw (header.length + 2) line
  if failed ≠ 0 then (line, none)
  else if uSize < header.length + 1 then ({ line with errno := einval }, none)
  else
    match readResponse c header uSize line.arrivals with
    | (arrivals, .ok response) => ({ line with arrivals := arrivals }, some (cString response))
    | (arrivals, .error e) =>
        ({ line with arrivals := arrivals, errno := e.errno line }, none)

end Requests

section Scanning

def isSpace (c : UInt8) : Bool := c = 32 || (9 ≤ c && c ≤ 13)

def isDigit (c : UInt8) : Bool := 48 ≤ c && c ≤ 57

/-- The number that digits stand for. -/
def digitsValue (digits : List UInt8) : Int :=
  digits.foldl (fun n c => 10 * n + (c.toNat - 48 : Int)) 0

/-- An `int` from a number: the conversion keeps within 64 bits, and the store takes the
low 32 of them. -/
def toInt (n : Int) : Int32 :=
  Int32.ofInt (max (-9223372036854775808) (min 9223372036854775807 n))

/-- A conversion `%d`: the number and what follows it. -/
def scanInt (s : List UInt8) : Option (Int32 × List UInt8) :=
  let s := s.dropWhile isSpace
  let negative := s.head? = some 45
  let s := if s.head? = some 45 ∨ s.head? = some 43 then s.tail else s
  let digits := s.takeWhile isDigit
  if digits = [] then none
  else
    some (toInt (if negative then -digitsValue digits else digitsValue digits),
      s.dropWhile isDigit)

/-- `sscanf` with conversions `%d` and a character before each but the first: the numbers
that are stored. -/
def scanInts : List UInt8 → List UInt8 → List Int32
  | [], s =>
      match scanInt s with
      | none => []
      | some (n, _) => [n]
  | separator :: separators, s =>
      match scanInt s with
      | none => []
      | some (n, rest) =>
          if rest.head? = some separator then n :: scanInts separators rest.tail else [n]

theorem scanInts_head? (separators s : List UInt8) :
    (scanInts separators s).head? = (scanInt s).map Prod.fst := by
  cases separators with
  | nil =>
      rw [scanInts]
      cases scanInt s with
      | none => rfl
      | some scanned => rfl
  | cons separator separators =>
      rw [scanInts]
      cases scanInt s with
      | none => rfl
      | some scanned =>
          simp only [Option.map_some]
          split
          · rfl
          · rfl

end Scanning

/-- A terminal on which the calls of `write` return what is given and all others succeed,
with a tablet that sends the answers. -/
def answeringLine (write : List Int) (answers : String) : Line where
  isatty := true
  tcgetattr := true
  tcsetattr := [true, true, true, true]
  write := write
  arrivals := (chars answers).map .byte
  errno := 0
  ioError := 5

end AndroidX86Tv.Wacom
