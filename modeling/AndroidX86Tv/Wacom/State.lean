import Mathlib.Data.List.Basic

/-!
# The state of a tablet (wacom/wactablet.h, wacom/wactablet.c)

A state has a value for every field, with the range that the value comes from, and
`WacomCopyState` copies a state out.
-/

namespace AndroidX86Tv.Wacom

/-- The fields of a state (`WACOMFIELD_`), in the order of their numbers. -/
inductive Field where
  | toolType
  | serial
  | proximity
  | buttons
  | positionX
  | positionY
  | rotationZ
  | distance
  | pressure
  | tiltX
  | tiltY
  | absWheel
  | relWheel
  | throttle
  deriving DecidableEq

/-- The number of a field. -/
def Field.index : Field → Nat
  | toolType => 0
  | serial => 1
  | proximity => 2
  | buttons => 3
  | positionX => 4
  | positionY => 5
  | rotationZ => 6
  | distance => 7
  | pressure => 8
  | tiltX => 9
  | tiltY => 10
  | absWheel => 11
  | relWheel => 12
  | throttle => 13

/-- `WACOMFIELD_MAX`. -/
def wacomFieldMax : Nat := 14

theorem Field.index_lt (f : Field) : f.index < wacomFieldMax := by
  cases f <;> decide

/-- `WACOMVALID`. -/
def wacomValid (f : Field) : UInt32 := 1 <<< UInt32.ofNat f.index

/-- `BIT`. -/
def bit (n : Int32) : Int32 := 1 <<< n

def wacomToolTypeNone : Int32 := 0
def wacomToolTypePen : Int32 := 1
def wacomToolTypePencil : Int32 := 2
def wacomToolTypeBrush : Int32 := 3
def wacomToolTypeEraser : Int32 := 4
def wacomToolTypeAirbrush : Int32 := 5
def wacomToolTypeMouse : Int32 := 6
def wacomToolTypeLens : Int32 := 7

def wacomButtonLeft : Int32 := 0
def wacomButtonMiddle : Int32 := 1
def wacomButtonRight : Int32 := 2
def wacomButtonExtra : Int32 := 3
def wacomButtonSide : Int32 := 4
def wacomButtonTouch : Int32 := 5
def wacomButtonStylus : Int32 := 6
def wacomButtonStylus2 : Int32 := 7

/-- `WACOMVALUE`. -/
structure WacomValue where
  nValue : Int32
  nMin : Int32
  nMax : Int32
  nReserved : Int32
  deriving DecidableEq

/-- A value that `memset` cleared. -/
def WacomValue.zero : WacomValue := ⟨0, 0, 0, 0⟩

/-- The range of a value. -/
def WacomValue.range (v : WacomValue) : Int32 × Int32 := (v.nMin, v.nMax)

/-- `WACOMSTATE`. -/
structure WacomState where
  uValueCnt : Nat
  uValid : UInt32
  values : Field → WacomValue

namespace WacomState

def update (s : WacomState) (f : Field) (change : WacomValue → WacomValue) : WacomState :=
  { s with values := fun g => if g = f then change (s.values g) else s.values g }

def setValue (s : WacomState) (f : Field) (n : Int32) : WacomState :=
  s.update f fun v => { v with nValue := n }

def setMin (s : WacomState) (f : Field) (n : Int32) : WacomState :=
  s.update f fun v => { v with nMin := n }

def setMax (s : WacomState) (f : Field) (n : Int32) : WacomState :=
  s.update f fun v => { v with nMax := n }

def value (s : WacomState) (f : Field) : Int32 := (s.values f).nValue

/-- `memset(&values, 0, uValueCnt * sizeof(WACOMVALUE))`. -/
def clearValues (s : WacomState) : WacomState :=
  { s with values := fun f => if f.index < s.uValueCnt then .zero else s.values f }

/-- The range of every field. -/
def ranges (s : WacomState) (f : Field) : Int32 × Int32 := (s.values f).range

variable (s : WacomState) (f g : Field) (n : Int32)

@[simp] theorem update_uValueCnt (change : WacomValue → WacomValue) :
    (s.update f change).uValueCnt = s.uValueCnt := rfl

@[simp] theorem setValue_uValueCnt : (s.setValue f n).uValueCnt = s.uValueCnt := rfl

@[simp] theorem setMin_uValueCnt : (s.setMin f n).uValueCnt = s.uValueCnt := rfl

@[simp] theorem setMax_uValueCnt : (s.setMax f n).uValueCnt = s.uValueCnt := rfl

@[simp] theorem clearValues_uValueCnt : s.clearValues.uValueCnt = s.uValueCnt := rfl

theorem value_setValue : (s.setValue f n).value g = if g = f then n else s.value g := by
  simp only [value, setValue, update]
  split
  · rfl
  · rfl

@[simp] theorem value_setValue_self : (s.setValue f n).value f = n := by
  rw [value_setValue, if_pos rfl]

@[simp] theorem value_setValue_ne {f g : Field} (h : g ≠ f) (n : Int32) :
    (s.setValue f n).value g = s.value g := by
  rw [value_setValue, if_neg h]

/-- The value of a field is set within its range. -/
@[simp] theorem ranges_setValue : (s.setValue f n).ranges = s.ranges := by
  funext g
  simp only [ranges, setValue, update]
  split
  · rfl
  · rfl

theorem value_clearValues (hcnt : s.uValueCnt = wacomFieldMax) : s.clearValues.value f = 0 := by
  simp only [value, clearValues, hcnt, f.index_lt, if_true]
  rfl

theorem ranges_clearValues (hcnt : s.uValueCnt = wacomFieldMax) :
    s.clearValues.ranges = fun _ => (0, 0) := by
  funext f
  simp only [ranges, clearValues, hcnt, f.index_lt, if_true]
  rfl

end WacomState

/-- `WacomCopyState`: the state copied to, and the number returned. -/
def wacomCopyState (dest src : WacomState) : WacomState × Int :=
  if src.uValueCnt = 0 ∨ dest.uValueCnt = 0 then (dest, 1)
  else
    ({ dest with
        uValid := src.uValid
        values := fun f =>
          if f.index < min dest.uValueCnt src.uValueCnt then src.values f else dest.values f }, 0)

end AndroidX86Tv.Wacom
