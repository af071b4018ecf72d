import ScreenPilot.Json.Decode

/-!
# Places on the screen

Rectangles and points are in whole screen coordinates, which may be negative
and are thirty-two bits wide. A frame is what one capture of the screen gave;
its pixels mean nothing here, frames are only compared.
-/

set_option autoImplicit false

namespace ScreenPilot

/-- A point on the screen. -/
structure Point where
  x : Int32
  y : Int32
deriving DecidableEq

/-- A rectangle on the screen, by its upper left corner and its size. -/
structure Rect where
  x : Int32
  y : Int32
  width : Int32
  height : Int32
deriving DecidableEq, Inhabited

namespace Rect

/-- Where a touch on the rectangle lands; half a size is rounded toward zero. -/
def center (rect : Rect) : Point := ⟨rect.x + rect.width / 2, rect.y + rect.height / 2⟩

/-- The rectangle covers nothing. -/
def isEmpty (rect : Rect) : Bool := rect.width ≤ 0 || rect.height ≤ 0

/-- The four numbers of a rectangle. -/
def numbers (rect : Rect) : List Int32 := [rect.x, rect.y, rect.width, rect.height]

/-- The rectangle as it is shown. -/
def text (rect : Rect) : String :=
  "[" ++ ", ".intercalate (rect.numbers.map fun number => toString number.toInt) ++ "]"

/-- The rectangle as an array of its four numbers. -/
def toJson (rect : Rect) : Json := .array (rect.numbers.map fun number => .integer number.toInt)

/-- Reads the four numbers of a rectangle; `count` of them have been read. -/
def ofItems (length : Nat) : List Json → ReadResult Rect
  | x :: y :: width :: height :: surplus => do
    let rect : Rect :=
      ⟨← Decode.int32 x, ← Decode.int32 y, ← Decode.int32 width, ← Decode.int32 height⟩
    if surplus.isEmpty then pure rect
    else throw (.wrongLength length "fewer elements in array")
  | items => do
    let _ ← items.mapM Decode.int32
    throw (.wrongLength length "an array of length 4")

/-- Reads a rectangle from an array of four numbers. -/
def read : Reads Rect
  | .array items => ofItems items.length items
  | other => .error (.wrongKind other "an array of length 4")

end Rect

/-- One captured frame. -/
structure Frame where
  width : UInt32
  height : UInt32
  pixels : List UInt8
deriving DecidableEq, Inhabited

/-- The rectangle a frame covers; sizes keep their bits. -/
def Frame.bounds (frame : Frame) : Rect := ⟨0, 0, frame.width.toInt32, frame.height.toInt32⟩

end ScreenPilot
