import RealTimeWs.Resp.Value
import RealTimeWs.Text.Utf8

/-! # The protocol on the wire

A value starts with a character for its type and every line ends with a carriage
return and a line feed. Bulk strings and arrays declare their lengths in front.
-/

namespace Resp

variable {Text : Type} (bytes : Text → List UInt8)

/-- A line behind the character for its type. -/
def line (marker : Char) (content : List UInt8) : List UInt8 :=
  Utf8.ascii [marker] ++ content ++ Utf8.ascii ['\r', '\n']

/-- A declared length or an integer, as it is printed. -/
def number (n : Int) : List UInt8 := Utf8.ascii n.repr.toList

mutual

/-- The bytes of a value. -/
def encode : Value Text → List UInt8
  | .simple text => line '+' (bytes text)
  | .error text => line '-' (bytes text)
  | .integer n => line ':' (number n)
  | .bulk text => line '$' (number (bytes text).length) ++ bytes text ++ Utf8.ascii ['\r', '\n']
  | .null => line '$' (number (-1))
  | .array items => line '*' (number items.length) ++ encodeAll items

/-- The bytes of values that follow each other. -/
def encodeAll : List (Value Text) → List UInt8
  | [] => []
  | value :: rest => encode value ++ encodeAll rest

end

example : encode id (.array [.bulk (Utf8.ascii ['h', 'i']), .null]) =
    Utf8.ascii "*2\r\n$2\r\nhi\r\n$-1\r\n".toList := by decide

end Resp
