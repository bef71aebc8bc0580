import RealTimeWs.Resp.Value
import RealTimeWs.Text.Regex
import RealTimeWs.Text.Utf8
import RealTimeWs.Text.Number

/-! # Messages of concentrators

How the two hooks read what they receive. A datagram has to contain two bulk
strings in a row; a TCP chunk only has to contain one somewhere before the whole
chunk is handed to the parser of its connection, which then emits arbitrary values.
-/

namespace RealTimeWs

open Regex

/-- The characters of `[0-9a-z_]` without regard to case. -/
def isWordChar (c : Char) : Bool := c.isAlphanum || c == '_'

/-- `[\r][\n]` -/
def crlf : Pattern := .seq (.lit '\r') (.lit '\n')

namespace UDP

/-- `/\*[0-9]+([\r][\n])\$[0-9]+\1([0-9a-z_]+)\1\$[0-9]+\1([0-9a-z_]+)\1+/i` -/
def pattern : Pattern :=
  .all (.lit '*') [.plus (.one Char.isDigit), .group 1 crlf,
    .lit '$', .plus (.one Char.isDigit), .backref 1, .group 2 (.plus (.one isWordChar)), .backref 1,
    .lit '$', .plus (.one Char.isDigit), .backref 1, .group 3 (.plus (.one isWordChar)),
    .plus (.backref 1)]

/-- The device and the reading that the message handler takes from a datagram. -/
def accept (msg : List UInt8) : Option (String × String) :=
  (pattern.search (Utf8.decode msg)).bind fun stop =>
    (stop.groups 2).bind fun device =>
      (stop.groups 3).map fun data =>
        (String.ofList (device.map Char.toLower), String.ofList data)

end UDP

namespace TCP

/-- `/\*[0-9]+([\r][\n])(\$[0-9]+\1[0-9a-z]+\1)+/i` -/
def pattern : Pattern :=
  .all (.lit '*') [.plus (.one Char.isDigit), .group 1 crlf,
    .plus (.group 2 (.all (.lit '$') [.plus (.one Char.isDigit), .backref 1,
      .plus (.one Char.isAlphanum), .backref 1]))]

/-- Whether the data handler passes a chunk on to the parser. -/
def passes (data : List UInt8) : Bool :=
  (pattern.search (Utf8.decode data)).isSome

/-- `response[0].toLowerCase() == 'ping'`, or none where this throws. The first
element of a string is its first character and never the whole word. -/
def isPing (toLowerCase : String → String) : Resp.Value String → Option Bool
  | .array (.simple text :: _) => some (toLowerCase text = "ping")
  | .array (.bulk text :: _) => some (toLowerCase text = "ping")
  | .simple text => if text = "" then none else some false
  | .bulk text => if text = "" then none else some false
  | _ => none

mutual

/-- `String` of a decoded value. -/
def toText : Resp.Value String → String
  | .simple text => text
  | .error text => "Error: " ++ text
  | .integer n => n.repr
  | .bulk text => text
  | .null => "null"
  | .array items => String.intercalate "," (itemTexts items)

/-- The texts that `String` joins for an array; null counts as empty. -/
def itemTexts : List (Resp.Value String) → List String
  | [] => []
  | .null :: rest => "" :: itemTexts rest
  | item :: rest => toText item :: itemTexts rest

end

/-- `String(response[1])` -/
def secondText : Resp.Value String → String
  | .array (_ :: second :: _) => toText second
  | _ => "undefined"

end TCP

end RealTimeWs
