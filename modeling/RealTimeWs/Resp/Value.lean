import Mathlib

/-! # Values of the Redis serialization protocol

The five types of the protocol and the null value, over any type of texts: bytes
on the wire, strings once a parser has decoded them.
-/

namespace Resp

/-- A value of the protocol, whose strings are texts or bytes. -/
inductive Value (Text : Type) where
  | simple (text : Text)
  | error (text : Text)
  | integer (n : Int)
  | bulk (text : Text)
  | null
  | array (items : List (Value Text))

end Resp
