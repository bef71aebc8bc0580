import RealTimeWs.Resp.Wire
import RealTimeWs.Text.Decimal

/-! # Reading single lines

Simple strings, errors and integers are one line each: a byte for the type, the content
and a line end that may not occur before.
-/

namespace Resp

/-- The end of a line. -/
def lineEnd : List UInt8 := Utf8.ascii ['\r', '\n']

/-- The content may stand on a line. -/
def Plain (content : List UInt8) : Prop := ∀ byte ∈ content, byte ≠ 13 ∧ byte ≠ 10

instance (content : List UInt8) : Decidable (Plain content) :=
  inferInstanceAs (Decidable (∀ byte ∈ content, byte ≠ 13 ∧ byte ≠ 10))

/-- The value of a type and a content. -/
def valueOf (marker : UInt8) (content : List UInt8) : Option (Value (List UInt8)) :=
  if marker = 43 then some (.simple content)
  else if marker = 45 then some (.error content)
  else if marker = 58 then
    (Decimal.intValue (String.ofList (content.map fun byte => Char.ofNat byte.toNat))).map .integer
  else none

/-- The value on a line. -/
def decodeLine : List UInt8 → Option (Value (List UInt8))
  | [] => none
  | marker :: rest =>
      let content := rest.take (rest.length - 2)
      if rest = content ++ lineEnd ∧ Plain content then valueOf marker content else none

theorem decodeLine_line {content : List UInt8} (hplain : Plain content) (marker : UInt8) :
    decodeLine (marker :: (content ++ lineEnd)) = valueOf marker content := by
  have hcontent : (content ++ lineEnd).take ((content ++ lineEnd).length - 2) = content := by
    have hlength : (content ++ lineEnd).length - 2 = content.length := by
      rw [List.length_append]
      exact Nat.add_sub_cancel content.length 2
    rw [hlength, List.take_left]
  rw [decodeLine]
  simp only [hcontent]
  exact if_pos ⟨trivial, hplain⟩

/-- Only the byte for its type makes a line an integer or an error. -/
theorem decodeLine_simple {rest : List UInt8} {value : Value (List UInt8)}
    (hvalue : decodeLine (43 :: rest) = some value) : ∃ content, value = .simple content := by
  simp only [decodeLine] at hvalue
  split at hvalue
  · exact ⟨_, (Option.some.inj hvalue).symm⟩
  · cases hvalue

end Resp
