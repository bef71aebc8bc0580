import RealTimeWs.Resp.Line

/-! # The encoders of the concentrator

The three functions copy a type byte, a string and a line end into new memory. Two of
them were copied from the first one and keep its type byte, and the last one takes a
number for the string that its pointer would lead to.
-/

namespace RealTimeWs

/-- The string in memory: the bytes up to the first zero. -/
def cString (memory : List UInt8) : List UInt8 := memory.takeWhile (· ≠ 0)

/-- The line end. -/
def CRLF : List UInt8 := [0x0d, 0x0a]

/-- Copy a marker, append a string and a line end. -/
def respCopy (marker : Char) (memory : List UInt8) : List UInt8 :=
  Utf8.ascii [marker] ++ cString memory ++ CRLF

/-- `respString`: a simple string. -/
def respString (string : List UInt8) : List UInt8 := respCopy '+' string

/-- `respError`, with the type byte of a simple string. -/
def respError (string : List UInt8) : List UInt8 := respCopy '+' string

/-- `respInt`. The argument is the memory that the pointer to the number leads to. -/
def respInt (integer : List UInt8) : List UInt8 := respCopy '+' integer

/-- A number of 32 bits in memory, its lowest byte first. -/
def intBytes (n : Int) : List UInt8 :=
  (List.range 4).map fun index => UInt8.ofNat ((n % 2 ^ 32).toNat / 256 ^ index % 256)

theorem cString_of_ne_zero {string : List UInt8} (hzero : ∀ byte ∈ string, byte ≠ 0) :
    cString string = string := by
  rw [cString, List.takeWhile_eq_self_iff]
  intro byte hmem
  exact decide_eq_true (hzero byte hmem)

/-- A simple string is read back as it was encoded. -/
theorem decodeLine_respString {string : List UInt8} (hplain : Resp.Plain string)
    (hzero : ∀ byte ∈ string, byte ≠ 0) :
    Resp.decodeLine (respString string) = some (.simple string) := by
  have hline : respString string = 43 :: (string ++ Resp.lineEnd) := by
    rw [respString, respCopy, cString_of_ne_zero hzero]
    rfl
  rw [hline, Resp.decodeLine_line hplain]
  rfl

/-- Simple strings are encoded right. Errors are encoded as simple strings, so the two cannot be
told apart, and no number in memory is encoded as an integer. -/
theorem encoders_decode (string : List UInt8) (hplain : Resp.Plain string)
    (hzero : ∀ byte ∈ string, byte ≠ 0) (n : Int) (behind : List UInt8) :
    Resp.decodeLine (respString string) = some (.simple string) ∧
      Resp.decodeLine (respError string) ≠ some (.error string) ∧
      Resp.decodeLine (respInt (intBytes n ++ behind)) ≠ some (.integer n) ∧
      respError string = respString string := by
  have hsimple := decodeLine_respString hplain hzero
  refine ⟨hsimple, ?_, ?_, rfl⟩
  · rw [show respError string = respString string from rfl, hsimple]
    intro heq
    cases heq
  · intro hinteger
    obtain ⟨content, hcontent⟩ := Resp.decodeLine_simple hinteger
    cases hcontent

theorem encoders_decode_ok :
    Resp.decodeLine (respString [79, 75]) = some (.simple [79, 75]) ∧
      Resp.decodeLine (respError [79, 75]) ≠ some (.error [79, 75]) ∧
      Resp.decodeLine (respInt (intBytes 54986 ++ [])) ≠ some (.integer 54986) ∧
      respError [79, 75] = respString [79, 75] :=
  encoders_decode [79, 75] (by simp [Resp.Plain]) (by simp) 54986 []

/-- The error of the manual gets the type byte of a simple string. -/
theorem error_encoded_as_simple :
    respError (Utf8.ascii "Error 123".toList) = Utf8.ascii "+Error 123\r\n".toList ∧
      Resp.decodeLine (respError (Utf8.ascii "Error 123".toList)) ≠
        some (.error (Utf8.ascii "Error 123".toList)) := by
  refine ⟨by decide, ?_⟩
  intro herror
  obtain ⟨content, hcontent⟩ := Resp.decodeLine_simple herror
  cases hcontent

end RealTimeWs
