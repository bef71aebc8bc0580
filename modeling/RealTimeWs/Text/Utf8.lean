import Mathlib

/-! # Decoding of UTF-8 with replacement characters

Bytes are decoded one after the other. A sequence that cannot be continued is
replaced by one replacement character, and the byte that broke it is read again
as a first byte. Bytes below 128 therefore always stand for themselves.
-/

namespace Utf8

/-- Between characters, or inside a sequence that owes continuation bytes of
which the next one lies between `lower` and `upper`. -/
inductive Progress where
  | idle
  | owing (missing value lower upper : Nat)

/-- The character that stands for bytes that cannot be decoded. -/
def replacement : Char := Char.ofNat 0xFFFD

/-- A byte that starts a character. -/
def first (byte : Nat) : List Char × Progress :=
  if byte ≤ 0x7F then ([Char.ofNat byte], .idle)
  else if 0xC2 ≤ byte ∧ byte ≤ 0xDF then ([], .owing 1 (byte - 0xC0) 0x80 0xBF)
  else if 0xE0 ≤ byte ∧ byte ≤ 0xEF then
    ([], .owing 2 (byte - 0xE0) (if byte = 0xE0 then 0xA0 else 0x80)
      (if byte = 0xED then 0x9F else 0xBF))
  else if 0xF0 ≤ byte ∧ byte ≤ 0xF4 then
    ([], .owing 3 (byte - 0xF0) (if byte = 0xF0 then 0x90 else 0x80)
      (if byte = 0xF4 then 0x8F else 0xBF))
  else ([replacement], .idle)

/-- The characters completed by one byte. -/
def next : Progress → Nat → List Char × Progress
  | .idle, byte => first byte
  | .owing missing value lower upper, byte =>
      if lower ≤ byte ∧ byte ≤ upper then
        let value := value * 64 + (byte - 0x80)
        if missing = 1 then ([Char.ofNat value], .idle)
        else ([], .owing (missing - 1) value 0x80 0xBF)
      else (replacement :: (first byte).1, (first byte).2)

/-- The characters of the remaining bytes. A sequence that is cut off at the end is replaced. -/
def decodeFrom : Progress → List UInt8 → List Char
  | .idle, [] => []
  | .owing _ _ _ _, [] => [replacement]
  | progress, byte :: rest =>
      (next progress byte.toNat).1 ++ decodeFrom (next progress byte.toNat).2 rest

/-- The text of a buffer. -/
def decode (bytes : List UInt8) : List Char :=
  decodeFrom .idle bytes

/-- The bytes of a text all of whose characters are below 128. -/
def ascii (text : List Char) : List UInt8 :=
  text.map fun c => UInt8.ofNat c.toNat

theorem ascii_append (text text' : List Char) :
    ascii (text ++ text') = ascii text ++ ascii text' :=
  List.map_append

/-- Bytes below 128 are read back as they were written. -/
theorem decode_ascii (text : List Char) (hascii : ∀ c ∈ text, c.toNat < 128) :
    decode (ascii text) = text := by
  induction text with
  | nil => rfl
  | cons c rest ih =>
      have hc : c.toNat < 128 := hascii c List.mem_cons_self
      have hrest : decodeFrom .idle (ascii rest) = rest :=
        ih fun c hmem => hascii c (List.mem_cons_of_mem _ hmem)
      have hbyte : (UInt8.ofNat c.toNat).toNat = c.toNat := by
        rw [UInt8.toNat_ofNat']
        omega
      have hnext : next .idle c.toNat = ([c], .idle) := by
        simp only [next, first, if_pos (show c.toNat ≤ 0x7F by omega), Char.ofNat_toNat]
      change decodeFrom .idle (UInt8.ofNat c.toNat :: ascii rest) = c :: rest
      rw [decodeFrom, hbyte, hnext, hrest]
      rfl

example : decode [0x41, 0xE2, 0x82, 0xAC, 0xC3, 0x42] =
    ['A', Char.ofNat 0x20AC, replacement, 'B'] := by decide

end Utf8
