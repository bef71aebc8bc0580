import RealTimeWs.Resp.Line
import RealTimeWs.Text.Strtol

/-! # Parsing the protocol

A parser reads values from the front of what it has been fed and leaves a value that is
not complete for later. What it emits altogether depends only on the bytes and not on
the chunks they came in.
-/

namespace Resp

variable {Text Item : Type}

/-- The bytes up to the first line end, and those behind it. -/
def takeLine : List UInt8 → Option (List UInt8 × List UInt8)
  | [] => none
  | byte :: rest =>
      if byte = 13 ∧ rest.head? = some 10 then some ([], rest.tail)
      else (takeLine rest).map fun read => (byte :: read.1, read.2)

/-- The number on a line. -/
def numberOf (content : List UInt8) : Option Int :=
  Decimal.intValue (String.ofList (content.map Strtol.charOf))

/-- The bytes of a bulk string of the given length, with its line end. -/
def takeBulk (length : Nat) (bytes : List UInt8) : Option (List UInt8 × List UInt8) :=
  if (bytes.drop length).take 2 = lineEnd then
    some (bytes.take length, (bytes.drop length).drop 2)
  else none

/-- A number of items that follow each other. -/
def takeTimes (item : List UInt8 → Option (Item × List UInt8)) :
    Nat → List UInt8 → Option (List Item × List UInt8)
  | 0, bytes => some ([], bytes)
  | count + 1, bytes =>
      (item bytes).bind fun head =>
        (takeTimes item count head.2).map fun tail => (head.1 :: tail.1, tail.2)

section Decoding

variable (ofBytes : List UInt8 → Text)

/-- The value of a line with a marker and a content. Bulk strings and the items of an array
stand behind their line; a negative length or count stands for null. -/
def valueBehind (item : List UInt8 → Option (Value Text × List UInt8)) (marker : UInt8)
    (content rest : List UInt8) : Option (Value Text × List UInt8) :=
  if marker = 43 then some (.simple (ofBytes content), rest)
  else if marker = 45 then some (.error (ofBytes content), rest)
  else if marker = 58 then (numberOf content).map fun n => (.integer n, rest)
  else if marker = 36 then
    (numberOf content).bind fun length =>
      if length < 0 then some (.null, rest)
      else (takeBulk length.toNat rest).map fun read => (.bulk (ofBytes read.1), read.2)
  else if marker = 42 then
    (numberOf content).bind fun count =>
      if count < 0 then some (.null, rest)
      else (takeTimes item count.toNat rest).map fun read => (.array read.1, read.2)
  else none

/-- The value in front of the bytes, with arrays nested up to the depth. -/
def decode : Nat → List UInt8 → Option (Value Text × List UInt8)
  | depth + 1, marker :: bytes =>
      (takeLine bytes).bind fun read => valueBehind ofBytes (decode depth) marker read.1 read.2
  | _, _ => none

/-- The complete values in front of the bytes, one after the other. -/
def decodeAll (depth : Nat) : Nat → List UInt8 → List (Value Text)
  | 0, _ => []
  | fuel + 1, bytes =>
      match decode ofBytes depth bytes with
      | none => []
      | some (value, rest) => value :: decodeAll depth fuel rest

/-- Neither more arrays can be nested than there are bytes, nor more values be complete. -/
def parse (bytes : List UInt8) : List (Value Text) :=
  decodeAll ofBytes bytes.length bytes.length bytes

end Decoding

/-! ## What has been sent is read back -/

theorem takeLine_plain {content : List UInt8} (hplain : Plain content) (rest : List UInt8) :
    takeLine (content ++ (lineEnd ++ rest)) = some (content, rest) := by
  induction content with
  | nil => rfl
  | cons byte content ih =>
      have hbyte : byte ≠ 13 := (hplain byte List.mem_cons_self).1
      have hcontent : Plain content := fun other hmem => hplain other (List.mem_cons_of_mem _ hmem)
      rw [List.cons_append, takeLine, if_neg (fun h => hbyte h.1), ih hcontent]
      rfl

/-- A printed number is made of digits behind a possible minus. -/
theorem sign_or_digit_of_mem_repr {n : Int} {c : Char} (hmem : c ∈ n.repr.toList) :
    c = '-' ∨ c.isDigit = true := by
  have hdigits : ∀ m : Nat, c ∈ m.repr.toList → c.isDigit = true := by
    intro m hdigit
    rw [Nat.toList_repr] at hdigit
    exact Decimal.isDigit_of_mem_toDigits hdigit
  cases n with
  | ofNat n => exact .inr (hdigits n hmem)
  | negSucc n =>
      have htext : (Int.negSucc n).repr.toList = '-' :: (n + 1).repr.toList := by
        change ("-" ++ (n + 1).repr).toList = _
        rw [String.toList_append]
        rfl
      rw [htext, List.mem_cons] at hmem
      exact hmem.imp id (hdigits (n + 1))

theorem toNat_of_mem_repr {n : Int} {c : Char} (hmem : c ∈ n.repr.toList) :
    45 ≤ c.toNat ∧ c.toNat < 128 := by
  rcases sign_or_digit_of_mem_repr hmem with rfl | hdigit
  · decide
  · have hrange := Strtol.toNat_lt_of_isDigit hdigit
    omega

theorem plain_number (n : Int) : Plain (number n) := by
  intro byte hmem
  obtain ⟨c, hc, rfl⟩ := List.mem_map.mp hmem
  have hrange := toNat_of_mem_repr hc
  have htoNat : (UInt8.ofNat c.toNat).toNat = c.toNat := by
    rw [UInt8.toNat_ofNat']
    omega
  constructor
  · intro heq
    rw [heq] at htoNat
    change 13 = c.toNat at htoNat
    omega
  · intro heq
    rw [heq] at htoNat
    change 10 = c.toNat at htoNat
    omega

theorem numberOf_number (n : Int) : numberOf (number n) = some n := by
  rw [numberOf, number, Strtol.map_charOf_ascii fun c hmem => (toNat_of_mem_repr hmem).2,
    String.ofList_toList, Decimal.intValue_int_repr]

theorem takeBulk_append (text rest : List UInt8) :
    takeBulk text.length (text ++ (lineEnd ++ rest)) = some (text, rest) := by
  rw [takeBulk, List.drop_left, List.take_left]
  rfl

section RoundTrip

variable (bytes : Text → List UInt8) (ofBytes : List UInt8 → Text)

mutual

/-- The texts of the value survive being sent, and those on lines contain no line end. -/
def Sendable : Value Text → Prop
  | .simple text => ofBytes (bytes text) = text ∧ Plain (bytes text)
  | .error text => ofBytes (bytes text) = text ∧ Plain (bytes text)
  | .integer _ => True
  | .bulk text => ofBytes (bytes text) = text
  | .null => True
  | .array items => SendableAll items

def SendableAll : List (Value Text) → Prop
  | [] => True
  | value :: rest => Sendable value ∧ SendableAll rest

end

variable {bytes ofBytes}

theorem line_append (marker : Char) (content rest : List UInt8) :
    line marker content ++ rest = UInt8.ofNat marker.toNat :: (content ++ (lineEnd ++ rest)) := by
  simp [line, lineEnd, Utf8.ascii]

mutual

/-- A value is read back from the front of the bytes, and nothing behind it is touched. -/
theorem decode_encode : ∀ (value : Value Text), Sendable bytes ofBytes value →
    ∀ (depth : Nat) (rest : List UInt8), (encode bytes value).length ≤ depth →
      decode ofBytes depth (encode bytes value ++ rest) = some (value, rest)
  | value, hsendable, 0, rest, hdepth => by
      cases value <;> simp [encode, line, Utf8.ascii] at hdepth
  | .simple text, hsendable, depth + 1, rest, _ => by
      rw [encode, line_append, decode, takeLine_plain hsendable.2]
      simp [valueBehind, hsendable.1]
  | .error text, hsendable, depth + 1, rest, _ => by
      rw [encode, line_append, decode, takeLine_plain hsendable.2]
      simp [valueBehind, hsendable.1]
  | .integer n, _, depth + 1, rest, _ => by
      rw [encode, line_append, decode, takeLine_plain (plain_number n)]
      simp [valueBehind, numberOf_number]
  | .bulk text, hsendable, depth + 1, rest, _ => by
      have htext : ofBytes (bytes text) = text := hsendable
      rw [encode, List.append_assoc, List.append_assoc, line_append, decode,
        takeLine_plain (plain_number _)]
      have hbulk : takeBulk (bytes text).length (bytes text ++ (Utf8.ascii ['\r', '\n'] ++ rest)) =
        some (bytes text, rest) := takeBulk_append _ _
      simp [valueBehind, numberOf_number, hbulk, htext]
  | .null, _, depth + 1, rest, _ => by
      rw [encode, line_append, decode, takeLine_plain (plain_number _)]
      simp [valueBehind, numberOf_number]
  | .array items, hsendable, depth + 1, rest, hdepth => by
      have hitems : (encodeAll bytes items).length ≤ depth := by
        simp only [encode, line, Utf8.ascii, List.length_append, List.length_map,
          List.length_cons] at hdepth
        omega
      rw [encode, List.append_assoc, line_append, decode, takeLine_plain (plain_number _)]
      simp [valueBehind, numberOf_number,
        takeTimes_encodeAll items hsendable depth rest hitems]

theorem takeTimes_encodeAll : ∀ (items : List (Value Text)), SendableAll bytes ofBytes items →
    ∀ (depth : Nat) (rest : List UInt8), (encodeAll bytes items).length ≤ depth →
      takeTimes (decode ofBytes depth) items.length (encodeAll bytes items ++ rest) =
        some (items, rest)
  | [], _, _, _, _ => rfl
  | value :: items, hsendable, depth, rest, hdepth => by
      rw [encodeAll, List.length_append] at hdepth
      rw [encodeAll, List.append_assoc, List.length_cons, takeTimes,
        decode_encode value hsendable.1 depth _ (by omega)]
      rw [Option.bind_some, takeTimes_encodeAll items hsendable.2 depth rest (by omega)]
      rfl

end

theorem encode_ne_nil (value : Value Text) : encode bytes value ≠ [] := by
  cases value <;> simp [encode, line, Utf8.ascii]

theorem decodeAll_nil (depth fuel : Nat) : decodeAll ofBytes depth fuel [] = [] := by
  cases fuel with
  | zero => rfl
  | succ fuel => simp [decodeAll, decode]

/-- A value that is sent alone is all that is emitted. -/
theorem parse_encode {value : Value Text} (hsendable : Sendable bytes ofBytes value) :
    parse ofBytes (encode bytes value) = [value] := by
  have hvalue := decode_encode value hsendable (encode bytes value).length [] le_rfl
  rw [List.append_nil] at hvalue
  have hpos : (encode bytes value).length ≠ 0 := by simpa using encode_ne_nil value
  obtain ⟨fuel, hfuel⟩ := Nat.exists_eq_succ_of_ne_zero hpos
  rw [parse]
  conv_lhs => arg 3; rw [hfuel]
  rw [decodeAll, hvalue]
  simp only [decodeAll_nil]

end RoundTrip

/-! ## More bytes change nothing that was complete -/

theorem takeLine_append_right {bytes content rest : List UInt8}
    (hline : takeLine bytes = some (content, rest)) (more : List UInt8) :
    takeLine (bytes ++ more) = some (content, rest ++ more) := by
  induction bytes generalizing content with
  | nil => cases hline
  | cons byte bytes ih =>
      rw [takeLine] at hline
      rw [List.cons_append, takeLine]
      have hne : bytes ≠ [] := by
        rintro rfl
        simp [takeLine] at hline
      rw [List.head?_append_of_ne_nil bytes hne]
      split at hline
      next hend =>
        rw [if_pos hend]
        obtain ⟨rfl, rfl⟩ := Prod.mk.inj (Option.some.inj hline)
        rw [List.tail_append_of_ne_nil hne]
      next hend =>
        rw [if_neg hend]
        obtain ⟨⟨content', rest'⟩, hrest, heq⟩ := Option.map_eq_some_iff.mp hline
        obtain ⟨rfl, rfl⟩ := Prod.mk.inj heq
        rw [ih hrest]
        rfl

theorem takeBulk_append_right {length : Nat} {bytes text rest : List UInt8}
    (hbulk : takeBulk length bytes = some (text, rest)) (more : List UInt8) :
    takeBulk length (bytes ++ more) = some (text, rest ++ more) := by
  rw [takeBulk] at hbulk
  split at hbulk
  next hend =>
    obtain ⟨rfl, rfl⟩ := Prod.mk.inj (Option.some.inj hbulk)
    have hlong : length + 2 ≤ bytes.length := by
      have hlength := congrArg List.length hend
      simp only [List.length_take, List.length_drop, lineEnd, Utf8.ascii, List.length_map,
        List.length_cons, List.length_nil] at hlength
      omega
    rw [takeBulk, List.drop_append_of_le_length (by omega),
      List.take_append_of_le_length (by rw [List.length_drop]; omega), if_pos hend,
      List.take_append_of_le_length (by omega),
      List.drop_append_of_le_length (by rw [List.length_drop]; omega)]
  next => cases hbulk

theorem takeTimes_append_right {item item' : List UInt8 → Option (Item × List UInt8)}
    {more : List UInt8}
    (hitem : ∀ bytes value rest, item bytes = some (value, rest) →
      item' (bytes ++ more) = some (value, rest ++ more))
    {count : Nat} {bytes rest : List UInt8} {items : List Item}
    (htimes : takeTimes item count bytes = some (items, rest)) :
    takeTimes item' count (bytes ++ more) = some (items, rest ++ more) := by
  induction count generalizing bytes items with
  | zero =>
      obtain ⟨rfl, rfl⟩ := Prod.mk.inj (Option.some.inj htimes)
      rfl
  | succ count ih =>
      obtain ⟨⟨head, behind⟩, hhead, htail⟩ := Option.bind_eq_some_iff.mp htimes
      obtain ⟨⟨tail, behind'⟩, hrest, heq⟩ := Option.map_eq_some_iff.mp htail
      obtain ⟨rfl, rfl⟩ := Prod.mk.inj heq
      rw [takeTimes, hitem _ _ _ hhead, Option.bind_some, ih hrest]
      rfl

variable {ofBytes : List UInt8 → Text}

theorem valueBehind_append_right {item item' : List UInt8 → Option (Value Text × List UInt8)}
    {more : List UInt8}
    (hitem : ∀ bytes value rest, item bytes = some (value, rest) →
      item' (bytes ++ more) = some (value, rest ++ more))
    {marker : UInt8} {content behind rest : List UInt8} {value : Value Text}
    (hvalue : valueBehind ofBytes item marker content behind = some (value, rest)) :
    valueBehind ofBytes item' marker content (behind ++ more) = some (value, rest ++ more) := by
  unfold valueBehind at hvalue ⊢
  by_cases hsimple : marker = 43
  · rw [if_pos hsimple] at hvalue ⊢
    cases hvalue
    rfl
  rw [if_neg hsimple] at hvalue ⊢
  by_cases herror : marker = 45
  · rw [if_pos herror] at hvalue ⊢
    cases hvalue
    rfl
  rw [if_neg herror] at hvalue ⊢
  by_cases hinteger : marker = 58
  · rw [if_pos hinteger] at hvalue ⊢
    obtain ⟨n, hn, heq⟩ := Option.map_eq_some_iff.mp hvalue
    cases heq
    rw [hn]
    rfl
  rw [if_neg hinteger] at hvalue ⊢
  by_cases hbulk : marker = 36
  · rw [if_pos hbulk] at hvalue ⊢
    obtain ⟨length, hlength, hvalue⟩ := Option.bind_eq_some_iff.mp hvalue
    rw [hlength, Option.bind_some]
    by_cases hnull : length < 0
    · rw [if_pos hnull] at hvalue ⊢
      cases hvalue
      rfl
    · rw [if_neg hnull] at hvalue ⊢
      obtain ⟨read, hread, heq⟩ := Option.map_eq_some_iff.mp hvalue
      cases heq
      rw [takeBulk_append_right hread]
      rfl
  rw [if_neg hbulk] at hvalue ⊢
  by_cases harray : marker = 42
  · rw [if_pos harray] at hvalue ⊢
    obtain ⟨count, hcount, hvalue⟩ := Option.bind_eq_some_iff.mp hvalue
    rw [hcount, Option.bind_some]
    by_cases hnull : count < 0
    · rw [if_pos hnull] at hvalue ⊢
      cases hvalue
      rfl
    · rw [if_neg hnull] at hvalue ⊢
      obtain ⟨read, hread, heq⟩ := Option.map_eq_some_iff.mp hvalue
      cases heq
      rw [takeTimes_append_right hitem hread]
      rfl
  · rw [if_neg harray] at hvalue
    cases hvalue

theorem decode_append_right {depth depth' : Nat} (hdepth : depth ≤ depth')
    {bytes rest : List UInt8} {value : Value Text}
    (hvalue : decode ofBytes depth bytes = some (value, rest)) (more : List UInt8) :
    decode ofBytes depth' (bytes ++ more) = some (value, rest ++ more) := by
  induction depth generalizing depth' bytes rest value with
  | zero => simp [decode] at hvalue
  | succ depth ih =>
      obtain ⟨depth', rfl⟩ : ∃ smaller, depth' = smaller + 1 :=
        Nat.exists_eq_succ_of_ne_zero (by omega)
      cases bytes with
      | nil => simp [decode] at hvalue
      | cons marker bytes =>
          obtain ⟨read, hline, hvalue⟩ := Option.bind_eq_some_iff.mp hvalue
          rw [List.cons_append, decode, takeLine_append_right hline, Option.bind_some]
          apply valueBehind_append_right _ hvalue
          intro bytes' value' rest' hitem
          exact ih (Nat.le_of_succ_le_succ hdepth) hitem

theorem decodeAll_prefix_append {depth depth' : Nat} (hdepth : depth ≤ depth') {fuel fuel' : Nat}
    (hfuel : fuel ≤ fuel') (bytes more : List UInt8) :
    decodeAll ofBytes depth fuel bytes <+: decodeAll ofBytes depth' fuel' (bytes ++ more) := by
  induction fuel generalizing fuel' bytes with
  | zero => exact List.nil_prefix
  | succ fuel ih =>
      obtain ⟨fuel', rfl⟩ : ∃ smaller, fuel' = smaller + 1 :=
        Nat.exists_eq_succ_of_ne_zero (by omega)
      rw [decodeAll]
      cases hvalue : decode ofBytes depth bytes with
      | none => exact List.nil_prefix
      | some read =>
          rw [decodeAll, decode_append_right hdepth hvalue more]
          exact List.prefix_cons_inj _ |>.mpr (ih (Nat.le_of_succ_le_succ hfuel) _)

theorem parse_prefix_append (bytes more : List UInt8) :
    parse ofBytes bytes <+: parse ofBytes (bytes ++ more) := by
  have hlength : bytes.length ≤ (bytes ++ more).length := by simp
  exact decodeAll_prefix_append hlength hlength bytes more

/-! ## Arrays of bulk strings -/

/-- The bytes of a text of ASCII characters. -/
def textBytes (text : String) : List UInt8 := Utf8.ascii text.toList

/-- The text that bytes are decoded to. -/
def bytesText (bytes : List UInt8) : String := String.ofList (Utf8.decode bytes)

theorem bytesText_textBytes {text : String} (hascii : ∀ c ∈ text.toList, c.toNat < 128) :
    bytesText (textBytes text) = text := by
  rw [bytesText, textBytes, Utf8.decode_ascii text.toList hascii, String.ofList_toList]

theorem parse_bulks (texts : List String)
    (hascii : ∀ text ∈ texts, ∀ c ∈ text.toList, c.toNat < 128) :
    parse bytesText (encode textBytes (.array (texts.map .bulk))) = [.array (texts.map .bulk)] := by
  apply parse_encode
  change SendableAll textBytes bytesText (texts.map .bulk)
  induction texts with
  | nil => trivial
  | cons text rest ih =>
      refine ⟨bytesText_textBytes (hascii text List.mem_cons_self), ih ?_⟩
      intro other hmem
      exact hascii other (List.mem_cons_of_mem _ hmem)

/-! ## Parsers of a connection -/

/-- A parser that is fed one chunk after the other. -/
structure Parser (Text : Type) where
  State : Type
  start : State
  feed : State → List UInt8 → State × List (Value Text)

namespace Parser

/-- What is emitted for the chunks that come next. -/
def emitted (parser : Parser Text) : parser.State → List (List UInt8) → List (Value Text)
  | _, [] => []
  | state, chunk :: rest =>
      (parser.feed state chunk).2 ++ parser.emitted (parser.feed state chunk).1 rest

/-- The output depends only on the concatenation of the chunks. -/
def Incremental (parser : Parser Text) : Prop :=
  ∀ chunks chunks', chunks.flatten = chunks'.flatten →
    parser.emitted parser.start chunks = parser.emitted parser.start chunks'

/-- The parser that keeps what it has been fed and emits what has become complete. -/
def buffered (ofBytes : List UInt8 → Text) : Parser Text where
  State := List UInt8
  start := []
  feed := fun fed chunk =>
    (fed ++ chunk, (parse ofBytes (fed ++ chunk)).drop (parse ofBytes fed).length)

theorem emitted_buffered (chunks : List (List UInt8)) (fed : List UInt8) :
    (buffered ofBytes).emitted fed chunks =
      (parse ofBytes (fed ++ chunks.flatten)).drop (parse ofBytes fed).length := by
  induction chunks generalizing fed with
  | nil => simp [emitted]
  | cons chunk rest ih =>
      have hchunk : parse ofBytes fed <+: parse ofBytes (fed ++ chunk) := parse_prefix_append _ _
      have hrest : parse ofBytes (fed ++ chunk) <+: parse ofBytes (fed ++ chunk ++ rest.flatten) :=
        parse_prefix_append _ _
      obtain ⟨new, hnew⟩ := hchunk
      obtain ⟨later, hlater⟩ := hrest
      change (parse ofBytes (fed ++ chunk)).drop _ ++
        (buffered ofBytes).emitted (fed ++ chunk) rest = _
      rw [ih, List.flatten_cons, ← List.append_assoc, ← hlater, ← hnew]
      simp

theorem buffered_incremental : (buffered ofBytes).Incremental := by
  intro chunks chunks' hsame
  change (buffered ofBytes).emitted [] chunks = (buffered ofBytes).emitted [] chunks'
  rw [emitted_buffered, emitted_buffered, hsame]

end Parser

end Resp
