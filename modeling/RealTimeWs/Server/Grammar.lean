import RealTimeWs.Server.Frames
import RealTimeWs.Server.Handlers

/-! # Datagrams that are messages

The protocol asks for an array of two bulk strings and nothing else in a datagram,
with a count and lengths that say what is there. The message handler only looks
for something of that shape: it reads neither the count nor the lengths, and it
takes the first place in the datagram where the shape occurs.
-/

namespace RealTimeWs

open Redis

/-- An array that declares two elements, of two bulk strings of letters, digits and
underscores that declare their lengths. -/
def Message (text first second : List Char) : Prop :=
  ∃ count length length', Decimal.natValue count = some 2 ∧
    Decimal.natValue length = some first.length ∧
    Decimal.natValue length' = some second.length ∧
    (∀ c ∈ first, isWordChar c = true) ∧ (∀ c ∈ second, isWordChar c = true) ∧
    text = '*' :: (count ++ (newline ++ ('$' :: (length ++ (newline ++ (first ++
      (newline ++ ('$' :: (length' ++ (newline ++ (second ++ newline)))))))))))

/-- The whole datagram is such an array. -/
def Conforms (msg : List UInt8) (first second : List Char) : Prop :=
  ∃ text, Message text first second ∧ msg = Utf8.ascii text

/-- The handler puts the reading in front of the list of the device. -/
def Stores (msg : List UInt8) (port now : Nat) (device data : String) : Prop :=
  (⟨dataKey device, .lpush data⟩, .ignored) ∈ UDP.message msg port now

theorem stores_iff (msg : List UInt8) (port now : Nat) (device data : String) :
    Stores msg port now device data ↔ UDP.accept msg = some (device, data) := by
  unfold Stores UDP.message silent
  cases haccept : UDP.accept msg with
  | none => simp
  | some reading =>
      obtain ⟨name, value⟩ := reading
      simp [eq_comm]

/-! ## Messages are frames -/

theorem digits_of_natValue {text : List Char} {n : Nat} (hvalue : Decimal.natValue text = some n) :
    Digits text := by
  unfold Decimal.natValue at hvalue
  split at hvalue
  next hdigits => exact ⟨hdigits.1, List.all_eq_true.mp hdigits.2⟩
  next => cases hvalue

/-- A run of digits ends where its line does. -/
theorem digits_newline_inj {digits digits' rest rest' : List Char} (hdigits : Digits digits)
    (hdigits' : Digits digits')
    (heq : digits ++ (newline ++ rest) = digits' ++ (newline ++ rest')) :
    digits = digits' ∧ rest = rest' := by
  have htake : ∀ {text after : List Char}, Digits text →
      (text ++ (newline ++ after)).takeWhile Char.isDigit = text := by
    intro text after htext
    rw [List.takeWhile_append_of_pos htext.2]
    simp [newline]
  have hsame : digits = digits' := by
    rw [← htake hdigits, heq, htake hdigits']
  subst hsame
  exact ⟨rfl, List.append_cancel_left (List.append_cancel_left heq)⟩

/-- The words of a message are determined by its text. -/
theorem Message.unique {text first second first' second' : List Char}
    (hmessage : Message text first second) (hother : Message text first' second') :
    first = first' ∧ second = second' := by
  obtain ⟨count, length, length', hcount, hlength, hlength', _, _, rfl⟩ := hmessage
  obtain ⟨count₁, length₁, length₁', hcount₁, hlength₁, hlength₁', _, _, htext⟩ := hother
  obtain ⟨_, hbulks⟩ := digits_newline_inj (digits_of_natValue hcount)
    (digits_of_natValue hcount₁) (List.cons.inj htext).2
  obtain ⟨rfl, hwords⟩ := digits_newline_inj (digits_of_natValue hlength)
    (digits_of_natValue hlength₁) (List.cons.inj hbulks).2
  -- Equal declared lengths cut off equal words.
  rw [hlength, Option.some.injEq] at hlength₁
  obtain ⟨hfirst, hbulk⟩ := List.append_inj hwords hlength₁
  obtain ⟨_, hword⟩ := digits_newline_inj (digits_of_natValue hlength')
    (digits_of_natValue hlength₁') (List.cons.inj (List.append_cancel_left hbulk)).2
  exact ⟨hfirst, List.append_cancel_right hword⟩

theorem Message.frame {text first second : List Char} (hmessage : Message text first second)
    (hfirst : first ≠ []) (hsecond : second ≠ []) : Frame text first second := by
  obtain ⟨count, length, length', hcount, hlength, hlength', hword, hword', rfl⟩ := hmessage
  refine ⟨count, length, length', [], digits_of_natValue hcount, digits_of_natValue hlength,
    digits_of_natValue hlength', ⟨hfirst, hword⟩, ⟨hsecond, hword'⟩, ?_⟩
  rw [List.append_nil]

/-- Messages are made of ASCII characters. -/
theorem Message.ascii {text first second : List Char} (hmessage : Message text first second) :
    ∀ c ∈ text, c.toNat < 128 := by
  obtain ⟨count, length, length', hcount, hlength, hlength', hword, hword', rfl⟩ := hmessage
  have hdigit : ∀ {digits : List Char}, Digits digits → ∀ c ∈ digits, c.toNat < 128 := by
    intro digits hdigits c hmem
    apply toNat_lt_of_isWordChar
    simp [isWordChar, Char.isAlphanum, hdigits.2 c hmem]
  have hnewline : ∀ c ∈ newline, c.toNat < 128 := by
    intro c hmem
    simp only [newline, List.mem_cons, List.not_mem_nil, or_false] at hmem
    rcases hmem with rfl | rfl <;> decide
  intro c hmem
  simp only [List.mem_cons, List.mem_append] at hmem
  rcases hmem with rfl | h | h | rfl | h | h | h | h | rfl | h | h | h | h
  · decide
  · exact hdigit (digits_of_natValue hcount) c h
  · exact hnewline c h
  · decide
  · exact hdigit (digits_of_natValue hlength) c h
  · exact hnewline c h
  · exact toNat_lt_of_isWordChar (hword c h)
  · exact hnewline c h
  · decide
  · exact hdigit (digits_of_natValue hlength') c h
  · exact hnewline c h
  · exact toNat_lt_of_isWordChar (hword' c h)
  · exact hnewline c h

theorem Conforms.decode {msg : List UInt8} {first second : List Char}
    (hconforms : Conforms msg first second) : Message (Utf8.decode msg) first second := by
  obtain ⟨text, hmessage, rfl⟩ := hconforms
  rw [Utf8.decode_ascii text hmessage.ascii]
  exact hmessage

/-- A message with two words is accepted with these words. -/
theorem Conforms.accept {msg : List UInt8} {first second : List Char}
    (hconforms : Conforms msg first second) (hfirst : first ≠ []) (hsecond : second ≠ []) :
    UDP.accept msg = some (String.ofList (first.map Char.toLower), String.ofList second) := by
  apply (accept_eq_some_iff msg _ _).mpr
  refine ⟨first, second, ⟨[], _, rfl, hconforms.decode.frame hfirst hsecond, ?_⟩, rfl, rfl⟩
  intro before' rest' _ hlt
  cases hlt

/-! ## What is stored -/

/-- What is stored is what the protocol says exactly when the datagram is a message
with two words, or is no message and has nothing of the shape anywhere. -/
theorem stores_message_iff (msg : List UInt8) (port now : Nat) :
    (∀ device data, Stores msg port now device data ↔
      ∃ first second, Conforms msg first second ∧
        device = String.ofList (first.map Char.toLower) ∧ data = String.ofList second) ↔
      (∃ first second, Conforms msg first second ∧ first ≠ [] ∧ second ≠ []) ∨
        (∀ first second, ¬ Conforms msg first second) ∧
          ∀ before rest first second, Utf8.decode msg = before ++ rest →
            ¬ Frame rest first second := by
  constructor
  · intro hstores
    by_cases hmessage : ∃ first second, Conforms msg first second
    · obtain ⟨first, second, hconforms⟩ := hmessage
      have hstored := (hstores _ _).mpr ⟨first, second, hconforms, rfl, rfl⟩
      obtain ⟨hdevice, hdata⟩ := word_of_accept ((stores_iff _ _ _ _ _).mp hstored)
      left
      refine ⟨first, second, hconforms, ?_, ?_⟩
      · simpa using hdevice.1
      · simpa using hdata.1
    · right
      refine ⟨fun first second hconforms => hmessage ⟨first, second, hconforms⟩, ?_⟩
      intro before rest first second hsplit hframe
      have hsome := (accept_isSome_iff msg).mpr ⟨before, rest, first, second, hsplit, hframe⟩
      obtain ⟨⟨device, data⟩, haccept⟩ := Option.isSome_iff_exists.mp hsome
      obtain ⟨first', second', hconforms, _⟩ :=
        (hstores device data).mp ((stores_iff _ _ _ _ _).mpr haccept)
      exact hmessage ⟨first', second', hconforms⟩
  · intro hcondition device data
    rw [stores_iff]
    rcases hcondition with ⟨first, second, hconforms, hfirst, hsecond⟩ | ⟨hnone, hframes⟩
    · rw [hconforms.accept hfirst hsecond]
      constructor
      · intro heq
        obtain ⟨hdevice, hdata⟩ := Prod.mk.inj (Option.some.inj heq)
        exact ⟨first, second, hconforms, hdevice.symm, hdata.symm⟩
      · rintro ⟨first', second', hconforms', rfl, rfl⟩
        obtain ⟨rfl, rfl⟩ := hconforms.decode.unique hconforms'.decode
        rfl
    · constructor
      · intro haccept
        have hsome : (UDP.accept msg).isSome := by rw [haccept]; rfl
        obtain ⟨before, rest, first, second, hsplit, hframe⟩ := (accept_isSome_iff msg).mp hsome
        exact absurd hframe (hframes before rest first second hsplit)
      · rintro ⟨first, second, hconforms, _⟩
        exact absurd hconforms (hnone first second)

/-- A datagram that declares nine elements and wrong lengths, behind other text. -/
def misdeclared : List UInt8 :=
  Utf8.ascii "noise*9\r\n$1\r\nadc00000001\r\n$99\r\n0512\r\n".toList

set_option maxRecDepth 20000 in
theorem accept_misdeclared : UDP.accept misdeclared = some ("adc00000001", "0512") := by
  decide

/-- It is stored although it is no message. -/
theorem misdeclared_stored :
    Stores misdeclared 4001 0 "adc00000001" "0512" ∧
      ¬ ∃ first second, Conforms misdeclared first second := by
  refine ⟨(stores_iff _ _ _ _ _).mpr accept_misdeclared, ?_⟩
  rintro ⟨first, second, text, hmessage, htext⟩
  obtain ⟨count, length, length', _, _, _, _, _, rfl⟩ := hmessage
  have hhead := congrArg List.head? htext
  simp [misdeclared, Utf8.ascii] at hhead

end RealTimeWs
