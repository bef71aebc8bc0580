import RealTimeWs.Server.Grammar
import RealTimeWs.Concentrator.Udp
import RealTimeWs.Concentrator.PingClient
import RealTimeWs.Resp.Parser

/-! # The way of a reading and back

A reading leaves the concentrator as four digits in a message, is taken from it by the
pattern of the server, becomes a number and then a field of a table; the value of that
field comes back as a decimal number and sets the timer. The PING of the concentrator
names the same device as its readings.
-/

namespace RealTimeWs

open Redis Regex

/-- The identifier of a concentrator. -/
structure DeviceUid where
  text : List Char
  length : text.length = 11
  word : ∀ c ∈ text, isWordChar c = true

/-- The name under which the server knows the concentrator. -/
def DeviceUid.lower (uid : DeviceUid) : String := String.ofList (uid.text.map Char.toLower)

theorem DeviceUid.ascii (uid : DeviceUid) : ∀ c ∈ uid.text, c.toNat < 128 := fun c hmem =>
  toNat_lt_of_isWordChar (uid.word c hmem)

/-- The parser reads arrays of bulk strings as they were sent. -/
def ParsesBulks (parse : List UInt8 → List (Resp.Value String)) : Prop :=
  ∀ texts : List String, (∀ text ∈ texts, ∀ c ∈ text.toList, c.toNat < 128) →
    parse (Resp.encode Resp.textBytes (.array (texts.map .bulk))) = [.array (texts.map .bulk)]

/-- The conversion agrees with that of single characters where these are ASCII. -/
def LowersAscii (toLowerCase : String → String) : Prop :=
  ∀ text : List Char, (∀ c ∈ text, c.toNat < 128) →
    toLowerCase (String.ofList text) = String.ofList (text.map Char.toLower)

/-! ## The message with a reading -/

theorem isWordChar_of_isDigit {c : Char} (hdigit : c.isDigit = true) : isWordChar c = true := by
  simp [isWordChar, Char.isAlphanum, hdigit]

/-- The message is an array of two bulk strings with their lengths. -/
theorem concentratorSend_eq_encode (uid : DeviceUid) (sender : Concentrator)
    (hreading : sender.uhADCxConvertedValue ≤ 1023) :
    concentratorSend uid.text sender =
      Resp.encode Resp.textBytes (.array [.bulk (String.ofList uid.text),
        .bulk (String.ofList (Decimal.padded 4 sender.uhADCxConvertedValue))]) := by
  have hwidth : (Decimal.padded 4 sender.uhADCxConvertedValue).length = 4 :=
    Decimal.padded_length 4 _ (by decide) (by omega)
  have huid : (Resp.textBytes (String.ofList uid.text)).length = 11 := by
    simp [Resp.textBytes, Utf8.ascii, uid.length]
  have hpadded : (Resp.textBytes (String.ofList (Decimal.padded 4 sender.uhADCxConvertedValue))
      ).length = 4 := by
    simp [Resp.textBytes, Utf8.ascii, hwidth]
  simp only [Resp.encode, Resp.encodeAll, huid, hpadded, List.length_cons, List.length_nil]
  simp only [concentratorSend, Utf8.ascii_append, Resp.line, Resp.number, Resp.textBytes,
    String.toList_ofList, List.append_assoc, List.append_nil]
  rfl

theorem concentratorSend_conforms (uid : DeviceUid) (sender : Concentrator)
    (hreading : sender.uhADCxConvertedValue ≤ 1023) :
    Conforms (concentratorSend uid.text sender) uid.text
      (Decimal.padded 4 sender.uhADCxConvertedValue) := by
  have hwidth : (Decimal.padded 4 sender.uhADCxConvertedValue).length = 4 :=
    Decimal.padded_length 4 _ (by decide) (by omega)
  refine ⟨_, ⟨['2'], ['1', '1'], ['4'], by decide, ?_, ?_, uid.word, ?_, rfl⟩, ?_⟩
  · rw [uid.length]
    decide
  · rw [hwidth]
    decide
  · intro c hmem
    exact isWordChar_of_isDigit (Decimal.isDigit_of_mem_padded hmem)
  · rw [concentratorSend]
    congr 1
    simp [newline]

/-! ## The PING -/

namespace TCP

/-- The part of the pattern that is repeated. -/
def bulkPattern : Pattern :=
  .all (.lit '$') [.plus (.one Char.isDigit), .backref 1, .plus (.one Char.isAlphanum), .backref 1]

theorem reach_bulkPattern {groups : Nat → Option (List Char)} (hcaptured : groups 1 = some newline)
    {length word : List Char} (hlength : Digits length) (hne : word ≠ [])
    (hword : ∀ c ∈ word, c.isAlphanum = true) (after : List Char) :
    bulkPattern.reach ⟨'$' :: (length ++ (newline ++ (word ++ (newline ++ after)))), groups⟩ =
      [⟨after, groups⟩] := by
  have hdigit : Char.isDigit '\r' = false := by decide
  have halphanum : Char.isAlphanum '\r' = false := by decide
  have hlast : ∀ c rest, Char.isAlphanum c = true →
      (Pattern.backref 1).reach ⟨c :: rest, groups⟩ = [] := by
    intro c rest hc
    have hreturn : '\r' ≠ c := by
      rintro rfl
      cases hc
    simp [Pattern.reach, hcaptured, newline, hreturn]
  simp only [bulkPattern, Pattern.all]
  rw [reach_lit_cons,
    reach_run hlength.1 hlength.2 (head_newline hdigit)
      fun c rest => backref_refuses hdigit hcaptured,
    reach_backref hcaptured, reach_run hne hword (head_newline halphanum) hlast]
  simp [Pattern.reach, hcaptured]

/-- A count and one bulk string in front are enough for the data handler. -/
theorem passes_of_bulk {count length word : List Char} (hcount : Digits count)
    (hlength : Digits length) (hne : word ≠ []) (hword : ∀ c ∈ word, c.isAlphanum = true)
    (after : List Char) (data : List UInt8)
    (hdata : Utf8.decode data = '*' :: (count ++ (newline ++ ('$' :: (length ++ (newline ++ (word ++
      (newline ++ after)))))))) : passes data = true := by
  have hdigit : Char.isDigit '\r' = false := by decide
  rw [passes, hdata, search_isSome_iff]
  refine ⟨[], _, rfl, ?_⟩
  change (Pattern.all (.lit '*') [.plus (.one Char.isDigit), .group 1 crlf,
    .plus (.group 2 bulkPattern)]).reach _ ≠ []
  simp only [Pattern.all]
  rw [reach_lit_cons, reach_run hcount.1 hcount.2 (head_newline hdigit)
    fun c rest => group_newline_refuses hdigit, reach_group_newline]
  apply List.ne_nil_of_mem
  apply mem_reach_plus
  rw [Pattern.reach, reach_bulkPattern rfl hlength hne hword, List.map_singleton]
  exact List.mem_singleton_self _

theorem passes_tcpData (uid : DeviceUid) : passes (tcpData uid.text) = true := by
  have hascii : ∀ c ∈ "*2\r\n$4\r\nPING\r\n$11\r\n".toList ++ uid.text ++ "\r\n".toList,
      c.toNat < 128 := by
    simp only [List.mem_append]
    rintro c ((hmem | hmem) | hmem)
    · revert c
      simp
    · exact uid.ascii c hmem
    · revert c
      simp
  have hdata : Utf8.decode (tcpData uid.text) = '*' :: (['2'] ++ (newline ++ ('$' :: (['4'] ++
      (newline ++ (['P', 'I', 'N', 'G'] ++ (newline ++
        ("$11\r\n".toList ++ uid.text ++ "\r\n".toList)))))))) := by
    rw [tcpData, Utf8.decode_ascii _ hascii]
    simp [newline]
  exact passes_of_bulk ⟨by simp, by simp⟩ ⟨by simp, by simp⟩ (by simp) (by simp) _ _ hdata

end TCP

theorem tcpData_eq_encode (uid : DeviceUid) :
    tcpData uid.text =
      Resp.encode Resp.textBytes (.array [.bulk "PING", .bulk (String.ofList uid.text)]) := by
  have huid : (Resp.textBytes (String.ofList uid.text)).length = 11 := by
    simp [Resp.textBytes, Utf8.ascii, uid.length]
  have hping : (Resp.textBytes "PING").length = 4 := by decide
  simp only [Resp.encode, Resp.encodeAll, huid, hping, List.length_cons, List.length_nil]
  simp only [tcpData, Utf8.ascii_append, Resp.line, Resp.number, Resp.textBytes,
    String.toList_ofList, List.append_assoc, List.append_nil]
  rfl

/-- The response handler takes the message for a PING of the device. -/
theorem response_tcpData {parse : List UInt8 → List (Resp.Value String)}
    (hparse : ParsesBulks parse) {toLowerCase : String → String} (hlower : LowersAscii toLowerCase)
    (uid : DeviceUid) :
    ∃ value, parse (tcpData uid.text) = [value] ∧ TCP.isPing toLowerCase value = some true ∧
      toLowerCase (TCP.secondText value) = uid.lower := by
  have hascii : ∀ text ∈ ["PING", String.ofList uid.text], ∀ c ∈ text.toList, c.toNat < 128 := by
    intro text hmem
    simp only [List.mem_cons, List.not_mem_nil, or_false] at hmem
    rcases hmem with rfl | rfl
    · simp
    · rw [String.toList_ofList]
      exact uid.ascii
  refine ⟨.array [.bulk "PING", .bulk (String.ofList uid.text)], ?_, ?_, ?_⟩
  · rw [tcpData_eq_encode]
    exact hparse ["PING", String.ofList uid.text] hascii
  · have hping := hlower "PING".toList (by simp)
    rw [String.ofList_toList] at hping
    rw [TCP.isPing, hping]
    decide
  · exact hlower uid.text uid.ascii

/-! ## The setting that comes back -/

/-- A number of the table sets its percentage and the compare value of that. -/
theorem udpReceiveCallback_repr (receiver : Concentrator) {value : Nat} (hvalue : value ≤ 1023)
    (hperiod : 1 ≤ receiver.uhTimerPeriod) (hwidth : receiver.uhTimerPeriod < 2 ^ 32)
    (hfits : 100 * value / 1023 * (receiver.uhTimerPeriod - 1) < 2 ^ 32) {byte : UInt8}
    (hstop : (Strtol.charOf byte).isDigit = false) (behind : List UInt8) :
    let state := udpReceiveCallback (Resp.textBytes value.repr ++ byte :: behind) receiver
    state.uhADCxConvertedValuePercent = 100 * value / 1023 ∧
      state.aCCValueBuffer = 100 * value / 1023 * (receiver.uhTimerPeriod - 1) / 100 := by
  have hsigned : Decimal.signedValue value.repr.toList = some (value : Int) :=
    Decimal.signedValue_of_digits (Decimal.natValue_repr value)
  have hread : toUint16 (Strtol.strtol 32 (Resp.textBytes value.repr ++ byte :: behind)) =
      value := by
    rw [Resp.textBytes, Strtol.strtol_decimal 32 hsigned hstop, toUint16]
    rcases saturate_cases (value : Int) with ⟨hlow, _⟩ | ⟨_, hsaturated⟩ | ⟨hhigh, _⟩
    · omega
    · rw [hsaturated]
      omega
    · omega
  have hpercent : percentOf value = 100 * value / 1023 := by
    rw [percentOf_eq, Nat.min_eq_left hvalue]
  have hbefore : (receiver.uhTimerPeriod + (2 ^ 32 - 1)) % 2 ^ 32 = receiver.uhTimerPeriod - 1 := by
    omega
  simp only [udpReceiveCallback, hread, hpercent, compareValue, hbefore, Nat.mod_eq_of_lt hfits]
  exact ⟨trivial, trivial⟩

/-! ## The whole way -/

/-- The message with a reading is an array of two bulk strings from which the server takes the
name of the concentrator and a text that denotes the reading; the PING reaches the response
handler and names the same concentrator; and what the table has for the reading is what the
forwarder sends, and sets the percentage and the compare value that it stands for. -/
theorem codec_agrees (uid : DeviceUid) (sender : Concentrator)
    (hreading : sender.uhADCxConvertedValue ≤ 1023)
    {parse : List UInt8 → List (Resp.Value String)} (hparse : ParsesBulks parse)
    {toLowerCase : String → String} (hlower : LowersAscii toLowerCase)
    (T : Nat → Nat) (hT : ∀ i ≤ 1023, T i ≤ 1023)
    (table : Hash) (htable : ∀ i ≤ 1023, table i.repr = some (T i).repr)
    (receiver : Concentrator) (hperiod : 1 ≤ receiver.uhTimerPeriod)
    (hwidth : receiver.uhTimerPeriod < 2 ^ 32)
    (hfits : 100 * T sender.uhADCxConvertedValue / 1023 * (receiver.uhTimerPeriod - 1) < 2 ^ 32)
    (byte : UInt8) (hstop : (Strtol.charOf byte).isDigit = false) (behind : List UInt8) :
    (∃ data, concentratorSend uid.text sender =
        Resp.encode Resp.textBytes (.array [.bulk (String.ofList uid.text), .bulk data]) ∧
      UDP.accept (concentratorSend uid.text sender) = some (uid.lower, data) ∧
      Script.number data = .nat sender.uhADCxConvertedValue ∧
      ∃ newValue, table (Script.text (UDP.readingNumber (.bulk (some data)))) = some newValue ∧
        newValue = (T sender.uhADCxConvertedValue).repr ∧
        (∀ device connected readAt record recordAt memory port,
          UDP.sendPort (record "udp_port") = some port →
          ∃ sent, (UDP.forwardHget device connected (.bulk (some data)) readAt record recordAt
            memory (.bulk (some newValue))).outputs = [.datagram sent] ∧
              sent.message = newValue) ∧
        let state := udpReceiveCallback (Resp.textBytes newValue ++ byte :: behind) receiver
        state.uhADCxConvertedValuePercent = 100 * T sender.uhADCxConvertedValue / 1023 ∧
          state.aCCValueBuffer =
            state.uhADCxConvertedValuePercent * (receiver.uhTimerPeriod - 1) / 100) ∧
      TCP.passes (tcpData uid.text) = true ∧
      ∃ value, parse (tcpData uid.text) = [value] ∧ TCP.isPing toLowerCase value = some true ∧
        toLowerCase (TCP.secondText value) = uid.lower := by
  have hnumber : Script.number (String.ofList (Decimal.padded 4 sender.uhADCxConvertedValue)) =
      .nat sender.uhADCxConvertedValue :=
    Script.number_of_digits (Decimal.natValue_padded 4 _) (by omega)
  have hnonempty : uid.text ≠ [] := by
    intro hnil
    have hlength := uid.length
    rw [hnil] at hlength
    cases hlength
  have hdigits : Decimal.padded 4 sender.uhADCxConvertedValue ≠ [] :=
    (Decimal.digits_of_natValue_eq (Decimal.natValue_padded 4 _)).1
  refine ⟨⟨_, concentratorSend_eq_encode uid sender hreading,
    (concentratorSend_conforms uid sender hreading).accept hnonempty hdigits, hnumber,
    _, ?_, rfl, ?_, ?_⟩, TCP.passes_tcpData uid, response_tcpData hparse hlower uid⟩
  · rw [UDP.readingNumber, hnumber, (Script.text_eq_repr (Nat.lt_succ_of_le hreading)).mpr rfl]
    exact htable _ hreading
  · intro device connected readAt record recordAt memory port hport
    rw [UDP.forwardHget, hport]
    exact ⟨_, rfl, rfl⟩
  · obtain ⟨hpercent, hcompare⟩ :=
      udpReceiveCallback_repr receiver (hT _ hreading) hperiod hwidth hfits hstop behind
    exact ⟨hpercent, by rw [hcompare, hpercent]⟩

theorem referencePlatform_lowers : LowersAscii referencePlatform.toLowerCase := by
  intro text _
  change String.ofList ((String.ofList text).toList.map Char.toLower) = _
  rw [String.toList_ofList]

/-- The identifier of the sample. -/
def referenceUid : DeviceUid where
  text := "ADC00000001".toList
  length := rfl
  word := by simp [isWordChar]

/-- A concentrator that has read 512, next to one that is set by an inverting table. -/
theorem codec_agrees_512 :
    (∃ data, UDP.accept (concentratorSend referenceUid.text
        { mainSetup 168000000 with uhADCxConvertedValue := 512 }) = some ("adc00000001", data) ∧
      Script.number data = .nat 512) ∧
      (udpReceiveCallback (Resp.textBytes "511" ++ 0 :: []) (mainSetup 168000000)
        ).uhADCxConvertedValuePercent = 49 := by
  have hagrees := codec_agrees referenceUid
    { mainSetup 168000000 with uhADCxConvertedValue := 512 } (by decide)
    Resp.parse_bulks referencePlatform_lowers (fun i => 1023 - i) (fun i _ => Nat.sub_le _ _)
    (fun field => (Decimal.natValue field.toList).map fun i => (1023 - i).repr)
    (fun i _ => by rw [Decimal.natValue_repr]; rfl)
    (mainSetup 168000000) (by decide) (by decide) (by decide) 0 (by decide) []
  obtain ⟨⟨data, _, haccept, hnumber, _, _, rfl, _, hpercent, _⟩, _⟩ := hagrees
  exact ⟨⟨data, haccept, hnumber⟩, hpercent⟩

end RealTimeWs
