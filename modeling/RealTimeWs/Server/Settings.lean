import RealTimeWs.Pipeline.Answers
import RealTimeWs.Server.Codec
import RealTimeWs.Server.Forwarding
import RealTimeWs.Server.Freshness

/-! # From a reading to a timer

The parts of the loop meet here: concentrators send readings and announce themselves,
the server stores, looks up and forwards, and a concentrator sets its timer. Whatever
else happens in between, a forwarded number is what one function of the table says
about a reading that was the newest of its concentrator when the server fetched it.
-/

namespace RealTimeWs

open Redis FunctionsService Pipeline.Client

variable (platform : Platform)

/-! ## The forwarded number -/

/-- The field that the forwarder looks up for a reading. -/
def fieldOf (reading : Reply) : String := Script.text (UDP.readingNumber reading)

/-- A lookup asks for the field of its reading, meets a complete table, and what it
finds is sent. -/
def looking : Testimony Command Reply Callback Event Nat Output where
  sent _ entry := ∀ device connected reading readAt record recordAt,
    entry.2 = .forwardHget device connected reading readAt record recordAt →
      entry.1 = ⟨tableKey device, .hget (fieldOf reading)⟩
  given _ a := ∀ device connected reading readAt record recordAt,
    a.callback = .forwardHget device connected reading readAt record recordAt →
      ∃ function, a.reply = .bulk (table platform.curves function (fieldOf reading))
  told _ output := ∀ sent, output = .datagram sent →
    ∃ function, table platform.curves function (fieldOf sent.reading) = some sent.message

theorem sound_looking {schedule : List Action} (hplain : PlainSchedule platform schedule) :
    (looking platform).Sound (server platform) (boot empty) schedule where
  sent_later := fun _ _ _ hsent => hsent
  given_later := fun _ _ _ hgiven => hgiven
  told_later := fun _ _ _ htold => htold
  event := by
    intro past event now _ _
    constructor
    · rintro ⟨command, callback⟩ hmem device connected reading readAt record recordAt hcallback
      simp only at hcallback
      subst hcallback
      rcases starts_of_mem platform hmem with hignored | hstarts
      · cases hignored
      · cases hstarts
    · rintro output hmem sent rfl
      cases event with
      | release fromDevice referer =>
          simp [server, onEvent, DisconnectController.release, finish] at hmem
      | _ => cases hmem
  execute := by
    rintro past command callback rest hpast hsent hfirst device connected reading readAt record
      recordAt rfl
    have hpastPlain : PlainSchedule platform past := fun event now hmem =>
      hplain event now (((List.prefix_append _ _).trans hpast).subset hmem)
    have hmeets := (sends_meetsTable platform).run (server platform) (preserved_ready platform)
      (boot empty) past (guarded_table platform hpastPlain) (ready_boot_empty platform) trivial
    rw [hsent] at hmeets
    obtain ⟨_, function, hstore⟩ := hmeets.1 _ _ _ _ _ _ rfl
    have hcommand : command = ⟨tableKey device, .hget (fieldOf reading)⟩ :=
      hfirst _ _ _ _ _ _ rfl
    refine ⟨function, ?_⟩
    rw [hcommand]
    change (Operation.hget (fieldOf reading)).reply platform.order _
      (((server platform).run (boot empty) past).store (tableKey device)) = _
    rw [hstore]
    rfl
  deliver := by
    intro past a rest now _ _ _ hgiven
    constructor
    · rintro ⟨command, callback⟩ hmem device connected reading readAt record recordAt hcallback
      simp only at hcallback
      subst hcallback
      rcases follows_of_mem platform hmem with hignored | hfollows
      · cases hignored
      · obtain ⟨ordinal, reply, asked⟩ := a
        cases hfollows
        rfl
    · rintro output hmem sent rfl
      have hdatagram : sent ∈ datagrams (onReply platform a.callback a.ordinal a.reply now
          ((server platform).run (boot empty) past).memory).outputs :=
        List.mem_filterMap.mpr ⟨_, hmem, rfl⟩
      rcases datagrams_onReply platform a.callback a.ordinal a.reply now
        ((server platform).run (boot empty) past).memory with hnone | hone
      · rw [hnone] at hdatagram
        cases hdatagram
      · obtain ⟨device, connected, reading, readAt, record, recordAt, _, _, hcallback, _⟩ := hone
        obtain ⟨function, hreply⟩ := hgiven _ _ _ _ _ _ hcallback
        refine ⟨function, ?_⟩
        rw [hcallback, hreply] at hmem
        cases hentry : table platform.curves function (fieldOf reading) with
        | none =>
            rw [hentry] at hmem
            cases hmem
        | some newValue =>
            rw [hentry] at hmem
            simp only [server, onReply, UDP.forwardHget] at hmem
            split at hmem
            · cases hmem
            · cases List.mem_singleton.mp hmem
              exact hentry

/-- A forwarded number is the value of a function at the number of its reading. -/
theorem message_eq_value {schedule : List Action} (hplain : PlainSchedule platform schedule)
    {sent : Datagram}
    (hsent : sent ∈ datagrams ((server platform).run (boot empty) schedule).outputs) :
    ∃ function, ∃ i ≤ 1023, UDP.readingNumber sent.reading = .nat i ∧
      sent.message = (value platform.curves function i).repr := by
  obtain ⟨output, hmem, hdatagram⟩ := List.mem_filterMap.mp hsent
  have hcovers := (sound_looking platform hplain).run (Testimony.covers_start _ _) List.prefix_rfl
  cases output with
  | datagram other =>
      cases hdatagram
      obtain ⟨function, hentry⟩ := hcovers.told _ hmem sent rfl
      have hsome : (table platform.curves function (fieldOf sent.reading)).isSome :=
        Option.isSome_of_eq_some hentry
      obtain ⟨i, hlt, hfield⟩ := (table_isSome platform.curves function _).mp hsome
      rw [hfield, table_repr platform.curves function i hlt] at hentry
      refine ⟨function, i, Nat.le_of_lt_succ hlt, ?_, (Option.some.inj hentry).symm⟩
      exact (Script.text_eq_repr hlt).mp hfield
  | _ => cases hdatagram

/-! ## Concentrators -/

/-- Datagrams and PINGs come from concentrators with readings of ten bits. Requests
and ticks are arbitrary. -/
def FromConcentrators (schedule : List Action) : Prop :=
  ∀ event now, .event event now ∈ schedule →
    match event with
    | .udpMessage msg _ _ => ∃ (uid : DeviceUid) (sender : Concentrator),
        sender.uhADCxConvertedValue ≤ 1023 ∧ msg = concentratorSend uid.text sender
    | .tcpData _ _ values => ∀ value ∈ values, ∃ uid : DeviceUid,
        value = .array [.bulk "PING", .bulk (String.ofList uid.text)]
    | _ => True

theorem accept_concentratorSend (uid : DeviceUid) {sender : Concentrator}
    (hreading : sender.uhADCxConvertedValue ≤ 1023) :
    UDP.accept (concentratorSend uid.text sender) =
      some (uid.lower, String.ofList (Decimal.padded 4 sender.uhADCxConvertedValue)) := by
  have hnonempty : uid.text ≠ [] := by
    intro hnil
    have hlength := uid.length
    rw [hnil] at hlength
    cases hlength
  exact (concentratorSend_conforms uid sender hreading).accept hnonempty
    (Decimal.digits_of_natValue_eq (Decimal.natValue_padded 4 _)).1

/-- Identifiers of eleven characters are no other word of the server. -/
theorem DeviceUid.plain_lower (uid : DeviceUid) : Plain uid.lower := by
  have hlength : uid.lower.toList.length = 11 := by
    rw [DeviceUid.lower, String.toList_ofList, List.length_map, uid.length]
  refine ⟨?_, ?_, ?_⟩
  · exact colon_notMem_of_word (word_of_accept
      (accept_concentratorSend uid (show (mainSetup 0).uhADCxConvertedValue ≤ 1023 by decide))).1
  · intro heq
    rw [heq] at hlength
    cases hlength
  · intro heq
    rw [heq] at hlength
    cases hlength

theorem plainSchedule_of_fromConcentrators (hlower : LowersAscii platform.toLowerCase)
    {schedule : List Action} (hfrom : FromConcentrators schedule) :
    PlainSchedule platform schedule := by
  intro event now hmem
  have hevent := hfrom event now hmem
  cases event with
  | tcpData ip port values =>
      intro value hvalue _
      obtain ⟨uid, rfl⟩ := hevent value hvalue
      have hname : platform.toLowerCase (TCP.secondText
          (.array [.bulk "PING", .bulk (String.ofList uid.text)])) = uid.lower :=
        hlower uid.text uid.ascii
      rw [hname]
      exact uid.plain_lower
  | udpMessage msg address port =>
      intro reading haccept
      obtain ⟨uid, sender, hreading, rfl⟩ := hevent
      rw [accept_concentratorSend uid hreading] at haccept
      cases haccept
      exact uid.plain_lower
  | _ => trivial

/-- What a concentrator has measured, in the last message that the server had received
from it when the given command was sent. Before the first one it counts as zero. -/
def Measured (device : String) (history : List (Nat × Event)) (n v : Nat) : Prop :=
  match newestBy device history n with
  | none => v = 0
  | some arrival => ∃ (uid : DeviceUid) (sender : Concentrator), uid.lower = device ∧
      sender.uhADCxConvertedValue = v ∧
      (arrival.position, .udpMessage (concentratorSend uid.text sender) arrival.address
        arrival.port) ∈ history

/-- The number that the forwarder derives from the newest reading is the measured one. -/
theorem measured_of_newest {schedule : List Action} (hfrom : FromConcentrators schedule)
    {device : String} {n i : Nat}
    (hnumber : UDP.readingNumber (newestReading device
      ((server platform).run (boot empty) schedule).history n) = .nat i) :
    Measured device ((server platform).run (boot empty) schedule).history n i := by
  rw [Measured]
  rw [newestReading] at hnumber
  cases hnewest : newestBy device ((server platform).run (boot empty) schedule).history n with
  | none =>
      rw [hnewest] at hnumber
      exact (Script.Number.nat.inj hnumber).symm
  | some arrival =>
      have harrival : arrival ∈ arrivals device
          ((server platform).run (boot empty) schedule).history :=
        List.mem_of_mem_filter (List.mem_of_getLast? hnewest)
      obtain ⟨⟨position, event⟩, hentry, hevent⟩ := List.mem_filterMap.mp harrival
      obtain ⟨hposition, msg, hmessage, haccept⟩ := exists_of_arrival hevent
      obtain ⟨now, hmem⟩ := ((server platform).mem_history_run hentry).resolve_left List.not_mem_nil
      simp only at hposition hmessage hmem
      subst hmessage
      obtain ⟨uid, sender, hreading, rfl⟩ := hfrom _ now hmem
      rw [accept_concentratorSend uid hreading] at haccept
      obtain ⟨hdevice, hdata⟩ := Prod.mk.inj (Option.some.inj haccept)
      refine ⟨uid, sender, hdevice, ?_, ?_⟩
      · rw [hnewest, Option.map_some, UDP.readingNumber, ← hdata,
          Script.number_of_digits (Decimal.natValue_padded 4 _) (by omega)] at hnumber
        exact Script.Number.nat.inj hnumber
      · rw [hposition]
        exact hentry

/-- In every run with concentrators, each datagram that is sent on carries the value
that one function gives to what the concentrator of its source had measured last, and
any concentrator that receives it, with a clock in range and no digit in memory behind
the message, sets its timer to that part of its period. -/
theorem setting_of_measured (hlower : LowersAscii platform.toLowerCase)
    {schedule : List Action} (hfrom : FromConcentrators schedule) {sent : Datagram}
    (hsent : sent ∈ datagrams ((server platform).run (boot empty) schedule).outputs)
    {systemCoreClock : Nat} (hlow : 2 * 17570 ≤ systemCoreClock)
    (hhigh : systemCoreClock < 2 ^ 32) (memories : List (List UInt8)) {byte : UInt8}
    (hstop : (Strtol.charOf byte).isDigit = false) (behind : List UInt8) :
    ∃ function, ∃ v ≤ 1023, ∃ entry : Nat, entry ≤ 1023 ∧
      Measured sent.device ((server platform).run (boot empty) schedule).history sent.readAt v ∧
      value platform.curves function v = entry ∧ sent.message = entry.repr ∧
      (udpReceiveCallback (Resp.textBytes sent.message ++ byte :: behind)
        (receiveAll memories (mainSetup systemCoreClock))).uhADCxConvertedValuePercent =
          100 * entry / 1023 ∧
      (udpReceiveCallback (Resp.textBytes sent.message ++ byte :: behind)
        (receiveAll memories (mainSetup systemCoreClock))).aCCValueBuffer =
          100 * entry / 1023 * (systemCoreClock / 17570 - 1 - 1) / 100 := by
  have hplain := plainSchedule_of_fromConcentrators platform hlower hfrom
  obtain ⟨function, v, hv, hnumber, hmessage⟩ := message_eq_value platform hplain hsent
  have hcurrent := (preserved_current platform).run (server platform) (boot empty) schedule
    ((preserved_inOrder platform).guarded (server platform) (boot empty) schedule
      (guarded_regular platform hplain) (inOrder_boot platform empty))
    (current_boot_empty platform)
  have hreading : sent.reading = newestReading sent.device
      ((server platform).run (boot empty) schedule).history sent.readAt := hcurrent.sent sent hsent
  obtain ⟨hentryLow, hentryHigh⟩ := value_bounds platform.curves function v
  obtain ⟨entry, hentry⟩ := Int.eq_ofNat_of_zero_le hentryLow
  have hbound : entry ≤ 1023 := by omega
  have hrepr : sent.message = entry.repr := by
    rw [hmessage, hentry]
    rfl
  have hdriven := (driven_mainSetup hlow hhigh).receiveAll memories
  have hperiod := hdriven.period_eq
  have hpos := hdriven.period_pos
  have hfits := hdriven.fits
  have hpercent : 100 * entry / 1023 ≤ 100 := by omega
  obtain ⟨hset, hcompare⟩ := udpReceiveCallback_repr
    (receiveAll memories (mainSetup systemCoreClock)) hbound (by omega) (by omega)
    (lt_of_le_of_lt (Nat.mul_le_mul_right _ hpercent) (by rw [hperiod]; exact hfits)) hstop behind
  refine ⟨function, v, hv, entry, hbound, ?_, hentry, hrepr, ?_, ?_⟩
  · apply measured_of_newest platform hfrom
    rw [← hreading]
    exact hnumber
  · rw [hrepr]
    exact hset
  · rw [hrepr, hcompare, hperiod]

/-- The concentrator of the sample. -/
def sampleUid : DeviceUid where
  text := "adc00000001".toList
  length := rfl
  word := by simp [isWordChar]

theorem fromConcentrators_loopSchedule (ip : String) (port : Nat) (address : String)
    (source : Nat) {later : List Action} (hlater : EventFree later) :
    FromConcentrators
      (loopSchedule "adc00000001" ip port samplePing sampleReading address source ++ later) := by
  intro event now hmem
  rcases mem_loopSchedule hlater hmem with rfl | rfl | rfl | rfl
  · intro value hvalue
    rw [List.mem_singleton.mp hvalue]
    exact ⟨sampleUid, rfl⟩
  · exact ⟨sampleUid, { mainSetup 168000000 with uhADCxConvertedValue := 512 }, by decide,
      by decide⟩
  · trivial
  · trivial

/-- A concentrator that is connected to itself is set to the half that it has measured. -/
theorem setting_of_measured_sample : ∃ schedule sent,
    sent ∈ datagrams ((server referencePlatform).run (boot empty) schedule).outputs ∧
      (udpReceiveCallback (Resp.textBytes sent.message ++ [0])
        (mainSetup 168000000)).uhADCxConvertedValuePercent = 50 := by
  have hfrom := fromConcentrators_loopSchedule "10.0.0.2" 4000 "10.0.0.2" 4001 eventFree_lastTurns
  obtain ⟨n, m, hsent⟩ := exists_sampleDatagram "10.0.0.2" "10.0.0.2"
  obtain ⟨_, _, _, entry, _, _, _, hmessage, hpercent, _⟩ :=
    setting_of_measured referencePlatform referencePlatform_lowers hfrom hsent
      (show 2 * 17570 ≤ 168000000 by decide) (by decide) []
      (show (Strtol.charOf 0).isDigit = false by decide) []
  refine ⟨_, _, hsent, hpercent.trans ?_⟩
  rw [← Nat.repr_inj.mp hmessage]

end RealTimeWs
