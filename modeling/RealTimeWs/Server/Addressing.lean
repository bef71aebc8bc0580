import RealTimeWs.Server.Arrivals
import RealTimeWs.Server.Frames
import RealTimeWs.Server.Registration
import RealTimeWs.Server.Delivery

/-! # Destinations of forwarded datagrams

Half of the address of a device, the port, is refreshed by every datagram of it;
the other half is only written when the device registers. The two belong together
as long as devices register and send from one address each.
-/

namespace RealTimeWs

open Redis FunctionsService

variable (platform : Platform) (address : String → String)

/-- Every accepted datagram comes from the address of its device, and so does every
registration when it writes the record. A device called `device` must not be given a
table: its table is the record of a device called `table`. -/
def homeGuard : State → Action → Prop := fun s action =>
  (∀ msg source port now reading, action = .event (.udpMessage msg source port) now →
    UDP.accept msg = some reading → source = address reading.1) ∧
  ∀ now a rest, action = .deliver now → s.inbox = a :: rest →
    (∀ device ip port epoch, a.callback = .pingSadd device ip port epoch → ip = address device) ∧
      ∀ function, rewritten a.callback a.reply ≠ some ("device", function)

/-! ## Records -/

/-- A list of readings lies where the record should be. -/
def Blocked (store : Store) (device : String) : Prop :=
  ¬ Kind.hash.Admits (store (recordKey device))

/-- The record holds the address of its device, if it can hold anything. -/
def Placed (store : Store) (device : String) : Prop :=
  fieldAt store (recordKey device) "ip" = some (address device) ∨ Blocked store device

theorem fieldAt_of_blocked {store : Store} {device : String} (hblocked : Blocked store device) :
    fieldAt store (recordKey device) = Hash.none := by
  unfold fieldAt
  cases hvalue : store (recordKey device) with
  | none => rfl
  | some value =>
      cases value with
      | hash fields => exact absurd (by rw [hvalue]; trivial) hblocked
      | _ => rfl

/-- A reading that is stored at the key of a record changes no record. -/
theorem fieldsOf_readings (value : Option Value) (data : String) :
    fieldsOf (applyAll [.lpush data, .ltrim 0 999] value) = fieldsOf value ∧
      (¬ Kind.hash.Admits value →
        ¬ Kind.hash.Admits (applyAll [.lpush data, .ltrim 0 999] value)) := by
  cases value with
  | none =>
      exact ⟨by simp [Operation.update, slice, fieldsOf], fun hblocked => absurd trivial hblocked⟩
  | some held =>
      cases held with
      | hash fields => exact ⟨rfl, fun hblocked => absurd trivial hblocked⟩
      | list elements =>
          refine ⟨by simp [Operation.update, slice, fieldsOf], fun _ => ?_⟩
          simp [Operation.update, slice, Kind.Admits]
      | _ => exact ⟨rfl, id⟩

/-- What the forwarder reads from a record when its command has the given ordinal. -/
structure Destination (device : String) (history : List (Nat × Event)) (n : Nat) (record : Hash) :
    Prop where
  port : ∀ text, record "udp_port" = some text → ∃ arrival,
    newestBy device history n = some arrival ∧ text = arrival.port.repr ∧
      arrival.address = address device
  ip : ':' ∉ device.toList → record "active" = some "true" →
    record "ip" = some (address device)

theorem Destination.append {device : String} {history : List (Nat × Event)} {n : Nat}
    {record : Hash} {entry : Nat × Event}
    (hdestination : Destination address device history n record)
    (hlater : n < entry.1) : Destination address device (history ++ [entry]) n record := by
  refine ⟨?_, hdestination.ip⟩
  rw [newestBy_append hlater]
  exact hdestination.port

section Fields

variable {s : State} {a : Pipeline.Answer Reply Callback}
variable {rest : List (Pipeline.Answer Reply Callback)} {event : Event} {now : Nat}
variable (hempty : s.outbox = [])

include hempty

variable (a rest now) in
/-- What a reply does to the fields of a record. -/
theorem fields_delivered (device : String) :
    (∃ written, rewritten a.callback a.reply = some written ∧
        tableKey written.1 = recordKey device ∧
        fieldAt (delivered platform s a rest now).store (recordKey device) =
          table platform.curves written.2) ∨
      (fieldAt (delivered platform s a rest now).store (recordKey device) =
          fieldAt s.store (recordKey device) ∧
        (Blocked s.store device → Blocked (delivered platform s a rest now).store device) ∧
        ((∀ ops, recorded a.callback a.reply now ≠ some (device, ops)) ∨
          Blocked (delivered platform s a rest now).store device)) ∨
      ¬ Blocked s.store device ∧ ∃ pairs counts, Records a.callback a.reply device pairs counts ∧
        fieldAt (delivered platform s a rest now).store (recordKey device) =
          changed (fieldAt s.store (recordKey device)) pairs counts := by
  rcases delivered_record platform a rest now hempty device with
    ⟨written, hwritten, hkey, htable⟩ | ⟨hnone, hsame⟩ | ⟨pairs, counts, hrecords, hnew⟩
  · exact Or.inl ⟨written, hwritten, hkey, by rw [fieldAt, htable, fieldsOf]⟩
  · right
    left
    refine ⟨congrArg fieldsOf hsame, ?_, Or.inl hnone⟩
    unfold Blocked
    rw [hsame]
    exact id
  · by_cases hblocked : Blocked s.store device
    · rw [applyAll_recordOps_of_not_admits pairs counts hblocked] at hnew
      right
      left
      refine ⟨congrArg fieldsOf hnew, ?_⟩
      unfold Blocked
      rw [hnew]
      exact ⟨id, Or.inr hblocked⟩
    · right
      right
      refine ⟨hblocked, pairs, counts, hrecords, ?_⟩
      exact (congrArg fieldsOf hnew).trans
        (fieldsOf_recordOps pairs counts (not_not.mp hblocked))

variable (event now) in
/-- What an event does to the fields of a record. -/
theorem fields_occurred (device : String) :
    (fieldAt (occurred platform s event now).store (recordKey device) =
          fieldAt s.store (recordKey device) ∧
        (Blocked s.store device → Blocked (occurred platform s event now).store device) ∧
        ((∀ reading, event.accepted = some reading → reading.1 ≠ device) ∨
          Blocked (occurred platform s event now).store device)) ∨
      ¬ Blocked s.store device ∧ ∃ msg source port reading,
        event = .udpMessage msg source port ∧ UDP.accept msg = some reading ∧
        reading.1 = device ∧
        fieldAt (occurred platform s event now).store (recordKey device) =
          changed (fieldAt s.store (recordKey device))
            [("last_ping", now.repr), ("udp_port", port.repr)] true := by
  rcases occurred_record platform event now hempty device with
    ⟨reading, haccepted, hkey, hnew⟩ | ⟨hnone, hsame⟩ |
      ⟨msg, source, port, reading, hevent, haccept, hdevice, hnew⟩
  · left
    obtain ⟨hfields, hblocked⟩ := fieldsOf_readings (s.store (recordKey device)) reading.2
    refine ⟨(congrArg fieldsOf hnew).trans hfields, ?_, Or.inl ?_⟩
    · unfold Blocked
      rw [hnew]
      exact hblocked
    · intro other hother heq
      rw [haccepted, Option.some.injEq] at hother
      rw [← heq, ← hother] at hkey
      exact recordKey_ne_dataKey_self reading.1 hkey.symm
  · left
    refine ⟨congrArg fieldsOf hsame, ?_, Or.inl hnone⟩
    unfold Blocked
    rw [hsame]
    exact id
  · by_cases hblocked : Blocked s.store device
    · rw [applyAll_recordOps_of_not_admits _ _ hblocked] at hnew
      left
      refine ⟨congrArg fieldsOf hnew, ?_⟩
      unfold Blocked
      rw [hnew]
      exact ⟨id, Or.inr hblocked⟩
    · right
      refine ⟨hblocked, msg, source, port, reading, hevent, haccept, hdevice, ?_⟩
      exact (congrArg fieldsOf hnew).trans
        (fieldsOf_recordOps _ _ (not_not.mp hblocked))

end Fields

/-! ## The invariant -/

/-- What is known about the records and about everything that depends on them. The
routine marks a device as active only after its registration has written its record. -/
structure Located (s : State) : Prop where
  typed : Kind.set.Admits (s.store devicesKey)
  port : ∀ device text, fieldAt s.store (recordKey device) "udp_port" = some text →
    ∃ arrival, (arrivals device s.history).getLast? = some arrival ∧
      text = arrival.port.repr ∧ arrival.address = address device
  active : ∀ device, ':' ∉ device.toList →
    fieldAt s.store (recordKey device) "active" = some "true" →
      fieldAt s.store (recordKey device) "ip" = some (address device)
  registered : ∀ device ∈ devices s.store, ':' ∉ device.toList →
    Placed address s.store device ∨ Announced s device
  listed : ∀ a ∈ s.inbox, a.callback = .routineSmembers → ∀ members, a.reply = .members members →
    ∀ device ∈ members, ':' ∉ device.toList → Placed address s.store device ∨
      ∃ b ∈ s.inbox, (∃ ip port epoch, b.callback = .pingSadd device ip port epoch) ∧
        b.ordinal < a.ordinal
  asked : ∀ device, Awaits s (.routineHmget device) → ':' ∉ device.toList →
    Placed address s.store device
  read : ∀ a ∈ s.inbox, ∀ device connected reading readAt record,
    a.callback = .forwardHgetall device connected reading readAt →
      a.reply = .object (some record) →
      Destination address (UDP.joined connected) s.history a.ordinal record
  held : ∀ a ∈ s.inbox, ∀ device connected reading readAt record recordAt,
    a.callback = .forwardHget device connected reading readAt record recordAt →
      Destination address (UDP.joined connected) s.history recordAt record ∧
        record "active" = some "true" ∧ recordAt < s.executed
  sent : ∀ sent ∈ datagrams s.outputs, sent.recordAt < s.executed ∧
    ∃ arrival, newestBy sent.connected s.history sent.recordAt = some arrival ∧
      sent.address = some arrival.address ∧ sent.port = arrival.port

/-- The guard under which the invariant is preserved. -/
def locatedGuard : State → Action → Prop := fun s action =>
  homeGuard address s action ∧ Pipeline.Client.Ordered s

theorem colon_notMem_of_arrival {device : String} {history : List (Nat × Event)}
    {arrival : Arrival} (hmem : arrival ∈ arrivals device history) : ':' ∉ device.toList := by
  obtain ⟨⟨n, event⟩, _, harrival⟩ := List.mem_filterMap.mp hmem
  obtain ⟨_, msg, _, haccept⟩ := exists_of_arrival harrival
  exact colon_notMem_of_word (word_of_accept haccept).1

/-! ## Events -/

section Event

variable {s : State} {event : Event} {now : Nat} (hempty : s.outbox = [])

include hempty

theorem placed_occurred {device : String} (hplaced : Placed address s.store device) :
    Placed address (occurred platform s event now).store device := by
  rcases fields_occurred platform event now hempty device with
    ⟨hsame, hblocked, _⟩ | ⟨hfree, _, _, port, _, _, _, _, hnew⟩
  · rcases hplaced with hip | hheld
    · exact Or.inl (by rw [hsame, hip])
    · exact Or.inr (hblocked hheld)
  · rcases hplaced with hip | hheld
    · refine Or.inl ?_
      rw [hnew, changed_of_not_mem _ _ _ (by decide) (by simp), hip]
    · exact absurd hheld hfree

variable (hguard : locatedGuard address s (.event event now)) (hlocated : Located address s)

include hguard hlocated

/-- The port in a record is that of the newest datagram. -/
theorem port_occurred (device text : String)
    (hport : fieldAt (occurred platform s event now).store (recordKey device) "udp_port" =
      some text) :
    ∃ arrival, (arrivals device (occurred platform s event now).history).getLast? =
      some arrival ∧ text = arrival.port.repr ∧ arrival.address = address device := by
  rw [occurred_history platform hempty, arrivals_append_singleton]
  rcases fields_occurred platform event now hempty device with
    ⟨hsame, _, hnone | hblocked⟩ | ⟨_, msg, source, port, reading, rfl, haccept, rfl, hnew⟩
  · rw [hsame] at hport
    have harrival : event.arrival device s.executed = none := by
      cases event with
      | udpMessage msg source port =>
          cases haccept : UDP.accept msg with
          | none => simp [Event.arrival, haccept]
          | some reading => simp [Event.arrival, haccept, hnone reading haccept]
      | _ => rfl
    rw [harrival, Option.toList_none, List.append_nil]
    exact hlocated.port device text hport
  · rw [fieldAt_of_blocked hblocked] at hport
    cases hport
  · rw [hnew, changed_of_ne _ _ _ (by decide)] at hport
    have htext : text = port.repr := by simpa using hport.symm
    have hsource := hguard.1.1 msg source port now reading rfl haccept
    refine ⟨⟨s.executed, reading.2, source, port⟩, ?_, htext, hsource⟩
    simp [Event.arrival, haccept]

omit hguard in
theorem active_occurred (device : String) (hcolon : ':' ∉ device.toList)
    (hactive : fieldAt (occurred platform s event now).store (recordKey device) "active" =
      some "true") :
    fieldAt (occurred platform s event now).store (recordKey device) "ip" =
      some (address device) := by
  rcases fields_occurred platform event now hempty device with
    ⟨hsame, _⟩ | ⟨_, _, _, port, _, _, _, _, hnew⟩
  · rw [hsame] at hactive ⊢
    exact hlocated.active device hcolon hactive
  · rw [hnew, changed_of_not_mem _ _ _ (by decide) (by simp)] at hactive ⊢
    exact hlocated.active device hcolon hactive

theorem listed_occurred (a : Pipeline.Answer Reply Callback)
    (hmem : a ∈ (occurred platform s event now).inbox) (hcallback : a.callback = .routineSmembers)
    (members : List String) (hreply : a.reply = .members members) (device : String)
    (hdevice : device ∈ members) (hcolon : ':' ∉ device.toList) :
    Placed address (occurred platform s event now).store device ∨
      ∃ b ∈ (occurred platform s event now).inbox,
        (∃ ip port epoch, b.callback = .pingSadd device ip port epoch) ∧
          b.ordinal < a.ordinal := by
  have hbefore : Placed address s.store device ∨ ∃ b ∈ s.inbox,
      (∃ ip port epoch, b.callback = .pingSadd device ip port epoch) ∧ b.ordinal < a.ordinal := by
    rcases mem_inbox_occurred platform hempty hmem with hold | ⟨hlater, hignored | hasked⟩
    · exact hlocated.listed a hold hcallback members hreply device hdevice hcolon
    · rw [hignored] at hcallback
      cases hcallback
    · -- The tick has just listed the devices; a record that is missing is on its way.
      obtain ⟨command, hstarts, hgiven⟩ := hasked
      rw [hcallback] at hstarts
      rw [hreply] at hgiven
      cases hstarts with
      | routineTick =>
          have hregistered := mem_devices_of_smembers platform hgiven.symm hdevice
          rcases hlocated.registered device hregistered hcolon with hplaced | hannounced
          · exact Or.inl hplaced
          · obtain ⟨ip, port, epoch, b, hb, hsadd⟩ := hannounced
            exact Or.inr ⟨b, hb, ⟨ip, port, epoch, hsadd⟩,
              lt_of_lt_of_le (hguard.2.below b hb) hlater⟩
  rcases hbefore with hplaced | ⟨b, hb, hrest⟩
  · exact Or.inl (placed_occurred platform address hempty hplaced)
  · exact Or.inr ⟨b, mem_inbox_occurred_of_mem platform hempty hb, hrest⟩

theorem located_occurred : Located address (occurred platform s event now) where
  typed := admits_devices_occurred platform hempty hlocated.typed
  port := port_occurred platform address hempty hguard hlocated
  active := active_occurred platform address hempty hlocated
  registered := by
    intro device hmem hcolon
    rw [devices_occurred platform now hempty event] at hmem
    rcases hlocated.registered device hmem hcolon with hplaced | hannounced
    · exact Or.inl (placed_occurred platform address hempty hplaced)
    · exact Or.inr (announced_occurred platform now hempty event hannounced)
  listed := listed_occurred platform address hempty hguard hlocated
  asked := by
    rintro device ⟨a, hmem, hcallback⟩ hcolon
    have hold : a ∈ s.inbox := by
      apply mem_inbox_of_occurred platform hempty hmem
      · simp [hcallback]
      · intro command hstarts
        rw [hcallback] at hstarts
        cases hstarts
    exact placed_occurred platform address hempty
      (hlocated.asked device ⟨a, hold, hcallback⟩ hcolon)
  read := by
    intro a hmem device connected reading readAt record hcallback hreply
    have hold : a ∈ s.inbox := by
      apply mem_inbox_of_occurred platform hempty hmem
      · simp [hcallback]
      · intro command hstarts
        rw [hcallback] at hstarts
        cases hstarts
    rw [occurred_history platform hempty]
    exact (hlocated.read a hold device connected reading readAt record hcallback hreply).append
      address (hguard.2.below a hold)
  held := by
    intro a hmem device connected reading readAt record recordAt hcallback
    have hold : a ∈ s.inbox := by
      apply mem_inbox_of_occurred platform hempty hmem
      · simp [hcallback]
      · intro command hstarts
        rw [hcallback] at hstarts
        cases hstarts
    obtain ⟨hdestination, hactive, hpast⟩ :=
      hlocated.held a hold device connected reading readAt record recordAt hcallback
    rw [occurred_history platform hempty]
    exact ⟨hdestination.append address hpast, hactive,
      hpast.trans_le (le_executed_occurred platform hempty)⟩
  sent := by
    intro sent hmem
    rw [datagrams_occurred platform hempty] at hmem
    obtain ⟨hpast, hsent⟩ := hlocated.sent sent hmem
    rw [occurred_history platform hempty, newestBy_append hpast]
    exact ⟨hpast.trans_le (le_executed_occurred platform hempty), hsent⟩

end Event

/-! ## Replies -/

section Deliver

variable {s : State} {a : Pipeline.Answer Reply Callback}
variable {rest : List (Pipeline.Answer Reply Callback)} {now : Nat} (hempty : s.outbox = [])
variable (hinbox : s.inbox = a :: rest) (hguard : locatedGuard address s (.deliver now))

include hinbox hguard in
/-- Under the guard no table is written over a record. -/
theorem tableKey_ne_of_home {device : String} (hcolon : ':' ∉ device.toList)
    {written : String × Allowed} (hwritten : rewritten a.callback a.reply = some written) :
    tableKey written.1 ≠ recordKey device := by
  intro heq
  obtain ⟨name, function⟩ := written
  have hname : name = "device" := eq_device_of_tableKey_eq hcolon heq
  rw [hname] at hwritten
  exact (hguard.1.2 now a rest rfl hinbox).2 function hwritten

include hempty hinbox hguard

theorem placed_delivered {device : String} (hcolon : ':' ∉ device.toList)
    (hplaced : Placed address s.store device) :
    Placed address (delivered platform s a rest now).store device := by
  rcases fields_delivered platform a rest now hempty device with
    ⟨written, hwritten, hkey, _⟩ | ⟨hsame, hblocked, _⟩ | ⟨hfree, pairs, counts, hrecords, hnew⟩
  · exact absurd hkey (tableKey_ne_of_home address hinbox hguard hcolon hwritten)
  · rcases hplaced with hip | hheld
    · exact Or.inl (by rw [hsame, hip])
    · exact Or.inr (hblocked hheld)
  · rcases hplaced with hip | hheld
    · refine Or.inl ?_
      rw [hnew, changed_of_ne _ _ _ (by decide)]
      have hhome := (hguard.1.2 now a rest rfl hinbox).1 device
      obtain ⟨ordinal, reply, callback⟩ := a
      cases hrecords with
      | @registration _ ip port epoch =>
          simp [hhome ip port epoch rfl]
      | _ => simpa using hip
    · exact absurd hheld hfree

/-- The registration writes the address. -/
theorem placed_of_pingSadd {device ip : String} {port epoch : Nat} (hcolon : ':' ∉ device.toList)
    (hcallback : a.callback = .pingSadd device ip port epoch) :
    Placed address (delivered platform s a rest now).store device := by
  rcases fields_delivered platform a rest now hempty device with
    ⟨written, hwritten, hkey, _⟩ | ⟨_, _, hnone | hblocked⟩ | ⟨_, pairs, counts, hrecords, hnew⟩
  · exact absurd hkey (tableKey_ne_of_home address hinbox hguard hcolon hwritten)
  · exact absurd (by rw [hcallback]; rfl) (hnone _)
  · exact Or.inr hblocked
  · refine Or.inl ?_
    rw [hnew, changed_of_ne _ _ _ (by decide),
      ← (hguard.1.2 now a rest rfl hinbox).1 device ip port epoch hcallback]
    rw [hcallback] at hrecords
    cases hrecords
    simp

variable (hlocated : Located address s)

include hlocated

omit hinbox hguard in
theorem port_delivered (device text : String)
    (hport : fieldAt (delivered platform s a rest now).store (recordKey device) "udp_port" =
      some text) :
    ∃ arrival, (arrivals device (delivered platform s a rest now).history).getLast? =
      some arrival ∧ text = arrival.port.repr ∧ arrival.address = address device := by
  rw [delivered_history platform hempty]
  apply hlocated.port device text
  rcases fields_delivered platform a rest now hempty device with
    ⟨written, _, _, htable⟩ | ⟨hsame, _⟩ | ⟨_, pairs, counts, hrecords, hnew⟩
  · rw [htable] at hport
    have hfield := (table_isSome platform.curves written.2 "udp_port").mp (by rw [hport]; rfl)
    obtain ⟨i, _, hi⟩ := hfield
    have hdigit : Char.isDigit 'u' = true := by
      apply Decimal.isDigit_of_mem_toDigits (n := i)
      rw [← Nat.toList_repr, ← hi]
      decide
    exact absurd hdigit (by decide)
  · rw [hsame] at hport
    exact hport
  · rw [hnew, changed_of_not_mem _ _ _ (by decide) hrecords.udp_port_not_mem] at hport
    exact hport

theorem active_delivered (device : String) (hcolon : ':' ∉ device.toList)
    (hactive : fieldAt (delivered platform s a rest now).store (recordKey device) "active" =
      some "true") :
    fieldAt (delivered platform s a rest now).store (recordKey device) "ip" =
      some (address device) := by
  rcases fields_delivered platform a rest now hempty device with
    ⟨written, hwritten, hkey, _⟩ | ⟨hsame, _⟩ | ⟨hfree, pairs, counts, hrecords, hnew⟩
  · exact absurd hkey (tableKey_ne_of_home address hinbox hguard hcolon hwritten)
  · rw [hsame] at hactive ⊢
    exact hlocated.active device hcolon hactive
  · rw [hnew, changed_of_ne _ _ _ (by decide)] at hactive ⊢
    have hhome := (hguard.1.2 now a rest rfl hinbox).1 device
    have hasked : a.callback = .routineHmget device → Placed address s.store device := by
      intro hcallback
      exact hlocated.asked device ⟨a, hinbox ▸ List.mem_cons_self, hcallback⟩ hcolon
    obtain ⟨ordinal, reply, callback⟩ := a
    cases hrecords with
    | @registration _ ip port epoch => simp [hhome ip port epoch rfl]
    | activity verdict =>
        have hip := (hasked rfl).resolve_right hfree
        simpa using hip
    | _ => exact hlocated.active device hcolon (by simpa using hactive)

theorem registered_delivered (device : String)
    (hmem : device ∈ devices (delivered platform s a rest now).store)
    (hcolon : ':' ∉ device.toList) :
    Placed address (delivered platform s a rest now).store device ∨
      Announced (delivered platform s a rest now) device := by
  rcases mem_devices_delivered platform now hempty hlocated.typed hmem with hold | hnew
  · rcases hlocated.registered device hold hcolon with hplaced | hannounced
    · exact Or.inl (placed_delivered platform address hempty hinbox hguard hcolon hplaced)
    · rcases announced_delivered platform now hempty hinbox hannounced with
        ⟨ip, port, epoch, hhead, _⟩ | hlater
      · exact Or.inl (placed_of_pingSadd platform address hempty hinbox hguard hcolon hhead)
      · exact Or.inr hlater
  · exact Or.inr (announced_of_registered platform now hempty hnew)

theorem listed_delivered (b : Pipeline.Answer Reply Callback)
    (hmem : b ∈ (delivered platform s a rest now).inbox) (hcallback : b.callback = .routineSmembers)
    (members : List String) (hreply : b.reply = .members members) (device : String)
    (hdevice : device ∈ members) (hcolon : ':' ∉ device.toList) :
    Placed address (delivered platform s a rest now).store device ∨
      ∃ c ∈ (delivered platform s a rest now).inbox,
        (∃ ip port epoch, c.callback = .pingSadd device ip port epoch) ∧
          c.ordinal < b.ordinal := by
  have hrest : b ∈ rest := by
    apply mem_rest_of_delivered platform hempty hmem
    · simp [hcallback]
    · intro command hfollows
      rw [hcallback] at hfollows
      obtain ⟨ordinal, reply, asked⟩ := a
      cases hfollows
  have hold : b ∈ s.inbox := hinbox ▸ List.mem_cons_of_mem _ hrest
  rcases hlocated.listed b hold hcallback members hreply device hdevice hcolon with
    hplaced | ⟨c, hc, ⟨ip, port, epoch, hsadd⟩, hbefore⟩
  · exact Or.inl (placed_delivered platform address hempty hinbox hguard hcolon hplaced)
  · rw [hinbox] at hc
    rcases List.mem_cons.mp hc with rfl | hc
    · exact Or.inl (placed_of_pingSadd platform address hempty hinbox hguard hcolon hsadd)
    · exact Or.inr ⟨c, mem_inbox_delivered_of_rest platform hempty hc, ⟨ip, port, epoch, hsadd⟩,
        hbefore⟩

theorem asked_delivered (device : String)
    (hawaits : Awaits (delivered platform s a rest now) (.routineHmget device))
    (hcolon : ':' ∉ device.toList) :
    Placed address (delivered platform s a rest now).store device := by
  apply placed_delivered platform address hempty hinbox hguard hcolon
  obtain ⟨b, hmem, hcallback⟩ := hawaits
  rcases mem_inbox_delivered platform hempty hmem with hold | ⟨_, hignored | hasked⟩
  · exact hlocated.asked device ⟨b, hinbox ▸ List.mem_cons_of_mem _ hold, hcallback⟩ hcolon
  · rw [hignored] at hcallback
    cases hcallback
  · obtain ⟨command, hfollows, _⟩ := hasked
    rw [hcallback] at hfollows
    have hfirst : a ∈ s.inbox := hinbox ▸ List.mem_cons_self
    have hlisted := hlocated.listed a hfirst
    have hhead := fun b hb => hguard.2.not_lt_head (b := b) hinbox hb
    obtain ⟨ordinal, reply, asked⟩ := a
    cases hfollows with
    | routineHmget hmember =>
        rcases hlisted rfl _ rfl device hmember hcolon with hplaced | ⟨c, hc, _, hbefore⟩
        · exact hplaced
        · exact absurd hbefore (hhead c hc)

/-- What the forwarder has just read is what the record holds. -/
theorem read_delivered (b : Pipeline.Answer Reply Callback)
    (hmem : b ∈ (delivered platform s a rest now).inbox) (device : String)
    (connected : List String) (reading : Reply) (readAt : Nat) (record : Hash)
    (hcallback : b.callback = .forwardHgetall device connected reading readAt)
    (hreply : b.reply = .object (some record)) :
    Destination address (UDP.joined connected) (delivered platform s a rest now).history
      b.ordinal record := by
  rw [delivered_history platform hempty]
  rcases mem_inbox_delivered platform hempty hmem with hold | ⟨hlater, hignored | hasked⟩
  · exact hlocated.read b (hinbox ▸ List.mem_cons_of_mem _ hold) device connected reading readAt
      record hcallback hreply
  · rw [hignored] at hcallback
    cases hcallback
  · obtain ⟨command, hfollows, hgiven⟩ := hasked
    rw [hcallback] at hfollows
    rw [hreply] at hgiven
    have hkey : command = ⟨recordKey (UDP.joined connected), .hgetall⟩ := by
      obtain ⟨ordinal, reply, asked⟩ := a
      cases hfollows
      rfl
    subst hkey
    have hfields : fieldAt s.store (recordKey (UDP.joined connected)) = record := by
      rw [fieldAt]
      cases hvalue : s.store (recordKey (UDP.joined connected)) with
      | none => simp [hvalue, Operation.reply] at hgiven
      | some value =>
          cases value with
          | hash fields =>
              simp only [hvalue, Operation.reply, Reply.object.injEq, Option.some.injEq] at hgiven
              rw [hgiven, fieldsOf]
          | _ => simp [hvalue, Operation.reply] at hgiven
    have hpast : ∀ entry ∈ s.history, entry.1 ≤ b.ordinal :=
      fun entry hentry => (hguard.2.past entry hentry).trans hlater
    subst hfields
    refine ⟨?_, hlocated.active _⟩
    rw [newestBy, arrivedBy_of_past _ hpast]
    exact hlocated.port _

theorem held_delivered (b : Pipeline.Answer Reply Callback)
    (hmem : b ∈ (delivered platform s a rest now).inbox) (device : String)
    (connected : List String) (reading : Reply) (readAt : Nat) (record : Hash) (recordAt : Nat)
    (hcallback : b.callback = .forwardHget device connected reading readAt record recordAt) :
    Destination address (UDP.joined connected) (delivered platform s a rest now).history
        recordAt record ∧ record "active" = some "true" ∧
      recordAt < (delivered platform s a rest now).executed := by
  have hexecuted : s.executed ≤ (delivered platform s a rest now).executed :=
    le_executed_delivered platform hempty
  rw [delivered_history platform hempty]
  rcases mem_inbox_delivered platform hempty hmem with hold | ⟨_, hignored | hasked⟩
  · obtain ⟨hdestination, hactive, hpast⟩ := hlocated.held b
      (hinbox ▸ List.mem_cons_of_mem _ hold) device connected reading readAt record recordAt
      hcallback
    exact ⟨hdestination, hactive, hpast.trans_le hexecuted⟩
  · rw [hignored] at hcallback
    cases hcallback
  · obtain ⟨command, hfollows, _⟩ := hasked
    rw [hcallback] at hfollows
    have hfirst : a ∈ s.inbox := hinbox ▸ List.mem_cons_self
    have hread := hlocated.read a hfirst
    have hbelow := hguard.2.below a hfirst
    obtain ⟨ordinal, reply, asked⟩ := a
    cases hfollows with
    | forwardHget hactive =>
        exact ⟨hread _ _ _ _ _ rfl rfl, hactive, hbelow.trans_le hexecuted⟩

omit hguard in
/-- The port and the address come from the same datagram. -/
theorem sent_delivered (sent : Datagram)
    (hmem : sent ∈ datagrams (delivered platform s a rest now).outputs) :
    sent.recordAt < (delivered platform s a rest now).executed ∧
      ∃ arrival, newestBy sent.connected (delivered platform s a rest now).history sent.recordAt =
        some arrival ∧ sent.address = some arrival.address ∧ sent.port = arrival.port := by
  have hexecuted : s.executed ≤ (delivered platform s a rest now).executed :=
    le_executed_delivered platform hempty
  rw [delivered_history platform hempty]
  rw [datagrams_delivered platform hempty, List.mem_append] at hmem
  rcases hmem with hold | hnew
  · obtain ⟨hpast, hsent⟩ := hlocated.sent sent hold
    exact ⟨hpast.trans_le hexecuted, hsent⟩
  · rcases datagrams_onReply platform a.callback a.ordinal a.reply now s.memory with
      hnone | ⟨device, connected, reading, readAt, record, recordAt, newValue, port, hcallback,
        hport, hone⟩
    · rw [hnone] at hnew
      cases hnew
    · rw [hone, List.mem_singleton] at hnew
      subst hnew
      obtain ⟨hdestination, hactive, hpast⟩ := hlocated.held a (hinbox ▸ List.mem_cons_self)
        device connected reading readAt record recordAt hcallback
      refine ⟨hpast.trans_le hexecuted, ?_⟩
      cases htext : record "udp_port" with
      | none => simp [htext, UDP.sendPort] at hport
      | some text =>
          obtain ⟨arrival, hnewest, rfl, haddress⟩ := hdestination.port text htext
          refine ⟨arrival, hnewest, ?_, ?_⟩
          · have hmem : arrival ∈ arrivals (UDP.joined connected) s.history :=
              List.mem_of_mem_filter (List.mem_of_getLast? hnewest)
            rw [hdestination.ip (colon_notMem_of_arrival hmem) hactive, haddress]
          · simp only [htext, UDP.sendPort, Option.bind_some, Decimal.natValue_repr] at hport
            exact (Option.some.inj (Option.eq_some_of_filter_eq_some hport)).symm

end Deliver

theorem preserved_located :
    (server platform).Preserved (locatedGuard address) (Located address) where
  event := fun s event now hempty _ hguard hlocated =>
    located_occurred platform address hempty hguard hlocated
  deliver := by
    intro s a rest now hempty _ hinbox hguard hlocated
    exact ⟨admits_devices_delivered platform hempty hlocated.typed,
      port_delivered platform address hempty hlocated,
      active_delivered platform address hempty hinbox hguard hlocated,
      registered_delivered platform address hempty hinbox hguard hlocated,
      listed_delivered platform address hempty hinbox hguard hlocated,
      asked_delivered platform address hempty hinbox hguard hlocated,
      read_delivered platform address hempty hinbox hguard hlocated,
      held_delivered platform address hempty hinbox hguard hlocated,
      sent_delivered platform address hempty hinbox hlocated⟩

theorem located_boot_empty : Located address ((server platform).flush (boot empty)) := by
  refine ⟨trivial, ?_, ?_, ?_, ?_, ?_, ?_, ?_, ?_⟩
  · intro device text htext
    cases htext
  · intro device _ hactive
    cases hactive
  · intro device hmem
    exact absurd hmem (Finset.notMem_empty device)
  · intro a hmem
    cases hmem
  · rintro device ⟨a, hmem, _⟩
    cases hmem
  all_goals
    intro a hmem
    cases hmem

/-! ## Destinations -/

/-- As long as registrations and datagrams come from the addresses of their devices,
every forwarded datagram goes to the source of the newest datagram that its receiver
had sent when the forwarder read the record, which is when its `HGETALL` was sent. -/
theorem forwarded_to_newest_source {schedule : List Action}
    (hguarded : (server platform).Guarded (homeGuard address) (boot empty) schedule) :
    ∀ sent ∈ datagrams ((server platform).run (boot empty) schedule).outputs,
      ∃ arrival, newestBy sent.connected ((server platform).run (boot empty) schedule).history
        sent.recordAt = some arrival ∧
        sent.address = some arrival.address ∧ sent.port = arrival.port := by
  have hordered := ((server platform).preserved_ordered (homeGuard address)).guarded
    (server platform) (boot empty) schedule hguarded (ordered_boot platform empty)
  have hlocated := (preserved_located platform address).run (server platform) (boot empty) schedule
    hordered (located_boot_empty platform address)
  intro sent hmem
  exact (hlocated.sent sent hmem).2

/-! ## Runs from fixed addresses -/

/-- The messages of an event come from the addresses of the devices they name. -/
def Event.FromHome : Event → Prop
  | .tcpData ip _ values => ∀ value ∈ values, TCP.isPing platform.toLowerCase value = some true →
      ip = address (platform.toLowerCase (TCP.secondText value)) ∧
        platform.toLowerCase (TCP.secondText value) ≠ "device"
  | .udpMessage msg source _ => ∀ reading, UDP.accept msg = some reading →
      source = address reading.1
  | .functionChange device _ => device ≠ "device"
  | _ => True

/-- The registrations on their way come from the addresses of their devices. -/
def HomeBound (a : Pipeline.Answer Reply Callback) : Prop :=
  match a.callback with
  | .pingSismember device ip _ _ | .pingSadd device ip _ _ =>
      ip = address device ∧ device ≠ "device"
  | .pingHmset device | .functionChange device _ => device ≠ "device"
  | _ => True

theorem guarded_home_of_events {schedule : List Action}
    (hevents : ∀ event now, .event event now ∈ schedule → event.FromHome platform address) :
    (server platform).Guarded (homeGuard address) (boot empty) schedule := by
  have hpreserved : (server platform).Preserved
      (fun _ action => ∀ event now, action = .event event now → event.FromHome platform address)
      (fun s => ∀ a ∈ s.inbox, HomeBound address a) := by
    constructor
    · intro s event now hempty _ hguard hbound b hmem
      rcases mem_inbox_occurred platform hempty hmem with hold | ⟨_, hignored | hasked⟩
      · exact hbound b hold
      · simp [HomeBound, hignored]
      · obtain ⟨command, hstarts, _⟩ := hasked
        have hhome := hguard event now rfl
        obtain ⟨ordinal, reply, callback⟩ := b
        cases hstarts with
        | ping hvalue hping => exact hhome _ hvalue hping
        | functionChange => exact hhome
        | _ => trivial
    · intro s a rest now hempty _ hinbox _ hbound b hmem
      rcases mem_inbox_delivered platform hempty hmem with hold | ⟨_, hignored | hasked⟩
      · exact hbound b (hinbox ▸ List.mem_cons_of_mem _ hold)
      · simp [HomeBound, hignored]
      · obtain ⟨command, hfollows, _⟩ := hasked
        have hfirst := hbound a (hinbox ▸ List.mem_cons_self)
        obtain ⟨ordinal, reply, callback⟩ := b
        obtain ⟨askedAt, given, asked⟩ := a
        cases hfollows with
        | pingSadd hnew => exact hfirst
        | pingHmset => exact hfirst.2
        | _ => trivial
  have hguarded := hpreserved.guarded (server platform) (boot empty) schedule
    ((server platform).guarded_of_events _ (boot empty) schedule hevents)
    (fun a hmem => by cases hmem)
  refine hguarded.imp (server platform) ?_
  rintro s action ⟨hallowed, hbound⟩
  refine ⟨?_, ?_⟩
  · intro msg source port now reading haction haccept
    exact hallowed _ now haction reading haccept
  · intro now a rest _ hinbox
    have hfirst := hbound a (hinbox ▸ List.mem_cons_self)
    refine ⟨?_, ?_⟩
    · intro device ip port epoch hcallback
      simp only [HomeBound, hcallback] at hfirst
      exact hfirst.1
    · intro function hwritten
      obtain ⟨ordinal, reply, callback⟩ := a
      cases callback with
      | pingHmset device =>
          cases hwritten
          exact hfirst rfl
      | functionChange device newFunction =>
          simp only [rewritten] at hwritten
          split at hwritten
          · obtain ⟨written, _, heq⟩ := Option.map_eq_some_iff.mp hwritten
            exact hfirst (Prod.mk.inj heq).1
          · cases hwritten
      | _ => cases hwritten

/-- A device that registers and sends from one address. -/
theorem forwarded_to_newest_source_loop : ∃ schedule,
    (server referencePlatform).Guarded (homeGuard fun _ => "10.0.0.2") (boot empty) schedule ∧
      ∃ sent ∈ datagrams ((server referencePlatform).run (boot empty) schedule).outputs,
        sent.connected = "adc00000001" ∧
        ∃ arrival, newestBy "adc00000001"
          ((server referencePlatform).run (boot empty) schedule).history sent.recordAt =
            some arrival ∧
          sent.address = some arrival.address ∧ sent.port = arrival.port := by
  obtain ⟨n, m, hsent⟩ := exists_sampleDatagram "10.0.0.2" "10.0.0.2"
  have hguarded : (server referencePlatform).Guarded (homeGuard fun _ => "10.0.0.2") (boot empty)
      (loopSchedule "adc00000001" "10.0.0.2" 4000 samplePing sampleReading "10.0.0.2" 4001 ++
        lastTurns) := by
    apply guarded_home_of_events
    intro event now hmem
    rcases mem_loopSchedule eventFree_lastTurns hmem with rfl | rfl | rfl | rfl
    · intro value hvalue _
      rw [List.mem_singleton.mp hvalue, isPingOf_samplePing.2]
      exact ⟨rfl, by decide⟩
    · exact fun _ _ => rfl
    · trivial
    · trivial
  exact ⟨_, hguarded, _, hsent, rfl,
    forwarded_to_newest_source referencePlatform _ hguarded _ hsent⟩

/-- A device that registers from one address and sends from another one: the
forwarded datagram goes to the address of the registration. -/
theorem forwarded_to_stale_address :
    ∃ sent ∈ datagrams ((server referencePlatform).run (boot empty)
        (loopSchedule "adc00000001" "10.0.0.2" 4000 samplePing sampleReading "10.0.0.3" 4001 ++
          lastTurns)).outputs,
      ¬ ∃ arrival, newestBy sent.connected ((server referencePlatform).run (boot empty)
          (loopSchedule "adc00000001" "10.0.0.2" 4000 samplePing sampleReading "10.0.0.3" 4001 ++
            lastTurns)).history sent.recordAt = some arrival ∧
        sent.address = some arrival.address ∧ sent.port = arrival.port := by
  obtain ⟨n, m, hsent⟩ := exists_sampleDatagram "10.0.0.2" "10.0.0.3"
  refine ⟨_, hsent, ?_⟩
  rintro ⟨arrival, hnewest, haddress, _⟩
  have hmem := List.mem_of_mem_filter (List.mem_of_getLast? hnewest)
  obtain ⟨⟨position, event⟩, hentry, harrival⟩ := List.mem_filterMap.mp hmem
  obtain ⟨_, msg, rfl, _⟩ := exists_of_arrival harrival
  rcases (server referencePlatform).mem_history_run hentry with hold | ⟨now, hevent⟩
  · cases hold
  · -- The only datagram of the schedule comes from the other address.
    rcases mem_loopSchedule eventFree_lastTurns hevent with heq | heq | heq | heq
    · cases heq
    · have hsource := (Event.udpMessage.inj heq).2.1
      rw [hsource] at haddress
      exact absurd (Option.some.inj haddress) (by decide)
    · cases heq
    · cases heq

end RealTimeWs
