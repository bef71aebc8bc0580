import RealTimeWs.Pipeline.Answers
import RealTimeWs.Server.Addressing
import RealTimeWs.Server.Answers
import RealTimeWs.Server.Forwarding
import RealTimeWs.Server.Freshness

/-! # Runs in which the server survives

Callbacks of the server take the shape of replies for granted, and an exception in
one of them ends the process. The conditions below are on the messages and requests
alone: readings within the tables, ports that can be sent to, and for each source one
target that has been heard before. Under them no order of commands and replies makes
any callback throw, however many ticks are on their way.
-/

namespace RealTimeWs

open Redis FunctionsService

variable (platform : Platform)

/-! ## Calm schedules -/

/-- Identifiers are plain, what devices send can be parsed, looked up and answered, and each
device is connected to at most one other, which has sent a reading before. -/
structure Calm (schedule : List Action) : Prop where
  plain : PlainSchedule platform schedule
  parsed : ∀ ip port values now, .event (.tcpData ip port values) now ∈ schedule →
    ∀ value ∈ values, TCP.isPing platform.toLowerCase value ≠ none
  reachable : ∀ msg address port now, .event (.udpMessage msg address port) now ∈ schedule →
    0 < port ∧ port < 65536
  ranged : ∀ msg address port now, .event (.udpMessage msg address port) now ∈ schedule →
    ∀ reading, UDP.accept msg = some reading → ∃ i < 1024, Script.number reading.2 = .nat i
  single : ∀ fromDevice toDevice other referer referer' now now',
    .event (.connect fromDevice toDevice referer) now ∈ schedule →
    .event (.connect fromDevice other referer') now' ∈ schedule → toDevice = other
  heard : ∀ before after fromDevice toDevice referer now,
    schedule = before ++ .event (.connect fromDevice toDevice referer) now :: after →
    ∃ msg address port arrived data, .event (.udpMessage msg address port) arrived ∈ before ∧
      UDP.accept msg = some (toDevice, data)

/-- The same of one event, when the targets are given and the past is known. -/
def calmGuard (target : String → String) (s : State) (action : Action) : Prop :=
  ∀ event now, action = .event event now →
    match event with
    | .tcpData _ _ values => ∀ value ∈ values, TCP.isPing platform.toLowerCase value ≠ none
    | .udpMessage msg _ port => (0 < port ∧ port < 65536) ∧
        ∀ reading, UDP.accept msg = some reading → ∃ i < 1024, Script.number reading.2 = .nat i
    | .connect fromDevice toDevice _ =>
        toDevice = target fromDevice ∧ arrivals toDevice s.history ≠ []
    | _ => True

/-- An accepted datagram in the history is an arrival. -/
theorem arrivals_ne_nil {history : List (Nat × Event)} {n : Nat} {msg : List UInt8}
    {address : String} {port : Nat} {device data : String}
    (hmem : (n, .udpMessage msg address port) ∈ history)
    (haccept : UDP.accept msg = some (device, data)) : arrivals device history ≠ [] := by
  have harrival : (⟨n, data, address, port⟩ : Arrival) ∈ arrivals device history := by
    refine List.mem_filterMap.mpr ⟨_, hmem, ?_⟩
    simp [Event.arrival, haccept]
  exact List.ne_nil_of_mem harrival

theorem guarded_calm {schedule : List Action} (hcalm : Calm platform schedule) :
    ∃ target, (server platform).Guarded (calmGuard platform target) (boot empty) schedule := by
  classical
  -- any request to connect decides the target of its device
  let target : String → String := fun device =>
    if hconnects : ∃ toDevice referer now,
        .event (.connect device toDevice referer) now ∈ schedule then hconnects.choose else device
  refine ⟨target, Pipeline.Client.guarded_of_places ?_⟩
  rintro before _ after hsplit henabled event now rfl
  have hmem : .event event now ∈ schedule := by
    rw [hsplit]
    exact List.mem_append_right _ List.mem_cons_self
  cases event with
  | tcpData ip port values => exact hcalm.parsed ip port values now hmem
  | udpMessage msg address port =>
      exact ⟨hcalm.reachable msg address port now hmem, hcalm.ranged msg address port now hmem⟩
  | connect fromDevice toDevice referer =>
      constructor
      · have hconnects : ∃ toDevice referer now,
            .event (.connect fromDevice toDevice referer) now ∈ schedule := ⟨_, _, _, hmem⟩
        obtain ⟨_, _, hchosen⟩ := hconnects.choose_spec
        simp only [target, dif_pos hconnects]
        exact hcalm.single _ _ _ _ _ _ _ hmem hchosen
      · obtain ⟨msg, address, port, arrived, data, hearlier, haccept⟩ :=
          hcalm.heard before after fromDevice toDevice referer now hsplit
        obtain ⟨n, hreceived⟩ := Pipeline.Client.received_of_alive henabled hearlier
        exact arrivals_ne_nil hreceived haccept
  | _ => trivial

/-! ## What callbacks rely on -/

/-- The server knows a port of the device to which it can send. -/
def Reported (store : Store) (device : String) : Prop :=
  (UDP.sendPort (fieldAt store (recordKey device) "udp_port")).isSome

/-- The reply suits its callback, and so will those that follow. -/
def Suits (target : String → String) (store : Store) (a : Pipeline.Answer Reply Callback) : Prop :=
  match a.callback with
  | .connectFrom fromDevice toDevice _ | .connectTo fromDevice toDevice _ =>
      toDevice = target fromDevice ∧ Reported store toDevice
  | .releaseSmembers _ | .routineSmembers | .forwardSmembers =>
      ∃ members, a.reply = .members members
  | .routineHmget _ => ∃ lastPing rest, a.reply = .array (lastPing :: rest)
  | .forwardConnected device => ∃ members, a.reply = .members members ∧
      (members = [] ∨ members = [target device] ∧ Reported store (target device))
  | .forwardLindex device connected =>
      connected = [target device] ∧ Reported store (target device)
  | .forwardHgetall _ _ _ _ => ∃ record, a.reply = .object (some record) ∧
      (UDP.sendPort (record "udp_port")).isSome
  | .forwardHget _ _ _ _ record _ => (∃ newValue, a.reply = .bulk (some newValue)) ∧
      (UDP.sendPort (record "udp_port")).isSome
  | _ => True

theorem Suits.mono {target : String → String} {store store' : Store}
    {a : Pipeline.Answer Reply Callback} (hsuits : Suits target store a)
    (hreported : ∀ device, Reported store device → Reported store' device) :
    Suits target store' a := by
  obtain ⟨ordinal, reply, callback⟩ := a
  cases callback with
  | connectFrom fromDevice toDevice referer => exact ⟨hsuits.1, hreported _ hsuits.2⟩
  | connectTo fromDevice toDevice referer => exact ⟨hsuits.1, hreported _ hsuits.2⟩
  | forwardConnected device =>
      obtain ⟨members, hreply, hnone | ⟨hone, hport⟩⟩ := hsuits
      · exact ⟨members, hreply, .inl hnone⟩
      · exact ⟨members, hreply, .inr ⟨hone, hreported _ hport⟩⟩
  | forwardLindex device connected => exact ⟨hsuits.1, hreported _ hsuits.2⟩
  | _ => exact hsuits

/-- A server that has not ended, and what keeps it alive. -/
structure Alive (target : String → String) (s : State) : Prop where
  running : s.thrown = false
  typed : ConnectionsTyped s.store
  connected : ∀ device, ∀ member ∈ connections s.store device,
    member = target device ∧ Reported s.store member
  heard : ∀ device, arrivals device s.history ≠ [] → Reported s.store device
  ranged : ∀ device, ∀ arrival ∈ arrivals device s.history,
    ∃ i < 1024, Script.number arrival.data = .nat i
  suited : ∀ a ∈ s.inbox, Suits target s.store a

/-- The guard under which the server stays alive. -/
structure AliveGuard (target : String → String) (s : State) (action : Action) : Prop where
  calm : calmGuard platform target s action
  plain : plainGuard platform s action
  regular : Regular s
  records : TypedRecords s
  ready : Ready platform s
  current : Current s

/-! ## Replies of the right type -/

theorem exists_members {order : SetOrder} {n : Nat} {value : Option Value}
    (htyped : Kind.set.Admits value) :
    ∃ members, Operation.smembers.reply order n value = .members members := by
  cases value with
  | none => exact ⟨[], rfl⟩
  | some held =>
      cases held with
      | set members => exact ⟨order.enumerate n members, rfl⟩
      | _ => exact htyped.elim

/-- The members of a set in which there is at most one. -/
theorem members_of_connections {n : Nat} {store : Store} {device member : String}
    (htyped : Kind.set.Admits (store (connectionKey device)))
    (hsingle : ∀ other ∈ connections store device, other = member) :
    ∃ members, Operation.smembers.reply platform.order n (store (connectionKey device)) =
        .members members ∧
      (members = [] ∨ members = [member] ∧ member ∈ connections store device) := by
  rw [connections, setAt] at *
  cases hvalue : store (connectionKey device) with
  | none => exact ⟨[], rfl, .inl rfl⟩
  | some held =>
      rw [hvalue] at htyped hsingle
      cases held with
      | set members =>
          refine ⟨platform.order.enumerate n members, rfl, ?_⟩
          have hnodup := platform.order.nodup n members
          have hmem := platform.order.mem_enumerate n members
          cases hlist : platform.order.enumerate n members with
          | nil => exact .inl rfl
          | cons first rest =>
              right
              rw [hlist] at hnodup hmem
              have hfirst : first = member := hsingle first ((hmem first).mp List.mem_cons_self)
              subst hfirst
              cases rest with
              | nil => exact ⟨rfl, (hmem first).mp List.mem_cons_self⟩
              | cons second others =>
                  have hsecond : second = first := hsingle second
                    ((hmem second).mp (List.mem_cons_of_mem _ List.mem_cons_self))
                  subst hsecond
                  simp at hnodup
      | _ => exact htyped.elim

theorem exists_array {order : SetOrder} {n : Nat} {value : Option Value} {field : String}
    (htyped : Kind.hash.Admits value) :
    ∃ text rest, (Operation.hmget [field]).reply order n value = .array (text :: rest) := by
  cases value with
  | none => exact ⟨none, [], rfl⟩
  | some held =>
      cases held with
      | hash fields => exact ⟨fields field, [], rfl⟩
      | _ => exact htyped.elim

/-- A record with a port is there. -/
theorem exists_object {order : SetOrder} {n : Nat} {store : Store} {device : String}
    (hreported : Reported store device) :
    ∃ record, Operation.hgetall.reply order n (store (recordKey device)) =
        .object (some record) ∧ (UDP.sendPort (record "udp_port")).isSome := by
  rw [Reported, fieldAt] at hreported
  cases hvalue : store (recordKey device) with
  | none =>
      rw [hvalue] at hreported
      cases hreported
  | some held =>
      rw [hvalue] at hreported
      cases held with
      | hash fields => exact ⟨fields, rfl, hreported⟩
      | _ => cases hreported

/-! ## What turns leave -/

theorem sendPort_repr {port : Nat} (hpos : 0 < port) (hlt : port < 65536) :
    UDP.sendPort (some port.repr) = some port := by
  rw [UDP.sendPort, Option.bind_some, Decimal.natValue_repr]
  simp [hpos, hlt]

theorem responses_parsed {ip : String} {port now : Nat} {values : List (Resp.Value String)}
    (hparsed : ∀ value ∈ values, TCP.isPing platform.toLowerCase value ≠ none) :
    (TCP.responses platform ip port now values).2 = false := by
  induction values with
  | nil => rfl
  | cons value rest ih =>
      have hrest := ih fun other hmem => hparsed other (List.mem_cons_of_mem _ hmem)
      obtain ⟨ping, hping⟩ := Option.ne_none_iff_exists'.mp (hparsed value List.mem_cons_self)
      simp [TCP.responses, TCP.response, hping, hrest]

section Turns

variable {s : State} {event : Event} {a : Pipeline.Answer Reply Callback}
variable {rest : List (Pipeline.Answer Reply Callback)} {now : Nat} (hempty : s.outbox = [])

include hempty

/-- An event reports no other port than that of its datagram. -/
theorem reported_occurred (hplain : event.PlainIds platform) (htyped : TypedRecords s)
    (hport : ∀ msg address port, event = .udpMessage msg address port → 0 < port ∧ port < 65536)
    {device : String} (hreported : Reported s.store device ∨
      ∃ reading, event.accepted = some reading ∧ reading.1 = device) :
    Reported (occurred platform s event now).store device := by
  rw [Reported]
  rcases occurred_record platform event now hempty device with
    ⟨reading, haccepted, hkey, _⟩ | ⟨hother, hsame⟩ | ⟨msg, address, port, _, hevent, _, _, hnew⟩
  · have hdevice := plain_of_accepted platform hplain reading haccepted
    exact absurd hkey.symm (recordKey_ne_dataKey device hdevice)
  · rw [fieldAt, hsame]
    rcases hreported with hold | ⟨reading, haccepted, hdevice⟩
    · exact hold
    · exact absurd hdevice (hother reading haccepted)
  · obtain ⟨hpos, hlt⟩ := hport msg address port hevent
    rw [fieldAt, hnew, fieldsOf_recordOps _ _ (htyped device), changed_of_ne _ _ _ (by decide)]
    simp [sendPort_repr hpos hlt]

theorem reported_delivered (hinbox : s.inbox = a :: rest) (hregular : Regular s)
    (htyped : TypedRecords s) {device : String} (hreported : Reported s.store device) :
    Reported (delivered platform s a rest now).store device := by
  rw [Reported]
  rcases fieldAt_delivered platform now hempty hinbox hregular htyped device with
    ⟨_, hsame⟩ | ⟨pairs, counts, hrecords, hnew⟩
  · rw [hsame]
    exact hreported
  · rw [hnew, changed_of_not_mem _ _ _ (by decide) hrecords.udp_port_not_mem]
    exact hreported

theorem connections_occurred_subset (hplain : event.PlainIds platform) {device member : String}
    (hmem : member ∈ connections (occurred platform s event now).store device) :
    member ∈ connections s.store device := by
  rw [connections, setAt, occurred_store platform hempty] at hmem
  rcases eventStore_connection platform event now s.memory s.executed s.store
    (plain_of_accepted platform hplain) device with hsame | hnone
  · rw [hsame] at hmem
    exact hmem
  · rw [hnone] at hmem
    exact absurd hmem (Finset.notMem_empty member)

/-- A reply adds no other connection than that of its request. -/
theorem mem_connections_delivered (hinbox : s.inbox = a :: rest) (hregular : Regular s)
    {device member : String}
    (hmem : member ∈ connections (delivered platform s a rest now).store device) :
    member ∈ connections s.store device ∨
      ∃ referer, a.callback = .connectTo device member referer := by
  have hstore := replyStore_connection platform a.callback a.ordinal a.reply now s.memory
    s.executed s.store (fun written hwritten =>
      plain_of_rewritten hregular (hinbox ▸ List.mem_cons_self) hwritten) device
  obtain ⟨members, hvalue, hmember⟩ := mem_setAt_iff.mp hmem
  rw [delivered_store platform hempty, hstore] at hvalue
  cases hlinked : linked a.callback a.reply with
  | none =>
      rw [hlinked] at hvalue
      exact .inl (mem_setAt_iff.mpr ⟨members, hvalue, hmember⟩)
  | some change =>
      obtain ⟨name, op⟩ := change
      rw [hlinked] at hvalue
      by_cases heq : name = device
      · subst heq
        simp only [opsFor, if_true, applyAll_cons, applyAll_nil] at hvalue
        rcases mem_of_update_eq_set hvalue hmember with hadds | ⟨held, hheld, hold⟩
        · right
          obtain ⟨ordinal, reply, callback⟩ := a
          cases callback with
          | connectTo fromDevice toDevice referer =>
              simp only [linked, Option.ite_none_right_eq_some, Option.some.injEq,
                Prod.mk.injEq] at hlinked
              obtain ⟨_, rfl, rfl⟩ := hlinked
              cases hadds
              exact ⟨referer, rfl⟩
          | disconnectExists fromDevice toDevice referer =>
              simp only [linked, Option.ite_none_right_eq_some, Option.some.injEq,
                Prod.mk.injEq] at hlinked
              obtain ⟨_, rfl, rfl⟩ := hlinked
              cases hadds
          | releaseSismember other fromDevice =>
              simp only [linked, Option.ite_none_right_eq_some, Option.some.injEq,
                Prod.mk.injEq] at hlinked
              obtain ⟨_, rfl, rfl⟩ := hlinked
              cases hadds
          | _ => cases hlinked
        · exact .inl (mem_setAt_iff.mpr ⟨held, hheld, hold⟩)
      · simp only [opsFor, heq, if_false, applyAll_nil] at hvalue
        exact .inl (mem_setAt_iff.mpr ⟨members, hvalue, hmember⟩)

end Turns

/-! ## Steps -/

section Event

variable {target : String → String} {s : State} {event : Event} {now : Nat}
variable (hempty : s.outbox = []) (hguard : AliveGuard platform target s (.event event now))
variable (halive : Alive target s)

include hempty hguard

theorem running_occurred : (occurred platform s event now).thrown = false := by
  rw [occurred_eq platform hempty]
  cases event with
  | tcpData ip port values => exact responses_parsed platform (hguard.calm _ now rfl)
  | _ => rfl

include halive

theorem connectionsTyped_occurred : ConnectionsTyped (occurred platform s event now).store := by
  intro name
  rw [occurred_store platform hempty]
  rcases eventStore_connection platform event now s.memory s.executed s.store
    (plain_of_accepted platform (hguard.plain event now rfl)) name with hsame | hnone
  · rw [hsame]
    exact halive.typed name
  · rw [hnone]
    trivial

omit hempty in
/-- An event asks for what suits its callback. -/
theorem suits_of_starts {b : Pipeline.Answer Reply Callback} {command : Command}
    (hstarts : Starts platform.toLowerCase event now command b.callback)
    (hreply : b.reply = command.op.reply platform.order b.ordinal (s.store command.key)) :
    Suits target s.store b := by
  have hcalm := hguard.calm event now rfl
  obtain ⟨ordinal, reply, callback⟩ := b
  simp only at hreply
  subst hreply
  cases hstarts with
  | connect => exact ⟨hcalm.1, halive.heard _ hcalm.2⟩
  | release => exact exists_members hguard.regular.typed
  | routineTick => exact exists_members hguard.regular.typed
  | forwardTick => exact exists_members hguard.regular.typed
  | _ => trivial

theorem alive_occurred : Alive target (occurred platform s event now) := by
  have hplain := hguard.plain event now rfl
  have hport : ∀ msg address port, event = .udpMessage msg address port →
      0 < port ∧ port < 65536 := by
    rintro msg address port rfl
    exact (hguard.calm _ now rfl).1
  have hkeep : ∀ device, Reported s.store device →
      Reported (occurred platform s event now).store device := fun device hreported =>
    reported_occurred platform hempty hplain hguard.records hport (.inl hreported)
  refine ⟨running_occurred platform hempty hguard,
    connectionsTyped_occurred platform hempty hguard halive, ?_, ?_, ?_, ?_⟩
  · intro device member hmem
    obtain ⟨htarget, hreported⟩ := halive.connected device member
      (connections_occurred_subset platform hempty hplain hmem)
    exact ⟨htarget, hkeep member hreported⟩
  · intro device hsome
    rw [occurred_history platform hempty, arrivals_append_singleton] at hsome
    by_cases hold : arrivals device s.history = []
    · rw [hold, List.nil_append] at hsome
      obtain ⟨arrival, hmem⟩ := List.exists_mem_of_ne_nil _ hsome
      obtain ⟨_, msg, rfl, haccept⟩ := exists_of_arrival (Option.mem_toList.mp hmem)
      exact reported_occurred platform hempty hplain hguard.records hport
        (.inr ⟨_, haccept, rfl⟩)
    · exact hkeep device (halive.heard device hold)
  · intro device arrival hmem
    rw [occurred_history platform hempty, arrivals_append_singleton] at hmem
    rcases List.mem_append.mp hmem with hold | hnew
    · exact halive.ranged device arrival hold
    · obtain ⟨_, msg, rfl, haccept⟩ := exists_of_arrival (Option.mem_toList.mp hnew)
      exact (hguard.calm _ now rfl).2 _ haccept
  · intro b hmem
    apply Suits.mono _ hkeep
    rcases mem_inbox_occurred platform hempty hmem with hold | ⟨_, hignored | hasked⟩
    · exact halive.suited b hold
    · simp [Suits, hignored]
    · obtain ⟨command, hstarts, hreply⟩ := hasked
      exact suits_of_starts platform hguard halive hstarts hreply

end Event

section Deliver

variable {target : String → String} {s : State} {a : Pipeline.Answer Reply Callback}
variable {rest : List (Pipeline.Answer Reply Callback)} {now : Nat}
variable (hempty : s.outbox = []) (hinbox : s.inbox = a :: rest)
variable (hguard : AliveGuard platform target s (.deliver now)) (halive : Alive target s)

include hinbox halive

theorem running_delivered :
    (onReply platform a.callback a.ordinal a.reply now s.memory).thrown = false := by
  have hsuits := halive.suited a (hinbox ▸ List.mem_cons_self)
  obtain ⟨ordinal, reply, callback⟩ := a
  cases callback with
  | connectFrom fromDevice toDevice referer =>
      simp only [onReply, ConnectController.sismemberFrom]
      split <;> rfl
  | connectTo fromDevice toDevice referer =>
      simp only [onReply, ConnectController.sismemberTo]
      split <;> rfl
  | disconnectExists fromDevice toDevice referer =>
      simp only [onReply, DisconnectController.existsConnection]
      split <;> rfl
  | releaseSmembers fromDevice =>
      obtain ⟨members, rfl⟩ := hsuits
      rfl
  | functionChange device newFunction =>
      simp only [onReply, DeviceController.functionChange]
      split
      · split <;> rfl
      · rfl
  | routineSmembers =>
      obtain ⟨members, rfl⟩ := hsuits
      rfl
  | routineHmget device =>
      obtain ⟨lastPing, others, rfl⟩ := hsuits
      rfl
  | forwardSmembers =>
      obtain ⟨members, rfl⟩ := hsuits
      rfl
  | forwardConnected device =>
      obtain ⟨members, rfl, _⟩ := hsuits
      rfl
  | forwardHgetall device connected reading readAt =>
      obtain ⟨record, rfl, _⟩ := hsuits
      rfl
  | forwardHget device connected reading readAt record recordAt =>
      obtain ⟨⟨newValue, rfl⟩, hport⟩ := hsuits
      obtain ⟨port, hport⟩ := Option.isSome_iff_exists.mp hport
      simp only [onReply, UDP.forwardHget, hport]
      rfl
  | _ => rfl

include hguard

/-- A reply that suits its callback makes it ask for what suits the next one. -/
theorem suits_of_follows {b : Pipeline.Answer Reply Callback} {command : Command}
    (hfollows : Follows a.callback a.ordinal a.reply command b.callback)
    (hreply : b.reply = command.op.reply platform.order b.ordinal (s.store command.key)) :
    Suits target s.store b := by
  have hfirst : a ∈ s.inbox := hinbox ▸ List.mem_cons_self
  have hsuits := halive.suited a hfirst
  obtain ⟨ordinal, reply, callback⟩ := b
  obtain ⟨askedAt, given, asked⟩ := a
  simp only at hreply hfollows
  subst hreply
  cases hfollows with
  | connectTo hfound => exact hsuits
  | routineHmget hmem => exact exists_array (hguard.records _)
  | forwardConnected hmem =>
      obtain ⟨members, hreply, hnone | ⟨hone, hconnected⟩⟩ := members_of_connections platform
        (halive.typed _) fun other hother => (halive.connected _ other hother).1
      · exact ⟨members, hreply, .inl hnone⟩
      · exact ⟨members, hreply, .inr ⟨hone, (halive.connected _ _ hconnected).2⟩⟩
  | forwardLindex hsome =>
      obtain ⟨members, hmembers, hnone | hone⟩ := hsuits
      · cases hmembers
        exact absurd hnone hsome
      · cases hmembers
        exact hone
  | forwardHgetall =>
      obtain ⟨rfl, hreported⟩ := hsuits
      exact exists_object hreported
  | @forwardHget device connected reading readAt n record hactive =>
      obtain ⟨_, hrecord, hport⟩ := hsuits
      cases hrecord
      refine ⟨?_, hport⟩
      -- The table is complete and the reading is the newest of its time.
      obtain ⟨_, function, htable⟩ := hguard.ready.forwarded _ hfirst device rfl
      have hreading := hguard.current.carried _ hfirst 1 device reading readAt .record
      have hnumber : ∃ i < 1024, UDP.readingNumber reading = .nat i := by
        rw [hreading, newestReading]
        cases hnewest : newestBy device s.history readAt with
        | none => exact ⟨0, by decide, rfl⟩
        | some arrival =>
            exact halive.ranged device arrival
              (List.mem_of_mem_filter (List.mem_of_getLast? hnewest))
      obtain ⟨i, hlt, hnumber⟩ := hnumber
      have hfield : Script.text (UDP.readingNumber reading) = i.repr :=
        (Script.text_eq_repr hlt).mpr hnumber
      refine ⟨(value platform.curves function i).repr, ?_⟩
      rw [htable, hfield, ← table_repr platform.curves function i hlt]
      rfl
  | _ => trivial

include hempty

theorem connectionsTyped_delivered : ConnectionsTyped (delivered platform s a rest now).store := by
  intro name
  rw [delivered_store platform hempty, replyStore_connection platform _ _ _ _ _ _ _
    fun written hwritten =>
      plain_of_rewritten hguard.regular (hinbox ▸ List.mem_cons_self) hwritten]
  apply admits_applyAll _ _ _ (halive.typed name)
  intro op hop kind hcreates
  cases hlinked : linked a.callback a.reply with
  | none => simp [hlinked, opsFor] at hop
  | some change =>
      simp only [hlinked, opsFor] at hop
      split at hop
      · rw [List.mem_singleton.mp hop] at hcreates
        exact creates_of_linked hlinked hcreates
      · cases hop

theorem alive_delivered : Alive target (delivered platform s a rest now) := by
  have hkeep : ∀ device, Reported s.store device →
      Reported (delivered platform s a rest now).store device := fun device hreported =>
    reported_delivered platform hempty hinbox hguard.regular hguard.records hreported
  refine ⟨?_, connectionsTyped_delivered platform hempty hinbox hguard halive, ?_, ?_, ?_, ?_⟩
  · rw [delivered_eq platform hempty]
    exact running_delivered platform hinbox halive
  · intro device member hmem
    rcases mem_connections_delivered platform hempty hinbox hguard.regular hmem with
      hold | ⟨referer, hcallback⟩
    · obtain ⟨htarget, hreported⟩ := halive.connected device member hold
      exact ⟨htarget, hkeep member hreported⟩
    · have hsuits := halive.suited a (hinbox ▸ List.mem_cons_self)
      simp only [Suits, hcallback] at hsuits
      exact ⟨hsuits.1, hkeep member hsuits.2⟩
  · intro device hsome
    rw [delivered_history platform hempty] at hsome
    exact hkeep device (halive.heard device hsome)
  · rw [delivered_history platform hempty]
    exact halive.ranged
  · intro b hmem
    apply Suits.mono _ hkeep
    rcases mem_inbox_delivered platform hempty hmem with hold | ⟨_, hignored | hasked⟩
    · exact halive.suited b (hinbox ▸ List.mem_cons_of_mem _ hold)
    · simp [Suits, hignored]
    · obtain ⟨command, hfollows, hreply⟩ := hasked
      exact suits_of_follows platform hinbox hguard halive hfollows hreply

end Deliver

theorem preserved_alive (target : String → String) :
    (server platform).Preserved (AliveGuard platform target) (Alive target) where
  event := by
    intro s event now hempty _ hguard halive
    exact alive_occurred platform hempty hguard halive
  deliver := by
    intro s a rest now hempty _ hinbox hguard halive
    exact alive_delivered platform hempty hinbox hguard halive

theorem alive_boot_empty (target : String → String) :
    Alive target ((server platform).flush (boot empty)) where
  running := rfl
  typed := fun _ => trivial
  connected := fun _ member hmem => absurd hmem (Finset.notMem_empty member)
  heard := fun _ hsome => absurd rfl hsome
  ranged := fun _ _ hmem => absurd hmem List.not_mem_nil
  suited := fun _ hmem => absurd hmem List.not_mem_nil

/-- All that is known about runs with plain identifiers may be used to stay alive. -/
theorem guarded_alive {schedule : List Action} (hplain : PlainSchedule platform schedule)
    {target : String → String}
    (hcalm : (server platform).Guarded (calmGuard platform target) (boot empty) schedule) :
    (server platform).Guarded (AliveGuard platform target) (boot empty) schedule := by
  have hregular := guarded_regular platform hplain
  have hrecords := guarded_record platform hplain
  have hready := (preserved_ready platform).guarded (server platform) (boot empty) schedule
    (guarded_table platform hplain) (ready_boot_empty platform)
  have hcurrent := (preserved_current platform).guarded (server platform) (boot empty) schedule
    ((preserved_inOrder platform).guarded (server platform) (boot empty) schedule hregular
      (inOrder_boot platform empty)) (current_boot_empty platform)
  refine (((hcalm.and _ hrecords).and _ hready).and _ hcurrent).imp _ ?_
  rintro s action ⟨⟨⟨hcalm, hrecord⟩, hready⟩, hcurrent⟩
  exact ⟨hcalm, hrecord.1.1.1, hrecord.1.2, hrecord.2, hready.2, hcurrent.2⟩

/-- In every calm run the server is still alive at the end, whatever the order in which
commands are executed and replies are handled. -/
theorem server_survives {schedule : List Action} (hcalm : Calm platform schedule) :
    ((server platform).run (boot empty) schedule).thrown = false := by
  obtain ⟨target, hguarded⟩ := guarded_calm platform hcalm
  have halive := (preserved_alive platform target).run (server platform) (boot empty) schedule
    (guarded_alive platform hcalm.plain hguarded) (alive_boot_empty platform target)
  exact halive.running

/-- What lies in a part without the given action lies before that action. -/
theorem mem_of_later_not_mem {first second before after : List Action} {action other : Action}
    (hsplit : first ++ second = before ++ action :: after) (hnot : action ∉ first)
    (hmem : other ∈ first) : other ∈ before := by
  rcases List.append_eq_append_iff.mp hsplit with ⟨between, rfl, _⟩ | ⟨between, rfl, heq⟩
  · exact List.mem_append_left _ hmem
  · cases between with
    | nil => simpa using hmem
    | cons head tail =>
        obtain ⟨rfl, _⟩ := List.cons.inj heq
        exact absurd (List.mem_append_right _ List.mem_cons_self) hnot

/-- The schedule in which a device is connected to itself is calm. -/
theorem calm_loopSchedule (ip : String) (port : Nat) (address : String) {source : Nat}
    (hpos : 0 < source) (hlt : source < 65536) {later : List Action}
    (hlater : Pipeline.Client.EventFree later) :
    Calm referencePlatform
      (loopSchedule "adc00000001" ip port samplePing sampleReading address source ++ later) where
  plain := plainSchedule_loopSchedule ip port address source hlater
  parsed := by
    intro ip' port' values now hmem value hvalue
    rcases mem_loopSchedule hlater hmem with heq | heq | heq | heq
    · cases heq
      rw [List.mem_singleton.mp hvalue, isPingOf_samplePing.1]
      exact Option.some_ne_none _
    all_goals cases heq
  reachable := by
    intro msg address' port' now hmem
    rcases mem_loopSchedule hlater hmem with heq | heq | heq | heq
    · cases heq
    · cases heq
      exact ⟨hpos, hlt⟩
    all_goals cases heq
  ranged := by
    intro msg address' port' now hmem reading haccept
    rcases mem_loopSchedule hlater hmem with heq | heq | heq | heq
    · cases heq
    · cases heq
      rw [accept_sampleReading, Option.some.injEq] at haccept
      rw [← haccept]
      exact ⟨512, by decide, by decide⟩
    all_goals cases heq
  single := by
    intro fromDevice toDevice other referer referer' now now' hfirst hsecond
    rcases mem_loopSchedule hlater hfirst with heq | heq | heq | heq
    · cases heq
    · cases heq
    · cases heq
      rcases mem_loopSchedule hlater hsecond with heq | heq | heq | heq
      · cases heq
      · cases heq
      · cases heq
        rfl
      · cases heq
    · cases heq
  heard := by
    intro before after fromDevice toDevice referer now hsplit
    have hconnect : toDevice = "adc00000001" := by
      have hmem : .event (.connect fromDevice toDevice referer) now ∈
          loopSchedule "adc00000001" ip port samplePing sampleReading address source ++ later := by
        rw [hsplit]
        exact List.mem_append_right _ List.mem_cons_self
      rcases mem_loopSchedule hlater hmem with heq | heq | heq | heq
      all_goals cases heq
      rfl
    refine ⟨sampleReading, address, source, 0, "0512", ?_, by rw [hconnect, accept_sampleReading]⟩
    unfold loopSchedule at hsplit
    simp only [List.append_assoc] at hsplit
    rw [← List.append_assoc _ (eventRound _ 0 5)] at hsplit
    apply mem_of_later_not_mem hsplit
    · simp [eventRound, eventFree_rounds 1030 _ _]
    · simp [eventRound]

theorem server_survives_loop :
    ((server referencePlatform).run (boot empty) (loopSchedule "adc00000001" "10.0.0.2" 4000
      samplePing sampleReading "10.0.0.2" 4001 ++ lastTurns)).thrown = false :=
  server_survives referencePlatform (calm_loopSchedule "10.0.0.2" 4000 "10.0.0.2" (by decide)
    (by decide) eventFree_lastTurns)

end RealTimeWs
