import RealTimeWs.Server.Handlers

/-! # What a turn writes

For each family of keys, the writes of a turn are read off its callback and reply
or its event. Everything proved about stored data later rests on these summaries,
not on the handlers.
-/

namespace RealTimeWs

open Redis FunctionsService

/-- The device that a reply adds to the registered ones. -/
def registered : Callback → Reply → Option String
  | .pingSismember device _ _ _, reply => if truthy reply then none else some device
  | _, _ => none

/-- The table that a reply rewrites, and the function it is rewritten with. -/
def rewritten : Callback → Reply → Option (String × Allowed)
  | .pingHmset device, _ => some (device, .linear)
  | .functionChange device newFunction, reply =>
      if truthy reply then (newFunction.bind find).map fun function => (device, function)
      else none
  | _, _ => none

/-- The set of connections that a reply changes. -/
def linked : Callback → Reply → Option (String × Operation)
  | .connectTo fromDevice toDevice _, reply =>
      if truthy reply then some (fromDevice, .sadd toDevice) else none
  | .disconnectExists fromDevice toDevice _, reply =>
      if truthy reply then some (fromDevice, .srem toDevice) else none
  | .releaseSismember device fromDevice, reply =>
      if truthy reply then some (device, .srem fromDevice) else none
  | _, _ => none

/-- The record that a reply changes. -/
def recorded : Callback → Reply → Nat → Option (String × List Operation)
  | .pingSismember device _ _ epoch, reply, _ =>
      some (device, (if truthy reply then [.hmset [("last_ping", epoch.repr)]] else []) ++
        [.hincrby "msg_count" 1])
  | .pingSadd device ip port epoch, _, _ =>
      some (device, [.hmset [("ip", ip), ("port", port.repr), ("active", "true"),
        ("last_ping", epoch.repr), ("function", "linear")]])
  | .functionChange device newFunction, reply, _ =>
      (rewritten (.functionChange device newFunction) reply).map fun written =>
        (device, [.hmset [("function", written.2.name)]])
  | .routineHmget device, .array (lastPing :: _), now =>
      some (device, [.hmset [("active", if Routine.recent now lastPing then "true" else "false")]])
  | .forwardHget device _ _ _ record _, .bulk (some _), _ =>
      (UDP.sendPort (record "udp_port")).map fun _ => (device, [.hincrby "msg_count" 1])
  | _, _, _ => none

/-- The device and the reading of an accepted datagram. -/
def Event.accepted : Event → Option (String × String)
  | .udpMessage msg _ _ => UDP.accept msg
  | _ => none

/-- The record that an event changes. -/
def Event.recorded : Event → Nat → Option (String × List Operation)
  | .udpMessage msg _ port, now => (UDP.accept msg).map fun reading =>
      (reading.1, [.hmset [("last_ping", now.repr), ("udp_port", port.repr)],
        .hincrby "msg_count" 1])
  | _, _ => none

/-- Whether a reply counts a forwarded datagram. -/
def counted : Callback → Reply → Bool
  | .forwardHget _ _ _ _ record _, .bulk (some _) => (UDP.sendPort (record "udp_port")).isSome
  | _, _ => false

/-- All writes of a reply, in the order in which they are sent. -/
def replyWrites (curves : Curves) (callback : Callback) (reply : Reply) (now : Nat) :
    List Command :=
  ((registered callback reply).toList.map fun device => ⟨devicesKey, .sadd device⟩) ++
  ((rewritten callback reply).toList.flatMap fun written =>
    commands curves written.2 written.1) ++
  ((linked callback reply).toList.map fun change => ⟨connectionKey change.1, change.2⟩) ++
  ((recorded callback reply now).toList.flatMap fun change =>
    change.2.map fun op => ⟨recordKey change.1, op⟩) ++
  (if counted callback reply then [⟨msgCountKey, .incr⟩] else [])

/-- All writes of an event. -/
def eventWrites : Event → Nat → List Command
  | .tcpData _ _ _, _ => [⟨msgCountKey, .incr⟩]
  | .udpMessage msg _ port, now => ⟨msgCountKey, .incr⟩ ::
      (UDP.accept msg).toList.flatMap fun reading =>
        [⟨dataKey reading.1, .lpush reading.2⟩, ⟨dataKey reading.1, .ltrim 0 999⟩,
          ⟨recordKey reading.1, .hmset [("last_ping", now.repr), ("udp_port", port.repr)]⟩,
          ⟨recordKey reading.1, .hincrby "msg_count" 1⟩]
  | .disconnectAll fromDevice _, _ => [⟨connectionKey fromDevice, .del⟩]
  | _, _ => []

theorem writes_silent (commands : List Command)
    (hwrite : ∀ command ∈ commands, command.op.isRead = false) :
    writes (silent commands) = commands := by
  rw [writes, silent, List.map_map, List.filter_eq_self.mpr]
  · simp [Function.comp_def]
  · intro command hmem
    simp only [Function.comp_def, List.map_id'] at hmem
    simp [hwrite command hmem]

theorem commands_spec (curves : Curves) (function : Allowed) (device : String) :
    ∀ command ∈ commands curves function device,
      command.key = tableKey device ∧ command.op.isRead = false := by
  intro command hmem
  rcases List.mem_cons.mp hmem with rfl | hmem
  · exact ⟨rfl, rfl⟩
  · obtain ⟨pair, _, rfl⟩ := List.mem_map.mp hmem
    exact ⟨rfl, rfl⟩

theorem writes_map_of_isRead {α : Type} (names : List α) (entry : α → Command × Callback)
    (hread : ∀ name, (entry name).1.op.isRead = true) : writes (names.map entry) = [] := by
  apply writes_of_isRead
  intro sent hmem
  obtain ⟨name, _, rfl⟩ := List.mem_map.mp hmem
  exact hread name

variable (platform : Platform)

/-- The summary of the writes of a reply is right. -/
theorem writes_onReply (callback : Callback) (ordinal : Nat) (reply : Reply) (now : Nat)
    (memory : Memory) :
    writes (onReply platform callback ordinal reply now memory).sends =
      replyWrites platform.curves callback reply now := by
  cases callback with
  | pingSismember device ip port epoch =>
      cases htruthy : truthy reply <;>
        simp [onReply, finish, TCP.pingSismember, silent, writes_cons, Operation.isRead,
          replyWrites, registered, rewritten, linked, recorded, counted, htruthy]
  | pingSadd device ip port epoch => rfl
  | pingHmset device =>
      have hwrites := writes_silent (commands platform.curves .linear device)
        fun command hmem => (commands_spec _ _ _ command hmem).2
      simpa [onReply, finish, TCP.pingHmset, FunctionsService.linear, replyWrites, registered,
        rewritten, linked, recorded, counted] using hwrites
  | connectFrom fromDevice toDevice referer =>
      cases htruthy : truthy reply <;>
        simp [onReply, finish, ConnectController.sismemberFrom, writes_cons, Operation.isRead,
          replyWrites, registered, rewritten, linked, recorded, counted, htruthy]
  | connectTo fromDevice toDevice referer =>
      cases htruthy : truthy reply <;>
        simp [onReply, finish, ConnectController.sismemberTo, writes_cons, Operation.isRead,
          replyWrites, registered, rewritten, linked, recorded, counted, htruthy]
  | disconnectExists fromDevice toDevice referer =>
      cases htruthy : truthy reply <;>
        simp [onReply, finish, DisconnectController.existsConnection, writes_cons,
          Operation.isRead, replyWrites, registered, rewritten, linked, recorded, counted, htruthy]
  | releaseSismember device fromDevice =>
      cases htruthy : truthy reply <;>
        simp [onReply, finish, DisconnectController.releaseSismember, silent, writes_cons,
          Operation.isRead, replyWrites, registered, rewritten, linked, recorded, counted, htruthy]
  | functionChange device newFunction =>
      cases htruthy : truthy reply with
      | false =>
          simp [onReply, finish, DeviceController.functionChange, replyWrites, registered,
            rewritten, linked, recorded, counted, htruthy]
      | true =>
          cases hfind : newFunction.bind find with
          | none =>
              simp [onReply, finish, DeviceController.functionChange, replyWrites, registered,
                rewritten, linked, recorded, counted, htruthy, hfind]
          | some function =>
              have hwrites := writes_silent
                (commands platform.curves function device ++
                  [⟨recordKey device, .hmset [("function", function.name)]⟩]) (by
                    intro command hmem
                    rcases List.mem_append.mp hmem with htable | hname
                    · exact (commands_spec _ _ _ command htable).2
                    · rw [List.mem_singleton.mp hname]
                      rfl)
              simpa [onReply, finish, DeviceController.functionChange, replyWrites, registered,
                rewritten, linked, recorded, counted, htruthy, hfind] using hwrites
  | routineHmget device =>
      cases reply with
      | array texts => cases texts <;> rfl
      | _ => rfl
  | forwardConnected device =>
      cases reply with
      | members connected => cases connected <;> rfl
      | _ => rfl
  | forwardHgetall device connected reading readAt =>
      cases reply with
      | object fields =>
          cases fields with
          | none => rfl
          | some record =>
              by_cases hactive : record "active" = some "true" <;>
                simp [onReply, finish, UDP.forwardHgetall, writes_cons, Operation.isRead,
                  replyWrites, registered, rewritten, linked, recorded, counted, hactive]
      | _ => rfl
  | forwardHget device connected reading readAt record recordAt =>
      cases reply with
      | bulk text =>
          cases text with
          | none => rfl
          | some newValue =>
              cases hport : UDP.sendPort (record "udp_port") <;>
                simp [onReply, finish, throw, UDP.forwardHget, silent, writes_cons,
                  Operation.isRead, replyWrites, registered, rewritten, linked, recorded, counted,
                  hport]
      | _ => rfl
  | releaseSmembers fromDevice =>
      cases reply with
      | members devices => exact writes_map_of_isRead devices _ fun _ => rfl
      | _ => rfl
  | routineSmembers =>
      cases reply with
      | members devices => exact writes_map_of_isRead devices _ fun _ => rfl
      | _ => rfl
  | forwardSmembers =>
      cases reply with
      | members devices => exact writes_map_of_isRead devices _ fun _ => rfl
      | _ => rfl
  | _ => rfl

/-- PING handlers only ask whether devices are registered. -/
theorem mem_responses {ip : String} {port now : Nat} {values : List (Resp.Value String)}
    {entry : Command × Callback}
    (hmem : entry ∈ (TCP.responses platform ip port now values).1) :
    ∃ value ∈ values, TCP.isPing platform.toLowerCase value = some true ∧
      entry = (⟨devicesKey, .sismember (platform.toLowerCase (TCP.secondText value))⟩,
        .pingSismember (platform.toLowerCase (TCP.secondText value)) ip port now) := by
  induction values with
  | nil => simp [TCP.responses] at hmem
  | cons value rest ih =>
      unfold TCP.responses TCP.response at hmem
      cases hping : TCP.isPing platform.toLowerCase value with
      | none => simp [hping] at hmem
      | some ping =>
          simp only [hping, Option.map_some, List.mem_append] at hmem
          rcases hmem with hhead | htail
          · cases ping with
            | false => simp at hhead
            | true =>
                refine ⟨value, List.mem_cons_self, hping, ?_⟩
                simpa using hhead
          · obtain ⟨other, hother, hrest⟩ := ih htail
            exact ⟨other, List.mem_cons_of_mem _ hother, hrest⟩

/-- The summary of the writes of an event is right. -/
theorem writes_onEvent (event : Event) (now : Nat) (memory : Memory) :
    writes (onEvent platform event now memory).sends = eventWrites event now := by
  cases event with
  | tcpData ip port values =>
      have hreads : writes (TCP.responses platform ip port now values).1 = [] := by
        apply writes_of_isRead
        intro entry hmem
        obtain ⟨value, _, _, rfl⟩ := mem_responses platform hmem
        rfl
      simp [onEvent, TCP.data, writes_cons, Operation.isRead, eventWrites, hreads]
  | udpMessage msg address port =>
      cases haccept : UDP.accept msg <;>
        simp [onEvent, finish, UDP.message, silent, writes_cons, Operation.isRead, eventWrites,
          haccept]
  | _ => rfl

/-! ## Stored values after a reply -/

/-- The operations of an optional change that concern one key. -/
def opsFor {α : Type} (key : String) (change : Option α) (name : α → String)
    (ops : α → List Operation) : List Operation :=
  match change with
  | none => []
  | some what => if name what = key then ops what else []

theorem opsAt_toList_flatMap {α : Type} (key : String) (change : Option α)
    (list : α → List Command) (name : α → String)
    (hname : ∀ what, ∀ command ∈ list what, command.key = name what) :
    opsAt key (change.toList.flatMap list) =
      opsFor key change name fun what => (list what).map Command.op := by
  cases change with
  | none => rfl
  | some what =>
      simp only [Option.toList_some, List.flatMap_cons, List.flatMap_nil, List.append_nil]
      exact opsAt_of_key_eq key (name what) (list what) (hname what)

theorem opsAt_toList_map {α : Type} (key : String) (change : Option α) (command : α → Command) :
    opsAt key (change.toList.map command) =
      opsFor key change (fun what => (command what).key) fun what => [(command what).op] := by
  cases change with
  | none => rfl
  | some what => simp [opsAt_cons, opsFor]

theorem opsFor_of_ne {α : Type} (key : String) (change : Option α) (name : α → String)
    (ops : α → List Operation) (hne : ∀ what, change = some what → name what ≠ key) :
    opsFor key change name ops = [] := by
  cases change with
  | none => rfl
  | some what => simp [opsFor, hne what rfl]

/-- The operations of a reply on a key, family by family. -/
theorem opsAt_replyWrites (curves : Curves) (callback : Callback) (reply : Reply) (now : Nat)
    (key : String) :
    opsAt key (replyWrites curves callback reply now) =
      opsFor key (registered callback reply) (fun _ => devicesKey) (fun device => [.sadd device]) ++
      opsFor key (rewritten callback reply) (fun written => tableKey written.1)
        (fun written => (commands curves written.2 written.1).map Command.op) ++
      opsFor key (linked callback reply) (fun change => connectionKey change.1)
        (fun change => [change.2]) ++
      opsFor key (recorded callback reply now) (fun change => recordKey change.1)
        (fun change => change.2) ++
      (if counted callback reply ∧ msgCountKey = key then [.incr] else []) := by
  have htable : ∀ written : String × Allowed,
      ∀ command ∈ commands curves written.2 written.1, command.key = tableKey written.1 :=
    fun written command hmem => (commands_spec curves written.2 written.1 command hmem).1
  have hrecord : ∀ change : String × List Operation,
      ∀ command ∈ change.2.map (fun op => (⟨recordKey change.1, op⟩ : Command)),
        command.key = recordKey change.1 := by
    intro change command hmem
    obtain ⟨op, _, rfl⟩ := List.mem_map.mp hmem
    rfl
  simp only [replyWrites, opsAt_append, opsAt_toList_map,
    opsAt_toList_flatMap key (rewritten callback reply) _ _ htable,
    opsAt_toList_flatMap key (recorded callback reply now) _ _ hrecord, List.map_map]
  congr 1
  · simp [Function.comp_def]
  · cases counted callback reply <;> simp [opsAt_cons]

/-- A reply that writes a table changes at most the record of the same device. -/
theorem recorded_eq_rewritten {callback : Callback} {reply : Reply} {now : Nat}
    {written : String × Allowed} {change : String × List Operation}
    (hwritten : rewritten callback reply = some written)
    (hchange : recorded callback reply now = some change) : change.1 = written.1 := by
  cases callback with
  | pingHmset device => cases hchange
  | functionChange device newFunction =>
      have hdevice : written.1 = device := by
        simp only [rewritten] at hwritten
        split at hwritten
        · obtain ⟨function, _, rfl⟩ := Option.map_eq_some_iff.mp hwritten
          rfl
        · cases hwritten
      obtain ⟨_, _, rfl⟩ := Option.map_eq_some_iff.mp hchange
      exact hdevice.symm
  | _ => cases hwritten

section Replies

variable (callback : Callback) (ordinal : Nat) (reply : Reply) (now : Nat) (memory : Memory)
variable (n : Nat) (store : Store)

/-- The store after a reply, with its commands executed. -/
def replyStore : Store :=
  (server platform).storeAfter n store (onReply platform callback ordinal reply now memory).sends

theorem replyStore_apply (key : String) :
    replyStore platform callback ordinal reply now memory n store key =
      applyAll (opsAt key (replyWrites platform.curves callback reply now)) (store key) := by
  rw [replyStore, storeAfter_apply platform.order (server platform) rfl, writes_onReply]

theorem replyStore_devices :
    replyStore platform callback ordinal reply now memory n store devicesKey =
      applyAll (opsFor devicesKey (registered callback reply) (fun _ => devicesKey)
        fun device => [.sadd device]) (store devicesKey) := by
  rw [replyStore_apply, opsAt_replyWrites,
    opsFor_of_ne _ (rewritten callback reply) _ _ fun _ _ => tableKey_ne_devicesKey _,
    opsFor_of_ne _ (linked callback reply) _ _ fun _ _ => connectionKey_ne_devicesKey _,
    opsFor_of_ne _ (recorded callback reply now) _ _ fun _ _ => recordKey_ne_devicesKey _]
  simp

/-- The global counter counts forwarded datagrams. -/
theorem replyStore_msgCount :
    replyStore platform callback ordinal reply now memory n store msgCountKey =
      applyAll (if counted callback reply then [.incr] else []) (store msgCountKey) := by
  rw [replyStore_apply, opsAt_replyWrites,
    opsFor_of_ne _ (registered callback reply) _ _ fun _ _ => msgCountKey_ne_devicesKey.symm,
    opsFor_of_ne _ (rewritten callback reply) _ _ fun _ _ => tableKey_ne_msgCountKey _,
    opsFor_of_ne _ (linked callback reply) _ _ fun _ _ => connectionKey_ne_msgCountKey _,
    opsFor_of_ne _ (recorded callback reply now) _ _ fun _ _ => recordKey_ne_msgCountKey _]
  simp

/-- A table is what the last function left, whatever else happens. -/
theorem replyStore_table {device : String} (hplain : Plain device) :
    replyStore platform callback ordinal reply now memory n store (tableKey device) =
      match rewritten callback reply with
      | none => store (tableKey device)
      | some (other, function) =>
          if other = device then some (.hash (table platform.curves function))
          else store (tableKey device) := by
  rw [replyStore_apply, opsAt_replyWrites,
    opsFor_of_ne _ (registered callback reply) _ _ fun _ _ => (tableKey_ne_devicesKey _).symm,
    opsFor_of_ne _ (linked callback reply) _ _ fun _ _ => connectionKey_ne_tableKey _ hplain,
    opsFor_of_ne _ (recorded callback reply now) _ _ fun _ _ => recordKey_ne_tableKey _ hplain]
  cases hwritten : rewritten callback reply with
  | none => simp [opsFor, (tableKey_ne_msgCountKey device).symm]
  | some written =>
      obtain ⟨other, function⟩ := written
      by_cases heq : other = device
      · subst heq
        simp [opsFor, (tableKey_ne_msgCountKey other).symm, applyAll_commands]
      · simp [opsFor, (tableKey_ne_msgCountKey device).symm, heq]

variable (hrewritten : ∀ written, rewritten callback reply = some written → Plain written.1)

include hrewritten

theorem replyStore_connection (name : String) :
    replyStore platform callback ordinal reply now memory n store (connectionKey name) =
      applyAll (opsFor name (linked callback reply) (fun change => change.1)
        fun change => [change.2]) (store (connectionKey name)) := by
  rw [replyStore_apply, opsAt_replyWrites,
    opsFor_of_ne _ (registered callback reply) _ _ fun _ _ => (connectionKey_ne_devicesKey _).symm,
    opsFor_of_ne _ (rewritten callback reply) _ _
      fun written heq => (connectionKey_ne_tableKey _ (hrewritten written heq)).symm,
    opsFor_of_ne _ (recorded callback reply now) _ _ fun _ _ => recordKey_ne_connectionKey _ _]
  cases hlinked : linked callback reply <;>
    simp [opsFor, (connectionKey_ne_msgCountKey name).symm]

omit hrewritten

/-- What a reply does to a record that is not the table of another device. -/
theorem replyStore_record {name : String}
    (hother : ∀ written, rewritten callback reply = some written →
      tableKey written.1 ≠ recordKey name) :
    replyStore platform callback ordinal reply now memory n store (recordKey name) =
      applyAll (opsFor name (recorded callback reply now) (fun change => change.1)
        fun change => change.2) (store (recordKey name)) := by
  rw [replyStore_apply, opsAt_replyWrites,
    opsFor_of_ne _ (registered callback reply) _ _ fun _ _ => (recordKey_ne_devicesKey _).symm,
    opsFor_of_ne _ (rewritten callback reply) _ _ hother,
    opsFor_of_ne _ (linked callback reply) _ _
      fun _ _ => (recordKey_ne_connectionKey _ _).symm]
  cases hrecorded : recorded callback reply now <;>
    simp [opsFor, (recordKey_ne_msgCountKey name).symm]

/-- A table that is written where a record was. -/
theorem replyStore_record_of_table {name : String} {written : String × Allowed}
    (hwritten : rewritten callback reply = some written)
    (hkey : tableKey written.1 = recordKey name) :
    replyStore platform callback ordinal reply now memory n store (recordKey name) =
      some (.hash (table platform.curves written.2)) := by
  have hnot : ∀ change, recorded callback reply now = some change → recordKey change.1 ≠
      recordKey name := by
    intro change hchange heq
    rw [← hkey, ← recorded_eq_rewritten hwritten hchange] at heq
    exact recordKey_ne_tableKey_self change.1 heq
  rw [replyStore_apply, opsAt_replyWrites,
    opsFor_of_ne _ (registered callback reply) _ _ fun _ _ => (recordKey_ne_devicesKey _).symm,
    opsFor_of_ne _ (linked callback reply) _ _
      fun _ _ => (recordKey_ne_connectionKey _ _).symm,
    opsFor_of_ne _ (recorded callback reply now) _ _ hnot, hwritten]
  simp [opsFor, hkey, (recordKey_ne_msgCountKey name).symm, applyAll_commands]

/-- Replies never touch the readings of a device. -/
theorem opsAt_data_replyWrites (curves : Curves) {device : String} (hplain : Plain device) :
    opsAt (dataKey device) (replyWrites curves callback reply now) = [] := by
  rw [opsAt_replyWrites,
    opsFor_of_ne _ (registered callback reply) _ _ fun _ _ => (dataKey_ne_devicesKey _).symm,
    opsFor_of_ne _ (rewritten callback reply) _ _ fun _ _ => (dataKey_ne_tableKey _ _).symm,
    opsFor_of_ne _ (linked callback reply) _ _ fun _ _ => connectionKey_ne_dataKey _ hplain,
    opsFor_of_ne _ (recorded callback reply now) _ _ fun _ _ => recordKey_ne_dataKey _ hplain]
  simp [(dataKey_ne_msgCountKey device).symm]

theorem replyStore_data {device : String} (hplain : Plain device) :
    replyStore platform callback ordinal reply now memory n store (dataKey device) =
      store (dataKey device) := by
  rw [replyStore_apply, opsAt_data_replyWrites callback reply now platform.curves hplain]
  rfl

end Replies

/-! ## Stored values after an event -/

section Events

variable (event : Event) (now : Nat) (memory : Memory) (n : Nat) (store : Store)

/-- The store after an event, with its commands executed. -/
def eventStore : Store :=
  (server platform).storeAfter n store (onEvent platform event now memory).sends

theorem eventStore_apply (key : String) :
    eventStore platform event now memory n store key =
      applyAll (opsAt key (eventWrites event now)) (store key) := by
  rw [eventStore, storeAfter_apply platform.order (server platform) rfl, writes_onEvent]

theorem eventStore_devices :
    eventStore platform event now memory n store devicesKey = store devicesKey := by
  rw [eventStore_apply]
  cases event with
  | udpMessage msg address port =>
      cases haccept : UDP.accept msg <;> simp [eventWrites, haccept, opsAt_cons]
  | _ => simp [eventWrites, opsAt_cons]

/-- It also counts everything that arrives, by chunks and datagrams. -/
theorem eventStore_msgCount :
    eventStore platform event now memory n store msgCountKey =
      applyAll (match event with
        | .tcpData _ _ _ | .udpMessage _ _ _ => [.incr]
        | _ => []) (store msgCountKey) := by
  rw [eventStore_apply]
  cases event with
  | udpMessage msg address port =>
      cases haccept : UDP.accept msg <;> simp [eventWrites, haccept, opsAt_cons]
  | _ => simp [eventWrites, opsAt_cons]

theorem eventStore_table {device : String} (hplain : Plain device) :
    eventStore platform event now memory n store (tableKey device) = store (tableKey device) := by
  rw [eventStore_apply]
  cases event with
  | udpMessage msg address port =>
      cases haccept : UDP.accept msg <;>
        simp [eventWrites, haccept, opsAt_cons, (tableKey_ne_msgCountKey device).symm,
          recordKey_ne_tableKey _ hplain]
  | _ =>
      simp [eventWrites, opsAt_cons, (tableKey_ne_msgCountKey device).symm,
        connectionKey_ne_tableKey _ hplain]

/-- An accepted datagram is pushed and the list is trimmed. -/
theorem opsAt_data_eventWrites {device : String} (hplain : Plain device) :
    opsAt (dataKey device) (eventWrites event now) =
      opsFor device event.accepted (fun reading => reading.1)
        fun reading => [.lpush reading.2, .ltrim 0 999] := by
  cases event with
  | udpMessage msg address port =>
      cases haccept : UDP.accept msg with
      | none =>
          simp [eventWrites, haccept, opsAt_cons, (dataKey_ne_msgCountKey device).symm,
            Event.accepted, opsFor]
      | some reading =>
          by_cases heq : reading.1 = device <;>
            simp [eventWrites, haccept, opsAt_cons, (dataKey_ne_msgCountKey device).symm,
              Event.accepted, opsFor, recordKey_ne_dataKey _ hplain, heq]
  | _ =>
      simp [eventWrites, opsAt_cons, (dataKey_ne_msgCountKey device).symm,
        connectionKey_ne_dataKey _ hplain, Event.accepted, opsFor]

theorem eventStore_data {device : String} (hplain : Plain device) :
    eventStore platform event now memory n store (dataKey device) =
      applyAll (opsFor device event.accepted (fun reading => reading.1)
        fun reading => [.lpush reading.2, .ltrim 0 999]) (store (dataKey device)) := by
  rw [eventStore_apply, opsAt_data_eventWrites event now hplain]

variable (haccepted : ∀ reading, event.accepted = some reading → Plain reading.1)

include haccepted

/-- Of the events only a request to drop all connections touches a set of them. -/
theorem eventStore_connection (name : String) :
    eventStore platform event now memory n store (connectionKey name) =
        store (connectionKey name) ∨
      eventStore platform event now memory n store (connectionKey name) = none := by
  rw [eventStore_apply]
  cases event with
  | udpMessage msg address port =>
      left
      cases haccept : UDP.accept msg with
      | none =>
          simp [eventWrites, haccept, opsAt_cons, (connectionKey_ne_msgCountKey name).symm]
      | some reading =>
          have hplain : Plain reading.1 := haccepted reading haccept
          simp [eventWrites, haccept, opsAt_cons, (connectionKey_ne_msgCountKey name).symm,
            (connectionKey_ne_dataKey name hplain).symm]
  | disconnectAll fromDevice referer =>
      by_cases heq : fromDevice = name
      · right
        simp [eventWrites, opsAt_cons, heq, Operation.update]
      · left
        simp [eventWrites, opsAt_cons, heq]
  | _ =>
      left
      simp [eventWrites, opsAt_cons, (connectionKey_ne_msgCountKey name).symm]

omit haccepted

/-- What an event does to a record that is not the list of another device. -/
theorem eventStore_record {name : String}
    (hother : ∀ reading, event.accepted = some reading → dataKey reading.1 ≠ recordKey name) :
    eventStore platform event now memory n store (recordKey name) =
      applyAll (opsFor name (event.recorded now) (fun change => change.1)
        fun change => change.2) (store (recordKey name)) := by
  rw [eventStore_apply]
  cases event with
  | udpMessage msg address port =>
      cases haccept : UDP.accept msg with
      | none =>
          simp [eventWrites, haccept, opsAt_cons, (recordKey_ne_msgCountKey name).symm,
            Event.recorded, opsFor]
      | some reading =>
          have hkey : dataKey reading.1 ≠ recordKey name := hother reading haccept
          simp only [eventWrites, haccept, Option.toList_some, List.flatMap_cons,
            List.flatMap_nil, List.append_nil, opsAt_cons, (recordKey_ne_msgCountKey name).symm,
            hkey, recordKey_inj, if_false, opsAt_nil, Event.recorded, Option.map_some, opsFor]
          split <;> rfl
  | _ =>
      simp [eventWrites, opsAt_cons, (recordKey_ne_msgCountKey name).symm,
        (recordKey_ne_connectionKey name _).symm, Event.recorded, opsFor]

/-- A reading that is stored where a record was. -/
theorem eventStore_record_of_data {name : String} {reading : String × String}
    (haccepted : event.accepted = some reading) (hkey : dataKey reading.1 = recordKey name) :
    eventStore platform event now memory n store (recordKey name) =
      applyAll [.lpush reading.2, .ltrim 0 999] (store (recordKey name)) := by
  rw [eventStore_apply]
  cases event with
  | udpMessage msg address port =>
      have haccept : UDP.accept msg = some reading := haccepted
      have hother : reading.1 ≠ name := by
        rintro rfl
        exact recordKey_ne_dataKey_self reading.1 hkey.symm
      simp [eventWrites, haccept, opsAt_cons, (recordKey_ne_msgCountKey name).symm, hkey, hother]
  | _ => cases haccepted

end Events

end RealTimeWs
