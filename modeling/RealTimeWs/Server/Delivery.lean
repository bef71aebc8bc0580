import RealTimeWs.Server.Ping
import RealTimeWs.Server.Records
import RealTimeWs.Server.Trace

/-! # The way of a reading

From an empty database to a forwarded datagram: a device registers, sends a
reading and is connected to itself; one tick of the forwarder then looks its
reading up and sends the result. Each step is stated for every device, address
and reading.
-/

namespace RealTimeWs

open Redis FunctionsService

variable (platform : Platform)

/-! ## After the registration -/

section Registered

variable (device ip : String) (port now : Nat)

/-- The writes of a registration. -/
def registrationWrites : List Command := writes (registration platform device ip port now)

theorem applyAll_registrationWrites (key : String) :
    applyAll (opsAt key (registrationWrites platform device ip port now)) none =
      prefixStore platform ip port now empty device 1030 key := by
  rw [prefixStore, List.take_of_length_le (length_registration platform _ _ _ _).le,
    storeAfter_apply platform.order (server platform) rfl]
  rfl

/-- The record that a registration leaves. -/
theorem record_registrationWrites :
    applyAll (opsAt (recordKey device) (registrationWrites platform device ip port now)) none =
      applyAll (recordOps [] true ++ recordOps [("ip", ip), ("port", port.repr),
        ("active", "true"), ("last_ping", now.repr), ("function", "linear")] false) none := by
  rw [applyAll_registrationWrites, prefixStore_record, if_neg (by decide), if_neg (by decide)]
  rfl

theorem trace_registration {value : Resp.Value String} (hping : IsPingOf platform value device)
    (expected : Callback → Reply → Prop) :
    ∃ s, Trace platform empty expected (.event (.tcpData ip port [value]) now :: rounds 1030) s []
      (registrationWrites platform device ip port now) := by
  have hnew : device ∉ devices empty := Finset.notMem_empty _
  have hquiet := quiescent_registration platform hping hnew ip port now
  have hthrown : ((server platform).run (boot empty)
      (.event (.tcpData ip port [value]) now :: rounds 1030)).thrown = false := by
    rw [run_ping_new_rounds platform hping hnew ip port now le_rfl]
    rfl
  refine ⟨_, rfl, hquiet.1, hthrown, ?_, ?_, ?_⟩
  · rw [hquiet.2]
    rfl
  · intro key
    rw [store_ping_new_rounds platform hping hnew ip port now le_rfl,
      ← applyAll_registrationWrites]
    rfl
  · intro a hmem
    rw [hquiet.2] at hmem
    cases hmem

end Registered

/-! ## To the lookup -/

/-- A device registers, sends a reading, is connected to itself, and a tick of the
forwarder finds its connection. -/
@[irreducible]
def loopSchedule (device ip : String) (port : Nat) (value : Resp.Value String)
    (msg : List UInt8) (address : String) (source : Nat) : List Action :=
  (.event (.tcpData ip port [value]) 0 :: rounds 1030) ++
    eventRound (.udpMessage msg address source) 0 5 ++ List.replicate 5 (.deliver 0) ++
    eventRound (.connect device device none) 0 1 ++ replyRound 0 1 ++ replyRound 0 1 ++
    replyRound 0 0 ++ eventRound .forwardTick 0 1 ++ replyRound 0 1 ++ replyRound 0 1

/-- What the requests and the tick of the schedule are answered. -/
def loopReplies (device data : String) : Callback → Reply → Prop
  | .connectFrom _ _ _, reply => truthy reply = true
  | .connectTo _ _ _, reply => truthy reply = true
  | .forwardSmembers, reply => reply = .members [device]
  | .forwardConnected _, reply => reply = .members [device]
  | .forwardLindex _ _, reply => reply = .bulk (some data)
  | _, _ => True

theorem enumerate_singleton (order : SetOrder) (n : Nat) (member : String) :
    order.enumerate n {member} = [member] := by
  have hmem : ∀ x, x ∈ order.enumerate n {member} ↔ x = member := by
    intro x
    rw [order.mem_enumerate, Finset.mem_singleton]
  rw [← List.perm_singleton]
  exact (List.perm_ext_iff_of_nodup (order.nodup n _) (List.nodup_singleton _)).mpr fun x => by
    rw [hmem, List.mem_singleton]

section Loop

variable {device data : String} (hplain : Plain device) (ip : String) (port : Nat)
variable {value : Resp.Value String} (hping : IsPingOf platform value device)
variable {msg : List UInt8} (haccept : UDP.accept msg = some (device, data))
variable (address : String) (source : Nat)

/-- The writes of an accepted datagram. -/
def readingWrites (device data : String) (source : Nat) : List Command :=
  [⟨msgCountKey, .incr⟩, ⟨dataKey device, .lpush data⟩, ⟨dataKey device, .ltrim 0 999⟩,
    ⟨recordKey device, .hmset [("last_ping", Nat.repr 0), ("udp_port", source.repr)]⟩,
    ⟨recordKey device, .hincrby "msg_count" 1⟩]

/-- All writes of the schedule. -/
def loopWrites (device data ip : String) (port source : Nat) : List Command :=
  registrationWrites platform device ip port 0 ++
    readingWrites device data source ++ [⟨connectionKey device, .sadd device⟩]

theorem devices_loop {written : List Command} (hwritten : opsAt devicesKey written =
      opsAt devicesKey (registrationWrites platform device ip port 0)) :
    applyAll (opsAt devicesKey written) (empty devicesKey) = some (.set {device}) := by
  change applyAll (opsAt devicesKey written) none = _
  rw [hwritten, applyAll_registrationWrites, prefixStore_devices]
  rfl

section Written

variable (data)

include hplain

theorem connection_loop : applyAll (opsAt (connectionKey device)
    (loopWrites platform device data ip port source)) none = some (.set {device}) := by
  have hdata := (connectionKey_ne_dataKey device hplain).symm
  rw [loopWrites, List.append_assoc, opsAt_append, applyAll_append, applyAll_registrationWrites,
    prefixStore_of_ne platform ip port 0 1030 (connectionKey_ne_msgCountKey device).symm
      (connectionKey_ne_devicesKey device).symm (recordKey_ne_connectionKey _ _)
      (connectionKey_ne_tableKey _ hplain).symm]
  simp [readingWrites, opsAt_cons, (connectionKey_ne_msgCountKey device).symm, hdata, empty,
    Operation.update]

theorem data_loop : applyAll (opsAt (dataKey device)
    (loopWrites platform device data ip port source)) none = some (.list [data]) := by
  have hconnection := connectionKey_ne_dataKey device hplain
  have hrecord := recordKey_ne_dataKey device hplain
  rw [loopWrites, List.append_assoc, opsAt_append, applyAll_append, applyAll_registrationWrites,
    prefixStore_of_ne platform ip port 0 1030 (dataKey_ne_msgCountKey device).symm
      (dataKey_ne_devicesKey device).symm hrecord (dataKey_ne_tableKey _ _).symm]
  simp [readingWrites, opsAt_cons, (dataKey_ne_msgCountKey device).symm, hconnection, hrecord,
    empty, Operation.update, slice]

theorem table_loop : applyAll (opsAt (tableKey device)
    (loopWrites platform device data ip port source)) none =
      some (.hash (table platform.curves .linear)) := by
  have hconnection := connectionKey_ne_tableKey device hplain
  have hrecord := recordKey_ne_tableKey device hplain
  have hall : ((FunctionsService.linear platform.curves device).take (1030 - 5)) =
      FunctionsService.linear platform.curves device :=
    List.take_of_length_le (length_linear platform device).le
  rw [loopWrites, List.append_assoc, opsAt_append, applyAll_append, applyAll_registrationWrites,
    prefixStore_table, hall, FunctionsService.linear, applyAll_commands]
  simp [readingWrites, opsAt_cons, (tableKey_ne_msgCountKey device).symm, hconnection, hrecord]

/-- The address of the PING and the port of the datagram. -/
theorem record_loop : ∃ record, applyAll (opsAt (recordKey device)
    (loopWrites platform device data ip port source)) none = some (.hash record) ∧
      record "active" = some "true" ∧ record "ip" = some ip ∧
      record "udp_port" = some source.repr := by
  have hdata := (recordKey_ne_dataKey device hplain).symm
  have hconnection := (recordKey_ne_connectionKey device device).symm
  rw [loopWrites, List.append_assoc, opsAt_append, applyAll_append, applyAll_registrationWrites,
    prefixStore_record, if_neg (by decide), if_neg (by decide)]
  refine ⟨(((Hash.none.setAll [("msg_count", Int.repr 1)]).setAll [("ip", ip),
    ("port", port.repr), ("active", "true"), ("last_ping", Nat.repr 0),
    ("function", "linear")]).setAll [("last_ping", Nat.repr 0),
    ("udp_port", source.repr)]).increment "msg_count" 1, ?_, ?_⟩
  · simp only [readingWrites, List.cons_append, List.nil_append, opsAt_cons, opsAt_nil,
      (recordKey_ne_msgCountKey device).symm, hdata, hconnection, if_true, if_false, empty,
      applyAll_cons, applyAll_nil, ← update_hincrby]
    rfl
  · rw [Hash.increment_of_ne _ _ (by decide), Hash.increment_of_ne _ _ (by decide),
      Hash.increment_of_ne _ _ (by decide)]
    simp

end Written

include hplain hping haccept

omit hplain in
/-- The device is connected, and nothing is outstanding. -/
theorem trace_linked : ∃ s, Trace platform empty (loopReplies device data)
    ((.event (.tcpData ip port [value]) 0 :: rounds 1030) ++
      eventRound (.udpMessage msg address source) 0 5 ++ List.replicate 5 (.deliver 0) ++
      eventRound (.connect device device none) 0 1 ++ replyRound 0 1 ++ replyRound 0 1 ++
      replyRound 0 0) s [] (loopWrites platform device data ip port source) := by
  have hignored : ∀ reply, loopReplies device data .ignored reply := fun _ => trivial
  have hreading : opsAt devicesKey (readingWrites device data source) = [] := by
    simp [readingWrites, opsAt_cons]
  have hfound : ∀ n written, opsAt devicesKey written =
      opsAt devicesKey (registrationWrites platform device ip port 0) →
      truthy ((Operation.sismember device).reply platform.order n
        (applyAll (opsAt devicesKey written) (empty devicesKey))) = true := by
    intro n written hwritten
    rw [devices_loop platform ip port hwritten]
    simp [Operation.reply, truthy]
  obtain ⟨_, h₀⟩ := trace_registration platform device ip port 0 hping
    (loopReplies device data)
  -- The reading is stored.
  have h₁ := h₀.event (.udpMessage msg address source) 0 5
    (List.replicate 5 .ignored) (readingWrites device data source) rfl
    (fun _ => by simp [onEvent, finish, UDP.message, haccept, silent])
    (by simp [eventWrites, haccept, readingWrites]) hignored
    (fun _ _ _ hstarts => by cases hstarts)
  have h₂ := h₁.finish (n := 5) rfl (fun callback hmem => List.eq_of_mem_replicate hmem) 0
  -- The device is connected to itself.
  have h₃ := h₂.event (.connect device device none) 0 1
    [.connectFrom device device none] [] rfl (fun _ => ⟨rfl, rfl⟩) rfl hignored (by
      intro command callback ordinal hstarts
      cases hstarts with
      | connect => exact hfound ordinal _ (by simp [opsAt_append, hreading]))
  obtain ⟨_, _, _, _, h₄⟩ := h₃.deliver 0 1
    [.connectTo device device none] [] rfl (by
      intro ordinal reply memory hreply
      have htruthy : truthy reply = true := hreply
      simp [onReply, finish, ConnectController.sismemberFrom, htruthy, replyWrites, registered,
        rewritten, linked, recorded, counted]) hignored (by
      intro askedAt reply command asked ordinal _ hfollows
      cases hfollows with
      | connectTo htruthy => exact hfound ordinal _ (by simp [opsAt_append, hreading]))
  obtain ⟨_, _, _, _, h₅⟩ := h₄.deliver 0 1
    [.connectSadd device device none] ([⟨connectionKey device, .sadd device⟩]) rfl (by
      intro ordinal reply memory hreply
      have htruthy : truthy reply = true := hreply
      simp [onReply, finish, ConnectController.sismemberTo, htruthy, replyWrites, registered,
        rewritten, linked, recorded, counted]) hignored (by
      intro askedAt reply command asked ordinal _ hfollows
      cases hfollows with
      | connectSadd htruthy => trivial)
  obtain ⟨_, _, _, _, h₆⟩ := h₅.deliver 0 0 [] [] rfl
    (fun _ _ _ _ => ⟨rfl, rfl, rfl⟩) hignored (fun _ _ _ _ _ _ hfollows => by cases hfollows)
  simp only [List.append_nil] at h₆
  exact ⟨_, h₆⟩

theorem trace_loop : ∃ s, Trace platform empty (loopReplies device data)
    (loopSchedule device ip port value msg address source) s [.forwardLindex device [device]]
    (loopWrites platform device data ip port source) := by
  have hignored : ∀ reply, loopReplies device data .ignored reply := fun _ => trivial
  have hreading : opsAt devicesKey (readingWrites device data source) = [] := by
    simp [readingWrites, opsAt_cons]
  have hlist : ∀ n written, opsAt devicesKey written =
      opsAt devicesKey (registrationWrites platform device ip port 0) →
      Operation.smembers.reply platform.order n
        (applyAll (opsAt devicesKey written) (empty devicesKey)) = .members [device] := by
    intro n written hwritten
    rw [devices_loop platform ip port hwritten]
    simp [Operation.reply, enumerate_singleton]
  obtain ⟨_, h₆⟩ := trace_linked platform ip port hping haccept address source
  rw [loopWrites] at h₆
  -- The tick finds the device, its connection and its reading.
  have h₇ := h₆.event .forwardTick 0 1 [.forwardSmembers]
    [] rfl (fun _ => ⟨rfl, rfl⟩) rfl hignored (by
      intro command callback ordinal hstarts
      cases hstarts with
      | forwardTick =>
          exact hlist ordinal _ (by simp [opsAt_append, hreading, opsAt_cons]))
  obtain ⟨_, _, _, _, h₈⟩ := h₇.deliver 0 1 [.forwardConnected device]
    [] rfl (by
      intro ordinal reply memory hreply
      have hmembers : reply = .members [device] := hreply
      subst hmembers
      exact ⟨rfl, rfl, rfl⟩) hignored (by
      intro askedAt reply command asked ordinal hreply hfollows
      cases hfollows with
      | forwardConnected hmem =>
          have hdevices := Reply.members.inj hreply
          subst hdevices
          have hname := List.mem_singleton.mp hmem
          subst hname
          have hconnection := connection_loop platform data hplain ip port source
          simp only [loopWrites] at hconnection
          simp only [List.append_nil, loopReplies, empty, hconnection, Operation.reply,
            enumerate_singleton])
  obtain ⟨_, _, _, _, h₉⟩ := h₈.deliver 0 1
    [.forwardLindex device [device]] [] rfl (by
      intro ordinal reply memory hreply
      have hmembers : reply = .members [device] := hreply
      subst hmembers
      exact ⟨rfl, rfl, rfl⟩) hignored (by
      intro askedAt reply command asked ordinal hreply hfollows
      cases hfollows with
      | forwardLindex hsome =>
          have hdata := data_loop platform data hplain ip port source
          simp only [loopWrites] at hdata
          simp only [List.append_nil, loopReplies, empty, hdata, Operation.reply]
          rfl)
  unfold loopSchedule loopWrites
  simp only [List.append_nil, List.nil_append] at h₉
  exact ⟨_, h₉⟩

omit hplain hping haccept

/-- The reading is known: the record and the table of the receiver are read next. -/
theorem run_to_lookup {s : State} {n : Nat} {record : Hash} (hempty : s.outbox = [])
    (hthrown : s.thrown = false)
    (hinbox : s.inbox = [⟨n, .bulk (some data), .forwardLindex device [device]⟩])
    (hrecord : s.store (recordKey device) = some (.hash record))
    (hactive : record "active" = some "true") :
    (server platform).run s (replyRound 0 1 ++ [.deliver 0]) =
      { s with
        outbox := [(⟨tableKey device, .hget (Script.text (Script.number data))⟩,
          .forwardHget device [device] (.bulk (some data)) n record s.executed)]
        inbox := []
        executed := s.executed + 1 } := by
  obtain ⟨store, outbox, inbox, executed, memory, outputs, history, thrown⟩ := s
  simp only at hempty hthrown hinbox hrecord
  subst hempty hthrown hinbox
  have hjoined : UDP.joined [device] = device := rfl
  simp [replyRound, Pipeline.Client.step, Pipeline.Client.answer, Pipeline.State.perform, server,
    onReply, finish, UDP.forwardLindex, execute, hjoined, hrecord, Operation.update,
    Operation.reply, UDP.forwardHgetall, hactive, UDP.readingNumber]

/-- The lookup is executed and the datagram is sent. -/
theorem run_to_datagram {s : State} {n m : Nat} {record entries : Hash} {newValue : String}
    {port : Nat} (hthrown : s.thrown = false) (hinbox : s.inbox = [])
    (houtbox : s.outbox = [(⟨tableKey device, .hget (Script.text (Script.number data))⟩,
      .forwardHget device [device] (.bulk (some data)) n record m)])
    (htable : s.store (tableKey device) = some (.hash entries))
    (hentry : entries (Script.text (Script.number data)) = some newValue)
    (hport : UDP.sendPort (record "udp_port") = some port) :
    ((server platform).run s [.execute, .deliver 0]).outputs = s.outputs ++
      [.datagram ⟨device, device, newValue, port, record "ip", .bulk (some data), n, m⟩] := by
  obtain ⟨store, outbox, inbox, executed, memory, outputs, history, thrown⟩ := s
  simp only at houtbox hthrown hinbox htable
  subst houtbox hthrown hinbox
  have hjoined : UDP.joined [device] = device := rfl
  simp [Pipeline.Client.step, Pipeline.Client.answer, Pipeline.State.perform, server, onReply,
    finish, execute, htable, Operation.reply, UDP.forwardHget, hentry, hport, hjoined]

include hplain hping haccept

/-- The schedule reaches the lookup in the table of the device. -/
theorem exists_lookup : ∃ s n m record, (server platform).run (boot empty)
      (loopSchedule device ip port value msg address source ++ (replyRound 0 1 ++ [.deliver 0])) =
        s ∧
    s.thrown = false ∧ s.inbox = [] ∧
    s.outbox = [(⟨tableKey device, .hget (Script.text (Script.number data))⟩,
      .forwardHget device [device] (.bulk (some data)) n record m)] ∧
    s.store (tableKey device) = some (.hash (table platform.curves .linear)) ∧
    record "ip" = some ip ∧ record "udp_port" = some source.repr := by
  obtain ⟨s, htrace⟩ := trace_loop platform hplain ip port hping haccept address source
  obtain ⟨a, rest, hinbox, hcallback, hrest⟩ := List.map_eq_cons_iff.mp htrace.callbacks
  rw [List.map_eq_nil_iff] at hrest
  subst hrest
  obtain ⟨record, hrecord, hactive, hip, hport⟩ :=
    record_loop platform data hplain ip port source
  have hreply : a.reply = .bulk (some data) := by
    have hexpected := htrace.expected a (hinbox ▸ List.mem_cons_self)
    rw [hcallback] at hexpected
    exact hexpected
  have hanswer : s.inbox = [⟨a.ordinal, .bulk (some data), .forwardLindex device [device]⟩] := by
    rw [hinbox, ← hreply, ← hcallback]
  have hrun := run_to_lookup platform htrace.outbox htrace.thrown hanswer
    ((htrace.store _).trans hrecord) hactive
  refine ⟨_, a.ordinal, s.executed, record, rfl, ?_⟩
  rw [Pipeline.Client.run_append, htrace.run, hrun]
  refine ⟨htrace.thrown, rfl, rfl, ?_, hip, hport⟩
  exact (htrace.store _).trans (table_loop platform data hplain ip port source)

/-- The whole way of the reading: its value in the linear table goes to the address
of the PING and the port of the datagram. -/
theorem exists_datagram {i : Nat} (hnumber : Script.number data = .nat i) (hlt : i < 1024)
    (hsource : 0 < source ∧ source < 65536) : ∃ n m, Output.datagram ⟨device, device, i.repr,
      source, some ip, .bulk (some data), n, m⟩ ∈ ((server platform).run (boot empty)
        (loopSchedule device ip port value msg address source ++
          (replyRound 0 1 ++ [.deliver 0]) ++ [.execute, .deliver 0])).outputs := by
  obtain ⟨s, n, m, record, hrun, hthrown, hinbox, houtbox, htable, hip, hport⟩ :=
    exists_lookup platform hplain ip port hping haccept address source
  have hentry : table platform.curves .linear (Script.text (Script.number data)) =
      some i.repr := by
    rw [hnumber, (Script.text_eq_repr hlt).mpr rfl, table_repr _ _ _ hlt,
      value_linear _ _ (by omega)]
    rfl
  have hsend : UDP.sendPort (record "udp_port") = some source := by
    simp [hport, UDP.sendPort, Decimal.natValue_toDigits, hsource, Option.filter]
  refine ⟨n, m, ?_⟩
  rw [Pipeline.Client.run_append, hrun,
    run_to_datagram platform hthrown hinbox houtbox htable hentry hsend, hip]
  exact List.mem_append_right _ List.mem_cons_self

end Loop

/-! ## From rest to rest -/

/-- The record of an active device with an address and a port. -/
def Reachable (ip : String) (source : Nat) (record : Hash) : Prop :=
  record "active" = some "true" ∧ record "ip" = some ip ∧ record "udp_port" = some source.repr

/-- A device is connected to itself, and nothing is outstanding. -/
structure Resting (device ip : String) (source : Nat) (readings : List String) (s : State) :
    Prop where
  outbox : s.outbox = []
  inbox : s.inbox = []
  thrown : s.thrown = false
  devices : s.store devicesKey = some (.set {device})
  connection : s.store (connectionKey device) = some (.set {device})
  data : s.store (dataKey device) = some (.list readings)
  table : s.store (tableKey device) = some (.hash (table platform.curves .linear))
  record : ∃ record, s.store (recordKey device) = some (.hash record) ∧
    Reachable ip source record

/-- A tick of the forwarder with everything it leads to for one device. -/
def tickRound : List Action :=
  eventRound .forwardTick 0 1 ++ (List.replicate 4 (replyRound 0 1)).flatten ++ replyRound 0 2 ++
    List.replicate 2 (.deliver 0)

/-- A datagram with everything it leads to. -/
def readingRound (msg : List UInt8) (address : String) (source : Nat) : List Action :=
  eventRound (.udpMessage msg address source) 0 5 ++ List.replicate 5 (.deliver 0)

section Resting

variable {platform}
variable {device ip : String} {source : Nat} {readings : List String} {s : State}

/-- What is written leaves the device connected. -/
theorem Resting.write {written : List Command} {later : List String} {t : State}
    (hresting : Resting platform device ip source readings s)
    (hquiet : t.outbox = [] ∧ t.inbox = [] ∧ t.thrown = false)
    (hstore : ∀ key, t.store key = applyAll (opsAt key written) (s.store key))
    (hkept : opsAt devicesKey written = [] ∧ opsAt (connectionKey device) written = [] ∧
      opsAt (tableKey device) written = [])
    (hdata : applyAll (opsAt (dataKey device) written) (some (.list readings)) =
      some (.list later))
    (hrecord : ∀ record, Reachable ip source record → ∃ record',
      applyAll (opsAt (recordKey device) written) (some (.hash record)) = some (.hash record') ∧
        Reachable ip source record') :
    Resting platform device ip source later t := by
  obtain ⟨record, hheld, hreachable⟩ := hresting.record
  constructor
  · exact hquiet.1
  · exact hquiet.2.1
  · exact hquiet.2.2
  · rw [hstore, hkept.1, hresting.devices, applyAll_nil]
  · rw [hstore, hkept.2.1, hresting.connection, applyAll_nil]
  · rw [hstore, hresting.data, hdata]
  · rw [hstore, hkept.2.2, hresting.table, applyAll_nil]
  · obtain ⟨record', happly, hreachable'⟩ := hrecord record hreachable
    exact ⟨record', by rw [hstore, hheld, happly], hreachable'⟩

/-- A tick asks for the value of the newest reading. -/
theorem Resting.lookup {data : String} {older : List String}
    (hresting : Resting platform device ip source (data :: older) s) {record : Hash}
    (hrecord : s.store (recordKey device) = some (.hash record))
    (hactive : record "active" = some "true") : ∃ t n readAt recordAt,
    (server platform).run s
        (eventRound .forwardTick 0 1 ++ (List.replicate 4 (replyRound 0 1)).flatten) = t ∧
      t.outbox = [] ∧ t.thrown = false ∧ t.store = s.store ∧ t.outputs = s.outputs ∧
      t.inbox = [⟨n, (Operation.hget (Script.text (Script.number data))).reply platform.order n
        (s.store (tableKey device)),
        .forwardHget device [device] (.bulk (some data)) readAt record recordAt⟩] := by
  have hjoined : UDP.joined [device] = device := rfl
  obtain ⟨hempty, hinbox, hthrown, hdevices, hconnection, hdata, -, -⟩ := hresting
  obtain ⟨store, outbox, inbox, executed, memory, outputs, history, thrown⟩ := s
  simp only at hempty hinbox hthrown hdevices hconnection hdata hrecord
  subst hempty hinbox hthrown
  refine ⟨_, executed + 4, executed + 2, executed + 3, rfl, ?_⟩
  simp [eventRound, replyRound, List.replicate_succ, Pipeline.Client.step, Pipeline.Client.occur,
    Pipeline.State.record, Pipeline.Client.answer, Pipeline.State.perform, server, onEvent,
    onReply, finish, UDP.forwardSmembers, UDP.forwardConnected, UDP.forwardLindex,
    UDP.forwardHgetall, UDP.readingNumber, @execute_read platform.order .smembers rfl,
    @execute_read platform.order (.lindex 0) rfl, @execute_read platform.order .hgetall rfl,
    @execute_read platform.order (.hget _) rfl, hjoined, hdevices, hconnection, hdata, hrecord,
    hactive, enumerate_singleton, Operation.reply]

/-- Replies that nobody waits for, as many as there are. -/
theorem run_silent {t : State} {n : Nat} (hempty : t.outbox = []) (hthrown : t.thrown = false)
    (hwaiting : t.inbox.map Pipeline.Answer.callback = List.replicate n .ignored) (now : Nat) :
    (server platform).run t (List.replicate n (.deliver now)) = { t with inbox := [] } := by
  have hlength : n = t.inbox.length := by
    rw [← t.inbox.length_map Pipeline.Answer.callback, hwaiting, List.length_replicate]
  rw [hlength]
  apply run_ignored platform t now hempty hthrown
  intro a hmem
  have hcallback := List.mem_map_of_mem (f := Pipeline.Answer.callback) hmem
  rw [hwaiting] at hcallback
  exact List.eq_of_mem_replicate hcallback

/-- The only outstanding reply, whose turn sends commands that nobody waits for. -/
theorem settle_reply {t : State} {a : Pipeline.Answer Reply Callback} (hempty : t.outbox = [])
    (hthrown : t.thrown = false) (hinbox : t.inbox = [a]) (now : Nat) {n : Nat}
    (hturn : (onReply platform a.callback a.ordinal a.reply now t.memory).sends.map Prod.snd =
      List.replicate n .ignored)
    (hsafe : (onReply platform a.callback a.ordinal a.reply now t.memory).thrown = false) :
    ∃ u, (server platform).run t (replyRound now n ++ List.replicate n (.deliver now)) = u ∧
      (u.outbox = [] ∧ u.inbox = [] ∧ u.thrown = false) ∧
      (∀ key, u.store key =
        applyAll (opsAt key (replyWrites platform.curves a.callback a.reply now)) (t.store key)) ∧
      u.outputs = t.outputs ++
        (onReply platform a.callback a.ordinal a.reply now t.memory).outputs := by
  have hlength : (onReply platform a.callback a.ordinal a.reply now t.memory).sends.length = n := by
    rw [← List.length_map, hturn, List.length_replicate]
  have hcallbacks := @callbacks_delivered platform t a [] now hempty
  rw [List.map_nil, List.nil_append, hturn] at hcallbacks
  have hdeliver := (server platform).run_deliver_executes hempty hthrown hinbox now
  refine ⟨{ delivered platform t a [] now with inbox := [] }, ?_, ⟨rfl, rfl, hsafe⟩, ?_, ?_⟩
  · rw [Pipeline.Client.run_append, ← @run_silent platform (delivered platform t a [] now) n rfl
      hsafe hcallbacks now]
    exact congrArg (fun u => (server platform).run u _) (hlength ▸ hdeliver)
  · intro key
    exact (congrFun (delivered_store platform hempty) key).trans (replyStore_apply platform ..)
  · exact congrArg Pipeline.State.outputs (delivered_eq platform hempty)

/-- The newest reading is forwarded as it is, and everything comes to rest again. -/
theorem Resting.tick {data : String} {older : List String}
    (hresting : Resting platform device ip source (data :: older) s) {i : Nat}
    (hnumber : Script.number data = .nat i) (hlt : i < 1024)
    (hsource : 0 < source ∧ source < 65536) :
    Resting platform device ip source (data :: older) ((server platform).run s tickRound) ∧
      ∃ readAt recordAt, ((server platform).run s tickRound).outputs = s.outputs ++
        [.datagram ⟨device, device, i.repr, source, some ip, .bulk (some data), readAt,
          recordAt⟩] := by
  obtain ⟨record, hheld, hactive, hip, hport⟩ := hresting.record
  have hentry : FunctionsService.table platform.curves .linear (Script.text (Script.number data)) =
      some i.repr := by
    rw [hnumber, (Script.text_eq_repr hlt).mpr rfl, FunctionsService.table_repr _ _ _ hlt,
      FunctionsService.value_linear _ _ (by omega)]
    rfl
  have hsend : UDP.sendPort (record "udp_port") = some source := by
    simp [hport, UDP.sendPort, Decimal.natValue_toDigits, hsource, Option.filter]
  obtain ⟨t, n, readAt, recordAt, hrun, hempty, hthrown, hstore, houtputs, hinbox⟩ :=
    hresting.lookup hheld hactive
  have hreply : (Operation.hget (Script.text (Script.number data))).reply platform.order n
      (s.store (tableKey device)) = .bulk (some i.repr) := by
    rw [hresting.table]
    exact congrArg Reply.bulk hentry
  rw [hreply] at hinbox
  have hjoined : UDP.joined [device] = device := rfl
  obtain ⟨u, hsettle, hquiet, hwritten, hsent⟩ := @settle_reply platform t _ hempty
    hthrown hinbox 0 2 (by simp [onReply, finish, UDP.forwardHget, hsend, silent])
    (by simp [onReply, finish, UDP.forwardHget, hsend])
  have hround : (server platform).run s tickRound = u := by
    rw [tickRound, List.append_assoc, Pipeline.Client.run_append, hrun, hsettle]
  rw [hround]
  have hwrites : replyWrites platform.curves
      (.forwardHget device [device] (.bulk (some data)) readAt record recordAt)
      (.bulk (some i.repr)) 0 =
        [⟨recordKey device, .hincrby "msg_count" 1⟩, ⟨msgCountKey, .incr⟩] := by
    simp [replyWrites, registered, rewritten, linked, recorded, counted, hsend]
  rw [hwrites] at hwritten
  refine ⟨hresting.write hquiet (fun key => hstore ▸ hwritten key) ?_ ?_ ?_, readAt, recordAt, ?_⟩
  · simp [opsAt_cons, recordKey_ne_connectionKey, recordKey_ne_tableKey_self,
      (connectionKey_ne_msgCountKey device).symm, (tableKey_ne_msgCountKey device).symm]
  · simp [opsAt_cons, recordKey_ne_dataKey_self, (dataKey_ne_msgCountKey device).symm]
  · rintro other ⟨hactive, hip, hport⟩
    refine ⟨other.increment "msg_count" 1, ?_, ?_⟩
    · simp [opsAt_cons, (recordKey_ne_msgCountKey device).symm, ← update_hincrby]
    · refine ⟨?_, ?_, ?_⟩ <;> rwa [Hash.increment_of_ne _ _ (by decide)]
  · rw [hsent, houtputs]
    simp [onReply, finish, UDP.forwardHget, hsend, hjoined, hip]

/-- A reading of the device is the newest one from then on, and one of another device changes
nothing here. -/
theorem Resting.reading (hresting : Resting platform device ip source readings s)
    (hplain : Plain device) {other data : String} (hother : Plain other) {msg : List UInt8}
    (haccept : UDP.accept msg = some (other, data)) (hlength : readings.length < 1000) :
    Resting platform device ip source (if other = device then data :: readings else readings)
        ((server platform).run s (readingRound msg ip source)) ∧
      ((server platform).run s (readingRound msg ip source)).outputs = s.outputs := by
  have hsends : (onEvent platform (.udpMessage msg ip source) 0 s.memory).sends.map Prod.snd =
      List.replicate 5 .ignored := by
    simp [onEvent, finish, UDP.message, haccept, silent]
  have hlater : (occurred platform s (.udpMessage msg ip source) 0).inbox.map
      Pipeline.Answer.callback = List.replicate 5 .ignored := by
    rw [callbacks_occurred platform hresting.outbox, hresting.inbox, hsends, List.map_nil,
      List.nil_append]
  have hround : (server platform).run s (readingRound msg ip source) =
      { occurred platform s (.udpMessage msg ip source) 0 with inbox := [] } := by
    have hlength : (onEvent platform (.udpMessage msg ip source) 0 s.memory).sends.length = 5 := by
      rw [← List.length_map, hsends, List.length_replicate]
    have hevent := (server platform).run_event_executes hresting.outbox hresting.thrown
      (.udpMessage msg ip source) 0
    rw [readingRound, Pipeline.Client.run_append,
      ← @run_silent platform (occurred platform s (.udpMessage msg ip source) 0) 5 rfl rfl hlater 0]
    exact congrArg (fun u => (server platform).run u _) (hlength ▸ hevent)
  rw [hround]
  constructor
  · refine @Resting.write platform device ip source readings s (readingWrites other data source)
      _ _ hresting ⟨rfl, rfl, rfl⟩ ?_ ?_ ?_ ?_
    · intro key
      change (occurred platform s (.udpMessage msg ip source) 0).store key = _
      rw [occurred_store platform hresting.outbox, eventStore_apply]
      simp [eventWrites, haccept, readingWrites]
    · simp [readingWrites, opsAt_cons, recordKey_ne_connectionKey,
        (connectionKey_ne_dataKey _ hother).symm, recordKey_ne_tableKey _ hplain,
        (connectionKey_ne_msgCountKey device).symm, (tableKey_ne_msgCountKey device).symm]
    · by_cases hsame : other = device
      · subst hsame
        simp [readingWrites, opsAt_cons, (dataKey_ne_msgCountKey other).symm,
          recordKey_ne_dataKey_self, Operation.update, slice]
        omega
      · simp [readingWrites, opsAt_cons, hsame, (dataKey_ne_msgCountKey device).symm,
          recordKey_ne_dataKey _ hplain]
    · rintro record ⟨hactive, hip, hport⟩
      by_cases hsame : other = device
      · subst hsame
        refine ⟨(record.setAll [("last_ping", Nat.repr 0), ("udp_port", source.repr)]).increment
          "msg_count" 1, ?_, ?_⟩
        · simp only [readingWrites, opsAt_cons, opsAt_nil, (recordKey_ne_msgCountKey other).symm,
            (recordKey_ne_dataKey_self other).symm, if_true, if_false, applyAll_cons, applyAll_nil,
            ← update_hincrby]
          rfl
        · refine ⟨?_, ?_, ?_⟩ <;> rw [Hash.increment_of_ne _ _ (by decide)] <;>
            simp [hactive, hip]
      · refine ⟨record, ?_, hactive, hip, hport⟩
        simp [readingWrites, opsAt_cons, (recordKey_ne_msgCountKey device).symm,
          (recordKey_ne_dataKey device hother).symm, hsame]
  · change (occurred platform s (.udpMessage msg ip source) 0).outputs = _
    rw [occurred_eq platform hresting.outbox]
    simp [onEvent, finish, UDP.message]

/-- The beginning of the schedule above, up to the connection. -/
@[irreducible]
def linkSchedule (device ip : String) (port : Nat) (value : Resp.Value String)
    (msg : List UInt8) (address : String) (source : Nat) : List Action :=
  (.event (.tcpData ip port [value]) 0 :: rounds 1030) ++
    eventRound (.udpMessage msg address source) 0 5 ++ List.replicate 5 (.deliver 0) ++
    eventRound (.connect device device none) 0 1 ++ replyRound 0 1 ++ replyRound 0 1 ++
    replyRound 0 0

theorem resting_linked (hplain : Plain device) (ip : String) (port : Nat)
    {value : Resp.Value String} (hping : IsPingOf platform value device) {msg : List UInt8}
    {data : String} (haccept : UDP.accept msg = some (device, data)) (address : String)
    (source : Nat) :
    Resting platform device ip source [data] ((server platform).run (boot empty)
      (linkSchedule device ip port value msg address source)) := by
  unfold linkSchedule
  obtain ⟨s, htrace⟩ := trace_linked platform ip port hping haccept address source
  rw [htrace.run]
  constructor
  · exact htrace.outbox
  · exact List.map_eq_nil_iff.mp htrace.callbacks
  · exact htrace.thrown
  · rw [htrace.store]
    apply devices_loop platform ip port
    simp [loopWrites, opsAt_append, readingWrites, opsAt_cons]
  · exact (htrace.store _).trans (connection_loop platform data hplain ip port source)
  · exact (htrace.store _).trans (data_loop platform data hplain ip port source)
  · exact (htrace.store _).trans (table_loop platform data hplain ip port source)
  · rw [htrace.store]
    exact record_loop platform data hplain ip port source

end Resting

/-! ## A sample -/

/-- The datagram of a device called adc00000001 with the reading 512. -/
def sampleReading : List UInt8 :=
  Utf8.ascii "*2\r\n$11\r\nadc00000001\r\n$4\r\n0512\r\n".toList

set_option maxRecDepth 20000 in
theorem accept_sampleReading : UDP.accept sampleReading = some ("adc00000001", "0512") := by
  decide

/-- Another reading of the same device. -/
def secondReading : List UInt8 :=
  Utf8.ascii "*2\r\n$11\r\nadc00000001\r\n$4\r\n0256\r\n".toList

/-- A reading of another device. -/
def foreignReading : List UInt8 :=
  Utf8.ascii "*2\r\n$11\r\nadc00000002\r\n$4\r\n0007\r\n".toList

set_option maxRecDepth 20000 in
theorem accept_secondReading : UDP.accept secondReading = some ("adc00000001", "0256") := by
  decide

set_option maxRecDepth 20000 in
theorem accept_foreignReading : UDP.accept foreignReading = some ("adc00000002", "0007") := by
  decide

/-- The events of the schedule. -/
theorem mem_loopSchedule {device ip : String} {port : Nat} {value : Resp.Value String}
    {msg : List UInt8} {address : String} {source : Nat} {later : List Action}
    (hlater : Pipeline.Client.EventFree later) {event : Event} {now : Nat}
    (hmem : .event event now ∈ loopSchedule device ip port value msg address source ++ later) :
    event = .tcpData ip port [value] ∨ event = .udpMessage msg address source ∨
      event = .connect device device none ∨ event = .forwardTick := by
  unfold loopSchedule eventRound replyRound at hmem
  simp only [List.mem_append, List.mem_cons, List.mem_replicate, reduceCtorEq, and_false,
    or_false, Pipeline.Action.event.injEq, hlater event now,
    eventFree_rounds 1030 event now] at hmem
  rcases hmem with (((⟨heq, _⟩ | ⟨heq, _⟩) | ⟨heq, _⟩) | ⟨heq, _⟩)
  · exact Or.inl heq
  · exact Or.inr (Or.inl heq)
  · exact Or.inr (Or.inr (Or.inl heq))
  · exact Or.inr (Or.inr (Or.inr heq))

theorem plainSchedule_loopSchedule (ip : String) (port : Nat) (address : String) (source : Nat)
    {later : List Action} (hlater : Pipeline.Client.EventFree later) :
    PlainSchedule referencePlatform
      (loopSchedule "adc00000001" ip port samplePing sampleReading address source ++ later) := by
  intro event now hmem
  rcases mem_loopSchedule hlater hmem with rfl | rfl | rfl | rfl
  · intro value hvalue _
    rw [List.mem_singleton.mp hvalue, isPingOf_samplePing.2]
    decide
  · intro reading haccept
    rw [accept_sampleReading, Option.some.injEq] at haccept
    rw [← haccept]
    decide
  · trivial
  · trivial

/-- The last turns of the schedule, in which the datagram is sent. -/
def lastTurns : List Action := (replyRound 0 1 ++ [.deliver 0]) ++ [.execute, .deliver 0]

theorem eventFree_lastTurns : Pipeline.Client.EventFree lastTurns := by
  intro event now hmem
  simp [lastTurns, replyRound] at hmem

/-- The reading of the sample is forwarded as it is, since the table is linear. -/
theorem exists_sampleDatagram (ip address : String) : ∃ n m,
    (⟨"adc00000001", "adc00000001", Nat.repr 512, 4001, some ip, .bulk (some "0512"), n, m⟩ :
      Datagram) ∈ datagrams ((server referencePlatform).run (boot empty)
        (loopSchedule "adc00000001" ip 4000 samplePing sampleReading address 4001 ++
          lastTurns)).outputs := by
  obtain ⟨n, m, hmem⟩ := exists_datagram referencePlatform (by decide) ip 4000
    isPingOf_samplePing accept_sampleReading address 4001
    (show Script.number "0512" = .nat 512 by decide) (by decide) (by decide)
  rw [List.append_assoc] at hmem
  exact ⟨n, m, List.mem_filterMap.mpr ⟨_, hmem, rfl⟩⟩

end RealTimeWs
