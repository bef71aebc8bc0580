import RealTimeWs.Pipeline.Observation
import RealTimeWs.Server.Arrivals
import RealTimeWs.Server.Delivery
import RealTimeWs.Server.Intervals

/-! # The window of readings

A datagram is pushed to the list of its device and the list is trimmed, with two
commands of one turn. The forwarder and the WebSocket hook read the same lists over
the same connection. Between the two commands a list may be one element too long,
but no other command is ever executed there.
-/

namespace RealTimeWs

open Redis

variable (platform : Platform)

/-- All hooks of the process, over the one connection. -/
def process : Pipeline.Client Store Command Reply (Callback ⊕ Websocket.Callback)
    (Event ⊕ Websocket.Event) Nat (Output ⊕ Websocket.Output) (Memory × Websocket.Memory) :=
  (server platform).par (Websocket.hook platform.order)

/-- A state of the whole process. -/
abbrev ProcessState := Pipeline.State Store Command Reply (Callback ⊕ Websocket.Callback)
  (Event ⊕ Websocket.Event) (Output ⊕ Websocket.Output) (Memory × Websocket.Memory)

/-- A step of the whole process. -/
abbrev ProcessAction := Pipeline.Action (Event ⊕ Websocket.Event) Nat

/-- The process as it starts with an empty database. -/
def launch : ProcessState := .start empty (fun _ => none, ⟨0, ∅, []⟩)

/-- The events of the server in a history of the process. -/
def serverEvents (history : List (Nat × (Event ⊕ Websocket.Event))) : List (Nat × Event) :=
  history.filterMap fun entry => entry.2.getLeft?.map fun event => (entry.1, event)

/-- The newest of some readings, the newest first. -/
def newest (limit : Nat) (readings : List Arrival) : List String :=
  (readings.reverse.take limit).map Arrival.data

/-- How a list is stored: an empty one is no value at all. -/
def listValue (elements : List String) : Option Value :=
  if elements = [] then none else some (.list elements)

/-- A read of the readings of a device finds the newest ones of its time. -/
def ReadsWindow (device : String) {Callbacks : Type}
    (history : List (Nat × (Event ⊕ Websocket.Event))) (n : Nat) (store : Store)
    (entry : Command × Callbacks) : Prop :=
  entry.1.key = dataKey device → entry.1.op.isRead = true →
    store (dataKey device) = listValue (newest 1000 (arrivedBy device (serverEvents history) n))

/-! ## Pushing and trimming -/

theorem newest_concat (limit : Nat) (readings : List Arrival) (reading : Arrival) :
    newest (limit + 1) (readings ++ [reading]) = reading.data :: newest limit readings := by
  simp [newest]

theorem newest_take (readings : List Arrival) :
    (newest 1000 readings).take 999 = newest 999 readings := by
  simp [newest, ← List.map_take, List.take_take]

theorem update_lpush (elements : List String) (element : String) :
    (Operation.lpush element).update (listValue elements) = listValue (element :: elements) := by
  cases elements <;> rfl

theorem update_ltrim (stop : Nat) (elements : List String) :
    (Operation.ltrim 0 stop).update (listValue elements) =
      listValue (elements.take (stop + 1)) := by
  cases elements with
  | nil => rfl
  | cons first rest => simp [listValue, Operation.update, slice]

/-- Push and trim keep the newest readings. -/
theorem applyAll_push (readings : List Arrival) (reading : Arrival) :
    applyAll [.lpush reading.data, .ltrim 0 999] (listValue (newest 1000 readings)) =
      listValue (newest 1000 (readings ++ [reading])) := by
  rw [applyAll_cons, applyAll_cons, applyAll_nil, update_lpush, update_ltrim, newest_concat,
    List.take_succ_cons, newest_take]

/-! ## Turns of the process -/

theorem writes_lift {Callbacks : Type} (sends : List (Command × Callbacks))
    {Others : Type} (callback : Callbacks → Others) :
    writes (sends.map fun entry => (entry.1, callback entry.2)) = writes sends := by
  simp [writes, Function.comp_def]

/-- What the hook sends leaves the readings alone. -/
theorem opsAt_data_hook_event (device : String) (event : Websocket.Event)
    (memory : Websocket.Memory) :
    opsAt (dataKey device) (writes (Websocket.onEvent event () memory).sends) = [] := by
  cases event with
  | connection => rfl
  | disconnect socket => rfl
  | register name =>
      simp [Websocket.onEvent, writes_cons, Operation.isRead, opsAt_cons,
        (dataKey_ne_devicesKey device).symm]
  | interval task =>
      rw [writes_of_isRead]
      · rfl
      · intro entry hmem
        simp only [Websocket.onEvent] at hmem
        split at hmem
        · exact (task.reads hmem).1
        · cases hmem

theorem sends_hook_reply (callback : Websocket.Callback) (n : Nat) (reply : Reply)
    (memory : Websocket.Memory) : (Websocket.onReply callback n reply () memory).sends = [] := by
  cases callback <;> cases reply <;> rfl

section Batch

variable {Callbacks Events Outputs Memories : Type}
variable (client : Pipeline.Client Store Command Reply Callbacks Events Nat Outputs Memories)

/-- A batch without writes to a key finds its value as it was. -/
theorem observes_of_untouched (hexecute : client.execute = execute platform.order) (key : String)
    (right : Nat → Option Value → Prop) (n : Nat) (store : Store)
    (batch : List (Command × Callbacks)) (huntouched : opsAt key (writes batch) = [])
    (hright : ∀ m, n ≤ m → right m (store key)) :
    client.Observes (fun m store entry => entry.1.key = key → entry.1.op.isRead = true →
      right m (store key)) n store batch := by
  induction batch generalizing n store with
  | nil => trivial
  | cons entry rest ih =>
      obtain ⟨command, callback⟩ := entry
      have hkey : command.key = key → command.op.isRead = true := by
        intro heq
        by_contra hwrite
        rw [writes_cons, if_neg hwrite, opsAt_cons, if_pos heq] at huntouched
        cases huntouched
      have hrest : opsAt key (writes rest) = [] := by
        rw [writes_cons] at huntouched
        split at huntouched
        · exact huntouched
        · next hwrite =>
            rw [opsAt_cons, if_neg fun heq => hwrite (hkey heq)] at huntouched
            exact huntouched
      have hsame : (client.execute n store command).1 key = store key := by
        rw [hexecute]
        by_cases heq : command.key = key
        · rw [execute_of_isRead _ n store (hkey heq)]
        · exact execute_of_ne _ _ _ _ _ (Ne.symm heq)
      refine ⟨fun _ _ => hright n le_rfl, ih (n + 1) _ hrest ?_⟩
      intro m hle
      rw [hsame]
      exact hright m (by omega)

end Batch

/-! ## The readings of a history -/

variable {device : String}

theorem serverEvents_append (history : List (Nat × (Event ⊕ Websocket.Event)))
    (entry : Nat × (Event ⊕ Websocket.Event)) :
    serverEvents (history ++ [entry]) = serverEvents history ++ serverEvents [entry] :=
  List.filterMap_append

theorem exists_of_mem_serverEvents {history : List (Nat × (Event ⊕ Websocket.Event))}
    {entry : Nat × Event} (hmem : entry ∈ serverEvents history) :
    (entry.1, .inl entry.2) ∈ history := by
  obtain ⟨⟨position, event⟩, hhistory, hentry⟩ := List.mem_filterMap.mp hmem
  cases event with
  | inl event =>
      cases hentry
      exact hhistory
  | inr event => cases hentry

/-- Later events do not change what had arrived. -/
theorem ReadsWindow.append {Callbacks : Type} {history : List (Nat × (Event ⊕ Websocket.Event))}
    {entry : Nat × (Event ⊕ Websocket.Event)} {n : Nat} {store : Store}
    {sent : Command × Callbacks} (hreads : ReadsWindow device history n store sent)
    (hlater : n < entry.1) : ReadsWindow device (history ++ [entry]) n store sent := by
  intro hkey hread
  rw [hreads hkey hread, serverEvents_append]
  obtain ⟨position, event⟩ := entry
  cases event with
  | inl event =>
      have hsame : arrivedBy device (serverEvents history ++ [(position, event)]) n =
          arrivedBy device (serverEvents history) n := arrivedBy_append hlater
      exact congrArg (fun readings => listValue (newest 1000 readings)) hsame.symm
  | inr event => rw [show serverEvents [(position, Sum.inr event)] = [] from rfl, List.append_nil]

/-- The list of a device holds the newest readings that have arrived. -/
structure Windowed (device : String) (s : ProcessState) : Prop where
  ordered : Pipeline.Client.Ordered s
  stored : s.store (dataKey device) =
    listValue (newest 1000 (arrivals device (serverEvents s.history)))

theorem Windowed.reads {s : ProcessState} (hwindowed : Windowed device s) {m : Nat}
    (hle : s.executed ≤ m) : s.store (dataKey device) =
      listValue (newest 1000 (arrivedBy device (serverEvents s.history) m)) := by
  rw [hwindowed.stored, arrivedBy_of_past]
  intro entry hmem
  exact (hwindowed.ordered.past _ (exists_of_mem_serverEvents hmem)).trans hle

/-! ## The window over a run -/

/-- What an event does to the list of a device is what it adds to its readings. -/
theorem applyAll_accepted (event : Event) (position : Nat) (readings : List Arrival) :
    applyAll (opsFor device event.accepted (fun reading => reading.1)
        fun reading => [.lpush reading.2, .ltrim 0 999]) (listValue (newest 1000 readings)) =
      listValue (newest 1000 (readings ++ (event.arrival device position).toList)) := by
  rw [opsFor_accepted event position]
  cases event.arrival device position with
  | none =>
      rw [Option.toList_none, List.append_nil]
      rfl
  | some arrival =>
      rw [Option.toList_some, ← applyAll_push]
      rfl

theorem stored_event (hplain : Plain device) {s : ProcessState} (hempty : s.outbox = [])
    (hwindowed : Windowed device s) (event : Event ⊕ Websocket.Event) (now : Nat) :
    ((process platform).flush ((process platform).occur s event now)).store (dataKey device) =
      listValue (newest 1000 (arrivals device
        (serverEvents (s.history ++ [(s.executed, event)])))) := by
  rw [(process platform).flush_occur_store hempty, storeAfter_apply platform.order _ rfl,
    serverEvents_append, hwindowed.stored]
  cases event with
  | inl event =>
      have hsends : writes ((process platform).onEvent (.inl event) now s.memory).sends =
          eventWrites event now := (writes_lift _ _).trans (writes_onEvent platform event now _)
      rw [hsends, opsAt_data_eventWrites event now hplain, applyAll_accepted event s.executed]
      exact congrArg (fun readings => listValue (newest 1000 readings))
        (arrivals_append_singleton (s.executed, event)).symm
  | inr event =>
      have hsends : opsAt (dataKey device)
          (writes ((process platform).onEvent (.inr event) now s.memory).sends) = [] :=
        (congrArg (opsAt (dataKey device)) (writes_lift _ _)).trans
          (opsAt_data_hook_event device event s.memory.2)
      rw [hsends, show serverEvents [(s.executed, Sum.inr event)] = [] from rfl, List.append_nil]
      rfl

theorem untouched_reply (hplain : Plain device) (callback : Callback ⊕ Websocket.Callback)
    (n : Nat) (reply : Reply) (now : Nat) (memory : Memory × Websocket.Memory) :
    opsAt (dataKey device)
      (writes ((process platform).onReply callback n reply now memory).sends) = [] := by
  cases callback with
  | inl callback =>
      have hsends : writes ((process platform).onReply (.inl callback) n reply now memory).sends =
          replyWrites platform.curves callback reply now :=
        (writes_lift _ _).trans (writes_onReply platform callback n reply now _)
      rw [hsends]
      exact opsAt_data_replyWrites callback reply now platform.curves hplain
  | inr callback =>
      change opsAt (dataKey device) (writes
        ((Websocket.onReply callback n reply () memory.2).sends.map
          fun entry => (entry.1, Sum.inr entry.2))) = []
      rw [sends_hook_reply]
      rfl

theorem preserved_windowed (hplain : Plain device) :
    (process platform).Preserved (fun _ _ => True) (Windowed device) where
  event := by
    intro s event now hempty hthrown _ hwindowed
    constructor
    · exact ((process platform).preserved_ordered fun _ _ => True).event s event now hempty hthrown
        trivial hwindowed.ordered
    · rw [(process platform).flush_occur_history hempty]
      exact stored_event platform hplain hempty hwindowed event now
  deliver := by
    intro s a rest now hempty hthrown hinbox _ hwindowed
    constructor
    · exact ((process platform).preserved_ordered fun _ _ => True).deliver s a rest now hempty
        hthrown hinbox trivial hwindowed.ordered
    · rw [(process platform).flush_answer_store hempty, storeAfter_apply platform.order _ rfl,
        untouched_reply platform hplain]
      exact hwindowed.stored

/-- Only datagrams bring readings. -/
theorem arrivals_other {event : Event} {position : Nat}
    (hother : ∀ msg address port, event ≠ .udpMessage msg address port)
    (history : List (Nat × Event)) :
    arrivals device (history ++ [(position, event)]) = arrivals device history := by
  rw [arrivals_append_singleton]
  cases event with
  | udpMessage msg address port => exact absurd rfl (hother msg address port)
  | _ => exact List.append_nil _

/-- The readings before an event that brings none, under the history after it. -/
theorem Windowed.reads_append {s : ProcessState} (hwindowed : Windowed device s)
    {event : Event ⊕ Websocket.Event}
    (hother : ∀ msg address port, event ≠ .inl (.udpMessage msg address port)) {m : Nat}
    (hle : s.executed ≤ m) : s.store (dataKey device) = listValue (newest 1000
      (arrivedBy device (serverEvents (s.history ++ [(s.executed, event)])) m)) := by
  rw [hwindowed.reads hle, serverEvents_append, arrivedBy, arrivedBy]
  cases event with
  | inl event =>
      have hsame : arrivals device (serverEvents s.history ++ [(s.executed, event)]) =
          arrivals device (serverEvents s.history) :=
        arrivals_other (fun msg address port heq => hother msg address port (congrArg _ heq)) _
      rw [show serverEvents [(s.executed, Sum.inl event)] = [(s.executed, event)] from rfl, hsame]
  | inr event => rw [show serverEvents [(s.executed, Sum.inr event)] = [] from rfl, List.append_nil]

theorem untouched_event (hplain : Plain device) {event : Event ⊕ Websocket.Event}
    (hother : ∀ msg address port, event ≠ .inl (.udpMessage msg address port)) (now : Nat)
    (memory : Memory × Websocket.Memory) :
    opsAt (dataKey device) (writes ((process platform).onEvent event now memory).sends) = [] := by
  cases event with
  | inl event =>
      have hsends : writes ((process platform).onEvent (.inl event) now memory).sends =
          eventWrites event now := (writes_lift _ _).trans (writes_onEvent platform event now _)
      rw [hsends, opsAt_data_eventWrites event now hplain]
      cases event with
      | udpMessage msg address port => exact absurd rfl (hother msg address port)
      | _ => rfl
  | inr event =>
      exact (congrArg (opsAt (dataKey device)) (writes_lift _ _)).trans
        (opsAt_data_hook_event device event memory.2)

/-- The handler of a datagram only writes. -/
theorem isRead_of_mem_message {msg : List UInt8} {port now : Nat} {entry : Command × Callback}
    (hmem : entry ∈ UDP.message msg port now) : entry.1.op.isRead = false := by
  obtain ⟨command, hcommand, rfl⟩ := List.mem_map.mp hmem
  rcases List.mem_cons.mp hcommand with rfl | hcommand
  · rfl
  · cases haccept : UDP.accept msg with
    | none =>
        rw [haccept] at hcommand
        cases hcommand
    | some reading =>
        rw [haccept] at hcommand
        simp only [List.mem_cons, List.not_mem_nil, or_false] at hcommand
        rcases hcommand with rfl | rfl | rfl | rfl <;> rfl

/-- A datagram reads nothing, and everything else leaves the readings alone. -/
theorem observing_window (hplain : Plain device) :
    (process platform).Observing (Windowed device) (ReadsWindow device) where
  stable := by
    intro history event n store entry hlater hreads
    exact hreads.append hlater
  event := by
    intro s event now hempty hwindowed
    by_cases hdatagram : ∃ msg address port, event = .inl (.udpMessage msg address port)
    · obtain ⟨msg, address, port, rfl⟩ := hdatagram
      apply Pipeline.Client.observes_of_forall
      intro entry hmem n store _ hread
      obtain ⟨sent, hsent, rfl⟩ := List.mem_map.mp hmem
      rw [isRead_of_mem_message hsent] at hread
      cases hread
    · have hother : ∀ msg address port, event ≠ .inl (.udpMessage msg address port) := by
        intro msg address port heq
        exact hdatagram ⟨msg, address, port, heq⟩
      apply observes_of_untouched platform (process platform) rfl (dataKey device)
        (fun m value => value = listValue (newest 1000
          (arrivedBy device (serverEvents (s.history ++ [(s.executed, event)])) m)))
      · exact untouched_event platform hplain hother now s.memory
      · intro m hle
        exact hwindowed.reads_append hother hle
  deliver := by
    intro s a rest now hempty hinbox hwindowed
    apply observes_of_untouched platform (process platform) rfl (dataKey device)
      (fun m value => value =
        listValue (newest 1000 (arrivedBy device (serverEvents s.history) m)))
    · exact untouched_reply platform hplain _ _ _ _ _
    · intro m hle
      exact hwindowed.reads hle

theorem windowed_launch (device : String) : Windowed device ((process platform).flush launch) := by
  refine ⟨⟨List.Pairwise.nil, ?_, ?_, List.Pairwise.nil⟩, rfl⟩
  · intro a hmem
    cases hmem
  · intro entry hmem
    cases hmem

/-- Whatever else the process does: when a command reads the readings of a device, it
finds the newest thousand of those that had arrived when it was sent, the newest
first, each of them once. -/
theorem read_finds_window {device : String} (hplain : Plain device)
    (schedule : List ProcessAction) {op : Operation} {callback : Callback ⊕ Websocket.Callback}
    {rest : List (Command × (Callback ⊕ Websocket.Callback))} (hread : op.isRead = true)
    (hnext : ((process platform).run launch schedule).outbox =
      (⟨dataKey device, op⟩, callback) :: rest) :
    ((process platform).run launch schedule).store (dataKey device) =
      listValue (newest 1000 (arrivedBy device
        (serverEvents ((process platform).run launch schedule).history)
        ((process platform).run launch schedule).executed)) := by
  have hobserves := (observing_window platform hplain).run (process platform)
    (preserved_windowed platform hplain) launch schedule (windowed_launch platform device) trivial
  rw [hnext] at hobserves
  exact hobserves.1 rfl hread

/-- A browser has been told of a device. -/
def browsing : List ProcessAction :=
  [.event (.inr (.register "adc00000001")) 0, .event (.inr .connection) 0, .execute, .execute,
    .deliver 0, .deliver 0]

theorem run_browsing : ∃ s, (process referencePlatform).run launch browsing = s ∧
    s.outbox = [] ∧ s.thrown = false ∧ s.executed = 2 ∧ serverEvents s.history = [] ∧
    ⟨0, some "adc00000001"⟩ ∈ s.memory.2.tasks := by
  refine ⟨_, rfl, ?_⟩
  simp [browsing, process, Pipeline.Client.par, Pipeline.Turn.lift, Pipeline.Client.step,
    Pipeline.Client.occur, Pipeline.Client.answer, Pipeline.State.perform, Pipeline.State.record,
    Pipeline.State.start, launch, server, Websocket.hook, Websocket.onEvent, Websocket.onReply,
    execute, Operation.update, Operation.reply, empty, enumerate_singleton, serverEvents]

/-- An accepted datagram sends its five commands behind those that are waiting. -/
theorem run_reading {s : ProcessState} (hthrown : s.thrown = false) {msg : List UInt8}
    {device data : String} (haccept : UDP.accept msg = some (device, data)) (address : String)
    (port : Nat) :
    ∃ t, (process platform).run s [.event (.inl (.udpMessage msg address port)) 0] = t ∧
      t.outbox.length = s.outbox.length + 5 ∧ t.thrown = false ∧ t.executed = s.executed ∧
      t.memory.2 = s.memory.2 ∧ serverEvents t.history = serverEvents s.history ++
        [(s.executed + s.outbox.length, .udpMessage msg address port)] := by
  obtain ⟨store, outbox, inbox, executed, memory, outputs, history, thrown⟩ := s
  simp only at hthrown
  subst hthrown
  refine ⟨_, rfl, ?_⟩
  simp [process, Pipeline.Client.par, Pipeline.Turn.lift, Pipeline.Client.step,
    Pipeline.Client.occur, Pipeline.State.perform, Pipeline.State.record, server, onEvent, finish,
    UDP.message, haccept, silent, serverEvents]

/-- The interval of the browser reads the data of the device. -/
theorem run_interval {s : ProcessState} (hempty : s.outbox = []) (hthrown : s.thrown = false)
    (hwatched : ⟨0, some "adc00000001"⟩ ∈ s.memory.2.tasks) :
    ∃ t, (process platform).run s
        [.event (.inr (.interval ⟨0, some "adc00000001"⟩)) 0] = t ∧
      t.outbox = [(⟨dataKey "adc00000001", .lrange 0 4⟩, .inr (.data 0 "adc00000001")),
        (⟨recordKey "adc00000001", .hgetall⟩, .inr (.status 0 "adc00000001"))] ∧
      t.executed = s.executed ∧ serverEvents t.history = serverEvents s.history := by
  obtain ⟨store, outbox, inbox, executed, memory, outputs, history, thrown⟩ := s
  simp only at hempty hthrown hwatched
  subst hempty hthrown
  refine ⟨_, rfl, ?_⟩
  simp [process, Pipeline.Client.par, Pipeline.Turn.lift, Pipeline.Client.step,
    Pipeline.Client.occur, Pipeline.State.perform, Pipeline.State.record, Websocket.hook,
    Websocket.onEvent, hwatched, Websocket.Task.sends, Websocket.sma, serverEvents]

/-- The browser watches while three datagrams arrive, the second one from another device. -/
def watchedReadings : List ProcessAction :=
  browsing ++ [.event (.inl (.udpMessage sampleReading "10.0.0.2" 4001)) 0] ++
    [.event (.inl (.udpMessage foreignReading "10.0.0.2" 4001)) 0] ++
    [.event (.inl (.udpMessage secondReading "10.0.0.2" 4001)) 0] ++
    List.replicate 15 .execute ++ [.event (.inr (.interval ⟨0, some "adc00000001"⟩)) 0]

/-- The newest reading is the first one, and that of the other device is not among them. -/
theorem read_finds_window_watched :
    ((process referencePlatform).run launch watchedReadings).store (dataKey "adc00000001") =
      some (.list ["0256", "0512"]) := by
  obtain ⟨s, hbrowsing, hempty, hthrown, hexecuted, hhistory, hwatched⟩ := run_browsing
  obtain ⟨t₁, hfirst, hlength₁, hthrown₁, hexecuted₁, hmemory₁, hhistory₁⟩ :=
    run_reading referencePlatform hthrown accept_sampleReading "10.0.0.2" 4001
  obtain ⟨t₂, hforeign, hlength₂, hthrown₂, hexecuted₂, hmemory₂, hhistory₂⟩ :=
    run_reading referencePlatform hthrown₁ accept_foreignReading "10.0.0.2" 4001
  obtain ⟨t₃, hsecond, hlength₃, hthrown₃, hexecuted₃, hmemory₃, hhistory₃⟩ :=
    run_reading referencePlatform hthrown₂ accept_secondReading "10.0.0.2" 4001
  have hwaiting : t₃.outbox.length = 15 := by
    rw [hlength₃, hlength₂, hlength₁, hempty]
    rfl
  have hflush := (process referencePlatform).run_executes t₃
  rw [hwaiting] at hflush
  obtain ⟨u, hinterval, hnext, hexecuted', hhistory'⟩ :=
    @run_interval referencePlatform ((process referencePlatform).flush t₃) rfl hthrown₃
      (by rwa [Pipeline.Client.flush_memory, hmemory₃, hmemory₂, hmemory₁])
  have hrun : (process referencePlatform).run launch watchedReadings = u := by
    simp only [watchedReadings, Pipeline.Client.run_append, hbrowsing, hfirst, hforeign, hsecond,
      hflush, hinterval]
  have hall : u.executed = 17 := by
    rw [hexecuted']
    change t₃.executed + t₃.outbox.length = 17
    rw [hexecuted₃, hexecuted₂, hexecuted₁, hexecuted, hwaiting]
  rw [read_finds_window referencePlatform (by decide) watchedReadings rfl (hrun ▸ hnext), hrun,
    hhistory', Pipeline.Client.flush_history, hhistory₃, hhistory₂, hhistory₁, hhistory]
  simp [arrivedBy, arrivals, Event.arrival, accept_sampleReading, accept_foreignReading,
    accept_secondReading, newest, listValue, hall, hexecuted₂, hexecuted₁, hexecuted, hlength₂,
    hlength₁, hempty]

end RealTimeWs
