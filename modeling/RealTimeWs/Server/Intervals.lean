import RealTimeWs.Server.Websocket

/-! # Periodic tasks of the WebSocket hook

Each connection starts one task for the message counter at once and one task per
device when the set of devices has been read. No handle of a task is kept and
`onDisconnect` does nothing, so a task outlives its socket. The hook is a client of
its own on the connection; registrations reach it through the database only.
-/

namespace RealTimeWs

open Redis

namespace Websocket

/-- A scheduled `setInterval`: for a device, or for the message counter. -/
structure Task where
  socket : Nat
  device : Option String
  deriving DecidableEq

/-- The sockets opened so far, numbered, those still connected and all tasks. -/
structure Memory where
  opened : Nat
  connected : Finset Nat
  tasks : List Task

/-- The callbacks of the hook, each with the socket that it closes over. -/
inductive Callback where
  | ignored
  | devices (socket : Nat)
  | data (socket : Nat) (device : String)
  | status (socket : Nat) (device : String)
  | msgCount (socket : Nat)

/-- The hook handles connections and the timers of its tasks; `register` is what
the TCP hook does to the set of the devices. -/
inductive Event where
  | connection
  | disconnect (socket : Nat)
  | register (device : String)
  | interval (task : Task)

/-- What is emitted to a socket. -/
inductive Output where
  | devices (socket : Nat) (devices : Option (List String))
  | data (socket : Nat) (device : String) (value : Script.Number)
  | status (socket : Nat) (device : String) (record : Option Hash)
  | msgCount (socket : Nat) (count : Option String)

/-- One turn of the hook. -/
abbrev Turn := Pipeline.Turn Command Callback Output Memory

/-- What the timer of a task sends. -/
def Task.sends (task : Task) : List (Command × Callback) :=
  match task.device with
  | some device => [(⟨dataKey device, .lrange 0 (sma - 1)⟩, .data task.socket device),
      (⟨recordKey device, .hgetall⟩, .status task.socket device)]
  | none => [(⟨msgCountKey, .get⟩, .msgCount task.socket)]

/-- A connection starts an interval of its own, and every tick asks for what it emits. -/
def onEvent (event : Event) (_ : Unit) (memory : Memory) : Turn :=
  match event with
  | .connection => ⟨[(⟨devicesKey, .smembers⟩, .devices memory.opened)], [],
      { opened := memory.opened + 1
        connected := insert memory.opened memory.connected
        tasks := memory.tasks ++ [⟨memory.opened, none⟩] }, false⟩
  -- the socket is gone, its tasks stay
  | .disconnect socket =>
      ⟨[], [], { memory with connected := memory.connected.erase socket }, false⟩
  | .register device => ⟨[(⟨devicesKey, .sadd device⟩, .ignored)], [], memory, false⟩
  | .interval task => ⟨if task ∈ memory.tasks then task.sends else [], [], memory, false⟩

/-- The body of a callback. -/
def onReply (callback : Callback) (_ : Nat) (reply : Reply) (_ : Unit) (memory : Memory) : Turn :=
  match callback, reply with
  | .ignored, _ => ⟨[], [], memory, false⟩
  | .devices socket, .members devices => ⟨[], [.devices socket (some devices)],
      { memory with tasks := memory.tasks ++ devices.map fun device => ⟨socket, some device⟩ },
      false⟩
  | .devices socket, _ => ⟨[], [.devices socket none], memory, true⟩
  | .data socket device, .members reply =>
      ⟨[], [.data socket device (average reply)], memory, false⟩
  | .data _ _, _ => ⟨[], [], memory, true⟩
  | .status socket device, .object record => ⟨[], [.status socket device record], memory, false⟩
  | .status socket device, _ => ⟨[], [.status socket device none], memory, false⟩
  | .msgCount socket, .bulk count => ⟨[], [.msgCount socket count], memory, false⟩
  | .msgCount socket, _ => ⟨[], [.msgCount socket none], memory, false⟩

/-- The hook over its Redis connection. -/
def hook (order : SetOrder) :
    Pipeline.Client Store Command Reply Callback Event Unit Output Memory where
  execute := execute order
  onEvent := onEvent
  onReply := onReply

/-- A state of the hook and the database. -/
abbrev State := Pipeline.State Store Command Reply Callback Event Output Memory

/-- An event, the execution of a command, or the delivery of a reply. -/
abbrev Action := Pipeline.Action Event Unit

/-- The hook as it starts, with a given content of the database. -/
def begin (store : Store) : State := .start store ⟨0, ∅, []⟩

/-- The number of the devices that are registered. -/
def registered (store : Store) : Nat := (setAt store devicesKey).card

/-- Every task belongs to a connected socket, and there are not too many of them. -/
def Owned (s : State) : Prop :=
  (∀ task ∈ s.memory.tasks, task.socket ∈ s.memory.connected) ∧
    s.memory.tasks.length ≤ s.memory.connected.card * (registered s.store + 1)

/-- The action does not disconnect a connected socket. -/
def Stays (s : State) (action : Action) : Prop :=
  ∀ socket, action = .event (.disconnect socket) () → socket ∉ s.memory.connected

/-! ## Counting tasks -/

/-- The callback starts the intervals of the devices. -/
def Callback.isDevices : Callback → Bool
  | .devices _ => true
  | _ => false

/-- The connections whose devices have not been read yet. -/
def unread (s : State) : Nat :=
  (s.outbox.map Prod.snd).countP Callback.isDevices +
    (s.inbox.map Pipeline.Answer.callback).countP Callback.isDevices

/-- Commands of the hook: they read, or they add to the set of the devices. -/
def Sent (entry : Command × Callback) : Prop :=
  (entry.1.op.isRead = true ∧ entry.2.isDevices = false) ∨
    (entry.1 = ⟨devicesKey, .smembers⟩) ∨
    ∃ device, entry = (⟨devicesKey, .sadd device⟩, .ignored)

/-- A reply lists some of the registered devices, none of them twice. -/
def Read (store : Store) (answer : Pipeline.Answer Reply Callback) : Prop :=
  answer.callback.isDevices = true → ∀ devices, answer.reply = .members devices →
    devices.length ≤ registered store

/-- What holds as long as no socket has been disconnected. -/
structure Tended (s : State) : Prop where
  connected : s.memory.connected = Finset.range s.memory.opened
  counter : ∀ socket ∈ s.memory.connected, ⟨socket, none⟩ ∈ s.memory.tasks
  owner : ∀ task ∈ s.memory.tasks, task.socket ∈ s.memory.connected
  sent : ∀ entry ∈ s.outbox, Sent entry
  read : ∀ answer ∈ s.inbox, Read s.store answer
  awaiting : ∀ socket, (Callback.devices socket ∈ s.outbox.map Prod.snd ∨
    Callback.devices socket ∈ s.inbox.map Pipeline.Answer.callback) → socket ∈ s.memory.connected
  bound : ∃ finished, finished + unread s = s.memory.opened ∧
    s.memory.tasks.length ≤ s.memory.opened + finished * registered s.store

theorem Tended.owned {s : State} (htended : Tended s) : Owned s := by
  refine ⟨htended.owner, ?_⟩
  obtain ⟨finished, hcount, hlength⟩ := htended.bound
  rw [htended.connected, Finset.card_range]
  calc s.memory.tasks.length ≤ s.memory.opened + finished * registered s.store := hlength
    _ ≤ s.memory.opened + s.memory.opened * registered s.store := by
        apply Nat.add_le_add_left
        exact Nat.mul_le_mul_right _ (by omega)
    _ = s.memory.opened * (registered s.store + 1) := by ring

/-! ## Executing a command -/

theorem length_enumerate (order : SetOrder) (n : Nat) (members : Finset String) :
    (order.enumerate n members).length = members.card := by
  rw [← List.toFinset_card_of_nodup (order.nodup n members)]
  congr 1
  ext member
  rw [List.mem_toFinset, order.mem_enumerate]

theorem length_of_smembers (order : SetOrder) (n : Nat) {store : Store} {devices : List String}
    (hreply : (execute order n store ⟨devicesKey, .smembers⟩).2 = .members devices) :
    devices.length = registered store := by
  simp only [execute] at hreply
  rw [registered, setAt]
  cases hvalue : store devicesKey with
  | none =>
      rw [hvalue] at hreply
      cases hreply
      rfl
  | some value =>
      rw [hvalue] at hreply
      cases value with
      | set members =>
          cases hreply
          exact length_enumerate order n members
      | counter _ => cases hreply
      | hash _ => cases hreply
      | list _ => cases hreply

theorem registered_le_sadd (order : SetOrder) (n : Nat) (store : Store) (device : String) :
    registered store ≤ registered (execute order n store ⟨devicesKey, .sadd device⟩).1 := by
  simp only [registered, setAt, execute, Function.update_self]
  cases hvalue : store devicesKey with
  | none => simp
  | some value =>
      cases value with
      | set members => exact Finset.card_le_card (Finset.subset_insert _ _)
      | counter _ => exact le_rfl
      | hash _ => exact le_rfl
      | list _ => exact le_rfl

/-- No command of the hook or of a registration removes a device. -/
theorem Sent.registered_le {entry : Command × Callback} (hsent : Sent entry) (order : SetOrder)
    (n : Nat) (store : Store) :
    registered store ≤ registered (execute order n store entry.1).1 := by
  rcases hsent with ⟨hread, -⟩ | hsmembers | ⟨device, rfl⟩
  · rw [execute_of_isRead order n store hread]
  · rw [hsmembers, execute_of_isRead order n store rfl]
  · exact registered_le_sadd order n store device

/-- The devices that a connection reads are registered when it does. -/
theorem Sent.read {entry : Command × Callback} (hsent : Sent entry) (order : SetOrder)
    (n : Nat) (store : Store) :
    Read (execute order n store entry.1).1
      ⟨n, (execute order n store entry.1).2, entry.2⟩ := by
  intro hdevices devices hreply
  rcases hsent with ⟨-, hother⟩ | hsmembers | ⟨device, rfl⟩
  · rw [hdevices] at hother
    cases hother
  · rw [hsmembers] at hreply
    rw [hsmembers, execute_of_isRead order n store rfl]
    exact (length_of_smembers order n hreply).le
  · cases hdevices

theorem Task.reads (task : Task) {entry : Command × Callback} (hmem : entry ∈ task.sends) :
    entry.1.op.isRead = true ∧ entry.2.isDevices = false := by
  obtain ⟨socket, device⟩ := task
  cases device with
  | none =>
      rw [List.mem_singleton.mp hmem]
      exact ⟨rfl, rfl⟩
  | some device =>
      rcases List.mem_cons.mp hmem with rfl | hmem
      · exact ⟨rfl, rfl⟩
      · rw [List.mem_singleton.mp hmem]
        exact ⟨rfl, rfl⟩

/-! ## Steps -/

variable (order : SetOrder)

theorem Tended.record {s : State} (htended : Tended s) (event : Event) :
    Tended (s.record event) :=
  ⟨htended.connected, htended.counter, htended.owner, htended.sent, htended.read,
    htended.awaiting, htended.bound⟩

/-- A turn that opens no socket and starts no task. -/
theorem Tended.perform {s : State} (htended : Tended s) {turn : Turn}
    (hmemory : turn.memory = s.memory)
    (hsent : ∀ entry ∈ turn.sends, Sent entry ∧ entry.2.isDevices = false) :
    Tended (s.perform turn) := by
  have hcallbacks : ∀ callback ∈ turn.sends.map Prod.snd, ¬ callback.isDevices = true := by
    intro callback hmem
    obtain ⟨entry, hentry, rfl⟩ := List.mem_map.mp hmem
    rw [(hsent entry hentry).2]
    decide
  have hunread : unread (s.perform turn) = unread s := by
    simp only [unread, Pipeline.State.perform, List.map_append, List.countP_append,
      List.countP_eq_zero.mpr hcallbacks, Nat.add_zero]
  have hnew : (s.perform turn).memory = s.memory := hmemory
  constructor
  · rw [hnew]
    exact htended.connected
  · rw [hnew]
    exact htended.counter
  · rw [hnew]
    exact htended.owner
  · intro entry hmem
    rcases List.mem_append.mp hmem with hold | hturn
    · exact htended.sent entry hold
    · exact (hsent entry hturn).1
  · exact htended.read
  · intro socket hawaiting
    rw [hnew]
    apply htended.awaiting socket
    rcases hawaiting with hout | hin
    · rw [Pipeline.State.perform, List.map_append] at hout
      rcases List.mem_append.mp hout with hold | hturn
      · exact .inl hold
      · exact absurd rfl (hcallbacks _ hturn)
    · exact .inr hin
  · rw [hnew, hunread]
    exact htended.bound

/-- The oldest reply is taken from the inbox. -/
theorem Tended.take {s : State} (htended : Tended s) {answer : Pipeline.Answer Reply Callback}
    {rest : List (Pipeline.Answer Reply Callback)} (hinbox : s.inbox = answer :: rest) :
    Tended { s with inbox := rest } := by
  have hrest : ∀ other ∈ rest, other ∈ s.inbox := by
    intro other hmem
    rw [hinbox]
    exact List.mem_cons_of_mem _ hmem
  refine ⟨htended.connected, htended.counter, htended.owner, htended.sent,
    fun other hmem => htended.read other (hrest other hmem), ?_, ?_⟩
  · intro socket hawaiting
    apply htended.awaiting socket
    rw [hinbox, List.map_cons, List.mem_cons]
    tauto
  · obtain ⟨finished, hcount, hlength⟩ := htended.bound
    rw [unread, hinbox, List.map_cons, List.countP_cons] at hcount
    refine ⟨finished + if answer.callback.isDevices = true then 1 else 0, ?_, ?_⟩
    · simp only [unread]
      omega
    · apply hlength.trans
      apply Nat.add_le_add_left
      exact Nat.mul_le_mul_right _ (Nat.le_add_right _ _)

theorem tended_connection {s : State} (htended : Tended s) :
    Tended (s.perform (onEvent .connection () s.memory)) := by
  constructor
  · simp [Pipeline.State.perform, onEvent, htended.connected, Finset.range_add_one]
  · intro socket hmem
    rcases Finset.mem_insert.mp hmem with rfl | hold
    · exact List.mem_append_right _ (List.mem_singleton_self _)
    · exact List.mem_append_left _ (htended.counter socket hold)
  · intro task hmem
    rcases List.mem_append.mp hmem with hold | hnew
    · exact Finset.mem_insert_of_mem (htended.owner task hold)
    · rw [List.mem_singleton.mp hnew]
      exact Finset.mem_insert_self _ _
  · intro entry hmem
    rcases List.mem_append.mp hmem with hold | hnew
    · exact htended.sent entry hold
    · rw [List.mem_singleton.mp hnew]
      exact .inr (.inl rfl)
  · exact htended.read
  · intro socket hawaiting
    simp only [Pipeline.State.perform, onEvent, List.map_append, List.mem_append, List.map_cons,
      List.map_nil, List.mem_singleton, Callback.devices.injEq] at hawaiting
    rcases hawaiting with (hout | rfl) | hin
    · exact Finset.mem_insert_of_mem (htended.awaiting socket (.inl hout))
    · exact Finset.mem_insert_self _ _
    · exact Finset.mem_insert_of_mem (htended.awaiting socket (.inr hin))
  · obtain ⟨finished, hcount, hlength⟩ := htended.bound
    have hone : [Callback.devices s.memory.opened].countP Callback.isDevices = 1 := rfl
    refine ⟨finished, ?_, ?_⟩
    · simp only [unread, Pipeline.State.perform, onEvent, List.map_append, List.countP_append,
        List.map_cons, List.map_nil, hone] at hcount ⊢
      omega
    · simp only [Pipeline.State.perform, onEvent, List.length_append, List.length_singleton]
      omega

/-- A socket starts one task for each device that its connection read. -/
theorem tended_devices {s : State} (htended : Tended s) {n socket : Nat} {devices : List String}
    {rest : List (Pipeline.Answer Reply Callback)}
    (hinbox : s.inbox = ⟨n, .members devices, .devices socket⟩ :: rest) :
    Tended (Pipeline.State.perform { s with inbox := rest }
      (onReply (.devices socket) n (.members devices) () s.memory)) := by
  have hawaited : socket ∈ s.memory.connected := by
    apply htended.awaiting socket
    right
    rw [hinbox]
    exact List.mem_cons_self
  have hfew : devices.length ≤ registered s.store := by
    apply htended.read ⟨n, .members devices, .devices socket⟩ _ rfl devices rfl
    rw [hinbox]
    exact List.mem_cons_self
  have htaken := htended.take hinbox
  constructor
  · exact htended.connected
  · intro other hmem
    exact List.mem_append_left _ (htended.counter other hmem)
  · intro task hmem
    rcases List.mem_append.mp hmem with hold | hnew
    · exact htended.owner task hold
    · obtain ⟨device, -, rfl⟩ := List.mem_map.mp hnew
      exact hawaited
  · intro entry hmem
    simp only [Pipeline.State.perform, onReply, List.append_nil] at hmem
    exact htended.sent entry hmem
  · exact htaken.read
  · intro other hawaiting
    simp only [Pipeline.State.perform, onReply, List.append_nil] at hawaiting
    exact htaken.awaiting other hawaiting
  · obtain ⟨finished, hcount, hlength⟩ := htended.bound
    rw [unread, hinbox, List.map_cons, List.countP_cons_of_pos rfl] at hcount
    refine ⟨finished + 1, ?_, ?_⟩
    · simp only [unread, Pipeline.State.perform, onReply, List.append_nil]
      omega
    · simp only [Pipeline.State.perform, onReply, List.length_append, List.length_map, add_mul,
        one_mul]
      omega

theorem tended_event {s : State} (htended : Tended s) (event : Event)
    (hstays : Stays s (.event event ())) : Tended ((hook order).occur s event ()) := by
  have hrecord := htended.record event
  cases event with
  | connection => exact tended_connection hrecord
  | disconnect socket =>
      apply hrecord.perform
      · have hgone : s.memory.connected.erase socket = s.memory.connected :=
          Finset.erase_eq_of_notMem (hstays socket rfl)
        simp only [hook, onEvent, hgone]
        rfl
      · intro entry hmem
        cases hmem
  | register device =>
      apply hrecord.perform rfl
      intro entry hmem
      rw [List.mem_singleton.mp hmem]
      exact ⟨.inr (.inr ⟨device, rfl⟩), rfl⟩
  | interval task =>
      apply hrecord.perform rfl
      intro entry hmem
      simp only [hook, onEvent] at hmem
      split at hmem
      · exact ⟨.inl (task.reads hmem), (task.reads hmem).2⟩
      · cases hmem

theorem tended_answer {s : State} (htended : Tended s) {answer : Pipeline.Answer Reply Callback}
    {rest : List (Pipeline.Answer Reply Callback)} (hinbox : s.inbox = answer :: rest) :
    Tended ((hook order).answer { s with inbox := rest } answer ()) := by
  obtain ⟨n, reply, callback⟩ := answer
  have hquiet : ∀ turn : Turn, turn.memory = s.memory → turn.sends = [] →
      Tended (Pipeline.State.perform { s with inbox := rest } turn) := by
    intro turn hmemory hsends
    apply (htended.take hinbox).perform hmemory
    rw [hsends]
    intro entry hmem
    cases hmem
  cases callback with
  | ignored => exact hquiet _ rfl rfl
  | devices socket =>
      cases reply with
      | members devices => exact tended_devices htended hinbox
      | _ => exact hquiet _ rfl rfl
  | data socket device => cases reply <;> exact hquiet _ rfl rfl
  | status socket device => cases reply <;> exact hquiet _ rfl rfl
  | msgCount socket => cases reply <;> exact hquiet _ rfl rfl

theorem tended_execute {s : State} (htended : Tended s) :
    Tended ((hook order).step s .execute) := by
  cases hsent : s.outbox with
  | nil => simpa [Pipeline.Client.step, hsent] using htended
  | cons entry rest =>
      obtain ⟨command, callback⟩ := entry
      have hentry := htended.sent (command, callback) (by rw [hsent]; exact List.mem_cons_self)
      have hmono := hentry.registered_le order s.executed s.store
      simp only [Pipeline.Client.step, hsent]
      constructor
      · exact htended.connected
      · exact htended.counter
      · exact htended.owner
      · intro other hmem
        apply htended.sent other
        rw [hsent]
        exact List.mem_cons_of_mem _ hmem
      · intro answer hmem
        rcases List.mem_append.mp hmem with hold | hnew
        · intro hdevices devices hreply
          exact (htended.read answer hold hdevices devices hreply).trans hmono
        · rw [List.mem_singleton.mp hnew]
          exact hentry.read order s.executed s.store
      · intro socket hawaiting
        apply htended.awaiting socket
        rw [hsent]
        simp only [List.map_append, List.mem_append, List.map_cons, List.map_nil,
          List.mem_cons, List.not_mem_nil, or_false] at hawaiting ⊢
        tauto
      · obtain ⟨finished, hcount, hlength⟩ := htended.bound
        refine ⟨finished, ?_, ?_⟩
        · simp only [unread, hsent, List.map_append, List.countP_append, List.map_cons,
            List.map_nil, List.countP_cons, List.countP_nil] at hcount ⊢
          omega
        · apply hlength.trans
          apply Nat.add_le_add_left
          exact Nat.mul_le_mul_left _ hmono

theorem tended_step {s : State} (htended : Tended s) (action : Action)
    (hstays : Pipeline.Client.Enabled s action → Stays s action) :
    Tended ((hook order).step s action) := by
  cases action with
  | event event now =>
      simp only [Pipeline.Client.step]
      split
      · exact htended
      · next hthrown =>
          exact tended_event order htended event (hstays (Bool.eq_false_of_not_eq_true hthrown))
  | execute => exact tended_execute order htended
  | deliver now =>
      simp only [Pipeline.Client.step]
      split
      · exact htended
      · cases hinbox : s.inbox with
        | nil => exact htended
        | cons answer rest => exact tended_answer order htended hinbox

/-- A socket that is disconnected leaves its task for the message counter behind. -/
theorem not_owned_of_disconnect {s : State} (htended : Tended s) {socket : Nat}
    (hthrown : s.thrown = false) (hconnected : socket ∈ s.memory.connected) :
    ¬ Owned ((hook order).step s (.event (.disconnect socket) ())) := by
  intro howned
  have htask := htended.counter socket hconnected
  simp only [Pipeline.Client.step, hthrown, Bool.false_eq_true, ↓reduceIte] at howned
  have hstill := howned.1 ⟨socket, none⟩ htask
  exact Finset.notMem_erase socket s.memory.connected hstill

theorem owned_run_iff {s : State} (htended : Tended s) (schedule : List Action) :
    (∀ k, Owned ((hook order).run s (schedule.take k))) ↔
      (hook order).Guarded Stays s schedule := by
  induction schedule generalizing s with
  | nil =>
      constructor
      · intro _
        trivial
      · intro _ k
        rw [List.take_nil]
        exact htended.owned
  | cons action rest ih =>
      constructor
      · intro howned
        have hstays : Pipeline.Client.Enabled s action → Stays s action := by
          intro henabled socket heq hconnected
          subst heq
          exact not_owned_of_disconnect order htended henabled hconnected (howned 1)
        refine ⟨hstays, (ih (tended_step order htended action hstays)).mp ?_⟩
        intro k
        exact howned (k + 1)
      · intro hguarded k
        cases k with
        | zero => exact htended.owned
        | succ k =>
            exact (ih (tended_step order htended action hguarded.1)).mpr hguarded.2 k

theorem tended_begin (store : Store) : Tended (begin store) := by
  constructor
  · rfl
  · intro socket hmem
    simp [begin, Pipeline.State.start] at hmem
  · intro task hmem
    cases hmem
  · intro entry hmem
    cases hmem
  · intro answer hmem
    cases hmem
  · intro socket hawaiting
    simp [begin, Pipeline.State.start] at hawaiting
  · exact ⟨0, rfl, Nat.zero_le _⟩

/-- Over every database and every schedule, all tasks belong to connected sockets
and are at most as many as these and the devices allow, in every state reached, if
and only if no connected socket is ever disconnected. -/
theorem tasks_owned_iff (store : Store) (schedule : List Action) :
    (∀ k, Owned ((hook order).run (begin store) (schedule.take k))) ↔
      (hook order).Guarded Stays (begin store) schedule :=
  owned_run_iff order (tended_begin store) schedule

/-- A visitor who leaves keeps the message counter being read for nobody. -/
theorem left_task_scheduled :
    (((hook referencePlatform.order).run (begin empty)
      [.event .connection (), .event (.disconnect 0) ()]).memory.tasks = [⟨0, none⟩]) ∧
    (((hook referencePlatform.order).run (begin empty)
      [.event .connection (), .event (.disconnect 0) ()]).memory.connected = ∅) ∧
    ¬ Owned ((hook referencePlatform.order).run (begin empty)
      [.event .connection (), .event (.disconnect 0) ()]) := by
  refine ⟨rfl, rfl, ?_⟩
  intro howned
  have hlength := howned.2
  simp [Pipeline.Client.step, Pipeline.Client.occur, Pipeline.State.perform, hook, onEvent, begin,
    Pipeline.State.start, Pipeline.State.record] at hlength

end Websocket

end RealTimeWs
