import RealTimeWs.Server.Effects

/-! # What a turn asks

The commands with a callback that a turn sends, as one relation for replies and
one for events. Such a command is sent before its own turn writes to the same key,
so its reply shows the store as the turn found it. Invariants of outstanding
replies only look at these two relations.
-/

namespace RealTimeWs

open Redis

/-- A reply to the first callback, at the given ordinal, makes the server send the
command with the second callback. -/
inductive Follows : Callback → Nat → Reply → Command → Callback → Prop
  | pingSadd {device ip : String} {port epoch n : Nat} {reply : Reply}
      (hnew : truthy reply = false) :
      Follows (.pingSismember device ip port epoch) n reply ⟨devicesKey, .sadd device⟩
        (.pingSadd device ip port epoch)
  | pingHmset {device ip : String} {port epoch n : Nat} {reply : Reply} :
      Follows (.pingSadd device ip port epoch) n reply
        ⟨recordKey device, .hmset [("ip", ip), ("port", port.repr), ("active", "true"),
          ("last_ping", epoch.repr), ("function", "linear")]⟩ (.pingHmset device)
  | connectTo {fromDevice toDevice : String} {referer : Option String} {n : Nat} {reply : Reply}
      (hfound : truthy reply = true) :
      Follows (.connectFrom fromDevice toDevice referer) n reply ⟨devicesKey, .sismember toDevice⟩
        (.connectTo fromDevice toDevice referer)
  | connectSadd {fromDevice toDevice : String} {referer : Option String} {n : Nat} {reply : Reply}
      (hfound : truthy reply = true) :
      Follows (.connectTo fromDevice toDevice referer) n reply
        ⟨connectionKey fromDevice, .sadd toDevice⟩ (.connectSadd fromDevice toDevice referer)
  | disconnectSrem {fromDevice toDevice : String} {referer : Option String} {n : Nat}
      {reply : Reply} (hfound : truthy reply = true) :
      Follows (.disconnectExists fromDevice toDevice referer) n reply
        ⟨connectionKey fromDevice, .srem toDevice⟩ (.disconnectSrem fromDevice toDevice referer)
  | releaseSismember {fromDevice device : String} {n : Nat} {devices : List String}
      (hmem : device ∈ devices) :
      Follows (.releaseSmembers fromDevice) n (.members devices)
        ⟨connectionKey device, .sismember fromDevice⟩ (.releaseSismember device fromDevice)
  | routineHmget {device : String} {n : Nat} {devices : List String} (hmem : device ∈ devices) :
      Follows .routineSmembers n (.members devices) ⟨recordKey device, .hmget ["last_ping"]⟩
        (.routineHmget device)
  | forwardConnected {device : String} {n : Nat} {devices : List String}
      (hmem : device ∈ devices) :
      Follows .forwardSmembers n (.members devices) ⟨connectionKey device, .smembers⟩
        (.forwardConnected device)
  | forwardLindex {device : String} {n : Nat} {connected : List String} (hsome : connected ≠ []) :
      Follows (.forwardConnected device) n (.members connected) ⟨dataKey device, .lindex 0⟩
        (.forwardLindex device connected)
  | forwardHgetall {device : String} {connected : List String} {n : Nat} {reading : Reply} :
      Follows (.forwardLindex device connected) n reading
        ⟨recordKey (UDP.joined connected), .hgetall⟩
        (.forwardHgetall device connected reading n)
  | forwardHget {device : String} {connected : List String} {reading : Reply} {readAt n : Nat}
      {record : Hash} (hactive : record "active" = some "true") :
      Follows (.forwardHgetall device connected reading readAt) n (.object (some record))
        ⟨tableKey device, .hget (Script.text (UDP.readingNumber reading))⟩
        (.forwardHget device connected reading readAt record n)

/-- The event makes the server send the command with the callback. -/
inductive Starts (toLowerCase : String → String) : Event → Nat → Command → Callback → Prop
  | ping {ip : String} {port now : Nat} {values : List (Resp.Value String)}
      {value : Resp.Value String} (hmem : value ∈ values)
      (hping : TCP.isPing toLowerCase value = some true) :
      Starts toLowerCase (.tcpData ip port values) now
        ⟨devicesKey, .sismember (toLowerCase (TCP.secondText value))⟩
        (.pingSismember (toLowerCase (TCP.secondText value)) ip port now)
  | connect {fromDevice toDevice : String} {referer : Option String} {now : Nat} :
      Starts toLowerCase (.connect fromDevice toDevice referer) now
        ⟨devicesKey, .sismember fromDevice⟩ (.connectFrom fromDevice toDevice referer)
  | disconnect {fromDevice toDevice : String} {referer : Option String} {now : Nat} :
      Starts toLowerCase (.disconnect fromDevice toDevice referer) now
        ⟨connectionKey fromDevice, .existsKey⟩ (.disconnectExists fromDevice toDevice referer)
  | disconnectAll {fromDevice : String} {referer : Option String} {now : Nat} :
      Starts toLowerCase (.disconnectAll fromDevice referer) now
        ⟨connectionKey fromDevice, .del⟩ (.disconnectDel referer)
  | release {fromDevice : String} {referer : Option String} {now : Nat} :
      Starts toLowerCase (.release fromDevice referer) now ⟨devicesKey, .smembers⟩
        (.releaseSmembers fromDevice)
  | functionChange {device : String} {newFunction : Option String} {now : Nat} :
      Starts toLowerCase (.functionChange device newFunction) now
        ⟨devicesKey, .sismember device⟩ (.functionChange device newFunction)
  | routineTick {now : Nat} :
      Starts toLowerCase .routineTick now ⟨devicesKey, .smembers⟩ .routineSmembers
  | forwardTick {now : Nat} :
      Starts toLowerCase .forwardTick now ⟨devicesKey, .smembers⟩ .forwardSmembers

variable (platform : Platform)

section Asked

variable {command : Command} {callback : Callback}

theorem ignored_of_mem_silent {commands : List Command}
    (hmem : (command, callback) ∈ silent commands) : callback = .ignored := by
  obtain ⟨other, _, heq⟩ := List.mem_map.mp hmem
  exact (Prod.mk.inj heq).2.symm

/-- Everything that a reply asks. -/
theorem follows_of_mem {asked : Callback} {n : Nat} {reply : Reply} {now : Nat} {memory : Memory}
    (hmem : (command, callback) ∈ (onReply platform asked n reply now memory).sends) :
    callback = .ignored ∨ Follows asked n reply command callback := by
  cases asked with
  | pingSismember device ip port epoch =>
      rcases List.mem_cons.mp hmem with hfirst | hcount
      · split at hfirst
        · exact Or.inl (Prod.mk.inj hfirst).2
        · next hnew =>
            obtain ⟨rfl, rfl⟩ := Prod.mk.inj hfirst
            exact Or.inr (.pingSadd (by simpa using hnew))
      · exact Or.inl (ignored_of_mem_silent hcount)
  | pingSadd device ip port epoch =>
      obtain ⟨rfl, rfl⟩ := Prod.mk.inj (List.mem_singleton.mp hmem)
      exact Or.inr .pingHmset
  | pingHmset device => exact Or.inl (ignored_of_mem_silent hmem)
  | connectFrom fromDevice toDevice referer =>
      simp only [onReply, ConnectController.sismemberFrom] at hmem
      split at hmem
      next hfound =>
          obtain ⟨rfl, rfl⟩ := Prod.mk.inj (List.mem_singleton.mp hmem)
          exact Or.inr (.connectTo hfound)
      next => cases hmem
  | connectTo fromDevice toDevice referer =>
      simp only [onReply, ConnectController.sismemberTo] at hmem
      split at hmem
      next hfound =>
          obtain ⟨rfl, rfl⟩ := Prod.mk.inj (List.mem_singleton.mp hmem)
          exact Or.inr (.connectSadd hfound)
      next => cases hmem
  | disconnectExists fromDevice toDevice referer =>
      simp only [onReply, DisconnectController.existsConnection] at hmem
      split at hmem
      next hfound =>
          obtain ⟨rfl, rfl⟩ := Prod.mk.inj (List.mem_singleton.mp hmem)
          exact Or.inr (.disconnectSrem hfound)
      next => cases hmem
  | releaseSmembers fromDevice =>
      cases reply with
      | members devices =>
          obtain ⟨device, hdevice, heq⟩ := List.mem_map.mp hmem
          obtain ⟨rfl, rfl⟩ := Prod.mk.inj heq
          exact Or.inr (.releaseSismember hdevice)
      | _ => cases hmem
  | releaseSismember device fromDevice =>
      simp only [onReply, finish, DisconnectController.releaseSismember] at hmem
      split at hmem
      · exact Or.inl (ignored_of_mem_silent hmem)
      · cases hmem
  | functionChange device newFunction =>
      simp only [onReply, DeviceController.functionChange] at hmem
      split at hmem
      · split at hmem
        · exact Or.inl (ignored_of_mem_silent hmem)
        · cases hmem
      · cases hmem
  | routineSmembers =>
      cases reply with
      | members devices =>
          obtain ⟨device, hdevice, heq⟩ := List.mem_map.mp hmem
          obtain ⟨rfl, rfl⟩ := Prod.mk.inj heq
          exact Or.inr (.routineHmget hdevice)
      | _ => cases hmem
  | routineHmget device =>
      cases reply with
      | array texts =>
          cases texts with
          | nil => cases hmem
          | cons lastPing rest => exact Or.inl (ignored_of_mem_silent hmem)
      | _ => cases hmem
  | forwardSmembers =>
      cases reply with
      | members devices =>
          obtain ⟨device, hdevice, heq⟩ := List.mem_map.mp hmem
          obtain ⟨rfl, rfl⟩ := Prod.mk.inj heq
          exact Or.inr (.forwardConnected hdevice)
      | _ => cases hmem
  | forwardConnected device =>
      cases reply with
      | members connected =>
          cases connected with
          | nil => cases hmem
          | cons first rest =>
              obtain ⟨rfl, rfl⟩ := Prod.mk.inj (List.mem_singleton.mp hmem)
              exact Or.inr (.forwardLindex (List.cons_ne_nil _ _))
      | _ => cases hmem
  | forwardLindex device connected =>
      obtain ⟨rfl, rfl⟩ := Prod.mk.inj (List.mem_singleton.mp hmem)
      exact Or.inr .forwardHgetall
  | forwardHgetall device connected reading readAt =>
      cases reply with
      | object fields =>
          cases fields with
          | none => cases hmem
          | some record =>
              simp only [onReply, finish, UDP.forwardHgetall] at hmem
              split at hmem
              next hactive =>
                  obtain ⟨rfl, rfl⟩ := Prod.mk.inj (List.mem_singleton.mp hmem)
                  exact Or.inr (.forwardHget hactive)
              next => cases hmem
      | _ => cases hmem
  | forwardHget device connected reading readAt record recordAt =>
      cases reply with
      | bulk text =>
          cases text with
          | none => cases hmem
          | some newValue =>
              simp only [onReply, UDP.forwardHget] at hmem
              split at hmem
              · cases hmem
              · exact Or.inl (ignored_of_mem_silent hmem)
      | _ => cases hmem
  | _ => cases hmem

/-- A reply does ask what the relation says. -/
theorem mem_of_follows {asked : Callback} {n : Nat} {reply : Reply} (now : Nat) (memory : Memory)
    (hfollows : Follows asked n reply command callback) :
    (command, callback) ∈ (onReply platform asked n reply now memory).sends := by
  cases hfollows with
  | pingSadd hnew => simp [onReply, finish, TCP.pingSismember, hnew]
  | pingHmset => exact List.mem_singleton_self _
  | connectTo hfound => simp [onReply, finish, ConnectController.sismemberFrom, hfound]
  | connectSadd hfound => simp [onReply, finish, ConnectController.sismemberTo, hfound]
  | disconnectSrem hfound =>
      simp [onReply, finish, DisconnectController.existsConnection, hfound]
  | releaseSismember hmem => exact List.mem_map.mpr ⟨_, hmem, rfl⟩
  | routineHmget hmem => exact List.mem_map.mpr ⟨_, hmem, rfl⟩
  | forwardConnected hmem => exact List.mem_map.mpr ⟨_, hmem, rfl⟩
  | forwardLindex hsome => simp [onReply, finish, UDP.forwardConnected, hsome]
  | forwardHgetall => exact List.mem_singleton_self _
  | forwardHget hactive => simp [onReply, finish, UDP.forwardHgetall, hactive]

/-- Everything that an event asks. -/
theorem starts_of_mem {event : Event} {now : Nat} {memory : Memory}
    (hmem : (command, callback) ∈ (onEvent platform event now memory).sends) :
    callback = .ignored ∨ Starts platform.toLowerCase event now command callback := by
  cases event with
  | tcpData ip port values =>
      rcases List.mem_cons.mp hmem with hcount | hresponse
      · exact Or.inl (Prod.mk.inj hcount).2
      · obtain ⟨value, hvalue, hping, heq⟩ := mem_responses platform hresponse
        obtain ⟨rfl, rfl⟩ := Prod.mk.inj heq
        exact Or.inr (.ping hvalue hping)
  | udpMessage msg address port => exact Or.inl (ignored_of_mem_silent hmem)
  | connect fromDevice toDevice referer =>
      obtain ⟨rfl, rfl⟩ := Prod.mk.inj (List.mem_singleton.mp hmem)
      exact Or.inr .connect
  | disconnect fromDevice toDevice referer =>
      obtain ⟨rfl, rfl⟩ := Prod.mk.inj (List.mem_singleton.mp hmem)
      exact Or.inr .disconnect
  | disconnectAll fromDevice referer =>
      obtain ⟨rfl, rfl⟩ := Prod.mk.inj (List.mem_singleton.mp hmem)
      exact Or.inr .disconnectAll
  | release fromDevice referer =>
      obtain ⟨rfl, rfl⟩ := Prod.mk.inj (List.mem_singleton.mp hmem)
      exact Or.inr .release
  | functionChange device newFunction =>
      obtain ⟨rfl, rfl⟩ := Prod.mk.inj (List.mem_singleton.mp hmem)
      exact Or.inr .functionChange
  | routineTick =>
      obtain ⟨rfl, rfl⟩ := Prod.mk.inj (List.mem_singleton.mp hmem)
      exact Or.inr .routineTick
  | forwardTick =>
      obtain ⟨rfl, rfl⟩ := Prod.mk.inj (List.mem_singleton.mp hmem)
      exact Or.inr .forwardTick

end Asked

/-! ## Datagrams -/

/-- The datagrams among the outputs, in the order in which they are sent. -/
def datagrams (outputs : List Output) : List Datagram :=
  outputs.filterMap fun output =>
    match output with
    | .datagram sent => some sent
    | _ => none

theorem datagrams_append (first second : List Output) :
    datagrams (first ++ second) = datagrams first ++ datagrams second :=
  List.filterMap_append

/-- Only the reply to the lookup sends a datagram, and only one. -/
theorem datagrams_onReply (callback : Callback) (ordinal : Nat) (reply : Reply) (now : Nat)
    (memory : Memory) :
    datagrams (onReply platform callback ordinal reply now memory).outputs = [] ∨
      ∃ device connected reading readAt record recordAt newValue port,
        callback = .forwardHget device connected reading readAt record recordAt ∧
        UDP.sendPort (record "udp_port") = some port ∧
        datagrams (onReply platform callback ordinal reply now memory).outputs =
          [⟨device, UDP.joined connected, newValue, port, record "ip", reading, readAt,
            recordAt⟩] := by
  cases callback with
  | forwardHget device connected reading readAt record recordAt =>
      cases reply with
      | bulk text =>
          cases text with
          | none => exact Or.inl rfl
          | some newValue =>
              simp only [onReply, UDP.forwardHget]
              cases hport : UDP.sendPort (record "udp_port") with
              | none => exact Or.inl rfl
              | some port =>
                  exact Or.inr ⟨_, _, _, _, _, _, newValue, port, rfl, hport, rfl⟩
      | _ => exact Or.inl rfl
  | connectFrom fromDevice toDevice referer =>
      left
      simp only [onReply, ConnectController.sismemberFrom]
      split <;> rfl
  | connectTo fromDevice toDevice referer =>
      left
      simp only [onReply, ConnectController.sismemberTo]
      split <;> rfl
  | disconnectExists fromDevice toDevice referer =>
      left
      simp only [onReply, DisconnectController.existsConnection]
      split <;> rfl
  | functionChange device newFunction =>
      left
      simp only [onReply, DeviceController.functionChange]
      split
      · split <;> rfl
      · rfl
  | routineHmget device =>
      left
      cases reply with
      | array texts => cases texts <;> rfl
      | _ => rfl
  | forwardHgetall device connected reading readAt =>
      left
      cases reply with
      | object fields => cases fields <;> rfl
      | _ => rfl
  | releaseSmembers fromDevice => cases reply <;> exact Or.inl rfl
  | routineSmembers => cases reply <;> exact Or.inl rfl
  | forwardSmembers => cases reply <;> exact Or.inl rfl
  | forwardConnected device => cases reply <;> exact Or.inl rfl
  | _ => exact Or.inl rfl

theorem datagrams_onEvent (event : Event) (now : Nat) (memory : Memory) :
    datagrams (onEvent platform event now memory).outputs = [] := by
  cases event <;> rfl

/-! ## Replies to the commands of a turn -/

/-- Commands with a callback are not preceded by writes to their key. -/
def Prompt (sends : Sends) : Prop :=
  ∀ before command callback after, sends = before ++ (command, callback) :: after →
    callback = .ignored ∨ opsAt command.key (writes before) = []

theorem prompt_of_isRead (sends : Sends) (hread : ∀ entry ∈ sends, entry.1.op.isRead = true) :
    Prompt sends := by
  intro before command callback after hsplit
  right
  rw [writes_of_isRead before]
  · rfl
  · intro entry hmem
    exact hread entry (hsplit ▸ List.mem_append_left _ hmem)

/-- One command with a callback, followed by commands without. -/
theorem prompt_cons_silent (entry : Command × Callback) (commands : List Command) :
    Prompt (entry :: silent commands) := by
  intro before command callback after hsplit
  cases before with
  | nil => exact Or.inr rfl
  | cons first before =>
      left
      have hmem : (command, callback) ∈ silent commands := by
        rw [(List.cons.inj hsplit).2]
        simp
      obtain ⟨other, _, heq⟩ := List.mem_map.mp hmem
      exact (Prod.mk.inj heq).2.symm

theorem prompt_silent (commands : List Command) : Prompt (silent commands) := by
  cases commands with
  | nil =>
      intro before command callback after hsplit
      simp [silent] at hsplit
  | cons command rest => exact prompt_cons_silent _ rest

theorem prompt_nil : Prompt [] := prompt_silent []

theorem prompt_singleton (entry : Command × Callback) : Prompt [entry] :=
  prompt_cons_silent entry []

theorem prompt_map_of_isRead {α : Type} (names : List α) (entry : α → Command × Callback)
    (hread : ∀ name, (entry name).1.op.isRead = true) : Prompt (names.map entry) := by
  apply prompt_of_isRead
  intro sent hmem
  obtain ⟨name, _, rfl⟩ := List.mem_map.mp hmem
  exact hread name


theorem prompt_onReply (callback : Callback) (ordinal : Nat) (reply : Reply) (now : Nat)
    (memory : Memory) : Prompt (onReply platform callback ordinal reply now memory).sends := by
  cases callback with
  | pingSismember device ip port epoch => exact prompt_cons_silent _ _
  | pingSadd device ip port epoch => exact prompt_singleton _
  | pingHmset device => exact prompt_silent _
  | connectFrom fromDevice toDevice referer =>
      simp only [onReply, ConnectController.sismemberFrom]
      split
      · exact prompt_singleton _
      · exact prompt_nil
  | connectTo fromDevice toDevice referer =>
      simp only [onReply, ConnectController.sismemberTo]
      split
      · exact prompt_singleton _
      · exact prompt_nil
  | disconnectExists fromDevice toDevice referer =>
      simp only [onReply, DisconnectController.existsConnection]
      split
      · exact prompt_singleton _
      · exact prompt_nil
  | releaseSmembers fromDevice =>
      cases reply with
      | members devices => exact prompt_map_of_isRead devices _ fun _ => rfl
      | _ => exact prompt_nil
  | releaseSismember device fromDevice =>
      simp only [onReply, DisconnectController.releaseSismember, finish]
      split
      · exact prompt_silent _
      · exact prompt_nil
  | functionChange device newFunction =>
      simp only [onReply, DeviceController.functionChange]
      split
      · split
        · exact prompt_silent _
        · exact prompt_nil
      · exact prompt_nil
  | routineSmembers =>
      cases reply with
      | members devices => exact prompt_map_of_isRead devices _ fun _ => rfl
      | _ => exact prompt_nil
  | routineHmget device =>
      cases reply with
      | array texts =>
          cases texts with
          | nil => exact prompt_nil
          | cons lastPing rest => exact prompt_silent _
      | _ => exact prompt_nil
  | forwardSmembers =>
      cases reply with
      | members devices => exact prompt_map_of_isRead devices _ fun _ => rfl
      | _ => exact prompt_nil
  | forwardConnected device =>
      cases reply with
      | members connected =>
          cases connected with
          | nil => exact prompt_nil
          | cons first rest => exact prompt_singleton _
      | _ => exact prompt_nil
  | forwardLindex device connected => exact prompt_singleton _
  | forwardHgetall device connected reading readAt =>
      cases reply with
      | object fields =>
          cases fields with
          | none => exact prompt_nil
          | some record =>
              simp only [onReply, UDP.forwardHgetall, finish]
              split
              · exact prompt_singleton _
              · exact prompt_nil
      | _ => exact prompt_nil
  | forwardHget device connected reading readAt record recordAt =>
      cases reply with
      | bulk text =>
          cases text with
          | none => exact prompt_nil
          | some newValue =>
              simp only [onReply, UDP.forwardHget]
              split
              · exact prompt_nil
              · exact prompt_silent _
      | _ => exact prompt_nil
  | _ => exact prompt_nil

theorem prompt_onEvent (event : Event) (now : Nat) (memory : Memory) :
    Prompt (onEvent platform event now memory).sends := by
  cases event with
  | tcpData ip port values =>
      -- The counter precedes the membership tests but lies at another key.
      intro before command callback after hsplit
      cases before with
      | nil => exact Or.inr rfl
      | cons first before =>
          obtain ⟨rfl, hrest⟩ := List.cons.inj hsplit
          have hmem : (command, callback) ∈ (TCP.responses platform ip port now values).1 := by
            rw [hrest]
            simp
          have hreads : writes before = [] := by
            apply writes_of_isRead
            intro entry hentry
            have hentry : entry ∈ (TCP.responses platform ip port now values).1 := by
              rw [hrest]
              exact List.mem_append_left _ hentry
            obtain ⟨value, _, _, rfl⟩ := mem_responses platform hentry
            rfl
          obtain ⟨value, _, _, heq⟩ := mem_responses platform hmem
          obtain ⟨rfl, rfl⟩ := Prod.mk.inj heq
          right
          simp [writes_cons, Operation.isRead, hreads, opsAt_cons]
  | udpMessage msg address port => exact prompt_silent _
  | _ => exact prompt_singleton _

/-- What the callbacks of a turn will be given. -/
theorem answer_of_prompt {sends : Sends} (hprompt : Prompt sends) {n : Nat} {store : Store}
    {a : Pipeline.Answer Reply Callback} (hmem : a ∈ (server platform).answersTo n store sends) :
    a.callback = .ignored ∨ ∃ command, (command, a.callback) ∈ sends ∧
      a.reply = command.op.reply platform.order a.ordinal (store command.key) := by
  obtain ⟨before, command, after, hsplit, _, hreply⟩ :=
    mem_answersTo platform.order (server platform) rfl n store sends a hmem
  rcases hprompt before command a.callback after hsplit with hignored | huntouched
  · exact Or.inl hignored
  · refine Or.inr ⟨command, ?_, ?_⟩
    · rw [hsplit]
      simp
    · rw [hreply, storeAfter_apply platform.order (server platform) rfl, huntouched]
      rfl


/-! ## Turns from flushed states -/

/-- The state after a reply is handled, with all commands executed. -/
def delivered (s : State) (a : Pipeline.Answer Reply Callback)
    (rest : List (Pipeline.Answer Reply Callback)) (now : Nat) : State :=
  (server platform).flush ((server platform).answer { s with inbox := rest } a now)

/-- The state after an event is handled, with all commands executed. -/
def occurred (s : State) (event : Event) (now : Nat) : State :=
  (server platform).flush ((server platform).occur s event now)

section Delivered

variable {s : State} {a : Pipeline.Answer Reply Callback}
variable {rest : List (Pipeline.Answer Reply Callback)} {now : Nat} (hempty : s.outbox = [])

include hempty

theorem delivered_eq : delivered platform s a rest now =
    { s with
      store := replyStore platform a.callback a.ordinal a.reply now s.memory s.executed s.store
      outbox := []
      inbox := rest ++ (server platform).answersTo s.executed s.store
        (onReply platform a.callback a.ordinal a.reply now s.memory).sends
      executed := s.executed +
        (onReply platform a.callback a.ordinal a.reply now s.memory).sends.length
      memory := (onReply platform a.callback a.ordinal a.reply now s.memory).memory
      outputs := s.outputs ++
        (onReply platform a.callback a.ordinal a.reply now s.memory).outputs
      thrown := (onReply platform a.callback a.ordinal a.reply now s.memory).thrown } :=
  (server platform).flush_perform_of_outbox_nil { s with inbox := rest } hempty _

theorem delivered_store : (delivered platform s a rest now).store =
    replyStore platform a.callback a.ordinal a.reply now s.memory s.executed s.store := by
  rw [delivered_eq platform hempty]

theorem delivered_history : (delivered platform s a rest now).history = s.history := by
  rw [delivered_eq platform hempty]

theorem datagrams_delivered : datagrams (delivered platform s a rest now).outputs =
    datagrams s.outputs ++
      datagrams (onReply platform a.callback a.ordinal a.reply now s.memory).outputs := by
  rw [delivered_eq platform hempty, datagrams_append]

theorem le_executed_delivered : s.executed ≤ (delivered platform s a rest now).executed := by
  rw [delivered_eq platform hempty]
  exact Nat.le_add_right _ _

/-- Outstanding after a reply: the other replies and those to what it asks. -/
theorem mem_inbox_delivered {b : Pipeline.Answer Reply Callback}
    (hmem : b ∈ (delivered platform s a rest now).inbox) :
    b ∈ rest ∨ s.executed ≤ b.ordinal ∧ (b.callback = .ignored ∨
      ∃ command, Follows a.callback a.ordinal a.reply command b.callback ∧
        b.reply = command.op.reply platform.order b.ordinal (s.store command.key)) := by
  rw [delivered_eq platform hempty] at hmem
  rcases List.mem_append.mp hmem with hold | hnew
  · exact Or.inl hold
  · refine Or.inr ⟨((server platform).answersTo_ordinal _ _ _ hnew).1, ?_⟩
    have hprompt := prompt_onReply platform a.callback a.ordinal a.reply now s.memory
    rcases answer_of_prompt platform hprompt hnew with hignored | ⟨command, hsent, hreply⟩
    · exact Or.inl hignored
    · rcases follows_of_mem platform hsent with hignored | hfollows
      · exact Or.inl hignored
      · exact Or.inr ⟨command, hfollows, hreply⟩

/-- A reply that the delivered one does not ask for was outstanding before. -/
theorem mem_rest_of_delivered {b : Pipeline.Answer Reply Callback}
    (hmem : b ∈ (delivered platform s a rest now).inbox) (hcallback : b.callback ≠ .ignored)
    (hnot : ∀ command, ¬ Follows a.callback a.ordinal a.reply command b.callback) :
    b ∈ rest := by
  rcases mem_inbox_delivered platform hempty hmem with hold | ⟨_, hignored | ⟨command, hfollows, _⟩⟩
  · exact hold
  · exact absurd hignored hcallback
  · exact absurd hfollows (hnot command)

theorem mem_inbox_delivered_of_rest {b : Pipeline.Answer Reply Callback} (hmem : b ∈ rest) :
    b ∈ (delivered platform s a rest now).inbox := by
  rw [delivered_eq platform hempty]
  exact List.mem_append_left _ hmem

theorem callbacks_delivered : (delivered platform s a rest now).inbox.map Pipeline.Answer.callback =
    rest.map Pipeline.Answer.callback ++
      (onReply platform a.callback a.ordinal a.reply now s.memory).sends.map Prod.snd := by
  rw [delivered_eq platform hempty, List.map_append, (server platform).answersTo_callbacks]

/-- The reply to what a reply asks is outstanding afterwards. -/
theorem exists_inbox_delivered {command : Command} {callback : Callback}
    (hfollows : Follows a.callback a.ordinal a.reply command callback) :
    ∃ b ∈ (delivered platform s a rest now).inbox, b.callback = callback := by
  have hsent : callback ∈
      (onReply platform a.callback a.ordinal a.reply now s.memory).sends.map Prod.snd :=
    List.mem_map.mpr ⟨_, mem_of_follows platform now s.memory hfollows, rfl⟩
  rw [← (server platform).answersTo_callbacks s.executed s.store] at hsent
  obtain ⟨b, hmem, hcallback⟩ := List.mem_map.mp hsent
  refine ⟨b, ?_, hcallback⟩
  rw [delivered_eq platform hempty]
  exact List.mem_append_right _ hmem

end Delivered

section Occurred

variable {s : State} {event : Event} {now : Nat} (hempty : s.outbox = [])

include hempty

theorem occurred_eq : occurred platform s event now =
    { s with
      store := eventStore platform event now s.memory s.executed s.store
      outbox := []
      inbox := s.inbox ++ (server platform).answersTo s.executed s.store
        (onEvent platform event now s.memory).sends
      executed := s.executed + (onEvent platform event now s.memory).sends.length
      memory := (onEvent platform event now s.memory).memory
      outputs := s.outputs ++ (onEvent platform event now s.memory).outputs
      history := s.history ++ [(s.executed, event)]
      thrown := (onEvent platform event now s.memory).thrown } := by
  have hperform := (server platform).flush_perform_of_outbox_nil (s.record event) hempty
    (onEvent platform event now s.memory)
  have hposition : s.executed + s.outbox.length = s.executed := by simp [hempty]
  simp only [Pipeline.State.record, hposition] at hperform
  rw [occurred, Pipeline.Client.occur, Pipeline.State.record, hposition]
  exact hperform

theorem occurred_store : (occurred platform s event now).store =
    eventStore platform event now s.memory s.executed s.store := by
  rw [occurred_eq platform hempty]

theorem occurred_history :
    (occurred platform s event now).history = s.history ++ [(s.executed, event)] := by
  rw [occurred_eq platform hempty]

theorem datagrams_occurred :
    datagrams (occurred platform s event now).outputs = datagrams s.outputs := by
  rw [occurred_eq platform hempty, datagrams_append, datagrams_onEvent, List.append_nil]

theorem le_executed_occurred : s.executed ≤ (occurred platform s event now).executed := by
  rw [occurred_eq platform hempty]
  exact Nat.le_add_right _ _

theorem callbacks_occurred : (occurred platform s event now).inbox.map Pipeline.Answer.callback =
    s.inbox.map Pipeline.Answer.callback ++
      (onEvent platform event now s.memory).sends.map Prod.snd := by
  rw [occurred_eq platform hempty, List.map_append, (server platform).answersTo_callbacks]

/-- Outstanding after an event: what was, and the replies to what it asks. -/
theorem mem_inbox_occurred {b : Pipeline.Answer Reply Callback}
    (hmem : b ∈ (occurred platform s event now).inbox) :
    b ∈ s.inbox ∨ s.executed ≤ b.ordinal ∧ (b.callback = .ignored ∨
      ∃ command, Starts platform.toLowerCase event now command b.callback ∧
        b.reply = command.op.reply platform.order b.ordinal (s.store command.key)) := by
  rw [occurred_eq platform hempty] at hmem
  rcases List.mem_append.mp hmem with hold | hnew
  · exact Or.inl hold
  · refine Or.inr ⟨((server platform).answersTo_ordinal _ _ _ hnew).1, ?_⟩
    have hprompt := prompt_onEvent platform event now s.memory
    rcases answer_of_prompt platform hprompt hnew with hignored | ⟨command, hsent, hreply⟩
    · exact Or.inl hignored
    · rcases starts_of_mem platform hsent with hignored | hstarts
      · exact Or.inl hignored
      · exact Or.inr ⟨command, hstarts, hreply⟩

/-- A reply that no event asks for was outstanding before. -/
theorem mem_inbox_of_occurred {b : Pipeline.Answer Reply Callback}
    (hmem : b ∈ (occurred platform s event now).inbox) (hcallback : b.callback ≠ .ignored)
    (hnot : ∀ command, ¬ Starts platform.toLowerCase event now command b.callback) :
    b ∈ s.inbox := by
  rcases mem_inbox_occurred platform hempty hmem with hold | ⟨_, hignored | ⟨command, hstarts, _⟩⟩
  · exact hold
  · exact absurd hignored hcallback
  · exact absurd hstarts (hnot command)

theorem mem_inbox_occurred_of_mem {b : Pipeline.Answer Reply Callback} (hmem : b ∈ s.inbox) :
    b ∈ (occurred platform s event now).inbox := by
  rw [occurred_eq platform hempty]
  exact List.mem_append_left _ hmem

end Occurred

/-- Replies that nobody waits for only leave the inbox. -/
theorem run_ignored (s : State) (now : Nat) (hempty : s.outbox = []) (hthrown : s.thrown = false)
    (hignored : ∀ a ∈ s.inbox, a.callback = .ignored) :
    (server platform).run s (List.replicate s.inbox.length (.deliver now)) =
      { s with inbox := [] } := by
  obtain ⟨store, outbox, inbox, executed, memory, outputs, history, thrown⟩ := s
  simp only at hempty hthrown hignored ⊢
  subst hempty hthrown
  induction inbox with
  | nil => rfl
  | cons a rest ih =>
      obtain ⟨ordinal, reply, callback⟩ := a
      have hcallback : callback = .ignored := hignored _ List.mem_cons_self
      subst hcallback
      rw [List.length_cons, List.replicate_succ, Pipeline.Client.run_cons]
      have hrest := ih fun a hmem => hignored a (List.mem_cons_of_mem _ hmem)
      rw [← hrest]
      simp [Pipeline.Client.step, Pipeline.Client.answer, Pipeline.State.perform, server, onReply,
        finish]

end RealTimeWs
