import RealTimeWs.Pipeline.Script
import RealTimeWs.Server.Handlers
import RealTimeWs.Redis.Laws

/-! # One tick of the forwarder

A tick reads the connections of every device, then its newest reading, then the record
of what it is connected to, then its table, and sends a datagram. The record is asked
for under the names of all connected devices at once. The commands of one stage are
all executed before those of the next, so that every read finds what the store held
when the tick began.
-/

namespace RealTimeWs

open Redis

/-- A datagram, with the device whose reading it carries. -/
structure Sent where
  device : String
  address : Option String
  port : Nat
  message : String
deriving DecidableEq

/-- What an output sends over the socket. -/
def Output.sent : Output → Option Sent
  | .datagram packet => some ⟨packet.device, packet.address, packet.port, packet.message⟩
  | _ => none

/-- The datagrams among some outputs. -/
def sentOf (outputs : List Output) : List Sent := outputs.filterMap Output.sent

namespace Tick

/-! ## What a reply leads to -/

/-- The reply to `LINDEX key 0`. -/
def lindexReply : Option Value → Reply
  | none => .bulk none
  | some (.list elements) => .bulk elements[0]?
  | _ => .error

/-- The reply to `HGETALL key`. -/
def hgetallReply : Option Value → Reply
  | none => .object none
  | some (.hash fields) => .object (some fields)
  | _ => .error

/-- The reply to `HGET key field`. -/
def hgetReply (field : String) : Option Value → Reply
  | none => .bulk none
  | some (.hash fields) => .bulk (fields field)
  | _ => .error

/-- The datagrams that the reply with a value of the table leads to, or none where the server
throws. -/
def afterHget (device : String) (record : Hash) : Reply → Option (List Sent)
  | .bulk (some newValue) => (UDP.sendPort (record "udp_port")).map fun port =>
      [⟨device, record "ip", port, newValue⟩]
  | _ => none

variable (store : Store)

/-- What is sent after the record of the receiver has been read, none where a callback throws. -/
def afterHgetall (device : String) (reading : Reply) : Reply → Option (List Sent)
  | .object (some record) =>
      if record "active" = some "true" then
        afterHget device record
          (hgetReply (Script.text (UDP.readingNumber reading)) (store (tableKey device)))
      else some []
  | _ => none

/-- What is sent after the reading has been fetched. -/
def afterLindex (device : String) (connected : List String) (reading : Reply) :
    Option (List Sent) :=
  afterHgetall store device reading (hgetallReply (store (recordKey (UDP.joined connected))))

/-- What is sent after the connections of a device have been read. -/
def afterConnected (device : String) : Reply → Option (List Sent)
  | .members connected =>
      if connected.length = 0 then some []
      else afterLindex store device connected (lindexReply (store (dataKey device)))
  | _ => none

/-- What a reply to a command of the tick leads to. -/
def future : Callback → Reply → Option (List Sent)
  | .ignored, _ => some []
  | .forwardHget device _ _ _ record _, reply => afterHget device record reply
  | .forwardHgetall device _ reading _, reply => afterHgetall store device reading reply
  | .forwardLindex device connected, reading => afterLindex store device connected reading
  | .forwardConnected device, reply => afterConnected store device reply
  | _, _ => none

/-- What all replies that have arrived lead to. -/
def futures : List (Pipeline.Answer Reply Callback) → Option (List Sent)
  | [] => some []
  | a :: rest =>
      (future store a.callback a.reply).bind fun first =>
        (futures rest).map fun later => first ++ later

/-- The stage of the tick that a callback belongs to. -/
def stage : Callback → Nat
  | .forwardConnected _ => 1
  | .forwardLindex _ _ => 2
  | .forwardHgetall _ _ _ _ => 3
  | .forwardHget _ _ _ _ _ _ => 4
  | .ignored => 5
  | _ => 0

/-- How many replies there will be at most until everything is handled. -/
def weight : Callback → Nat
  | .forwardConnected _ => 6
  | .forwardLindex _ _ => 5
  | .forwardHgetall _ _ _ _ => 4
  | .forwardHget _ _ _ _ _ _ => 3
  | _ => 1

variable {store}

theorem futures_append (first second : List (Pipeline.Answer Reply Callback)) :
    futures store (first ++ second) =
      (futures store first).bind fun sent =>
        (futures store second).map fun later => sent ++ later := by
  induction first with
  | nil => simp [futures]
  | cons a rest ih =>
      rw [List.cons_append, futures, futures, ih]
      cases future store a.callback a.reply with
      | none => rfl
      | some sent =>
          cases futures store rest with
          | none => rfl
          | some later => simp [Option.map_map, Function.comp_def]

/-- The last stages do not read any more. -/
theorem future_of_late {callback : Callback} (hlate : 4 ≤ stage callback) (other : Store)
    (reply : Reply) : future store callback reply = future other callback reply := by
  cases callback with
  | ignored => rfl
  | forwardHget device connected reading readAt record recordAt => rfl
  | _ => simp [stage] at hlate

theorem futures_of_late {answers : List (Pipeline.Answer Reply Callback)}
    (hlate : ∀ a ∈ answers, 4 ≤ stage a.callback) (other : Store) :
    futures store answers = futures other answers := by
  induction answers with
  | nil => rfl
  | cons a rest ih =>
      rw [futures, futures, future_of_late (hlate a List.mem_cons_self) other,
        ih fun b hmem => hlate b (List.mem_cons_of_mem a hmem)]

/-! ## Turns of the tick -/

variable (platform : Platform)

/-- What a turn of the tick does: it goes on to the next stage, only reads before the last
ones, and leads to what its reply leads to. -/
structure Leads (callback : Callback) (reply : Reply) (turn : Turn) : Prop where
  next : ∀ entry ∈ turn.sends, stage entry.2 = stage callback + 1
  reads : stage callback ≤ 3 → ∀ entry ∈ turn.sends, entry.1.op.isRead = true
  fewer : (turn.sends.map fun entry => weight entry.2).sum < weight callback
  throws : turn.thrown = true → ∀ store, future store callback reply = none
  goes : turn.thrown = false → ∀ store n, future store callback reply =
    (futures store ((server platform).answersTo n store turn.sends)).map (sentOf turn.outputs ++ ·)

variable {platform}

theorem weight_pos (callback : Callback) : 0 < weight callback := by
  cases callback <;> simp [weight]

/-- A turn that throws. -/
theorem leads_throw {callback : Callback} {reply : Reply} {memory : Memory}
    (hnone : ∀ store, future store callback reply = none) :
    Leads platform callback reply (throw memory) where
  next := by
    intro entry hmem
    cases hmem
  reads := by
    intro _ entry hmem
    cases hmem
  fewer := weight_pos callback
  throws := fun _ => hnone
  goes := by
    intro hcontra
    cases hcontra

/-- A turn that ends the tick for a device. -/
theorem leads_stop {callback : Callback} {reply : Reply} {memory : Memory}
    (hempty : ∀ store, future store callback reply = some []) :
    Leads platform callback reply (finish memory [] []) where
  next := by
    intro entry hmem
    cases hmem
  reads := by
    intro _ entry hmem
    cases hmem
  fewer := weight_pos callback
  throws := by
    intro hcontra
    cases hcontra
  goes := fun _ store _ => hempty store

/-- A turn that reads on. -/
theorem leads_read {callback next : Callback} {reply : Reply} {memory : Memory} {command : Command}
    (hnext : stage next = stage callback + 1) (hweight : weight next < weight callback)
    (hread : command.op.isRead = true)
    (hfuture : ∀ store n, future store callback reply =
      future store next (command.op.reply platform.order n (store command.key))) :
    Leads platform callback reply (finish memory [(command, next)] []) where
  next := by
    intro entry hmem
    rw [List.mem_singleton.mp hmem]
    exact hnext
  reads := by
    intro _ entry hmem
    rw [List.mem_singleton.mp hmem]
    exact hread
  fewer := hweight
  throws := by
    intro hcontra
    cases hcontra
  goes := by
    intro _ store n
    rw [hfuture store n]
    change _ = Option.map _ ((future store next
      (command.op.reply platform.order n (store command.key))).bind _)
    cases future store next (command.op.reply platform.order n (store command.key)) with
    | none => rfl
    | some sent => simp [futures, finish, sentOf]

theorem reply_lindex (order : SetOrder) (n : Nat) (value : Option Value) :
    (Operation.lindex 0).reply order n value = lindexReply value := by
  cases value with
  | none => rfl
  | some held => cases held <;> rfl

theorem reply_hgetall (order : SetOrder) (n : Nat) (value : Option Value) :
    Operation.hgetall.reply order n value = hgetallReply value := by
  cases value with
  | none => rfl
  | some held => cases held <;> rfl

theorem reply_hget (order : SetOrder) (n : Nat) (field : String) (value : Option Value) :
    (Operation.hget field).reply order n value = hgetReply field value := by
  cases value with
  | none => rfl
  | some held => cases held <;> rfl

theorem leads_forwardConnected (device : String) (reply : Reply) (memory : Memory) :
    Leads platform (.forwardConnected device) reply (UDP.forwardConnected device memory reply) := by
  cases reply with
  | members connected =>
      rw [UDP.forwardConnected]
      by_cases hempty : connected.length = 0
      · rw [if_pos hempty]
        apply leads_stop
        intro store
        rw [future, afterConnected, if_pos hempty]
      · rw [if_neg hempty]
        apply leads_read rfl (Nat.lt_succ_self _) rfl
        intro store n
        rw [reply_lindex]
        exact if_neg hempty
  | _ => exact leads_throw fun store => rfl

theorem leads_forwardLindex (device : String) (connected : List String) (ordinal : Nat)
    (reading : Reply) (memory : Memory) :
    Leads platform (.forwardLindex device connected) reading
      (UDP.forwardLindex device connected ordinal reading memory) := by
  apply leads_read rfl (Nat.lt_succ_self _) rfl
  intro store n
  rw [reply_hgetall]
  rfl

theorem leads_forwardHgetall (device : String) (connected : List String) (reading : Reply)
    (readAt ordinal : Nat) (reply : Reply) (memory : Memory) :
    Leads platform (.forwardHgetall device connected reading readAt) reply
      (UDP.forwardHgetall device connected reading readAt ordinal memory reply) := by
  cases reply with
  | object fields =>
      cases fields with
      | none => exact leads_throw fun store => rfl
      | some record =>
          rw [UDP.forwardHgetall]
          by_cases hactive : record "active" = some "true"
          · rw [if_pos hactive]
            apply leads_read rfl (Nat.lt_succ_self _) rfl
            intro store n
            rw [reply_hget]
            exact if_pos hactive
          · rw [if_neg hactive]
            exact leads_stop fun store => if_neg hactive
  | _ => exact leads_throw fun store => rfl

theorem leads_forwardHget (device : String) (connected : List String) (reading : Reply)
    (readAt : Nat) (record : Hash) (recordAt : Nat) (reply : Reply) (memory : Memory) :
    Leads platform (.forwardHget device connected reading readAt record recordAt) reply
      (UDP.forwardHget device connected reading readAt record recordAt memory reply) := by
  cases reply with
  | bulk text =>
      cases text with
      | none => exact leads_throw fun store => rfl
      | some newValue =>
          rw [UDP.forwardHget]
          cases hport : UDP.sendPort (record "udp_port") with
          | none =>
              apply leads_throw
              intro store
              rw [future, afterHget, hport]
              rfl
          | some port =>
              constructor
              · intro entry hmem
                obtain ⟨command, _, rfl⟩ := List.mem_map.mp hmem
                rfl
              · intro hstage
                simp [stage] at hstage
              · exact Nat.lt_succ_self 2
              · intro hcontra
                cases hcontra
              · intro _ store n
                rw [future, afterHget, hport]
                rfl
  | _ => exact leads_throw fun store => rfl

/-- Every turn of the tick. -/
theorem leads_onReply {callback : Callback} (hstage : 1 ≤ stage callback) (ordinal : Nat)
    (reply : Reply) (now : Nat) (memory : Memory) :
    Leads platform callback reply (onReply platform callback ordinal reply now memory) := by
  cases callback with
  | ignored => exact leads_stop fun store => rfl
  | forwardConnected device => exact leads_forwardConnected device reply memory
  | forwardLindex device connected =>
      exact leads_forwardLindex device connected ordinal reply memory
  | forwardHgetall device connected reading readAt =>
      exact leads_forwardHgetall device connected reading readAt ordinal reply memory
  | forwardHget device connected reading readAt record recordAt =>
      exact leads_forwardHget device connected reading readAt record recordAt reply memory
  | _ => simp [stage] at hstage

/-! ## Stages -/

/-- The replies that have arrived are of one stage and, behind these, of the next one. -/
def Layered (inbox : List (Pipeline.Answer Reply Callback)) : Prop :=
  ∃ current first second, inbox = first ++ second ∧ 1 ≤ current ∧
    (∀ a ∈ first, stage a.callback = current) ∧ ∀ a ∈ second, stage a.callback = current + 1

section Layers

variable {a : Pipeline.Answer Reply Callback}
variable {rest new : List (Pipeline.Answer Reply Callback)}

/-- A stage of replies of its own. -/
theorem layered_of_forall {current : Nat} (hpos : 1 ≤ current)
    (hall : ∀ a ∈ rest, stage a.callback = current) : Layered rest := by
  refine ⟨current, rest, [], (List.append_nil rest).symm, hpos, hall, ?_⟩
  intro a hmem
  cases hmem

/-- The head may be taken for the first of its stage. -/
theorem Layered.cons (hlayered : Layered (a :: rest)) :
    1 ≤ stage a.callback ∧ ∃ first second, rest = first ++ second ∧
      (∀ b ∈ first, stage b.callback = stage a.callback) ∧
        ∀ b ∈ second, stage b.callback = stage a.callback + 1 := by
  obtain ⟨current, first, second, hsplit, hpos, hfirst, hsecond⟩ := hlayered
  cases first with
  | nil =>
      rw [List.nil_append] at hsplit
      subst hsplit
      have ha := hsecond a List.mem_cons_self
      refine ⟨by omega, rest, [], (List.append_nil rest).symm, ?_, ?_⟩
      · intro b hmem
        rw [hsecond b (List.mem_cons_of_mem a hmem), ha]
      · intro b hmem
        cases hmem
  | cons head first =>
      obtain ⟨rfl, rfl⟩ := List.cons.inj hsplit
      have ha := hfirst a List.mem_cons_self
      refine ⟨by omega, first, second, rfl, ?_, ?_⟩
      · intro b hmem
        rw [hfirst b (List.mem_cons_of_mem a hmem), ha]
      · intro b hmem
        rw [hsecond b hmem, ha]

theorem Layered.le (hlayered : Layered (a :: rest)) :
    ∀ b ∈ rest, stage a.callback ≤ stage b.callback := by
  obtain ⟨_, first, second, rfl, hfirst, hsecond⟩ := hlayered.cons
  intro b hmem
  rcases List.mem_append.mp hmem with hmem | hmem
  · exact (hfirst b hmem).ge
  · rw [hsecond b hmem]
    exact Nat.le_succ _

/-- The replies to what a turn sends queue up behind those of their stage. -/
theorem Layered.deliver (hlayered : Layered (a :: rest))
    (hnew : ∀ b ∈ new, stage b.callback = stage a.callback + 1) : Layered (rest ++ new) := by
  obtain ⟨hpos, first, second, rfl, hfirst, hsecond⟩ := hlayered.cons
  refine ⟨stage a.callback, first, second ++ new, List.append_assoc _ _ _, hpos, hfirst, ?_⟩
  intro b hmem
  rcases List.mem_append.mp hmem with hmem | hmem
  · exact hsecond b hmem
  · exact hnew b hmem

end Layers

/-! ## A run of the tick -/

/-- What has been sent, together with what the replies lead to, is what the tick sends
altogether; nothing is said about that once the server has thrown. -/
structure Ticking (total : Option (Multiset Sent)) (s : State) : Prop where
  layered : Layered s.inbox
  throws : s.thrown = true → total = none
  goes : s.thrown = false →
    total = (futures s.store s.inbox).map fun later => ↑(sentOf s.outputs ++ later)

theorem stage_of_mem_answersTo {n : Nat} {store : Store} {batch : List (Command × Callback)}
    {current : Nat} (hbatch : ∀ entry ∈ batch, stage entry.2 = current)
    {a : Pipeline.Answer Reply Callback}
    (hmem : a ∈ (server platform).answersTo n store batch) : stage a.callback = current := by
  have hcallback := List.mem_map_of_mem (f := Pipeline.Answer.callback) hmem
  rw [(server platform).answersTo_callbacks] at hcallback
  obtain ⟨entry, hentry, heq⟩ := List.mem_map.mp hcallback
  rw [← heq]
  exact hbatch entry hentry

theorem sentOf_append (first second : List Output) :
    sentOf (first ++ second) = sentOf first ++ sentOf second :=
  List.filterMap_append

theorem Ticking.deliver {total : Option (Multiset Sent)} {s : State} (hticking : Ticking total s)
    {a : Pipeline.Answer Reply Callback} {rest : List (Pipeline.Answer Reply Callback)}
    (hempty : s.outbox = []) (hthrown : s.thrown = false) (hinbox : s.inbox = a :: rest)
    (now : Nat) :
    Ticking total
      ((server platform).flush ((server platform).answer { s with inbox := rest } a now)) := by
  have hlayered : Layered (a :: rest) := hinbox ▸ hticking.layered
  have hleads : Leads platform a.callback a.reply
    (onReply platform a.callback a.ordinal a.reply now s.memory) := leads_onReply hlayered.cons.1 ..
  have htotal := hticking.goes hthrown
  rw [hinbox, futures] at htotal
  have hflush := (server platform).flush_perform_of_outbox_nil { s with inbox := rest } hempty
    (onReply platform a.callback a.ordinal a.reply now s.memory)
  rw [Pipeline.Client.answer]
  change Ticking total ((server platform).flush (Pipeline.State.perform { s with inbox := rest }
    (onReply platform a.callback a.ordinal a.reply now s.memory)))
  rw [hflush]
  generalize onReply platform a.callback a.ordinal a.reply now s.memory = turn at hleads ⊢
  constructor
  · exact hlayered.deliver fun b hmem => stage_of_mem_answersTo hleads.next hmem
  · intro hthrows
    rw [htotal, hleads.throws hthrows]
    rfl
  · intro hgoes
    -- whoever is still to read finds the store as it was
    have hstore : futures ((server platform).storeAfter s.executed s.store turn.sends)
        (rest ++ (server platform).answersTo s.executed s.store turn.sends) =
          futures s.store (rest ++ (server platform).answersTo s.executed s.store turn.sends) := by
      rcases Nat.lt_or_ge (stage a.callback) 4 with hearly | hlate
      · rw [storeAfter_of_isRead platform.order (server platform) rfl _ _
          (hleads.reads (Nat.le_of_lt_succ hearly))]
      · apply futures_of_late
        intro b hmem
        rcases List.mem_append.mp hmem with hmem | hmem
        · exact hlate.trans (hlayered.le b hmem)
        · rw [stage_of_mem_answersTo hleads.next hmem]
          exact hlate.trans (Nat.le_succ _)
    change total = (futures ((server platform).storeAfter s.executed s.store turn.sends)
      (rest ++ (server platform).answersTo s.executed s.store turn.sends)).map
        fun later => ↑(sentOf (s.outputs ++ turn.outputs) ++ later)
    rw [hstore, futures_append, htotal, hleads.goes hgoes s.store s.executed]
    cases futures s.store ((server platform).answersTo s.executed s.store turn.sends) with
    | none => cases futures s.store rest <;> rfl
    | some sent =>
        cases futures s.store rest with
        | none => rfl
        | some later =>
            simp only [Option.map_some, Option.bind_some, sentOf_append, ← Multiset.coe_add]
            congr 1
            abel

/-! ## Every tick comes to an end -/

/-- Nothing more happens without another event. -/
def Over (s : State) : Prop := s.thrown = true ∨ s.Quiescent

/-- The weight of the replies that have arrived. -/
def load (s : State) : Nat := (s.inbox.map fun a => weight a.callback).sum

theorem load_answersTo (n : Nat) (store : Store) (batch : List (Command × Callback)) :
    (((server platform).answersTo n store batch).map fun a => weight a.callback).sum =
      (batch.map fun entry => weight entry.2).sum := by
  have hcallbacks := congrArg (List.map weight)
    ((server platform).answersTo_callbacks n store batch)
  rw [List.map_map, List.map_map] at hcallbacks
  exact congrArg List.sum hcallbacks

theorem load_deliver {s : State} {a : Pipeline.Answer Reply Callback}
    {rest : List (Pipeline.Answer Reply Callback)} (hempty : s.outbox = [])
    (hinbox : s.inbox = a :: rest) (hstage : 1 ≤ stage a.callback) (now : Nat) :
    load ((server platform).flush ((server platform).answer { s with inbox := rest } a now)) <
      load s := by
  have hleads : Leads platform a.callback a.reply
    (onReply platform a.callback a.ordinal a.reply now s.memory) := leads_onReply hstage ..
  have hfewer := hleads.fewer
  rw [Pipeline.Client.answer,
    (server platform).flush_perform_of_outbox_nil { s with inbox := rest } hempty]
  simp only [load, List.map_append, List.sum_append, load_answersTo, hinbox, List.map_cons,
    List.sum_cons]
  change _ + ((onReply platform a.callback a.ordinal a.reply now s.memory).sends.map
    fun entry => weight entry.2).sum < _
  omega

theorem eventFree_nil : Pipeline.Client.EventFree ([] : List Action) := by
  intro event now hmem
  cases hmem

theorem eventFree_round {schedule : List Action} (hfree : Pipeline.Client.EventFree schedule)
    (time count : Nat) :
    Pipeline.Client.EventFree ((.deliver time :: List.replicate count .execute) ++ schedule) := by
  intro event now hmem
  rcases List.mem_append.mp hmem with hround | hlater
  · rcases List.mem_cons.mp hround with heq | hexecute
    · cases heq
    · cases List.eq_of_mem_replicate hexecute
  · exact hfree event now hlater

/-- From a state without outstanding commands the tick comes to an end. -/
theorem exists_over {total : Option (Multiset Sent)} {s : State} (hticking : Ticking total s)
    (hempty : s.outbox = []) :
    ∃ schedule, Pipeline.Client.EventFree schedule ∧ Over ((server platform).run s schedule) := by
  induction hload : load s using Nat.strong_induction_on generalizing s with
  | _ n ih =>
      cases hthrown : s.thrown with
      | true => exact ⟨[], eventFree_nil, Or.inl hthrown⟩
      | false =>
          cases hinbox : s.inbox with
          | nil => exact ⟨[], eventFree_nil, Or.inr ⟨hempty, hinbox⟩⟩
          | cons a rest =>
              have hlayered : Layered (a :: rest) := hinbox ▸ hticking.layered
              have hless : load ((server platform).flush
                  ((server platform).answer { s with inbox := rest } a 0)) < n :=
                hload ▸ load_deliver hempty hinbox hlayered.cons.1 0
              obtain ⟨schedule, hfree, hover⟩ :=
                ih _ hless (hticking.deliver hempty hthrown hinbox 0) rfl rfl
              let sends := (onReply platform a.callback a.ordinal a.reply 0 s.memory).sends
              have hround : (server platform).run s
                  (.deliver 0 :: List.replicate sends.length .execute) =
                    (server platform).flush
                      ((server platform).answer { s with inbox := rest } a 0) :=
                (server platform).run_deliver_executes hempty hthrown hinbox 0
              refine ⟨_, eventFree_round hfree 0 sends.length, ?_⟩
              rw [(server platform).run_append, hround]
              exact hover

/-! ## The whole tick -/

variable (order : SetOrder) (store : Store)

/-- What the tick sends for some devices, the connections of the first of which are read by the
`n`-th command. -/
def sendsFor : Nat → List String → Option (List Sent)
  | _, [] => some []
  | n, device :: rest =>
      (afterConnected store device
        (.members (order.enumerate n (setAt store (connectionKey device))))).bind fun first =>
          (sendsFor (n + 1) rest).map fun later => first ++ later

/-- What the tick sends altogether. -/
def sends : Option (List Sent) :=
  sendsFor order store 1 (order.enumerate 0 (setAt store devicesKey))

variable {order store}

/-- A set is read as the list of its members. -/
theorem reply_smembers (n : Nat) {key : String} (hadmits : Kind.set.Admits (store key)) :
    Operation.smembers.reply order n (store key) =
      .members (order.enumerate n (setAt store key)) := by
  unfold setAt
  cases hvalue : store key with
  | none =>
      have hempty : order.enumerate n ∅ = [] := by
        apply List.eq_nil_iff_forall_not_mem.mpr
        intro x hmem
        exact absurd ((order.mem_enumerate n ∅ x).mp hmem) (Finset.notMem_empty x)
      simp only [hempty]
      rfl
  | some value =>
      rw [hvalue] at hadmits
      cases value with
      | set members => rfl
      | _ => exact hadmits.elim

/-- The commands for the connections of some devices. -/
def connectionReads (devices : List String) : Sends :=
  devices.map fun device => (⟨connectionKey device, .smembers⟩, .forwardConnected device)

theorem futures_connectionReads (n : Nat) {devices : List String}
    (hadmits : ∀ device ∈ devices, Kind.set.Admits (store (connectionKey device))) :
    futures store ((server platform).answersTo n store (connectionReads devices)) =
      sendsFor platform.order store n devices := by
  induction devices generalizing n with
  | nil => rfl
  | cons device rest ih =>
      have hsame : (execute platform.order n store ⟨connectionKey device, .smembers⟩).1 = store :=
        execute_of_isRead platform.order n store rfl
      rw [sendsFor, ← reply_smembers n (hadmits device List.mem_cons_self),
        ← ih (n + 1) fun other hmem => hadmits other (List.mem_cons_of_mem _ hmem)]
      change Option.bind (future store (.forwardConnected device) _) (fun first =>
        (futures store ((server platform).answersTo (n + 1)
          (execute platform.order n store ⟨connectionKey device, .smembers⟩).1
            (connectionReads rest))).map _) = _
      rw [hsame]
      rfl

/-- The sets that the tick reads are sets. -/
structure Typed (store : Store) : Prop where
  devices : Kind.set.Admits (store devicesKey)
  connections : ∀ device ∈ setAt store devicesKey, Kind.set.Admits (store (connectionKey device))

variable (platform store) in
/-- The tick has begun and the devices have been read. -/
def opened (now : Nat) : State :=
  (server platform).flush ((server platform).occur (boot store) .forwardTick now)

theorem opened_store (now : Nat) : (opened platform store now).store = store :=
  execute_of_isRead platform.order 0 store rfl

theorem opened_inbox (htyped : Typed store) (now : Nat) : (opened platform store now).inbox =
    [⟨0, .members (platform.order.enumerate 0 (setAt store devicesKey)), .forwardSmembers⟩] := by
  rw [← reply_smembers 0 htyped.devices]
  rfl

theorem storeAfter_connectionReads (n : Nat) (devices : List String) :
    (server platform).storeAfter n store (connectionReads devices) = store := by
  apply storeAfter_of_isRead platform.order (server platform) rfl
  intro entry hmem
  obtain ⟨device, _, rfl⟩ := List.mem_map.mp hmem
  rfl

/-- The first reply starts the tick for every device. -/
theorem ticking_opened (htyped : Typed store) (now later : Nat)
    {a : Pipeline.Answer Reply Callback} {rest : List (Pipeline.Answer Reply Callback)}
    (hinbox : (opened platform store now).inbox = a :: rest) :
    Ticking ((sends platform.order store).map Multiset.ofList)
      ((server platform).flush ((server platform).answer
        { opened platform store now with inbox := rest } a later)) := by
  rw [opened_inbox htyped] at hinbox
  obtain ⟨rfl, rfl⟩ := List.cons.inj hinbox
  have hflush := (server platform).flush_perform_of_outbox_nil
    { opened platform store now with inbox := [] } rfl
    (finish (fun _ => none) (connectionReads
      (platform.order.enumerate 0 (setAt store devicesKey))) [])
  change Ticking _ ((server platform).flush (Pipeline.State.perform
    { opened platform store now with inbox := [] } (finish (fun _ => none) (connectionReads
      (platform.order.enumerate 0 (setAt store devicesKey))) [])))
  rw [hflush]
  constructor
  · apply layered_of_forall le_rfl
    intro a hmem
    apply stage_of_mem_answersTo _ hmem
    intro entry hentry
    obtain ⟨device, _, rfl⟩ := List.mem_map.mp hentry
    rfl
  · intro hcontra
    cases hcontra
  · intro _
    change _ = (futures ((server platform).storeAfter 1 (opened platform store now).store
      (connectionReads _)) ((server platform).answersTo 1 (opened platform store now).store
        (connectionReads _))).map _
    rw [opened_store, storeAfter_connectionReads, futures_connectionReads]
    · rfl
    · intro device hmem
      exact htyped.connections device ((platform.order.mem_enumerate _ _ _).mp hmem)

/-- The tick comes to what it comes to, however its commands and replies interleave. -/
theorem run_tick (now : Nat) (schedule : List Action) (htyped : Typed store)
    (hfree : Pipeline.Client.EventFree schedule) :
    let s := (server platform).flush
      ((server platform).run (boot store) (.event .forwardTick now :: schedule))
    s = opened platform store now ∨
      Ticking ((sends platform.order store).map Multiset.ofList) s := by
  have hpreserved : (server platform).Preserved
      (fun _ action => ∀ event now, action = .event event now → False) fun s =>
        s = opened platform store now ∨
          Ticking ((sends platform.order store).map Multiset.ofList) s := by
    constructor
    · intro s event now _ _ hguard
      exact (hguard event now rfl).elim
    · intro s a rest later hempty hthrown hinbox _ hcase
      right
      rcases hcase with rfl | hticking
      · exact ticking_opened htyped now later hinbox
      · exact hticking.deliver hempty hthrown hinbox later
  exact hpreserved.run (server platform) ((server platform).occur (boot store) .forwardTick now)
    schedule ((server platform).guarded_of_events (fun _ => False) _ schedule hfree) (Or.inl rfl)

/-- Without interleaved requests, a tick that has come to an end has thrown if there is
nothing that it could send, and has else sent just that. -/
theorem over_tick (now : Nat) {schedule : List Action} (htyped : Typed store)
    (hfree : Pipeline.Client.EventFree schedule)
    (hover : Over ((server platform).run (boot store) (.event .forwardTick now :: schedule))) :
    let s := (server platform).run (boot store) (.event .forwardTick now :: schedule)
    s.thrown = true ∧ sends platform.order store = none ∨
      s.thrown = false ∧ ∃ sent, sends platform.order store = some sent ∧
        Multiset.ofList (sentOf s.outputs) = Multiset.ofList sent := by
  intro s
  have hrun : (server platform).flush s = opened platform store now ∨
      Ticking ((sends platform.order store).map Multiset.ofList) ((server platform).flush s) :=
    run_tick now schedule htyped hfree
  have hthrown : s.thrown = ((server platform).flush s).thrown := rfl
  rcases hrun with hopened | hticking
  · -- the first reply is still to be handled
    rw [hopened] at hthrown
    rcases hover with hthrows | hquiet
    · cases hthrows.symm.trans hthrown
    · have hinbox := congrArg Pipeline.State.inbox hopened
      rw [(server platform).flush_of_quiescent hquiet, hquiet.2, opened_inbox htyped] at hinbox
      cases hinbox
  · cases hcalm : s.thrown with
    | true =>
        left
        exact ⟨rfl, Option.map_eq_none_iff.mp (hticking.throws hcalm)⟩
    | false =>
        right
        refine ⟨rfl, ?_⟩
        have hquiet : s.Quiescent := by
          rcases hover with hthrows | hquiet
          · cases hthrows.symm.trans hcalm
          · exact hquiet
        have htotal := hticking.goes hcalm
        rw [(server platform).flush_of_quiescent hquiet, hquiet.2, futures, Option.map_some,
          List.append_nil, Option.map_eq_some_iff] at htotal
        obtain ⟨sent, hsent, hsame⟩ := htotal
        exact ⟨sent, hsent, hsame.symm⟩

/-- Every tick comes to an end. -/
theorem exists_over_tick (platform : Platform) (htyped : Typed store) (now : Nat) :
    ∃ schedule, Pipeline.Client.EventFree schedule ∧
      Over ((server platform).run (boot store) (.event .forwardTick now :: schedule)) := by
  let devices := platform.order.enumerate 0 (setAt store devicesKey)
  have hinbox : (opened platform store now).inbox =
      ⟨0, .members devices, .forwardSmembers⟩ :: [] := opened_inbox htyped now
  have hround : (server platform).run (opened platform store now)
      (.deliver 0 :: List.replicate (connectionReads devices).length .execute) = _ :=
    (server platform).run_deliver_executes rfl rfl hinbox 0
  have hticking : Ticking ((sends platform.order store).map Multiset.ofList) _ :=
    ticking_opened htyped now 0 hinbox
  obtain ⟨schedule, hfree, hover⟩ : ∃ schedule, Pipeline.Client.EventFree schedule ∧
    Over ((server platform).run _ schedule) := exists_over hticking rfl
  let round : List Action := .deliver 0 :: List.replicate (connectionReads devices).length .execute
  refine ⟨.execute :: (round ++ schedule), ?_, ?_⟩
  · intro event time hmem
    rcases List.mem_cons.mp hmem with heq | hlater
    · cases heq
    · exact eventFree_round hfree 0 _ event time hlater
  · change Over ((server platform).run (opened platform store now) (round ++ schedule))
    rw [(server platform).run_append, hround]
    exact hover

end Tick

end RealTimeWs
