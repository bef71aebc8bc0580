import RealTimeWs.Pipeline.Answers
import RealTimeWs.Server.Delivery
import RealTimeWs.Server.Regular
import RealTimeWs.Server.Release

/-! # Answers to the browser

The controllers answer a request after up to three commands, while other requests,
messages and ticks go on. No request is answered twice or forgotten, and in runs
with plain identifiers every answer is right about the database at some moment
after its request has been received.
-/

namespace RealTimeWs

open Redis FunctionsService Pipeline.Client

variable (platform : Platform)

/-! ## One answer for every request -/

/-- The page to which a request has to be answered, if it has to be. -/
def Event.page : Event → Multiset (Option String)
  | .connect _ _ referer | .disconnect _ _ referer | .disconnectAll _ referer
  | .release _ referer => {backLocation referer}
  | .functionChange _ _ => {none}
  | _ => 0

/-- The page to which a callback or one that follows it answers. -/
def Callback.page : Callback → Multiset (Option String)
  | .connectFrom _ _ referer | .connectTo _ _ referer | .connectSadd _ _ referer
  | .disconnectExists _ _ referer | .disconnectSrem _ _ referer | .disconnectDel referer =>
      {backLocation referer}
  | .functionChange _ _ => {none}
  | _ => 0

/-- The page to which an output answers. A flash only waits for the next page. -/
def Output.page : Output → Multiset (Option String)
  | .redirect location => {location}
  | .send _ _ _ => {none}
  | _ => 0

/-- The pages that are owed an answer. -/
def pages : Pipeline.Ledger Callback Event Output (Multiset (Option String)) :=
  ⟨Event.page, Callback.page, Output.page⟩

theorem debt_silent (commands : List Command) : pages.debt (silent commands) = 0 := by
  apply pages.debt_eq_zero
  intro entry hmem
  rw [ignored_of_mem_silent hmem]
  rfl

theorem debt_map_of_page {names : List String} {entry : String → Command × Callback}
    (hpage : ∀ name, (entry name).2.page = 0) : pages.debt (names.map entry) = 0 := by
  apply pages.debt_eq_zero
  intro sent hmem
  obtain ⟨name, _, rfl⟩ := List.mem_map.mp hmem
  exact hpage name

/-- A turn that concerns no request. -/
theorem balance_of_free {turn : Turn} (hsends : pages.debt turn.sends = 0)
    (houtputs : pages.payment turn.outputs = 0) :
    0 = pages.debt turn.sends + pages.payment turn.outputs := by
  rw [hsends, houtputs, add_zero]

theorem balanced_pages : pages.Balanced (server platform) where
  event := by
    intro event now memory
    cases event with
    | tcpData ip port values =>
        apply balance_of_free _ rfl
        apply pages.debt_eq_zero
        intro entry hmem
        rcases List.mem_cons.mp hmem with rfl | hresponse
        · rfl
        · obtain ⟨value, _, _, rfl⟩ := mem_responses platform hresponse
          rfl
    | udpMessage msg address port => exact balance_of_free (debt_silent _) rfl
    | _ => rfl
  reply := by
    intro callback n reply now memory
    cases callback with
    | pingSismember device ip port epoch =>
        apply balance_of_free _ rfl
        simp only [server, onReply, finish, TCP.pingSismember, Pipeline.Ledger.debt_cons,
          debt_silent, add_zero]
        split <;> rfl
    | pingHmset device => exact balance_of_free (debt_silent _) rfl
    | connectFrom fromDevice toDevice referer =>
        simp only [server, onReply, ConnectController.sismemberFrom]
        split <;> rfl
    | connectTo fromDevice toDevice referer =>
        simp only [server, onReply, ConnectController.sismemberTo]
        split <;> rfl
    | disconnectExists fromDevice toDevice referer =>
        simp only [server, onReply, DisconnectController.existsConnection]
        split <;> rfl
    | releaseSmembers fromDevice =>
        cases reply with
        | members devices => exact balance_of_free (debt_map_of_page fun _ => rfl) rfl
        | _ => rfl
    | releaseSismember device fromDevice =>
        apply balance_of_free _ rfl
        simp only [server, onReply, finish, DisconnectController.releaseSismember]
        split <;> rfl
    | functionChange device newFunction =>
        simp only [server, onReply, DeviceController.functionChange]
        split
        · split
          · simp only [finish, debt_silent, zero_add]
            rfl
          · rfl
        · rfl
    | routineSmembers =>
        cases reply with
        | members devices => exact balance_of_free (debt_map_of_page fun _ => rfl) rfl
        | _ => rfl
    | routineHmget device =>
        cases reply with
        | array texts => cases texts <;> rfl
        | _ => rfl
    | forwardSmembers =>
        cases reply with
        | members devices => exact balance_of_free (debt_map_of_page fun _ => rfl) rfl
        | _ => rfl
    | forwardConnected device =>
        cases reply with
        | members connected => cases connected <;> rfl
        | _ => rfl
    | forwardHgetall device connected reading readAt =>
        cases reply with
        | object fields =>
            cases fields with
            | none => rfl
            | some record =>
                simp only [server, onReply, UDP.forwardHgetall]
                split <;> rfl
        | _ => rfl
    | forwardHget device connected reading readAt record recordAt =>
        cases reply with
        | bulk text =>
            cases text with
            | none => rfl
            | some newValue =>
                simp only [server, onReply, UDP.forwardHget]
                split <;> rfl
        | _ => rfl
    | _ => rfl

/-- In every run, over any database and through any crash, the pages that requests
came from are the pages that answers went to and those still to be answered. At
rest nothing is left to be answered. -/
theorem requests_answered_once (store : Store) (schedule : List Action) :
    pages.requested ((server platform).run (boot store) schedule) =
        pages.payment ((server platform).run (boot store) schedule).outputs +
          pages.pending ((server platform).run (boot store) schedule) ∧
      (((server platform).run (boot store) schedule).Quiescent →
        pages.requested ((server platform).run (boot store) schedule) =
          pages.payment ((server platform).run (boot store) schedule).outputs) := by
  have hkept := (balanced_pages platform).run (boot store) schedule rfl
  refine ⟨hkept, ?_⟩
  intro hquiet
  rw [hkept, Pipeline.Ledger.pending_of_quiescent hquiet, add_zero]

/-! ## Sets of connections -/

/-- Where connections are kept, there is a set or nothing. -/
def ConnectionsTyped (store : Store) : Prop :=
  ∀ name, Kind.set.Admits (store (connectionKey name))

/-- A command creates nothing but a set where connections are kept. -/
def KeepsConnections (_ : Store) (command : Command) (_ : Callback) : Prop :=
  ∀ name, command.key = connectionKey name →
    ∀ kind, command.op.creates = some kind → kind = .set

theorem connectionsTyped_execute {n : Nat} {store : Store} {command : Command}
    {callback : Callback} (hkeeps : KeepsConnections store command callback)
    (htyped : ConnectionsTyped store) :
    ConnectionsTyped (execute platform.order n store command).1 := by
  intro name
  by_cases hkey : connectionKey name = command.key
  · rw [hkey, execute_key]
    exact admits_update (hkeeps name hkey.symm) (hkey ▸ htyped name)
  · rw [execute_of_ne _ _ _ _ _ hkey]
    exact htyped name

/-- Requests change sets of connections as sets. -/
theorem creates_of_linked {callback : Callback} {reply : Reply} {change : String × Operation}
    (hlinked : linked callback reply = some change) {kind : Kind}
    (hcreates : change.2.creates = some kind) : kind = .set := by
  cases callback with
  | connectTo fromDevice toDevice referer =>
      simp only [linked, Option.ite_none_right_eq_some, Option.some.injEq] at hlinked
      rw [← hlinked.2] at hcreates
      exact (Option.some.inj hcreates).symm
  | disconnectExists fromDevice toDevice referer =>
      simp only [linked, Option.ite_none_right_eq_some, Option.some.injEq] at hlinked
      rw [← hlinked.2] at hcreates
      cases hcreates
  | releaseSismember device fromDevice =>
      simp only [linked, Option.ite_none_right_eq_some, Option.some.injEq] at hlinked
      rw [← hlinked.2] at hcreates
      cases hcreates
  | _ => cases hlinked

theorem keepsConnections_of_replyWrites {curves : Curves} {callback : Callback} {reply : Reply}
    {now : Nat} {command : Command} (hmem : command ∈ replyWrites curves callback reply now)
    (hrewritten : ∀ written, rewritten callback reply = some written → Plain written.1)
    (store : Store) (asked : Callback) : KeepsConnections store command asked := by
  intro name hkey
  simp only [replyWrites, List.mem_append, List.mem_map, List.mem_flatMap,
    Option.mem_toList] at hmem
  rcases hmem with (((hregistered | hwritten) | hlinked) | hrecorded) | hcounted
  · obtain ⟨device, _, rfl⟩ := hregistered
    exact absurd hkey.symm (connectionKey_ne_devicesKey name)
  · obtain ⟨written, hwritten, hcommand⟩ := hwritten
    have hplain := hrewritten written hwritten
    rcases List.mem_cons.mp hcommand with rfl | hentry
    · exact absurd hkey.symm (connectionKey_ne_tableKey _ hplain)
    · obtain ⟨pair, _, rfl⟩ := List.mem_map.mp hentry
      exact absurd hkey.symm (connectionKey_ne_tableKey _ hplain)
  · obtain ⟨change, hlinked, rfl⟩ := hlinked
    exact fun kind hcreates => creates_of_linked hlinked hcreates
  · obtain ⟨change, _, op, _, rfl⟩ := hrecorded
    exact absurd hkey (recordKey_ne_connectionKey _ _)
  · split at hcounted
    · rw [List.mem_singleton.mp hcounted] at hkey
      exact absurd hkey.symm (connectionKey_ne_msgCountKey name)
    · cases hcounted

theorem keepsConnections_of_eventWrites {event : Event} {now : Nat} {command : Command}
    (hmem : command ∈ eventWrites event now)
    (haccepted : ∀ reading, event.accepted = some reading → Plain reading.1)
    (store : Store) (asked : Callback) : KeepsConnections store command asked := by
  intro name hkey
  cases event with
  | tcpData ip port values =>
      rw [List.mem_singleton.mp hmem] at hkey
      exact absurd hkey.symm (connectionKey_ne_msgCountKey name)
  | udpMessage msg address port =>
      rcases List.mem_cons.mp hmem with rfl | hstored
      · exact absurd hkey.symm (connectionKey_ne_msgCountKey name)
      · obtain ⟨reading, hreading, hstored⟩ := List.mem_flatMap.mp hstored
        have hplain := haccepted reading (Option.mem_toList.mp hreading)
        simp only [List.mem_cons, List.not_mem_nil, or_false] at hstored
        rcases hstored with rfl | rfl | rfl | rfl
        · exact absurd hkey.symm (connectionKey_ne_dataKey _ hplain)
        · exact absurd hkey.symm (connectionKey_ne_dataKey _ hplain)
        · exact absurd hkey (recordKey_ne_connectionKey _ _)
        · exact absurd hkey (recordKey_ne_connectionKey _ _)
  | disconnectAll fromDevice referer =>
      rw [List.mem_singleton.mp hmem]
      intro kind hcreates
      cases hcreates
  | _ => cases hmem

theorem creates_of_isRead {op : Operation} (hread : op.isRead = true) : op.creates = none := by
  cases op <;> first | rfl | cases hread

/-- Reads create nothing, so only writes have to be looked at. -/
theorem keepsConnections_of_writes {sends : Sends}
    (hwrites : ∀ command ∈ writes sends, ∀ store asked, KeepsConnections store command asked)
    (n : Nat) (store : Store) : (server platform).Meets KeepsConnections n store sends := by
  apply Pipeline.Client.meets_of_forall
  intro command callback hmem store
  cases hread : command.op.isRead with
  | true =>
      intro name _ kind hcreates
      rw [creates_of_isRead hread] at hcreates
      cases hcreates
  | false => exact hwrites command (mem_writes hmem hread) store callback

theorem sends_keepsConnections :
    (server platform).Sends (regularGuard platform) (fun _ => True) KeepsConnections where
  event := by
    intro s event now _ hguard _
    apply keepsConnections_of_writes
    intro command hmem
    rw [show (server platform).onEvent = onEvent platform from rfl, writes_onEvent] at hmem
    apply keepsConnections_of_eventWrites hmem
    exact plain_of_accepted platform (hguard.1.1 event now rfl)
  deliver := by
    intro s a rest now _ hinbox hguard _
    apply keepsConnections_of_writes
    intro command hmem
    rw [show (server platform).onReply = onReply platform from rfl, writes_onReply] at hmem
    apply keepsConnections_of_replyWrites hmem
    intro written hwritten
    exact plain_of_rewritten hguard.2 (hinbox ▸ List.mem_cons_self) hwritten

theorem connectionsTyped_run {schedule : List Action} (hplain : PlainSchedule platform schedule) :
    ConnectionsTyped ((server platform).run (boot empty) schedule).store :=
  (sends_keepsConnections platform).store_run (server platform)
    ⟨fun _ _ _ _ _ _ _ => trivial, fun _ _ _ _ _ _ _ _ _ => trivial⟩
    (fun _ _ _ _ hkeeps => connectionsTyped_execute platform hkeeps) (boot empty) schedule
    (guarded_regular platform hplain) trivial trivial fun _ => trivial

/-! ## What replies show -/

theorem setAt_sadd {n : Nat} {store : Store} {key member : String}
    (htyped : Kind.set.Admits (store key)) :
    member ∈ setAt (execute platform.order n store ⟨key, .sadd member⟩).1 key := by
  rw [setAt, show (execute platform.order n store ⟨key, .sadd member⟩).1 key =
    (Operation.sadd member).update (store key) from execute_key _ _ _ _]
  cases hvalue : store key with
  | none => exact Finset.mem_singleton_self _
  | some value =>
      rw [hvalue] at htyped
      cases value with
      | set members => exact Finset.mem_insert_self _ _
      | _ => exact htyped.elim

theorem setAt_del {n : Nat} {store : Store} {key : String} :
    setAt (execute platform.order n store ⟨key, .del⟩).1 key = ∅ := by
  rw [setAt, show (execute platform.order n store ⟨key, .del⟩).1 key =
    Operation.del.update (store key) from execute_key _ _ _ _]
  rfl

theorem truthy_existsKey {n : Nat} {store : Store} {key : String}
    (hfalse : truthy (Operation.existsKey.reply platform.order n (store key)) = false) :
    setAt store key = ∅ := by
  unfold setAt
  cases hvalue : store key with
  | none => rfl
  | some value => simp [hvalue, Operation.reply, truthy] at hfalse

/-- The callback waits for the reply to this command on behalf of this request. -/
inductive Serves : Event → Callback → Command → Prop
  | connectFrom {fromDevice toDevice : String} {referer : Option String} :
      Serves (.connect fromDevice toDevice referer) (.connectFrom fromDevice toDevice referer)
        ⟨devicesKey, .sismember fromDevice⟩
  | connectTo {fromDevice toDevice : String} {referer : Option String} :
      Serves (.connect fromDevice toDevice referer) (.connectTo fromDevice toDevice referer)
        ⟨devicesKey, .sismember toDevice⟩
  | connectSadd {fromDevice toDevice : String} {referer : Option String} :
      Serves (.connect fromDevice toDevice referer) (.connectSadd fromDevice toDevice referer)
        ⟨connectionKey fromDevice, .sadd toDevice⟩
  | disconnectExists {fromDevice toDevice : String} {referer : Option String} :
      Serves (.disconnect fromDevice toDevice referer)
        (.disconnectExists fromDevice toDevice referer) ⟨connectionKey fromDevice, .existsKey⟩
  | disconnectSrem {fromDevice toDevice : String} {referer : Option String} :
      Serves (.disconnect fromDevice toDevice referer)
        (.disconnectSrem fromDevice toDevice referer) ⟨connectionKey fromDevice, .srem toDevice⟩
  | disconnectDel {fromDevice : String} {referer : Option String} :
      Serves (.disconnectAll fromDevice referer) (.disconnectDel referer)
        ⟨connectionKey fromDevice, .del⟩
  | functionChange {device : String} {newFunction : Option String} :
      Serves (.functionChange device newFunction) (.functionChange device newFunction)
        ⟨devicesKey, .sismember device⟩

/-- The reply to a callback of the request is right about the store. -/
inductive Shows : Event → Callback → Reply → Store → Prop
  | connectFrom {fromDevice toDevice : String} {referer : Option String} {reply : Reply}
      {store : Store} (hfound : truthy reply = true ↔ fromDevice ∈ devices store) :
      Shows (.connect fromDevice toDevice referer) (.connectFrom fromDevice toDevice referer)
        reply store
  | connectTo {fromDevice toDevice : String} {referer : Option String} {reply : Reply}
      {store : Store} (hfound : truthy reply = true ↔ toDevice ∈ devices store) :
      Shows (.connect fromDevice toDevice referer) (.connectTo fromDevice toDevice referer)
        reply store
  | connectSadd {fromDevice toDevice : String} {referer : Option String} {reply : Reply}
      {store : Store} (hmem : toDevice ∈ setAt store (connectionKey fromDevice)) :
      Shows (.connect fromDevice toDevice referer) (.connectSadd fromDevice toDevice referer)
        reply store
  | disconnectExists {fromDevice toDevice : String} {referer : Option String} {reply : Reply}
      {store : Store}
      (hnone : truthy reply = false → setAt store (connectionKey fromDevice) = ∅) :
      Shows (.disconnect fromDevice toDevice referer)
        (.disconnectExists fromDevice toDevice referer) reply store
  | disconnectSrem {fromDevice toDevice : String} {referer : Option String} {reply : Reply}
      {store : Store} (hnot : toDevice ∉ setAt store (connectionKey fromDevice)) :
      Shows (.disconnect fromDevice toDevice referer)
        (.disconnectSrem fromDevice toDevice referer) reply store
  | disconnectDel {fromDevice : String} {referer : Option String} {reply : Reply}
      {store : Store} (hnone : setAt store (connectionKey fromDevice) = ∅) :
      Shows (.disconnectAll fromDevice referer) (.disconnectDel referer) reply store
  | functionChange {device : String} {newFunction : Option String} {reply : Reply}
      {store : Store} (hfound : truthy reply = true ↔ device ∈ devices store) :
      Shows (.functionChange device newFunction) (.functionChange device newFunction) reply store

/-- Executing the command makes the reply right about the store it leaves. -/
theorem Serves.execute {request : Event} {callback : Callback} {command : Command}
    (hserves : Serves request callback command) {store : Store} (htyped : ConnectionsTyped store)
    (n : Nat) :
    Shows request callback (Redis.execute platform.order n store command).2
      (Redis.execute platform.order n store command).1 := by
  cases hserves with
  | connectFrom =>
      rw [execute_of_isRead _ _ _ rfl]
      exact .connectFrom truthy_sismember
  | connectTo =>
      rw [execute_of_isRead _ _ _ rfl]
      exact .connectTo truthy_sismember
  | connectSadd => exact .connectSadd (setAt_sadd platform (htyped _))
  | disconnectExists =>
      rw [execute_of_isRead _ _ _ rfl]
      exact .disconnectExists (truthy_existsKey platform (n := n))
  | disconnectSrem =>
      apply Shows.disconnectSrem
      rw [mem_setAt_srem]
      exact fun hmem => hmem.2 rfl
  | disconnectDel => exact .disconnectDel (setAt_del platform)
  | functionChange =>
      rw [execute_of_isRead _ _ _ rfl]
      exact .functionChange truthy_sismember

/-! ## Right answers -/

/-- The answer suits the request and what it says is so in the store. The answer to
a release says nothing about the store, since it comes before the first command. -/
inductive Fits : Event → Output → Store → Prop
  | connected {fromDevice toDevice : String} {referer : Option String} {store : Store}
      (hmem : toDevice ∈ setAt store (connectionKey fromDevice)) :
      Fits (.connect fromDevice toDevice referer)
        (.flash "success" (fromDevice ++ " successfully connected to the " ++ toDevice)) store
  | missing {fromDevice toDevice device : String} {referer : Option String} {store : Store}
      (hend : device = fromDevice ∨ device = toDevice) (hnot : device ∉ devices store) :
      Fits (.connect fromDevice toDevice referer)
        (.flash "danger" (ConnectController.missing device)) store
  | disconnected {fromDevice toDevice : String} {referer : Option String} {store : Store}
      (hnot : toDevice ∉ setAt store (connectionKey fromDevice)) :
      Fits (.disconnect fromDevice toDevice referer)
        (.flash "success" (toDevice ++ " successfully disconnected from the " ++ fromDevice)) store
  | unconnected {fromDevice toDevice : String} {referer : Option String} {store : Store}
      (hnone : setAt store (connectionKey fromDevice) = ∅) :
      Fits (.disconnect fromDevice toDevice referer)
        (.flash "danger" "Sorry, this connection doesn't exist.") store
  | dropped {fromDevice : String} {referer : Option String} {store : Store}
      (hnone : setAt store (connectionKey fromDevice) = ∅) :
      Fits (.disconnectAll fromDevice referer)
        (.flash "success" "All connections successfully dropped!") store
  | released {fromDevice : String} {referer : Option String} {store : Store} :
      Fits (.release fromDevice referer)
        (.flash "success" "All connections has been released successfully.") store
  | changed {device name : String} {function : Allowed} {store : Store}
      (hmem : device ∈ devices store) (hfind : find name = some function) :
      Fits (.functionChange device (some name)) (.send 200 "new_function" function.name) store
  | notAllowed {device : String} {newFunction : Option String} {store : Store}
      (hmem : device ∈ devices store) (hfind : newFunction.bind find = none) :
      Fits (.functionChange device newFunction) (.send 500 "error"
        ("Function " ++ newFunction.getD "undefined" ++ " is not allowed")) store
  | unknown {device : String} {newFunction : Option String} {store : Store}
      (hnot : device ∉ devices store) :
      Fits (.functionChange device newFunction)
        (.flash "danger" (ConnectController.missing device)) store

/-- An answer that the visitor reads. -/
def Output.Read : Output → Prop
  | .flash _ _ | .send _ _ _ => True
  | _ => False

/-- The request has been received. -/
def Requested (request : Event) (s : State) : Prop := request ∈ s.history.map Prod.snd

/-- Every outstanding command serves a request that has been received, every reply
was right about the store at a moment after that, and so is every answer. -/
def answering : Testimony Command Reply Callback Event Nat Output where
  sent past entry := entry.2.page ≠ 0 → ∃ request, Serves request entry.2 entry.1 ∧
    Requested request ((server platform).run (boot empty) past)
  given past a := a.callback.page ≠ 0 → ∃ request, (server platform).Once (boot empty)
    (fun s => Requested request s ∧ Shows request a.callback a.reply s.store) past
  told past output := output.Read → ∃ request, (server platform).Once (boot empty)
    (fun s => Requested request s ∧ Fits request output s.store) past

theorem Requested.step {request : Event} {s : State} (hrequested : Requested request s)
    (action : Action) : Requested request ((server platform).step s action) := by
  obtain ⟨entry, hmem, rfl⟩ := List.mem_map.mp hrequested
  exact List.mem_map_of_mem (mem_history_step hmem action)

theorem requested_occur {s : State} (hthrown : s.thrown = false) (event : Event) (now : Nat) :
    Requested event ((server platform).step s (.event event now)) := by
  simp [Requested, Pipeline.Client.step, hthrown, occur, Pipeline.State.perform,
    Pipeline.State.record]

/-- What a turn says follows from its reply. -/
theorem fits_of_read {callback : Callback} {n : Nat} {reply : Reply} {now : Nat} {memory : Memory}
    {output : Output} (hmem : output ∈ (onReply platform callback n reply now memory).outputs)
    (hread : output.Read) :
    callback.page ≠ 0 ∧
      ∀ request store, Shows request callback reply store → Fits request output store := by
  cases callback with
  | connectFrom fromDevice toDevice referer =>
      refine ⟨Multiset.singleton_ne_zero _, ?_⟩
      rintro request store ⟨hfound⟩
      simp only [onReply, ConnectController.sismemberFrom] at hmem
      split at hmem
      next => cases hmem
      next hnot =>
        rcases List.mem_cons.mp hmem with rfl | hredirect
        · exact .missing (.inl rfl) fun hdevice => hnot (hfound.mpr hdevice)
        · rw [List.mem_singleton.mp hredirect] at hread
          exact hread.elim
  | connectTo fromDevice toDevice referer =>
      refine ⟨Multiset.singleton_ne_zero _, ?_⟩
      rintro request store (_ | ⟨hfound⟩)
      simp only [onReply, ConnectController.sismemberTo] at hmem
      split at hmem
      next => cases hmem
      next hnot =>
        rcases List.mem_cons.mp hmem with rfl | hredirect
        · exact .missing (.inr rfl) fun hdevice => hnot (hfound.mpr hdevice)
        · rw [List.mem_singleton.mp hredirect] at hread
          exact hread.elim
  | connectSadd fromDevice toDevice referer =>
      refine ⟨Multiset.singleton_ne_zero _, ?_⟩
      rintro request store (_ | _ | ⟨hconnected⟩)
      rcases List.mem_cons.mp hmem with rfl | hredirect
      · exact .connected hconnected
      · rw [List.mem_singleton.mp hredirect] at hread
        exact hread.elim
  | disconnectExists fromDevice toDevice referer =>
      refine ⟨Multiset.singleton_ne_zero _, ?_⟩
      rintro request store (_ | _ | _ | ⟨hnone⟩)
      simp only [onReply, DisconnectController.existsConnection] at hmem
      split at hmem
      next => cases hmem
      next hnot =>
        rcases List.mem_cons.mp hmem with rfl | hredirect
        · exact .unconnected (hnone (Bool.not_eq_true _ ▸ hnot))
        · rw [List.mem_singleton.mp hredirect] at hread
          exact hread.elim
  | disconnectSrem fromDevice toDevice referer =>
      refine ⟨Multiset.singleton_ne_zero _, ?_⟩
      rintro request store (_ | _ | _ | _ | ⟨hnot⟩)
      rcases List.mem_cons.mp hmem with rfl | hredirect
      · exact .disconnected hnot
      · rw [List.mem_singleton.mp hredirect] at hread
        exact hread.elim
  | disconnectDel referer =>
      refine ⟨Multiset.singleton_ne_zero _, ?_⟩
      rintro request store (_ | _ | _ | _ | _ | ⟨hnone⟩)
      rcases List.mem_cons.mp hmem with rfl | hredirect
      · exact .dropped hnone
      · rw [List.mem_singleton.mp hredirect] at hread
        exact hread.elim
  | functionChange device newFunction =>
      refine ⟨Multiset.singleton_ne_zero _, ?_⟩
      rintro request store (_ | _ | _ | _ | _ | _ | ⟨hfound⟩)
      simp only [onReply, DeviceController.functionChange] at hmem
      split at hmem
      next hdevice =>
        split at hmem
        next function hfind =>
          rw [List.mem_singleton.mp hmem]
          obtain ⟨name, rfl, hname⟩ := Option.bind_eq_some_iff.mp hfind
          exact .changed (hfound.mp hdevice) hname
        next hfind =>
          rw [List.mem_singleton.mp hmem]
          exact .notAllowed (hfound.mp hdevice) hfind
      next hnot =>
        rcases List.mem_cons.mp hmem with rfl | hredirect
        · exact .unknown fun hdevice => hnot (hfound.mpr hdevice)
        · rw [List.mem_singleton.mp hredirect] at hread
          exact hread.elim
  | releaseSmembers fromDevice => cases reply <;> cases hmem
  | routineSmembers => cases reply <;> cases hmem
  | routineHmget device =>
      cases reply with
      | array texts => cases texts <;> cases hmem
      | _ => cases hmem
  | forwardSmembers => cases reply <;> cases hmem
  | forwardConnected device => cases reply <;> cases hmem
  | forwardHgetall device connected reading readAt =>
      cases reply with
      | object fields => cases fields <;> cases hmem
      | _ => cases hmem
  | forwardHget device connected reading readAt record recordAt =>
      cases reply with
      | bulk text =>
          cases text with
          | none => cases hmem
          | some newValue =>
              simp only [onReply, UDP.forwardHget] at hmem
              split at hmem
              · cases hmem
              · rw [List.mem_singleton.mp hmem] at hread
                exact hread.elim
      | _ => cases hmem
  | _ => cases hmem

/-- A chain of commands serves one request. -/
theorem serves_of_follows {asked : Callback} {n : Nat} {reply : Reply} {command : Command}
    {callback : Callback} (hfollows : Follows asked n reply command callback)
    (hpage : callback.page ≠ 0) :
    asked.page ≠ 0 ∧
      ∀ request store, Shows request asked reply store → Serves request callback command := by
  cases hfollows with
  | connectTo hfound =>
      refine ⟨Multiset.singleton_ne_zero _, ?_⟩
      rintro request store ⟨_⟩
      exact .connectTo
  | connectSadd hfound =>
      refine ⟨Multiset.singleton_ne_zero _, ?_⟩
      rintro request store (_ | ⟨_⟩)
      exact .connectSadd
  | disconnectSrem hfound =>
      refine ⟨Multiset.singleton_ne_zero _, ?_⟩
      rintro request store (_ | _ | _ | ⟨_⟩)
      exact .disconnectSrem
  | _ => exact absurd rfl hpage

/-- It begins with the first command of the request. -/
theorem serves_of_starts {toLowerCase : String → String} {event : Event} {now : Nat}
    {command : Command} {callback : Callback}
    (hstarts : Starts toLowerCase event now command callback) (hpage : callback.page ≠ 0) :
    Serves event callback command := by
  cases hstarts with
  | connect => exact .connectFrom
  | disconnect => exact .disconnectExists
  | disconnectAll => exact .disconnectDel
  | functionChange => exact .functionChange
  | _ => exact absurd rfl hpage

theorem sound_answering {schedule : List Action} (hplain : PlainSchedule platform schedule) :
    (answering platform).Sound (server platform) (boot empty) schedule where
  sent_later := by
    intro past action entry hsent hpage
    obtain ⟨request, hserves, hrequested⟩ := hsent hpage
    refine ⟨request, hserves, ?_⟩
    rw [run_append]
    exact hrequested.step platform action
  given_later := by
    intro past action a hgiven hpage
    obtain ⟨request, honce⟩ := hgiven hpage
    exact ⟨request, honce.later action⟩
  told_later := by
    intro past action output htold hread
    obtain ⟨request, honce⟩ := htold hread
    exact ⟨request, honce.later action⟩
  event := by
    intro past event now hpast hthrown
    have hrequested : Requested event
        ((server platform).run (boot empty) (past ++ [.event event now])) := by
      rw [run_append]
      exact requested_occur platform hthrown event now
    constructor
    · intro entry hmem hpage
      obtain ⟨command, callback⟩ := entry
      rcases starts_of_mem platform hmem with rfl | hstarts
      · exact absurd rfl hpage
      · exact ⟨event, serves_of_starts hstarts hpage, hrequested⟩
    · intro output hmem hread
      cases event with
      | release fromDevice referer =>
          rcases List.mem_cons.mp hmem with rfl | hredirect
          · exact ⟨_, once_now ⟨hrequested, .released⟩⟩
          · rw [List.mem_singleton.mp hredirect] at hread
            exact hread.elim
      | _ => cases hmem
  execute := by
    intro past command callback rest hpast hsent hfirst hpage
    obtain ⟨request, hserves, hrequested⟩ := hfirst hpage
    have hpastPlain : PlainSchedule platform past := fun event now hmem =>
      hplain event now (((List.prefix_append _ _).trans hpast).subset hmem)
    have htyped := connectionsTyped_run platform hpastPlain
    refine ⟨request, once_now ⟨?_, ?_⟩⟩
    · rw [run_append]
      exact hrequested.step platform .execute
    · rw [run_append, run_cons, run_nil]
      simp only [Pipeline.Client.step, hsent]
      exact hserves.execute platform htyped _
  deliver := by
    intro past a rest now hpast hthrown hinbox hgiven
    constructor
    · intro entry hmem hpage
      obtain ⟨command, callback⟩ := entry
      rcases follows_of_mem platform hmem with rfl | hfollows
      · exact absurd rfl hpage
      · obtain ⟨hasked, hserves⟩ := serves_of_follows hfollows hpage
        obtain ⟨request, earlier, hearlier, hrequested, hshows⟩ := hgiven hasked
        have honce : (server platform).Once (boot empty) (Requested request)
            (past ++ [.deliver now]) :=
          ⟨earlier, hearlier.trans (List.prefix_append _ _), hrequested⟩
        refine ⟨request, hserves request _ hshows, ?_⟩
        exact honce.lasting fun s action hrequested => hrequested.step platform action
    · intro output hmem hread
      obtain ⟨hasked, hfits⟩ := fits_of_read platform hmem hread
      obtain ⟨request, earlier, hearlier, hrequested, hshows⟩ := hgiven hasked
      exact ⟨request, earlier, hearlier.trans (List.prefix_append _ _), hrequested,
        hfits request _ hshows⟩

/-- Whatever else happens in between, each answer of a run with plain identifiers
belongs to a request that had been received when the database was as it says. -/
theorem answers_true {schedule : List Action} (hplain : PlainSchedule platform schedule)
    {output : Output} (hread : output.Read)
    (hmem : output ∈ ((server platform).run (boot empty) schedule).outputs) :
    ∃ request earlier, earlier <+: schedule ∧
      Requested request ((server platform).run (boot empty) earlier) ∧
      Fits request output ((server platform).run (boot empty) earlier).store :=
  ((sound_answering platform hplain).run (Testimony.covers_start _ _) List.prefix_rfl).told
    output hmem hread

/-- Nothing is registered when this request is handled. -/
def strangerTurns : List Action :=
  [.event (.connect "adc00000001" "adc00000002" none) 0, .execute, .deliver 0]

theorem answers_true_stranger : ∃ request earlier, earlier <+: strangerTurns ∧
    Requested request ((server referencePlatform).run (boot empty) earlier) ∧
    Fits request (.flash "danger" (ConnectController.missing "adc00000001"))
      ((server referencePlatform).run (boot empty) earlier).store := by
  have hplain : PlainSchedule referencePlatform strangerTurns := by
    intro event now hmem
    simp only [strangerTurns, List.mem_cons, Pipeline.Action.event.injEq, reduceCtorEq,
      List.not_mem_nil, or_false] at hmem
    rw [hmem.1]
    trivial
  have hread : Output.Read (.flash "danger" (ConnectController.missing "adc00000001")) := trivial
  have hmem : .flash "danger" (ConnectController.missing "adc00000001") ∈
      ((server referencePlatform).run (boot empty) strangerTurns).outputs := List.mem_cons_self
  exact answers_true referencePlatform hplain hread hmem

end RealTimeWs
