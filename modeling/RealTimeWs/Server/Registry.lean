import RealTimeWs.Server.Registration
import RealTimeWs.Server.Release

/-! # The registry

What the server is for, with every PING and every request done at once: devices
register, are connected, disconnected and given functions, and each request is
answered from the registry it meets. The registered devices of every run are those
of the registry, however its callbacks interleave.
-/

namespace RealTimeWs

open Redis FunctionsService

/-! ## Requests done at once -/

/-- What is kept about a registered device. -/
structure Device where
  function : Allowed
  connected : Finset String

/-- The registered devices. -/
abbrev Registry := String → Option Device

/-- The answer of a controller that found nothing wrong. -/
def success (text : String) (referer : Option String) : List Output :=
  [.flash "success" text, .redirect (backLocation referer)]

/-- An answer that tells of a failure. -/
def danger (text : String) (referer : Option String) : List Output :=
  [.flash "danger" text, .redirect (backLocation referer)]

variable (platform : Platform)

/-- The devices that a message announces before its handler throws. -/
def pinged : List (Resp.Value String) → List String
  | [] => []
  | value :: rest =>
      match TCP.isPing platform.toLowerCase value with
      | none => []
      | some true => platform.toLowerCase (TCP.secondText value) :: pinged rest
      | some false => pinged rest

/-- The devices that an event announces. -/
def Event.pinged : Event → List String
  | .tcpData _ _ values => RealTimeWs.pinged platform values
  | _ => []

namespace Registry

/-- The devices to which a device is connected. -/
def connected (registry : Registry) (name : String) : Finset String :=
  (registry name).elim ∅ Device.connected

/-- A new device gets the linear function and no connection. -/
def register (registry : Registry) (name : String) : Registry :=
  if (registry name).isSome then registry
  else Function.update registry name (some ⟨.linear, ∅⟩)

/-- A change of one device, if it is registered. -/
def change (registry : Registry) (name : String) (what : Device → Device) : Registry :=
  Function.update registry name ((registry name).map what)

/-- What an event changes. -/
def handle (registry : Registry) : Event → Registry
  | .tcpData _ _ values => (pinged platform values).foldl register registry
  | .connect fromDevice toDevice _ =>
      if (registry toDevice).isSome then registry.change fromDevice fun device =>
        { device with connected := insert toDevice device.connected }
      else registry
  | .disconnect fromDevice toDevice _ => registry.change fromDevice fun device =>
      { device with connected := device.connected.erase toDevice }
  | .disconnectAll fromDevice _ => registry.change fromDevice fun device =>
      { device with connected := ∅ }
  | .release fromDevice _ => fun name => (registry name).map fun device =>
      { device with connected := device.connected.erase fromDevice }
  | .functionChange name newFunction =>
      match newFunction.bind find with
      | none => registry
      | some function => registry.change name fun device => { device with function := function }
  | _ => registry

/-- The answer to a request. -/
def answer (registry : Registry) : Event → List Output
  | .connect fromDevice toDevice referer =>
      if (registry fromDevice).isNone then danger (ConnectController.missing fromDevice) referer
      else if (registry toDevice).isNone then danger (ConnectController.missing toDevice) referer
      else success (fromDevice ++ " successfully connected to the " ++ toDevice) referer
  | .disconnect fromDevice toDevice referer =>
      if registry.connected fromDevice = ∅ then
        danger "Sorry, this connection doesn't exist." referer
      else success (toDevice ++ " successfully disconnected from the " ++ fromDevice) referer
  | .disconnectAll _ referer => success "All connections successfully dropped!" referer
  | .release _ referer => success "All connections has been released successfully." referer
  | .functionChange name newFunction =>
      if (registry name).isNone then
        [.flash "danger" (ConnectController.missing name), .redirect none]
      else match newFunction.bind find with
        | some function => [.send 200 "new_function" function.name]
        | none => [.send 500 "error" ("Function " ++ newFunction.getD "undefined" ++
            " is not allowed")]
  | _ => []

/-- The registry after a sequence of events, from none. -/
def after (events : List Event) : Registry := events.foldl (handle platform) fun _ => none

/-- The answers to a sequence of events, one after the other. -/
def answers (registry : Registry) : List Event → List Output
  | [] => []
  | event :: rest => registry.answer event ++ answers (registry.handle platform event) rest

theorem after_concat (events : List Event) (event : Event) :
    after platform (events ++ [event]) = (after platform events).handle platform event := by
  rw [after, List.foldl_append]
  rfl

theorem answers_append (registry : Registry) (first second : List Event) :
    answers platform registry (first ++ second) = answers platform registry first ++
      answers platform (first.foldl (handle platform) registry) second := by
  induction first generalizing registry with
  | nil => rfl
  | cons event rest ih => rw [List.cons_append, answers, answers, ih, List.append_assoc]; rfl

theorem isSome_register (registry : Registry) (name other : String) :
    (registry.register name other).isSome ↔ (registry other).isSome ∨ other = name := by
  unfold register
  split
  next hsome =>
      refine ⟨Or.inl, ?_⟩
      rintro (hold | rfl)
      · exact hold
      · exact hsome
  next =>
      by_cases heq : other = name
      · simp [heq]
      · simp [heq]

theorem isSome_change (registry : Registry) (name other : String) (what : Device → Device) :
    (registry.change name what other).isSome = (registry other).isSome := by
  unfold change
  by_cases heq : other = name
  · rw [heq, Function.update_self, Option.isSome_map]
  · rw [Function.update_of_ne heq]

theorem isSome_foldl_register (registry : Registry) (names : List String) (other : String) :
    (names.foldl register registry other).isSome ↔ (registry other).isSome ∨ other ∈ names := by
  induction names generalizing registry with
  | nil => simp
  | cons name rest ih => rw [List.foldl_cons, ih, isSome_register, List.mem_cons, or_assoc]

/-- Only PINGs register, and nothing is unregistered. -/
theorem isSome_handle (registry : Registry) (event : Event) (name : String) :
    (registry.handle platform event name).isSome ↔
      (registry name).isSome ∨ name ∈ event.pinged platform := by
  cases event with
  | tcpData ip port values => exact isSome_foldl_register _ _ _
  | connect fromDevice toDevice referer =>
      simp only [handle, Event.pinged, List.not_mem_nil, or_false]
      split
      · rw [isSome_change]
      · rfl
  | disconnect fromDevice toDevice referer =>
      simp [handle, Event.pinged, isSome_change]
  | disconnectAll fromDevice referer => simp [handle, Event.pinged, isSome_change]
  | release fromDevice referer => simp [handle, Event.pinged]
  | functionChange device newFunction =>
      simp only [handle, Event.pinged, List.not_mem_nil, or_false]
      cases newFunction.bind find with
      | none => rfl
      | some function => rw [isSome_change]
  | _ => simp [handle, Event.pinged]

theorem isSome_after (events : List Event) (name : String) :
    (after platform events name).isSome ↔ ∃ event ∈ events, name ∈ event.pinged platform := by
  induction events using List.reverseRecOn with
  | nil => simp [after]
  | append_singleton events event ih =>
      rw [after_concat, isSome_handle, ih]
      simp [List.mem_append, or_and_right, exists_or]

end Registry

/-! ## Registered devices -/

/-- Every announced device is asked about. -/
theorem mem_sends_of_pinged {ip : String} {port now : Nat} {values : List (Resp.Value String)}
    {name : String} (hmem : name ∈ pinged platform values) :
    (⟨devicesKey, .sismember name⟩, .pingSismember name ip port now) ∈
      (TCP.responses platform ip port now values).1 := by
  induction values with
  | nil => cases hmem
  | cons value rest ih =>
      unfold pinged at hmem
      unfold TCP.responses TCP.response
      cases hping : TCP.isPing platform.toLowerCase value with
      | none => simp [hping] at hmem
      | some ping =>
          cases ping with
          | false =>
              simp only [hping] at hmem
              simpa using ih hmem
          | true =>
              simp only [hping, List.mem_cons] at hmem
              rcases hmem with rfl | hrest
              · simp
              · simpa using Or.inr (ih hrest)

theorem pinged_of_mem_sends {ip : String} {port now : Nat} {values : List (Resp.Value String)}
    {entry : Command × Callback} (hmem : entry ∈ (TCP.responses platform ip port now values).1) :
    ∃ name ∈ pinged platform values,
      entry = (⟨devicesKey, .sismember name⟩, .pingSismember name ip port now) := by
  induction values with
  | nil => cases hmem
  | cons value rest ih =>
      unfold TCP.responses TCP.response at hmem
      unfold pinged
      cases hping : TCP.isPing platform.toLowerCase value with
      | none => simp [hping] at hmem
      | some ping =>
          cases ping with
          | false =>
              simp only [hping, Option.map_some, Bool.false_eq_true, if_false,
                List.nil_append] at hmem
              exact ih hmem
          | true =>
              simp only [hping, Option.map_some, if_true, List.singleton_append,
                List.mem_cons] at hmem
              rcases hmem with rfl | hrest
              · exact ⟨_, List.mem_cons_self, rfl⟩
              · obtain ⟨name, hname, heq⟩ := ih hrest
                exact ⟨name, List.mem_cons_of_mem _ hname, heq⟩

/-- The command that brought about a callback is determined by it. -/
theorem Follows.command_eq {asked callback : Callback} {n : Nat} {reply : Reply}
    {first second : Command} (hfirst : Follows asked n reply first callback)
    (hsecond : Follows asked n reply second callback) : first = second := by
  cases hfirst <;> cases hsecond <;> rfl

theorem Starts.command_eq {toLowerCase : String → String} {event : Event} {now : Nat}
    {callback : Callback} {first second : Command}
    (hfirst : Starts toLowerCase event now first callback)
    (hsecond : Starts toLowerCase event now second callback) : first = second := by
  cases hfirst with
  | ping hmem hping =>
      rename_i value
      generalize toLowerCase (TCP.secondText value) = name at hsecond
      cases hsecond
      rfl
  | _ =>
      cases hsecond
      rfl

section Asked

variable {s : State} {now : Nat} (hempty : s.outbox = []) {command : Command} {callback : Callback}

include hempty

/-- The reply to what a reply asks is outstanding, and shows the store before. -/
theorem replied_delivered {a : Pipeline.Answer Reply Callback}
    {rest : List (Pipeline.Answer Reply Callback)}
    (hfollows : Follows a.callback a.ordinal a.reply command callback)
    (hcallback : callback ≠ .ignored) :
    ∃ b ∈ (delivered platform s a rest now).inbox, b.callback = callback ∧
      b.reply = command.op.reply platform.order b.ordinal (s.store command.key) := by
  have hsent : callback ∈
      (onReply platform a.callback a.ordinal a.reply now s.memory).sends.map Prod.snd :=
    List.mem_map.mpr ⟨_, mem_of_follows platform now s.memory hfollows, rfl⟩
  rw [← (server platform).answersTo_callbacks s.executed s.store] at hsent
  obtain ⟨b, hmem, rfl⟩ := List.mem_map.mp hsent
  refine ⟨b, ?_, rfl, ?_⟩
  · rw [delivered_eq platform hempty]
    exact List.mem_append_right _ hmem
  · have hprompt := prompt_onReply platform a.callback a.ordinal a.reply now s.memory
    rcases answer_of_prompt platform hprompt hmem with hignored | ⟨other, hother, hreply⟩
    · exact absurd hignored hcallback
    · rcases follows_of_mem platform hother with hignored | hagain
      · exact absurd hignored hcallback
      · rw [hfollows.command_eq hagain]
        exact hreply

theorem replied_occurred {event : Event}
    (hsent : (command, callback) ∈ (onEvent platform event now s.memory).sends)
    (hcallback : callback ≠ .ignored) :
    ∃ b ∈ (occurred platform s event now).inbox, b.callback = callback ∧
      b.reply = command.op.reply platform.order b.ordinal (s.store command.key) := by
  have hstarts : Starts platform.toLowerCase event now command callback :=
    (starts_of_mem platform hsent).resolve_left hcallback
  have hlast : callback ∈ (onEvent platform event now s.memory).sends.map Prod.snd :=
    List.mem_map.mpr ⟨_, hsent, rfl⟩
  rw [← (server platform).answersTo_callbacks s.executed s.store] at hlast
  obtain ⟨b, hmem, rfl⟩ := List.mem_map.mp hlast
  refine ⟨b, ?_, rfl, ?_⟩
  · rw [occurred_eq platform hempty]
    exact List.mem_append_right _ hmem
  · have hprompt := prompt_onEvent platform event now s.memory
    rcases answer_of_prompt platform hprompt hmem with hignored | ⟨other, hother, hreply⟩
    · exact absurd hignored hcallback
    · rcases starts_of_mem platform hother with hignored | hagain
      · exact absurd hignored hcallback
      · rw [hstarts.command_eq hagain]
        exact hreply

end Asked

/-- The events that have been handled. -/
def handled (s : State) : List Event := s.history.map Prod.snd

/-- A device of the registry is registered, or a reply that registers it is
outstanding. -/
def Enrolled (s : State) : Prop :=
  ∀ name, (Registry.after platform (handled s) name).isSome ↔
    name ∈ devices s.store ∨ ∃ a ∈ s.inbox, registered a.callback a.reply = some name

/-- Only PINGs of new devices register. -/
theorem registered_eq_some {callback : Callback} {reply : Reply} {name : String} :
    registered callback reply = some name ↔
      truthy reply = false ∧ ∃ ip port epoch, callback = .pingSismember name ip port epoch := by
  cases callback with
  | pingSismember device ip port epoch =>
      simp only [registered, Callback.pingSismember.injEq]
      cases truthy reply with
      | true => simp
      | false => simp [eq_comm]
  | _ => simp [registered]

theorem pinged_of_starts {event : Event} {now : Nat} {memory : Memory} {command : Command}
    {name ip : String} {port epoch : Nat}
    (hmem : (command, .pingSismember name ip port epoch) ∈
      (onEvent platform event now memory).sends) :
    name ∈ event.pinged platform ∧ command = ⟨devicesKey, .sismember name⟩ := by
  cases event with
  | tcpData address source values =>
      rcases List.mem_cons.mp hmem with hcount | hping
      · cases hcount
      · obtain ⟨other, hother, heq⟩ := pinged_of_mem_sends platform hping
        cases heq
        exact ⟨hother, rfl⟩
  | _ =>
      rcases starts_of_mem platform hmem with hignored | hstarts
      · cases hignored
      · cases hstarts

/-- The first reply to a PING registers unless the device is registered. -/
theorem registered_of_sismember {n : Nat} {store : Store} {name ip : String} {port epoch : Nat}
    (hnew : name ∉ devices store) :
    registered (.pingSismember name ip port epoch)
      ((Operation.sismember name).reply platform.order n (store devicesKey)) = some name := by
  rw [registered_eq_some]
  refine ⟨?_, ip, port, epoch, rfl⟩
  rw [← Bool.not_eq_true, truthy_sismember]
  exact hnew

theorem preserved_enrolled :
    (server platform).Preserved (regularGuard platform) (Enrolled platform) where
  event := by
    intro s event now hempty _ hguard henrolled name
    change _ ↔ name ∈ devices (occurred platform s event now).store ∨
      ∃ a ∈ (occurred platform s event now).inbox, registered a.callback a.reply = some name
    have hhandled : handled (occurred platform s event now) = handled s ++ [event] := by
      rw [handled, occurred_history platform hempty, List.map_append]
      rfl
    have hdevices : devices (occurred platform s event now).store = devices s.store := by
      rw [occurred_store platform hempty]
      exact devices_eq (eventStore_devices platform event now s.memory s.executed s.store)
    change (Registry.after platform (handled (occurred platform s event now)) name).isSome ↔ _
    rw [hhandled, Registry.after_concat, Registry.isSome_handle, henrolled name, hdevices]
    constructor
    · rintro ((hold | ⟨a, hmem, hregistered⟩) | hpinged)
      · exact Or.inl hold
      · exact Or.inr ⟨a, mem_inbox_occurred_of_mem platform hempty hmem, hregistered⟩
      · by_cases hknown : name ∈ devices s.store
        · exact Or.inl hknown
        · right
          cases event with
          | tcpData ip port values =>
              have hsent : (⟨devicesKey, .sismember name⟩, .pingSismember name ip port now) ∈
                  (onEvent platform (.tcpData ip port values) now s.memory).sends :=
                List.mem_cons_of_mem _ (mem_sends_of_pinged platform hpinged)
              obtain ⟨b, hmem, hcallback, hreply⟩ :=
                replied_occurred platform hempty hsent fun heq => by cases heq
              refine ⟨b, hmem, ?_⟩
              rw [hcallback, hreply]
              exact registered_of_sismember platform hknown
          | _ => cases hpinged
    · rintro (hold | ⟨b, hmem, hregistered⟩)
      · exact Or.inl (Or.inl hold)
      · rw [occurred_eq platform hempty] at hmem
        rcases List.mem_append.mp hmem with hinbox | hnew
        · exact Or.inl (Or.inr ⟨b, hinbox, hregistered⟩)
        · obtain ⟨_, ip, port, epoch, hcallback⟩ := registered_eq_some.mp hregistered
          have hprompt := prompt_onEvent platform event now s.memory
          rcases answer_of_prompt platform hprompt hnew with hignored | ⟨command, hsent, _⟩
          · rw [hcallback] at hignored
            cases hignored
          · rw [hcallback] at hsent
            exact Or.inr (pinged_of_starts platform hsent).1
  deliver := by
    intro s a rest now hempty _ hinbox hguard henrolled name
    change (Registry.after platform (handled (delivered platform s a rest now)) name).isSome ↔
      name ∈ devices (delivered platform s a rest now).store ∨
        ∃ b ∈ (delivered platform s a rest now).inbox, registered b.callback b.reply = some name
    rw [handled, delivered_history platform hempty]
    refine (henrolled name).trans ?_
    constructor
    · rintro (hold | ⟨b, hmem, hregistered⟩)
      · left
        rw [delivered_store platform hempty]
        exact devices_subset_replyStore platform hguard.2.typed hold
      · rw [hinbox] at hmem
        rcases List.mem_cons.mp hmem with rfl | hrest
        · left
          rw [delivered_store platform hempty, devices_replyStore platform hguard.2.typed,
            hregistered]
          exact Finset.mem_insert_self _ _
        · exact Or.inr ⟨b, mem_inbox_delivered_of_rest platform hempty hrest, hregistered⟩
    · rintro (hmem | ⟨b, hmem, hregistered⟩)
      · rcases mem_devices_delivered platform now hempty hguard.2.typed hmem with hold | hregistered
        · exact Or.inl hold
        · exact Or.inr ⟨a, hinbox ▸ List.mem_cons_self, hregistered⟩
      · obtain ⟨_, ip, port, epoch, hcallback⟩ := registered_eq_some.mp hregistered
        have hrest : b ∈ rest := by
          apply mem_rest_of_delivered platform hempty hmem
          · rw [hcallback]
            exact fun heq => by cases heq
          · intro command hfollows
            rw [hcallback] at hfollows
            generalize a.callback = asked, a.reply = reply at hfollows
            cases hfollows
        exact Or.inr ⟨b, hinbox ▸ List.mem_cons_of_mem _ hrest, hregistered⟩

/-- With plain identifiers and whatever the interleaving, the devices registered at rest are
exactly those that some handled message has announced. -/
theorem registered_iff_pinged {schedule : List Action} (hplain : PlainSchedule platform schedule)
    (hquiet : ((server platform).run (boot empty) schedule).Quiescent) (name : String) :
    name ∈ devices ((server platform).run (boot empty) schedule).store ↔
      ∃ event ∈ handled ((server platform).run (boot empty) schedule),
        name ∈ event.pinged platform := by
  have henrolled := (preserved_enrolled platform).run (server platform) (boot empty) schedule
    (guarded_regular platform hplain) (fun name => by
      simp [handled, boot, Pipeline.State.start, Registry.after, Pipeline.Client.flush, devices,
        setAt, empty])
  rw [(server platform).flush_of_quiescent hquiet] at henrolled
  rw [← Registry.isSome_after, henrolled name, hquiet.2]
  simp

theorem registered_iff_pinged_single : "adc00000001" ∈
    devices ((server referencePlatform).run (boot empty)
      (.event (.tcpData "10.0.0.2" 49152 [samplePing]) 0 :: rounds 1030)).store := by
  have hnew : "adc00000001" ∉ devices empty := Finset.notMem_empty _
  have hquiet := quiescent_registration referencePlatform isPingOf_samplePing hnew
    "10.0.0.2" 49152 0
  rw [registered_iff_pinged referencePlatform (plainSchedule_samplePing _ _ _ _) hquiet,
    run_ping_new_rounds referencePlatform isPingOf_samplePing hnew _ _ _ le_rfl]
  refine ⟨_, List.mem_singleton_self _, ?_⟩
  change "adc00000001" ∈ pinged referencePlatform [samplePing]
  rw [pinged, isPingOf_samplePing.1, isPingOf_samplePing.2]
  exact List.mem_cons_self

end RealTimeWs
