import RealTimeWs.Server.Registration
import RealTimeWs.Server.Delivery

/-! # Tables that the forwarder reads

A device is only forwarded once it has a connection, and it can only be connected
after a request has found it registered and waited for one more reply. Replies
arrive in order, so by then the registration has written its table: the step that
a registration still owes always lies before the reply that would let a request
overtake it.
-/

namespace RealTimeWs

open Redis FunctionsService

variable (platform : Platform)

/-! ## Connections -/

/-- The devices that a device is connected to. -/
def connections (store : Store) (device : String) : Finset String :=
  setAt store (connectionKey device)

theorem setAt_srem_subset {value : Option Value} {member other : String} {store : Store}
    {key : String} (hstore : store key = (Operation.srem member).update value)
    (hmem : other ∈ setAt store key) :
    ∃ members, value = some (.set members) ∧ other ∈ members := by
  rw [setAt, hstore] at hmem
  cases value with
  | none => simp [Operation.update] at hmem
  | some held =>
      cases held with
      | set members =>
          refine ⟨members, rfl, ?_⟩
          by_cases hlast : members.erase member = ∅
          · simp [Operation.update, hlast] at hmem
          · simp only [Operation.update, hlast, if_false] at hmem
            exact Finset.mem_of_mem_erase hmem
      | _ => simp [Operation.update] at hmem

/-- A reply adds a connection only where a request has found both devices. -/
theorem connections_delivered {s : State} {a : Pipeline.Answer Reply Callback}
    {rest : List (Pipeline.Answer Reply Callback)} {now : Nat} (hempty : s.outbox = [])
    (hinbox : s.inbox = a :: rest) (hregular : Regular s) {device : String}
    (hsome : (connections (delivered platform s a rest now).store device).Nonempty) :
    (connections s.store device).Nonempty ∨
      ∃ toDevice referer, a.callback = .connectTo device toDevice referer := by
  have hstore := replyStore_connection platform a.callback a.ordinal a.reply now s.memory
    s.executed s.store (fun written hwritten =>
      plain_of_rewritten hregular (hinbox ▸ List.mem_cons_self) hwritten) device
  have hdelivered : (delivered platform s a rest now).store = _ := delivered_store platform hempty
  rw [← hdelivered] at hstore
  obtain ⟨other, hother⟩ := hsome
  have hsame : ∀ (_ : (delivered platform s a rest now).store (connectionKey device) =
      s.store (connectionKey device)), (connections s.store device).Nonempty := by
    intro hsame
    rw [connections, setAt, hsame] at hother
    exact ⟨other, hother⟩
  have hremoved : ∀ member (_ : (delivered platform s a rest now).store (connectionKey device) =
      (Operation.srem member).update (s.store (connectionKey device))),
      (connections s.store device).Nonempty := by
    intro member hremoved
    obtain ⟨members, hvalue, hmem⟩ := setAt_srem_subset hremoved hother
    refine ⟨other, ?_⟩
    rw [connections, setAt, hvalue]
    exact hmem
  cases hlinked : linked a.callback a.reply with
  | none =>
      rw [hlinked] at hstore
      exact Or.inl (hsame hstore)
  | some change =>
      obtain ⟨name, op⟩ := change
      rw [hlinked] at hstore
      by_cases heq : name = device
      · subst heq
        simp only [opsFor, if_true, applyAll_cons, applyAll_nil] at hstore
        obtain ⟨ordinal, reply, callback⟩ := a
        cases callback with
        | connectTo fromDevice toDevice referer =>
            simp only [linked] at hlinked
            split at hlinked
            · cases hlinked
              exact Or.inr ⟨_, _, rfl⟩
            · cases hlinked
        | disconnectExists fromDevice toDevice referer =>
            simp only [linked] at hlinked
            split at hlinked
            · cases hlinked
              exact Or.inl (hremoved _ hstore)
            · cases hlinked
        | releaseSismember other fromDevice =>
            simp only [linked] at hlinked
            split at hlinked
            · cases hlinked
              exact Or.inl (hremoved _ hstore)
            · cases hlinked
        | _ => cases hlinked
      · simp only [opsFor, heq, if_false, applyAll_nil] at hstore
        exact Or.inl (hsame hstore)

theorem connections_occurred {s : State} {event : Event} {now : Nat} (hempty : s.outbox = [])
    (hplain : event.PlainIds platform) {device : String}
    (hsome : (connections (occurred platform s event now).store device).Nonempty) :
    (connections s.store device).Nonempty := by
  obtain ⟨other, hother⟩ := hsome
  rw [connections, setAt, occurred_store platform hempty] at hother
  rcases eventStore_connection platform event now s.memory s.executed s.store
    (plain_of_accepted platform hplain) device with hsame | hnone
  · rw [hsame] at hother
    exact ⟨other, hother⟩
  · rw [hnone] at hother
    exact absurd hother (Finset.notMem_empty other)

/-! ## What requests and ticks may rely on -/

/-- The device whose table an outstanding reply of the forwarder leads to. -/
def forwards (a : Pipeline.Answer Reply Callback) : Option String :=
  match a.callback, a.reply with
  | .forwardConnected device, .members (_ :: _) => some device
  | .forwardLindex device _, _ => some device
  | .forwardHgetall device _ _ _, _ => some device
  | .forwardHget device _ _ _ _ _, _ => some device
  | _, _ => none

/-- A member in the reply is a connection in the database. -/
theorem connections_of_smembers {store : Store} {n : Nat} {device other : String}
    (hforwards : forwards ⟨n, Operation.smembers.reply platform.order n
      (store (connectionKey device)), .forwardConnected device⟩ = some other) :
    other = device ∧ (connections store device).Nonempty := by
  rw [connections, setAt]
  cases hvalue : store (connectionKey device) with
  | none => simp [hvalue, Operation.reply, forwards] at hforwards
  | some held =>
      cases held with
      | set members =>
          simp only [hvalue, Operation.reply] at hforwards
          cases hlist : platform.order.enumerate n members with
          | nil => simp [hlist, forwards] at hforwards
          | cons first others =>
              simp only [hlist, forwards, Option.some.injEq] at hforwards
              refine ⟨hforwards.symm, first, ?_⟩
              apply (platform.order.mem_enumerate n members first).mp
              rw [hlist]
              exact List.mem_cons_self
      | _ => simp [hvalue, Operation.reply, forwards] at hforwards

/-- What is still owed to a device lies before the reply that relies on it. -/
structure Ready (s : State) : Prop where
  connected : ∀ device, (connections s.store device).Nonempty →
    device ∈ devices s.store ∧ Complete platform s.store device
  connectTo : ∀ a ∈ s.inbox, ∀ device toDevice referer,
    a.callback = .connectTo device toDevice referer →
      Complete platform s.store device ∨
        ∃ b ∈ s.inbox, b.callback = .pingHmset device ∧ b.ordinal < a.ordinal
  connectFrom : ∀ a ∈ s.inbox, ∀ device toDevice referer,
    a.callback = .connectFrom device toDevice referer → truthy a.reply = true →
      Complete platform s.store device ∨ Awaits s (.pingHmset device) ∨
        ∃ b ∈ s.inbox, (∃ ip port epoch, b.callback = .pingSadd device ip port epoch) ∧
          b.ordinal < a.ordinal
  forwarded : ∀ a ∈ s.inbox, ∀ device, forwards a = some device →
    device ∈ devices s.store ∧ Complete platform s.store device

/-- The guard under which the forwarder is studied. -/
def tableGuard : State → Action → Prop :=
  fun s action => regularGuard platform s action ∧ Tabled platform s

theorem guarded_table {schedule : List Action} (hplain : PlainSchedule platform schedule) :
    (server platform).Guarded (tableGuard platform) (boot empty) schedule :=
  (preserved_tabled platform).guarded (server platform) (boot empty) schedule
    (guarded_regular platform hplain) (tabled_boot_empty platform)

section Event

variable {s : State} {event : Event} {now : Nat} (hempty : s.outbox = [])
variable (hguard : tableGuard platform s (.event event now)) (hready : Ready platform s)

include hempty hguard hready

theorem ready_occurred : Ready platform (occurred platform s event now) := by
  have hplain := hguard.1.1.1 event now rfl
  have hdevices := devices_occurred platform now hempty event
  have hkeep : ∀ device, device ∈ devices s.store ∧ Complete platform s.store device →
      device ∈ devices (occurred platform s event now).store ∧
        Complete platform (occurred platform s event now).store device := by
    rintro device ⟨hmem, hcomplete⟩
    refine ⟨by rwa [hdevices], ?_⟩
    exact complete_occurred platform now hempty event (hguard.1.2.plain device hmem) hcomplete
  refine ⟨?_, ?_, ?_, ?_⟩
  · intro device hsome
    exact hkeep device (hready.connected device (connections_occurred platform hempty hplain hsome))
  · intro a hmem device toDevice referer hcallback
    rcases mem_inbox_occurred platform hempty hmem with hold | ⟨_, hignored | hasked⟩
    · have hokay := hguard.1.2.okay a hold
      simp only [Okay, hcallback] at hokay
      rcases hready.connectTo a hold device toDevice referer hcallback with hcomplete | howed
      · exact Or.inl (hkeep device ⟨hokay, hcomplete⟩).2
      · obtain ⟨b, hb, hrest⟩ := howed
        exact Or.inr ⟨b, mem_inbox_occurred_of_mem platform hempty hb, hrest⟩
    · rw [hignored] at hcallback
      cases hcallback
    · obtain ⟨command, hstarts, _⟩ := hasked
      rw [hcallback] at hstarts
      cases hstarts
  · intro a hmem device toDevice referer hcallback htruthy
    have howed : (device ∈ devices s.store) ∧ (Complete platform s.store device ∨
        Awaits s (.pingHmset device) ∨
        ∃ b ∈ s.inbox, (∃ ip port epoch, b.callback = .pingSadd device ip port epoch) ∧
          b.ordinal < a.ordinal) := by
      rcases mem_inbox_occurred platform hempty hmem with hold | ⟨hlater, hignored | hasked⟩
      · have hokay := hguard.1.2.okay a hold
        simp only [Okay, hcallback] at hokay
        exact ⟨hokay htruthy,
          hready.connectFrom a hold device toDevice referer hcallback htruthy⟩
      · rw [hignored] at hcallback
        cases hcallback
      · -- The request has just found the device, so its registration is already on its way.
        obtain ⟨command, hstarts, hreply⟩ := hasked
        rw [hcallback] at hstarts
        rw [hreply] at htruthy
        cases hstarts with
        | connect =>
            have hmem := mem_devices_of_sismember platform htruthy
            refine ⟨hmem, ?_⟩
            rcases hguard.2 device hmem with hcomplete | hawaits | hannounced
            · exact Or.inl hcomplete
            · exact Or.inr (Or.inl hawaits)
            · obtain ⟨ip, port, epoch, b, hb, hsadd⟩ := hannounced
              exact Or.inr (Or.inr ⟨b, hb, ⟨ip, port, epoch, hsadd⟩,
                lt_of_lt_of_le (hguard.1.1.2.below b hb) hlater⟩)
    obtain ⟨hdevice, hcomplete | hawaits | ⟨b, hb, hrest⟩⟩ := howed
    · exact Or.inl (hkeep device ⟨hdevice, hcomplete⟩).2
    · exact Or.inr (Or.inl (awaits_occurred platform now hempty event hawaits))
    · exact Or.inr (Or.inr ⟨b, mem_inbox_occurred_of_mem platform hempty hb, hrest⟩)
  · intro a hmem device hforwards
    rcases mem_inbox_occurred platform hempty hmem with hold | ⟨_, hignored | hasked⟩
    · exact hkeep device (hready.forwarded a hold device hforwards)
    · obtain ⟨ordinal, reply, callback⟩ := a
      simp only at hignored
      subst hignored
      cases hforwards
    · obtain ⟨command, hstarts, _⟩ := hasked
      obtain ⟨ordinal, reply, callback⟩ := a
      cases hstarts <;> cases hforwards

end Event

section Deliver

variable {s : State} {a : Pipeline.Answer Reply Callback}
variable {rest : List (Pipeline.Answer Reply Callback)} {now : Nat} (hempty : s.outbox = [])
variable (hinbox : s.inbox = a :: rest) (hguard : tableGuard platform s (.deliver now))
variable (hready : Ready platform s)

include hempty hguard in
/-- Being registered with a complete table is kept by every reply. -/
theorem settled_delivered {device : String}
    (hsettled : device ∈ devices s.store ∧ Complete platform s.store device) :
    device ∈ devices (delivered platform s a rest now).store ∧
      Complete platform (delivered platform s a rest now).store device := by
  refine ⟨?_, ?_⟩
  · rw [delivered_store platform hempty]
    exact devices_subset_replyStore platform hguard.1.2.typed hsettled.1
  · exact complete_delivered platform now hempty (hguard.1.2.plain device hsettled.1) hsettled.2

include hempty hinbox hguard hready

theorem ready_delivered_connected (device : String)
    (hsome : (connections (delivered platform s a rest now).store device).Nonempty) :
    device ∈ devices (delivered platform s a rest now).store ∧
      Complete platform (delivered platform s a rest now).store device := by
  apply settled_delivered platform hempty hguard
  rcases connections_delivered platform hempty hinbox hguard.1.2 hsome with
    hold | ⟨toDevice, referer, hcallback⟩
  · exact hready.connected device hold
  · have hmem : a ∈ s.inbox := hinbox ▸ List.mem_cons_self
    have hokay := hguard.1.2.okay a hmem
    simp only [Okay, hcallback] at hokay
    refine ⟨hokay, ?_⟩
    rcases hready.connectTo a hmem device toDevice referer hcallback with
      hcomplete | ⟨b, hb, _, hbefore⟩
    · exact hcomplete
    · exact absurd hbefore (hguard.1.1.2.not_lt_head hinbox hb)

theorem ready_delivered_connectTo (b : Pipeline.Answer Reply Callback)
    (hmem : b ∈ (delivered platform s a rest now).inbox) (device toDevice : String)
    (referer : Option String) (hcallback : b.callback = .connectTo device toDevice referer) :
    Complete platform (delivered platform s a rest now).store device ∨
      ∃ c ∈ (delivered platform s a rest now).inbox, c.callback = .pingHmset device ∧
        c.ordinal < b.ordinal := by
  have hfirst : a ∈ s.inbox := hinbox ▸ List.mem_cons_self
  rcases mem_inbox_delivered platform hempty hmem with hrest | ⟨hlater, hignored | hasked⟩
  · have hold : b ∈ s.inbox := hinbox ▸ List.mem_cons_of_mem _ hrest
    have hokay := hguard.1.2.okay b hold
    simp only [Okay, hcallback] at hokay
    rcases hready.connectTo b hold device toDevice referer hcallback with
      hcomplete | ⟨c, hc, howed, hbefore⟩
    · exact Or.inl (settled_delivered platform hempty hguard ⟨hokay, hcomplete⟩).2
    · rw [hinbox] at hc
      rcases List.mem_cons.mp hc with rfl | hc
      · exact Or.inl (complete_of_pingHmset platform now hempty
          (hguard.1.2.plain device hokay) howed)
      · exact Or.inr ⟨c, mem_inbox_delivered_of_rest platform hempty hc, howed, hbefore⟩
  · rw [hignored] at hcallback
    cases hcallback
  · -- The request has just seen its first reply; the announcement lies behind it.
    obtain ⟨command, hfollows, _⟩ := hasked
    rw [hcallback] at hfollows
    have hconnect : a.callback = .connectFrom device toDevice referer ∧
        truthy a.reply = true := by
      obtain ⟨ordinal, reply, callback⟩ := a
      cases hfollows with
      | connectTo hfound => exact ⟨rfl, hfound⟩
    have hokay := hguard.1.2.okay a hfirst
    simp only [Okay, hconnect.1] at hokay
    rcases hready.connectFrom a hfirst device toDevice referer hconnect.1 hconnect.2 with
      hcomplete | ⟨c, hc, howed⟩ | ⟨c, hc, _, hbefore⟩
    · exact Or.inl (settled_delivered platform hempty hguard
        ⟨hokay hconnect.2, hcomplete⟩).2
    · have hbelow := hguard.1.1.2.below c hc
      rw [hinbox] at hc
      rcases List.mem_cons.mp hc with rfl | hc
      · rw [hconnect.1] at howed
        cases howed
      · exact Or.inr ⟨c, mem_inbox_delivered_of_rest platform hempty hc, howed,
          lt_of_lt_of_le hbelow hlater⟩
    · exact absurd hbefore (hguard.1.1.2.not_lt_head hinbox hc)

theorem ready_delivered_connectFrom (b : Pipeline.Answer Reply Callback)
    (hmem : b ∈ (delivered platform s a rest now).inbox) (device toDevice : String)
    (referer : Option String) (hcallback : b.callback = .connectFrom device toDevice referer)
    (htruthy : truthy b.reply = true) :
    Complete platform (delivered platform s a rest now).store device ∨
      Awaits (delivered platform s a rest now) (.pingHmset device) ∨
      ∃ c ∈ (delivered platform s a rest now).inbox,
        (∃ ip port epoch, c.callback = .pingSadd device ip port epoch) ∧
          c.ordinal < b.ordinal := by
  rcases mem_inbox_delivered platform hempty hmem with hrest | ⟨_, hignored | hasked⟩
  · have hold : b ∈ s.inbox := hinbox ▸ List.mem_cons_of_mem _ hrest
    have hokay := hguard.1.2.okay b hold
    simp only [Okay, hcallback] at hokay
    rcases hready.connectFrom b hold device toDevice referer hcallback htruthy with
      hcomplete | hawaits | ⟨c, hc, ⟨ip, port, epoch, hsadd⟩, hbefore⟩
    · exact Or.inl (settled_delivered platform hempty hguard
        ⟨hokay htruthy, hcomplete⟩).2
    · rcases awaits_delivered platform now hempty hinbox hawaits with hhead | hlater
      · exact Or.inl (complete_of_pingHmset platform now hempty
          (hguard.1.2.plain device (hokay htruthy)) hhead)
      · exact Or.inr (Or.inl hlater)
    · rw [hinbox] at hc
      rcases List.mem_cons.mp hc with rfl | hc
      · right
        left
        apply exists_inbox_delivered platform hempty
        rw [hsadd]
        exact .pingHmset
      · exact Or.inr (Or.inr ⟨c, mem_inbox_delivered_of_rest platform hempty hc,
          ⟨ip, port, epoch, hsadd⟩, hbefore⟩)
  · rw [hignored] at hcallback
    cases hcallback
  · obtain ⟨command, hfollows, _⟩ := hasked
    rw [hcallback] at hfollows
    obtain ⟨ordinal, reply, callback⟩ := a
    cases hfollows

theorem ready_delivered_forwarded (b : Pipeline.Answer Reply Callback)
    (hmem : b ∈ (delivered platform s a rest now).inbox) (device : String)
    (hforwards : forwards b = some device) :
    device ∈ devices (delivered platform s a rest now).store ∧
      Complete platform (delivered platform s a rest now).store device := by
  have hfirst : a ∈ s.inbox := hinbox ▸ List.mem_cons_self
  apply settled_delivered platform hempty hguard
  rcases mem_inbox_delivered platform hempty hmem with hrest | ⟨_, hignored | hasked⟩
  · exact hready.forwarded b (hinbox ▸ List.mem_cons_of_mem _ hrest) device hforwards
  · obtain ⟨ordinal, reply, callback⟩ := b
    simp only at hignored
    subst hignored
    cases hforwards
  · obtain ⟨command, hfollows, hreply⟩ := hasked
    obtain ⟨ordinal, reply, callback⟩ := b
    obtain ⟨askedAt, asked, cause⟩ := a
    cases hfollows with
    | forwardConnected hdevice =>
        simp only at hreply
        subst hreply
        obtain ⟨rfl, hsome⟩ := connections_of_smembers platform hforwards
        exact hready.connected device hsome
    | forwardLindex hsome =>
        obtain ⟨first, others, rfl⟩ := List.exists_cons_of_ne_nil hsome
        cases hforwards
        exact hready.forwarded _ hfirst device rfl
    | forwardHgetall =>
        cases hforwards
        exact hready.forwarded _ hfirst device rfl
    | forwardHget hactive =>
        cases hforwards
        exact hready.forwarded _ hfirst device rfl
    | _ => cases hforwards

end Deliver

theorem preserved_ready : (server platform).Preserved (tableGuard platform) (Ready platform) where
  event := by
    intro s event now hempty _ hguard hready
    exact ready_occurred platform hempty hguard hready
  deliver := by
    intro s a rest now hempty _ hinbox hguard hready
    exact ⟨ready_delivered_connected platform hempty hinbox hguard hready,
      ready_delivered_connectTo platform hempty hinbox hguard hready,
      ready_delivered_connectFrom platform hempty hinbox hguard hready,
      ready_delivered_forwarded platform hempty hinbox hguard hready⟩

theorem ready_boot_empty : Ready platform ((server platform).flush (boot empty)) := by
  refine ⟨?_, ?_, ?_, ?_⟩
  · rintro device ⟨other, hother⟩
    exact absurd hother (Finset.notMem_empty other)
  all_goals
    intro a hmem
    cases hmem

/-! ## The lookup -/

/-- What the lookup of the forwarder meets when it executes. -/
def MeetsTable (store : Store) (command : Command) (callback : Callback) : Prop :=
  ∀ device connected reading readAt record recordAt,
    callback = .forwardHget device connected reading readAt record recordAt →
      (∃ field, command = ⟨tableKey device, .hget field⟩) ∧ Complete platform store device

theorem sends_meetsTable : (server platform).Sends (tableGuard platform) (Ready platform)
    (MeetsTable platform) where
  event := by
    intro s event now _ _ _
    apply Pipeline.Client.meets_of_forall
    intro command callback hmem store device connected reading readAt record recordAt hcallback
    rcases starts_of_mem platform hmem with hignored | hstarts
    · rw [hignored] at hcallback
      cases hcallback
    · rw [hcallback] at hstarts
      cases hstarts
  deliver := by
    intro s a rest now _ hinbox _ hready
    have hfirst : a ∈ s.inbox := hinbox ▸ List.mem_cons_self
    by_cases hlast : ∃ device connected reading readAt,
        a.callback = .forwardHgetall device connected reading readAt
    · -- The turn sends the lookup alone, so it executes on the database the turn sees.
      obtain ⟨device, connected, reading, readAt, hcallback⟩ := hlast
      have hcomplete : Complete platform s.store device := by
        refine (hready.forwarded a hfirst device ?_).2
        rw [forwards, hcallback]
      rw [hcallback]
      cases hreply : a.reply with
      | object fields =>
          cases fields with
          | none => trivial
          | some record =>
              simp only [server, onReply, UDP.forwardHgetall, finish]
              split
              · refine ⟨?_, trivial⟩
                rintro _ _ _ _ _ _ ⟨⟩
                exact ⟨⟨_, rfl⟩, hcomplete⟩
              · trivial
      | _ => trivial
    · apply Pipeline.Client.meets_of_forall
      intro command callback hmem store device connected reading readAt record recordAt hcallback
      rcases follows_of_mem platform hmem with hignored | hfollows
      · rw [hignored] at hcallback
        cases hcallback
      · rw [hcallback] at hfollows
        obtain ⟨ordinal, reply, asked⟩ := a
        cases hfollows with
        | forwardHget hactive => exact absurd ⟨_, _, _, _, rfl⟩ hlast

/-- Whenever the lookup of the forwarder is the next command to execute, the table
is the complete one that a single function has written. -/
theorem lookup_meets_complete_table {schedule : List Action}
    (hplain : PlainSchedule platform schedule) {command : Command} {device : String}
    {connected : List String} {reading : Reply} {readAt : Nat} {record : Hash} {recordAt : Nat}
    {rest : Sends}
    (hnext : ((server platform).run (boot empty) schedule).outbox =
      (command, .forwardHget device connected reading readAt record recordAt) :: rest) :
    (∃ field, command = ⟨tableKey device, .hget field⟩) ∧
      ∃ function ∈ allowed, ∃ fields,
        ((server platform).run (boot empty) schedule).store (tableKey device) =
          some (.hash fields) ∧
        fields = table platform.curves function ∧
        (∀ field, (fields field).isSome ↔ ∃ i < 1024, field = Nat.repr i) ∧
        ∀ i < 1024, ∃ entry : Int, 0 ≤ entry ∧ entry ≤ 1023 ∧
          fields (Nat.repr i) = some entry.repr := by
  have hmeets := (sends_meetsTable platform).run (server platform) (preserved_ready platform)
    (boot empty) schedule (guarded_table platform hplain) (ready_boot_empty platform) trivial
  rw [hnext] at hmeets
  obtain ⟨hcommand, function, htable⟩ := hmeets.1 _ _ _ _ _ _ rfl
  refine ⟨hcommand, function, by cases function <;> decide, _, htable, rfl,
    table_isSome platform.curves function, ?_⟩
  intro i hlt
  obtain ⟨hlow, hhigh⟩ := value_bounds platform.curves function i
  exact ⟨_, hlow, hhigh, table_repr platform.curves function i hlt⟩

/-- A device that is connected to itself reaches its first lookup. -/
theorem lookup_meets_complete_table_loop : ∃ schedule,
    PlainSchedule referencePlatform schedule ∧
      ∃ command connected reading readAt record recordAt rest,
        ((server referencePlatform).run (boot empty) schedule).outbox =
          (command, .forwardHget "adc00000001" connected reading readAt record recordAt) ::
            rest ∧
        (∃ field, command = ⟨tableKey "adc00000001", .hget field⟩) ∧
        ∃ function ∈ allowed, ∃ fields,
          ((server referencePlatform).run (boot empty) schedule).store
            (tableKey "adc00000001") = some (.hash fields) ∧
          fields = table referencePlatform.curves function := by
  have hplain := plainSchedule_loopSchedule "10.0.0.2" 4000 "10.0.0.2" 4001
    (show Pipeline.Client.EventFree (replyRound 0 1 ++ [.deliver 0]) by
      intro event now hmem
      simp [replyRound] at hmem)
  obtain ⟨s, n, m, record, hrun, _, _, houtbox, _⟩ := exists_lookup referencePlatform
    (by decide) "10.0.0.2" 4000 isPingOf_samplePing accept_sampleReading "10.0.0.2" 4001
  rw [← hrun] at houtbox
  obtain ⟨hcommand, function, hallowed, fields, hstore, hfields, _⟩ :=
    lookup_meets_complete_table referencePlatform hplain houtbox
  exact ⟨_, hplain, _, _, _, _, _, _, _, houtbox, hcommand, function, hallowed, fields, hstore,
    hfields⟩

end RealTimeWs
