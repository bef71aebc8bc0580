import RealTimeWs.Server.Activity

/-! # The time of the last message

A datagram is stamped and its stamp is sent in one turn. A PING is stamped when it
arrives, and its stamp is sent when the membership test is answered, or even one
answer later for a new device. An older stamp may therefore be written after a
newer one; apart from such late PINGs the stored time never goes back.
-/

namespace RealTimeWs

open Redis FunctionsService

variable (platform : Platform) (device : String)

/-! ## What a command does to the time -/

/-- The command leaves the time alone. -/
def Keeps (command : Command) : Prop :=
  ∀ order n store, lastPing (execute order n store command).1 device = lastPing store device

/-- The command writes no time but one of the given ones. -/
def Dates (stamps : Nat → Prop) (command : Command) : Prop :=
  ∀ order n store, lastPing (execute order n store command).1 device = lastPing store device ∨
    ∃ stamp, stamps stamp ∧
      lastPing (execute order n store command).1 device = some stamp.repr

variable {device}

theorem Keeps.dates {command : Command} (hkeeps : Keeps device command) {stamps : Nat → Prop} :
    Dates device stamps command :=
  fun order n store => Or.inl (hkeeps order n store)

theorem keeps_of_ne {command : Command} (hne : command.key ≠ recordKey device) :
    Keeps device command := by
  intro order n store
  rw [lastPing, fieldAt, execute_of_ne _ _ _ _ _ hne.symm, lastPing, fieldAt]

/-- Commands that never change this field of any value. -/
theorem keeps_of_update {command : Command}
    (hupdate : ∀ value,
      fieldsOf (command.op.update value) "last_ping" = fieldsOf value "last_ping") :
    Keeps device command := by
  intro order n store
  by_cases hkey : command.key = recordKey device
  · rw [lastPing, fieldAt, ← hkey, execute_key, hupdate, lastPing, fieldAt, hkey]
  · exact keeps_of_ne hkey order n store

theorem keeps_of_isRead {command : Command} (hread : command.op.isRead = true) :
    Keeps device command :=
  keeps_of_update fun value => by rw [Operation.update_of_isRead hread]

theorem keeps_lpush (key element : String) : Keeps device ⟨key, .lpush element⟩ := by
  apply keeps_of_update
  intro value
  cases value with
  | none => rfl
  | some held => cases held <;> rfl

theorem keeps_ltrim (key : String) (start stop : Nat) :
    Keeps device ⟨key, .ltrim start stop⟩ := by
  apply keeps_of_update
  intro value
  cases value with
  | none => rfl
  | some held =>
      cases held with
      | list elements =>
          simp only [Operation.update]
          split <;> rfl
      | _ => rfl

theorem keeps_hincrby (key : String) : Keeps device ⟨key, .hincrby "msg_count" 1⟩ := by
  apply keeps_of_update
  intro value
  by_cases hadmits : Kind.hash.Admits value
  · rw [fieldsOf_hincrby hadmits, Hash.increment_of_ne _ _ (by decide)]
  · cases value with
    | none => exact absurd trivial hadmits
    | some held =>
        cases held with
        | hash fields => exact absurd trivial hadmits
        | _ => rfl

theorem keeps_hmset (key : String) {pairs : List (String × String)}
    (hnot : "last_ping" ∉ pairs.map Prod.fst) : Keeps device ⟨key, .hmset pairs⟩ := by
  apply keeps_of_update
  intro value
  rcases fieldsOf_hmset_eq value pairs with hsame | hset
  · rw [hsame]
  · rw [hset, Hash.setAll_of_not_mem _ _ _ hnot]

theorem dates_hmset (key : String) {pairs : List (String × String)} {stamps : Nat → Prop}
    {stamp : Nat} (hstamp : stamps stamp)
    (hset : ∀ fields : Hash, fields.setAll pairs "last_ping" = some stamp.repr) :
    Dates device stamps ⟨key, .hmset pairs⟩ := by
  intro order n store
  by_cases hkey : key = recordKey device
  · subst hkey
    rw [lastPing, fieldAt, execute_key]
    rcases fieldsOf_hmset_eq (store (recordKey device)) pairs with hsame | hfields
    · left
      rw [hsame, lastPing, fieldAt]
    · right
      refine ⟨stamp, hstamp, ?_⟩
      rw [hfields, hset]
  · exact Or.inl (keeps_of_ne hkey order n store)

/-! ## What a turn does to it -/

/-- The device and the stamp that a reply writes. -/
def stamped : Callback → Reply → Option (String × Nat)
  | .pingSismember device _ _ epoch, reply => if truthy reply then some (device, epoch) else none
  | .pingSadd device _ _ epoch, _ => some (device, epoch)
  | _, _ => none

/-- The commands of a record write no time but the stamp of the reply. -/
theorem dates_of_records {callback : Callback} {reply : Reply} {name : String}
    {pairs : List (String × String)} {counts : Bool}
    (hrecords : Records callback reply name pairs counts) {op : Operation}
    (hop : op ∈ recordOps pairs counts) (key : String) :
    Dates device (fun stamp => stamped callback reply = some (name, stamp)) ⟨key, op⟩ := by
  have hops : op = .hmset pairs ∨ op = .hincrby "msg_count" 1 := by
    cases pairs <;> cases counts <;> simp_all [recordOps]
  rcases hops with rfl | rfl
  · cases hrecords with
    | known hknown => exact dates_hmset key (by simp [stamped, hknown]; rfl) fun fields => by simp
    | registration => exact dates_hmset key rfl fun fields => by simp
    | _ => exact (keeps_hmset key (by simp)).dates
  · exact (keeps_hincrby key).dates

/-- What a reply sends keeps the time, apart from its own stamp of the device, if no
table is written where the record is. -/
theorem dates_of_reply {callback : Callback} {ordinal : Nat} {reply : Reply} {now : Nat}
    {memory : Memory} (hspares : ∀ written, rewritten callback reply = some written →
      tableKey written.1 ≠ recordKey device)
    {entry : Command × Callback}
    (hmem : entry ∈ (onReply platform callback ordinal reply now memory).sends) :
    Dates device (fun stamp => stamped callback reply = some (device, stamp)) entry.1 := by
  obtain ⟨command, asked⟩ := entry
  cases hread : command.op.isRead with
  | true => exact (keeps_of_isRead hread).dates
  | false =>
      have hwrite : command ∈ replyWrites platform.curves callback reply now := by
        rw [← writes_onReply platform callback ordinal reply now memory]
        exact mem_writes hmem hread
      simp only [replyWrites, List.mem_append, List.mem_map, List.mem_flatMap,
        Option.mem_toList] at hwrite
      rcases hwrite with (((hregistered | hrewritten) | hlinked) | hrecorded) | hcounted
      · obtain ⟨name, _, rfl⟩ := hregistered
        exact (keeps_of_ne (recordKey_ne_devicesKey device).symm).dates
      · obtain ⟨written, hwritten, hcommand⟩ := hrewritten
        refine (keeps_of_ne ?_).dates
        rw [(commands_spec _ _ _ command hcommand).1]
        exact hspares written hwritten
      · obtain ⟨change, _, rfl⟩ := hlinked
        exact (keeps_of_ne (recordKey_ne_connectionKey device _).symm).dates
      · obtain ⟨⟨name, ops⟩, hchange, op, hop, rfl⟩ := hrecorded
        obtain ⟨pairs, counts, hrecords, rfl⟩ := records_of_recorded hchange
        by_cases hname : name = device
        · subst hname
          exact dates_of_records hrecords hop _
        · refine (keeps_of_ne ?_).dates
          simpa using hname
      · split at hcounted
        · rw [List.mem_singleton.mp hcounted]
          exact (keeps_of_ne (recordKey_ne_msgCountKey device).symm).dates
        · cases hcounted

/-- What an event sends keeps the time, apart from the stamp of a datagram. -/
theorem dates_of_event {event : Event} {now : Nat} {memory : Memory}
    {entry : Command × Callback} (hmem : entry ∈ (onEvent platform event now memory).sends) :
    Dates device (fun stamp => stamp = now) entry.1 := by
  obtain ⟨command, asked⟩ := entry
  cases hread : command.op.isRead with
  | true => exact (keeps_of_isRead hread).dates
  | false =>
      have hwrite : command ∈ eventWrites event now := by
        rw [← writes_onEvent platform event now memory]
        exact mem_writes hmem hread
      cases event with
      | tcpData ip port values =>
          rw [List.mem_singleton.mp hwrite]
          exact (keeps_of_ne (recordKey_ne_msgCountKey device).symm).dates
      | udpMessage msg address port =>
          rcases List.mem_cons.mp hwrite with rfl | hstored
          · exact (keeps_of_ne (recordKey_ne_msgCountKey device).symm).dates
          · obtain ⟨reading, _, hstored⟩ := List.mem_flatMap.mp hstored
            simp only [List.mem_cons, List.not_mem_nil, or_false] at hstored
            rcases hstored with rfl | rfl | rfl | rfl
            · exact (keeps_lpush _ _).dates
            · exact (keeps_ltrim _ _ _).dates
            · exact dates_hmset _ rfl fun fields => by simp
            · exact (keeps_hincrby _).dates
      | disconnectAll fromDevice referer =>
          rw [List.mem_singleton.mp hwrite]
          exact (keeps_of_ne (recordKey_ne_connectionKey device _).symm).dates
      | _ => cases hwrite

/-! ## Batches -/

variable (device)

/-- The time, where it is stored, is a number. -/
def Dated (store : Store) : Prop :=
  ∀ text, lastPing store device = some text → ∃ stamp : Nat, text = stamp.repr

/-- The time stored first is not later than the one stored second. -/
def NoEarlier (store store' : Store) : Prop :=
  ∀ old : Nat, lastPing store device = some old.repr →
    ∃ new : Nat, lastPing store' device = some new.repr ∧ old ≤ new

/-- The command does not turn the time back. -/
def Advances (store : Store) (command : Command) (_ : Callback) : Prop :=
  ∀ order n, (Dated device store → Dated device (execute order n store command).1) ∧
    NoEarlier device store (execute order n store command).1

variable {device}

theorem advances_of_dates {stamps : Nat → Prop} {store : Store} {command : Command}
    {callback : Callback} (hdates : Dates device stamps command)
    (hlater : ∀ stamp, stamps stamp → ∀ old : Nat, lastPing store device = some old.repr →
      old ≤ stamp) : Advances device store command callback := by
  intro order n
  rcases hdates order n store with hsame | ⟨stamp, hstamp, hset⟩
  · constructor
    · intro hdated text htext
      exact hdated text (hsame ▸ htext)
    · intro old hold
      exact ⟨old, hsame.trans hold, le_rfl⟩
  · constructor
    · intro _ text htext
      rw [hset, Option.some.injEq] at htext
      exact ⟨stamp, htext.symm⟩
    · intro old hold
      exact ⟨stamp, hset, hlater stamp hstamp old hold⟩

/-- A batch that writes no time but a single later one. -/
theorem meets_advances {stamps : Nat → Prop} (hsingle : ∀ m n, stamps m → stamps n → m = n)
    (n : Nat) (store : Store) (batch : Sends)
    (hdates : ∀ entry ∈ batch, Dates device stamps entry.1)
    (hlater : ∀ stamp, stamps stamp → ∀ old : Nat, lastPing store device = some old.repr →
      old ≤ stamp) : (server platform).Meets (Advances device) n store batch := by
  induction batch generalizing n store with
  | nil => trivial
  | cons entry rest ih =>
      obtain ⟨command, callback⟩ := entry
      have hhead : Dates device stamps command := hdates _ List.mem_cons_self
      refine ⟨advances_of_dates hhead hlater,
        ih _ _ (fun entry hmem => hdates entry (List.mem_cons_of_mem _ hmem)) ?_⟩
      intro stamp hstamp old hold
      rcases hhead platform.order n store with hsame | ⟨written, hwritten, hset⟩
      · exact hlater stamp hstamp old (hsame.symm.trans hold)
      · -- The time is now the one that was just written.
        have heq : some old.repr = some written.repr := hold.symm.trans hset
        rw [Nat.repr_inj.mp (Option.some.inj heq), hsingle written stamp hwritten hstamp]

theorem lastPing_storeAfter {stamps : Nat → Prop} (n : Nat) (store : Store) (batch : Sends)
    (hdates : ∀ entry ∈ batch, Dates device stamps entry.1) :
    lastPing ((server platform).storeAfter n store batch) device = lastPing store device ∨
      ∃ stamp, stamps stamp ∧
        lastPing ((server platform).storeAfter n store batch) device = some stamp.repr := by
  induction batch generalizing n store with
  | nil => exact Or.inl rfl
  | cons entry rest ih =>
      obtain ⟨command, callback⟩ := entry
      rw [Pipeline.Client.storeAfter_cons]
      rcases ih (n + 1) ((server platform).execute n store command).1
        fun entry hmem => hdates entry (List.mem_cons_of_mem _ hmem) with hsame | hwritten
      · rw [hsame]
        exact hdates _ List.mem_cons_self platform.order n store
      · exact Or.inr hwritten

/-! ## Runs -/

variable (device)

/-- The event concerns no device whose table is the record of the given one. The
device itself is never such. -/
def Event.Spares : Event → Prop
  | .tcpData _ _ values => ∀ value ∈ values, TCP.isPing platform.toLowerCase value = some true →
      tableKey (platform.toLowerCase (TCP.secondText value)) ≠ recordKey device
  | .functionChange name _ => tableKey name ≠ recordKey device
  | _ => True

/-- Nor does an outstanding request that may write a table. -/
def Sparing (s : State) : Prop :=
  ∀ a ∈ s.inbox, match a.callback with
    | .pingSismember name _ _ _ | .pingSadd name _ _ _ | .pingHmset name
    | .functionChange name _ => tableKey name ≠ recordKey device
    | _ => True

/-- All stamps, stored or on their way, are numbers up to the given time. -/
structure Stamped (now : Nat) (s : State) : Prop where
  stored : ∀ text, lastPing s.store device = some text → ∃ stamp ≤ now, text = stamp.repr
  pending : ∀ a ∈ s.inbox, match a.callback with
    | .pingSismember _ _ _ epoch | .pingSadd _ _ _ epoch => epoch ≤ now
    | _ => True

/-- A PING writes its stamp only while no later one is stored. -/
def punctualGuard : State → Action → Prop :=
  fun s action => ∀ now, action = .deliver now → ∀ a rest, s.inbox = a :: rest →
    ∀ stamp, stamped a.callback a.reply = some (device, stamp) →
      ∀ old : Nat, lastPing s.store device = some old.repr → old ≤ stamp

/-- The events of the run concern no device whose table is the record. -/
def sparingGuard : State → Action → Prop :=
  fun _ action => ∀ event now, action = .event event now → event.Spares platform device

theorem preserved_sparing :
    (server platform).Preserved (sparingGuard platform device) (Sparing device) where
  event := by
    intro s event now hempty _ hguard hsparing
    change Sparing device (occurred platform s event now)
    intro b hmem
    rcases mem_inbox_occurred platform hempty hmem with hold | ⟨_, hignored | ⟨command, hstarts, _⟩⟩
    · exact hsparing b hold
    · simp [hignored]
    · have hspares := hguard event now rfl
      obtain ⟨ordinal, reply, callback⟩ := b
      cases hstarts with
      | ping hvalue hping => exact hspares _ hvalue hping
      | functionChange => exact hspares
      | _ => trivial
  deliver := by
    intro s a rest now hempty _ hinbox _ hsparing
    change Sparing device (delivered platform s a rest now)
    intro b hmem
    have hfirst := hsparing a (hinbox ▸ List.mem_cons_self)
    rcases mem_inbox_delivered platform hempty hmem with
      hold | ⟨_, hignored | ⟨command, hfollows, _⟩⟩
    · exact hsparing b (hinbox ▸ List.mem_cons_of_mem _ hold)
    · simp [hignored]
    · obtain ⟨askedAt, answer, asked⟩ := a
      obtain ⟨ordinal, reply, callback⟩ := b
      cases hfollows with
      | pingSadd hnew => exact hfirst
      | pingHmset => exact hfirst
      | _ => trivial

/-- A sparing request writes its table elsewhere. -/
theorem spares_of_rewritten {s : State} (hsparing : Sparing device s)
    {a : Pipeline.Answer Reply Callback} (hmem : a ∈ s.inbox) {written : String × Allowed}
    (hwritten : rewritten a.callback a.reply = some written) :
    tableKey written.1 ≠ recordKey device := by
  have hspares := hsparing a hmem
  obtain ⟨ordinal, reply, callback⟩ := a
  cases callback with
  | pingHmset name =>
      cases hwritten
      exact hspares
  | functionChange name newFunction =>
      simp only [rewritten] at hwritten
      split at hwritten
      · obtain ⟨function, _, rfl⟩ := Option.map_eq_some_iff.mp hwritten
        exact hspares
      · cases hwritten
  | _ => cases hwritten

theorem Stamped.mono {device : String} {start now : Nat} {s : State} (hle : start ≤ now)
    (hstamped : Stamped device start s) : Stamped device now s := by
  constructor
  · intro text htext
    obtain ⟨stamp, hstamp, heq⟩ := hstamped.stored text htext
    exact ⟨stamp, hstamp.trans hle, heq⟩
  · intro a hmem
    have hpending := hstamped.pending a hmem
    obtain ⟨ordinal, reply, callback⟩ := a
    cases callback with
    | pingSismember name ip port epoch => exact hpending.trans hle
    | pingSadd name ip port epoch => exact hpending.trans hle
    | _ => trivial

/-- A reply writes no stamp but its own, which is not from the future. -/
theorem Stamped.of_stamped {device : String} {now : Nat} {s : State}
    (hstamped : Stamped device now s) {a : Pipeline.Answer Reply Callback} (hmem : a ∈ s.inbox)
    {name : String} {stamp : Nat} (hwrites : stamped a.callback a.reply = some (name, stamp)) :
    stamp ≤ now := by
  have hpending := hstamped.pending a hmem
  obtain ⟨ordinal, reply, callback⟩ := a
  cases callback with
  | pingSismember other ip port epoch =>
      simp only [stamped, Option.ite_none_right_eq_some, Option.some.injEq, Prod.mk.injEq]
        at hwrites
      exact hwrites.2.2 ▸ hpending
  | pingSadd other ip port epoch =>
      simp only [stamped, Option.some.injEq, Prod.mk.injEq] at hwrites
      exact hwrites.2 ▸ hpending
  | _ => cases hwrites

theorem preserved_stamped (now : Nat) : (server platform).Preserved
    (fun s action => Sparing device s ∧ action.time = some now) (Stamped device now) where
  event := by
    intro s event now' hempty _ hguard hstamped
    have hnow : now' = now := Option.some.inj hguard.2
    subst hnow
    change Stamped device now' (occurred platform s event now')
    constructor
    · intro text htext
      rw [occurred_store platform hempty] at htext
      rcases lastPing_storeAfter platform s.executed s.store
        (onEvent platform event now' s.memory).sends
        fun entry hmem => dates_of_event platform hmem with hsame | ⟨stamp, rfl, hset⟩
      · exact hstamped.stored text (hsame.symm.trans htext)
      · exact ⟨stamp, le_rfl, Option.some.inj (htext.symm.trans hset)⟩
    · intro b hmem
      rcases mem_inbox_occurred platform hempty hmem with hold |
        ⟨_, hignored | ⟨command, hstarts, _⟩⟩
      · exact hstamped.pending b hold
      · simp [hignored]
      · obtain ⟨ordinal, reply, callback⟩ := b
        cases hstarts with
        | ping hvalue hping => exact le_rfl
        | _ => trivial
  deliver := by
    intro s a rest now' hempty _ hinbox hguard hstamped
    have hfirst : a ∈ s.inbox := hinbox ▸ List.mem_cons_self
    change Stamped device now (delivered platform s a rest now')
    constructor
    · intro text htext
      rw [delivered_store platform hempty] at htext
      rcases lastPing_storeAfter platform s.executed s.store
        (onReply platform a.callback a.ordinal a.reply now' s.memory).sends
        fun entry hmem => dates_of_reply platform
          (fun written hwritten => spares_of_rewritten device hguard.1 hfirst hwritten) hmem
        with hsame | ⟨stamp, hwrites, hset⟩
      · exact hstamped.stored text (hsame.symm.trans htext)
      · exact ⟨stamp, hstamped.of_stamped hfirst hwrites,
          Option.some.inj (htext.symm.trans hset)⟩
    · intro b hmem
      rcases mem_inbox_delivered platform hempty hmem with hold |
        ⟨_, hignored | ⟨command, hfollows, _⟩⟩
      · exact hstamped.pending b (hinbox ▸ List.mem_cons_of_mem _ hold)
      · simp [hignored]
      · have hpending := hstamped.pending a hfirst
        obtain ⟨askedAt, answer, asked⟩ := a
        obtain ⟨ordinal, reply, callback⟩ := b
        cases hfollows with
        | pingSadd hnew => exact hpending
        | _ => trivial

/-- What every turn of a punctual run finds. -/
def stampGuard : State → Action → Prop :=
  fun s action => (Sparing device s ∧ punctualGuard device s action) ∧
    ∀ now, action.time = some now → Stamped device now s

theorem sends_advances : (server platform).Sends (stampGuard device) (fun _ => True)
    (Advances device) where
  event := by
    intro s event now _ hguard _
    apply meets_advances platform (fun m n hm hn => hm.trans hn.symm) _ _ _
      fun entry hmem => dates_of_event platform hmem
    rintro stamp rfl old hold
    obtain ⟨stored, hle, heq⟩ := (hguard.2 stamp rfl).stored _ hold
    rw [Nat.repr_inj.mp heq]
    exact hle
  deliver := by
    intro s a rest now _ hinbox hguard _
    have hspares : ∀ written, rewritten a.callback a.reply = some written →
        tableKey written.1 ≠ recordKey device :=
      fun written => spares_of_rewritten device hguard.1.1 (hinbox ▸ List.mem_cons_self)
    apply meets_advances platform _ _ _ _ fun entry hmem => dates_of_reply platform hspares hmem
    · intro stamp hstamp
      exact hguard.1.2 now rfl a rest hinbox stamp hstamp
    · intro m n hm hn
      rw [hm, Option.some.injEq, Prod.mk.injEq] at hn
      exact hn.2

theorem guarded_stamp {schedule : List Action} {start : Nat}
    (htimely : Pipeline.Timely start schedule)
    (hspares : ∀ event now, .event event now ∈ schedule → event.Spares platform device)
    (hguarded : (server platform).Guarded (punctualGuard device) (boot empty) schedule) :
    (server platform).Guarded (stampGuard device) (boot empty) schedule := by
  have hsparing := (preserved_sparing platform device).guarded (server platform) (boot empty)
    schedule ((server platform).guarded_of_events _ _ _ hspares) fun a hmem => by cases hmem
  have hboth : (server platform).Guarded
      (fun s action => Sparing device s ∧ punctualGuard device s action) (boot empty) schedule :=
    (hsparing.and (server platform) hguarded).imp (server platform)
      fun _ _ hguard => ⟨hguard.1.2, hguard.2⟩
  have hstart : Stamped device start ((server platform).flush (boot empty)) := by
    constructor
    · intro text htext
      cases htext
    · intro a hmem
      cases hmem
  refine (server platform).guarded_of_timely (fun _ _ _ hle hstamped => hstamped.mono hle)
    (fun now => ?_) htimely hboth hstart
  exact (preserved_stamped platform device now).of_imp (server platform)
    fun _ _ hguard => ⟨hguard.1.1, hguard.2⟩

/-- In a run whose clock never goes back and in which no PING writes its stamp after
a later one, the stored time of the last message never decreases. -/
theorem last_ping_never_decreases {first later : List Action} {start : Nat}
    (htimely : Pipeline.Timely start (first ++ later))
    (hspares : ∀ event now, .event event now ∈ first ++ later → event.Spares platform device)
    (hguarded : (server platform).Guarded (punctualGuard device) (boot empty) (first ++ later))
    {text : String}
    (hbefore : lastPing ((server platform).run (boot empty) first).store device = some text) :
    ∃ old new : Nat, text = old.repr ∧
      lastPing ((server platform).run (boot empty) (first ++ later)).store device =
        some new.repr ∧ old ≤ new := by
  have hstamp := guarded_stamp platform device htimely hspares hguarded
  obtain ⟨hfirst, hlater⟩ := (server platform).guarded_append.mp hstamp
  have hpreserved : (server platform).Preserved (stampGuard device) fun _ => True :=
    ⟨fun _ _ _ _ _ _ _ => trivial, fun _ _ _ _ _ _ _ _ _ => trivial⟩
  have hsends := sends_advances platform device
  have hmeets := hsends.run (server platform) hpreserved (boot empty) first hfirst trivial trivial
  have hdated := hsends.store_run (server platform) hpreserved
    (fun n store command callback hadvances => (hadvances platform.order n).1) (boot empty) first
    hfirst trivial trivial fun text htext => by cases htext
  obtain ⟨old, rfl⟩ := hdated text hbefore
  have hforward := hsends.store_run (server platform) hpreserved
    (fun n store command callback hadvances hnoEarlier =>
      fun old hold => by
        obtain ⟨new, hnew, hle⟩ := hnoEarlier old hold
        obtain ⟨newest, hnewest, hle'⟩ := (hadvances platform.order n).2 new hnew
        exact ⟨newest, hnewest, hle.trans hle'⟩)
    ((server platform).run (boot empty) first) later hlater trivial hmeets
    (show NoEarlier device _ _ from fun old hold => ⟨old, hold, le_rfl⟩)
  rw [Pipeline.Client.run_append]
  obtain ⟨new, hnew, hle⟩ := hforward old hbefore
  exact ⟨old, new, rfl, hnew, hle⟩

/-! ## A punctual run -/

/-- The writes of the sample datagram at a given time. -/
def sampleWrites (now : Nat) : List Command :=
  [⟨msgCountKey, .incr⟩, ⟨dataKey "adc00000001", .lpush "0512"⟩,
    ⟨dataKey "adc00000001", .ltrim 0 999⟩,
    ⟨recordKey "adc00000001", .hmset [("last_ping", now.repr), ("udp_port", Nat.repr 4001)]⟩,
    ⟨recordKey "adc00000001", .hincrby "msg_count" 1⟩]

theorem opsAt_sampleWrites (now : Nat) :
    opsAt (recordKey "adc00000001") (sampleWrites now) =
      recordOps [("last_ping", now.repr), ("udp_port", Nat.repr 4001)] true := by
  have hdata : dataKey "adc00000001" ≠ recordKey "adc00000001" := by decide
  simp [sampleWrites, opsAt_cons, (recordKey_ne_msgCountKey _).symm, hdata, recordOps]

/-- The sample datagram arrives and its commands are executed. -/
def sampleRound (now : Nat) : List Action :=
  eventRound (.udpMessage sampleReading "10.0.0.2" 4001) now 5

theorem trace_sample {expected : Callback → Reply → Prop} {schedule : List Action} {s : State}
    {callbacks : List Callback} {written : List Command}
    (htrace : Trace referencePlatform empty expected schedule s callbacks written)
    (hignored : ∀ reply, expected .ignored reply) (now : Nat) :
    Trace referencePlatform empty expected (schedule ++ sampleRound now)
      (occurred referencePlatform s (.udpMessage sampleReading "10.0.0.2" 4001) now)
      (callbacks ++ List.replicate 5 .ignored) (written ++ sampleWrites now) :=
  htrace.event _ now 5 _ _ rfl
    (fun _ => by simp [onEvent, finish, UDP.message, accept_sampleReading, silent])
    (by simp [eventWrites, accept_sampleReading, sampleWrites]) hignored
    (fun _ _ _ hstarts => by cases hstarts)

theorem mem_sampleRound {now : Nat} {action : Action} (hmem : action ∈ sampleRound now) :
    action = .execute ∨ action = .event (.udpMessage sampleReading "10.0.0.2" 4001) now := by
  simp only [sampleRound, eventRound, List.mem_cons, List.mem_replicate] at hmem
  rcases hmem with rfl | ⟨_, rfl⟩
  · exact Or.inr rfl
  · exact Or.inl rfl

/-- No stamp can be too old where none is stored. -/
theorem punctualGuard_of_none {s : State} {action : Action}
    (hnone : lastPing s.store device = none) : punctualGuard device s action := by
  intro now _ a rest _ stamp _ old hold
  rw [hnone] at hold
  cases hold

/-- A device registers at 10, up to its record. -/
def registeringTurns : List Action :=
  [.event (.tcpData "10.0.0.2" 4000 [samplePing]) 10, .execute, .deliver 11, .execute, .deliver 12,
    .execute, .deliver 13, .execute, .execute]

theorem guarded_registeringTurns : (server referencePlatform).Guarded
    (punctualGuard "adc00000001") (boot empty) registeringTurns := by
  have hexecute : ∀ s, punctualGuard "adc00000001" s .execute := by
    intro s now hdeliver
    cases hdeliver
  -- the reply to the SADD writes the first stamp
  refine ⟨fun _ => punctualGuard_of_none _ rfl, fun _ => hexecute _,
    fun _ => punctualGuard_of_none _ rfl, fun _ => hexecute _, fun _ => punctualGuard_of_none _ rfl,
    fun _ => hexecute _, fun _ => punctualGuard_of_none _ rfl, fun _ => hexecute _,
    fun _ => hexecute _, trivial⟩

/-- A registration, and a datagram two seconds later. -/
theorem last_ping_never_decreases_registration :
    lastPing ((server referencePlatform).run (boot empty) registeringTurns).store "adc00000001" =
      some (Nat.repr 10) ∧
    ∃ new : Nat, lastPing ((server referencePlatform).run (boot empty)
      (registeringTurns ++ sampleRound 2010)).store "adc00000001" = some new.repr ∧ 10 ≤ new := by
  have hbefore : lastPing ((server referencePlatform).run (boot empty) registeringTurns).store
      "adc00000001" = some (Nat.repr 10) := rfl
  have htimely : Pipeline.Timely 0 (registeringTurns ++ sampleRound 2010) := by
    simp [registeringTurns, sampleRound, eventRound, Pipeline.Timely, Pipeline.Action.time]
  have hspares : ∀ event now, .event event now ∈ registeringTurns ++ sampleRound 2010 →
      event.Spares referencePlatform "adc00000001" := by
    intro event now hmem
    rcases List.mem_append.mp hmem with hfirst | hlater
    · simp only [registeringTurns, List.mem_cons, Pipeline.Action.event.injEq, reduceCtorEq,
        List.not_mem_nil, or_false] at hfirst
      rw [hfirst.1]
      intro value hvalue
      rw [List.mem_singleton.mp hvalue]
      decide
    · rcases mem_sampleRound hlater with hexecute | hevent
      · cases hexecute
      · cases hevent
        trivial
  have hguarded : (server referencePlatform).Guarded (punctualGuard "adc00000001") (boot empty)
      (registeringTurns ++ sampleRound 2010) := by
    refine (server referencePlatform).guarded_append.mpr ⟨guarded_registeringTurns, ?_⟩
    apply Pipeline.Client.guarded_of_forall
    intro action hmem s now hdeliver
    rcases mem_sampleRound hmem with rfl | rfl <;> cases hdeliver
  obtain ⟨old, new, htext, hafter, hle⟩ := last_ping_never_decreases referencePlatform
    "adc00000001" htimely hspares hguarded hbefore
  rw [← Nat.repr_inj.mp htext] at hle
  exact ⟨hbefore, new, hafter, hle⟩

/-! ## A late PING -/

/-- A registered device sends a PING at 10 and a datagram at 15. -/
@[irreducible]
def overtakenFirst : List Action :=
  (.event (.tcpData "10.0.0.2" 4000 [samplePing]) 0 :: rounds 1030) ++
    eventRound (.tcpData "10.0.0.2" 4000 [samplePing]) 10 2 ++ sampleRound 15

/-- Then the membership test of the PING is answered. -/
def overtakenLater : List Action := replyRound 15 0 ++ replyRound 15 2

/-- The PING finds its device. -/
def overtakenReplies : Callback → Reply → Prop
  | .pingSismember _ _ _ _, reply => truthy reply = true
  | _, _ => True

theorem trace_overtakenFirst : ∃ s, Trace referencePlatform empty overtakenReplies overtakenFirst
    s (.ignored :: .pingSismember "adc00000001" "10.0.0.2" 4000 10 :: List.replicate 5 .ignored)
    (registrationWrites referencePlatform "adc00000001" "10.0.0.2" 4000 0 ++
      [⟨msgCountKey, .incr⟩] ++ sampleWrites 15) := by
  have hignored : ∀ reply, overtakenReplies .ignored reply := fun _ => trivial
  obtain ⟨_, h₀⟩ := trace_registration referencePlatform "adc00000001" "10.0.0.2" 4000 0
    isPingOf_samplePing overtakenReplies
  have h₁ := h₀.event (.tcpData "10.0.0.2" 4000 [samplePing]) 10 2
    [.ignored, .pingSismember "adc00000001" "10.0.0.2" 4000 10] [⟨msgCountKey, .incr⟩] rfl
    (fun _ => by simp [onEvent, TCP.data, TCP.responses, TCP.response, isPingOf_samplePing.1,
      isPingOf_samplePing.2]) rfl hignored (by
      intro command callback ordinal hstarts
      cases hstarts with
      | ping hmem hping =>
          rw [List.mem_singleton.mp hmem, isPingOf_samplePing.2]
          simp only [overtakenReplies]
          rw [devices_loop referencePlatform "10.0.0.2" 4000 rfl]
          simp [Operation.reply, truthy])
  have h₂ := trace_sample h₁ hignored 15
  unfold overtakenFirst
  exact ⟨_, h₂⟩

/-- The stamp of the PING replaces that of the datagram. -/
theorem late_ping_turns_time_back :
    Pipeline.Timely 0 (overtakenFirst ++ overtakenLater) ∧
    lastPing ((server referencePlatform).run (boot empty) overtakenFirst).store "adc00000001" =
      some (Nat.repr 15) ∧
    lastPing ((server referencePlatform).run (boot empty)
      (overtakenFirst ++ overtakenLater)).store "adc00000001" = some (Nat.repr 10) := by
  obtain ⟨s, htrace⟩ := trace_overtakenFirst
  have hignored : ∀ reply, overtakenReplies .ignored reply := fun _ => trivial
  obtain ⟨_, _, _, _, h₁⟩ := htrace.deliver 15 0 [] [] rfl (fun _ _ _ _ => ⟨rfl, rfl, rfl⟩)
    hignored (fun _ _ _ _ _ _ hfollows => by cases hfollows)
  obtain ⟨_, _, _, _, h₂⟩ := h₁.deliver 15 2 [.ignored, .ignored]
    [⟨recordKey "adc00000001", .hmset [("last_ping", Nat.repr 10)]⟩,
      ⟨recordKey "adc00000001", .hincrby "msg_count" 1⟩] rfl (by
      intro ordinal reply memory hreply
      have htruthy : truthy reply = true := hreply
      simp [onReply, finish, TCP.pingSismember, silent, htruthy, replyWrites, registered,
        rewritten, linked, recorded, counted]) hignored (by
      intro askedAt reply command asked ordinal _ hfollows
      cases hfollows with
      | pingSadd hnew => trivial)
  have hcount : opsAt (recordKey "adc00000001") [⟨msgCountKey, .incr⟩] = [] := by
    simp [opsAt_cons, (recordKey_ne_msgCountKey _).symm]
  refine ⟨?_, ?_, ?_⟩
  · unfold overtakenFirst
    rw [List.append_assoc, List.append_assoc]
    apply timely_registration
    simp [overtakenLater, sampleRound, eventRound, replyRound, Pipeline.Timely,
      Pipeline.Action.time]
  · rw [htrace.run, lastPing, fieldAt, htrace.store, opsAt_append, opsAt_append, applyAll_append,
      applyAll_append, show empty (recordKey "adc00000001") = none from rfl,
      record_registrationWrites, hcount, opsAt_sampleWrites]
    decide
  · rw [overtakenLater, ← List.append_assoc, h₂.run, lastPing, fieldAt, h₂.store]
    simp only [opsAt_append, applyAll_append, List.append_nil, hcount, opsAt_sampleWrites,
      opsAt_cons, opsAt_nil, if_true]
    rw [show empty (recordKey "adc00000001") = none from rfl, record_registrationWrites]
    decide

end RealTimeWs
