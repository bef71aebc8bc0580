import RealTimeWs.Pipeline.Answers
import RealTimeWs.Server.Arrivals
import RealTimeWs.Server.Delivery

/-! # The order of forwarded readings

Ticks of the forwarder overlap, but each passes the same stages over one
connection: the reading is fetched, then the record, then the table. A reply that
is further along, or at the same stage and older, carries a reading that was
fetched no later. Readings therefore leave the server in the order in which they
were fetched, which is the order in which they arrived.
-/

namespace RealTimeWs

open Redis

variable (platform : Platform)

/-! ## Readings on their way -/

/-- The outstanding reply has reached the stage of a tick at which it carries, on
behalf of the device, the reading that the command `readAt` has fetched. -/
inductive Carries : Pipeline.Answer Reply Callback → Nat → String → Reply → Nat → Prop
  | reading {n : Nat} {reply : Reply} {device : String} {connected : List String} :
      Carries ⟨n, reply, .forwardLindex device connected⟩ 0 device reply n
  | record {n : Nat} {reply reading : Reply} {device : String} {connected : List String}
      {readAt : Nat} :
      Carries ⟨n, reply, .forwardHgetall device connected reading readAt⟩ 1 device reading readAt
  | lookup {n : Nat} {reply reading : Reply} {device : String} {connected : List String}
      {readAt : Nat} {record : Hash} {recordAt : Nat} :
      Carries ⟨n, reply, .forwardHget device connected reading readAt record recordAt⟩ 2 device
        reading readAt

section Carries

variable {a b : Pipeline.Answer Reply Callback} {stage readAt : Nat} {device : String}
variable {reading : Reply}

theorem not_carries_ignored (hignored : b.callback = .ignored) :
    ¬ Carries b stage device reading readAt := by
  rintro ⟨⟩ <;> cases hignored

/-- A reading has just been fetched or comes from the stage before. -/
theorem carries_of_follows {command : Command}
    (hfollows : Follows a.callback a.ordinal a.reply command b.callback)
    (hcarries : Carries b stage device reading readAt) :
    (stage = 0 ∧ readAt = b.ordinal ∧ reading = b.reply ∧ a.callback = .forwardConnected device ∧
        command = ⟨dataKey device, .lindex 0⟩) ∨
      ∃ before, stage = before + 1 ∧ Carries a before device reading readAt := by
  obtain ⟨ordinal, reply, asked⟩ := a
  cases hcarries with
  | reading =>
      cases hfollows with
      | forwardLindex hsome => exact Or.inl ⟨rfl, rfl, rfl, rfl, rfl⟩
  | record =>
      cases hfollows with
      | forwardHgetall => exact Or.inr ⟨0, rfl, .reading⟩
  | lookup =>
      cases hfollows with
      | forwardHget hactive => exact Or.inr ⟨1, rfl, .record⟩

/-- Events do not carry readings on. -/
theorem not_carries_of_starts {event : Event} {now : Nat} {command : Command}
    (hstarts : Starts platform.toLowerCase event now command b.callback) :
    ¬ Carries b stage device reading readAt := by
  intro hcarries
  cases hcarries <;> cases hstarts

theorem Carries.unique {stage' readAt' : Nat} {device' : String} {reading' : Reply}
    (hcarries : Carries a stage device reading readAt)
    (hother : Carries a stage' device' reading' readAt') : readAt = readAt' := by
  cases hcarries <;> cases hother <;> rfl

theorem Carries.stage_le (hcarries : Carries a stage device reading readAt) : stage ≤ 2 := by
  cases hcarries <;> decide

/-- A datagram is computed from the reading that the delivered reply carries. -/
theorem carries_of_mem_datagrams {now : Nat} {memory : Memory} {sent : Datagram}
    (hmem : sent ∈ datagrams (onReply platform a.callback a.ordinal a.reply now memory).outputs) :
    Carries a 2 sent.device sent.reading sent.readAt := by
  obtain ⟨ordinal, reply, callback⟩ := a
  rcases datagrams_onReply platform callback ordinal reply now memory with
    hnone | ⟨_, _, _, _, _, _, _, _, rfl, _, hone⟩
  · rw [hnone] at hmem
    cases hmem
  · rw [hone, List.mem_singleton] at hmem
    subst hmem
    exact .lookup

/-- A reading that has just been fetched was fetched by its own command. -/
theorem Carries.readAt_of_zero (hcarries : Carries b 0 device reading readAt) :
    readAt = b.ordinal ∧ reading = b.reply := by
  cases hcarries
  exact ⟨rfl, rfl⟩

end Carries

/-! ## No overtaking -/

/-- Readings further along, and those already sent, were fetched earlier. -/
structure InOrder (s : State) : Prop where
  carried : ∀ a ∈ s.inbox, ∀ b ∈ s.inbox, ∀ i j device device' reading reading' n m,
    Carries a i device reading n → Carries b j device' reading' m →
      j < i ∨ i = j ∧ a.ordinal < b.ordinal → n ≤ m
  fetched : ∀ a ∈ s.inbox, ∀ i device reading n, Carries a i device reading n → n < s.executed
  past : ∀ sent ∈ datagrams s.outputs, sent.readAt < s.executed
  ahead : ∀ sent ∈ datagrams s.outputs, ∀ a ∈ s.inbox, ∀ i device reading n,
    Carries a i device reading n → sent.readAt ≤ n
  sorted : (datagrams s.outputs).Pairwise fun earlier later => earlier.readAt ≤ later.readAt

section Event

variable {s : State} {event : Event} {now : Nat} (hempty : s.outbox = [])

include hempty

/-- What carries a reading after an event carried it before. -/
theorem carries_occurred {b : Pipeline.Answer Reply Callback} {stage readAt : Nat}
    {device : String} {reading : Reply} (hmem : b ∈ (occurred platform s event now).inbox)
    (hcarries : Carries b stage device reading readAt) : b ∈ s.inbox := by
  rcases mem_inbox_occurred platform hempty hmem with hold | ⟨_, hignored | hasked⟩
  · exact hold
  · exact absurd hcarries (not_carries_ignored hignored)
  · obtain ⟨command, hstarts, _⟩ := hasked
    exact absurd hcarries (not_carries_of_starts platform hstarts)

theorem inOrder_occurred (horder : InOrder s) : InOrder (occurred platform s event now) := by
  have hexecuted : s.executed ≤ (occurred platform s event now).executed :=
    le_executed_occurred platform hempty
  refine ⟨?_, ?_, ?_, ?_, ?_⟩
  · intro a ha b hb i j device device' reading reading' n m hcarriesA hcarriesB
    exact horder.carried a (carries_occurred platform hempty ha hcarriesA) b
      (carries_occurred platform hempty hb hcarriesB) i j device device' reading reading' n m
      hcarriesA hcarriesB
  · intro a ha i device reading n hcarries
    exact lt_of_lt_of_le (horder.fetched a (carries_occurred platform hempty ha hcarries) i device
      reading n hcarries) hexecuted
  · intro sent hsent
    rw [datagrams_occurred platform hempty] at hsent
    exact lt_of_lt_of_le (horder.past sent hsent) hexecuted
  · intro sent hsent a ha i device reading n hcarries
    rw [datagrams_occurred platform hempty] at hsent
    exact horder.ahead sent hsent a (carries_occurred platform hempty ha hcarries) i device
      reading n hcarries
  · rw [datagrams_occurred platform hempty]
    exact horder.sorted

end Event

section Deliver

variable {s : State} {a : Pipeline.Answer Reply Callback}
variable {rest : List (Pipeline.Answer Reply Callback)} {now : Nat} (hempty : s.outbox = [])
variable (hinbox : s.inbox = a :: rest)

include hempty

/-- After a reply a reading is carried as before, has just been fetched, or comes
from the delivered reply. -/
theorem carries_delivered {b : Pipeline.Answer Reply Callback} {stage readAt : Nat}
    {device : String} {reading : Reply} (hmem : b ∈ (delivered platform s a rest now).inbox)
    (hcarries : Carries b stage device reading readAt) :
    b ∈ rest ∨ s.executed ≤ b.ordinal ∧
      (stage = 0 ∧ a.callback = .forwardConnected device ∧
          b.reply = (Operation.lindex 0).reply platform.order b.ordinal
            (s.store (dataKey device)) ∨
        ∃ before, stage = before + 1 ∧ Carries a before device reading readAt) := by
  rcases mem_inbox_delivered platform hempty hmem with hold | ⟨hlater, hignored | hasked⟩
  · exact Or.inl hold
  · exact absurd hcarries (not_carries_ignored hignored)
  · obtain ⟨command, hfollows, hreply⟩ := hasked
    refine Or.inr ⟨hlater, ?_⟩
    rcases carries_of_follows hfollows hcarries with ⟨hstage, _, _, hasked, rfl⟩ | hbefore
    · exact Or.inl ⟨hstage, hasked, hreply⟩
    · exact Or.inr hbefore

variable (hordered : Pipeline.Client.Ordered s) (horder : InOrder s)

include hinbox hordered horder

/-- The delivered reply and the others keep their order when it goes on one stage. -/
theorem carried_delivered (x : Pipeline.Answer Reply Callback)
    (hx : x ∈ (delivered platform s a rest now).inbox) (y : Pipeline.Answer Reply Callback)
    (hy : y ∈ (delivered platform s a rest now).inbox) (i j : Nat) (device device' : String)
    (reading reading' : Reply) (n m : Nat) (hcarriesX : Carries x i device reading n)
    (hcarriesY : Carries y j device' reading' m)
    (hbefore : j < i ∨ i = j ∧ x.ordinal < y.ordinal) : n ≤ m := by
  have hfirst : a ∈ s.inbox := hinbox ▸ List.mem_cons_self
  have hrest : ∀ {b}, b ∈ rest → b ∈ s.inbox := fun hmem => hinbox ▸ List.mem_cons_of_mem _ hmem
  rcases Nat.eq_zero_or_pos i with rfl | hpos
  · -- Both have just been fetched, by their own commands.
    obtain ⟨rfl, hordinal⟩ : j = 0 ∧ x.ordinal < y.ordinal := by omega
    rw [hcarriesX.readAt_of_zero.1, hcarriesY.readAt_of_zero.1]
    exact hordinal.le
  -- What carries the first reading carried it before, possibly one stage earlier.
  have hfetched : n < s.executed := by
    rcases carries_delivered platform hempty hx hcarriesX with hold | ⟨_, ⟨rfl, _⟩ | hmoved⟩
    · exact horder.fetched x (hrest hold) i device reading n hcarriesX
    · omega
    · obtain ⟨i', _, hcarriesA⟩ := hmoved
      exact horder.fetched a hfirst i' device reading n hcarriesA
  rcases carries_delivered platform hempty hy hcarriesY with
    hyold | ⟨hylater, ⟨rfl, _⟩ | ⟨j', rfl, hymoved⟩⟩
  · rcases carries_delivered platform hempty hx hcarriesX with
      hxold | ⟨hxlater, ⟨rfl, _⟩ | ⟨i', rfl, hxmoved⟩⟩
    · exact horder.carried x (hrest hxold) y (hrest hyold) i j _ _ _ _ n m hcarriesX hcarriesY
        hbefore
    · omega
    · have hbelow := hordered.below y (hrest hyold)
      have hhead := hordered.head_lt hinbox hyold
      exact horder.carried a hfirst y (hrest hyold) i' j _ _ _ _ n m hxmoved hcarriesY (by omega)
  · rw [hcarriesY.readAt_of_zero.1]
    exact hfetched.le.trans hylater
  · rcases carries_delivered platform hempty hx hcarriesX with
      hxold | ⟨hxlater, ⟨rfl, _⟩ | ⟨i', rfl, hxmoved⟩⟩
    · exact horder.carried x (hrest hxold) a hfirst i j' _ _ _ _ n m hcarriesX hymoved (by omega)
    · omega
    · exact (hxmoved.unique hymoved).le

theorem ahead_delivered (sent : Datagram)
    (hsent : sent ∈ datagrams (delivered platform s a rest now).outputs)
    (b : Pipeline.Answer Reply Callback) (hb : b ∈ (delivered platform s a rest now).inbox)
    (i : Nat) (device : String) (reading : Reply) (n : Nat)
    (hcarries : Carries b i device reading n) : sent.readAt ≤ n := by
  have hfirst : a ∈ s.inbox := hinbox ▸ List.mem_cons_self
  have hrest : ∀ {b}, b ∈ rest → b ∈ s.inbox := fun hmem => hinbox ▸ List.mem_cons_of_mem _ hmem
  rw [datagrams_delivered platform hempty, List.mem_append] at hsent
  rcases hsent with hold | hnew
  · rcases carries_delivered platform hempty hb hcarries with
      hbold | ⟨hlater, ⟨rfl, _⟩ | ⟨i', rfl, hmoved⟩⟩
    · exact horder.ahead sent hold b (hrest hbold) i device reading n hcarries
    · rw [hcarries.readAt_of_zero.1]
      exact (horder.past sent hold).le.trans hlater
    · exact horder.ahead sent hold a hfirst i' device reading n hmoved
  · have hlast := carries_of_mem_datagrams platform hnew
    rcases carries_delivered platform hempty hb hcarries with
      hbold | ⟨hlater, ⟨rfl, _⟩ | ⟨i', rfl, hmoved⟩⟩
    · have hstage := hcarries.stage_le
      have hhead := hordered.head_lt hinbox hbold
      exact horder.carried a hfirst b (hrest hbold) 2 i _ _ _ _ _ n hlast hcarries (by omega)
    · rw [hcarries.readAt_of_zero.1]
      exact (horder.fetched a hfirst 2 _ _ _ hlast).le.trans hlater
    · exact (hlast.unique hmoved).le

omit hordered in
theorem sorted_delivered : (datagrams (delivered platform s a rest now).outputs).Pairwise
    fun earlier later => earlier.readAt ≤ later.readAt := by
  have hfirst : a ∈ s.inbox := hinbox ▸ List.mem_cons_self
  rw [datagrams_delivered platform hempty, List.pairwise_append]
  refine ⟨horder.sorted, ?_, ?_⟩
  · rcases datagrams_onReply platform a.callback a.ordinal a.reply now s.memory with
      hnone | ⟨_, _, _, _, _, _, _, _, _, _, hone⟩
    · rw [hnone]
      exact List.Pairwise.nil
    · rw [hone]
      exact List.pairwise_singleton _ _
  · intro earlier hearlier later hlater
    exact horder.ahead earlier hearlier a hfirst 2 _ _ _ (carries_of_mem_datagrams platform hlater)

end Deliver

theorem preserved_inOrder : (server platform).Preserved (regularGuard platform) InOrder where
  event := fun s event now hempty _ _ horder => inOrder_occurred platform hempty horder
  deliver := by
    intro s a rest now hempty hthrown hinbox hguard horder
    change InOrder (delivered platform s a rest now)
    have hordered := hguard.1.2
    have hfirst : a ∈ s.inbox := hinbox ▸ List.mem_cons_self
    have hexecuted : s.executed ≤ (delivered platform s a rest now).executed :=
      le_executed_delivered platform hempty
    have hafter : Pipeline.Client.Ordered (delivered platform s a rest now) :=
      ((server platform).preserved_ordered (regularGuard platform)).deliver s a rest now hempty
        hthrown hinbox hguard hordered
    refine ⟨carried_delivered platform hempty hinbox hordered horder, ?_, ?_,
      ahead_delivered platform hempty hinbox hordered horder,
      sorted_delivered platform hempty hinbox horder⟩
    · intro b hb i device reading n hcarries
      rcases carries_delivered platform hempty hb hcarries with
        hold | ⟨_, ⟨rfl, _⟩ | ⟨i', rfl, hmoved⟩⟩
      · exact lt_of_lt_of_le (horder.fetched b (hinbox ▸ List.mem_cons_of_mem _ hold) i device
          reading n hcarries) hexecuted
      · rw [hcarries.readAt_of_zero.1]
        exact hafter.below b hb
      · exact lt_of_lt_of_le (horder.fetched a hfirst i' device reading n hmoved) hexecuted
    · intro sent hsent
      rw [datagrams_delivered platform hempty, List.mem_append] at hsent
      rcases hsent with hold | hnew
      · exact lt_of_lt_of_le (horder.past sent hold) hexecuted
      · exact lt_of_lt_of_le (horder.fetched a hfirst 2 _ _ _
          (carries_of_mem_datagrams platform hnew)) hexecuted

theorem inOrder_boot (store : Store) : InOrder ((server platform).flush (boot store)) := by
  refine ⟨?_, ?_, ?_, ?_, List.Pairwise.nil⟩
  all_goals
    intro x hmem
    cases hmem

/-! ## What was fetched -/

/-- The reading that a device has last sent, as a reply. -/
def newestReading (device : String) (history : List (Nat × Event)) (n : Nat) : Reply :=
  .bulk ((newestBy device history n).map Arrival.data)

/-- The list of readings starts with the newest one, and readings on their way are
the newest of their time. -/
structure Current (s : State) : Prop where
  stored : ∀ device, Plain device → ∃ elements : List String,
    s.store (dataKey device) = (if elements = [] then none else some (.list elements)) ∧
      elements.head? = (arrivals device s.history).getLast?.map Arrival.data
  carried : ∀ a ∈ s.inbox, ∀ i device reading n, Carries a i device reading n →
    reading = newestReading device s.history n
  sent : ∀ sent ∈ datagrams s.outputs,
    sent.reading = newestReading sent.device s.history sent.readAt

theorem newestReading_append {device : String} {history : List (Nat × Event)} {n : Nat}
    {entry : Nat × Event} (hlater : n < entry.1) :
    newestReading device (history ++ [entry]) n = newestReading device history n := by
  rw [newestReading, newestBy_append hlater, ← newestReading]

/-- A datagram puts its reading in front of the others. -/
theorem stored_occurred {s : State} {event : Event} {now : Nat} (hempty : s.outbox = [])
    {device : String} (hplain : Plain device) {elements : List String}
    (hstore : s.store (dataKey device) = (if elements = [] then none else some (.list elements)))
    (hhead : elements.head? = (arrivals device s.history).getLast?.map Arrival.data) :
    ∃ elements : List String, (occurred platform s event now).store (dataKey device) =
        (if elements = [] then none else some (.list elements)) ∧
      elements.head? =
        (arrivals device (s.history ++ [(s.executed, event)])).getLast?.map Arrival.data := by
  rw [occurred_store platform hempty, eventStore_data platform _ _ _ _ _ hplain,
    arrivals_append_singleton, opsFor_accepted event s.executed]
  cases event.arrival device s.executed with
  | none =>
      rw [Option.toList_none, List.append_nil]
      exact ⟨elements, hstore, hhead⟩
  | some arrival =>
      -- the older readings move up, and the oldest one may be cut off
      refine ⟨(arrival.data :: elements).take 1000, ?_, ?_⟩
      · rw [hstore]
        by_cases hnil : elements = [] <;> simp [hnil, Operation.update, slice]
      · simp

/-- The guard under which the readings are followed. -/
def orderGuard : State → Action → Prop :=
  fun s action => regularGuard platform s action ∧ InOrder s

theorem preserved_current : (server platform).Preserved (orderGuard platform) Current where
  event := by
    intro s event now hempty _ hguard hcurrent
    change Current (occurred platform s event now)
    have horder := hguard.2
    have hhistory : (occurred platform s event now).history =
        s.history ++ [(s.executed, event)] := occurred_history platform hempty
    refine ⟨?_, ?_, ?_⟩
    · intro device hplain
      obtain ⟨elements, hstore, hhead⟩ := hcurrent.stored device hplain
      rw [hhistory]
      exact stored_occurred platform hempty hplain hstore hhead
    · intro a hmem i device reading n hcarries
      have hold := carries_occurred platform hempty hmem hcarries
      rw [hhistory, newestReading_append (horder.fetched a hold i device reading n hcarries)]
      exact hcurrent.carried a hold i device reading n hcarries
    · intro sent hsent
      rw [datagrams_occurred platform hempty] at hsent
      rw [hhistory, newestReading_append (horder.past sent hsent)]
      exact hcurrent.sent sent hsent
  deliver := by
    intro s a rest now hempty _ hinbox hguard hcurrent
    change Current (delivered platform s a rest now)
    have hfirst : a ∈ s.inbox := hinbox ▸ List.mem_cons_self
    have hhistory : (delivered platform s a rest now).history = s.history :=
      delivered_history platform hempty
    refine ⟨?_, ?_, ?_⟩
    · intro device hplain
      rw [hhistory, delivered_store platform hempty, replyStore_data platform _ _ _ _ _ _ _ hplain]
      exact hcurrent.stored device hplain
    · intro b hmem i device reading n hcarries
      rw [hhistory]
      rcases carries_delivered platform hempty hmem hcarries with
        hold | ⟨hlater, ⟨rfl, hasked, hreply⟩ | ⟨i', rfl, hmoved⟩⟩
      · exact hcurrent.carried b (hinbox ▸ List.mem_cons_of_mem _ hold) i device reading n hcarries
      · -- The command meets the list as it is, and nothing has arrived after it.
        have hokay := hguard.1.2.okay a hfirst
        simp only [Okay, hasked] at hokay
        obtain ⟨elements, hstore, hhead⟩ :=
          hcurrent.stored device (hguard.1.2.plain device hokay)
        have hpast : ∀ entry ∈ s.history, entry.1 ≤ n := by
          intro entry hentry
          rw [hcarries.readAt_of_zero.1]
          exact (hguard.1.1.2.past entry hentry).trans hlater
        rw [hcarries.readAt_of_zero.2, hreply, newestReading, newestBy,
          arrivedBy_of_past device hpast, ← hhead, hstore]
        cases elements <;> rfl
      · exact hcurrent.carried a hfirst i' device reading n hmoved
    · intro sent hsent
      rw [hhistory]
      rw [datagrams_delivered platform hempty, List.mem_append] at hsent
      rcases hsent with hold | hnew
      · exact hcurrent.sent sent hold
      · exact hcurrent.carried a hfirst 2 _ _ _ (carries_of_mem_datagrams platform hnew)

theorem current_boot_empty : Current ((server platform).flush (boot empty)) := by
  refine ⟨fun device _ => ⟨[], rfl, rfl⟩, ?_, ?_⟩
  all_goals
    intro x hmem
    cases hmem

/-! ## Forwarding in order of arrival -/

/-- Successive datagrams sent on behalf of a device are computed from readings in
the order of their arrival: each from the newest one of its time, and what had
arrived for an earlier datagram is a prefix of what had arrived for a later one. -/
theorem forwarded_in_order_of_arrival {schedule : List Action}
    (hplain : PlainSchedule platform schedule) (device : String) :
    (∀ sent ∈ datagrams ((server platform).run (boot empty) schedule).outputs,
        sent.device = device →
        sent.reading = .bulk ((arrivedBy device
          ((server platform).run (boot empty) schedule).history sent.readAt).getLast?.map
            Arrival.data) ∧
        arrivedBy device ((server platform).run (boot empty) schedule).history sent.readAt <+:
          arrivals device ((server platform).run (boot empty) schedule).history) ∧
      ((datagrams ((server platform).run (boot empty) schedule).outputs).filter
          fun sent => sent.device = device).Pairwise fun earlier later =>
        arrivedBy device ((server platform).run (boot empty) schedule).history earlier.readAt <+:
          arrivedBy device ((server platform).run (boot empty) schedule).history
            later.readAt := by
  have hregular := guarded_regular platform hplain
  have horder := (preserved_inOrder platform).run (server platform) (boot empty) schedule
    hregular (inOrder_boot platform empty)
  have hguarded := (preserved_inOrder platform).guarded (server platform) (boot empty) schedule
    hregular (inOrder_boot platform empty)
  have hcurrent := (preserved_current platform).run (server platform) (boot empty) schedule
    hguarded (current_boot_empty platform)
  have hordered := ((server platform).preserved_ordered (regularGuard platform)).run
    (server platform) (boot empty) schedule hregular (ordered_boot platform empty)
  refine ⟨?_, ?_⟩
  · rintro sent hsent rfl
    refine ⟨hcurrent.sent sent hsent, ?_⟩
    have hall := arrivedBy_of_past sent.device hordered.past
    exact hall ▸ arrivedBy_isPrefix (horder.past sent hsent).le hordered.recorded
  · refine (horder.sorted.filter _).imp ?_
    intro earlier later hle
    exact arrivedBy_isPrefix hle hordered.recorded

/-! ## Two readings -/

/-- A reading is forwarded, readings of another device and of the same one arrive, and the
newest one is forwarded. -/
def twoReadings : List Action :=
  linkSchedule "adc00000001" "10.0.0.2" 4000 samplePing sampleReading "10.0.0.2" 4001 ++
    tickRound ++ readingRound foreignReading "10.0.0.2" 4001 ++
    readingRound secondReading "10.0.0.2" 4001 ++ tickRound

/-- The events of the schedule. -/
theorem occurrences_twoReadings : twoReadings.filterMap Pipeline.Action.occurrence =
    [.tcpData "10.0.0.2" 4000 [samplePing], .udpMessage sampleReading "10.0.0.2" 4001,
      .connect "adc00000001" "adc00000001" none, .forwardTick,
      .udpMessage foreignReading "10.0.0.2" 4001, .udpMessage secondReading "10.0.0.2" 4001,
      .forwardTick] := by
  unfold twoReadings linkSchedule tickRound readingRound eventRound replyRound
  simp [List.filterMap_append, Pipeline.Action.occurrence, (eventFree_rounds 1030).occurrences]
  rfl

theorem plainSchedule_twoReadings : PlainSchedule referencePlatform twoReadings := by
  intro event now hmem
  have hevent : event ∈ twoReadings.filterMap Pipeline.Action.occurrence :=
    List.mem_filterMap.mpr ⟨_, hmem, rfl⟩
  rw [occurrences_twoReadings] at hevent
  simp only [List.mem_cons, List.not_mem_nil, or_false] at hevent
  rcases hevent with rfl | rfl | rfl | rfl | rfl | rfl | rfl
  · intro value hvalue _
    rw [List.mem_singleton.mp hvalue, isPingOf_samplePing.2]
    decide
  · intro reading haccept
    rw [accept_sampleReading, Option.some.injEq] at haccept
    rw [← haccept]
    decide
  · trivial
  · trivial
  · intro reading haccept
    rw [accept_foreignReading, Option.some.injEq] at haccept
    rw [← haccept]
    decide
  · intro reading haccept
    rw [accept_secondReading, Option.some.injEq] at haccept
    rw [← haccept]
    decide
  · trivial

/-- The run of the schedule comes to rest, and its last two datagrams are those of the two
readings of the device. -/
theorem run_twoReadings :
    ((server referencePlatform).run (boot empty) twoReadings).thrown = false ∧
      ∃ before earlier later,
        datagrams ((server referencePlatform).run (boot empty) twoReadings).outputs =
          before ++ [earlier, later] ∧
        (earlier.device = "adc00000001" ∧ earlier.reading = .bulk (some "0512")) ∧
        later.device = "adc00000001" ∧ later.reading = .bulk (some "0256") := by
  have hplain : Plain "adc00000001" := by decide
  have hlinked := resting_linked hplain "10.0.0.2" 4000 isPingOf_samplePing accept_sampleReading
    "10.0.0.2" 4001
  obtain ⟨hfirst, _, _, hsent⟩ :=
    hlinked.tick (show Script.number "0512" = .nat 512 by decide) (by decide) (by decide)
  obtain ⟨hforeign, hsilent⟩ := hfirst.reading hplain (by decide) accept_foreignReading (by decide)
  rw [if_neg (by decide)] at hforeign
  obtain ⟨hsecond, hsilent'⟩ := hforeign.reading hplain hplain accept_secondReading (by decide)
  rw [if_pos rfl] at hsecond
  obtain ⟨hlast, _, _, hsent'⟩ :=
    hsecond.tick (show Script.number "0256" = .nat 256 by decide) (by decide) (by decide)
  simp only [← Pipeline.Client.run_append] at hlast hsent hsilent hsilent' hsent'
  refine ⟨hlast.thrown, ?_⟩
  rw [twoReadings, hsent', hsilent', hsilent, hsent, datagrams_append, datagrams_append,
    List.append_assoc]
  exact ⟨_, _, _, rfl, ⟨rfl, rfl⟩, rfl, rfl⟩

/-- The beginning of two readings that ends with one of them. -/
theorem eq_of_isPrefix_pair {list : List String} {first second last : String}
    (hbegins : list <+: [first, second]) (hlast : list.getLast? = some last) :
    list = [first] ∧ last = first ∨ list = [first, second] ∧ last = second := by
  rcases List.prefix_cons_iff.mp hbegins with rfl | ⟨rest, rfl, hrest⟩
  · cases hlast
  · rcases List.prefix_cons_iff.mp hrest with rfl | ⟨more, rfl, hmore⟩
    · exact Or.inl ⟨rfl, (Option.some.inj hlast).symm⟩
    · rw [List.prefix_nil.mp hmore] at hlast ⊢
      exact Or.inr ⟨rfl, (Option.some.inj hlast).symm⟩

/-- The first datagram of the device is computed when only its first reading had arrived, the
second one when both had. The reading of the other device counts for neither. -/
theorem forwarded_in_order_of_arrival_two : ∃ history before earlier later,
    history = ((server referencePlatform).run (boot empty) twoReadings).history ∧
      datagrams ((server referencePlatform).run (boot empty) twoReadings).outputs =
        before ++ [earlier, later] ∧
      (arrivals "adc00000002" history).map Arrival.data = ["0007"] ∧
      (arrivedBy "adc00000001" history earlier.readAt).map Arrival.data = ["0512"] ∧
      (arrivedBy "adc00000001" history later.readAt).map Arrival.data = ["0512", "0256"] ∧
      arrivedBy "adc00000001" history earlier.readAt <+:
        arrivedBy "adc00000001" history later.readAt := by
  obtain ⟨halive, before, earlier, later, hsent, ⟨hdevice, hreading⟩, hdevice', hreading'⟩ :=
    run_twoReadings
  obtain ⟨hnewest, hordered⟩ := forwarded_in_order_of_arrival referencePlatform
    plainSchedule_twoReadings "adc00000001"
  have hevents := Pipeline.Client.history_of_alive halive
  rw [occurrences_twoReadings] at hevents
  generalize (server referencePlatform).run (boot empty) twoReadings = s at *
  have hdata : (arrivals "adc00000001" s.history).map Arrival.data = ["0512", "0256"] := by
    rw [arrivals_map_data, hevents]
    simp [boot, Pipeline.State.start, Event.arrival, accept_sampleReading, accept_secondReading,
      accept_foreignReading]
  rw [hsent] at hnewest hordered
  obtain ⟨hlast, hbegins⟩ := hnewest earlier (by simp) hdevice
  obtain ⟨hlast', hbegins'⟩ := hnewest later (by simp) hdevice'
  rw [hreading, Reply.bulk.injEq, ← List.getLast?_map] at hlast
  rw [hreading', Reply.bulk.injEq, ← List.getLast?_map] at hlast'
  have hfirst := eq_of_isPrefix_pair (hdata ▸ hbegins.map Arrival.data) hlast.symm
  have hsecond := eq_of_isPrefix_pair (hdata ▸ hbegins'.map Arrival.data) hlast'.symm
  refine ⟨s.history, before, earlier, later, rfl, hsent, ?_, ?_, ?_, ?_⟩
  · rw [arrivals_map_data, hevents]
    simp [boot, Pipeline.State.start, Event.arrival, accept_sampleReading, accept_secondReading,
      accept_foreignReading]
  · exact hfirst.elim And.left fun hother => absurd hother.2 (by decide)
  · exact hsecond.elim (fun hother => absurd hother.2 (by decide)) And.left
  · rw [List.filter_append, List.pairwise_append] at hordered
    simp only [List.filter_cons, hdevice, hdevice', decide_true, if_true, List.filter_nil,
      List.pairwise_pair] at hordered
    exact hordered.2.1

end RealTimeWs
