import RealTimeWs.Pipeline.Timing
import RealTimeWs.Server.Delivery

/-! # The activity routine

The routine reads when a device was last heard of and writes its verdict one round
trip later. A message of the device that is handled in between makes the verdict
stale. Commands execute in sending order, so the database that the verdict meets
is the one its turn would see with everything sent so far executed.
-/

namespace RealTimeWs

open Redis

variable (platform : Platform)

/-- The time of the last message in the record of a device. -/
def lastPing (store : Store) (device : String) : Option String :=
  fieldAt store (recordKey device) "last_ping"

/-- The comparison is with two seconds. -/
theorem recent_repr (now stamp : Nat) :
    Routine.recent now (some stamp.repr) = true ↔ (now : Int) - stamp < 2000 := by
  rw [Routine.recent, Decimal.natValue_repr]
  simp

/-- The routine judges a device only while the time of its last message is the one
that was read. -/
def undisturbedGuard : State → Action → Prop :=
  fun s action => ∀ now, action = .deliver now → ∀ n stamp tail device rest,
    s.inbox = ⟨n, .array (stamp :: tail), .routineHmget device⟩ :: rest →
      lastPing s.store device = stamp

/-- The turn of the routine sends its verdict behind everything sent so far. -/
theorem outbox_deliver_routineHmget {s : State} {n : Nat} {stamp : Option String}
    {tail : List (Option String)} {device : String}
    {rest : List (Pipeline.Answer Reply Callback)} (now : Nat) (hthrown : s.thrown = false)
    (hinbox : s.inbox = ⟨n, .array (stamp :: tail), .routineHmget device⟩ :: rest) :
    ((server platform).step s (.deliver now)).outbox = s.outbox ++
        [(⟨recordKey device,
          .hmset [("active", if Routine.recent now stamp then "true" else "false")]⟩, .ignored)] ∧
      ((server platform).step s (.deliver now)).executed = s.executed ∧
      ((server platform).step s (.deliver now)).store = s.store := by
  simp [Pipeline.Client.step, hthrown, hinbox, Pipeline.Client.answer, Pipeline.State.perform,
    server, onReply, Routine.hmget, finish, silent]

/-- When the verdict is the next command to execute, it meets the database that its
turn would have seen with everything sent so far executed. -/
theorem verdict_meets {s : State} {later : List Action} {now n : Nat} {stamp : Option String}
    {tail : List (Option String)} {device : String}
    {rest : List (Pipeline.Answer Reply Callback)} (hthrown : s.thrown = false)
    (hinbox : s.inbox = ⟨n, .array (stamp :: tail), .routineHmget device⟩ :: rest)
    (hexecuted : ((server platform).run s (.deliver now :: later)).executed =
      s.executed + s.outbox.length) :
    ((server platform).run s (.deliver now :: later)).store = ((server platform).flush s).store ∧
      ∃ more, ((server platform).run s (.deliver now :: later)).outbox =
        (⟨recordKey device,
          .hmset [("active", if Routine.recent now stamp then "true" else "false")]⟩, .ignored) ::
          more := by
  obtain ⟨houtbox, hsame, hstore⟩ :=
    outbox_deliver_routineHmget platform now hthrown hinbox
  rw [Pipeline.Client.run_cons] at hexecuted ⊢
  rw [← hsame] at hexecuted
  obtain ⟨hmeets, hnext⟩ := (server platform).next_of_run houtbox hexecuted
  rw [hsame, hstore] at hmeets
  exact ⟨hmeets, hnext⟩

/-- In a run in which the routine is never disturbed, each verdict is right at the
moment at which it is written: the device is marked active exactly if the time of
its last message that is stored then is recent by the clock of the verdict. -/
theorem verdict_right_when_written {first later : List Action} {now n : Nat} {store : Store}
    {stamp : Option String} {tail : List (Option String)} {device : String}
    {rest : List (Pipeline.Answer Reply Callback)}
    (hguarded : (server platform).Guarded undisturbedGuard (boot store)
      (first ++ .deliver now :: later))
    (hthrown : ((server platform).run (boot store) first).thrown = false)
    (hinbox : ((server platform).run (boot store) first).inbox =
      ⟨n, .array (stamp :: tail), .routineHmget device⟩ :: rest)
    (hexecuted : ((server platform).run (boot store) (first ++ .deliver now :: later)).executed =
      ((server platform).run (boot store) first).executed +
        ((server platform).run (boot store) first).outbox.length) :
    ∃ value more,
      ((server platform).run (boot store) (first ++ .deliver now :: later)).outbox =
        (⟨recordKey device, .hmset [("active", value)]⟩, .ignored) :: more ∧
      (value = "true" ↔ Routine.recent now (lastPing
        ((server platform).run (boot store) (first ++ .deliver now :: later)).store device) =
          true) := by
  rw [Pipeline.Client.run_append] at hexecuted ⊢
  obtain ⟨hmeets, more, hnext⟩ := verdict_meets platform hthrown hinbox hexecuted
  have hread : lastPing ((server platform).flush
      ((server platform).run (boot store) first)).store device = stamp := by
    have hguard := (((server platform).guarded_append).mp hguarded).2.1
    obtain ⟨_, hflushed⟩ := (server platform).flush_inbox_cons hinbox
    exact hguard ⟨hthrown, by simp [hinbox]⟩ now rfl n stamp tail device _ hflushed
  refine ⟨_, more, hnext, ?_⟩
  rw [hmeets, hread]
  cases Routine.recent now stamp <;> simp

/-! ## An undisturbed verdict -/

/-- A database with one device that was last heard of at the given time. -/
def heardStore (stamp : Nat) : Store :=
  fun key =>
    if key = devicesKey then some (.set {"adc00000001"})
    else if key = recordKey "adc00000001" then
      some (.hash (Hash.none.setAll [("last_ping", stamp.repr)]))
    else none

/-- A tick of the routine up to the answer about the device. -/
def routineTurns (now : Nat) : List Action :=
  [.event .routineTick now, .execute, .deliver now, .execute]

theorem run_routineTurns (stamp now : Nat) :
    (server platform).run (boot (heardStore stamp)) (routineTurns now) =
      { boot (heardStore stamp) with
        inbox := [⟨1, .array [some stamp.repr], .routineHmget "adc00000001"⟩]
        executed := 2
        history := [(0, .routineTick)] } := by
  have hdevices : heardStore stamp devicesKey = some (.set {"adc00000001"}) := rfl
  have hrecord : heardStore stamp (recordKey "adc00000001") =
      some (.hash (Hash.none.setAll [("last_ping", stamp.repr)])) := rfl
  simp [routineTurns, Pipeline.Client.step, Pipeline.Client.occur, Pipeline.Client.answer,
    Pipeline.State.perform, Pipeline.State.record, boot, Pipeline.State.start, server, onEvent,
    onReply, finish, execute, hdevices, hrecord, Operation.update, Operation.reply,
    enumerate_singleton, Routine.smembers]
  -- Both commands have only read.
  rw [← hdevices, Function.update_eq_self]
  exact Function.update_eq_self (recordKey "adc00000001") (heardStore stamp)

/-- A device that was heard of a second ago is marked active. -/
theorem verdict_right_when_written_recent : ∃ more,
    ((server referencePlatform).run (boot (heardStore 1000))
      (routineTurns 2000 ++ .deliver 2000 :: [])).outbox =
      (⟨recordKey "adc00000001", .hmset [("active", "true")]⟩, .ignored) :: more := by
  have hrun := run_routineTurns referencePlatform 1000 2000
  have hguarded : (server referencePlatform).Guarded undisturbedGuard (boot (heardStore 1000))
      (routineTurns 2000 ++ .deliver 2000 :: []) := by
    refine (server referencePlatform).guarded_append.mpr ⟨⟨?_, ?_, ?_, ?_, trivial⟩, ?_, trivial⟩
    · rintro _ _ ⟨⟩
    · rintro _ _ ⟨⟩
    · rintro _ _ ⟨⟩ n stamp tail device rest hinbox
      cases hinbox
    · rintro _ _ ⟨⟩
    · rw [hrun]
      rintro _ _ ⟨⟩ n stamp tail device rest hinbox
      cases hinbox
      rfl
  obtain ⟨value, more, hnext, hvalue⟩ := verdict_right_when_written referencePlatform hguarded
    (by rw [hrun]; rfl) (by rw [hrun]) (by
      rw [Pipeline.Client.run_append, hrun]
      rfl)
  have hactive : value = "true" := by
    rw [hvalue, Pipeline.Client.run_append, hrun]
    exact (recent_repr 2000 1000).mpr (by decide)
  exact ⟨more, hactive ▸ hnext⟩

/-! ## A disturbed verdict -/

/-- A device registers at time 0. At 5000 the routine reads when it was last heard
of, and a datagram of the device is handled before the answer. -/
@[irreducible]
def disturbedSchedule : List Action :=
  (.event (.tcpData "10.0.0.2" 4000 [samplePing]) 0 :: rounds 1030) ++
    eventRound .routineTick 5000 1 ++ replyRound 5000 1 ++
    eventRound (.udpMessage sampleReading "10.0.0.2" 4001) 5000 5

/-- What the routine is told. -/
def disturbedReplies : Callback → Reply → Prop
  | .routineSmembers, reply => reply = .members ["adc00000001"]
  | .routineHmget _, reply => reply = .array [some (Nat.repr 0)]
  | _, _ => True

/-- The writes of the datagram. -/
def disturbingWrites : List Command :=
  [⟨msgCountKey, .incr⟩, ⟨dataKey "adc00000001", .lpush "0512"⟩,
    ⟨dataKey "adc00000001", .ltrim 0 999⟩,
    ⟨recordKey "adc00000001", .hmset [("last_ping", Nat.repr 5000), ("udp_port", Nat.repr 4001)]⟩,
    ⟨recordKey "adc00000001", .hincrby "msg_count" 1⟩]

theorem trace_disturbed : ∃ s, Trace referencePlatform empty disturbedReplies disturbedSchedule s
    (.routineHmget "adc00000001" :: List.replicate 5 .ignored)
    (registrationWrites referencePlatform "adc00000001" "10.0.0.2" 4000 0 ++
      disturbingWrites) := by
  have hignored : ∀ reply, disturbedReplies .ignored reply := fun _ => trivial
  obtain ⟨_, h₀⟩ := trace_registration referencePlatform "adc00000001" "10.0.0.2" 4000 0
    isPingOf_samplePing disturbedReplies
  have h₁ := h₀.event .routineTick 5000 1 [.routineSmembers] [] rfl (fun _ => ⟨rfl, rfl⟩) rfl
    hignored (by
      intro command callback ordinal hstarts
      cases hstarts with
      | routineTick =>
          simp only [disturbedReplies]
          rw [devices_loop referencePlatform "10.0.0.2" 4000 rfl]
          simp [Operation.reply, enumerate_singleton])
  obtain ⟨_, _, _, _, h₂⟩ := h₁.deliver 5000 1 [.routineHmget "adc00000001"] [] rfl (by
      intro ordinal reply memory hreply
      have hmembers : reply = .members ["adc00000001"] := hreply
      subst hmembers
      exact ⟨rfl, rfl, rfl⟩) hignored (by
      intro askedAt reply command asked ordinal hreply hfollows
      cases hfollows with
      | routineHmget hmem =>
          have hdevices := Reply.members.inj hreply
          subst hdevices
          have hname := List.mem_singleton.mp hmem
          subst hname
          have hrecord := record_registrationWrites referencePlatform "adc00000001" "10.0.0.2"
            4000 0
          simp only [List.append_nil, disturbedReplies, empty, hrecord]
          rfl)
  have h₃ := h₂.event (.udpMessage sampleReading "10.0.0.2" 4001) 5000 5
    (List.replicate 5 .ignored) disturbingWrites rfl
    (fun _ => by simp [onEvent, finish, UDP.message, accept_sampleReading, silent])
    (by simp [eventWrites, accept_sampleReading, disturbingWrites]) hignored
    (fun _ _ _ hstarts => by cases hstarts)
  unfold disturbedSchedule
  simp only [List.append_nil, List.nil_append] at h₃
  exact ⟨_, h₃⟩

/-- The clock stands still during a registration. -/
theorem timely_registration {event : Event} {later : List Action}
    (hlater : Pipeline.Timely 0 later) :
    Pipeline.Timely 0 ((.event event 0 :: rounds 1030) ++ later) := by
  apply Pipeline.timely_append_of_const _ hlater
  intro action hmem now htime
  rcases List.mem_cons.mp hmem with rfl | hround
  · exact (Option.some.inj htime).symm
  · unfold rounds at hround
    obtain ⟨round, hround, haction⟩ := List.mem_flatten.mp hround
    rw [List.eq_of_mem_replicate hround] at haction
    simp only [List.mem_cons, List.not_mem_nil, or_false] at haction
    rcases haction with rfl | rfl
    · cases htime
    · exact (Option.some.inj htime).symm

theorem timely_disturbedSchedule :
    Pipeline.Timely 0 (disturbedSchedule ++ .deliver 5000 :: []) := by
  unfold disturbedSchedule
  rw [List.append_assoc, List.append_assoc, List.append_assoc]
  apply timely_registration
  simp [eventRound, replyRound, Pipeline.Timely, Pipeline.Action.time]

/-- The device is marked inactive although it has just been heard of. -/
theorem verdict_stale_when_written : ∃ n stamp tail rest more,
    Pipeline.Timely 0 (disturbedSchedule ++ .deliver 5000 :: []) ∧
    ((server referencePlatform).run (boot empty) disturbedSchedule).thrown = false ∧
    ((server referencePlatform).run (boot empty) disturbedSchedule).inbox =
      ⟨n, .array (stamp :: tail), .routineHmget "adc00000001"⟩ :: rest ∧
    ((server referencePlatform).run (boot empty)
      (disturbedSchedule ++ .deliver 5000 :: [])).outbox =
      (⟨recordKey "adc00000001", .hmset [("active", "false")]⟩, .ignored) :: more ∧
    Routine.recent 5000 (lastPing ((server referencePlatform).run (boot empty)
      (disturbedSchedule ++ .deliver 5000 :: [])).store "adc00000001") = true := by
  obtain ⟨s, htrace⟩ := trace_disturbed
  obtain ⟨a, rest, hinbox, hcallback, _⟩ := List.map_eq_cons_iff.mp htrace.callbacks
  have hreply : a.reply = .array [some (Nat.repr 0)] := by
    have hexpected := htrace.expected a (hinbox ▸ List.mem_cons_self)
    rw [hcallback] at hexpected
    exact hexpected
  have hanswer : s.inbox =
      ⟨a.ordinal, .array [some (Nat.repr 0)], .routineHmget "adc00000001"⟩ :: rest := by
    rw [hinbox, ← hreply, ← hcallback]
  obtain ⟨houtbox, _, hstore⟩ :=
    outbox_deliver_routineHmget referencePlatform 5000 htrace.thrown hanswer
  have hlate : Routine.recent 5000 (some (Nat.repr 0)) = false := by
    apply Bool.eq_false_iff.mpr
    intro hrecent
    exact absurd ((recent_repr 5000 0).mp hrecent) (by decide)
  have hheard : lastPing s.store "adc00000001" = some (Nat.repr 5000) := by
    have hdata : dataKey "adc00000001" ≠ recordKey "adc00000001" := by decide
    have hops : opsAt (recordKey "adc00000001") disturbingWrites =
        recordOps [("last_ping", Nat.repr 5000), ("udp_port", Nat.repr 4001)] true := by
      simp [disturbingWrites, opsAt_cons, (recordKey_ne_msgCountKey _).symm, hdata, recordOps]
    rw [lastPing, fieldAt, htrace.store, opsAt_append, applyAll_append,
      show empty (recordKey "adc00000001") = none from rfl, record_registrationWrites, hops]
    decide
  refine ⟨a.ordinal, some (Nat.repr 0), [], rest, [], timely_disturbedSchedule, ?_, ?_, ?_, ?_⟩
  · rw [htrace.run]
    exact htrace.thrown
  · rw [htrace.run]
    exact hanswer
  · rw [Pipeline.Client.run_append, htrace.run, Pipeline.Client.run_cons, Pipeline.Client.run_nil,
      houtbox, htrace.outbox, hlate]
    rfl
  · rw [Pipeline.Client.run_append, htrace.run, Pipeline.Client.run_cons, Pipeline.Client.run_nil,
      hstore, hheard]
    exact (recent_repr 5000 5000).mpr (by decide)

end RealTimeWs
