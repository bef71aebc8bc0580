import RealTimeWs.Concentrator.Callbacks

/-! # What the PING client gives back

A connection is closed in the same callback that opened it, so between two events no
callback listens and everything that is still allocated is lost. This happens when the
pool has no buffer for a structure, and when a buffer is not accepted at the first
attempt: the callback that would try again has been removed by then.
-/

namespace RealTimeWs

open Memory

/-- Nothing is called for the connection any more. -/
def World.quiet (world : World) (tpcb : Nat) : Prop :=
  ∀ pcb, world.pcbs[tpcb]? = some pcb → pcb.listens = false

/-- A structure is freed once its connection is quiet, and a buffer once no structure leads
to it. -/
structure NothingLost (world : World) : Prop where
  structures : ∀ address client, world.clients.lookup address = some client →
    ¬ world.quiet client.pcb
  buffers : ∀ buffer pbuf, world.pbufs.lookup buffer = some pbuf →
    ∃ address client addresses, world.clients.lookup address = some client ∧
      Chain world.pbufs client.pTx addresses ∧ buffer ∈ addresses

/-- The connection gets its buffers, and all of them are accepted at the first attempt. -/
def Smooth (world : World) : LwipEvent → Prop
  | .connected tpcb err answers =>
      world.calls tpcb TcpPcb.connected ≠ none → err = .ok → answers.memMalloc = true →
        answers.pbufSizes ≠ [] ∧ Accepted answers.tcpWrite answers.pbufSizes
  | _ => True

/-! ## Between two events -/

/-- No structure and no buffer is allocated. -/
def World.Empty (world : World) : Prop :=
  (∀ address, world.clients.lookup address = none) ∧ ∀ buffer, world.pbufs.lookup buffer = none

section Between

variable {world world' : World}

theorem World.Empty.live (hempty : world.Empty) :
    world.clients.live = 0 ∧ world.pbufs.live = 0 :=
  ⟨Heap.live_eq_zero_iff.mpr hempty.1, Heap.live_eq_zero_iff.mpr hempty.2⟩

theorem World.Empty.nothingLost (hempty : world.Empty) : NothingLost world where
  structures := by
    intro address client hlookup
    rw [hempty.1 address] at hlookup
    cases hlookup
  buffers := by
    intro buffer pbuf hlookup
    rw [hempty.2 buffer] at hlookup
    cases hlookup

theorem NothingLost.empty (hkept : NothingLost world) (hquiet : ∀ tpcb, world.quiet tpcb) :
    world.Empty := by
  have hclients : ∀ address, world.clients.lookup address = none := by
    intro address
    cases hlookup : world.clients.lookup address with
    | none => rfl
    | some client => exact absurd (hquiet client.pcb) (hkept.structures address client hlookup)
  refine ⟨hclients, fun buffer => ?_⟩
  cases hlookup : world.pbufs.lookup buffer with
  | none => rfl
  | some pbuf =>
      obtain ⟨address, client, _, hclient, _, _⟩ := hkept.buffers buffer pbuf hlookup
      rw [hclients address] at hclient
      cases hclient

/-- A quiet connection calls none of the callbacks that use a structure. -/
theorem calls_eq_none {tpcb : Nat} {callback : TcpPcb → Bool} (hquiet : world.quiet tpcb)
    (hlistens : ∀ pcb, callback pcb = true → pcb.listens = true) :
    world.calls tpcb callback = none := by
  rw [World.calls, Option.filter_eq_none_iff]
  intro pcb hpcb hcallback
  have hlistens' := hlistens pcb hcallback
  rw [hquiet pcb hpcb] at hlistens'
  cases hlistens'

theorem ClosedPcb.quiet_all {tpcb : Nat} (hclosed : ClosedPcb world world' tpcb)
    (hquiet : ∀ tpcb, world.quiet tpcb) (other : Nat) : world'.quiet other := by
  intro pcb hpcb
  by_cases heq : other = tpcb
  · subst heq
    exact hclosed.quiet pcb hpcb
  · rw [hclosed.others other heq] at hpcb
    exact hquiet other pcb hpcb

theorem Connects.quiet_all {tpcb : Nat} {err : Err} {answers : Answers}
    (hconnects : Connects world world' tpcb err answers) (hquiet : ∀ tpcb, world.quiet tpcb) :
    ∀ other, world'.quiet other := by
  cases hconnects with
  | refused _ _ hclosed => exact hclosed.quiet_all hquiet
  | starved _ _ _ hworld =>
      subst hworld
      exact hquiet
  | sent _ _ _ _ _ _ _ _ hclosed => exact hclosed.quiet_all hquiet

/-- The callback of an established connection leaves nothing exactly when it went smoothly. -/
theorem Connects.empty_iff {tpcb : Nat} {err : Err} {answers : Answers}
    (hconnects : Connects world world' tpcb err answers) (hempty : world.Empty) :
    world'.Empty ↔ (err = .ok → answers.memMalloc = true →
      answers.pbufSizes ≠ [] ∧ Accepted answers.tcpWrite answers.pbufSizes) := by
  cases hconnects with
  | refused hrefused hclients hclosed =>
      have hempty' : world'.Empty := by
        rw [World.Empty, hclients, hclosed.pbufs]
        exact hempty
      refine iff_of_true hempty' fun herr hmalloc => ?_
      rcases hrefused with hrefused | hrefused
      · exact absurd herr hrefused
      · rw [hmalloc] at hrefused
        cases hrefused
  | starved herr hmalloc hsizes hworld =>
      refine iff_of_false ?_ (fun hsmooth => (hsmooth herr hmalloc).1 hsizes)
      intro hempty'
      have hleft := Heap.lookup_alloc_self world.clients ⟨.connected, tpcb, none⟩
      rw [hworld] at hempty'
      rw [hempty'.1] at hleft
      cases hleft
  | sent herr hmalloc hsizes hclients rest htaken hlive hall hclosed =>
      have hrest : world'.Empty ↔ rest = [] := by
        constructor
        · intro hempty'
          apply List.eq_nil_iff_forall_not_mem.mpr
          intro buffer hmem
          obtain ⟨pbuf, hpbuf⟩ := hlive buffer hmem
          rw [hempty'.2 buffer] at hpbuf
          cases hpbuf
        · intro hnone
          subst hnone
          refine ⟨fun address => ?_, fun buffer => ?_⟩
          · rw [hclients address, hempty.1 address]
          · rw [htaken.rest buffer List.not_mem_nil, hempty.2 buffer]
      rw [hrest, hall]
      exact ⟨fun haccepted _ _ => ⟨hsizes, haccepted⟩, fun hsmooth => (hsmooth herr hmalloc).2⟩

/-- One event. Only the callback of an established connection runs. -/
theorem deliver_quiet (deviceUid : List Char) (hquiet : ∀ tpcb, world.quiet tpcb)
    (event : LwipEvent) :
    Returns (deliver deviceUid world event) fun world' =>
      (∀ tpcb, world'.quiet tpcb) ∧ (world.Empty → (world'.Empty ↔ Smooth world event)) := by
  have hunchanged : (∀ tpcb, world.quiet tpcb) ∧ (world.Empty → (world.Empty ↔ True)) :=
    ⟨hquiet, fun hempty => iff_of_true hempty trivial⟩
  cases event with
  | connect opens =>
      simp only [deliver]
      cases opens with
      | false => exact Returns.ok hunchanged
      | true =>
          refine Returns.ok ⟨fun tpcb pcb hpcb => ?_, fun hempty => iff_of_true hempty trivial⟩
          rcases pcb_of_opened hpcb with hold | rfl
          · exact hquiet tpcb pcb hold
          · rfl
  | connected tpcb err answers =>
      simp only [deliver, Smooth]
      cases hcalls : world.calls tpcb TcpPcb.connected with
      | none =>
          refine Returns.ok ⟨hquiet, fun hempty => iff_of_true hempty ?_⟩
          exact fun hcalled => absurd rfl hcalled
      | some pcb =>
          apply Returns.map
          apply (connected_cases deviceUid answers tpcb err world).mono
          intro result hconnects
          refine ⟨hconnects.quiet_all hquiet, fun hempty => ?_⟩
          rw [hconnects.empty_iff hempty]
          simp
  | received tpcb payloads err answers =>
      have hcalls : world.calls tpcb TcpPcb.recv = none :=
        calls_eq_none (hquiet tpcb) (fun pcb hrecv => by simp [TcpPcb.listens, hrecv])
      simp only [deliver, hcalls]
      exact Returns.ok hunchanged
  | sent tpcb answers =>
      have hcalls : world.calls tpcb TcpPcb.sent = none :=
        calls_eq_none (hquiet tpcb) (fun pcb hsent => by simp [TcpPcb.listens, hsent])
      simp only [deliver, hcalls]
      exact Returns.ok hunchanged
  | poll tpcb answers =>
      have hcalls : world.calls tpcb TcpPcb.poll = none :=
        calls_eq_none (hquiet tpcb) (fun pcb hpoll => by simp [TcpPcb.listens, hpoll])
      simp only [deliver, hcalls]
      exact Returns.ok hunchanged
  | abort tpcb =>
      refine Returns.ok ⟨fun other pcb hpcb => ?_, fun hempty => iff_of_true hempty trivial⟩
      obtain ⟨before, hbefore, hpcb⟩ := World.exists_of_withPcb hpcb
      by_cases heq : other = tpcb
      · rw [if_pos heq] at hpcb
        subst hpcb
        rfl
      · rw [if_neg heq] at hpcb
        subst hpcb
        exact hquiet other pcb hbefore

end Between

/-! ## Runs -/

section Runs

variable (deviceUid : List Char)

theorem deliverAll_snoc (world : World) (past : List LwipEvent) (event : LwipEvent) :
    deliverAll deviceUid world (past ++ [event]) =
      deliverAll deviceUid world past >>= fun world => deliver deviceUid world event := by
  induction past generalizing world with
  | nil =>
      simp only [List.nil_append, deliverAll, bind_ok]
      exact bind_pure _
  | cons first past ih =>
      simp only [List.cons_append, deliverAll, bind_assoc]
      apply bind_congr
      intro world'
      exact ih world'

theorem deliverAll_quiet (past : List LwipEvent) :
    Returns (deliverAll deviceUid {} past) fun world => ∀ tpcb, world.quiet tpcb := by
  induction past using List.reverseRecOn with
  | nil => exact Returns.ok (fun tpcb pcb hpcb => by cases hpcb)
  | append_singleton past event ih =>
      rw [deliverAll_snoc]
      apply ih.bind
      intro world hquiet
      exact (deliver_quiet deviceUid hquiet event).mono fun world' hafter => hafter.1

/-- Every state of a run is empty exactly when every event before it went smoothly. -/
theorem empty_iff_smooth (events : List LwipEvent) :
    (∀ past, past <+: events → ∀ world, deliverAll deviceUid {} past = .ok world → world.Empty) ↔
      ∀ past event, past ++ [event] <+: events → ∀ world,
        deliverAll deviceUid {} past = .ok world → Smooth world event := by
  have hstep : ∀ past event world, deliverAll deviceUid {} past = .ok world → world.Empty →
      ∃ world', deliverAll deviceUid {} (past ++ [event]) = .ok world' ∧
        (world'.Empty ↔ Smooth world event) := by
    intro past event world hworld hempty
    obtain ⟨_, hsame, hquiet⟩ := deliverAll_quiet deviceUid past
    rw [hworld] at hsame
    cases hsame
    obtain ⟨world', hworld', _, hiff⟩ := deliver_quiet deviceUid hquiet event
    refine ⟨world', ?_, hiff hempty⟩
    rw [deliverAll_snoc, hworld, bind_ok, hworld']
  constructor
  · intro hall past event hprefix world hworld
    have hpast : past <+: events := (List.prefix_append past [event]).trans hprefix
    obtain ⟨world', hworld', hiff⟩ := hstep past event world hworld (hall past hpast world hworld)
    exact hiff.mp (hall (past ++ [event]) hprefix world' hworld')
  · intro hsmooth past
    induction past using List.reverseRecOn with
    | nil =>
        intro _ world hworld
        cases hworld
        exact ⟨fun _ => Heap.lookup_empty, fun _ => Heap.lookup_empty⟩
    | append_singleton past event ih =>
        intro hprefix world' hworld'
        have hpast : past <+: events := (List.prefix_append past [event]).trans hprefix
        obtain ⟨world, hworld, _⟩ := deliverAll_quiet deviceUid past
        obtain ⟨_, hsame, hiff⟩ := hstep past event world hworld (ih hpast world hworld)
        rw [hworld'] at hsame
        cases hsame
        exact hiff.mpr (hsmooth past event hprefix world hworld)

/-- In every state of a run nothing is lost, and as many structures and buffers are live as
before the first connection, exactly when each connection of the run gets its buffers and has
all of them accepted before it is closed. -/
theorem nothing_lost_iff (events : List LwipEvent) :
    (∀ past, past <+: events → ∀ world, deliverAll deviceUid {} past = .ok world →
      NothingLost world ∧ ((∀ tpcb, world.quiet tpcb) →
        world.clients.live = 0 ∧ world.pbufs.live = 0)) ↔
      ∀ past event, past ++ [event] <+: events → ∀ world,
        deliverAll deviceUid {} past = .ok world → Smooth world event := by
  rw [← empty_iff_smooth]
  constructor
  · intro hall past hprefix world hworld
    obtain ⟨_, hsame, hquiet⟩ := deliverAll_quiet deviceUid past
    rw [hworld] at hsame
    cases hsame
    exact (hall past hprefix world hworld).1.empty hquiet
  · intro hall past hprefix world hworld
    have hempty := hall past hprefix world hworld
    exact ⟨hempty.nothingLost, fun _ => hempty.live⟩

/-- The stack is low on memory when the first message is written. -/
def lowMemory : Answers where
  memMalloc := true
  pbufSizes := [32]
  tcpWrite := fun _ => ⟨5840, .mem⟩
  tcpCloseReleases := false

/-- A refused write: the connection is gone and calls nothing any more, its structure is freed,
and its buffer stays allocated. -/
theorem refused_write_lost : ∃ world,
    deliverAll "TEMP_000003".toList {} [.connect true, .connected 0 .ok lowMemory, .abort 0] =
      .ok world ∧
    (∀ pcb ∈ world.pcbs, pcb.connected = false ∧ pcb.listens = false) ∧
    world.clients.live = 0 ∧ world.pbufs.live = 1 ∧ ¬ NothingLost world := by
  have hrun : ∃ world,
      deliverAll "TEMP_000003".toList {} [.connect true, .connected 0 .ok lowMemory, .abort 0] =
        .ok world ∧
      (∀ pcb ∈ world.pcbs, pcb.connected = false ∧ pcb.listens = false) ∧
      world.clients.live = 0 ∧ world.pbufs.live = 1 :=
    ⟨_, rfl, by decide, by decide, by decide⟩
  obtain ⟨world, hworld, hpcbs, hclients, hpbufs⟩ := hrun
  refine ⟨world, hworld, hpcbs, hclients, hpbufs, fun hkept => ?_⟩
  have hempty := hkept.empty fun tpcb pcb hpcb => (hpcbs pcb (List.mem_of_getElem? hpcb)).2
  rw [hempty.live.2] at hpbufs
  cases hpbufs

end Runs

end RealTimeWs
