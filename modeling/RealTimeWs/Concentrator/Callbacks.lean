import RealTimeWs.Concentrator.PingClient
import Mathlib.Data.List.Lattice
import Mathlib.Logic.Function.Basic

/-! # Callbacks and the structures they share

A control block that still calls back holds a pointer to a live structure, and this
structure names the control block. So the structure that one callback frees is out of
reach of all others, and every callback keeps this true on each of its paths.
-/

namespace RealTimeWs

open Memory

/-! ## The parts of a world -/

/-- One of the callbacks that use the structure is registered. -/
def TcpPcb.listens (pcb : TcpPcb) : Bool := pcb.recv || pcb.sent || pcb.poll

section Parts

variable {world : World} {tpcb : Nat}

theorem World.withPcb_pcbs_of_ne {change : TcpPcb → TcpPcb} {other : Nat} (hne : tpcb ≠ other) :
    (world.withPcb tpcb change).pcbs[other]? = world.pcbs[other]? :=
  List.getElem?_modify_ne change world.pcbs hne

theorem World.withPcb_pcbs_self {change : TcpPcb → TcpPcb} :
    (world.withPcb tpcb change).pcbs[tpcb]? = world.pcbs[tpcb]?.map change :=
  List.getElem?_modify_eq change tpcb world.pcbs

@[simp] theorem World.withPcb_clients {change : TcpPcb → TcpPcb} :
    (world.withPcb tpcb change).clients = world.clients := rfl

@[simp] theorem World.withPcb_pbufs {change : TcpPcb → TcpPcb} :
    (world.withPcb tpcb change).pbufs = world.pbufs := rfl

theorem World.exists_of_withPcb {change : TcpPcb → TcpPcb} {other : Nat} {pcb : TcpPcb}
    (hpcb : (world.withPcb tpcb change).pcbs[other]? = some pcb) :
    ∃ before, world.pcbs[other]? = some before ∧
      pcb = if other = tpcb then change before else before := by
  by_cases hother : other = tpcb
  · subst hother
    rw [World.withPcb_pcbs_self] at hpcb
    obtain ⟨before, hbefore, rfl⟩ := Option.map_eq_some_iff.mp hpcb
    exact ⟨before, hbefore, (if_pos rfl).symm⟩
  · rw [World.withPcb_pcbs_of_ne (fun heq => hother heq.symm)] at hpcb
    exact ⟨pcb, hpcb, (if_neg hother).symm⟩

/-- A control block of the world after a connection was opened. -/
theorem pcb_of_opened {other : Nat} {pcb : TcpPcb}
    (hpcb : (world.pcbs ++ [({ connected := true } : TcpPcb)])[other]? = some pcb) :
    world.pcbs[other]? = some pcb ∨ pcb = { connected := true } := by
  rcases Nat.lt_or_ge other world.pcbs.length with hlt | hge
  · rw [List.getElem?_append_left hlt] at hpcb
    exact .inl hpcb
  · rw [List.getElem?_append_right hge] at hpcb
    exact .inr (List.mem_singleton.mp (List.mem_of_getElem? hpcb))

/-- Accepted bytes are appended in the order of the calls. -/
theorem withPcb_queued_append (world : World) (tpcb : Nat) (first second : List UInt8) :
    (world.withPcb tpcb fun pcb => { pcb with queued := pcb.queued ++ first }).withPcb tpcb
        (fun pcb => { pcb with queued := pcb.queued ++ second }) =
      world.withPcb tpcb fun pcb => { pcb with queued := pcb.queued ++ (first ++ second) } := by
  simp only [World.withPcb, List.modify_modify_eq, Function.comp_def, List.append_assoc]

theorem withPcb_queued_nil :
    (world.withPcb tpcb fun pcb => { pcb with queued := pcb.queued ++ [] }) = world := by
  have hid : (fun pcb : TcpPcb => { pcb with queued := pcb.queued ++ [] }) = id := by
    funext pcb
    simp
  rw [World.withPcb, hid, List.modify_id]

end Parts

/-! ## The sending function -/

/-- The calls of `tcp_write` accept buffers of these lengths, one after the other. -/
def Accepted (writes : Nat → Write) (lengths : List Nat) : Prop :=
  ∀ call length, lengths[call]? = some length →
    length ≤ (writes call).sndbuf ∧ (writes call).result = .ok

theorem accepted_cons {writes : Nat → Write} {length : Nat} {lengths : List Nat} :
    Accepted writes (length :: lengths) ↔
      (length ≤ (writes 0).sndbuf ∧ (writes 0).result = .ok) ∧
        Accepted (fun call => writes (call + 1)) lengths := by
  constructor
  · intro haccepted
    exact ⟨haccepted 0 length rfl, fun call other hother => haccepted (call + 1) other hother⟩
  · intro haccepted call other hother
    cases call with
    | zero =>
        obtain rfl : length = other := by simpa using hother
        exact haccepted.1
    | succ call => exact haccepted.2 call other hother

/-- What sending has done: the buffers in `done` were accepted and released, those in `rest`
are left in `p_tx`, and nothing else has changed. -/
structure SentChain (world world' : World) (tpcb address : Nat) (client : Echoclient)
    (done rest : List Nat) (pTx : Option Nat) : Prop where
  pcbs : world'.pcbs = (world.withPcb tpcb fun pcb =>
    { pcb with queued := pcb.queued ++ contents world.pbufs done }).pcbs
  clients : world'.clients = world.clients.put address (some { client with pTx := pTx })
  pbufs : ∀ buffer, world'.pbufs.lookup buffer =
    if buffer ∈ done then none else world.pbufs.lookup buffer
  chain : Chain world'.pbufs pTx rest

section Sending

variable {world : World} {tpcb address : Nat} {client : Echoclient} {addresses : List Nat}

/-- Sending that accepts nothing. -/
theorem SentChain.refl (hlookup : world.clients.lookup address = some client)
    (hchain : Chain world.pbufs client.pTx addresses) :
    SentChain world world tpcb address client [] addresses client.pTx where
  pcbs := by
    rw [show contents world.pbufs [] = [] from rfl, withPcb_queued_nil]
  clients := (Heap.put_self hlookup).symm
  pbufs := fun buffer => by simp
  chain := hchain

/-- The world after one round of the loop, which took the buffer at the head. -/
def acceptedHead (world : World) (tpcb address : Nat) (client : Echoclient) (ptr : Nat)
    (pbuf : Pbuf) : World :=
  { world.withPcb tpcb (fun pcb => { pcb with queued := pcb.queued ++ pbuf.payload }) with
    clients := world.clients.put address (some { client with pTx := pbuf.next })
    pbufs := world.pbufs.put ptr none }

/-- One accepted buffer, and then the rest of the chain. -/
theorem SentChain.cons {world' : World} {ptr : Nat} {pbuf : Pbuf} {done rest : List Nat}
    {pTx : Option Nat} (hpbuf : world.pbufs.lookup ptr = some pbuf) (hnot : ptr ∉ done)
    (hsent : SentChain (acceptedHead world tpcb address client ptr pbuf) world' tpcb address
      { client with pTx := pbuf.next } done rest pTx) :
    SentChain world world' tpcb address client (ptr :: done) rest pTx where
  pcbs := by
    have hsame : contents (world.pbufs.put ptr none) done = contents world.pbufs done := by
      apply contents_congr
      intro buffer hmem
      rw [Heap.lookup_put hpbuf, if_neg (ne_of_mem_of_not_mem hmem hnot)]
    have hqueued := congrArg World.pcbs
      (withPcb_queued_append world tpcb pbuf.payload (contents world.pbufs done))
    rw [hsent.pcbs, acceptedHead, contents_cons hpbuf, ← hqueued, hsame]
    rfl
  clients := by
    rw [hsent.clients, acceptedHead, Heap.put_put]
  pbufs := by
    intro buffer
    rw [hsent.pbufs buffer, acceptedHead, Heap.lookup_put hpbuf]
    by_cases hptr : buffer = ptr <;> simp [hptr]
  chain := hsent.chain

/-- The loop ends. It is an induction over the chain: each round releases its head and puts
the rest in its place. -/
theorem sendFrom_chain {fuel : Nat} (hfuel : addresses.length < fuel)
    (hlookup : world.clients.lookup address = some client)
    (hchain : Chain world.pbufs client.pTx addresses) (writes : Nat → Write) :
    Returns (tcpEchoclientSendFrom tpcb (some address) fuel writes world) fun world' =>
      ∃ done rest pTx, addresses = done ++ rest ∧
        SentChain world world' tpcb address client done rest pTx ∧
        (rest = [] ↔ Accepted writes (lengths world.pbufs addresses)) := by
  induction addresses generalizing fuel world client writes with
  | nil =>
      obtain ⟨fuel, rfl⟩ : ∃ more, fuel = more + 1 := ⟨fuel - 1, by omega⟩
      have hnone : client.pTx = none := hchain
      simp only [tcpEchoclientSendFrom, Heap.read_of_lookup hlookup, bind_ok, hnone]
      refine Returns.ok ⟨[], [], client.pTx, rfl, SentChain.refl hlookup hchain, ?_⟩
      exact iff_of_true rfl (fun call length hlength => by simp [lengths] at hlength)
  | cons ptr rest ih =>
      obtain ⟨fuel, rfl⟩ : ∃ more, fuel = more + 1 := ⟨fuel - 1, by omega⟩
      have hstop : SentChain world world tpcb address client [] (ptr :: rest) client.pTx :=
        SentChain.refl hlookup hchain
      obtain ⟨hptr, hnot, pbuf, hpbuf, href, hrest⟩ := hchain
      rw [lengths_cons hpbuf, accepted_cons]
      simp only [tcpEchoclientSendFrom, Heap.read_of_lookup hlookup, bind_ok, hptr,
        Heap.read_of_lookup hpbuf]
      by_cases hroom : pbuf.len ≤ (writes 0).sndbuf
      · rw [if_pos hroom]
        cases hresult : (writes 0).result with
        | ok =>
            have hothers : ∀ buffer ∈ rest,
                (world.pbufs.put ptr none).lookup buffer = world.pbufs.lookup buffer := by
              intro buffer hmem
              rw [Heap.lookup_put hpbuf, if_neg (ne_of_mem_of_not_mem hmem hnot)]
            simp only [World.withPcb_clients, World.withPcb_pbufs, Heap.write_of_lookup hlookup,
              bind_ok]
            rw [← bind_assoc, pbufFree_head hnot hpbuf href hrest, bind_ok]
            have hlookup' : (acceptedHead world tpcb address client ptr pbuf).clients.lookup
                address = some { client with pTx := pbuf.next } := by
              rw [acceptedHead, Heap.lookup_put hlookup, if_pos rfl]
            have hloop := ih (Nat.lt_of_succ_lt_succ hfuel) hlookup' (hrest.congr hothers)
              (fun call => writes (call + 1))
            apply hloop.mono
            rintro world' ⟨done, remaining, pTx, rfl, hsent, hall⟩
            have hnot' : ptr ∉ done := fun hmem => hnot (List.mem_append_left _ hmem)
            refine ⟨ptr :: done, remaining, pTx, rfl, hsent.cons hpbuf hnot', ?_⟩
            rw [hall, acceptedHead, lengths_congr hothers]
            simp [hroom]
        | mem =>
            have hback : { client with pTx := some ptr } = client := by rw [← hptr]
            simp only [Heap.write_of_lookup hlookup, bind_ok, hback, Heap.put_self hlookup]
            exact Returns.ok ⟨[], ptr :: rest, client.pTx, rfl, hstop, by simp⟩
        | abrt => exact Returns.ok ⟨[], ptr :: rest, client.pTx, rfl, hstop, by simp⟩
        | other code => exact Returns.ok ⟨[], ptr :: rest, client.pTx, rfl, hstop, by simp⟩
      · rw [if_neg hroom]
        exact Returns.ok ⟨[], ptr :: rest, client.pTx, rfl, hstop, by simp [hroom]⟩

theorem send_chain (hlookup : world.clients.lookup address = some client)
    (hchain : Chain world.pbufs client.pTx addresses) (answers : Answers) :
    Returns (tcpEchoclientSend answers tpcb (some address) world) fun world' =>
      ∃ done rest pTx, addresses = done ++ rest ∧
        SentChain world world' tpcb address client done rest pTx ∧
        (rest = [] ↔ Accepted answers.tcpWrite (lengths world.pbufs addresses)) :=
  sendFrom_chain (Nat.lt_succ_of_le hchain.length_le) hlookup hchain answers.tcpWrite

/-- What the sending function keeps and gives up. The accepted bytes and those of the chain that
is left are the bytes of the chain before; the buffers of the accepted bytes are gone, and all
others are as they were. -/
structure Conserved (world world' : World) (tpcb address : Nat) (addresses : List Nat)
    (accepted : List UInt8) (done rest : List Nat) : Prop where
  split : addresses = done ++ rest
  queued : world'.pcbs[tpcb]?.map TcpPcb.queued =
    world.pcbs[tpcb]?.map fun pcb => pcb.queued ++ accepted
  bytes : accepted ++ contents world'.pbufs rest = contents world.pbufs addresses
  accepted : accepted = contents world.pbufs done
  freed : ∀ buffer ∈ done, world.pbufs.lookup buffer ≠ none ∧ world'.pbufs.lookup buffer = none
  others : ∀ buffer, buffer ∉ done → world'.pbufs.lookup buffer = world.pbufs.lookup buffer
  left : ∃ client, world'.clients.lookup address = some client ∧
    Chain world'.pbufs client.pTx rest

theorem SentChain.conserved {world' : World} {done rest : List Nat} {pTx : Option Nat}
    (hlookup : world.clients.lookup address = some client)
    (hchain : Chain world.pbufs client.pTx (done ++ rest))
    (hsent : SentChain world world' tpcb address client done rest pTx) :
    Conserved world world' tpcb address (done ++ rest) (contents world.pbufs done) done rest where
  split := rfl
  queued := by
    rw [hsent.pcbs, World.withPcb_pcbs_self, Option.map_map]
    rfl
  bytes := by
    -- no buffer of the rest was among those that were freed
    have hdisjoint := List.disjoint_of_nodup_append hchain.nodup
    have hsame : contents world'.pbufs rest = contents world.pbufs rest := by
      apply contents_congr
      intro buffer hmem
      rw [hsent.pbufs buffer, if_neg (fun hdone => hdisjoint hdone hmem)]
    rw [hsame, contents, contents, contents, List.flatMap_append]
  accepted := rfl
  freed := by
    intro buffer hmem
    obtain ⟨pbuf, hpbuf⟩ := hchain.live (List.mem_append_left rest hmem)
    refine ⟨?_, ?_⟩
    · rw [hpbuf]
      exact Option.some_ne_none pbuf
    · rw [hsent.pbufs buffer, if_pos hmem]
  others := by
    intro buffer hmem
    rw [hsent.pbufs buffer, if_neg hmem]
  left := by
    refine ⟨{ client with pTx := pTx }, ?_, hsent.chain⟩
    rw [hsent.clients, Heap.lookup_put hlookup, if_pos rfl]

/-- Whenever the room or the memory of the connection runs out, sending ends, and neither
a byte nor a buffer is lost. Nothing is left if and only if every buffer finds room and memory. -/
theorem send_conserves (hlookup : world.clients.lookup address = some client)
    (hchain : Chain world.pbufs client.pTx addresses) (answers : Answers) (tpcb : Nat) :
    Returns (tcpEchoclientSend answers tpcb (some address) world) fun world' =>
      ∃ accepted done rest, Conserved world world' tpcb address addresses accepted done rest ∧
        (rest = [] ↔ Accepted answers.tcpWrite (lengths world.pbufs addresses)) := by
  apply (send_chain hlookup hchain answers).mono
  intro world' hsent
  obtain ⟨done, rest, pTx, rfl, hsent, hall⟩ := hsent
  exact ⟨_, done, rest, hsent.conserved hlookup hchain, hall⟩

end Sending

/-- A connection with two buffers to send. -/
def twoBuffers : World where
  pcbs := [{}]
  clients := ⟨[some ⟨.connected, 0, some 1⟩]⟩
  pbufs := (pbufChain {} [[1], [2, 3]]).2

/-- The first buffer is accepted, and then there is no memory for the second one. -/
theorem send_conserves_two :
    Returns (tcpEchoclientSend
      ⟨true, [], fun call => ⟨8, if call = 0 then .ok else .mem⟩, false⟩ 0 (some 0) twoBuffers)
      fun world' => ∃ accepted done rest,
        Conserved twoBuffers world' 0 0 [1, 0] accepted done rest ∧
          (rest = [] ↔ Accepted (fun call => ⟨8, if call = 0 then .ok else .mem⟩) [1, 2]) :=
  send_conserves rfl (by
    refine ⟨rfl, by decide, ⟨[1], 1, some 0⟩, rfl, rfl, rfl, by decide, ⟨[2, 3], 1, none⟩, ?_⟩
    exact ⟨rfl, rfl, rfl⟩) _ 0

/-! ## The closing function -/

/-- What closing a connection has done, apart from the structures. -/
structure ClosedPcb (world world' : World) (tpcb : Nat) : Prop where
  pbufs : world'.pbufs = world.pbufs
  others : ∀ other, other ≠ tpcb → world'.pcbs[other]? = world.pcbs[other]?
  quiet : ∀ pcb, world'.pcbs[tpcb]? = some pcb → pcb.listens = false

section Closing

variable {world : World} {answers : Answers} {tpcb : Nat}

theorem closed_pcb (clients : Heap Echoclient) :
    ClosedPcb world (if answers.tcpCloseReleases then
        World.release { world.withPcb tpcb (fun pcb =>
          { pcb with recv := false, sent := false, poll := false }) with clients := clients } tpcb
      else { world.withPcb tpcb (fun pcb =>
          { pcb with recv := false, sent := false, poll := false }) with clients := clients })
      tpcb where
  pbufs := by split <;> rfl
  others := by
    intro other hne
    have hself : ∀ change : TcpPcb → TcpPcb, (world.withPcb tpcb change).pcbs[other]? =
        world.pcbs[other]? := fun change => World.withPcb_pcbs_of_ne hne.symm
    split
    · rw [World.release, World.withPcb_pcbs_of_ne hne.symm]
      exact hself _
    · exact hself _
  quiet := by
    intro pcb hpcb
    split at hpcb
    · obtain ⟨before, _, hpcb⟩ := World.exists_of_withPcb hpcb
      rw [if_pos rfl] at hpcb
      rw [hpcb]
      rfl
    · have hclosed : (world.withPcb tpcb fun pcb =>
          { pcb with recv := false, sent := false, poll := false }).pcbs[tpcb]? = some pcb := hpcb
      obtain ⟨before, _, hpcb⟩ := World.exists_of_withPcb hclosed
      rw [if_pos rfl] at hpcb
      rw [hpcb]
      rfl

theorem close_null : Returns (tcpEchoclientConnectionClose answers tpcb none world) fun world' =>
    world'.clients = world.clients ∧ ClosedPcb world world' tpcb := by
  refine Returns.ok ⟨?_, closed_pcb world.clients⟩
  split <;> rfl

theorem close_structure {address : Nat} {client : Echoclient}
    (hlookup : world.clients.lookup address = some client) :
    Returns (tcpEchoclientConnectionClose answers tpcb (some address) world) fun world' =>
      world'.clients = world.clients.put address none ∧ ClosedPcb world world' tpcb := by
  simp only [tcpEchoclientConnectionClose, World.withPcb_clients, Heap.free_of_lookup hlookup,
    bind_ok]
  refine Returns.ok ⟨?_, closed_pcb (world.clients.put address none)⟩
  split <;> rfl

end Closing

/-! ## The invariant -/

/-- Every structure has a chain of its own, and a control block that still uses its structure
points to a live one that names this control block. -/
structure Sound (world : World) (chains : Nat → List Nat) : Prop where
  chained : ∀ address client, world.clients.lookup address = some client →
    Chain world.pbufs client.pTx (chains address)
  apart : ∀ address client other client', world.clients.lookup address = some client →
    world.clients.lookup other = some client' → address ≠ other →
    List.Disjoint (chains address) (chains other)
  called : ∀ tpcb pcb, world.pcbs[tpcb]? = some pcb → pcb.listens = true →
    ∃ address client, pcb.callbackArg = some address ∧
      world.clients.lookup address = some client ∧ client.pcb = tpcb

/-- The structures have chains that make the world sound. -/
def Safe (world : World) : Prop := ∃ chains, Sound world chains

namespace Sound

variable {world world' : World} {chains : Nat → List Nat} {tpcb address : Nat}
  {client : Echoclient}

/-- Chains that only get shorter stay apart. -/
theorem apart_of_subset {chains' : Nat → List Nat} (hsound : Sound world chains)
    (hsubset : ∀ address client, world'.clients.lookup address = some client →
      (∃ before, world.clients.lookup address = some before) ∧ chains' address ⊆ chains address)
    {address other : Nat} {client client' : Echoclient}
    (hlookup : world'.clients.lookup address = some client)
    (hother : world'.clients.lookup other = some client') (hne : address ≠ other) :
    List.Disjoint (chains' address) (chains' other) := by
  obtain ⟨⟨before, hbefore⟩, hchain⟩ := hsubset address client hlookup
  obtain ⟨⟨before', hbefore'⟩, hchain'⟩ := hsubset other client' hother
  intro buffer hmem hmem'
  exact hsound.apart address before other before' hbefore hbefore' hne (hchain hmem)
    (hchain' hmem')

theorem sent {done rest : List Nat} {pTx : Option Nat} (hsound : Sound world chains)
    (hlookup : world.clients.lookup address = some client) (hchain : chains address = done ++ rest)
    (hsent : SentChain world world' tpcb address client done rest pTx) :
    Sound world' (Function.update chains address rest) where
  chained := by
    intro other client' hother
    rw [hsent.clients, Heap.lookup_put hlookup] at hother
    by_cases heq : other = address
    · rw [if_pos heq, Option.some.injEq] at hother
      subst heq hother
      rw [Function.update_self]
      exact hsent.chain
    · rw [if_neg heq] at hother
      rw [Function.update_of_ne heq]
      apply (hsound.chained other client' hother).congr
      intro buffer hmem
      have hkept : buffer ∉ done := fun hdone => hsound.apart other client' address client hother
        hlookup heq hmem (hchain ▸ List.mem_append_left rest hdone)
      rw [hsent.pbufs buffer, if_neg hkept]
  apart := by
    intro first client' other client'' hfirst hother hne
    refine hsound.apart_of_subset ?_ hfirst hother hne
    intro pointer after hafter
    rw [hsent.clients, Heap.lookup_put hlookup] at hafter
    by_cases heq : pointer = address
    · subst heq
      rw [Function.update_self, hchain]
      exact ⟨⟨client, hlookup⟩, List.subset_append_right done rest⟩
    · rw [if_neg heq] at hafter
      rw [Function.update_of_ne heq]
      exact ⟨⟨after, hafter⟩, List.Subset.refl _⟩
  called := by
    intro other pcb hpcb hlistens
    rw [hsent.pcbs] at hpcb
    obtain ⟨before, hbefore, hpcb⟩ := World.exists_of_withPcb hpcb
    have hkept : pcb.listens = before.listens ∧ pcb.callbackArg = before.callbackArg := by
      subst hpcb
      split <;> exact ⟨rfl, rfl⟩
    obtain ⟨pointer, client', harg, hclient, howner⟩ :=
      hsound.called other before hbefore (hkept.1 ▸ hlistens)
    by_cases heq : pointer = address
    · subst heq
      obtain rfl : client = client' := Option.some.inj (hlookup.symm.trans hclient)
      refine ⟨pointer, { client with pTx := pTx }, hkept.2.trans harg, ?_, howner⟩
      rw [hsent.clients, Heap.lookup_put hlookup, if_pos rfl]
    · refine ⟨pointer, client', hkept.2.trans harg, ?_, howner⟩
      rw [hsent.clients, Heap.lookup_put hlookup, if_neg heq, hclient]

/-- Closing a connection: what the other control blocks point to stays. -/
theorem closed (hsound : Sound world chains) (hclosed : ClosedPcb world world' tpcb)
    (hkept : ∀ address client, client.pcb ≠ tpcb → world.clients.lookup address = some client →
      world'.clients.lookup address = some client)
    (hback : ∀ address client, world'.clients.lookup address = some client →
      world.clients.lookup address = some client) :
    Sound world' chains where
  chained := by
    intro address client hlookup
    rw [hclosed.pbufs]
    exact hsound.chained address client (hback address client hlookup)
  apart := by
    intro address client other client' hlookup hother hne
    refine hsound.apart_of_subset ?_ hlookup hother hne
    exact fun pointer after hafter => ⟨⟨after, hback pointer after hafter⟩, List.Subset.refl _⟩
  called := by
    intro other pcb hpcb hlistens
    by_cases heq : other = tpcb
    · subst heq
      rw [hclosed.quiet pcb hpcb] at hlistens
      cases hlistens
    · rw [hclosed.others other heq] at hpcb
      obtain ⟨address, client, harg, hclient, howner⟩ := hsound.called other pcb hpcb hlistens
      have hne : client.pcb ≠ tpcb := howner ▸ heq
      exact ⟨address, client, harg, hkept address client hne hclient, howner⟩

/-- The structure that closing frees belongs to the connection it closes. -/
theorem closed_structure (hsound : Sound world chains)
    (hlookup : world.clients.lookup address = some client) (howner : client.pcb = tpcb)
    (hclients : world'.clients = world.clients.put address none)
    (hclosed : ClosedPcb world world' tpcb) : Sound world' chains := by
  apply hsound.closed hclosed
  · intro other client' hne hother
    have hother' : other ≠ address := by
      intro heq
      subst heq
      obtain rfl : client = client' := Option.some.inj (hlookup.symm.trans hother)
      exact hne howner
    rw [hclients, Heap.lookup_put hlookup, if_neg hother', hother]
  · intro other client' hother
    rw [hclients, Heap.lookup_put hlookup] at hother
    by_cases heq : other = address
    · rw [if_pos heq] at hother
      cases hother
    · rwa [if_neg heq] at hother

/-- The invariant does not look at the buffers outside the chains. -/
theorem pbufs (hsound : Sound world chains) {pbufs : Pbufs}
    (hsame : ∀ address client, world.clients.lookup address = some client →
      ∀ buffer ∈ chains address, pbufs.lookup buffer = world.pbufs.lookup buffer) :
    Sound { world with pbufs := pbufs } chains where
  chained := fun address client hlookup =>
    (hsound.chained address client hlookup).congr (hsame address client hlookup)
  apart := hsound.apart
  called := hsound.called

/-- Control blocks that do not listen may come and go. -/
theorem pcbs (hsound : Sound world chains) {pcbs : List TcpPcb}
    (hpcbs : ∀ (tpcb : Nat) (pcb : TcpPcb), pcbs[tpcb]? = some pcb → pcb.listens = true →
      world.pcbs[tpcb]? = some pcb) : Sound { world with pcbs := pcbs } chains where
  chained := hsound.chained
  apart := hsound.apart
  called := fun tpcb pcb hpcb hlistens =>
    hsound.called tpcb pcb (hpcbs tpcb pcb hpcb hlistens) hlistens

/-- The state of a structure is free to change. -/
theorem state (hsound : Sound world chains)
    (hlookup : world.clients.lookup address = some client) (state : EchoclientStates) :
    Sound { world with clients := world.clients.put address (some { client with state := state }) }
      chains where
  chained := by
    intro other client' hother
    rw [Heap.lookup_put hlookup] at hother
    by_cases heq : other = address
    · rw [if_pos heq, Option.some.injEq] at hother
      subst heq hother
      exact hsound.chained other client hlookup
    · rw [if_neg heq] at hother
      exact hsound.chained other client' hother
  apart := by
    intro first client' other client'' hfirst hother hne
    refine hsound.apart_of_subset ?_ hfirst hother hne
    intro pointer after hafter
    rw [Heap.lookup_put hlookup] at hafter
    refine ⟨?_, List.Subset.refl _⟩
    by_cases heq : pointer = address
    · exact ⟨client, heq ▸ hlookup⟩
    · exact ⟨after, by rwa [if_neg heq] at hafter⟩
  called := by
    intro other pcb hpcb hlistens
    obtain ⟨pointer, client', harg, hclient, howner⟩ := hsound.called other pcb hpcb hlistens
    by_cases heq : pointer = address
    · subst heq
      obtain rfl : client = client' := Option.some.inj (hlookup.symm.trans hclient)
      refine ⟨pointer, { client with state := state }, harg, ?_, howner⟩
      rw [Heap.lookup_put hlookup, if_pos rfl]
    · refine ⟨pointer, client', harg, ?_, howner⟩
      rw [Heap.lookup_put hlookup, if_neg heq, hclient]

/-- A chain that is in use shares nothing with one that was allocated later. -/
theorem not_taken (hsound : Sound world chains) {pbufs : Pbufs} {addresses : List Nat}
    (htaken : Taken world.pbufs pbufs addresses)
    (hlookup : world.clients.lookup address = some client) {buffer : Nat}
    (hmem : buffer ∈ chains address) : buffer ∉ addresses := by
  intro hnew
  obtain ⟨pbuf, hpbuf⟩ := (hsound.chained address client hlookup).live hmem
  rw [htaken.fresh buffer hnew] at hpbuf
  cases hpbuf

/-- A new structure with a chain that nobody uses. -/
theorem alloc (hsound : Sound world chains) {pTx : Option Nat} {pbufs : Pbufs}
    {addresses : List Nat} (hchain : Chain pbufs pTx addresses)
    (htaken : Taken world.pbufs pbufs addresses) (state : EchoclientStates) :
    Sound { world with
        clients := (world.clients.alloc ⟨state, tpcb, pTx⟩).2, pbufs := pbufs }
      (Function.update chains world.clients.cells.length addresses) where
  chained := by
    intro other client' hother
    rw [Heap.lookup_alloc] at hother
    by_cases heq : other = world.clients.cells.length
    · rw [if_pos heq, Option.some.injEq] at hother
      subst heq hother
      rw [Function.update_self]
      exact hchain
    · rw [if_neg heq] at hother
      rw [Function.update_of_ne heq]
      apply (hsound.chained other client' hother).congr
      intro buffer hmem
      exact htaken.rest buffer (hsound.not_taken htaken hother hmem)
  apart := by
    intro first client' other client'' hfirst hother hne
    rw [Heap.lookup_alloc] at hfirst hother
    by_cases hnew : first = world.clients.cells.length
    · subst hnew
      rw [if_neg hne.symm] at hother
      rw [Function.update_self, Function.update_of_ne hne.symm]
      exact fun buffer hmem hmem' => hsound.not_taken htaken hother hmem' hmem
    · rw [if_neg hnew] at hfirst
      rw [Function.update_of_ne hnew]
      by_cases hnew' : other = world.clients.cells.length
      · subst hnew'
        rw [Function.update_self]
        exact fun buffer hmem hmem' => hsound.not_taken htaken hfirst hmem hmem'
      · rw [if_neg hnew'] at hother
        rw [Function.update_of_ne hnew']
        exact hsound.apart first client' other client'' hfirst hother hne
  called := by
    intro other pcb hpcb hlistens
    obtain ⟨pointer, client', harg, hclient, howner⟩ := hsound.called other pcb hpcb hlistens
    refine ⟨pointer, client', harg, ?_, howner⟩
    rw [Heap.lookup_alloc, if_neg (Nat.ne_of_lt (Heap.lt_of_lookup hclient)), hclient]

end Sound

/-! ## The callbacks -/

/-- What the callback of an established connection leaves behind. All it allocates is its own,
and whatever of it is still there afterwards is out of reach: the structure when there was no
buffer for it, the unsent part of the chain otherwise. -/
inductive Connects (world world' : World) (tpcb : Nat) (err : Err) (answers : Answers) : Prop where
  | refused (hrefused : err ≠ .ok ∨ answers.memMalloc = false)
      (hclients : world'.clients = world.clients) (hclosed : ClosedPcb world world' tpcb)
  | starved (herr : err = .ok) (hmalloc : answers.memMalloc = true)
      (hsizes : answers.pbufSizes = [])
      (hworld : world' =
        { world with clients := (world.clients.alloc ⟨.connected, tpcb, none⟩).2 })
  | sent (herr : err = .ok) (hmalloc : answers.memMalloc = true) (hsizes : answers.pbufSizes ≠ [])
      (hclients : ∀ address, world'.clients.lookup address = world.clients.lookup address)
      (rest : List Nat) (htaken : Taken world.pbufs world'.pbufs rest)
      (hlive : ∀ buffer ∈ rest, ∃ pbuf, world'.pbufs.lookup buffer = some pbuf)
      (hall : rest = [] ↔ Accepted answers.tcpWrite answers.pbufSizes)
      (hclosed : ClosedPcb { world with pbufs := world'.pbufs } world' tpcb)

/-- A connection that is closed right after sending: what was not accepted by then is left. -/
theorem send_then_close {world : World} {tpcb address : Nat} {client : Echoclient}
    {addresses : List Nat} (hlookup : world.clients.lookup address = some client)
    (hchain : Chain world.pbufs client.pTx addresses) (answers : Answers) :
    Returns (tcpEchoclientSend answers tpcb (some address) world >>=
        tcpEchoclientConnectionClose answers tpcb (some address)) fun world' =>
      ∃ done rest, addresses = done ++ rest ∧
        world'.clients = world.clients.put address none ∧
        (∀ buffer, world'.pbufs.lookup buffer =
          if buffer ∈ done then none else world.pbufs.lookup buffer) ∧
        (rest = [] ↔ Accepted answers.tcpWrite (lengths world.pbufs addresses)) ∧
        ClosedPcb { world with pbufs := world'.pbufs } world' tpcb := by
  apply (send_chain hlookup hchain answers).bind
  rintro middle ⟨done, rest, pTx, hsplit, hsent, hall⟩
  have hlookup' : middle.clients.lookup address = some { client with pTx := pTx } := by
    rw [hsent.clients, Heap.lookup_put hlookup, if_pos rfl]
  apply (close_structure hlookup').mono
  rintro world' ⟨hclients, hclosed⟩
  refine ⟨done, rest, hsplit, ?_, ?_, hall, ?_⟩
  · rw [hclients, hsent.clients, Heap.put_put]
  · rw [hclosed.pbufs]
    exact hsent.pbufs
  · refine ⟨rfl, fun other hne => ?_, hclosed.quiet⟩
    rw [hclosed.others other hne, hsent.pcbs]
    exact World.withPcb_pcbs_of_ne hne.symm

theorem connected_cases (deviceUid : List Char) (answers : Answers) (tpcb : Nat) (err : Err)
    (world : World) :
    Returns (tcpEchoclientConnected deviceUid answers tpcb err world) fun result =>
      Connects world result.2 tpcb err answers := by
  rw [tcpEchoclientConnected]
  by_cases herr : err = .ok
  · by_cases hmalloc : answers.memMalloc = true
    · rw [if_pos herr, if_pos hmalloc]
      obtain ⟨addresses, hchain, htaken, _, hlengths⟩ :=
        pbufChain_taken world.pbufs (answers.pbufSizes.map (List.replicate · 0))
      rw [← pbufAlloc] at hchain htaken hlengths
      generalize hbuffers : pbufAlloc world.pbufs answers.pbufSizes = buffers at *
      obtain ⟨pTx, pbufs⟩ := buffers
      have hfresh := Heap.lookup_alloc_self world.clients ⟨.connected, tpcb, none⟩
      simp only [Heap.write_of_lookup hfresh, bind_ok]
      have hsizes : lengths pbufs addresses = answers.pbufSizes := by
        rw [hlengths, List.map_map]
        simp [Function.comp_def]
      cases pTx with
      | none =>
          have hempty : answers.pbufSizes = [] := by
            rw [← hsizes, hchain.pointer_eq_none_iff.mp rfl, lengths, List.map_nil]
          have hpbufs : pbufs = world.pbufs := by
            rw [hempty] at hbuffers
            exact (congrArg Prod.snd hbuffers).symm
          rw [Heap.put_self hfresh, hpbufs]
          exact Returns.ok (.starved herr hmalloc hempty rfl)
      | some first =>
          have hne : answers.pbufSizes ≠ [] := by
            intro hempty
            rw [hempty] at hbuffers
            cases hbuffers
          apply (pbufTake_chain hchain (tcpData deviceUid)).bind
          rintro pbufs' ⟨hchain', hlengths', _, hothers⟩
          have hclient : ((world.clients.alloc ⟨.connected, tpcb, none⟩).2.put
              (world.clients.alloc ⟨.connected, tpcb, none⟩).1
              (some ⟨.connected, tpcb, some first⟩)).lookup
              (world.clients.alloc ⟨.connected, tpcb, none⟩).1 =
              some ⟨.connected, tpcb, some first⟩ := by
            rw [Heap.lookup_put hfresh, if_pos rfl]
          rw [← bind_assoc]
          apply (send_then_close hclient hchain' answers).bind
          rintro world' ⟨done, rest, rfl, hclients, hpbufs, hall, hclosed⟩
          have hnodup := List.disjoint_of_nodup_append hchain'.nodup
          refine Returns.ok (.sent herr hmalloc hne ?_ rest ⟨?_, ?_⟩ ?_ ?_ ⟨rfl, ?_, hclosed.quiet⟩)
          · intro address
            rw [hclients]
            simp only [World.withPcb_clients]
            rw [Heap.put_put, Heap.lookup_put_alloc]
          · intro buffer hmem
            exact htaken.fresh buffer (List.mem_append_right done hmem)
          · intro buffer hnot
            rw [hpbufs buffer]
            by_cases hdone : buffer ∈ done
            · rw [if_pos hdone, htaken.fresh buffer (List.mem_append_left rest hdone)]
            · have hoff : buffer ∉ done ++ rest := by simp [hdone, hnot]
              rw [if_neg hdone, World.withPcb_pbufs, hothers buffer hoff, htaken.rest buffer hoff]
          · intro buffer hmem
            rw [hpbufs buffer, if_neg (fun hdone => hnodup hdone hmem)]
            exact hchain'.live (List.mem_append_right done hmem)
          · rw [hall, World.withPcb_pbufs, hlengths', hsizes]
          · intro other hother
            rw [hclosed.others other hother]
            exact World.withPcb_pcbs_of_ne hother.symm
    · rw [if_pos herr, if_neg hmalloc]
      apply close_null.bind
      rintro world' ⟨hclients, hclosed⟩
      exact Returns.ok (.refused (.inr (Bool.eq_false_of_not_eq_true hmalloc)) hclients hclosed)
  · rw [if_neg herr]
    apply close_null.bind
    rintro world' ⟨hclients, hclosed⟩
    exact Returns.ok (.refused (.inl herr) hclients hclosed)

section Events

variable {world : World} {chains : Nat → List Nat} {tpcb : Nat} {answers : Answers}

theorem Connects.safe {world' : World} {err : Err}
    (hconnects : Connects world world' tpcb err answers)
    (hsound : Sound world chains) : Safe world' := by
  cases hconnects with
  | refused _ hclients hclosed =>
      refine ⟨chains, hsound.closed hclosed ?_ ?_⟩
      · exact fun address client _ hlookup => by rw [hclients, hlookup]
      · exact fun address client hlookup => by rwa [hclients] at hlookup
  | starved _ _ _ hworld =>
      subst hworld
      exact ⟨_, hsound.alloc (show Chain world.pbufs none [] from rfl)
        ⟨fun _ hmem => (List.not_mem_nil hmem).elim, fun _ _ => rfl⟩ .connected⟩
  | sent _ _ _ hclients rest htaken _ _ hclosed =>
      have hkept : Sound { world with pbufs := world'.pbufs } chains := by
        apply hsound.pbufs
        intro address client hlookup buffer hmem
        exact htaken.rest buffer (hsound.not_taken htaken hlookup hmem)
      refine ⟨chains, hkept.closed hclosed ?_ ?_⟩
      · exact fun address client _ hlookup => by rw [hclients address, hlookup]
      · exact fun address client hlookup => by rwa [hclients address] at hlookup

section Called

variable {address : Nat} {client : Echoclient}

theorem send_safe (hsound : Sound world chains)
    (hlookup : world.clients.lookup address = some client) :
    Returns (tcpEchoclientSend answers tpcb (some address) world) Safe := by
  apply (send_chain hlookup (hsound.chained address client hlookup) answers).mono
  rintro world' ⟨done, rest, pTx, hsplit, hsent, _⟩
  exact ⟨_, hsound.sent hlookup hsplit hsent⟩

theorem close_safe (hsound : Sound world chains)
    (hlookup : world.clients.lookup address = some client) (howner : client.pcb = tpcb) :
    Returns (tcpEchoclientConnectionClose answers tpcb (some address) world) Safe := by
  apply (close_structure hlookup).mono
  rintro world' ⟨hclients, hclosed⟩
  exact ⟨chains, hsound.closed_structure hlookup howner hclients hclosed⟩

theorem poll_safe (hsound : Sound world chains)
    (hlookup : world.clients.lookup address = some client) (howner : client.pcb = tpcb) :
    Returns (tcpEchoclientPoll answers (some address) tpcb world) fun result => Safe result.2 := by
  simp only [tcpEchoclientPoll, Heap.read_of_lookup hlookup, bind_ok]
  split
  · exact (send_safe hsound hlookup).bind fun world' hsafe => Returns.ok hsafe
  · split
    · exact (close_safe hsound hlookup howner).bind fun world' hsafe => Returns.ok hsafe
    · exact Returns.ok ⟨chains, hsound⟩

theorem sent_safe (hsound : Sound world chains)
    (hlookup : world.clients.lookup address = some client) :
    Returns (tcpEchoclientSent answers (some address) tpcb world) fun result => Safe result.2 := by
  simp only [tcpEchoclientSent, Heap.read_of_lookup hlookup, bind_ok]
  split
  · exact (send_safe hsound hlookup).bind fun world' hsafe => Returns.ok hsafe
  · exact Returns.ok ⟨chains, hsound⟩

/-- Received data is a chain of its own, which every path that gets one releases. -/
theorem recv_safe (hsound : Sound world chains)
    (hlookup : world.clients.lookup address = some client) (howner : client.pcb = tpcb)
    {p : Option Nat} {addresses : List Nat} (hchain : Chain world.pbufs p addresses)
    (hapart : ∀ other client', world.clients.lookup other = some client' →
      ∀ buffer ∈ chains other, buffer ∉ addresses) (err : Err) :
    Returns (tcpEchoclientRecv answers (some address) tpcb p err world) fun result =>
      Safe result.2 := by
  have hfree : Returns (pbufFree world.pbufs p) fun pbufs =>
      Sound { world with pbufs := pbufs } chains := by
    apply (pbufFree_chain hchain).mono
    intro pbufs hpbufs
    apply hsound.pbufs
    intro other client' hother buffer hmem
    rw [hpbufs buffer, if_neg (hapart other client' hother buffer hmem)]
  simp only [tcpEchoclientRecv, Heap.read_of_lookup hlookup, bind_ok]
  split
  · have hclosing := hsound.state hlookup .closing
    have hlookup' : (world.clients.put address (some { client with state := .closing })).lookup
        address = some { client with state := .closing } := by
      rw [Heap.lookup_put hlookup, if_pos rfl]
    simp only [Heap.write_of_lookup hlookup, bind_ok]
    split
    · exact (close_safe hclosing hlookup' howner).bind fun world' hsafe => Returns.ok hsafe
    · exact (send_safe hclosing hlookup').bind fun world' hsafe => Returns.ok hsafe
  · split
    · exact hfree.bind fun pbufs hafter => Returns.ok ⟨chains, hafter⟩
    · split
      · apply hfree.bind
        intro pbufs hafter
        have hcounted : Sound { world with
            tcpMessageCount := world.tcpMessageCount + 1, pbufs := pbufs } chains :=
          ⟨hafter.chained, hafter.apart, hafter.called⟩
        exact (close_safe hcounted hlookup howner).bind fun world' hsafe => Returns.ok hsafe
      · exact hfree.bind fun pbufs hafter => Returns.ok ⟨chains, hafter⟩

end Called

/-- A registered callback gets a live structure of its own connection. -/
theorem Sound.of_calls (hsound : Sound world chains) {callback : TcpPcb → Bool}
    (hlistens : ∀ pcb, callback pcb = true → pcb.listens = true) {pcb : TcpPcb}
    (hcalls : world.calls tpcb callback = some pcb) :
    ∃ address client, pcb.callbackArg = some address ∧
      world.clients.lookup address = some client ∧ client.pcb = tpcb := by
  obtain ⟨hpcb, hcallback⟩ := Option.filter_eq_some_iff.mp hcalls
  exact hsound.called tpcb pcb hpcb (hlistens pcb hcallback)

/-- No event makes a callback use memory that is not there, and the invariant holds after it. -/
theorem deliver_safe (deviceUid : List Char) (hsafe : Safe world) (event : LwipEvent) :
    Returns (deliver deviceUid world event) Safe := by
  obtain ⟨chains, hsound⟩ := hsafe
  cases event with
  | connect opens =>
      simp only [deliver]
      cases opens with
      | false => exact Returns.ok ⟨chains, hsound⟩
      | true =>
          refine Returns.ok ⟨chains, hsound.pcbs fun tpcb pcb hpcb hlistens => ?_⟩
          rcases pcb_of_opened hpcb with hold | rfl
          · exact hold
          · cases hlistens
  | connected tpcb err answers =>
      simp only [deliver]
      cases hcalls : world.calls tpcb TcpPcb.connected with
      | none => exact Returns.ok ⟨chains, hsound⟩
      | some pcb =>
          apply Returns.map
          apply (connected_cases deviceUid answers tpcb err world).mono
          exact fun result hconnects => hconnects.safe hsound
  | received tpcb payloads err answers =>
      simp only [deliver]
      cases hcalls : world.calls tpcb TcpPcb.recv with
      | none => exact Returns.ok ⟨chains, hsound⟩
      | some pcb =>
          obtain ⟨address, client, harg, hlookup, howner⟩ :=
            hsound.of_calls (fun pcb hrecv => by simp [TcpPcb.listens, hrecv]) hcalls
          obtain ⟨addresses, hchain, htaken, _, _⟩ := pbufChain_taken world.pbufs payloads
          have hkept : Sound { world with pbufs := (pbufChain world.pbufs payloads).2 } chains := by
            apply hsound.pbufs
            intro other client' hother buffer hmem
            exact htaken.rest buffer (hsound.not_taken htaken hother hmem)
          simp only [harg]
          apply Returns.map
          apply recv_safe hkept hlookup howner hchain
          exact fun other client' hother buffer hmem => hsound.not_taken htaken hother hmem
  | sent tpcb answers =>
      simp only [deliver]
      cases hcalls : world.calls tpcb TcpPcb.sent with
      | none => exact Returns.ok ⟨chains, hsound⟩
      | some pcb =>
          obtain ⟨address, client, harg, hlookup, howner⟩ :=
            hsound.of_calls (fun pcb hsent => by simp [TcpPcb.listens, hsent]) hcalls
          simp only [harg]
          exact Returns.map (sent_safe hsound hlookup)
  | poll tpcb answers =>
      simp only [deliver]
      cases hcalls : world.calls tpcb TcpPcb.poll with
      | none => exact Returns.ok ⟨chains, hsound⟩
      | some pcb =>
          obtain ⟨address, client, harg, hlookup, howner⟩ :=
            hsound.of_calls (fun pcb hpoll => by simp [TcpPcb.listens, hpoll]) hcalls
          simp only [harg]
          exact Returns.map (poll_safe hsound hlookup howner)
  | abort tpcb =>
      refine Returns.ok ⟨chains, hsound.pcbs fun other pcb hpcb hlistens => ?_⟩
      obtain ⟨before, hbefore, hpcb⟩ := World.exists_of_withPcb hpcb
      by_cases heq : other = tpcb
      · rw [if_pos heq] at hpcb
        subst hpcb
        cases hlistens
      · rwa [hpcb, if_neg heq]

theorem deliverAll_safe (deviceUid : List Char) (hsafe : Safe world) (events : List LwipEvent) :
    Returns (deliverAll deviceUid world events) Safe := by
  induction events generalizing world with
  | nil => exact Returns.ok hsafe
  | cons event events ih =>
      apply (deliver_safe deviceUid hsafe event).bind
      intro world' hsafe'
      exact ih hsafe'

theorem initial_safe : Safe {} := by
  refine ⟨fun _ => [], ⟨?_, ?_, ?_⟩⟩
  · intro address client hlookup
    rw [Heap.lookup_empty] at hlookup
    cases hlookup
  · intro address client other client' hlookup
    rw [Heap.lookup_empty] at hlookup
    cases hlookup
  · intro tpcb pcb hpcb
    cases hpcb

/-- Whatever lwIP delivers, in whatever order and with whatever answers to the calls of the
callbacks: no callback reads, writes or frees a structure that was freed before, none goes
through a null pointer, and every loop ends. -/
theorem callbacks_never_fault (deviceUid : List Char) (events : List LwipEvent) :
    ∃ world, deliverAll deviceUid {} events = .ok world ∧ Safe world :=
  deliverAll_safe deviceUid initial_safe events

end Events

end RealTimeWs
