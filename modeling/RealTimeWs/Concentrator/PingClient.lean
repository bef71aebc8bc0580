import RealTimeWs.Concentrator.Pbuf
import RealTimeWs.Text.Utf8

/-! # The PING client of the concentrator

Every connection of the client has a control block of lwIP, and lwIP calls what is
registered there with the argument that was set last. What lwIP and its pools answer
to the calls of a callback comes with the event that runs the callback.
-/

namespace RealTimeWs

open Memory

/-- The error codes that the client tells apart. -/
inductive Err where
  | ok
  | mem
  | abrt
  | other (code : Int)
deriving DecidableEq, Repr

/-- The states of the client. -/
inductive EchoclientStates where
  | notConnected
  | connected
  | received
  | closing
deriving DecidableEq, Repr

/-- The structure that the callbacks of a connection share. -/
structure Echoclient where
  state : EchoclientStates
  pcb : Nat
  pTx : Option Nat
deriving DecidableEq, Repr

/-- What the client sees of a control block: the argument, which of its callbacks are
registered, and the bytes that were accepted for sending. -/
structure TcpPcb where
  callbackArg : Option Nat := none
  connected : Bool := false
  recv : Bool := false
  sent : Bool := false
  poll : Bool := false
  queued : List UInt8 := []
deriving DecidableEq, Repr

/-- The control blocks, the structures of the client, the packet buffers, and how many messages
have been received. -/
structure World where
  pcbs : List TcpPcb := []
  clients : Heap Echoclient := {}
  pbufs : Pbufs := {}
  tcpMessageCount : Nat := 0
deriving DecidableEq, Repr

/-- The room in the send buffer before a call of `tcp_write`, and the result of the call. -/
structure Write where
  sndbuf : Nat
  result : Err
deriving DecidableEq, Repr

/-- What a callback is answered. The pool gives buffers of some sizes, or none; closing a
connection may release its control block at once. -/
structure Answers where
  memMalloc : Bool
  pbufSizes : List Nat
  tcpWrite : Nat → Write
  tcpCloseReleases : Bool

variable (deviceUid : List Char)

/-- The bytes of the PING message. -/
def tcpData : List UInt8 :=
  Utf8.ascii ("*2\r\n$4\r\nPING\r\n$11\r\n".toList ++ deviceUid ++ "\r\n".toList)

namespace World

variable (world : World)

/-- Change one control block. -/
def withPcb (tpcb : Nat) (change : TcpPcb → TcpPcb) : World :=
  { world with pcbs := world.pcbs.modify tpcb change }

/-- A released control block calls nothing any more. -/
def release (tpcb : Nat) : World :=
  world.withPcb tpcb fun pcb =>
    { pcb with connected := false, recv := false, sent := false, poll := false }

end World

/-- The loop of the sending function. The answers are those of the calls still to come. -/
def tcpEchoclientSendFrom (tpcb : Nat) (es : Option Nat) :
    Nat → (Nat → Write) → World → Except Fault World
  | 0, _, _ => .error .endless
  | fuel + 1, writes, world => do
      let client ← world.clients.read es
      match client.pTx with
      | none => return world
      | some ptr =>
          let pbuf ← world.pbufs.read (some ptr)
          if pbuf.len ≤ (writes 0).sndbuf then
            match (writes 0).result with
            | .ok =>
                let world := world.withPcb tpcb fun pcb =>
                  { pcb with queued := pcb.queued ++ pbuf.payload }
                let clients ← world.clients.write es { client with pTx := pbuf.next }
                -- the reference taken here is the one that freeing the head gives up
                let pbufs ← pbufRef world.pbufs pbuf.next
                let pbufs ← pbufFree pbufs (some ptr)
                tcpEchoclientSendFrom tpcb es fuel (fun call => writes (call + 1))
                  { world with clients := clients, pbufs := pbufs }
            | .mem =>
                let clients ← world.clients.write es { client with pTx := some ptr }
                return { world with clients := clients }
            | _ => return world
          else
            return world

/-- `tcp_echoclient_send`: hand over as much of the chain as is taken. -/
def tcpEchoclientSend (answers : Answers) (tpcb : Nat) (es : Option Nat) (world : World) :
    Except Fault World :=
  tcpEchoclientSendFrom tpcb es (world.pbufs.cells.length + 1) answers.tcpWrite world

/-- The callbacks go first, then the structure, then the connection. What is still in `p_tx`
is not looked at. -/
def tcpEchoclientConnectionClose (answers : Answers) (tpcb : Nat) (es : Option Nat)
    (world : World) : Except Fault World := do
  let world := world.withPcb tpcb fun pcb =>
    { pcb with recv := false, sent := false, poll := false }
  let world ← match es with
    | none => pure world
    | some _ => do
        let clients ← world.clients.free es
        pure { world with clients := clients }
  return if answers.tcpCloseReleases then world.release tpcb else world

/-- `tcp_echoclient_connected`: make the PING, register the callbacks, send and close. -/
def tcpEchoclientConnected (answers : Answers) (tpcb : Nat) (err : Err) (world : World) :
    Except Fault (Err × World) := do
  if err = .ok then
    if answers.memMalloc then
      let allocated := world.clients.alloc ⟨.connected, tpcb, none⟩
      let es := some allocated.1
      let pTx := pbufAlloc world.pbufs answers.pbufSizes
      let clients ← allocated.2.write es ⟨.connected, tpcb, pTx.1⟩
      let world := { world with clients := clients, pbufs := pTx.2 }
      match pTx.1 with
      | some _ =>
          let pbufs ← pbufTake world.pbufs pTx.1 (tcpData deviceUid)
          let world := { world with pbufs := pbufs }.withPcb tpcb fun pcb =>
            { pcb with callbackArg := es, recv := true, sent := true, poll := true }
          let world ← tcpEchoclientSend answers tpcb es world
          let world ← tcpEchoclientConnectionClose answers tpcb es world
          return (.ok, world)
      | none => return (err, world)
    else
      let world ← tcpEchoclientConnectionClose answers tpcb none world
      return (.mem, world)
  else
    let world ← tcpEchoclientConnectionClose answers tpcb none world
    return (err, world)

/-- A closed connection is announced by a chain without buffers. -/
def tcpEchoclientRecv (answers : Answers) (arg : Option Nat) (tpcb : Nat) (p : Option Nat)
    (err : Err) (world : World) : Except Fault (Err × World) := do
  let es := arg
  let client ← world.clients.read es
  if p = none then
    let clients ← world.clients.write es { client with state := .closing }
    let world := { world with clients := clients }
    if client.pTx = none then
      let world ← tcpEchoclientConnectionClose answers tpcb es world
      return (.ok, world)
    else
      let world ← tcpEchoclientSend answers tpcb es world
      return (.ok, world)
  else if err ≠ .ok then
    let pbufs ← pbufFree world.pbufs p
    return (err, { world with pbufs := pbufs })
  else if client.state = .connected then
    let world := { world with tcpMessageCount := world.tcpMessageCount + 1 }
    let pbufs ← pbufFree world.pbufs p
    let world ← tcpEchoclientConnectionClose answers tpcb es { world with pbufs := pbufs }
    return (.ok, world)
  else
    let pbufs ← pbufFree world.pbufs p
    return (.ok, { world with pbufs := pbufs })

/-- `tcp_echoclient_poll`: send what is left, or close. -/
def tcpEchoclientPoll (answers : Answers) (arg : Option Nat) (tpcb : Nat) (world : World) :
    Except Fault (Err × World) := do
  match arg with
  | some address =>
      let es := some address
      let client ← world.clients.read es
      if client.pTx ≠ none then
        let world ← tcpEchoclientSend answers tpcb es world
        return (.ok, world)
      else if client.state = .closing then
        let world ← tcpEchoclientConnectionClose answers tpcb es world
        return (.ok, world)
      else
        return (.ok, world)
  | none => return (.abrt, world.release tpcb)

/-- `tcp_echoclient_sent`: send what is left. -/
def tcpEchoclientSent (answers : Answers) (arg : Option Nat) (tpcb : Nat) (world : World) :
    Except Fault (Err × World) := do
  let es := arg
  let client ← world.clients.read es
  if client.pTx ≠ none then
    let world ← tcpEchoclientSend answers tpcb es world
    return (.ok, world)
  else
    return (.ok, world)

/-! ## Events -/

/-- What lwIP delivers, and calls of `tcp_echoclient_connect`. Received data is a chain over
the payloads; without a payload it is the end of the connection. -/
inductive LwipEvent where
  | connect (opens : Bool)
  | connected (tpcb : Nat) (err : Err) (answers : Answers)
  | received (tpcb : Nat) (payloads : List (List UInt8)) (err : Err) (answers : Answers)
  | sent (tpcb : Nat) (answers : Answers)
  | poll (tpcb : Nat) (answers : Answers)
  | abort (tpcb : Nat)

/-- The control block, when it calls this callback. -/
def World.calls (world : World) (tpcb : Nat) (callback : TcpPcb → Bool) : Option TcpPcb :=
  world.pcbs[tpcb]?.filter callback

/-- One event. Without a registered callback lwIP drops it, and frees the data itself. -/
def deliver (world : World) : LwipEvent → Except Fault World
  | .connect opens =>
      -- a control block whose connection cannot be opened is given back
      .ok (if opens then { world with pcbs := world.pcbs ++ [{ connected := true }] } else world)
  | .connected tpcb err answers =>
      match world.calls tpcb TcpPcb.connected with
      | none => .ok world
      | some _ => Prod.snd <$> tcpEchoclientConnected deviceUid answers tpcb err world
  | .received tpcb payloads err answers =>
      match world.calls tpcb TcpPcb.recv with
      | none => .ok world
      | some pcb =>
          let p := pbufChain world.pbufs payloads
          Prod.snd <$> tcpEchoclientRecv answers pcb.callbackArg tpcb p.1 err
            { world with pbufs := p.2 }
  | .sent tpcb answers =>
      match world.calls tpcb TcpPcb.sent with
      | none => .ok world
      | some pcb => Prod.snd <$> tcpEchoclientSent answers pcb.callbackArg tpcb world
  | .poll tpcb answers =>
      match world.calls tpcb TcpPcb.poll with
      | none => .ok world
      | some pcb => Prod.snd <$> tcpEchoclientPoll answers pcb.callbackArg tpcb world
  | .abort tpcb => .ok (world.release tpcb)

/-- Deliver events one after the other. -/
def deliverAll : World → List LwipEvent → Except Fault World
  | world, [] => .ok world
  | world, event :: events => do
      let world ← deliver deviceUid world event
      deliverAll world events

end RealTimeWs
