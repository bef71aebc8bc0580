import RealTimeWs.Server.Functions
import RealTimeWs.Server.Messages

/-! # Event handlers of the server

Each handler runs to its end without interruption and leaves commands with
callbacks behind. A callback is a constructor with the variables it closes over;
`onReply` is what its body does. Replies of the wrong type reach JavaScript as
`undefined`, on which member access throws.

Two things are assumed of the packages that the server uses: `redis` drops the error
reply of a command that has no callback, and `res.redirect(undefined)` returns as any
other redirect does.
-/

namespace RealTimeWs

open Redis

/-- What the server takes from its environment. -/
structure Platform where
  order : SetOrder
  curves : Curves
  toLowerCase : String → String

/-- A callback, named after the request it belongs to and the command it awaits.
The readings and records of the forwarder carry the ordinals of their commands. -/
inductive Callback where
  | ignored
  | pingSismember (device ip : String) (port epoch : Nat)
  | pingSadd (device ip : String) (port epoch : Nat)
  | pingHmset (device : String)
  | connectFrom (fromDevice toDevice : String) (referer : Option String)
  | connectTo (fromDevice toDevice : String) (referer : Option String)
  | connectSadd (fromDevice toDevice : String) (referer : Option String)
  | disconnectExists (fromDevice toDevice : String) (referer : Option String)
  | disconnectSrem (fromDevice toDevice : String) (referer : Option String)
  | disconnectDel (referer : Option String)
  | releaseSmembers (fromDevice : String)
  | releaseSismember (device fromDevice : String)
  | functionChange (device : String) (newFunction : Option String)
  | routineSmembers
  | routineHmget (device : String)
  | forwardSmembers
  | forwardConnected (device : String)
  | forwardLindex (device : String) (connected : List String)
  | forwardHgetall (device : String) (connected : List String) (reading : Reply) (readAt : Nat)
  | forwardHget (device : String) (connected : List String) (reading : Reply) (readAt : Nat)
      (record : Hash) (recordAt : Nat)

/-- A datagram handed to the socket. `connected` is the member array as a string. -/
structure Datagram where
  device : String
  connected : String
  message : String
  port : Nat
  address : Option String
  reading : Reply
  readAt : Nat
  recordAt : Nat

/-- What leaves the server: datagrams, and what a request is answered. -/
inductive Output where
  | datagram (sent : Datagram)
  | flash (kind text : String)
  | redirect (location : Option String)
  | send (status : Nat) (field text : String)

/-- Script variables that outlive a turn: `previous` of the forwarder. -/
abbrev Memory := String → Option String

/-- What reaches the server: chunks of a TCP connection as the parsed responses, datagrams,
requests of the routes, and the ticks of the two intervals. -/
inductive Event where
  | tcpData (ip : String) (port : Nat) (responses : List (Resp.Value String))
  | udpMessage (msg : List UInt8) (address : String) (port : Nat)
  | connect (fromDevice toDevice : String) (referer : Option String)
  | disconnect (fromDevice toDevice : String) (referer : Option String)
  | disconnectAll (fromDevice : String) (referer : Option String)
  | release (fromDevice : String) (referer : Option String)
  | functionChange (device : String) (newFunction : Option String)
  | routineTick
  | forwardTick

/-- The commands of a turn in sending order. -/
abbrev Sends := List (Command × Callback)

/-- One turn of the server. -/
abbrev Turn := Pipeline.Turn Command Callback Output Memory

/-- Commands sent without a callback. -/
def silent (commands : List Command) : Sends := commands.map fun command => (command, .ignored)

/-- A turn that ends normally. -/
def finish (memory : Memory) (sends : Sends) (outputs : List Output) : Turn :=
  ⟨sends, outputs, memory, false⟩

/-- A turn that throws before it has sent anything. -/
def throw (memory : Memory) : Turn := ⟨[], [], memory, true⟩

/-- How a reply decides an `if`. -/
def truthy : Reply → Bool
  | .integer n => n ≠ 0
  | _ => false

/-- `req.header('Referer') || '/'` -/
def backLocation (referer : Option String) : Option String :=
  if referer = some "" then some "/" else some (referer.getD "/")

namespace TCP

/-- The response handler, or none where it throws. -/
def response (platform : Platform) (ip : String) (port now : Nat) (value : Resp.Value String) :
    Option Sends :=
  (isPing platform.toLowerCase value).map fun ping =>
    if ping then
      let device := platform.toLowerCase (secondText value)
      [(⟨devicesKey, .sismember device⟩, .pingSismember device ip port now)]
    else []

/-- The parser emits one value after the other until a handler throws. -/
def responses (platform : Platform) (ip : String) (port now : Nat) :
    List (Resp.Value String) → Sends × Bool
  | [] => ([], false)
  | value :: rest =>
      match response platform ip port now value with
      | none => ([], true)
      | some sends =>
          (sends ++ (responses platform ip port now rest).1,
            (responses platform ip port now rest).2)

/-- `client.on('data')`: the chunk is counted before its responses are handled. -/
def data (platform : Platform) (ip : String) (port now : Nat)
    (values : List (Resp.Value String)) (memory : Memory) : Turn :=
  ⟨(⟨msgCountKey, .incr⟩, .ignored) :: (responses platform ip port now values).1, [], memory,
    (responses platform ip port now values).2⟩

/-- `sismember` of a PING: refresh a known device, start registering a new one. -/
def pingSismember (device ip : String) (port epoch : Nat) (reply : Reply) : Sends :=
  (if truthy reply then (⟨recordKey device, .hmset [("last_ping", epoch.repr)]⟩, .ignored)
    else (⟨devicesKey, .sadd device⟩, .pingSadd device ip port epoch)) ::
  silent [⟨recordKey device, .hincrby "msg_count" 1⟩]

/-- The record of a new device is written when it has become a member of the devices. -/
def pingSadd (device ip : String) (port epoch : Nat) : Sends :=
  [(⟨recordKey device, .hmset [("ip", ip), ("port", port.repr), ("active", "true"),
    ("last_ping", epoch.repr), ("function", "linear")]⟩, .pingHmset device)]

/-- The linear table of a new device is written when its record has been written. -/
def pingHmset (curves : Curves) (device : String) : Sends :=
  silent (FunctionsService.linear curves device)

end TCP

namespace UDP

/-- `server.on('message')`: every datagram is counted, an accepted one is stored. -/
def message (msg : List UInt8) (port now : Nat) : Sends :=
  silent (⟨msgCountKey, .incr⟩ ::
    match accept msg with
    | none => []
    | some (device, data) =>
        [⟨dataKey device, .lpush data⟩, ⟨dataKey device, .ltrim 0 999⟩,
          ⟨recordKey device, .hmset [("last_ping", now.repr), ("udp_port", port.repr)]⟩,
          ⟨recordKey device, .hincrby "msg_count" 1⟩])

/-- `Number` of the newest reading, or of `null` or `undefined`. -/
def readingNumber : Reply → Script.Number
  | .bulk none => .nat 0
  | .bulk (some text) => Script.number text
  | _ => .nan

/-- The port argument of `send`, or none where the socket refuses it. -/
def sendPort (text : Option String) : Option Nat :=
  (text.bind fun text => Decimal.natValue text.toList).filter fun port => 0 < port ∧ port < 65536

/-- The member array as it is printed into a key. -/
def joined (connected : List String) : String := String.intercalate "," connected

/-- A tick of the forwarder asks for the connections of every device. -/
def forwardSmembers (memory : Memory) : Reply → Turn
  | .members devices => finish memory (devices.map fun device =>
      (⟨connectionKey device, .smembers⟩, .forwardConnected device)) []
  | _ => throw memory

/-- The newest reading of a device with connections is fetched. -/
def forwardConnected (device : String) (memory : Memory) : Reply → Turn
  | .members connected => finish memory
      (if connected.length = 0 then []
        else [(⟨dataKey device, .lindex 0⟩, .forwardLindex device connected)]) []
  | _ => throw memory

/-- The record is asked for under the whole member array, as if it were one device. -/
def forwardLindex (device : String) (connected : List String) (ordinal : Nat) (reading : Reply)
    (memory : Memory) : Turn :=
  finish memory [(⟨recordKey (joined connected), .hgetall⟩,
    .forwardHgetall device connected reading ordinal)] []

/-- Only for an active receiver the reading is looked up. A missing record throws. -/
def forwardHgetall (device : String) (connected : List String) (reading : Reply)
    (readAt ordinal : Nat) (memory : Memory) : Reply → Turn
  | .object (some record) => finish memory
      (if record "active" = some "true" then
        [(⟨tableKey device, .hget (Script.text (readingNumber reading))⟩,
          .forwardHget device connected reading readAt record ordinal)]
      else []) []
  | _ => throw memory

/-- A missing value throws when it becomes a buffer, a missing port when the
buffer is sent; `previous` is assigned before both. -/
def forwardHget (device : String) (connected : List String) (reading : Reply) (readAt : Nat)
    (record : Hash) (recordAt : Nat) (memory : Memory) : Reply → Turn
  | .bulk (some newValue) =>
      let memory := Function.update memory device (some newValue)
      match sendPort (record "udp_port") with
      | none => throw memory
      | some port => finish memory
          (silent [⟨recordKey device, .hincrby "msg_count" 1⟩, ⟨msgCountKey, .incr⟩])
          [.datagram ⟨device, joined connected, newValue, port, record "ip", reading, readAt,
            recordAt⟩]
  | _ => throw (Function.update memory device none)

end UDP

namespace Routine

/-- `epoch - last_ping < 2000`, where `null` counts as zero. -/
def recent (now : Nat) : Option String → Bool
  | none => now < 2000
  | some text =>
      match Decimal.natValue text.toList with
      | none => false
      | some lastPing => (now : Int) - lastPing < 2000

/-- The routine asks for the last PING of every device. -/
def smembers (memory : Memory) : Reply → Turn
  | .members devices => finish memory (devices.map fun device =>
      (⟨recordKey device, .hmget ["last_ping"]⟩, .routineHmget device)) []
  | _ => throw memory

/-- The routine writes whether a device is active. -/
def hmget (device : String) (now : Nat) (memory : Memory) : Reply → Turn
  | .array (lastPing :: _) => finish memory (silent [⟨recordKey device,
      .hmset [("active", if recent now lastPing then "true" else "false")]⟩]) []
  | _ => throw memory

end Routine

namespace ConnectController

/-- The flash message for a device that is not registered. -/
def missing (device : String) : String := "Sorry, device " ++ device ++ " doesn't exist."

/-- The source of a connection is registered: ask for its target. -/
def sismemberFrom (fromDevice toDevice : String) (referer : Option String) (memory : Memory)
    (reply : Reply) : Turn :=
  if truthy reply then
    finish memory [(⟨devicesKey, .sismember toDevice⟩, .connectTo fromDevice toDevice referer)] []
  else finish memory []
    [.flash "danger" (missing fromDevice), .redirect (backLocation referer)]

/-- The target of a connection is registered as well: store the connection. -/
def sismemberTo (fromDevice toDevice : String) (referer : Option String) (memory : Memory)
    (reply : Reply) : Turn :=
  if truthy reply then
    finish memory [(⟨connectionKey fromDevice, .sadd toDevice⟩,
      .connectSadd fromDevice toDevice referer)] []
  else finish memory [] [.flash "danger" (missing toDevice), .redirect (backLocation referer)]

/-- The connection is stored. -/
def sadd (fromDevice toDevice : String) (referer : Option String) (memory : Memory) : Turn :=
  finish memory [] [.flash "success"
    (fromDevice ++ " successfully connected to the " ++ toDevice),
    .redirect (backLocation referer)]

end ConnectController

namespace DisconnectController

/-- The device has connections: remove the one that is named. -/
def existsConnection (fromDevice toDevice : String) (referer : Option String) (memory : Memory)
    (reply : Reply) : Turn :=
  if truthy reply then
    finish memory [(⟨connectionKey fromDevice, .srem toDevice⟩,
      .disconnectSrem fromDevice toDevice referer)] []
  else finish memory [] [.flash "danger" "Sorry, this connection doesn't exist.",
    .redirect (backLocation referer)]

/-- The connection is removed, or was not there. -/
def srem (fromDevice toDevice : String) (referer : Option String) (memory : Memory) : Turn :=
  finish memory [] [.flash "success"
    (toDevice ++ " successfully disconnected from the " ++ fromDevice),
    .redirect (backLocation referer)]

/-- All connections of the device are dropped. -/
def del (referer : Option String) (memory : Memory) : Turn :=
  finish memory [] [.flash "success" "All connections successfully dropped!",
    .redirect (backLocation referer)]

/-- `release` answers at once and looks for the connections to the device afterwards. -/
def release (fromDevice : String) (referer : Option String) (memory : Memory) : Turn :=
  finish memory [(⟨devicesKey, .smembers⟩, .releaseSmembers fromDevice)]
    [.flash "success" "All connections has been released successfully.",
      .redirect (backLocation referer)]

/-- Every device may be connected to the released one. -/
def releaseSmembers (fromDevice : String) (memory : Memory) : Reply → Turn
  | .members devices => finish memory (devices.map fun device =>
      (⟨connectionKey device, .sismember fromDevice⟩, .releaseSismember device fromDevice)) []
  | _ => throw memory

/-- Remove a connection that was found. -/
def releaseSismember (device fromDevice : String) (reply : Reply) : Sends :=
  if truthy reply then silent [⟨connectionKey device, .srem fromDevice⟩] else []

end DisconnectController

namespace DeviceController

/-- The table and the name of the new function are written in one turn. The last
branch redirects to the header called `/`, which no request has. -/
def functionChange (curves : Curves) (device : String) (newFunction : Option String)
    (memory : Memory) (reply : Reply) : Turn :=
  if truthy reply then
    match newFunction.bind FunctionsService.find with
    | some function => finish memory
        (silent (FunctionsService.commands curves function device ++
          [⟨recordKey device, .hmset [("function", function.name)]⟩]))
        [.send 200 "new_function" function.name]
    | none => finish memory [] [.send 500 "error"
        ("Function " ++ newFunction.getD "undefined" ++ " is not allowed")]
  else finish memory [] [.flash "danger" (ConnectController.missing device), .redirect none]

end DeviceController

variable (platform : Platform)

/-- The turn that an event begins. -/
def onEvent (event : Event) (now : Nat) (memory : Memory) : Turn :=
  match event with
  | .tcpData ip port values => TCP.data platform ip port now values memory
  | .udpMessage msg _ port => finish memory (UDP.message msg port now) []
  | .connect fromDevice toDevice referer => finish memory
      [(⟨devicesKey, .sismember fromDevice⟩, .connectFrom fromDevice toDevice referer)] []
  | .disconnect fromDevice toDevice referer => finish memory
      [(⟨connectionKey fromDevice, .existsKey⟩, .disconnectExists fromDevice toDevice referer)] []
  | .disconnectAll fromDevice referer => finish memory
      [(⟨connectionKey fromDevice, .del⟩, .disconnectDel referer)] []
  | .release fromDevice referer => DisconnectController.release fromDevice referer memory
  | .functionChange device newFunction => finish memory
      [(⟨devicesKey, .sismember device⟩, .functionChange device newFunction)] []
  | .routineTick => finish memory [(⟨devicesKey, .smembers⟩, .routineSmembers)] []
  | .forwardTick => finish memory [(⟨devicesKey, .smembers⟩, .forwardSmembers)] []

/-- The body of a callback. -/
def onReply (callback : Callback) (ordinal : Nat) (reply : Reply) (now : Nat) (memory : Memory) :
    Turn :=
  match callback with
  | .ignored => finish memory [] []
  | .pingSismember device ip port epoch =>
      finish memory (TCP.pingSismember device ip port epoch reply) []
  | .pingSadd device ip port epoch => finish memory (TCP.pingSadd device ip port epoch) []
  | .pingHmset device => finish memory (TCP.pingHmset platform.curves device) []
  | .connectFrom fromDevice toDevice referer =>
      ConnectController.sismemberFrom fromDevice toDevice referer memory reply
  | .connectTo fromDevice toDevice referer =>
      ConnectController.sismemberTo fromDevice toDevice referer memory reply
  | .connectSadd fromDevice toDevice referer =>
      ConnectController.sadd fromDevice toDevice referer memory
  | .disconnectExists fromDevice toDevice referer =>
      DisconnectController.existsConnection fromDevice toDevice referer memory reply
  | .disconnectSrem fromDevice toDevice referer =>
      DisconnectController.srem fromDevice toDevice referer memory
  | .disconnectDel referer => DisconnectController.del referer memory
  | .releaseSmembers fromDevice => DisconnectController.releaseSmembers fromDevice memory reply
  | .releaseSismember device fromDevice =>
      finish memory (DisconnectController.releaseSismember device fromDevice reply) []
  | .functionChange device newFunction =>
      DeviceController.functionChange platform.curves device newFunction memory reply
  | .routineSmembers => Routine.smembers memory reply
  | .routineHmget device => Routine.hmget device now memory reply
  | .forwardSmembers => UDP.forwardSmembers memory reply
  | .forwardConnected device => UDP.forwardConnected device memory reply
  | .forwardLindex device connected => UDP.forwardLindex device connected ordinal reply memory
  | .forwardHgetall device connected reading readAt =>
      UDP.forwardHgetall device connected reading readAt ordinal memory reply
  | .forwardHget device connected reading readAt record recordAt =>
      UDP.forwardHget device connected reading readAt record recordAt memory reply

/-- The server over its one Redis connection. -/
def server : Pipeline.Client Store Command Reply Callback Event Nat Output Memory where
  execute := execute platform.order
  onEvent := onEvent platform
  onReply := onReply platform

/-- A state of the server and its database. -/
abbrev State := Pipeline.State Store Command Reply Callback Event Output Memory

/-- An event, the execution of a command, or the delivery of a reply. -/
abbrev Action := Pipeline.Action Event Nat

/-- The server as it starts, with a given content of the database. -/
def boot (store : Store) : State := .start store fun _ => none

/-- A platform for closed examples. Sets are returned in the order of their names
and the logarithm is taken in steps of powers of two. -/
def referencePlatform : Platform where
  order := {
    enumerate := fun _ members => members.sort (· ≤ ·)
    nodup := fun _ members => members.sort_nodup (· ≤ ·)
    mem_enumerate := fun _ members _ => members.mem_sort (· ≤ ·) }
  curves := {
    K := ℚ
    exponential := fun i => .finite (1.80753 * 1.00625 ^ i)
    logarithmic := fun i =>
      if i = 0 then .negInfinity else .finite (-1053.96 + 289.931 * (0.693147 * Nat.log2 i))
    wavy := fun i => .finite
      (-3.23206 / 10 ^ 8 * i ^ 4 + 0.000068 * i ^ 3 - 0.044362 * i ^ 2 + 9.59513 * i - 47.9076) }
  toLowerCase := fun text => String.ofList (text.toList.map Char.toLower)

end RealTimeWs
