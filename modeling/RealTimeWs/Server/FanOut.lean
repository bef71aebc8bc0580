import RealTimeWs.Server.Tick

/-! # Forwarding to all connected devices

A tick has to send the value of a device to every active device that it is connected
to. It asks for one record instead, under the names of all these devices joined by
commas, which is the record of the connected device only where there is no other.
-/

namespace RealTimeWs

open Redis Tick

variable (store : Store)

/-- The value that is to be sent for a device: its table at the number of its newest reading. -/
def forwardedValue (device : String) : Option String :=
  fieldAt store (tableKey device)
    (Script.text (UDP.readingNumber (lindexReply (store (dataKey device)))))

/-- The datagram to a connected device. -/
def datagramTo (device member : String) : Sent where
  device := device
  address := fieldAt store (recordKey member) "ip"
  port := (UDP.sendPort (fieldAt store (recordKey member) "udp_port")).getD 0
  message := (forwardedValue store device).getD ""

/-- The devices that a device is connected to and that are active. -/
def activeMembers (device : String) : Finset String :=
  (setAt store (connectionKey device)).filter fun member =>
    fieldAt store (recordKey member) "active" = some "true"

/-- The datagrams that a tick has to send for a device: one to every active member. -/
def expected (device : String) : Multiset Sent :=
  (activeMembers store device).val.map (datagramTo store device)

/-- What the tick relies on: the sets are sets, a device that is connected to others has a value
to send, and these have a record with an address. -/
structure Forwardable : Prop where
  typed : Typed store
  value : ∀ device ∈ setAt store devicesKey, (setAt store (connectionKey device)).Nonempty →
    ∃ table newValue, store (tableKey device) = some (.hash table) ∧
      forwardedValue store device = some newValue
  record : ∀ device ∈ setAt store devicesKey, ∀ member ∈ setAt store (connectionKey device),
    ∃ record port, store (recordKey member) = some (.hash record) ∧ (record "ip").isSome ∧
      UDP.sendPort (record "udp_port") = some port

/-- After a tick: the server goes on, and it has sent what it had to send for every device. -/
structure FannedOut (s : State) : Prop where
  calm : s.thrown = false
  exact : ∀ device ∈ setAt store devicesKey,
    Multiset.ofList ((sentOf s.outputs).filter fun sent => sent.device = device) =
      expected store device

/-- Every tick without interleaved requests comes to an end, and has then sent what it had to. -/
def TickRight (platform : Platform) : Prop :=
  ∀ now, (∃ schedule, Pipeline.Client.EventFree schedule ∧
      Over ((server platform).run (boot store) (.event .forwardTick now :: schedule))) ∧
    ∀ schedule, Pipeline.Client.EventFree schedule →
      Over ((server platform).run (boot store) (.event .forwardTick now :: schedule)) →
        FannedOut store ((server platform).run (boot store) (.event .forwardTick now :: schedule))

/-- The list names the members of the set, each once. -/
def Enumerates (list : List String) (members : Finset String) : Prop :=
  list.Nodup ∧ ∀ name, name ∈ list ↔ name ∈ members

/-- The record has the address of a connected device. -/
def SameAddress (record : Hash) (member : String) : Prop :=
  record "ip" = fieldAt store (recordKey member) "ip" ∧
    UDP.sendPort (record "udp_port") = UDP.sendPort (fieldAt store (recordKey member) "udp_port")

/-- The record under the joined names stands for the connected devices: it is active, with the
address of the only active one, or it is inactive and so are all of them. -/
def JoinedFits (device : String) (connected : List String) : Prop :=
  ∃ record, store (recordKey (UDP.joined connected)) = some (.hash record) ∧
    if record "active" = some "true" then
      ∃ member, activeMembers store device = {member} ∧ SameAddress store record member
    else activeMembers store device = ∅

/-! ## One device -/

variable {store} {device : String}

theorem device_of_afterHget {record : Hash} {reply : Reply} {sent : List Sent}
    (hsent : afterHget device record reply = some sent) : ∀ one ∈ sent, one.device = device := by
  unfold afterHget at hsent
  split at hsent
  next =>
    obtain ⟨port, _, rfl⟩ := Option.map_eq_some_iff.mp hsent
    intro one hmem
    rw [List.mem_singleton.mp hmem]
  next => cases hsent

theorem device_of_afterHgetall {reading reply : Reply} {sent : List Sent}
    (hsent : afterHgetall store device reading reply = some sent) :
    ∀ one ∈ sent, one.device = device := by
  unfold afterHgetall at hsent
  split at hsent
  next =>
    split at hsent
    next => exact device_of_afterHget hsent
    next =>
      cases hsent
      intro one hmem
      cases hmem
  next => cases hsent

/-- What is sent for a device carries its name. -/
theorem device_of_afterConnected {reply : Reply} {sent : List Sent}
    (hsent : afterConnected store device reply = some sent) :
    ∀ one ∈ sent, one.device = device := by
  unfold afterConnected at hsent
  split at hsent
  next =>
    split at hsent
    next =>
      cases hsent
      intro one hmem
      cases hmem
    next => exact device_of_afterHgetall hsent
  next => cases hsent

/-- The tick sends the right datagrams for a device. -/
def SendsRight (store : Store) (device : String) (connected : List String) : Prop :=
  ∃ sent, afterConnected store device (.members connected) = some sent ∧
    Multiset.ofList sent = expected store device

/-- For a device that is connected to nothing, nothing is sent. -/
theorem sendsRight_nil (hempty : setAt store (connectionKey device) = ∅) :
    SendsRight store device [] := by
  refine ⟨[], rfl, ?_⟩
  rw [expected, activeMembers, hempty]
  rfl

theorem connected_of_active {member : String} (hactive : activeMembers store device = {member}) :
    member ∈ setAt store (connectionKey device) := by
  have hmem : member ∈ activeMembers store device := by
    rw [hactive]
    exact Finset.mem_singleton_self member
  exact (Finset.mem_filter.mp hmem).1

/-- One datagram has to be sent if one device is active, and the record gives it if it has
the address of that device. -/
theorem expected_eq_singleton_iff
    (hports : ∀ member ∈ setAt store (connectionKey device), ∃ port,
      UDP.sendPort (fieldAt store (recordKey member) "udp_port") = some port) {record : Hash} :
    (∃ port, UDP.sendPort (record "udp_port") = some port ∧ expected store device =
      {⟨device, record "ip", port, (forwardedValue store device).getD ""⟩}) ↔
      ∃ member, activeMembers store device = {member} ∧ SameAddress store record member := by
  constructor
  · rintro ⟨port, hport, hexpected⟩
    obtain ⟨member, hval, hdatagram⟩ := Multiset.map_eq_singleton.mp hexpected
    have hactive : activeMembers store device = {member} := Finset.val_injective hval
    obtain ⟨port', hport'⟩ := hports member (connected_of_active hactive)
    rw [datagramTo, hport', Option.getD_some] at hdatagram
    obtain ⟨-, hip, hsame, -⟩ := Sent.mk.inj hdatagram
    exact ⟨member, hactive, hip.symm, by rw [hport, hport', hsame]⟩
  · rintro ⟨member, hactive, hip, hsame⟩
    obtain ⟨port, hport⟩ := hports member (connected_of_active hactive)
    refine ⟨port, hsame.trans hport, ?_⟩
    rw [expected, hactive, Finset.singleton_val, Multiset.map_singleton, datagramTo, hport,
      Option.getD_some, hip]

theorem expected_eq_zero_iff : expected store device = 0 ↔ activeMembers store device = ∅ :=
  Multiset.map_eq_zero.trans Finset.val_eq_zero

/-- Otherwise all depends on the record under the joined names. -/
theorem sendsRight_iff {table : Hash} {newValue : String}
    (htable : store (tableKey device) = some (.hash table))
    (hvalue : forwardedValue store device = some newValue)
    (hports : ∀ member ∈ setAt store (connectionKey device), ∃ port,
      UDP.sendPort (fieldAt store (recordKey member) "udp_port") = some port)
    {connected : List String} (hne : connected ≠ []) :
    SendsRight store device connected ↔ JoinedFits store device connected := by
  have hlength : connected.length ≠ 0 := by simpa using hne
  have hentry : table (Script.text (UDP.readingNumber (lindexReply (store (dataKey device))))) =
      some newValue := by
    rw [forwardedValue, fieldAt, htable] at hvalue
    exact hvalue
  have hone := @expected_eq_singleton_iff store device hports
  rw [hvalue, Option.getD_some] at hone
  rw [SendsRight, afterConnected, if_neg hlength, afterLindex, JoinedFits]
  cases hrecord : store (recordKey (UDP.joined connected)) with
  -- without that record the tick throws
  | none => simp [hgetallReply, afterHgetall]
  | some value =>
      cases value with
      | hash record =>
          simp only [hgetallReply, afterHgetall, htable, hgetReply, hentry, afterHget,
            Option.some.injEq, Value.hash.injEq]
          by_cases hactive : record "active" = some "true"
          -- one datagram goes to the address in the record
          · constructor
            · rintro ⟨sent, hsent, hsame⟩
              rw [if_pos hactive] at hsent
              obtain ⟨port, hport, rfl⟩ := Option.map_eq_some_iff.mp hsent
              refine ⟨record, rfl, ?_⟩
              rw [if_pos hactive]
              exact hone.mp ⟨port, hport, hsame.symm⟩
            · rintro ⟨record', rfl, hfits⟩
              rw [if_pos hactive] at hfits
              obtain ⟨port, hport, hsame⟩ := hone.mpr hfits
              refine ⟨[⟨device, record "ip", port, newValue⟩], ?_, hsame.symm⟩
              rw [if_pos hactive, hport]
              rfl
          -- nothing is sent for an inactive record
          · constructor
            · rintro ⟨sent, hsent, hsame⟩
              rw [if_neg hactive] at hsent
              cases hsent
              refine ⟨record, rfl, ?_⟩
              rw [if_neg hactive]
              exact expected_eq_zero_iff.mp hsame.symm
            · rintro ⟨record', rfl, hfits⟩
              rw [if_neg hactive] at hfits
              refine ⟨[], ?_, (expected_eq_zero_iff.mpr hfits).symm⟩
              rw [if_neg hactive]
      | _ => simp [hgetallReply, afterHgetall]

theorem Forwardable.ports (hready : Forwardable store) (hdevice : device ∈ setAt store devicesKey) :
    ∀ member ∈ setAt store (connectionKey device), ∃ port,
      UDP.sendPort (fieldAt store (recordKey member) "udp_port") = some port := by
  intro member hmember
  obtain ⟨record, port, hrecord, _, hport⟩ := hready.record device hdevice member hmember
  refine ⟨port, ?_⟩
  rw [fieldAt, hrecord]
  exact hport

/-- The record of a single connected device stands for it. -/
theorem joinedFits_single {member : String} {record : Hash}
    (hmembers : setAt store (connectionKey device) = {member})
    (hrecord : store (recordKey member) = some (.hash record)) :
    JoinedFits store device [member] := by
  have hfields : fieldAt store (recordKey member) = record := by
    rw [fieldAt, hrecord]
    rfl
  refine ⟨record, hrecord, ?_⟩
  by_cases hactive : record "active" = some "true"
  · rw [if_pos hactive]
    refine ⟨member, ?_, ?_⟩
    · rw [activeMembers, hmembers, Finset.filter_singleton, hfields, if_pos hactive]
    · rw [SameAddress, hfields]
      exact ⟨rfl, rfl⟩
  · rw [if_neg hactive, activeMembers, hmembers, Finset.filter_singleton, hfields, if_neg hactive]

theorem enumerates_singleton {connected : List String} {member : String}
    (henumerates : Enumerates connected {member}) : connected = [member] := by
  obtain ⟨hnodup, hmem⟩ := henumerates
  have hperm : connected.Perm [member] := by
    apply (List.perm_ext_iff_of_nodup hnodup (List.nodup_singleton member)).mpr
    intro name
    rw [hmem, Finset.mem_singleton, List.mem_singleton]
  exact List.perm_singleton.mp hperm

theorem enumerates_empty {connected : List String} (henumerates : Enumerates connected ∅) :
    connected = [] := by
  apply List.eq_nil_iff_forall_not_mem.mpr
  intro name hmem
  exact Finset.notMem_empty name ((henumerates.2 name).mp hmem)

/-- With at most one connected device the right datagrams are sent. -/
theorem sendsRight_of_card_le_one (hready : Forwardable store)
    (hdevice : device ∈ setAt store devicesKey)
    (hcard : (setAt store (connectionKey device)).card ≤ 1) {connected : List String}
    (henumerates : Enumerates connected (setAt store (connectionKey device))) :
    SendsRight store device connected := by
  rcases Finset.card_le_one_iff_subset_singleton.mp hcard with ⟨member, hsubset⟩
  rcases Finset.subset_singleton_iff.mp hsubset with hempty | hsingle
  · rw [hempty] at henumerates
    rw [enumerates_empty henumerates]
    exact sendsRight_nil hempty
  · rw [hsingle] at henumerates
    rw [enumerates_singleton henumerates]
    obtain ⟨table, newValue, htable, hvalue⟩ := hready.value device hdevice (by simp [hsingle])
    obtain ⟨record, _, hrecord, _⟩ := hready.record device hdevice member (by simp [hsingle])
    exact (sendsRight_iff htable hvalue (hready.ports hdevice) (List.cons_ne_nil _ _)).mpr
      (joinedFits_single hsingle hrecord)

/-! ## All devices -/

variable {order : SetOrder}

theorem device_of_sendsFor {n : Nat} {devices : List String} {sent : List Sent}
    (hsent : sendsFor order store n devices = some sent) : ∀ one ∈ sent, one.device ∈ devices := by
  induction devices generalizing n sent with
  | nil =>
      cases hsent
      intro one hmem
      cases hmem
  | cons device rest ih =>
      obtain ⟨first, hfirst, hrest⟩ := Option.bind_eq_some_iff.mp hsent
      obtain ⟨later, hlater, rfl⟩ := Option.map_eq_some_iff.mp hrest
      intro one hmem
      rcases List.mem_append.mp hmem with hmem | hmem
      · rw [device_of_afterConnected hfirst one hmem]
        exact List.mem_cons_self
      · exact List.mem_cons_of_mem _ (ih hlater one hmem)

/-- For every device of the list, with the connections as the commands from the `n`-th on
enumerate them, the right datagrams are sent. -/
def AllRight (order : SetOrder) (store : Store) : Nat → List String → Prop
  | _, [] => True
  | n, device :: rest =>
      SendsRight store device (order.enumerate n (setAt store (connectionKey device))) ∧
        AllRight order store (n + 1) rest

/-- The datagrams for one device among those for all. -/
theorem filter_append_self {first later : List Sent} {rest : List String}
    (hfirst : ∀ one ∈ first, one.device = device) (hlater : ∀ one ∈ later, one.device ∈ rest)
    (hnot : device ∉ rest) :
    (first ++ later).filter (fun sent => sent.device = device) = first := by
  rw [List.filter_append, List.filter_eq_self.mpr, List.filter_eq_nil_iff.mpr, List.append_nil]
  · intro one hmem heq
    exact hnot (of_decide_eq_true heq ▸ hlater one hmem)
  · intro one hmem
    exact decide_eq_true (hfirst one hmem)

theorem filter_append_other {first later : List Sent} {other : String}
    (hfirst : ∀ one ∈ first, one.device = device) (hne : other ≠ device) :
    (first ++ later).filter (fun sent => sent.device = other) =
      later.filter fun sent => sent.device = other := by
  rw [List.filter_append, List.filter_eq_nil_iff.mpr, List.nil_append]
  intro one hmem heq
  exact hne ((of_decide_eq_true heq).symm.trans (hfirst one hmem))

theorem sendsFor_right_iff {n : Nat} {devices : List String} (hnodup : devices.Nodup) :
    (∃ sent, sendsFor order store n devices = some sent ∧ ∀ device ∈ devices,
      Multiset.ofList (sent.filter fun one => one.device = device) = expected store device) ↔
      AllRight order store n devices := by
  induction devices generalizing n with
  | nil => exact iff_of_true ⟨[], rfl, fun _ hmem => (List.not_mem_nil hmem).elim⟩ trivial
  | cons device rest ih =>
      obtain ⟨hnot, hrest⟩ := List.nodup_cons.mp hnodup
      rw [AllRight, ← ih hrest]
      constructor
      · rintro ⟨sent, hsent, hall⟩
        obtain ⟨first, hfirst, hmore⟩ := Option.bind_eq_some_iff.mp hsent
        obtain ⟨later, hlater, rfl⟩ := Option.map_eq_some_iff.mp hmore
        have hnames := device_of_afterConnected hfirst
        constructor
        · have hself := hall device List.mem_cons_self
          rw [filter_append_self hnames (device_of_sendsFor hlater) hnot] at hself
          exact ⟨first, hfirst, hself⟩
        · refine ⟨later, hlater, ?_⟩
          intro other hmem
          have hother := hall other (List.mem_cons_of_mem device hmem)
          rwa [filter_append_other hnames (ne_of_mem_of_not_mem hmem hnot)] at hother
      · rintro ⟨⟨first, hfirst, hself⟩, later, hlater, hall⟩
        have hnames := device_of_afterConnected hfirst
        refine ⟨first ++ later, ?_, ?_⟩
        · rw [sendsFor, hfirst, Option.bind_some, hlater]
          rfl
        · intro other hmem
          rcases List.mem_cons.mp hmem with rfl | hmem
          · rw [filter_append_self hnames (device_of_sendsFor hlater) hnot]
            exact hself
          · rw [filter_append_other hnames (ne_of_mem_of_not_mem hmem hnot)]
            exact hall other hmem

theorem allRight_of_forall {devices : List String}
    (hall : ∀ device ∈ devices, ∀ n,
      SendsRight store device (order.enumerate n (setAt store (connectionKey device)))) (n : Nat) :
    AllRight order store n devices := by
  induction devices generalizing n with
  | nil => trivial
  | cons device rest ih =>
      refine ⟨hall device List.mem_cons_self n, ih ?_ (n + 1)⟩
      intro other hmem
      exact hall other (List.mem_cons_of_mem device hmem)

theorem AllRight.exists {n : Nat} {devices : List String} (hright : AllRight order store n devices)
    (hmem : device ∈ devices) :
    ∃ n, SendsRight store device (order.enumerate n (setAt store (connectionKey device))) := by
  induction devices generalizing n with
  | nil => cases hmem
  | cons first rest ih =>
      rcases List.mem_cons.mp hmem with rfl | hmem
      · exact ⟨n, hright.1⟩
      · exact ih hright.2 hmem

/-! ## Every tick -/

theorem ofList_filter {first second : List Sent}
    (hsame : Multiset.ofList first = Multiset.ofList second) (accepts : Sent → Bool) :
    Multiset.ofList (first.filter accepts) = Multiset.ofList (second.filter accepts) :=
  Multiset.coe_eq_coe.mpr ((Multiset.coe_eq_coe.mp hsame).filter accepts)

theorem tickRight_iff (platform : Platform) (hready : Forwardable store) :
    TickRight store platform ↔
      AllRight platform.order store 1 (platform.order.enumerate 0 (setAt store devicesKey)) := by
  rw [← sendsFor_right_iff (platform.order.nodup 0 _)]
  constructor
  · intro hright
    obtain ⟨⟨schedule, hfree, hover⟩, hall⟩ := hright 0
    obtain ⟨hcalm, hexact⟩ := hall schedule hfree hover
    -- the order of the datagrams depends on the schedule, but not which ones they are
    rcases over_tick 0 hready.typed hfree hover with ⟨hthrown, _⟩ | ⟨_, sent, hsent, hsame⟩
    · cases hthrown.symm.trans hcalm
    · refine ⟨sent, hsent, ?_⟩
      intro device hmem
      rw [← hexact device ((platform.order.mem_enumerate _ _ _).mp hmem)]
      exact (ofList_filter hsame _).symm
  · rintro ⟨sent, hsent, hall⟩ now
    refine ⟨exists_over_tick platform hready.typed now, ?_⟩
    intro schedule hfree hover
    rcases over_tick now hready.typed hfree hover with ⟨_, hnone⟩ | ⟨hcalm, sent', hsent', hsame⟩
    · cases hsent.symm.trans hnone
    · refine ⟨hcalm, ?_⟩
      intro device hmem
      rw [← hall device ((platform.order.mem_enumerate _ _ _).mpr hmem)]
      obtain rfl : sent = sent' := Option.some.inj (hsent.symm.trans hsent')
      exact ofList_filter hsame _

/-- An order of enumeration, changed for one set. -/
def enumerateAs (order : SetOrder) {members : Finset String} {list : List String}
    (henumerates : Enumerates list members) : SetOrder where
  enumerate := fun n other => if other = members then list else order.enumerate n other
  nodup := by
    intro n other
    split
    · exact henumerates.1
    · exact order.nodup n other
  mem_enumerate := by
    intro n other name
    split
    next heq =>
      rw [heq]
      exact henumerates.2 name
    next => exact order.mem_enumerate n other name

theorem enumerates_enumerate (order : SetOrder) (n : Nat) (members : Finset String) :
    Enumerates (order.enumerate n members) members :=
  ⟨order.nodup n members, order.mem_enumerate n members⟩

/-- In whatever order Redis enumerates its sets, a tick forwards to all active devices exactly
when no device is connected to more than one other, or the record under their joined
names happens to stand for them. -/
theorem fan_out_iff {store : Store} (hready : Forwardable store) :
    (∀ platform, TickRight store platform) ↔
      ∀ device ∈ setAt store devicesKey, (setAt store (connectionKey device)).card ≤ 1 ∨
        ∀ connected, Enumerates connected (setAt store (connectionKey device)) →
          JoinedFits store device connected := by
  constructor
  · intro hright device hdevice
    by_cases hcard : (setAt store (connectionKey device)).card ≤ 1
    · exact Or.inl hcard
    · right
      intro connected henumerates
      have hnonempty : (setAt store (connectionKey device)).Nonempty := by
        rw [← Finset.card_pos]
        omega
      obtain ⟨table, newValue, htable, hvalue⟩ := hready.value device hdevice hnonempty
      have hne : connected ≠ [] := by
        obtain ⟨member, hmember⟩ := hnonempty
        exact List.ne_nil_of_mem ((henumerates.2 member).mpr hmember)
      -- a platform that enumerates the members in just this order
      let platform : Platform :=
        { referencePlatform with order := enumerateAs referencePlatform.order henumerates }
      obtain ⟨n, hsends⟩ := ((tickRight_iff platform hready).mp (hright platform)).exists
        ((platform.order.mem_enumerate 0 _ device).mpr hdevice)
      have hlist : platform.order.enumerate n (setAt store (connectionKey device)) = connected :=
        if_pos rfl
      rw [hlist] at hsends
      exact (sendsRight_iff htable hvalue (hready.ports hdevice) hne).mp hsends
  · intro hcondition platform
    apply (tickRight_iff platform hready).mpr
    apply allRight_of_forall
    intro device hmem n
    have hdevice : device ∈ setAt store devicesKey := (platform.order.mem_enumerate _ _ _).mp hmem
    have henumerates := enumerates_enumerate platform.order n (setAt store (connectionKey device))
    rcases hcondition device hdevice with hcard | hfits
    · exact sendsRight_of_card_le_one hready hdevice hcard henumerates
    · rcases Finset.eq_empty_or_nonempty (setAt store (connectionKey device)) with
        hempty | hnonempty
      · apply sendsRight_of_card_le_one hready hdevice _ henumerates
        rw [hempty]
        exact Nat.zero_le 1
      · obtain ⟨table, newValue, htable, hvalue⟩ := hready.value device hdevice hnonempty
        obtain ⟨member, hmember⟩ := hnonempty
        exact (sendsRight_iff htable hvalue (hready.ports hdevice)
          (List.ne_nil_of_mem ((henumerates.2 member).mpr hmember))).mpr (hfits _ henumerates)

/-! ## Two connected devices -/

/-- The record of an active device at an address. -/
def activeRecord (ip : String) : Hash :=
  Hash.none.setAll [("ip", ip), ("active", "true"), ("udp_port", "4001")]

/-- A database with three devices, of which the first one is connected to some of the others. -/
def fanStore (members : Finset String) : Store := fun key =>
  if key = devicesKey then some (.set {"adc", "dac1", "dac2"})
  else if key = connectionKey "adc" then some (.set members)
  else if key = tableKey "adc" then some (.hash (Hash.none.setAll [("0", "0")]))
  else if key = recordKey "dac1" then some (.hash (activeRecord "10.0.0.3"))
  else if key = recordKey "dac2" then some (.hash (activeRecord "10.0.0.4"))
  else none

section FanStore

variable (members : Finset String)

theorem fanStore_devices : setAt (fanStore members) devicesKey = {"adc", "dac1", "dac2"} := rfl

theorem fanStore_connection : setAt (fanStore members) (connectionKey "adc") = members := rfl

theorem fanStore_connection_of_ne {device : String} (hne : device ≠ "adc")
    (hdevice : device ∈ setAt (fanStore members) devicesKey) :
    fanStore members (connectionKey device) = none := by
  rw [fanStore_devices] at hdevice
  simp only [Finset.mem_insert, Finset.mem_singleton] at hdevice
  rcases hdevice with rfl | rfl | rfl
  · exact absurd rfl hne
  · rfl
  · rfl

theorem forwardable_fanStore (hmembers : members ⊆ {"dac1", "dac2"}) :
    Forwardable (fanStore members) where
  typed := by
    refine ⟨trivial, ?_⟩
    intro device hdevice
    by_cases heq : device = "adc"
    · subst heq
      trivial
    · rw [fanStore_connection_of_ne members heq hdevice]
      trivial
  value := by
    intro device hdevice hnonempty
    by_cases heq : device = "adc"
    · subst heq
      exact ⟨_, "0", rfl, rfl⟩
    · rw [setAt, fanStore_connection_of_ne members heq hdevice] at hnonempty
      exact absurd hnonempty Finset.not_nonempty_empty
  record := by
    intro device hdevice member hmember
    by_cases heq : device = "adc"
    · subst heq
      have hname := hmembers hmember
      simp only [Finset.mem_insert, Finset.mem_singleton] at hname
      rcases hname with rfl | rfl
      · exact ⟨activeRecord "10.0.0.3", 4001, rfl, rfl, by decide⟩
      · exact ⟨activeRecord "10.0.0.4", 4001, rfl, rfl, by decide⟩
    · rw [setAt, fanStore_connection_of_ne members heq hdevice] at hmember
      exact absurd hmember (Finset.notMem_empty member)

end FanStore

theorem fan_out_iff_single :
    (∀ platform, TickRight (fanStore {"dac1"}) platform) ↔
      ∀ device ∈ setAt (fanStore {"dac1"}) devicesKey,
        (setAt (fanStore {"dac1"}) (connectionKey device)).card ≤ 1 ∨
          ∀ connected, Enumerates connected (setAt (fanStore {"dac1"}) (connectionKey device)) →
            JoinedFits (fanStore {"dac1"}) device connected :=
  fan_out_iff (forwardable_fanStore {"dac1"} (by simp))

/-- There is no record under two names. -/
theorem fanStore_joined {connected : List String}
    (henumerates : Enumerates connected {"dac1", "dac2"}) :
    fanStore {"dac1", "dac2"} (recordKey (UDP.joined connected)) = none := by
  have hperm : connected.Perm ["dac1", "dac2"] := by
    apply (List.perm_ext_iff_of_nodup henumerates.1 (by decide)).mpr
    intro name
    rw [henumerates.2]
    simp
  obtain ⟨first, second, rfl⟩ := List.length_eq_two.mp hperm.length_eq
  have hnodup : first ≠ second := by
    have := henumerates.1
    simpa using this
  have hfirst := (henumerates.2 first).mp (by simp)
  have hsecond := (henumerates.2 second).mp (by simp)
  simp only [Finset.mem_insert, Finset.mem_singleton] at hfirst hsecond
  -- each of the two names stands in one of the two places
  rcases hfirst with rfl | rfl <;> rcases hsecond with rfl | rfl
  · exact absurd rfl hnodup
  · rfl
  · rfl
  · exact absurd rfl hnodup

/-- Nothing is sent without an outcome for every device. -/
theorem exists_of_sendsFor {n : Nat} {devices : List String} {sent : List Sent}
    (hsent : sendsFor order store n devices = some sent) (hmem : device ∈ devices) :
    ∃ n first, afterConnected store device
      (.members (order.enumerate n (setAt store (connectionKey device)))) = some first := by
  induction devices generalizing n sent with
  | nil => cases hmem
  | cons head rest ih =>
      obtain ⟨first, hfirst, hrest⟩ := Option.bind_eq_some_iff.mp hsent
      obtain ⟨later, hlater, _⟩ := Option.map_eq_some_iff.mp hrest
      rcases List.mem_cons.mp hmem with rfl | hmem
      · exact ⟨n, first, hfirst⟩
      · exact ih hlater hmem

/-- A tick with two connected devices takes the server down. -/
theorem thrown_of_two {now : Nat} {schedule : List Action}
    (hfree : Pipeline.Client.EventFree schedule)
    (hover : Over ((server referencePlatform).run (boot (fanStore {"dac1", "dac2"}))
      (.event .forwardTick now :: schedule))) :
    ((server referencePlatform).run (boot (fanStore {"dac1", "dac2"}))
      (.event .forwardTick now :: schedule)).thrown = true := by
  have hready := forwardable_fanStore {"dac1", "dac2"} (by simp)
  rcases over_tick now hready.typed hfree hover with ⟨hthrown, _⟩ | ⟨_, sent, hsent, _⟩
  · exact hthrown
  · obtain ⟨n, first, hfirst⟩ := exists_of_sendsFor hsent
      ((referencePlatform.order.mem_enumerate 0 _ "adc").mpr (by decide))
    have henumerates := enumerates_enumerate referencePlatform.order n {"dac1", "dac2"}
    have hne : (referencePlatform.order.enumerate n {"dac1", "dac2"}).length ≠ 0 := by
      have hmem := (henumerates.2 "dac1").mpr (by simp)
      exact (List.length_pos_of_mem hmem).ne'
    rw [fanStore_connection, afterConnected, if_neg hne, afterLindex, fanStore_joined henumerates]
      at hfirst
    cases hfirst

/-- Two devices are connected and active, and every tick takes the server down. -/
theorem second_connection_stops_server :
    Forwardable (fanStore {"dac1", "dac2"}) ∧
      activeMembers (fanStore {"dac1", "dac2"}) "adc" = {"dac1", "dac2"} ∧
      ¬ TickRight (fanStore {"dac1", "dac2"}) referencePlatform ∧
      ∀ now schedule, Pipeline.Client.EventFree schedule →
        Over ((server referencePlatform).run (boot (fanStore {"dac1", "dac2"}))
          (.event .forwardTick now :: schedule)) →
        ((server referencePlatform).run (boot (fanStore {"dac1", "dac2"}))
          (.event .forwardTick now :: schedule)).thrown = true := by
  refine ⟨forwardable_fanStore {"dac1", "dac2"} (by simp), by decide, ?_, ?_⟩
  · intro hright
    obtain ⟨⟨schedule, hfree, hover⟩, hsent⟩ := hright 0
    have hcalm := (hsent schedule hfree hover).calm
    rw [thrown_of_two hfree hover] at hcalm
    cases hcalm
  · intro now schedule hfree hover
    exact thrown_of_two hfree hover

end RealTimeWs
