import RealTimeWs.Server.Regular
import RealTimeWs.Pipeline.Script

/-! # A single PING

Handled on its own, a PING follows one of two scripts: it registers a new device
by 1030 commands, or refreshes the record of a known one by four.
-/

namespace RealTimeWs

open Redis FunctionsService

variable (platform : Platform)

/-! ## The commands -/

/-- The five commands of a registration that precede the table. -/
def enrolment (device ip : String) (port epoch : Nat) : Sends :=
  [(⟨msgCountKey, .incr⟩, .ignored),
    (⟨devicesKey, .sismember device⟩, .pingSismember device ip port epoch),
    (⟨devicesKey, .sadd device⟩, .pingSadd device ip port epoch),
    (⟨recordKey device, .hincrby "msg_count" 1⟩, .ignored),
    (⟨recordKey device, .hmset [("ip", ip), ("port", port.repr), ("active", "true"),
      ("last_ping", epoch.repr), ("function", "linear")]⟩, .pingHmset device)]

/-- The PING of a new device. -/
def registration (device ip : String) (port epoch : Nat) : Sends :=
  enrolment device ip port epoch ++ silent (FunctionsService.linear platform.curves device)

/-- How much of it is sent when a number of replies have been delivered. -/
def registrationSent : Nat → Nat
  | 0 | 1 => 2
  | 2 => 4
  | 3 | 4 => 5
  | _ + 5 => 1030

/-- The PING of a known device. -/
def refresh (device ip : String) (port epoch : Nat) : Sends :=
  [(⟨msgCountKey, .incr⟩, .ignored),
    (⟨devicesKey, .sismember device⟩, .pingSismember device ip port epoch),
    (⟨recordKey device, .hmset [("last_ping", epoch.repr)]⟩, .ignored),
    (⟨recordKey device, .hincrby "msg_count" 1⟩, .ignored)]

/-- How many commands of a refresh have been sent when so many replies are handled. -/
def refreshSent : Nat → Nat
  | 0 | 1 => 2
  | _ + 2 => 4

theorem length_linear (device : String) :
    (FunctionsService.linear platform.curves device).length = 1025 := by
  simp [FunctionsService.linear, commands, entries]

theorem length_registration (device ip : String) (port epoch : Nat) :
    (registration platform device ip port epoch).length = 1030 := by
  simp [registration, enrolment, silent, length_linear]

/-- A PING of the device. -/
def IsPingOf (value : Resp.Value String) (device : String) : Prop :=
  TCP.isPing platform.toLowerCase value = some true ∧
    platform.toLowerCase (TCP.secondText value) = device

section Scripts

variable {device : String} (ip : String) (port epoch : Nat)

/-- Whether a PING finds its device registered. -/
theorem truthy_sismember {order : SetOrder} {n : Nat} {store : Store} :
    truthy ((Operation.sismember device).reply order n (store devicesKey)) = true ↔
      device ∈ devices store := by
  unfold devices setAt
  cases hvalue : store devicesKey with
  | none => simp [Operation.reply, truthy]
  | some held =>
      cases held with
      | set members =>
          by_cases hmem : device ∈ members <;> simp [Operation.reply, truthy, hmem]
      | _ => simp [Operation.reply, truthy]

/-- The second reply of a PING shows the registered devices as it found them. -/
theorem second_answer (store : Store) (rest : Sends) :
    ((server platform).answersTo 0 store ((⟨msgCountKey, .incr⟩, .ignored) ::
        (⟨devicesKey, .sismember device⟩, .pingSismember device ip port epoch) :: rest))[1]? =
      some ⟨1, (Operation.sismember device).reply platform.order 1 (store devicesKey),
        .pingSismember device ip port epoch⟩ := by
  simp [server, execute, msgCountKey_ne_devicesKey.symm]

theorem callback_of_getElem? {store : Store} {batch : Sends} {j : Nat}
    {a : Pipeline.Answer Reply Callback}
    (hget : ((server platform).answersTo 0 store batch)[j]? = some a) :
    (batch.map Prod.snd)[j]? = some a.callback := by
  rw [← (server platform).answersTo_callbacks 0 store batch, List.getElem?_map, hget]
  rfl

theorem script_registration {store : Store} (memory : Memory) (hnew : device ∉ devices store) :
    (server platform).Script store memory (registration platform device ip port epoch)
      registrationSent where
  sent_le := by
    intro j
    rw [length_registration]
    unfold registrationSent
    split <;> omega
  sent_mono := by
    intro j
    rcases j with _ | _ | _ | _ | _ | j <;> simp [registrationSent]
  ahead := by
    intro j hlt
    rw [length_registration] at hlt
    unfold registrationSent
    split <;> omega
  turn := by
    intro j a now hget
    have hcallback := callback_of_getElem? platform hget
    have hlength := length_registration platform device ip port epoch
    rcases j with _ | _ | _ | _ | _ | j
    · simp only [registration, enrolment, List.cons_append, List.map_cons,
        List.getElem?_cons_zero, Option.some.injEq] at hcallback
      rw [← hcallback]
      rfl
    · rw [registration, enrolment, List.cons_append, List.cons_append,
        second_answer platform ip port epoch store] at hget
      have hreply : truthy a.reply = false := by
        rw [← Option.some.inj hget]
        rw [← Bool.not_eq_true, truthy_sismember]
        exact hnew
      have hcallback : a.callback = .pingSismember device ip port epoch := by
        rw [← Option.some.inj hget]
      rw [hcallback]
      simp only [onReply, server, TCP.pingSismember, hreply]
      rfl
    · simp only [registration, enrolment, List.cons_append, List.map_cons,
        List.getElem?_cons_succ, List.getElem?_cons_zero, Option.some.injEq] at hcallback
      rw [← hcallback]
      rfl
    · simp only [registration, enrolment, List.cons_append, List.map_cons,
        List.getElem?_cons_succ, List.getElem?_cons_zero, Option.some.injEq] at hcallback
      rw [← hcallback]
      rfl
    · simp only [registration, enrolment, List.cons_append, List.map_cons,
        List.getElem?_cons_succ, List.getElem?_cons_zero, Option.some.injEq] at hcallback
      rw [← hcallback, show registrationSent (4 + 1) = 1030 from rfl,
        List.take_of_length_le hlength.le]
      rfl
    · have hignored : a.callback = .ignored := by
        simp only [registration, enrolment, List.cons_append, List.nil_append, List.map_cons,
          List.getElem?_cons_succ] at hcallback
        obtain ⟨entry, hentry, heq⟩ := List.mem_map.mp (List.mem_of_getElem? hcallback)
        rw [← heq]
        exact ignored_of_mem_silent (show (entry.1, entry.2) ∈ _ from hentry)
      rw [hignored]
      have hsent : ((registration platform device ip port epoch).take
          (registrationSent (j + 5 + 1))).drop (registrationSent (j + 5)) = [] := by
        apply List.drop_eq_nil_of_le
        rw [List.length_take, hlength]
        exact Nat.min_le_left _ _
      rw [hsent]
      rfl

theorem script_refresh {store : Store} (memory : Memory) (hknown : device ∈ devices store) :
    (server platform).Script store memory (refresh device ip port epoch) refreshSent where
  sent_le := by
    intro j
    rcases j with _ | _ | j <;> simp [refreshSent, refresh]
  sent_mono := by
    intro j
    rcases j with _ | _ | j <;> simp [refreshSent]
  ahead := by
    intro j hlt
    simp only [refresh, List.length_cons, List.length_nil] at hlt
    rcases j with _ | _ | j
    · simp [refreshSent]
    · simp [refreshSent]
    · simp only [refreshSent]
      omega
  turn := by
    intro j a now hget
    have hcallback := callback_of_getElem? platform hget
    rcases j with _ | _ | j
    · simp only [refresh, List.map_cons, List.getElem?_cons_zero, Option.some.injEq] at hcallback
      rw [← hcallback]
      rfl
    · rw [refresh, second_answer platform ip port epoch store] at hget
      have hreply : truthy a.reply = true := by
        rw [← Option.some.inj hget, truthy_sismember]
        exact hknown
      have hcallback : a.callback = .pingSismember device ip port epoch := by
        rw [← Option.some.inj hget]
      rw [hcallback]
      simp only [onReply, server, TCP.pingSismember, hreply]
      rfl
    · have hignored : a.callback = .ignored := by
        simp only [refresh, List.map_cons, List.map_nil, List.getElem?_cons_succ] at hcallback
        have hmem := List.mem_of_getElem? hcallback
        simpa using hmem
      rw [hignored]
      rfl

end Scripts

/-! ## Prefixes of a registration -/

section Prefixes

variable {store : Store} {device : String} (ip : String) (port epoch : Nat)

/-- The database when the first commands of a registration have been executed. -/
@[irreducible]
def prefixStore (store : Store) (device : String) (k : Nat) : Store :=
  (server platform).storeAfter 0 store ((registration platform device ip port epoch).take k)

theorem prefixStore_apply (k : Nat) (key : String) :
    prefixStore platform ip port epoch store device k key =
      applyAll (opsAt key ((FunctionsService.linear platform.curves device).take (k - 5)))
        (applyAll (opsAt key (writes ((enrolment device ip port epoch).take k))) (store key)) := by
  have hsilent : writes (silent ((FunctionsService.linear platform.curves device).take (k - 5))) =
      (FunctionsService.linear platform.curves device).take (k - 5) := by
    apply writes_silent
    intro command hmem
    exact (commands_spec platform.curves .linear device command (List.mem_of_mem_take hmem)).2
  have htake : (registration platform device ip port epoch).take k =
      (enrolment device ip port epoch).take k ++
        silent ((FunctionsService.linear platform.curves device).take (k - 5)) := by
    rw [registration, List.take_append, silent, silent, List.map_take]
    rfl
  rw [prefixStore, storeAfter_apply platform.order (server platform) rfl, htake, writes_append,
    opsAt_append, hsilent, applyAll_append]

theorem opsAt_linear_of_ne (i : Nat) {key : String} (hne : tableKey device ≠ key) :
    opsAt key ((FunctionsService.linear platform.curves device).take i) = [] := by
  apply opsAt_of_key_ne
  intro command hmem
  rw [(commands_spec platform.curves .linear device command (List.mem_of_mem_take hmem)).1]
  exact hne

/-- A registration touches four keys. -/
theorem prefixStore_of_ne (k : Nat) {key : String} (hcount : msgCountKey ≠ key)
    (hdevices : devicesKey ≠ key) (hrecord : recordKey device ≠ key)
    (htable : tableKey device ≠ key) :
    prefixStore platform ip port epoch store device k key = store key := by
  rw [prefixStore_apply, opsAt_linear_of_ne platform _ htable, opsAt_of_key_ne]
  · rfl
  · intro command hmem
    have hsent : command ∈ writes (enrolment device ip port epoch) := by
      obtain ⟨hcommand, hwrite⟩ := List.mem_filter.mp hmem
      obtain ⟨entry, hentry, rfl⟩ := List.mem_map.mp hcommand
      exact List.mem_filter.mpr ⟨List.mem_map_of_mem (List.mem_of_mem_take hentry), hwrite⟩
    simp only [enrolment, writes_cons, Operation.isRead, Bool.false_eq_true, if_false, if_true,
      writes_nil, List.mem_cons, List.not_mem_nil, or_false] at hsent
    rcases hsent with rfl | rfl | rfl | rfl <;> assumption

theorem prefixStore_devices (k : Nat) :
    prefixStore platform ip port epoch store device k devicesKey =
      if k ≤ 2 then store devicesKey else (Operation.sadd device).update (store devicesKey) := by
  rw [prefixStore_apply, opsAt_linear_of_ne platform _ (tableKey_ne_devicesKey device)]
  rcases k with _ | _ | _ | _ | _ | k <;>
    simp [enrolment, writes_cons, opsAt_cons, Operation.isRead]

theorem mem_devices_prefixStore (htyped : Kind.set.Admits (store devicesKey)) {k : Nat}
    (hk : 2 < k) :
    device ∈ devices (prefixStore platform ip port epoch store device k) := by
  have hdevices : prefixStore platform ip port epoch store device k devicesKey = _ :=
    prefixStore_devices platform ip port epoch k
  rw [if_neg (by omega)] at hdevices
  rw [devices_sadd htyped hdevices]
  exact Finset.mem_insert_self _ _

theorem prefixStore_record (k : Nat) :
    prefixStore platform ip port epoch store device k (recordKey device) =
      applyAll ((if k ≤ 3 then [] else [.hincrby "msg_count" 1]) ++ (if k ≤ 4 then [] else
        [.hmset [("ip", ip), ("port", port.repr), ("active", "true"), ("last_ping", epoch.repr),
          ("function", "linear")]])) (store (recordKey device)) := by
  rw [prefixStore_apply,
    opsAt_linear_of_ne platform _ (recordKey_ne_tableKey_self device).symm]
  have hdevices := (recordKey_ne_devicesKey device).symm
  have hcount := (recordKey_ne_msgCountKey device).symm
  rcases Nat.lt_or_ge k 5 with hlt | hge
  · rcases k with _ | _ | _ | _ | _ | k
    all_goals first
      | omega
      | simp [enrolment, writes_cons, opsAt_cons, Operation.isRead, hdevices, hcount]
  · rw [if_neg (by omega), if_neg (by omega), List.take_of_length_le (by simpa [enrolment])]
    simp [enrolment, writes_cons, opsAt_cons, Operation.isRead, hdevices, hcount]

theorem prefixStore_table (k : Nat) :
    prefixStore platform ip port epoch store device k (tableKey device) =
      applyAll (((FunctionsService.linear platform.curves device).take (k - 5)).map Command.op)
        (store (tableKey device)) := by
  have henrolment : opsAt (tableKey device) (writes ((enrolment device ip port epoch).take k)) =
      [] := by
    rcases k with _ | _ | _ | _ | _ | k <;>
      simp [enrolment, writes_cons, opsAt_cons, Operation.isRead,
        (tableKey_ne_devicesKey device).symm, (tableKey_ne_msgCountKey device).symm,
        recordKey_ne_tableKey_self device]
  rw [prefixStore_apply, henrolment, opsAt_of_key_eq _ (tableKey device), if_pos rfl]
  · rfl
  · intro command hmem
    exact (commands_spec platform.curves .linear device command (List.mem_of_mem_take hmem)).1

/-- Of a table that is being written, as many fields exist as have been written. -/
theorem prefixStore_table_isSome (htable : store (tableKey device) = none) {k i : Nat}
    (hi : i < 1024) :
    (fieldAt (prefixStore platform ip port epoch store device k) (tableKey device)
      i.repr).isSome ↔ i + 6 < k := by
  rw [fieldAt, prefixStore_table, htable]
  rcases Nat.lt_or_ge 5 k with hlt | hle
  · -- The first command of the table deletes it, each later one writes a field.
    obtain ⟨count, rfl⟩ : ∃ count, k = count + 6 := ⟨k - 6, by omega⟩
    have hops : ((FunctionsService.linear platform.curves device).take (count + 6 - 5)).map
        Command.op = .del :: ((entries platform.curves .linear).take count).map
          fun pair => .hmset [pair] := by
      rw [FunctionsService.linear, commands, show count + 6 - 5 = count + 1 by omega]
      simp [List.map_take, Function.comp_def]
    have htake : (entries platform.curves .linear).take count =
        (List.range (min count 1024)).map fun i =>
          (i.repr, (value platform.curves .linear i).repr) := by
      rw [entries, ← List.map_take, List.take_range]
    rw [hops, applyAll_cons, Operation.update]
    cases count with
    | zero => simp [fieldsOf, Hash.none]
    | succ count =>
        have hentries : (entries platform.curves .linear).take (count + 1) ≠ [] := by
          intro hnil
          simpa [entries] using congrArg List.length hnil
        obtain ⟨pair, rest, hcons⟩ := List.exists_cons_of_ne_nil hentries
        have hwritten : applyAll (((entries platform.curves .linear).take (count + 1)).map
            fun pair => Operation.hmset [pair]) none =
              some (.hash (Hash.none.setAll ((entries platform.curves .linear).take
                (count + 1)))) := by
          rw [hcons]
          exact applyAll_hmset (Hash.none.setAll [pair]) rest
        rw [hwritten, htake, fieldsOf,
          setAll_repr (fun i => (value platform.curves .linear i).repr)]
        by_cases hwritten : i < min (count + 1) 1024
        · simp only [hwritten, if_true, Option.isSome_some, true_iff]
          omega
        · simp only [hwritten, if_false, Hash.none, Option.isSome_none, Bool.false_eq_true,
            false_iff]
          omega
  · rw [show k - 5 = 0 by omega]
    simp only [List.take_zero, List.map_nil, applyAll_nil, fieldsOf, Hash.none,
      Option.isSome_none, Bool.false_eq_true, false_iff]
    omega

end Prefixes

/-! ## Runs -/

section Runs

variable {store : Store} {device : String} {value : Resp.Value String}

theorem step_ping (hping : IsPingOf platform value device) (ip : String) (port now : Nat)
    (commands : Sends) (sent : Nat → Nat) (hsent : sent 0 = 2)
    (hcommands : commands.take 2 = [(⟨msgCountKey, .incr⟩, .ignored),
      (⟨devicesKey, .sismember device⟩, .pingSismember device ip port now)]) :
    (server platform).step (boot store) (.event (.tcpData ip port [value]) now) =
      (server platform).scriptState store (fun _ => none) commands sent
        [(0, .tcpData ip port [value])] 0 0 := by
  obtain ⟨hping, rfl⟩ := hping
  simp [Pipeline.Client.step, Pipeline.Client.occur, Pipeline.Client.scriptState, boot,
    Pipeline.State.start, Pipeline.State.record, Pipeline.State.perform, server, onEvent, TCP.data,
    TCP.responses, TCP.response, hping, hsent, hcommands]

/-- A run that handles one PING of an unregistered device is a prefix of its registration. -/
theorem run_ping_new (hping : IsPingOf platform value device) (hnew : device ∉ devices store)
    (ip : String) (port now : Nat) {schedule : List Action}
    (hfree : Pipeline.Client.EventFree schedule) :
    ∃ k j, j ≤ k ∧ k ≤ registrationSent j ∧
      (server platform).run (boot store) (.event (.tcpData ip port [value]) now :: schedule) =
        (server platform).scriptState store (fun _ => none)
          (registration platform device ip port now) registrationSent
          [(0, .tcpData ip port [value])] k j := by
  rw [Pipeline.Client.run_cons, step_ping platform hping ip port now
    (registration platform device ip port now) registrationSent rfl rfl]
  exact (script_registration platform ip port now _ hnew).run (server platform) le_rfl
    (Nat.zero_le _) hfree

theorem run_ping_known (hping : IsPingOf platform value device) (hknown : device ∈ devices store)
    (ip : String) (port now : Nat) {schedule : List Action}
    (hfree : Pipeline.Client.EventFree schedule) :
    ∃ k j, j ≤ k ∧ k ≤ refreshSent j ∧
      (server platform).run (boot store) (.event (.tcpData ip port [value]) now :: schedule) =
        (server platform).scriptState store (fun _ => none)
          (refresh device ip port now) refreshSent [(0, .tcpData ip port [value])] k j := by
  rw [Pipeline.Client.run_cons, step_ping platform hping ip port now
    (refresh device ip port now) refreshSent rfl rfl]
  exact (script_refresh platform ip port now _ hknown).run (server platform) le_rfl
    (Nat.zero_le _) hfree

/-- Commands executed and answered in turns. Long runs are described by their
script, never by unfolding them. -/
@[irreducible]
def rounds (count : Nat) : List Action := (List.replicate count [.execute, .deliver 0]).flatten

theorem eventFree_rounds (count : Nat) : Pipeline.Client.EventFree (rounds count) := by
  intro event now hmem
  unfold rounds at hmem
  obtain ⟨round, hround, haction⟩ := List.mem_flatten.mp hmem
  rw [List.eq_of_mem_replicate hround] at haction
  simp at haction

theorem run_ping_new_rounds (hping : IsPingOf platform value device)
    (hnew : device ∉ devices store) (ip : String) (port now : Nat) {count : Nat}
    (hcount : count ≤ 1030) :
    (server platform).run (boot store) (.event (.tcpData ip port [value]) now :: rounds count) =
      (server platform).scriptState store (fun _ => none)
        (registration platform device ip port now) registrationSent
        [(0, .tcpData ip port [value])] count count := by
  rw [Pipeline.Client.run_cons, step_ping platform hping ip port now
    (registration platform device ip port now) registrationSent rfl rfl]
  have hrounds := (script_registration platform ip port now (fun _ => none) hnew).alternate
    (server platform) [(0, .tcpData ip port [value])] 0 count (k := 0)
    (by rw [length_registration]; omega)
  rwa [Nat.zero_add, ← rounds] at hrounds

theorem store_ping_new_rounds (hping : IsPingOf platform value device)
    (hnew : device ∉ devices store) (ip : String) (port now : Nat) {count : Nat}
    (hcount : count ≤ 1030) :
    ((server platform).run (boot store)
      (.event (.tcpData ip port [value]) now :: rounds count)).store =
        prefixStore platform ip port now store device count := by
  rw [run_ping_new_rounds platform hping hnew ip port now hcount, prefixStore]
  rfl

theorem run_ping_known_rounds (hping : IsPingOf platform value device)
    (hknown : device ∈ devices store) (ip : String) (port now : Nat) :
    (server platform).run (boot store) (.event (.tcpData ip port [value]) now :: rounds 4) =
      (server platform).scriptState store (fun _ => none) (refresh device ip port now)
        refreshSent [(0, .tcpData ip port [value])] 4 4 := by
  rw [Pipeline.Client.run_cons, step_ping platform hping ip port now
    (refresh device ip port now) refreshSent rfl rfl]
  have hrounds := (script_refresh platform ip port now (fun _ => none) hknown).alternate
    (server platform) [(0, .tcpData ip port [value])] 0 4 (k := 0) (by simp [refresh])
  rwa [Nat.zero_add, ← rounds] at hrounds

/-- The registration of a device on its own comes to rest. -/
theorem quiescent_registration (hping : IsPingOf platform value device)
    (hnew : device ∉ devices store) (ip : String) (port now : Nat) :
    ((server platform).run (boot store)
      (.event (.tcpData ip port [value]) now :: rounds 1030)).Quiescent := by
  have hlength := length_registration platform device ip port now
  have hquiet := (server platform).quiescent_scriptState store (fun _ => none)
    (registration platform device ip port now) registrationSent
    [(0, Event.tcpData ip port [value])] (by rw [hlength]; exact le_rfl)
  rw [run_ping_new_rounds platform hping hnew ip port now le_rfl]
  rwa [hlength] at hquiet

end Runs

/-- The PING of one concentrator. -/
def samplePing : Resp.Value String := .array [.bulk "PING", .bulk "adc00000001"]

theorem isPingOf_samplePing : IsPingOf referencePlatform samplePing "adc00000001" := by
  constructor <;> decide

theorem plainSchedule_samplePing (ip : String) (port now count : Nat) :
    PlainSchedule referencePlatform
      (.event (.tcpData ip port [samplePing]) now :: rounds count) := by
  intro event now hmem
  rcases List.mem_cons.mp hmem with heq | hround
  · cases heq
    intro value hvalue _
    rw [List.mem_singleton.mp hvalue, isPingOf_samplePing.2]
    decide
  · exact absurd hround (eventFree_rounds count event now)

end RealTimeWs
