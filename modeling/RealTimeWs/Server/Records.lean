import RealTimeWs.Server.Regular

/-! # Records of devices

A record is only ever changed by setting some of its fields and by counting a
message. The relation `Records` lists what each reply sets; no reply sets the
counter, and only the registration sets the address.
-/

namespace RealTimeWs

open Redis FunctionsService

/-- Set some fields of a record, then count a message or not. -/
def changed (fields : Hash) (pairs : List (String × String)) (counts : Bool) : Hash :=
  if counts then (fields.setAll pairs).increment "msg_count" 1 else fields.setAll pairs

/-- The fields that a reply sets in the record of a device, and whether it counts
a message there. -/
inductive Records : Callback → Reply → String → List (String × String) → Bool → Prop
  | known {device ip : String} {port epoch : Nat} {reply : Reply} (hknown : truthy reply = true) :
      Records (.pingSismember device ip port epoch) reply device [("last_ping", epoch.repr)] true
  | new {device ip : String} {port epoch : Nat} {reply : Reply} (hnew : truthy reply = false) :
      Records (.pingSismember device ip port epoch) reply device [] true
  | registration {device ip : String} {port epoch : Nat} {reply : Reply} :
      Records (.pingSadd device ip port epoch) reply device [("ip", ip), ("port", port.repr),
        ("active", "true"), ("last_ping", epoch.repr), ("function", "linear")] false
  | function {device : String} {newFunction : Option String} {reply : Reply} {function : Allowed}
      (hwritten : rewritten (.functionChange device newFunction) reply = some (device, function)) :
      Records (.functionChange device newFunction) reply device [("function", function.name)] false
  | activity {device : String} {reply : Reply} (active : Bool) :
      Records (.routineHmget device) reply device
        [("active", if active then "true" else "false")] false
  | forwarded {device : String} {connected : List String} {reading : Reply} {readAt : Nat}
      {record : Hash} {recordAt : Nat} {reply : Reply} :
      Records (.forwardHget device connected reading readAt record recordAt) reply device [] true

/-- The commands that make such a change. -/
def recordOps (pairs : List (String × String)) (counts : Bool) : List Operation :=
  (match pairs with
    | [] => []
    | _ => [.hmset pairs]) ++
  if counts then [.hincrby "msg_count" 1] else []

/-- A reply changes records as the relation says. -/
theorem records_of_recorded {callback : Callback} {reply : Reply} {now : Nat} {device : String}
    {ops : List Operation} (hrecorded : recorded callback reply now = some (device, ops)) :
    ∃ pairs counts, Records callback reply device pairs counts ∧ ops = recordOps pairs counts := by
  cases callback with
  | pingSismember other ip port epoch =>
      cases htruthy : truthy reply with
      | true =>
          simp only [recorded, htruthy, if_true, List.singleton_append, Option.some.injEq,
            Prod.mk.injEq] at hrecorded
          obtain ⟨rfl, rfl⟩ := hrecorded
          exact ⟨_, _, .known htruthy, rfl⟩
      | false =>
          simp only [recorded, htruthy, Bool.false_eq_true, if_false, List.nil_append,
            Option.some.injEq, Prod.mk.injEq] at hrecorded
          obtain ⟨rfl, rfl⟩ := hrecorded
          exact ⟨_, _, .new htruthy, rfl⟩
  | pingSadd other ip port epoch =>
      simp only [recorded, Option.some.injEq, Prod.mk.injEq] at hrecorded
      obtain ⟨rfl, rfl⟩ := hrecorded
      exact ⟨_, _, .registration, rfl⟩
  | functionChange other newFunction =>
      obtain ⟨written, hwritten, heq⟩ := Option.map_eq_some_iff.mp hrecorded
      obtain ⟨rfl, rfl⟩ := Prod.mk.inj heq
      have hdevice : written.1 = other := by
        simp only [rewritten] at hwritten
        split at hwritten
        · obtain ⟨function, _, rfl⟩ := Option.map_eq_some_iff.mp hwritten
          rfl
        · cases hwritten
      obtain ⟨name, function⟩ := written
      simp only at hdevice
      subst hdevice
      exact ⟨_, _, .function hwritten, rfl⟩
  | routineHmget other =>
      cases reply with
      | array texts =>
          cases texts with
          | nil => cases hrecorded
          | cons lastPing rest =>
              simp only [recorded, Option.some.injEq, Prod.mk.injEq] at hrecorded
              obtain ⟨rfl, rfl⟩ := hrecorded
              exact ⟨_, _, .activity (Routine.recent now lastPing), rfl⟩
      | _ => cases hrecorded
  | forwardHget other connected reading readAt record recordAt =>
      cases reply with
      | bulk text =>
          cases text with
          | none => cases hrecorded
          | some newValue =>
              obtain ⟨port, _, heq⟩ := Option.map_eq_some_iff.mp hrecorded
              obtain ⟨rfl, rfl⟩ := Prod.mk.inj heq
              exact ⟨_, _, .forwarded, rfl⟩
      | _ => cases hrecorded
  | _ => cases hrecorded

/-- Records only see operations on hashes. -/
theorem creates_recordOps (pairs : List (String × String)) (counts : Bool) :
    ∀ op ∈ recordOps pairs counts, op.creates = some Kind.hash := by
  intro op hmem
  cases pairs <;> cases counts <;> simp [recordOps] at hmem
  · subst hmem
    rfl
  · subst hmem
    rfl
  · rcases hmem with rfl | rfl <;> rfl

theorem admits_recordOps (pairs : List (String × String)) (counts : Bool) {value : Option Value}
    (hadmits : Kind.hash.Admits value) :
    Kind.hash.Admits (applyAll (recordOps pairs counts) value) := by
  apply admits_applyAll _ _ _ hadmits
  intro op hmem kind hcreates
  rw [creates_recordOps pairs counts op hmem] at hcreates
  exact (Option.some.inj hcreates).symm

theorem fieldsOf_recordOps (pairs : List (String × String)) (counts : Bool) {value : Option Value}
    (hadmits : Kind.hash.Admits value) :
    fieldsOf (applyAll (recordOps pairs counts) value) = changed (fieldsOf value) pairs counts := by
  cases pairs with
  | nil =>
      cases counts with
      | false => rfl
      | true => exact fieldsOf_hincrby hadmits _ _
  | cons pair rest =>
      cases counts with
      | false => exact fieldsOf_hmset hadmits _
      | true =>
          have hset : Kind.hash.Admits ((Operation.hmset (pair :: rest)).update value) :=
            admits_update (by simp [Operation.creates]) hadmits
          refine (fieldsOf_hincrby hset _ _).trans ?_
          rw [fieldsOf_hmset hadmits]
          rfl

/-- A value of another type is not changed. -/
theorem applyAll_recordOps_of_not_admits (pairs : List (String × String)) (counts : Bool)
    {value : Option Value} (hblocked : ¬ Kind.hash.Admits value) :
    applyAll (recordOps pairs counts) value = value := by
  cases value with
  | none => exact absurd trivial hblocked
  | some held =>
      cases held with
      | hash fields => exact absurd trivial hblocked
      | _ => cases pairs <;> cases counts <;> rfl

/-! ## Single fields -/

theorem changed_of_ne (fields : Hash) (pairs : List (String × String)) (counts : Bool)
    {field : String} (hcount : field ≠ "msg_count") :
    changed fields pairs counts field = fields.setAll pairs field := by
  cases counts with
  | false => rfl
  | true => exact Hash.increment_of_ne _ _ hcount

/-- Fields that are not set keep their values. -/
theorem changed_of_not_mem (fields : Hash) (pairs : List (String × String)) (counts : Bool)
    {field : String} (hcount : field ≠ "msg_count") (hnot : field ∉ pairs.map Prod.fst) :
    changed fields pairs counts field = fields field := by
  rw [changed_of_ne fields pairs counts hcount, Hash.setAll_of_not_mem _ _ _ hnot]

theorem changed_isSome (fields : Hash) (pairs : List (String × String)) (counts : Bool)
    {field : String} (hcount : field ≠ "msg_count") (hsome : (fields field).isSome) :
    (changed fields pairs counts field).isSome := by
  rw [changed_of_ne fields pairs counts hcount]
  exact Hash.setAll_isSome _ _ _ hsome

/-- The counter of a record, once it is there, is a positive number. -/
def Counting (fields : Hash) : Prop :=
  ∀ text, fields "msg_count" = some text → ∃ n : Nat, 1 ≤ n ∧ text = n.repr

theorem counting_increment {fields : Hash} (hcounting : Counting fields) :
    ∃ n : Nat, 1 ≤ n ∧ fields.increment "msg_count" 1 "msg_count" = some n.repr := by
  cases hheld : fields "msg_count" with
  | none => exact ⟨1, le_refl 1, Hash.increment_none fields hheld⟩
  | some text =>
      obtain ⟨n, _, rfl⟩ := hcounting text hheld
      exact ⟨n + 1, by omega, Hash.increment_self fields hheld⟩

theorem counting_setAll {fields : Hash} {pairs : List (String × String)}
    (hnot : "msg_count" ∉ pairs.map Prod.fst) (hcounting : Counting fields) :
    Counting (fields.setAll pairs) := by
  intro text htext
  rw [Hash.setAll_of_not_mem _ _ _ hnot] at htext
  exact hcounting text htext

theorem counting_changed {fields : Hash} {pairs : List (String × String)} (counts : Bool)
    (hnot : "msg_count" ∉ pairs.map Prod.fst) (hcounting : Counting fields) :
    Counting (changed fields pairs counts) := by
  cases counts with
  | false => exact counting_setAll hnot hcounting
  | true =>
      intro text htext
      obtain ⟨n, hpos, hnext⟩ := counting_increment (counting_setAll hnot hcounting)
      refine ⟨n, hpos, ?_⟩
      exact Option.some.inj (htext.symm.trans hnext)

/-- A record that was counted stays counted. -/
theorem counted_changed {fields : Hash} {pairs : List (String × String)} (counts : Bool)
    (hnot : "msg_count" ∉ pairs.map Prod.fst) (hcounting : Counting fields)
    (hcounted : counts = true ∨ ∃ n : Nat, 1 ≤ n ∧ fields "msg_count" = some n.repr) :
    ∃ n : Nat, 1 ≤ n ∧ changed fields pairs counts "msg_count" = some n.repr := by
  cases counts with
  | true => exact counting_increment (counting_setAll hnot hcounting)
  | false =>
      rcases hcounted with hfalse | ⟨n, hpos, hheld⟩
      · cases hfalse
      · refine ⟨n, hpos, ?_⟩
        simp only [changed, Bool.false_eq_true, if_false]
        rw [Hash.setAll_of_not_mem _ _ _ hnot, hheld]

theorem Records.msg_count_not_mem {callback : Callback} {reply : Reply} {device : String}
    {pairs : List (String × String)} {counts : Bool}
    (hrecords : Records callback reply device pairs counts) :
    "msg_count" ∉ pairs.map Prod.fst := by
  cases hrecords <;> simp

/-- Only datagrams set the port. -/
theorem Records.udp_port_not_mem {callback : Callback} {reply : Reply} {device : String}
    {pairs : List (String × String)} {counts : Bool}
    (hrecords : Records callback reply device pairs counts) :
    "udp_port" ∉ pairs.map Prod.fst := by
  cases hrecords <;> simp

/-! ## Records along a run -/

variable (platform : Platform)

section Delivered

variable {s : State} {a : Pipeline.Answer Reply Callback}
variable {rest : List (Pipeline.Answer Reply Callback)} (now : Nat) (hempty : s.outbox = [])

include hempty

variable (a rest) in
/-- What a reply does to the value at the key of a record: a table may be written
there, otherwise the record is left alone or changed as the relation says. -/
theorem delivered_record (device : String) :
    (∃ written, rewritten a.callback a.reply = some written ∧
        tableKey written.1 = recordKey device ∧
        (delivered platform s a rest now).store (recordKey device) =
          some (.hash (table platform.curves written.2))) ∨
      (∀ ops, recorded a.callback a.reply now ≠ some (device, ops)) ∧
        (delivered platform s a rest now).store (recordKey device) =
          s.store (recordKey device) ∨
      ∃ pairs counts, Records a.callback a.reply device pairs counts ∧
        (delivered platform s a rest now).store (recordKey device) =
          applyAll (recordOps pairs counts) (s.store (recordKey device)) := by
  rw [delivered_store platform hempty]
  by_cases htable : ∃ written, rewritten a.callback a.reply = some written ∧
      tableKey written.1 = recordKey device
  · obtain ⟨written, hwritten, hkey⟩ := htable
    exact Or.inl ⟨written, hwritten, hkey,
      replyStore_record_of_table platform _ _ _ _ _ _ _ hwritten hkey⟩
  right
  have hother : ∀ written, rewritten a.callback a.reply = some written →
      tableKey written.1 ≠ recordKey device :=
    fun written hwritten hkey => htable ⟨written, hwritten, hkey⟩
  rw [replyStore_record platform _ _ _ _ _ _ _ hother]
  cases hrecorded : recorded a.callback a.reply now with
  | none =>
      left
      refine ⟨?_, rfl⟩
      intro ops heq
      cases heq
  | some change =>
      obtain ⟨other, ops⟩ := change
      by_cases heq : other = device
      · subst heq
        obtain ⟨pairs, counts, hrecords, rfl⟩ := records_of_recorded hrecorded
        exact Or.inr ⟨pairs, counts, hrecords, by simp [opsFor]⟩
      · left
        refine ⟨?_, by simp [opsFor, heq]⟩
        rintro _ ⟨⟩
        exact heq rfl

end Delivered

section Occurred

variable {s : State} {event : Event} (now : Nat) (hempty : s.outbox = [])

include hempty

variable (event) in
/-- What an event does to the value at the key of a record: a reading may be stored
there, otherwise only a datagram of the device changes it. -/
theorem occurred_record (device : String) :
    (∃ reading, event.accepted = some reading ∧ dataKey reading.1 = recordKey device ∧
        (occurred platform s event now).store (recordKey device) =
          applyAll [.lpush reading.2, .ltrim 0 999] (s.store (recordKey device))) ∨
      (∀ reading, event.accepted = some reading → reading.1 ≠ device) ∧
        (occurred platform s event now).store (recordKey device) = s.store (recordKey device) ∨
      ∃ msg address port reading, event = .udpMessage msg address port ∧
        UDP.accept msg = some reading ∧ reading.1 = device ∧
        (occurred platform s event now).store (recordKey device) =
          applyAll (recordOps [("last_ping", now.repr), ("udp_port", port.repr)] true)
            (s.store (recordKey device)) := by
  rw [occurred_store platform hempty]
  by_cases hdata : ∃ reading, event.accepted = some reading ∧
      dataKey reading.1 = recordKey device
  · obtain ⟨reading, haccepted, hkey⟩ := hdata
    exact Or.inl ⟨reading, haccepted, hkey,
      eventStore_record_of_data platform event now _ _ _ haccepted hkey⟩
  right
  have hother : ∀ reading, event.accepted = some reading → dataKey reading.1 ≠ recordKey device :=
    fun reading haccepted hkey => hdata ⟨reading, haccepted, hkey⟩
  rw [eventStore_record platform event now _ _ _ hother]
  cases event with
  | udpMessage msg address port =>
      cases haccept : UDP.accept msg with
      | none =>
          left
          refine ⟨?_, by simp [Event.recorded, haccept, opsFor]⟩
          intro reading heq
          rw [Event.accepted, haccept] at heq
          cases heq
      | some reading =>
          by_cases heq : reading.1 = device
          · right
            refine ⟨msg, address, port, reading, rfl, haccept, heq, ?_⟩
            simp [Event.recorded, haccept, opsFor, heq, recordOps]
          · left
            refine ⟨?_, by simp [Event.recorded, haccept, opsFor, heq]⟩
            intro other hother
            rw [Event.accepted, haccept] at hother
            cases hother
            exact heq
  | _ =>
      left
      refine ⟨?_, rfl⟩
      intro reading heq
      cases heq

end Occurred

/-! ## Records of plain devices -/

/-- Records are hashes. -/
def TypedRecords (s : State) : Prop :=
  ∀ device, Kind.hash.Admits (s.store (recordKey device))

/-- A reply leaves a record alone or changes it as the relation says. -/
theorem fieldAt_delivered {s : State} {a : Pipeline.Answer Reply Callback}
    {rest : List (Pipeline.Answer Reply Callback)} (now : Nat) (hempty : s.outbox = [])
    (hinbox : s.inbox = a :: rest) (hregular : Regular s) (htyped : TypedRecords s)
    (device : String) :
    (∀ ops, recorded a.callback a.reply now ≠ some (device, ops)) ∧
        fieldAt (delivered platform s a rest now).store (recordKey device) =
          fieldAt s.store (recordKey device) ∨
      ∃ pairs counts, Records a.callback a.reply device pairs counts ∧
        fieldAt (delivered platform s a rest now).store (recordKey device) =
          changed (fieldAt s.store (recordKey device)) pairs counts := by
  rcases delivered_record platform a rest now hempty device with
    ⟨written, hwritten, hkey, _⟩ | ⟨hnone, hsame⟩ | ⟨pairs, counts, hrecords, hnew⟩
  · have hplain := plain_of_rewritten hregular (hinbox ▸ List.mem_cons_self) hwritten
    exact absurd hkey.symm (recordKey_ne_tableKey device hplain)
  · exact Or.inl ⟨hnone, congrArg fieldsOf hsame⟩
  · exact Or.inr ⟨pairs, counts, hrecords,
      (congrArg fieldsOf hnew).trans (fieldsOf_recordOps pairs counts (htyped device))⟩

/-- Of the events only an accepted datagram changes a record. -/
theorem fieldAt_occurred {s : State} {event : Event} (now : Nat) (hempty : s.outbox = [])
    (hplain : event.PlainIds platform) (htyped : TypedRecords s) (device : String) :
    fieldAt (occurred platform s event now).store (recordKey device) =
        fieldAt s.store (recordKey device) ∨
      ∃ port : Nat, fieldAt (occurred platform s event now).store (recordKey device) =
        changed (fieldAt s.store (recordKey device))
          [("last_ping", now.repr), ("udp_port", port.repr)] true := by
  rcases occurred_record platform event now hempty device with
    ⟨reading, haccepted, hkey, _⟩ | ⟨_, hsame⟩ | ⟨_, _, port, _, _, _, _, hnew⟩
  · have hplain := plain_of_accepted platform hplain reading haccepted
    exact absurd hkey.symm (recordKey_ne_dataKey device hplain)
  · exact Or.inl (congrArg fieldsOf hsame)
  · exact Or.inr ⟨port,
      (congrArg fieldsOf hnew).trans (fieldsOf_recordOps _ _ (htyped device))⟩

theorem preserved_typedRecords :
    (server platform).Preserved (regularGuard platform) TypedRecords where
  event := by
    intro s event now hempty _ hguard htyped device
    change Kind.hash.Admits ((occurred platform s event now).store (recordKey device))
    rcases occurred_record platform event now hempty device with
      ⟨reading, haccepted, hkey, _⟩ | ⟨_, hsame⟩ | ⟨_, _, port, _, _, _, _, hnew⟩
    · have hplain := plain_of_accepted platform (hguard.1.1 event now rfl) reading haccepted
      exact absurd hkey.symm (recordKey_ne_dataKey device hplain)
    · rw [hsame]
      exact htyped device
    · rw [hnew]
      exact admits_recordOps _ _ (htyped device)
  deliver := by
    intro s a rest now hempty _ hinbox hguard htyped device
    change Kind.hash.Admits ((delivered platform s a rest now).store (recordKey device))
    rcases delivered_record platform a rest now hempty device with
      ⟨written, _, _, htable⟩ | ⟨_, hsame⟩ | ⟨pairs, counts, _, hnew⟩
    · rw [htable]
      trivial
    · rw [hsame]
      exact htyped device
    · rw [hnew]
      exact admits_recordOps _ _ (htyped device)

theorem typedRecords_boot_empty : TypedRecords ((server platform).flush (boot empty)) :=
  fun _ => trivial

/-- The guard under which invariants of records are proved. -/
def recordGuard : State → Action → Prop :=
  fun s action => regularGuard platform s action ∧ TypedRecords s

theorem guarded_record {schedule : List Action} (hplain : PlainSchedule platform schedule) :
    (server platform).Guarded (recordGuard platform) (boot empty) schedule :=
  (preserved_typedRecords platform).guarded (server platform) (boot empty) schedule
    (guarded_regular platform hplain) (typedRecords_boot_empty platform)

end RealTimeWs
