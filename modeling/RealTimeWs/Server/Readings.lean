import RealTimeWs.Pipeline.Observation
import RealTimeWs.Server.Effects
import RealTimeWs.Server.Frames
import RealTimeWs.Server.Functions

/-! # Readings as fields of a table

The forwarder takes the number of the newest reading for a field of the table. The
message handler stores any word as a reading, so that number may be too large or none
at all, and the lookup finds nothing. The readings of a device called `device` are
kept where the record of a device called `data` is, and the first of the two that
sends a datagram decides what is there.
-/

namespace RealTimeWs

open Redis

/-- What the forwarder looks up for a device: the field of its table that the newest
reading names. -/
def lookup (order : SetOrder) (n : Nat) (device : String) (store : Store) : Reply :=
  (Operation.hget (Script.text (UDP.readingNumber
    ((Operation.lindex 0).reply order n (store (dataKey device)))))).reply order (n + 1)
      (store (tableKey device))

/-- The accepted readings of a schedule, in the order of their arrival. -/
def readingsOf (schedule : List Action) : List (String × String) :=
  schedule.filterMap fun
    | .event event _ => event.accepted
    | _ => none

/-- The newest reading of a device. -/
def newestWord (device : String) (readings : List (String × String)) : Option String :=
  ((readings.filter fun reading => reading.1 = device).getLast?).map Prod.snd

/-- The readings that the forwarder can look up: the newest one of the device, if there is
one, is the numeral of a field. For the device called `device` the first datagram of
this device and of the one called `data` has to come from itself. -/
structure InDomain (device : String) (readings : List (String × String)) : Prop where
  first : device = "device" → ∀ first,
    readings.find? (fun reading => reading.1 = "device" ∨ reading.1 = "data") = some first →
      first.1 = "device"
  newest : ∀ word, newestWord device readings = some word →
    ∃ i < 1024, Script.number word = .nat i

/-! ## The list of a device -/

/-- Whether a datagram of this device is stored under the key of the readings. -/
def touches (device : String) (reading : String × String) : Bool :=
  reading.1 = device || (device = "device" && reading.1 = "data")

/-- What is stored under the key of the readings: nothing, a list that starts with the newest
reading, or a record, as the first datagram decided. -/
def Settled (device : String) (readings : List (String × String)) (value : Option Value) : Prop :=
  match readings.find? (touches device) with
  | none => value = none
  | some first =>
      if first.1 = device then
        ∃ word rest, value = some (.list (word :: rest)) ∧ newestWord device readings = some word
      else ∃ fields, value = some (.hash fields)

theorem newestWord_append_self (device : String) (readings : List (String × String))
    (word : String) : newestWord device (readings ++ [(device, word)]) = some word := by
  simp [newestWord]

theorem newestWord_append_of_ne {device : String} (readings : List (String × String))
    {reading : String × String} (hne : reading.1 ≠ device) :
    newestWord device (readings ++ [reading]) = newestWord device readings := by
  simp [newestWord, hne]

theorem newestWord_of_untouched {device : String} {readings : List (String × String)}
    (hfind : readings.find? (touches device) = none) : newestWord device readings = none := by
  have hfilter : readings.filter (fun reading => reading.1 = device) = [] := by
    apply List.filter_eq_nil_iff.mpr
    intro reading hmem heq
    apply List.find?_eq_none.mp hfind reading hmem
    simp [touches, of_decide_eq_true heq]
  rw [newestWord, hfilter]
  rfl

/-- A reading of the device itself. -/
theorem Settled.push {device : String} {readings : List (String × String)} {value : Option Value}
    (hsettled : Settled device readings value) (word : String) :
    Settled device (readings ++ [(device, word)])
      (applyAll [.lpush word, .ltrim 0 999] value) := by
  unfold Settled at hsettled ⊢
  rw [List.find?_append]
  cases hfind : readings.find? (touches device) with
  | none =>
      rw [hfind] at hsettled
      simp only at hsettled
      subst hsettled
      have htouches : [(device, word)].find? (touches device) = some (device, word) := by
        simp [touches]
      rw [Option.none_or, htouches]
      simp only [↓reduceIte]
      exact ⟨word, [], rfl, newestWord_append_self device readings word⟩
  | some first =>
      rw [hfind] at hsettled
      rw [Option.some_or]
      simp only at hsettled ⊢
      split at hsettled
      next hself =>
        rw [if_pos hself]
        obtain ⟨old, rest, rfl, _⟩ := hsettled
        exact ⟨word, (old :: rest).take 999, rfl, newestWord_append_self device readings word⟩
      next hother =>
        rw [if_neg hother]
        obtain ⟨fields, rfl⟩ := hsettled
        exact ⟨fields, rfl⟩

/-- What the commands for a record do where there is a hash or nothing. -/
theorem applyAll_record {value : Option Value} (hadmits : Kind.hash.Admits value)
    (pairs : List (String × String)) (field : String) (increment : Int) :
    applyAll [.hmset pairs, .hincrby field increment] value =
      some (.hash (((fieldsOf value).setAll pairs).increment field increment)) := by
  rw [applyAll_cons, applyAll_cons, applyAll_nil, ← update_hincrby]
  cases value with
  | none => rfl
  | some held =>
      cases held with
      | hash fields => rfl
      | _ => exact hadmits.elim

/-- A datagram of the device whose record is kept there. -/
theorem Settled.record {device : String} {readings : List (String × String)} {value : Option Value}
    (hsettled : Settled device readings value) {reading : String × String}
    (hne : reading.1 ≠ device) (htouches : touches device reading = true)
    (pairs : List (String × String)) (field : String) (increment : Int) :
    Settled device (readings ++ [reading])
      (applyAll [.hmset pairs, .hincrby field increment] value) := by
  unfold Settled at hsettled ⊢
  rw [List.find?_append, newestWord_append_of_ne readings hne]
  cases hfind : readings.find? (touches device) with
  | none =>
      rw [hfind] at hsettled
      simp only at hsettled
      subst hsettled
      have hfound : [reading].find? (touches device) = some reading := by
        simp [htouches]
      rw [Option.none_or, hfound]
      simp only [hne, ↓reduceIte]
      refine ⟨_, applyAll_record ?_ pairs field increment⟩
      trivial
  | some first =>
      rw [hfind] at hsettled
      rw [Option.some_or]
      simp only at hsettled ⊢
      split at hsettled
      next hself =>
        rw [if_pos hself]
        obtain ⟨old, rest, rfl, hnewest⟩ := hsettled
        exact ⟨old, rest, rfl, hnewest⟩
      next hother =>
        rw [if_neg hother]
        obtain ⟨fields, rfl⟩ := hsettled
        refine ⟨_, applyAll_record ?_ pairs field increment⟩
        trivial

/-- A datagram of any other device. -/
theorem Settled.skip {device : String} {readings : List (String × String)} {value : Option Value}
    (hsettled : Settled device readings value) {reading : String × String}
    (huntouched : touches device reading = false) :
    Settled device (readings ++ [reading]) value := by
  have hne : reading.1 ≠ device := by
    intro heq
    simp [touches, heq] at huntouched
  unfold Settled at hsettled ⊢
  rw [List.find?_append, newestWord_append_of_ne readings hne]
  have hnot : [reading].find? (touches device) = none := by
    simp [huntouched]
  rw [hnot, Option.or_none]
  exact hsettled

/-! ## Datagrams -/

theorem recordKey_eq_dataKey_iff {device name : String} (hname : ':' ∉ name.toList) :
    recordKey name = dataKey device ↔ device = "device" ∧ name = "data" := by
  rw [recordKey_eq, dataKey_eq, append_colon_eq_iff (by decide)]
  constructor
  · rintro (hkeys | ⟨middle, _, rfl⟩)
    · exact hkeys
    · exact absurd (by simp) hname
  · exact Or.inl

theorem colon_notMem_of_accept {msg : List UInt8} {reading : String × String}
    (haccept : UDP.accept msg = some reading) : ':' ∉ reading.1.toList :=
  colon_notMem_of_word (word_of_accept haccept).1

/-- What an accepted datagram does to the key of the readings of a device. -/
theorem opsAt_data_message {msg : List UInt8} {reading : String × String}
    (haccept : UDP.accept msg = some reading) (device address : String) (port now : Nat) :
    opsAt (dataKey device) (eventWrites (.udpMessage msg address port) now) =
      if reading.1 = device then [.lpush reading.2, .ltrim 0 999]
      else if touches device reading then
        [.hmset [("last_ping", now.repr), ("udp_port", port.repr)], .hincrby "msg_count" 1]
      else [] := by
  have hrecord : recordKey reading.1 = dataKey device ↔ device = "device" ∧ reading.1 = "data" :=
    recordKey_eq_dataKey_iff (colon_notMem_of_accept haccept)
  simp only [eventWrites, haccept, Option.toList_some, List.flatMap_cons, List.flatMap_nil,
    List.append_nil, opsAt_cons, (dataKey_ne_msgCountKey device).symm, ↓reduceIte, dataKey_inj,
    opsAt_nil, hrecord]
  by_cases hself : reading.1 = device
  · have hother : ¬ (device = "device" ∧ reading.1 = "data") := by
      rintro ⟨rfl, hdata⟩
      rw [hself] at hdata
      exact absurd hdata (by decide)
    rw [if_pos hself, if_pos hself, if_pos hself, if_neg hother, if_neg hother]
  · rw [if_neg hself, if_neg hself, if_neg hself]
    by_cases hshared : device = "device" ∧ reading.1 = "data"
    · rw [if_pos hshared, if_pos hshared, if_pos (by simp [touches, hshared])]
    · rw [if_neg hshared, if_neg hshared, if_neg (by simpa [touches, hself] using hshared)]

/-- A datagram keeps what is known about the key of the readings. -/
theorem settled_eventWrites {device : String} {readings : List (String × String)}
    {value : Option Value} (hsettled : Settled device readings value) (msg : List UInt8)
    (address : String) (port now : Nat) :
    Settled device (readings ++ (Event.udpMessage msg address port).accepted.toList)
      (applyAll (opsAt (dataKey device) (eventWrites (.udpMessage msg address port) now))
        value) := by
  cases haccept : UDP.accept msg with
  | none =>
      simpa [eventWrites, haccept, Event.accepted, opsAt_cons, (dataKey_ne_msgCountKey device).symm]
        using hsettled
  | some reading =>
      have haccepted : (Event.udpMessage msg address port).accepted.toList = [reading] := by
        simp [Event.accepted, haccept]
      rw [haccepted, opsAt_data_message haccept]
      split
      next hself =>
        subst hself
        exact hsettled.push reading.2
      next hother =>
        split
        next htouches => exact hsettled.record hother htouches _ _ _
        next huntouched => exact hsettled.skip (Bool.eq_false_of_not_eq_true huntouched)

/-! ## The table -/

/-- A printed number starts with a digit or a capital letter. -/
theorem head_text (x : Script.Number) : ∀ c ∈ (Script.text x).toList.head?,
    c.isDigit = true ∨ c = 'N' ∨ c = 'I' := by
  have hdigits : ∀ (n : Nat) (rest : List Char), ∀ c ∈ (Nat.toDigits 10 n ++ rest).head?,
      c.isDigit = true := by
    intro n rest c hc
    rw [List.head?_append_of_ne_nil _ Nat.toDigits_ne_nil] at hc
    exact Decimal.isDigit_of_mem_toDigits (List.mem_of_mem_head? hc)
  intro c hc
  cases x with
  | nan => exact .inr (.inl (by cases hc; rfl))
  | infinity => exact .inr (.inr (by cases hc; rfl))
  | nat n =>
      left
      rw [Script.text] at hc
      split at hc
      · rw [Nat.toList_repr] at hc
        exact hdigits n [] c (by rwa [List.append_nil])
      · rw [String.toList_ofList, Script.largeText] at hc
        split at hc
        · exact hdigits _ _ c hc
        · obtain ⟨d, rest, hlist⟩ := List.exists_cons_of_ne_nil
            (Nat.toDigits_ne_nil (b := 10) (n := (Script.shortest n).1))
          have hd : d ∈ Nat.toDigits 10 (Script.shortest n).1 := by
            rw [hlist]
            exact List.mem_cons_self
          rw [hlist, List.take_succ_cons, List.take_zero, List.append_assoc, List.append_assoc,
            List.cons_append, List.head?_cons, Option.mem_some_iff] at hc
          rw [← hc]
          exact Decimal.isDigit_of_mem_toDigits hd

/-- No number is printed like a field of a record. -/
theorem text_ne_of_head {x : Script.Number} {field : String} {first : Char} {rest : List Char}
    (hfield : field.toList = first :: rest) (hdigit : first.isDigit = false) (hn : first ≠ 'N')
    (hi : first ≠ 'I') : Script.text x ≠ field := by
  intro heq
  have hhead := head_text x first (by rw [heq, hfield]; rfl)
  rw [hdigit] at hhead
  rcases hhead with hcontra | hcontra | hcontra
  · cases hcontra
  · exact hn hcontra
  · exact hi hcontra

/-- The fields that a number can name are those of the given table. -/
def KeepsTable (table : Hash) (value : Option Value) : Prop :=
  ∃ fields, value = some (.hash fields) ∧ ∀ x, fields (Script.text x) = table (Script.text x)

/-- The record of a device called `table` is kept in the table of the device called `device`. -/
theorem KeepsTable.record {table : Hash} {value : Option Value} (hkeeps : KeepsTable table value)
    (port now : Nat) :
    KeepsTable table (applyAll [.hmset [("last_ping", now.repr), ("udp_port", port.repr)],
      .hincrby "msg_count" 1] value) := by
  obtain ⟨fields, rfl, hsame⟩ := hkeeps
  refine ⟨_, applyAll_record (by trivial) _ _ _, ?_⟩
  intro x
  have hping : Script.text x ≠ "last_ping" :=
    text_ne_of_head (by rfl) (by decide) (by decide) (by decide)
  have hport : Script.text x ≠ "udp_port" :=
    text_ne_of_head (by rfl) (by decide) (by decide) (by decide)
  have hcount : Script.text x ≠ "msg_count" :=
    text_ne_of_head (by rfl) (by decide) (by decide) (by decide)
  rw [Hash.increment_of_ne _ _ hcount, Hash.setAll_of_not_mem _ _ _ (by simp [hping, hport])]
  exact hsame x

theorem keepsTable_eventWrites {table : Hash} {value : Option Value}
    (hkeeps : KeepsTable table value) (device : String) (msg : List UInt8) (address : String)
    (port now : Nat) :
    KeepsTable table
      (applyAll (opsAt (tableKey device) (eventWrites (.udpMessage msg address port) now))
        value) := by
  cases haccept : UDP.accept msg with
  | none =>
      simpa [eventWrites, haccept, opsAt_cons, (tableKey_ne_msgCountKey device).symm] using hkeeps
  | some reading =>
      simp only [eventWrites, haccept, Option.toList_some, List.flatMap_cons, List.flatMap_nil,
        List.append_nil, opsAt_cons, (tableKey_ne_msgCountKey device).symm, ↓reduceIte,
        dataKey_ne_tableKey, opsAt_nil]
      split
      · exact hkeeps.record port now
      · exact hkeeps

/-! ## Runs on datagrams -/

variable (platform : Platform)

/-- After the datagrams so far, with all commands executed. -/
structure Received (device : String) (table : Hash) (readings : List (String × String))
    (s : State) : Prop where
  calm : s.thrown = false
  idle : ∀ answer ∈ s.inbox, answer.callback = .ignored
  list : Settled device readings (s.store (dataKey device))
  table : KeepsTable table (s.store (tableKey device))

variable {platform} {device : String} {table : Hash} {readings : List (String × String)}

/-- A datagram on a state without outstanding commands. -/
theorem Received.message {s : State} (hreceived : Received device table readings s)
    (hempty : s.outbox = []) (msg : List UInt8) (address : String) (port now : Nat) :
    Received device table (readings ++ (Event.udpMessage msg address port).accepted.toList)
      ((server platform).flush
        ((server platform).occur s (.udpMessage msg address port) now)) := by
  have hstore : ∀ key, ((server platform).flush ((server platform).occur s
      (.udpMessage msg address port) now)).store key =
        applyAll (opsAt key (eventWrites (.udpMessage msg address port) now)) (s.store key) := by
    intro key
    rw [(server platform).flush_occur_store hempty]
    exact eventStore_apply platform _ now s.memory s.executed s.store key
  constructor
  · rfl
  · intro answer hmem
    rw [Pipeline.Client.occur, (server platform).flush_perform_of_outbox_nil
      (s.record (.udpMessage msg address port)) hempty] at hmem
    rcases List.mem_append.mp hmem with hold | hnew
    · exact hreceived.idle answer hold
    · have hcallback := List.mem_map_of_mem (f := Pipeline.Answer.callback) hnew
      rw [(server platform).answersTo_callbacks] at hcallback
      obtain ⟨entry, hentry, heq⟩ := List.mem_map.mp hcallback
      obtain ⟨command, _, rfl⟩ := List.mem_map.mp hentry
      exact heq.symm
  · rw [hstore]
    exact settled_eventWrites hreceived.list msg address port now
  · rw [hstore]
    exact keepsTable_eventWrites hreceived.table device msg address port now

/-- A reply to a command of the message handler changes nothing. -/
theorem Received.reply {s : State} (hreceived : Received device table readings s)
    (hempty : s.outbox = []) {a : Pipeline.Answer Reply Callback}
    {rest : List (Pipeline.Answer Reply Callback)} (hinbox : s.inbox = a :: rest) (now : Nat) :
    Received device table readings
      ((server platform).flush ((server platform).answer { s with inbox := rest } a now)) := by
  have hignored : a.callback = .ignored :=
    hreceived.idle a (by rw [hinbox]; exact List.mem_cons_self)
  rw [Pipeline.Client.answer, (server platform).flush_perform_of_outbox_nil { s with inbox := rest }
    hempty, hignored]
  refine ⟨rfl, ?_, hreceived.list, hreceived.table⟩
  intro answer hmem
  apply hreceived.idle answer
  rw [hinbox]
  exact List.mem_cons_of_mem a (by simpa [server, onReply, finish] using hmem)

theorem readingsOf_cons (action : Action) (rest : List Action) :
    readingsOf (action :: rest) = readingsOf [action] ++ readingsOf rest :=
  List.filterMap_append (l := [action])

/-- The schedule has no events but datagrams. -/
def DatagramsOnly (schedule : List Action) : Prop :=
  ∀ event now, Pipeline.Action.event event now ∈ schedule →
    ∃ msg address port, event = .udpMessage msg address port

theorem Received.step {s : State} (hreceived : Received device table readings
    ((server platform).flush s)) {action : Action} (honly : DatagramsOnly [action]) :
    Received device table (readings ++ readingsOf [action])
      ((server platform).flush ((server platform).step s action)) := by
  have hcalm : s.thrown = false := hreceived.calm
  cases action with
  | event event now =>
      obtain ⟨msg, address, port, rfl⟩ := honly event now List.mem_cons_self
      simp only [Pipeline.Client.step, hcalm, Bool.false_eq_true, ↓reduceIte]
      rw [(server platform).flush_occur]
      have hreadings : readingsOf [.event (.udpMessage msg address port) now] =
          (Event.udpMessage msg address port).accepted.toList := by
        cases haccept : UDP.accept msg <;> simp [readingsOf, Event.accepted, haccept]
      rw [hreadings]
      exact hreceived.message rfl msg address port now
  | execute =>
      rw [(server platform).flush_step_execute, show readingsOf [.execute] = [] from rfl,
        List.append_nil]
      exact hreceived
  | deliver now =>
      rw [show readingsOf [.deliver now] = [] from rfl, List.append_nil]
      cases hinbox : s.inbox with
      | nil => simpa [Pipeline.Client.step, hcalm, hinbox] using hreceived
      | cons a rest =>
          simp only [Pipeline.Client.step, hcalm, hinbox, Bool.false_eq_true, ↓reduceIte]
          rw [(server platform).flush_answer]
          have hflushed : ((server platform).flush s).inbox =
              a :: (rest ++ (server platform).answersTo s.executed s.store s.outbox) := by
            simp [Pipeline.Client.flush, hinbox]
          exact hreceived.reply rfl hflushed now

theorem Received.run {s : State} (hreceived : Received device table readings
    ((server platform).flush s)) (schedule : List Action) (honly : DatagramsOnly schedule) :
    Received device table (readings ++ readingsOf schedule)
      ((server platform).flush ((server platform).run s schedule)) := by
  induction schedule generalizing s readings with
  | nil =>
      rw [show readingsOf [] = [] from rfl, List.append_nil]
      exact hreceived
  | cons action rest ih =>
      have hfirst : DatagramsOnly [action] := by
        intro event now hmem
        exact honly event now (List.mem_cons.mpr (.inl (List.mem_singleton.mp hmem)))
      rw [readingsOf_cons, ← List.append_assoc]
      apply ih (hreceived.step hfirst)
      intro event now hmem
      exact honly event now (List.mem_cons_of_mem _ hmem)

/-! ## What is looked up -/

/-- The table holds the fields of the readings and no others. -/
def CompleteTable (table : Hash) : Prop :=
  ∀ field, (table field).isSome ↔ ∃ i < 1024, field = i.repr

theorem CompleteTable.isSome_text (hcomplete : CompleteTable table) (x : Script.Number) :
    (table (Script.text x)).isSome ↔ ∃ i < 1024, x = .nat i := by
  rw [hcomplete]
  constructor
  · rintro ⟨i, hlt, htext⟩
    exact ⟨i, hlt, (Script.text_eq_repr (hlt)).mp htext⟩
  · rintro ⟨i, hlt, hx⟩
    exact ⟨i, hlt, (Script.text_eq_repr (hlt)).mpr hx⟩

/-- The lookup finds a value when the newest reading is the numeral of a field. -/
theorem lookup_eq_iff (order : SetOrder) (n : Nat) (hcomplete : CompleteTable table)
    {store : Store} (hkeeps : KeepsTable table (store (tableKey device))) :
    (∃ newValue, lookup order n device store = .bulk (some newValue)) ↔
      ∃ i < 1024, UDP.readingNumber
        ((Operation.lindex 0).reply order n (store (dataKey device))) = .nat i := by
  obtain ⟨fields, hfields, hsame⟩ := hkeeps
  rw [lookup, hfields, ← hcomplete.isSome_text, ← hsame, Option.isSome_iff_exists]
  simp [Operation.reply]

theorem inDomain_iff (order : SetOrder) (n : Nat) {value : Option Value}
    (hsettled : Settled device readings value) :
    (∃ i < 1024, UDP.readingNumber ((Operation.lindex 0).reply order n value) = .nat i) ↔
      InDomain device readings := by
  have hshared : device = "device" → readings.find? (touches device) =
      readings.find? fun reading => reading.1 = "device" ∨ reading.1 = "data" := by
    rintro rfl
    congr 1
    funext reading
    simp [touches]
  unfold Settled at hsettled
  split at hsettled
  next hnone =>
    subst hsettled
    apply iff_of_true
    · exact ⟨0, by decide, rfl⟩
    · constructor
      · intro hdevice first hfirst
        rw [← hshared hdevice, hnone] at hfirst
        cases hfirst
      · intro word hword
        rw [newestWord_of_untouched hnone] at hword
        cases hword
  next first hfirst =>
    split at hsettled
    next hself =>
      obtain ⟨word, rest, rfl, hnewest⟩ := hsettled
      constructor
      · rintro ⟨i, hlt, hnumber⟩
        refine ⟨?_, ?_⟩
        · intro hdevice other hother
          rw [← hshared hdevice, hfirst, Option.some.injEq] at hother
          rw [← hother, hself, hdevice]
        · intro other hother
          rw [hnewest, Option.some.injEq] at hother
          subst hother
          exact ⟨i, hlt, hnumber⟩
      · intro hdomain
        exact hdomain.newest word hnewest
    next hother =>
      obtain ⟨fields, rfl⟩ := hsettled
      apply iff_of_false
      · rintro ⟨i, _, hnumber⟩
        cases hnumber
      · intro hdomain
        have htouches := List.find?_some hfirst
        simp only [touches, hother, decide_false, Bool.false_or, Bool.and_eq_true,
          decide_eq_true_eq] at htouches
        have hcontra := hdomain.first htouches.1 first (by rw [← hshared htouches.1, hfirst])
        rw [htouches.2] at hcontra
        exact absurd hcontra (by decide)

theorem received_boot {store : Store} (htable : store (tableKey device) = some (.hash table))
    (hdata : store (dataKey device) = none) {schedule : List Action}
    (honly : DatagramsOnly schedule) :
    Received device table (readingsOf schedule)
      ((server platform).flush ((server platform).run (boot store) schedule)) := by
  have hboot : Received device table [] ((server platform).flush (boot store)) := by
    refine ⟨rfl, ?_, hdata, table, htable, fun _ => rfl⟩
    intro answer hmem
    cases hmem
  have hreceived := hboot.run schedule honly
  rw [List.nil_append] at hreceived
  exact hreceived

/-- After any datagrams, the forwarder finds a value for a device with a complete table exactly
when the readings are in the domain of the table. -/
theorem lookup_found_iff (platform : Platform) {store : Store} {device : String} {table : Hash}
    (htable : store (tableKey device) = some (.hash table)) (hcomplete : CompleteTable table)
    (hdata : store (dataKey device) = none) (schedule : List Action)
    (honly : DatagramsOnly schedule) (n : Nat) :
    (∃ newValue, lookup platform.order n device
      ((server platform).flush ((server platform).run (boot store) schedule)).store =
        .bulk (some newValue)) ↔ InDomain device (readingsOf schedule) := by
  have hreceived : Received device table (readingsOf schedule) ((server platform).flush
    ((server platform).run (boot store) schedule)) := received_boot htable hdata honly
  rw [lookup_eq_iff platform.order n hcomplete hreceived.table]
  exact inDomain_iff platform.order n hreceived.list

/-- The datagram of the documentation. -/
def documentedFrame : List UInt8 :=
  Utf8.ascii "*2\r\n$11\r\nTEMP_000001\r\n$4\r\n0512d\r\n".toList

set_option maxRecDepth 20000 in
theorem accept_documentedFrame : UDP.accept documentedFrame = some ("temp_000001", "0512d") := by
  decide

/-- The datagram of the documentation arrives. -/
def documentedSchedule : List Action := [.event (.udpMessage documentedFrame "10.0.0.2" 4001) 0]

theorem documentedSchedule_only : DatagramsOnly documentedSchedule := by
  intro event now hmem
  obtain ⟨rfl, rfl⟩ := Pipeline.Action.event.inj (List.mem_singleton.mp hmem)
  exact ⟨_, _, _, rfl⟩

/-- The database with the table of a registered device. -/
def documentedStore : Store :=
  Function.update empty (tableKey "temp_000001")
    (some (.hash (FunctionsService.table referencePlatform.curves .linear)))

theorem documentedStore_table : documentedStore (tableKey "temp_000001") =
    some (.hash (FunctionsService.table referencePlatform.curves .linear)) :=
  Function.update_self ..

theorem documentedStore_data : documentedStore (dataKey "temp_000001") = none :=
  Function.update_of_ne (dataKey_ne_tableKey _ _) ..

theorem lookup_found_iff_documented :
    (∃ newValue, lookup referencePlatform.order 0 "temp_000001" ((server referencePlatform).flush
      ((server referencePlatform).run (boot documentedStore) documentedSchedule)).store =
        .bulk (some newValue)) ↔ InDomain "temp_000001" (readingsOf documentedSchedule) :=
  lookup_found_iff referencePlatform documentedStore_table
    (FunctionsService.table_isSome referencePlatform.curves .linear) documentedStore_data
    documentedSchedule documentedSchedule_only 0

/-- The reading of the documentation is no number, and nothing is found for it in the table. -/
theorem documented_reading_not_found :
    CompleteTable (FunctionsService.table referencePlatform.curves .linear) ∧
      lookup referencePlatform.order 0 "temp_000001" ((server referencePlatform).flush
        ((server referencePlatform).run (boot documentedStore) documentedSchedule)).store =
          .bulk none := by
  have hcomplete : CompleteTable (FunctionsService.table referencePlatform.curves .linear) :=
    FunctionsService.table_isSome referencePlatform.curves .linear
  refine ⟨hcomplete, ?_⟩
  have hreceived : Received "temp_000001" _ (readingsOf documentedSchedule)
      ((server referencePlatform).flush
        ((server referencePlatform).run (boot documentedStore) documentedSchedule)) :=
    received_boot documentedStore_table documentedStore_data documentedSchedule_only
  have hreadings : readingsOf documentedSchedule = [("temp_000001", "0512d")] := by
    simp [readingsOf, documentedSchedule, Event.accepted, accept_documentedFrame]
  have hsettled := hreceived.list
  rw [hreadings, Settled] at hsettled
  obtain ⟨word, rest, hlist, hword⟩ := hsettled
  obtain rfl : "0512d" = word := Option.some.inj hword
  obtain ⟨fields, hfields, hsame⟩ := hreceived.table
  have hnone : fields (Script.text .nan) = none := by
    rw [hsame, ← Option.not_isSome_iff_eq_none, hcomplete.isSome_text]
    rintro ⟨i, _, hcontra⟩
    cases hcontra
  have hnumber : Script.number "0512d" = .nan := by decide
  rw [lookup, hlist, hfields]
  simp only [Operation.reply, List.getElem?_cons_zero, UDP.readingNumber, hnumber]
  exact congrArg Reply.bulk hnone

end RealTimeWs
