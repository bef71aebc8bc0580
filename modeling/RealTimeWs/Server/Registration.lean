import RealTimeWs.Server.Records
import RealTimeWs.Server.Ping

/-! # Registration of devices

A device is announced among the registered ones two round trips before its table
is written. Until then the rest of the chain is outstanding: first the reply to
the announcement, then the reply to the record. Each invariant below excuses what
is still missing by one of these two replies, so nothing is missing once no reply
is outstanding.
-/

namespace RealTimeWs

open Redis FunctionsService

variable (platform : Platform)

/-! ## Outstanding steps of a registration -/

/-- A reply for this callback is outstanding. -/
def Awaits (s : State) (callback : Callback) : Prop := ∃ a ∈ s.inbox, a.callback = callback

/-- The device is registered by a PING whose record is not written yet. -/
def Announced (s : State) (device : String) : Prop :=
  ∃ ip port epoch, Awaits s (.pingSadd device ip port epoch)

theorem not_awaits_of_quiescent {s : State} (hquiet : s.Quiescent) (callback : Callback) :
    ¬ Awaits s callback := by
  rintro ⟨a, hmem, _⟩
  rw [hquiet.2] at hmem
  cases hmem

section Steps

variable {s : State} {a : Pipeline.Answer Reply Callback}
variable {rest : List (Pipeline.Answer Reply Callback)} (now : Nat) (hempty : s.outbox = [])

include hempty

theorem awaits_occurred (event : Event) {callback : Callback} (hawaits : Awaits s callback) :
    Awaits (occurred platform s event now) callback := by
  obtain ⟨b, hmem, hcallback⟩ := hawaits
  exact ⟨b, mem_inbox_occurred_of_mem platform hempty hmem, hcallback⟩

theorem announced_occurred (event : Event) {device : String} (hannounced : Announced s device) :
    Announced (occurred platform s event now) device := by
  obtain ⟨ip, port, epoch, hawaits⟩ := hannounced
  exact ⟨ip, port, epoch, awaits_occurred platform now hempty event hawaits⟩

/-- A reply is outstanding until it is delivered. -/
theorem awaits_delivered (hinbox : s.inbox = a :: rest) {callback : Callback}
    (hawaits : Awaits s callback) :
    a.callback = callback ∨ Awaits (delivered platform s a rest now) callback := by
  obtain ⟨b, hmem, hcallback⟩ := hawaits
  rw [hinbox] at hmem
  rcases List.mem_cons.mp hmem with rfl | hrest
  · exact Or.inl hcallback
  · exact Or.inr ⟨b, mem_inbox_delivered_of_rest platform hempty hrest, hcallback⟩

/-- The announcement is followed by the reply to the record. -/
theorem announced_delivered (hinbox : s.inbox = a :: rest) {device : String}
    (hannounced : Announced s device) :
    (∃ ip port epoch, a.callback = .pingSadd device ip port epoch ∧
        Awaits (delivered platform s a rest now) (.pingHmset device)) ∨
      Announced (delivered platform s a rest now) device := by
  obtain ⟨ip, port, epoch, hawaits⟩ := hannounced
  rcases awaits_delivered platform now hempty hinbox hawaits with hhead | hlater
  · refine Or.inl ⟨ip, port, epoch, hhead, ?_⟩
    apply exists_inbox_delivered platform hempty
    rw [hhead]
    exact .pingHmset
  · exact Or.inr ⟨ip, port, epoch, hlater⟩

/-- A device that a reply registers is announced. -/
theorem announced_of_registered {device : String}
    (hregistered : registered a.callback a.reply = some device) :
    Announced (delivered platform s a rest now) device := by
  have hfollows : ∃ ip port epoch, Follows a.callback a.ordinal a.reply ⟨devicesKey, .sadd device⟩
      (.pingSadd device ip port epoch) := by
    obtain ⟨ordinal, reply, callback⟩ := a
    cases callback with
    | pingSismember other ip port epoch =>
        simp only [registered] at hregistered
        split at hregistered
        next => cases hregistered
        next hnew =>
            cases hregistered
            exact ⟨ip, port, epoch, .pingSadd (by simpa using hnew)⟩
    | _ => cases hregistered
  obtain ⟨ip, port, epoch, hfollows⟩ := hfollows
  exact ⟨ip, port, epoch, exists_inbox_delivered platform hempty hfollows⟩

/-- After a reply the registered devices are the old ones and a newly announced one. -/
theorem mem_devices_delivered (htyped : Kind.set.Admits (s.store devicesKey)) {device : String}
    (hmem : device ∈ devices (delivered platform s a rest now).store) :
    device ∈ devices s.store ∨ registered a.callback a.reply = some device := by
  rw [delivered_store platform hempty, devices_replyStore platform htyped] at hmem
  cases hregistered : registered a.callback a.reply with
  | none =>
      rw [hregistered] at hmem
      exact Or.inl hmem
  | some new =>
      rw [hregistered, Option.elim_some, Finset.mem_insert] at hmem
      rcases hmem with rfl | hold
      · exact Or.inr rfl
      · exact Or.inl hold

theorem devices_occurred (event : Event) :
    devices (occurred platform s event now).store = devices s.store := by
  rw [occurred_store platform hempty]
  exact devices_eq (eventStore_devices platform event now s.memory s.executed s.store)

variable (a rest) in
/-- What a reply does to a table. -/
theorem delivered_table {device : String} (hplain : Plain device) :
    (∀ function, rewritten a.callback a.reply ≠ some (device, function)) ∧
        (delivered platform s a rest now).store (tableKey device) = s.store (tableKey device) ∨
      ∃ function, rewritten a.callback a.reply = some (device, function) ∧
        (delivered platform s a rest now).store (tableKey device) =
          some (.hash (table platform.curves function)) := by
  rw [delivered_store platform hempty, replyStore_table platform _ _ _ _ _ _ _ hplain]
  cases hwritten : rewritten a.callback a.reply with
  | none =>
      left
      refine ⟨?_, rfl⟩
      intro function heq
      cases heq
  | some written =>
      obtain ⟨other, function⟩ := written
      by_cases heq : other = device
      · subst heq
        exact Or.inr ⟨function, rfl, by simp⟩
      · left
        refine ⟨?_, by simp [heq]⟩
        rintro _ ⟨⟩
        exact heq rfl

theorem occurred_table (event : Event) {device : String} (hplain : Plain device) :
    (occurred platform s event now).store (tableKey device) = s.store (tableKey device) := by
  rw [occurred_store platform hempty]
  exact eventStore_table platform event now s.memory s.executed s.store hplain

end Steps

/-! ## Tables -/

/-- The table of the device is the one that some function writes. -/
def Complete (store : Store) (device : String) : Prop :=
  ∃ function, store (tableKey device) = some (.hash (table platform.curves function))

/-- Every registered device has a table or will be given one. -/
def Tabled (s : State) : Prop :=
  ∀ device ∈ devices s.store, Complete platform s.store device ∨
    Awaits s (.pingHmset device) ∨ Announced s device

section Complete

variable {s : State} {a : Pipeline.Answer Reply Callback}
variable {rest : List (Pipeline.Answer Reply Callback)} (now : Nat) (hempty : s.outbox = [])

include hempty

theorem complete_occurred (event : Event) {device : String} (hplain : Plain device)
    (hcomplete : Complete platform s.store device) :
    Complete platform (occurred platform s event now).store device := by
  obtain ⟨function, htable⟩ := hcomplete
  exact ⟨function, (occurred_table platform now hempty event hplain).trans htable⟩

/-- A complete table is only replaced by a complete one. -/
theorem complete_delivered {device : String} (hplain : Plain device)
    (hcomplete : Complete platform s.store device) :
    Complete platform (delivered platform s a rest now).store device := by
  rcases delivered_table platform a rest now hempty hplain with
    ⟨_, hsame⟩ | ⟨function, _, hnew⟩
  · obtain ⟨function, htable⟩ := hcomplete
    exact ⟨function, hsame.trans htable⟩
  · exact ⟨function, hnew⟩

theorem complete_of_pingHmset {device : String} (hplain : Plain device)
    (hcallback : a.callback = .pingHmset device) :
    Complete platform (delivered platform s a rest now).store device := by
  rcases delivered_table platform a rest now hempty hplain with
    ⟨hnone, _⟩ | ⟨function, _, hnew⟩
  · exact absurd (by rw [hcallback]; rfl) (hnone .linear)
  · exact ⟨function, hnew⟩

end Complete

theorem preserved_tabled :
    (server platform).Preserved (regularGuard platform) (Tabled platform) where
  event := by
    intro s event now hempty _ hguard htabled device hmem
    change device ∈ devices (occurred platform s event now).store at hmem
    rw [devices_occurred platform now hempty] at hmem
    have hplain := hguard.2.plain device hmem
    rcases htabled device hmem with hcomplete | hawaits | hannounced
    · exact Or.inl (complete_occurred platform now hempty event hplain hcomplete)
    · exact Or.inr (Or.inl (awaits_occurred platform now hempty event hawaits))
    · exact Or.inr (Or.inr (announced_occurred platform now hempty event hannounced))
  deliver := by
    intro s a rest now hempty _ hinbox hguard htabled device hmem
    rcases mem_devices_delivered platform now hempty hguard.2.typed hmem with hold | hregistered
    · have hplain := hguard.2.plain device hold
      rcases htabled device hold with hcomplete | hawaits | hannounced
      · exact Or.inl (complete_delivered platform now hempty hplain hcomplete)
      · rcases awaits_delivered platform now hempty hinbox hawaits with hhead | hlater
        · exact Or.inl (complete_of_pingHmset platform now hempty hplain hhead)
        · exact Or.inr (Or.inl hlater)
      · rcases announced_delivered platform now hempty hinbox hannounced with
          ⟨_, _, _, _, hawaits⟩ | hlater
        · exact Or.inr (Or.inl hawaits)
        · exact Or.inr (Or.inr hlater)
    · exact Or.inr (Or.inr (announced_of_registered platform now hempty hregistered))

theorem tabled_boot_empty : Tabled platform ((server platform).flush (boot empty)) := by
  intro device hmem
  exact absurd hmem (Finset.notMem_empty device)

/-! ## Counters -/

/-- Every counter is a positive number and every registered device has one. -/
def Counted (s : State) : Prop :=
  ∀ device, Counting (fieldAt s.store (recordKey device)) ∧
    (device ∈ devices s.store →
      ∃ n : Nat, 1 ≤ n ∧ fieldAt s.store (recordKey device) "msg_count" = some n.repr)

/-- The announcement of a device is sent together with its first count. -/
theorem counts_of_registered {callback : Callback} {reply : Reply} {device : String} (now : Nat)
    (hregistered : registered callback reply = some device) :
    (∃ ops, recorded callback reply now = some (device, ops)) ∧
      ∀ pairs counts, Records callback reply device pairs counts → counts = true := by
  cases callback with
  | pingSismember other ip port epoch =>
      simp only [registered] at hregistered
      split at hregistered
      next => cases hregistered
      next hnew =>
          cases hregistered
          refine ⟨⟨_, rfl⟩, ?_⟩
          intro pairs counts hrecords
          cases hrecords <;> rfl
  | _ => cases hregistered

theorem preserved_counted : (server platform).Preserved (recordGuard platform) Counted where
  event := by
    intro s event now hempty _ hguard hcounted device
    change Counting (fieldAt (occurred platform s event now).store (recordKey device)) ∧
      (device ∈ devices (occurred platform s event now).store → _)
    rw [devices_occurred platform now hempty]
    obtain ⟨hcounting, hpositive⟩ := hcounted device
    have hplain := hguard.1.1.1 event now rfl
    rcases fieldAt_occurred platform now hempty hplain hguard.2 device with hsame | ⟨port, hnew⟩
    · refine ⟨by rwa [hsame], fun hmem => ?_⟩
      have hheld := hpositive hmem
      rwa [← hsame] at hheld
    · refine ⟨by rw [hnew]; exact counting_changed _ (by simp) hcounting, fun _ => ?_⟩
      have hnot : "msg_count" ∉
          [("last_ping", now.repr), ("udp_port", port.repr)].map Prod.fst := by
        simp
      have hheld := counted_changed true hnot hcounting (Or.inl rfl)
      rwa [← hnew] at hheld
  deliver := by
    intro s a rest now hempty _ hinbox hguard hcounted device
    change Counting (fieldAt (delivered platform s a rest now).store (recordKey device)) ∧
      (device ∈ devices (delivered platform s a rest now).store → _)
    obtain ⟨hcounting, hpositive⟩ := hcounted device
    rcases fieldAt_delivered platform now hempty hinbox hguard.1.2 hguard.2 device with
      ⟨hnone, hsame⟩ | ⟨pairs, counts, hrecords, hnew⟩
    · refine ⟨by rwa [hsame], fun hmem => ?_⟩
      rcases mem_devices_delivered platform now hempty hguard.1.2.typed hmem with hold | hregistered
      · have hheld := hpositive hold
        rwa [← hsame] at hheld
      · obtain ⟨ops, hops⟩ := (counts_of_registered now hregistered).1
        exact absurd hops (hnone ops)
    · have hnot := hrecords.msg_count_not_mem
      refine ⟨by rw [hnew]; exact counting_changed _ hnot hcounting, fun hmem => ?_⟩
      have hreason : counts = true ∨
          ∃ n : Nat, 1 ≤ n ∧ fieldAt s.store (recordKey device) "msg_count" = some n.repr := by
        rcases mem_devices_delivered platform now hempty hguard.1.2.typed hmem with
          hold | hregistered
        · exact Or.inr (hpositive hold)
        · exact Or.inl ((counts_of_registered now hregistered).2 _ _ hrecords)
      have hheld := counted_changed counts hnot hcounting hreason
      rwa [← hnew] at hheld

theorem counted_boot_empty : Counted ((server platform).flush (boot empty)) := by
  intro device
  refine ⟨?_, fun hmem => absurd hmem (Finset.notMem_empty device)⟩
  intro text htext
  cases htext

/-! ## Fields of the record -/

/-- The fields that a registration writes. -/
def recordFields : List String := ["ip", "port", "active", "last_ping", "function"]

/-- Every registered device has a full record or will be given one. -/
def Filled (s : State) : Prop :=
  ∀ device ∈ devices s.store, Announced s device ∨
    ∀ field ∈ recordFields, (fieldAt s.store (recordKey device) field).isSome

theorem ne_msg_count_of_mem_recordFields {field : String} (hfield : field ∈ recordFields) :
    field ≠ "msg_count" := by
  rintro rfl
  exact absurd hfield (by decide)

theorem preserved_filled : (server platform).Preserved (recordGuard platform) Filled where
  event := by
    intro s event now hempty _ hguard hfilled device hmem
    change device ∈ devices (occurred platform s event now).store at hmem
    rw [devices_occurred platform now hempty] at hmem
    rcases hfilled device hmem with hannounced | hfields
    · exact Or.inl (announced_occurred platform now hempty event hannounced)
    · right
      intro field hfield
      have hplain := hguard.1.1.1 event now rfl
      change (fieldAt (occurred platform s event now).store (recordKey device) field).isSome
      rcases fieldAt_occurred platform now hempty hplain hguard.2 device with hsame | ⟨port, hnew⟩
      · rw [hsame]
        exact hfields field hfield
      · rw [hnew]
        exact changed_isSome _ _ _ (ne_msg_count_of_mem_recordFields hfield) (hfields field hfield)
  deliver := by
    intro s a rest now hempty _ hinbox hguard hfilled device hmem
    have hrecord := fieldAt_delivered platform now hempty hinbox hguard.1.2 hguard.2 device
    rcases mem_devices_delivered platform now hempty hguard.1.2.typed hmem with hold | hregistered
    · rcases hfilled device hold with hannounced | hfields
      · rcases announced_delivered platform now hempty hinbox hannounced with
          ⟨ip, port, epoch, hcallback, _⟩ | hlater
        · right
          intro field hfield
          change (fieldAt (delivered platform s a rest now).store (recordKey device) field).isSome
          rcases hrecord with ⟨hnone, _⟩ | ⟨pairs, counts, hrecords, hnew⟩
          · exact absurd (by rw [hcallback]; rfl) (hnone _)
          · rw [hcallback] at hrecords
            cases hrecords
            rw [hnew, changed_of_ne _ _ _ (ne_msg_count_of_mem_recordFields hfield)]
            simp only [recordFields, List.mem_cons, List.not_mem_nil, or_false] at hfield
            rcases hfield with rfl | rfl | rfl | rfl | rfl <;> simp
        · exact Or.inl hlater
      · right
        intro field hfield
        change (fieldAt (delivered platform s a rest now).store (recordKey device) field).isSome
        rcases hrecord with ⟨_, hsame⟩ | ⟨pairs, counts, _, hnew⟩
        · rw [hsame]
          exact hfields field hfield
        · rw [hnew]
          exact changed_isSome _ _ _ (ne_msg_count_of_mem_recordFields hfield)
            (hfields field hfield)
    · exact Or.inl (announced_of_registered platform now hempty hregistered)

theorem filled_boot_empty : Filled ((server platform).flush (boot empty)) := by
  intro device hmem
  exact absurd hmem (Finset.notMem_empty device)

/-- A function that is recorded is an allowed one. -/
def Named (s : State) : Prop :=
  ∀ device text, fieldAt s.store (recordKey device) "function" = some text →
    ∃ function : Allowed, text = function.name

theorem preserved_named : (server platform).Preserved (recordGuard platform) Named where
  event := by
    intro s event now hempty _ hguard hnamed device text htext
    change fieldAt (occurred platform s event now).store (recordKey device) "function" = _ at htext
    have hplain := hguard.1.1.1 event now rfl
    rcases fieldAt_occurred platform now hempty hplain hguard.2 device with hsame | ⟨port, hnew⟩
    · rw [hsame] at htext
      exact hnamed device text htext
    · rw [hnew, changed_of_not_mem _ _ _ (by decide) (by simp)] at htext
      exact hnamed device text htext
  deliver := by
    intro s a rest now hempty _ hinbox hguard hnamed device text htext
    change fieldAt (delivered platform s a rest now).store (recordKey device) "function" = _
      at htext
    rcases fieldAt_delivered platform now hempty hinbox hguard.1.2 hguard.2 device with
      ⟨_, hsame⟩ | ⟨pairs, counts, hrecords, hnew⟩
    · rw [hsame] at htext
      exact hnamed device text htext
    · rw [hnew, changed_of_ne _ _ _ (by decide)] at htext
      obtain ⟨ordinal, reply, callback⟩ := a
      cases hrecords with
      | registration =>
          simp only [Hash.setAll_cons, Hash.setAll_nil, Function.update_self,
            Option.some.injEq] at htext
          exact ⟨.linear, htext.symm⟩
      | function hwritten =>
          simp only [Hash.setAll_cons, Hash.setAll_nil, Function.update_self,
            Option.some.injEq] at htext
          exact ⟨_, htext.symm⟩
      | _ =>
          rw [Hash.setAll_of_not_mem _ _ _ (by simp)] at htext
          exact hnamed device text htext

theorem named_boot_empty : Named ((server platform).flush (boot empty)) := by
  intro device text htext
  cases htext

/-! ## Addresses -/

/-- A PING of the device came from this remote address and port. -/
def Pinged (history : List (Nat × Event)) (device ip : String) (port : Nat) : Prop :=
  ∃ n values, (n, Event.tcpData ip port values) ∈ history ∧
    ∃ value ∈ values, TCP.isPing platform.toLowerCase value = some true ∧
      platform.toLowerCase (TCP.secondText value) = device

/-- The address that a registration in progress will write. -/
def Callback.address : Callback → Option (String × String × Nat)
  | .pingSismember device ip port _ => some (device, ip, port)
  | .pingSadd device ip port _ => some (device, ip, port)
  | _ => none

/-- Recorded addresses, and those about to be recorded, are whole addresses of
one PING. -/
structure Addressed (s : State) : Prop where
  asked : ∀ a ∈ s.inbox, ∀ device ip port, a.callback.address = some (device, ip, port) →
    Pinged platform s.history device ip port
  recorded : ∀ device,
    (fieldAt s.store (recordKey device) "ip" = none ∧
      fieldAt s.store (recordKey device) "port" = none) ∨
    ∃ ip port, fieldAt s.store (recordKey device) "ip" = some ip ∧
      fieldAt s.store (recordKey device) "port" = some (Nat.repr port) ∧
      Pinged platform s.history device ip port

theorem Pinged.append {history later : List (Nat × Event)} {device ip : String} {port : Nat}
    (hpinged : Pinged platform history device ip port) :
    Pinged platform (history ++ later) device ip port := by
  obtain ⟨n, values, hmem, hvalue⟩ := hpinged
  exact ⟨n, values, List.mem_append_left _ hmem, hvalue⟩

/-- The address is passed on from the first step of a registration to the second. -/
theorem address_of_follows {asked : Callback} {n : Nat} {reply : Reply} {command : Command}
    {callback : Callback} (hfollows : Follows asked n reply command callback)
    {what : String × String × Nat} (haddress : callback.address = some what) :
    asked.address = some what := by
  cases hfollows with
  | pingSadd hnew => exact haddress
  | _ => cases haddress

theorem preserved_addressed :
    (server platform).Preserved (recordGuard platform) (Addressed platform) where
  event := by
    intro s event now hempty _ hguard haddressed
    change Addressed platform (occurred platform s event now)
    refine ⟨?_, ?_⟩
    · intro b hmem device ip port haddress
      rw [occurred_history platform hempty]
      rcases mem_inbox_occurred platform hempty hmem with hold | ⟨_, hignored | hasked⟩
      · exact (haddressed.asked b hold device ip port haddress).append platform
      · rw [hignored] at haddress
        cases haddress
      · obtain ⟨command, hstarts, _⟩ := hasked
        obtain ⟨ordinal, reply, callback⟩ := b
        cases hstarts with
        | ping hvalue hping =>
            cases haddress
            exact ⟨s.executed, _, List.mem_append_right _ (List.mem_singleton_self _), _, hvalue,
              hping, rfl⟩
        | _ => cases haddress
    · intro device
      rw [occurred_history platform hempty]
      have hplain := hguard.1.1.1 event now rfl
      have hrecorded := haddressed.recorded device
      have hfields : ∀ field ∈ ["ip", "port"],
          fieldAt (occurred platform s event now).store (recordKey device) field =
            fieldAt s.store (recordKey device) field := by
        intro field hfield
        rcases fieldAt_occurred platform now hempty hplain hguard.2 device with hsame | ⟨port, hnew⟩
        · rw [hsame]
        · rw [hnew]
          simp only [List.mem_cons, List.not_mem_nil, or_false] at hfield
          rcases hfield with rfl | rfl <;>
            exact changed_of_not_mem _ _ _ (by decide) (by simp)
      rw [hfields "ip" (by simp), hfields "port" (by simp)]
      rcases hrecorded with hnone | ⟨ip, port, hip, hport, hpinged⟩
      · exact Or.inl hnone
      · exact Or.inr ⟨ip, port, hip, hport, hpinged.append platform⟩
  deliver := by
    intro s a rest now hempty _ hinbox hguard haddressed
    change Addressed platform (delivered platform s a rest now)
    refine ⟨?_, ?_⟩
    · intro b hmem device ip port haddress
      rw [delivered_history platform hempty]
      rcases mem_inbox_delivered platform hempty hmem with hold | ⟨_, hignored | hasked⟩
      · exact haddressed.asked b (hinbox ▸ List.mem_cons_of_mem _ hold) device ip port haddress
      · rw [hignored] at haddress
        cases haddress
      · obtain ⟨command, hfollows, _⟩ := hasked
        exact haddressed.asked a (hinbox ▸ List.mem_cons_self) device ip port
          (address_of_follows hfollows haddress)
    · intro device
      rw [delivered_history platform hempty]
      have hrecorded := haddressed.recorded device
      rcases fieldAt_delivered platform now hempty hinbox hguard.1.2 hguard.2 device with
        ⟨_, hsame⟩ | ⟨pairs, counts, hrecords, hnew⟩
      · rw [hsame]
        exact hrecorded
      · have hasked := haddressed.asked a (hinbox ▸ List.mem_cons_self)
        rw [hnew, changed_of_ne _ _ _ (by decide), changed_of_ne _ _ _ (by decide)]
        obtain ⟨ordinal, reply, callback⟩ := a
        cases hrecords with
        | registration => exact Or.inr ⟨_, _, by simp, by simp, hasked device _ _ rfl⟩
        | _ =>
            rw [Hash.setAll_of_not_mem _ _ _ (by simp), Hash.setAll_of_not_mem _ _ _ (by simp)]
            exact hrecorded

theorem addressed_boot_empty : Addressed platform ((server platform).flush (boot empty)) := by
  refine ⟨?_, fun device => Or.inl ⟨rfl, rfl⟩⟩
  intro a hmem
  cases hmem

/-! ## Devices at rest -/

/-- Whenever no reply is outstanding, every registered device has a full record
whose address belongs to one of its PINGs, and a full table. -/
theorem registered_device_complete {schedule : List Action}
    (hplain : PlainSchedule platform schedule)
    (hquiet : ((server platform).run (boot empty) schedule).Quiescent) {device : String}
    (hmem : device ∈ devices ((server platform).run (boot empty) schedule).store) :
    let store := ((server platform).run (boot empty) schedule).store
    (∃ ip port, fieldAt store (recordKey device) "ip" = some ip ∧
      fieldAt store (recordKey device) "port" = some (Nat.repr port) ∧
      ∃ now values, .event (.tcpData ip port values) now ∈ schedule ∧
        ∃ value ∈ values, IsPingOf platform value device) ∧
    (∃ active, fieldAt store (recordKey device) "active" = some active) ∧
    (∃ lastPing, fieldAt store (recordKey device) "last_ping" = some lastPing) ∧
    (∃ function ∈ allowed, fieldAt store (recordKey device) "function" = some function.name) ∧
    (∃ n : Nat, 1 ≤ n ∧ fieldAt store (recordKey device) "msg_count" = some n.repr) ∧
    ∃ fields, store (tableKey device) = some (.hash fields) ∧
      ∀ field, (fields field).isSome ↔ ∃ i < 1024, field = Nat.repr i := by
  have hguarded := guarded_record platform hplain
  have htabled := (preserved_tabled platform).run (server platform) (boot empty) schedule
    (guarded_regular platform hplain) (tabled_boot_empty platform)
  have hcounted := (preserved_counted platform).run (server platform) (boot empty) schedule
    hguarded (counted_boot_empty platform)
  have hfilled := (preserved_filled platform).run (server platform) (boot empty) schedule
    hguarded (filled_boot_empty platform)
  have hnamed := (preserved_named platform).run (server platform) (boot empty) schedule
    hguarded (named_boot_empty platform)
  have haddressed := (preserved_addressed platform).run (server platform) (boot empty) schedule
    hguarded (addressed_boot_empty platform)
  rw [(server platform).flush_of_quiescent hquiet] at htabled hcounted hfilled hnamed haddressed
  have hfields : ∀ field ∈ recordFields,
      (fieldAt ((server platform).run (boot empty) schedule).store (recordKey device)
        field).isSome := by
    rcases hfilled device hmem with ⟨_, _, _, hawaits⟩ | hfields
    · exact absurd hawaits (not_awaits_of_quiescent hquiet _)
    · exact hfields
  refine ⟨?_, ?_, ?_, ?_, (hcounted device).2 hmem, ?_⟩
  · rcases haddressed.recorded device with ⟨hnone, _⟩ | ⟨ip, port, hip, hport, hpinged⟩
    · have hsome := hfields "ip" (by decide)
      rw [hnone] at hsome
      cases hsome
    · obtain ⟨n, values, hhistory, value, hvalue, hping⟩ := hpinged
      refine ⟨ip, port, hip, hport, ?_⟩
      rcases (server platform).mem_history_run hhistory with hbefore | ⟨now, hevent⟩
      · cases hbefore
      · exact ⟨now, values, hevent, value, hvalue, hping⟩
  · exact Option.isSome_iff_exists.mp (hfields "active" (by decide))
  · exact Option.isSome_iff_exists.mp (hfields "last_ping" (by decide))
  · obtain ⟨text, htext⟩ := Option.isSome_iff_exists.mp (hfields "function" (by decide))
    obtain ⟨function, rfl⟩ := hnamed device text htext
    exact ⟨function, by cases function <;> decide, htext⟩
  · rcases htabled device hmem with ⟨function, htable⟩ | hawaits | ⟨_, _, _, hawaits⟩
    · exact ⟨_, htable, table_isSome platform.curves function⟩
    · exact absurd hawaits (not_awaits_of_quiescent hquiet _)
    · exact absurd hawaits (not_awaits_of_quiescent hquiet _)

/-- A single concentrator sends its first PING. -/
def firstPing : List Action := .event (.tcpData "10.0.0.2" 49152 [samplePing]) 0 :: rounds 1030

/-- The registration comes to rest, and the device has its record and its table. -/
theorem registered_device_complete_single :
    ∃ store, store = ((server referencePlatform).run (boot empty) firstPing).store ∧
    ((server referencePlatform).run (boot empty) firstPing).Quiescent ∧
    "adc00000001" ∈ devices store ∧
    (∃ ip port, fieldAt store (recordKey "adc00000001") "ip" = some ip ∧
      fieldAt store (recordKey "adc00000001") "port" = some (Nat.repr port) ∧
      ∃ now values, .event (.tcpData ip port values) now ∈ firstPing ∧
        ∃ value ∈ values, IsPingOf referencePlatform value "adc00000001") ∧
    (∃ active, fieldAt store (recordKey "adc00000001") "active" = some active) ∧
    (∃ lastPing, fieldAt store (recordKey "adc00000001") "last_ping" = some lastPing) ∧
    (∃ function ∈ allowed,
      fieldAt store (recordKey "adc00000001") "function" = some function.name) ∧
    (∃ n : Nat, 1 ≤ n ∧ fieldAt store (recordKey "adc00000001") "msg_count" = some n.repr) ∧
    ∃ fields, store (tableKey "adc00000001") = some (.hash fields) ∧
      ∀ field, (fields field).isSome ↔ ∃ i < 1024, field = Nat.repr i := by
  have hnew : "adc00000001" ∉ devices empty := Finset.notMem_empty _
  have hplain : PlainSchedule referencePlatform firstPing := by
    unfold firstPing
    exact plainSchedule_samplePing "10.0.0.2" 49152 0 1030
  have hquiet : ((server referencePlatform).run (boot empty) firstPing).Quiescent := by
    unfold firstPing
    exact quiescent_registration referencePlatform isPingOf_samplePing hnew "10.0.0.2" 49152 0
  have hmem :
      "adc00000001" ∈ devices ((server referencePlatform).run (boot empty) firstPing).store := by
    unfold firstPing
    rw [store_ping_new_rounds referencePlatform isPingOf_samplePing hnew _ _ _ le_rfl]
    have htyped : Kind.set.Admits (empty devicesKey) := trivial
    exact mem_devices_prefixStore referencePlatform _ _ _ htyped (by decide)
  exact ⟨_, rfl, hquiet, hmem, registered_device_complete referencePlatform hplain hquiet hmem⟩

end RealTimeWs
