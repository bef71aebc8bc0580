import RealTimeWs.Server.Registration

/-! # Registration across a restart

A server that stops loses its outstanding commands and callbacks, while the
database keeps what has been executed. The registration of one device is a script
of 1030 commands; the prefixes after its announcement and before its end are not
repaired by a further PING, which finds the device registered.
-/

namespace RealTimeWs

open Redis FunctionsService

variable (platform : Platform)

/-! ## What a prefix of a registration leaves -/

/-- A device that has never been registered. Its datagrams may have left a record
without an address. -/
structure Unregistered (store : Store) (device : String) : Prop where
  typed : Kind.set.Admits (store devicesKey)
  absent : device ∉ devices store
  record : Kind.hash.Admits (store (recordKey device))
  address : fieldAt store (recordKey device) "ip" = none
  table : store (tableKey device) = none

/-- The record and the table of a device are as a registration leaves them. -/
def Restored (store : Store) (device : String) : Prop :=
  (∀ field ∈ recordFields, (fieldAt store (recordKey device) field).isSome) ∧
    ∀ i < 1024, (fieldAt store (tableKey device) (Nat.repr i)).isSome

/-! ## The further PING -/

section Repair

variable {store : Store} {device : String}

theorem unregistered_prefixStore (ip : String) (port epoch : Nat)
    (hunregistered : Unregistered store device) {k : Nat} (hk : k ≤ 2) :
    Unregistered (prefixStore platform ip port epoch store device k) device := by
  have hdevices : prefixStore platform ip port epoch store device k devicesKey =
      store devicesKey := by
    rw [prefixStore_devices, if_pos hk]
  have hrecord : prefixStore platform ip port epoch store device k (recordKey device) =
      store (recordKey device) := by
    rw [prefixStore_record, if_pos (by omega), if_pos (by omega)]
    rfl
  have htable : prefixStore platform ip port epoch store device k (tableKey device) =
      store (tableKey device) := by
    rw [prefixStore_table, show k - 5 = 0 by omega]
    rfl
  constructor
  · rw [hdevices]
    exact hunregistered.typed
  · rw [devices_eq hdevices]
    exact hunregistered.absent
  · rw [hrecord]
    exact hunregistered.record
  · rw [fieldAt, hrecord]
    exact hunregistered.address
  · rw [htable]
    exact hunregistered.table

/-- The fields of the record that a prefix has written. -/
theorem prefixStore_fields (ip : String) (port epoch : Nat)
    (hrecord : Kind.hash.Admits (store (recordKey device))) {k : Nat} (hk : 4 < k) {field : String}
    (hfield : field ∈ recordFields) :
    (fieldAt (prefixStore platform ip port epoch store device k)
      (recordKey device) field).isSome := by
  have hcounted : Kind.hash.Admits
      ((Operation.hincrby "msg_count" 1).update (store (recordKey device))) :=
    admits_update (by simp [Operation.creates]) hrecord
  rw [fieldAt, prefixStore_record, if_neg (by omega), if_neg (by omega), List.singleton_append,
    applyAll_cons, applyAll_cons, applyAll_nil, fieldsOf_hmset hcounted]
  simp only [recordFields, List.mem_cons, List.not_mem_nil, or_false] at hfield
  rcases hfield with rfl | rfl | rfl | rfl | rfl <;> simp

theorem prefixStore_address (ip : String) (port epoch : Nat)
    (hunregistered : Unregistered store device) {k : Nat} (hk : k ≤ 4) :
    fieldAt (prefixStore platform ip port epoch store device k) (recordKey device) "ip" = none := by
  rw [fieldAt, prefixStore_record, if_pos hk, List.append_nil]
  split
  · exact hunregistered.address
  · rw [applyAll_cons, applyAll_nil, fieldsOf_hincrby hunregistered.record,
      Hash.increment_of_ne _ _ (by decide)]
    exact hunregistered.address

theorem admits_prefixStore_record (ip : String) (port epoch : Nat)
    (hrecord : Kind.hash.Admits (store (recordKey device))) (k : Nat) :
    Kind.hash.Admits (prefixStore platform ip port epoch store device k (recordKey device)) := by
  rw [prefixStore_record]
  apply admits_applyAll _ _ _ hrecord
  intro op hmem kind hcreates
  have hhash : op.creates = some .hash := by
    rcases List.mem_append.mp hmem with hop | hop
    · split at hop
      · cases hop
      · rw [List.mem_singleton.mp hop]
        rfl
    · split at hop
      · cases hop
      · rw [List.mem_singleton.mp hop]
        rfl
  exact (Option.some.inj (hhash.symm.trans hcreates)).symm

/-- A registration that is not interrupted leaves everything. -/
theorem restored_registration (ip : String) (port epoch : Nat)
    (hunregistered : Unregistered store device) :
    Restored ((server platform).storeAfter 0 store
      (registration platform device ip port epoch)) device := by
  have hall : (server platform).storeAfter 0 store (registration platform device ip port epoch) =
      prefixStore platform ip port epoch store device 1030 := by
    rw [prefixStore, List.take_of_length_le (length_registration platform _ _ _ _).le]
  rw [hall]
  constructor
  · intro field hfield
    exact prefixStore_fields platform ip port epoch hunregistered.record (by decide) hfield
  · intro i hi
    rw [prefixStore_table_isSome platform ip port epoch hunregistered.table hi]
    omega

/-- The PING of a known device adds no field but the time of the PING. -/
theorem restored_refresh (ip : String) (port epoch : Nat)
    (hrecord : Kind.hash.Admits (store (recordKey device))) :
    Restored ((server platform).storeAfter 0 store (refresh device ip port epoch)) device ↔
      (∀ field ∈ recordFields, field = "last_ping" ∨
        (fieldAt store (recordKey device) field).isSome) ∧
      ∀ i < 1024, (fieldAt store (tableKey device) (Nat.repr i)).isSome := by
  have hfields : fieldAt ((server platform).storeAfter 0 store (refresh device ip port epoch))
      (recordKey device) =
        changed (fieldAt store (recordKey device)) [("last_ping", epoch.repr)] true := by
    rw [fieldAt, fieldAt, storeAfter_apply platform.order (server platform) rfl,
      ← fieldsOf_recordOps _ _ hrecord]
    simp [recordOps, refresh, writes_cons, opsAt_cons, Operation.isRead,
      (recordKey_ne_msgCountKey device).symm]
  have htable : fieldAt ((server platform).storeAfter 0 store (refresh device ip port epoch))
      (tableKey device) = fieldAt store (tableKey device) := by
    rw [fieldAt, storeAfter_apply platform.order (server platform) rfl]
    simp [refresh, writes_cons, opsAt_cons, Operation.isRead,
      (tableKey_ne_msgCountKey device).symm, recordKey_ne_tableKey_self device, fieldAt]
  have hfield : ∀ field ∈ recordFields,
      ((changed (fieldAt store (recordKey device)) [("last_ping", epoch.repr)] true field).isSome ↔
        field = "last_ping" ∨ (fieldAt store (recordKey device) field).isSome) := by
    intro field hmem
    rw [changed_of_ne _ _ _ (ne_msg_count_of_mem_recordFields hmem)]
    by_cases heq : field = "last_ping" <;> simp [heq]
  rw [Restored, hfields, htable]
  exact and_congr_left fun _ => forall₂_congr hfield

end Repair

/-! ## Crash points -/

section Crash

variable {store : Store} {device : String} {value : Resp.Value String}

/-- Which prefixes of a registration a further PING, completely handled, repairs. -/
theorem restored_ping_iff (hunregistered : Unregistered store device) (ip : String)
    (port epoch : Nat) {k : Nat} (hk : k ≤ 1030) (hping : IsPingOf platform value device)
    (ip' : String) (port' now : Nat) {schedule : List Action}
    (hfree : Pipeline.Client.EventFree schedule)
    (hquiet : ((server platform).run (boot (prefixStore platform ip port epoch store device k))
      (.event (.tcpData ip' port' [value]) now :: schedule)).Quiescent) :
    Restored ((server platform).run (boot (prefixStore platform ip port epoch store device k))
      (.event (.tcpData ip' port' [value]) now :: schedule)).store device ↔
      k ≤ 2 ∨ 1030 ≤ k := by
  rcases Nat.lt_or_ge 2 k with hlate | hearly
  · -- The device is found registered, so the PING only refreshes its record.
    have hknown : device ∈ devices (prefixStore platform ip port epoch store device k) :=
      mem_devices_prefixStore platform ip port epoch hunregistered.typed hlate
    obtain ⟨done, j, hj, hdone, hrun⟩ :=
      run_ping_known platform hping hknown ip' port' now hfree
    rw [hrun] at hquiet ⊢
    have hall := (script_refresh platform ip' port' now _ hknown).quiescent (server platform)
      hj hdone hquiet
    have hstore : ((server platform).scriptState
        (prefixStore platform ip port epoch store device k) (fun _ => none)
        (refresh device ip' port' now) refreshSent [(0, .tcpData ip' port' [value])] done j).store =
          (server platform).storeAfter 0 (prefixStore platform ip port epoch store device k)
            (refresh device ip' port' now) := by
      rw [Pipeline.Client.scriptState, List.take_of_length_le hall.ge]
    rw [hstore, restored_refresh platform ip' port' now
      (admits_prefixStore_record platform ip port epoch hunregistered.record k)]
    constructor
    · rintro ⟨hfields, hfieldsTable⟩
      right
      by_contra hunfinished
      have hfour : 4 < k := by
        by_contra hle
        rcases hfields "ip" (by decide) with hne | haddress
        · exact absurd hne (by decide)
        · rw [prefixStore_address platform ip port epoch hunregistered (by omega)] at haddress
          cases haddress
      have hlast := hfieldsTable 1023 (by decide)
      rw [prefixStore_table_isSome platform ip port epoch hunregistered.table (by decide)] at hlast
      omega
    · rintro (hle | hfinished)
      · omega
      · refine ⟨fun field hfield => Or.inr ?_, fun i hi => ?_⟩
        · exact prefixStore_fields platform ip port epoch hunregistered.record (by omega) hfield
        · rw [prefixStore_table_isSome platform ip port epoch hunregistered.table hi]
          omega
  · -- The device is not registered yet, so the PING registers it as if it were the first.
    have hfresh := unregistered_prefixStore platform ip port epoch hunregistered hearly
    obtain ⟨done, j, hj, hdone, hrun⟩ :=
      run_ping_new platform hping hfresh.absent ip' port' now hfree
    rw [hrun] at hquiet ⊢
    have hall := (script_registration platform ip' port' now _ hfresh.absent).quiescent
      (server platform) hj hdone hquiet
    have hstore : ((server platform).scriptState
        (prefixStore platform ip port epoch store device k) (fun _ => none)
        (registration platform device ip' port' now) registrationSent
        [(0, .tcpData ip' port' [value])] done j).store =
          (server platform).storeAfter 0 (prefixStore platform ip port epoch store device k)
            (registration platform device ip' port' now) := by
      rw [Pipeline.Client.scriptState, List.take_of_length_le hall.ge]
    rw [hstore]
    exact iff_of_true (restored_registration platform ip' port' now hfresh) (Or.inl hearly)

/-- A server that stops while it registers a device, starts again and completely
handles one further PING of the device has the record and the table of the device
exactly if it stopped before the announcement or after the last command. -/
theorem crash_repaired_iff {again : Resp.Value String} (hunregistered : Unregistered store device)
    (hping : IsPingOf platform value device) (hagain : IsPingOf platform again device)
    (ip ip' : String) (port port' now now' : Nat) {before after : List Action}
    (hbefore : Pipeline.Client.EventFree before) (hafter : Pipeline.Client.EventFree after)
    (hquiet : ((server platform).run (boot ((server platform).run (boot store)
      (.event (.tcpData ip port [value]) now :: before)).store)
      (.event (.tcpData ip' port' [again]) now' :: after)).Quiescent) :
    Restored ((server platform).run (boot ((server platform).run (boot store)
        (.event (.tcpData ip port [value]) now :: before)).store)
        (.event (.tcpData ip' port' [again]) now' :: after)).store device ↔
      ((server platform).run (boot store)
          (.event (.tcpData ip port [value]) now :: before)).executed ≤ 2 ∨
        1030 ≤ ((server platform).run (boot store)
          (.event (.tcpData ip port [value]) now :: before)).executed := by
  obtain ⟨k, j, _, hk, hrun⟩ :=
    run_ping_new platform hping hunregistered.absent ip port now hbefore
  have hsent := (script_registration platform ip port now (fun _ => none)
    hunregistered.absent).sent_le j
  rw [length_registration] at hsent
  have hstore : ((server platform).scriptState store (fun _ => none)
      (registration platform device ip port now) registrationSent
      [(0, .tcpData ip port [value])] k j).store =
        prefixStore platform ip port now store device k := by
    rw [prefixStore]
    rfl
  rw [hrun, hstore] at hquiet ⊢
  exact restored_ping_iff platform hunregistered ip port now (hk.trans hsent) hagain ip' port' now'
    hafter hquiet

end Crash

theorem unregistered_empty (device : String) : Unregistered empty device := by
  constructor
  · trivial
  · simp [devices, setAt, empty]
  · trivial
  · rfl
  · rfl

/-- Stopped right after the announcement, a server never records the address. -/
theorem crash_after_announcement :
    ((server referencePlatform).run (boot ((server referencePlatform).run (boot empty)
        (.event (.tcpData "10.0.0.2" 49152 [samplePing]) 0 :: (rounds 2 ++ [.execute]))).store)
        (.event (.tcpData "10.0.0.2" 49153 [samplePing]) 5000 :: rounds 4)).Quiescent ∧
      ¬ Restored ((server referencePlatform).run (boot ((server referencePlatform).run (boot empty)
        (.event (.tcpData "10.0.0.2" 49152 [samplePing]) 0 :: (rounds 2 ++ [.execute]))).store)
        (.event (.tcpData "10.0.0.2" 49153 [samplePing]) 5000 :: rounds 4)).store
          "adc00000001" := by
  have hunregistered := unregistered_empty "adc00000001"
  have hcrashed : ((server referencePlatform).run (boot empty)
      (.event (.tcpData "10.0.0.2" 49152 [samplePing]) 0 :: (rounds 2 ++ [.execute]))).store =
        prefixStore referencePlatform "10.0.0.2" 49152 0 empty "adc00000001" 3 := by
    rw [← List.cons_append, Pipeline.Client.run_append,
      run_ping_new_rounds referencePlatform isPingOf_samplePing hunregistered.absent _ _ _
        (by decide), Pipeline.Client.run_cons, Pipeline.Client.run_nil,
      (script_registration referencePlatform _ _ _ _ hunregistered.absent).step_execute _ le_rfl
        (by decide), prefixStore]
    rfl
  have hknown : "adc00000001" ∈ devices
      (prefixStore referencePlatform "10.0.0.2" 49152 0 empty "adc00000001" 3) :=
    mem_devices_prefixStore referencePlatform _ _ _ hunregistered.typed (by decide)
  rw [hcrashed, run_ping_known_rounds referencePlatform isPingOf_samplePing hknown]
  refine ⟨⟨rfl, rfl⟩, ?_⟩
  intro hrestored
  have hfields := (restored_refresh referencePlatform "10.0.0.2" 49153 5000
    (admits_prefixStore_record referencePlatform "10.0.0.2" 49152 0 hunregistered.record 3)).mp
    hrestored
  rcases hfields.1 "ip" (by decide) with hne | haddress
  · exact absurd hne (by decide)
  · rw [prefixStore_address referencePlatform _ _ _ hunregistered (by decide)] at haddress
    cases haddress

/-- Stopped right before the announcement, the next PING registers the device. -/
theorem crash_before_announcement :
    Restored ((server referencePlatform).run (boot ((server referencePlatform).run (boot empty)
      (.event (.tcpData "10.0.0.2" 49152 [samplePing]) 0 :: rounds 2)).store)
      (.event (.tcpData "10.0.0.2" 49153 [samplePing]) 5000 :: rounds 1030)).store
        "adc00000001" := by
  have hunregistered := unregistered_empty "adc00000001"
  have hcrashed := store_ping_new_rounds referencePlatform isPingOf_samplePing
    hunregistered.absent "10.0.0.2" 49152 0 (show 2 ≤ 1030 by decide)
  refine (crash_repaired_iff referencePlatform hunregistered isPingOf_samplePing
    isPingOf_samplePing "10.0.0.2" "10.0.0.2" 49152 49153 0 5000 (eventFree_rounds 2)
    (eventFree_rounds 1030) ?_).mpr (Or.inl ?_)
  · have hfresh := unregistered_prefixStore referencePlatform "10.0.0.2" 49152 0 hunregistered
      (k := 2) (by decide)
    rw [hcrashed]
    exact quiescent_registration referencePlatform isPingOf_samplePing hfresh.absent _ _ _
  · rw [run_ping_new_rounds referencePlatform isPingOf_samplePing hunregistered.absent _ _ _
      (by decide)]
    rfl

/-! ## Unregistered devices of reachable states -/

/-- Nothing is recorded about the registration of a device before it is announced. -/
def Unlisted (s : State) : Prop :=
  ∀ device, Plain device → device ∉ devices s.store →
    fieldAt s.store (recordKey device) "ip" = none ∧ s.store (tableKey device) = none ∧
      ¬ Announced s device ∧ ¬ Awaits s (.pingHmset device)

theorem preserved_unlisted : (server platform).Preserved (recordGuard platform) Unlisted where
  event := by
    intro s event now hempty _ hguard hunlisted device hplain hnot
    change device ∉ devices (occurred platform s event now).store at hnot
    rw [devices_occurred platform now hempty] at hnot
    obtain ⟨haddress, htable, hannounced, hawaits⟩ := hunlisted device hplain hnot
    have hnothing : ∀ b ∈ (occurred platform s event now).inbox, b ∈ s.inbox ∨
        (∀ ip port epoch, b.callback ≠ .pingSadd device ip port epoch) ∧
          b.callback ≠ .pingHmset device := by
      intro b hmem
      rcases mem_inbox_occurred platform hempty hmem with hold | ⟨_, hignored | hasked⟩
      · exact Or.inl hold
      · right
        simp [hignored]
      · right
        obtain ⟨command, hstarts, _⟩ := hasked
        obtain ⟨ordinal, reply, callback⟩ := b
        cases hstarts <;> simp
    refine ⟨?_, ?_, ?_, ?_⟩
    · change fieldAt (occurred platform s event now).store (recordKey device) "ip" = none
      rcases fieldAt_occurred platform now hempty (hguard.1.1.1 event now rfl) hguard.2 device with
        hsame | ⟨port, hnew⟩
      · rw [hsame, haddress]
      · rw [hnew, changed_of_not_mem _ _ _ (by decide) (by simp), haddress]
    · exact (occurred_table platform now hempty event hplain).trans htable
    · rintro ⟨ip, port, epoch, b, hmem, hcallback⟩
      rcases hnothing b hmem with hold | ⟨hother, _⟩
      · exact hannounced ⟨ip, port, epoch, b, hold, hcallback⟩
      · exact hother ip port epoch hcallback
    · rintro ⟨b, hmem, hcallback⟩
      rcases hnothing b hmem with hold | ⟨_, hother⟩
      · exact hawaits ⟨b, hold, hcallback⟩
      · exact hother hcallback
  deliver := by
    intro s a rest now hempty _ hinbox hguard hunlisted device hplain hnot
    change device ∉ devices (delivered platform s a rest now).store at hnot
    have hfirst : a ∈ s.inbox := hinbox ▸ List.mem_cons_self
    have hrest : ∀ b ∈ rest, b ∈ s.inbox := fun b hmem => hinbox ▸ List.mem_cons_of_mem _ hmem
    have hdevices : devices (delivered platform s a rest now).store =
        (registered a.callback a.reply).elim (devices s.store) fun new =>
          insert new (devices s.store) := by
      rw [delivered_store platform hempty]
      exact devices_replyStore platform hguard.1.2.typed
    have hold : device ∉ devices s.store := by
      intro hmem
      apply hnot
      rw [delivered_store platform hempty]
      exact devices_subset_replyStore platform hguard.1.2.typed hmem
    obtain ⟨haddress, htable, hannounced, hawaits⟩ := hunlisted device hplain hold
    refine ⟨?_, ?_, ?_, ?_⟩
    · change fieldAt (delivered platform s a rest now).store (recordKey device) "ip" = none
      rcases fieldAt_delivered platform now hempty hinbox hguard.1.2 hguard.2 device with
        ⟨_, hsame⟩ | ⟨pairs, counts, hrecords, hnew⟩
      · rw [hsame, haddress]
      · obtain ⟨ordinal, reply, callback⟩ := a
        cases hrecords with
        | registration => exact absurd ⟨_, _, _, _, hfirst, rfl⟩ hannounced
        | _ => rw [hnew, changed_of_not_mem _ _ _ (by decide) (by simp), haddress]
    · change (delivered platform s a rest now).store (tableKey device) = none
      rcases delivered_table platform a rest now hempty hplain with
        ⟨_, hsame⟩ | ⟨function, hwritten, _⟩
      · rw [hsame, htable]
      · have hokay := hguard.1.2.okay a hfirst
        obtain ⟨ordinal, reply, callback⟩ := a
        cases callback with
        | pingHmset other =>
            cases hwritten
            exact absurd ⟨_, hfirst, rfl⟩ hawaits
        | functionChange other newFunction =>
            simp only [rewritten] at hwritten
            split at hwritten
            next hfound =>
                obtain ⟨_, _, heq⟩ := Option.map_eq_some_iff.mp hwritten
                obtain ⟨rfl, _⟩ := Prod.mk.inj heq
                exact absurd (hokay hfound) hold
            next => cases hwritten
        | _ => cases hwritten
    · rintro ⟨ip, port, epoch, b, hmem, hcallback⟩
      rcases mem_inbox_delivered platform hempty hmem with hlater | ⟨_, hignored | hasked⟩
      · exact hannounced ⟨ip, port, epoch, b, hrest b hlater, hcallback⟩
      · rw [hignored] at hcallback
        cases hcallback
      · -- The announcement is sent together with its request, so the device is listed.
        obtain ⟨command, hfollows, _⟩ := hasked
        rw [hcallback] at hfollows
        obtain ⟨ordinal, reply, callback⟩ := a
        cases hfollows with
        | pingSadd hnew =>
            apply hnot
            simp only [registered, hnew, Bool.false_eq_true, if_false, Option.elim_some]
              at hdevices
            rw [hdevices]
            exact Finset.mem_insert_self _ _
    · rintro ⟨b, hmem, hcallback⟩
      rcases mem_inbox_delivered platform hempty hmem with hlater | ⟨_, hignored | hasked⟩
      · exact hawaits ⟨b, hrest b hlater, hcallback⟩
      · rw [hignored] at hcallback
        cases hcallback
      · obtain ⟨command, hfollows, _⟩ := hasked
        rw [hcallback] at hfollows
        obtain ⟨ordinal, reply, callback⟩ := a
        cases hfollows with
        | pingHmset => exact absurd ⟨_, _, _, _, hfirst, rfl⟩ hannounced

/-- Whenever the server is at rest, every plain device that is not registered is
as one that has never been. -/
theorem unregistered_of_run {schedule : List Action} (hplain : PlainSchedule platform schedule)
    (hquiet : ((server platform).run (boot empty) schedule).Quiescent) {device : String}
    (hdevice : Plain device)
    (habsent : device ∉ devices ((server platform).run (boot empty) schedule).store) :
    Unregistered ((server platform).run (boot empty) schedule).store device := by
  have hregular := (preserved_regular platform).run (server platform) (boot empty) schedule
    (guarded_of_plainSchedule platform _ hplain) (regular_boot_empty platform)
  have htyped := (preserved_typedRecords platform).run (server platform) (boot empty) schedule
    (guarded_regular platform hplain) (typedRecords_boot_empty platform)
  have hunlisted := (preserved_unlisted platform).run (server platform) (boot empty) schedule
    (guarded_record platform hplain) ?_
  · rw [(server platform).flush_of_quiescent hquiet] at hregular htyped hunlisted
    obtain ⟨haddress, htable, _, _⟩ := hunlisted device hdevice habsent
    exact ⟨hregular.typed, habsent, htyped device, haddress, htable⟩
  · intro device _ _
    refine ⟨rfl, rfl, ?_, ?_⟩
    · rintro ⟨_, _, _, _, hmem, _⟩
      cases hmem
    · rintro ⟨_, hmem, _⟩
      cases hmem

end RealTimeWs
