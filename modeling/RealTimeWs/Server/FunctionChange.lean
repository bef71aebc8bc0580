import RealTimeWs.Pipeline.Timing
import RealTimeWs.Server.Delivery
import RealTimeWs.Server.Registration
import RealTimeWs.Server.Trace

/-! # The recorded function and the table

A request to change the function writes the table and the name in one turn, the
registration in two. Between those two turns of a registration no other function
may be written, or the table ends up linear under another name.
-/

namespace RealTimeWs

open Redis FunctionsService

variable (platform : Platform)

theorem name_injective : Function.Injective Allowed.name := by
  intro left right heq
  have hleft := find_eq_some.mpr (rfl : left.name = left.name)
  rw [heq, find_eq_some.mpr rfl] at hleft
  exact (Option.some.inj hleft).symm

/-- No table but the linear one is written for a device whose registration has
sent the record and not yet the table. -/
def changeGuard : State → Action → Prop := fun s action =>
  ∀ now a rest device function, action = .deliver now → s.inbox = a :: rest →
    rewritten a.callback a.reply = some (device, function) → function ≠ .linear →
      ¬ Awaits s (.pingHmset device)

/-- The table belongs to the recorded function, or is about to. -/
structure Agreed (s : State) (device : String) : Prop where
  linear : Awaits s (.pingHmset device) →
    fieldAt s.store (recordKey device) "function" = some Allowed.linear.name
  table : ∀ function : Allowed,
    fieldAt s.store (recordKey device) "function" = some function.name →
      s.store (tableKey device) = some (.hash (table platform.curves function)) ∨
        function = .linear ∧ Awaits s (.pingHmset device)

/-- A table is only rewritten together with the record, except at the end of a
registration. -/
theorem rewritten_cases {callback : Callback} {reply : Reply} (now : Nat)
    {device : String} {function : Allowed}
    (hwritten : rewritten callback reply = some (device, function)) :
    callback = .pingHmset device ∧ function = .linear ∨
      ∃ newFunction, callback = .functionChange device newFunction ∧
        ∃ ops, recorded callback reply now = some (device, ops) := by
  cases callback with
  | pingHmset other =>
      cases hwritten
      exact Or.inl ⟨rfl, rfl⟩
  | functionChange other newFunction =>
      right
      have hdevice : other = device := by
        simp only [rewritten] at hwritten
        split at hwritten
        · obtain ⟨_, _, heq⟩ := Option.map_eq_some_iff.mp hwritten
          exact (Prod.mk.inj heq).1
        · cases hwritten
      subst hdevice
      refine ⟨newFunction, rfl, [.hmset [("function", function.name)]], ?_⟩
      rw [recorded, hwritten]
      rfl
  | _ => cases hwritten

section Delivered

variable {s : State} {a : Pipeline.Answer Reply Callback}
variable {rest : List (Pipeline.Answer Reply Callback)} {now : Nat} (hempty : s.outbox = [])
variable (hinbox : s.inbox = a :: rest) {device : String}

include hempty hinbox

/-- The reply to a record that is outstanding was so before or has just been asked for. -/
theorem awaits_pingHmset_delivered
    (hawaits : Awaits (delivered platform s a rest now) (.pingHmset device)) :
    Awaits s (.pingHmset device) ∨
      ∃ ip port epoch, a.callback = .pingSadd device ip port epoch := by
  obtain ⟨b, hmem, hcallback⟩ := hawaits
  rcases mem_inbox_delivered platform hempty hmem with hold | ⟨_, hignored | hasked⟩
  · exact Or.inl ⟨b, hinbox ▸ List.mem_cons_of_mem _ hold, hcallback⟩
  · rw [hignored] at hcallback
    cases hcallback
  · obtain ⟨command, hfollows, _⟩ := hasked
    rw [hcallback] at hfollows
    obtain ⟨ordinal, reply, callback⟩ := a
    cases hfollows with
    | pingHmset => exact Or.inr ⟨_, _, _, rfl⟩

variable (hregular : Regular s) (htyped : TypedRecords s)

include hregular htyped

variable (now device) in
/-- What a reply does to the recorded function. -/
theorem function_delivered :
    (∀ ops, recorded a.callback a.reply now ≠ some (device, ops)) ∧
        fieldAt (delivered platform s a rest now).store (recordKey device) "function" =
          fieldAt s.store (recordKey device) "function" ∨
      (∃ ip port epoch, a.callback = .pingSadd device ip port epoch) ∧
        fieldAt (delivered platform s a rest now).store (recordKey device) "function" =
          some Allowed.linear.name ∨
      (∃ function, rewritten a.callback a.reply = some (device, function) ∧
        fieldAt (delivered platform s a rest now).store (recordKey device) "function" =
          some function.name) ∨
      rewritten a.callback a.reply = none ∧
        (∀ ip port epoch, a.callback ≠ .pingSadd device ip port epoch) ∧
        fieldAt (delivered platform s a rest now).store (recordKey device) "function" =
          fieldAt s.store (recordKey device) "function" := by
  rcases fieldAt_delivered platform now hempty hinbox hregular htyped device with
    ⟨hnone, hsame⟩ | ⟨pairs, counts, hrecords, hnew⟩
  · exact Or.inl ⟨hnone, by rw [hsame]⟩
  · right
    rw [hnew, changed_of_ne _ _ _ (by decide)]
    obtain ⟨ordinal, reply, callback⟩ := a
    cases hrecords with
    | registration =>
        left
        exact ⟨⟨_, _, _, rfl⟩, by simp [Allowed.name]⟩
    | function hwritten =>
        right
        left
        exact ⟨_, hwritten, by simp⟩
    | _ =>
        right
        right
        refine ⟨rfl, by simp, ?_⟩
        exact Hash.setAll_of_not_mem _ _ _ (by simp)

end Delivered

theorem preserved_agreed : (server platform).Preserved
    (fun s action => recordGuard platform s action ∧ changeGuard s action)
    (fun s => ∀ device, Plain device → Agreed platform s device) where
  event := by
    intro s event now hempty _ hguard hagreed device hplain
    change Agreed platform (occurred platform s event now) device
    have hsame : fieldAt (occurred platform s event now).store (recordKey device) "function" =
        fieldAt s.store (recordKey device) "function" := by
      rcases fieldAt_occurred platform now hempty (hguard.1.1.1.1 event now rfl) hguard.1.2
        device with hsame | ⟨port, hnew⟩
      · rw [hsame]
      · rw [hnew, changed_of_not_mem _ _ _ (by decide) (by simp)]
    have htable := occurred_table platform now hempty event hplain
    refine ⟨?_, ?_⟩
    · rintro ⟨b, hmem, hcallback⟩
      rw [hsame]
      rcases mem_inbox_occurred platform hempty hmem with hold | ⟨_, hignored | hasked⟩
      · exact (hagreed device hplain).linear ⟨b, hold, hcallback⟩
      · rw [hignored] at hcallback
        cases hcallback
      · obtain ⟨command, hstarts, _⟩ := hasked
        rw [hcallback] at hstarts
        cases hstarts
    · intro function hfunction
      rw [hsame] at hfunction
      rw [htable]
      rcases (hagreed device hplain).table function hfunction with hheld | ⟨hlinear, hawaits⟩
      · exact Or.inl hheld
      · exact Or.inr ⟨hlinear, awaits_occurred platform now hempty event hawaits⟩
  deliver := by
    intro s a rest now hempty _ hinbox hguard hagreed device hplain
    change Agreed platform (delivered platform s a rest now) device
    have hold := hagreed device hplain
    have hfunction := function_delivered platform now hempty hinbox device
      hguard.1.1.2 hguard.1.2
    have htable := delivered_table platform a rest now hempty hplain
    refine ⟨?_, ?_⟩
    · intro hawaits
      rcases hfunction with ⟨hnone, hsame⟩ | ⟨_, hlinear⟩ | ⟨function, hwritten, hnew⟩ |
          ⟨_, hother, hsame⟩
      · rw [hsame]
        rcases awaits_pingHmset_delivered platform hempty hinbox hawaits with
          hbefore | ⟨ip, port, epoch, hsadd⟩
        · exact hold.linear hbefore
        · exact absurd (by rw [hsadd]; rfl) (hnone _)
      · exact hlinear
      · -- The guard leaves only the linear function to be written here.
        rcases awaits_pingHmset_delivered platform hempty hinbox hawaits with
          hbefore | ⟨ip, port, epoch, hsadd⟩
        · by_cases hlinear : function = .linear
          · rw [hnew, hlinear]
          · exact absurd hbefore
              (hguard.2 now a rest device function rfl hinbox hwritten hlinear)
        · rw [hsadd] at hwritten
          cases hwritten
      · rw [hsame]
        rcases awaits_pingHmset_delivered platform hempty hinbox hawaits with
          hbefore | ⟨ip, port, epoch, hsadd⟩
        · exact hold.linear hbefore
        · exact absurd hsadd (hother ip port epoch)
    · intro function hname
      have hkeep : ∀ (_ : fieldAt (delivered platform s a rest now).store (recordKey device)
          "function" = fieldAt s.store (recordKey device) "function")
          (_ : ∀ written, rewritten a.callback a.reply = some (device, written) →
            a.callback = .pingHmset device ∧ written = .linear),
          (delivered platform s a rest now).store (tableKey device) =
              some (.hash (FunctionsService.table platform.curves function)) ∨
            function = .linear ∧ Awaits (delivered platform s a rest now) (.pingHmset device) := by
        intro hsame hend
        rw [hsame] at hname
        rcases htable with ⟨hnone, hkept⟩ | ⟨written, hwritten, hnew⟩
        · rw [hkept]
          rcases hold.table function hname with hheld | ⟨hlinear, hawaits⟩
          · exact Or.inl hheld
          · rcases awaits_delivered platform now hempty hinbox hawaits with hhead | hlater
            · exact absurd (by rw [hhead]; rfl) (hnone .linear)
            · exact Or.inr ⟨hlinear, hlater⟩
        · -- The end of a registration: the recorded function is still the linear one.
          obtain ⟨hhead, rfl⟩ := hend written hwritten
          have hlinear := hold.linear ⟨a, hinbox ▸ List.mem_cons_self, hhead⟩
          have heq : function = .linear :=
            name_injective (Option.some.inj (hname.symm.trans hlinear))
          rw [hnew, heq]
          exact Or.inl rfl
      rcases hfunction with ⟨hnone, hsame⟩ | ⟨⟨ip, port, epoch, hsadd⟩, hlinear⟩ |
          ⟨written, hwritten, hnew⟩ | ⟨hnothing, _, hsame⟩
      · apply hkeep hsame
        intro written hwritten
        rcases rewritten_cases now hwritten with hend | ⟨_, _, ops, hops⟩
        · exact hend
        · exact absurd hops (hnone ops)
      · have heq : function = .linear :=
          name_injective (Option.some.inj (hname.symm.trans hlinear))
        refine Or.inr ⟨heq, ?_⟩
        apply exists_inbox_delivered platform hempty
        rw [hsadd]
        exact .pingHmset
      · have heq : function = written :=
          name_injective (Option.some.inj (hname.symm.trans hnew))
        rcases htable with ⟨hnone, _⟩ | ⟨other, hother, htable⟩
        · exact absurd hwritten (hnone written)
        · rw [hwritten] at hother
          cases hother
          rw [htable, heq]
          exact Or.inl rfl
      · apply hkeep hsame
        intro written hwritten
        rw [hnothing] at hwritten
        cases hwritten

theorem agreed_boot_empty (device : String) :
    Agreed platform ((server platform).flush (boot empty)) device := by
  refine ⟨?_, ?_⟩
  · rintro ⟨b, hmem, _⟩
    cases hmem
  · intro function hname
    cases hname

/-- In every run that writes no other function into a registration that has sent
its record, a recorded function and the table agree whenever no reply is
outstanding. -/
theorem function_matches_table {schedule : List Action} (hplain : PlainSchedule platform schedule)
    (hguarded : (server platform).Guarded changeGuard (boot empty) schedule)
    (hquiet : ((server platform).run (boot empty) schedule).Quiescent) {device : String}
    (hmem : device ∈ devices ((server platform).run (boot empty) schedule).store) {text : String}
    (htext : fieldAt ((server platform).run (boot empty) schedule).store (recordKey device)
      "function" = some text) :
    ∃ function : Allowed, function.name = text ∧
      ((server platform).run (boot empty) schedule).store (tableKey device) =
        some (.hash (table platform.curves function)) := by
  have hrecord := guarded_record platform hplain
  have hregular := (preserved_regular platform).run (server platform) (boot empty) schedule
    (guarded_of_plainSchedule platform _ hplain) (regular_boot_empty platform)
  have hnamed := (preserved_named platform).run (server platform) (boot empty) schedule hrecord
    (named_boot_empty platform)
  have hagreed := (preserved_agreed platform).run (server platform) (boot empty) schedule
    (hrecord.and (server platform) hguarded) fun device _ => agreed_boot_empty platform device
  rw [(server platform).flush_of_quiescent hquiet] at hregular hnamed hagreed
  obtain ⟨function, rfl⟩ := hnamed device text htext
  refine ⟨function, rfl, ?_⟩
  rcases (hagreed device (hregular.plain device hmem)).table function htext with
    htable | ⟨_, hawaits⟩
  · exact htable
  · exact absurd hawaits (not_awaits_of_quiescent hquiet _)

/-! ## Runs that meet the condition -/

/-- A run without requests to change a function meets the condition. -/
theorem guarded_change_of_no_request {schedule : List Action}
    (hnone : ∀ device newFunction now,
      .event (.functionChange device newFunction) now ∉ schedule) :
    (server platform).Guarded changeGuard (boot empty) schedule := by
  have hevents := (server platform).guarded_of_events
    (fun event => ∀ device newFunction, event ≠ .functionChange device newFunction)
    (boot empty) schedule (by
      rintro event now hmem device newFunction rfl
      exact hnone device newFunction now hmem)
  have hpreserved : (server platform).Preserved
      (fun _ action => ∀ event now, action = .event event now →
        ∀ device newFunction, event ≠ .functionChange device newFunction)
      (fun s => ∀ a ∈ s.inbox, ∀ device newFunction,
        a.callback ≠ .functionChange device newFunction) := by
    constructor
    · intro s event now hempty _ hguard hquiet b hmem device newFunction hcallback
      rcases mem_inbox_occurred platform hempty hmem with hold | ⟨_, hignored | hasked⟩
      · exact hquiet b hold device newFunction hcallback
      · rw [hignored] at hcallback
        cases hcallback
      · obtain ⟨command, hstarts, _⟩ := hasked
        rw [hcallback] at hstarts
        cases hstarts with
        | functionChange => exact hguard _ now rfl device newFunction rfl
    · intro s a rest now hempty _ hinbox _ hquiet b hmem device newFunction hcallback
      rcases mem_inbox_delivered platform hempty hmem with hold | ⟨_, hignored | hasked⟩
      · exact hquiet b (hinbox ▸ List.mem_cons_of_mem _ hold) device newFunction hcallback
      · rw [hignored] at hcallback
        cases hcallback
      · obtain ⟨command, hfollows, _⟩ := hasked
        rw [hcallback] at hfollows
        obtain ⟨ordinal, reply, asked⟩ := a
        cases hfollows
  refine (hpreserved.guarded (server platform) (boot empty) schedule hevents ?_).imp
    (server platform) ?_
  · intro a hmem
    cases hmem
  · rintro s action ⟨_, hquiet⟩ now a rest device function _ hinbox hwritten hother
    rcases rewritten_cases now hwritten with ⟨_, hlinear⟩ | ⟨newFunction, hcallback, _⟩
    · exact absurd hlinear hother
    · exact absurd hcallback (hquiet a (hinbox ▸ List.mem_cons_self) device newFunction)

/-- The reply belongs to a PING. -/
def OfPing : Callback → Prop
  | .pingSismember _ _ _ _ | .pingSadd _ _ _ _ | .pingHmset _ => True
  | _ => False

/-- So does a run that begins at rest and brings no PING. -/
theorem guarded_change_of_no_ping {s : State} {schedule : List Action} (hquiet : s.Quiescent)
    (hnone : ∀ ip port values now, .event (.tcpData ip port values) now ∉ schedule) :
    (server platform).Guarded changeGuard s schedule := by
  have hevents := (server platform).guarded_of_events
    (fun event => ∀ ip port values, event ≠ .tcpData ip port values) s schedule (by
      rintro event now hmem ip port values rfl
      exact hnone ip port values now hmem)
  have hpreserved : (server platform).Preserved
      (fun _ action => ∀ event now, action = .event event now →
        ∀ ip port values, event ≠ .tcpData ip port values)
      (fun s => ∀ a ∈ s.inbox, ¬ OfPing a.callback) := by
    constructor
    · intro s event now hempty _ hguard hother b hmem hping
      rcases mem_inbox_occurred platform hempty hmem with hold | ⟨_, hignored | hasked⟩
      · exact hother b hold hping
      · rw [hignored] at hping
        exact hping
      · obtain ⟨command, hstarts, _⟩ := hasked
        generalize b.callback = callback at hstarts hping
        cases hstarts with
        | ping => exact hguard _ now rfl _ _ _ rfl
        | _ => exact hping
    · intro s a rest now hempty _ hinbox _ hother b hmem hping
      rcases mem_inbox_delivered platform hempty hmem with hold | ⟨_, hignored | hasked⟩
      · exact hother b (hinbox ▸ List.mem_cons_of_mem _ hold) hping
      · rw [hignored] at hping
        exact hping
      · obtain ⟨command, hfollows, _⟩ := hasked
        have hasking := hother a (hinbox ▸ List.mem_cons_self)
        obtain ⟨ordinal, reply, asking⟩ := a
        generalize b.callback = callback at hfollows hping
        cases hfollows with
        | pingSadd => exact hasking trivial
        | pingHmset => exact hasking trivial
        | _ => exact hping
  refine (hpreserved.guarded (server platform) s schedule hevents ?_).imp (server platform) ?_
  · rw [(server platform).flush_of_quiescent hquiet]
    intro a hmem
    rw [hquiet.2] at hmem
    cases hmem
  · rintro s action ⟨_, hother⟩ now a rest device function _ _ _ _ ⟨b, hmem, hcallback⟩
    apply hother b hmem
    rw [hcallback]
    trivial

theorem length_commands (curves : Curves) (function : Allowed) (device : String) :
    (commands curves function device).length = 1025 := by
  simp [commands, entries]

theorem callbacks_silent (commands : List Command) :
    (silent commands).map Prod.snd = List.replicate commands.length .ignored := by
  induction commands with
  | nil => rfl
  | cons command rest ih => exact congrArg _ ih

/-- The turn that writes an allowed function for a registered device. -/
theorem change_turn (device : String) (function : Allowed) (now ordinal : Nat) {reply : Reply}
    (hfound : truthy reply = true) (memory : Memory) :
    ((onReply platform (.functionChange device (some function.name)) ordinal reply now
        memory).sends.map Prod.snd = List.replicate 1026 .ignored) ∧
      (onReply platform (.functionChange device (some function.name)) ordinal reply now
        memory).thrown = false ∧
      replyWrites platform.curves (.functionChange device (some function.name)) reply now =
        commands platform.curves function device ++
          [⟨recordKey device, .hmset [("function", function.name)]⟩] := by
  have hfind : find function.name = some function := find_eq_some.mpr rfl
  refine ⟨?_, ?_, ?_⟩
  · simp only [onReply, DeviceController.functionChange, hfound, if_true, Option.bind_some,
      hfind, finish]
    rw [callbacks_silent, List.length_append, length_commands]
    rfl
  · simp [onReply, DeviceController.functionChange, hfound, hfind, finish]
  · simp [replyWrites, registered, rewritten, linked, recorded, counted, hfound, hfind]

/-- A device registers, and its function is changed when it is at rest. -/
@[irreducible]
def changedSchedule : List Action :=
  (.event (.tcpData "10.0.0.2" 49152 [samplePing]) 0 :: rounds 1030) ++
    eventRound (.functionChange "adc00000001" (some "boolean")) 1 1 ++ replyRound 1 1026 ++
    List.replicate 1026 (.deliver 1)

/-- The request finds the device registered. -/
def changedReplies : Callback → Reply → Prop
  | .functionChange _ _, reply => truthy reply = true
  | _, _ => True

theorem trace_changed : ∃ s, Trace referencePlatform empty changedReplies changedSchedule s []
    (registrationWrites referencePlatform "adc00000001" "10.0.0.2" 49152 0 ++ [] ++
      (commands referencePlatform.curves .boolean "adc00000001" ++
        [⟨recordKey "adc00000001", .hmset [("function", "boolean")]⟩])) := by
  have hignored : ∀ reply, changedReplies .ignored reply := fun _ => trivial
  -- the replies to the table stay abstract, they are too many to be looked at
  obtain ⟨changes, hchanges⟩ : ∃ callbacks, callbacks = List.replicate 1026 Callback.ignored :=
    ⟨_, rfl⟩
  obtain ⟨_, h₁⟩ := trace_registration referencePlatform "adc00000001" "10.0.0.2" 49152 0
    isPingOf_samplePing changedReplies
  have h₂ := h₁.event (.functionChange "adc00000001" (some "boolean")) 1 1
    [.functionChange "adc00000001" (some "boolean")] [] rfl (fun _ => ⟨rfl, rfl⟩) rfl hignored (by
      intro command callback ordinal hstarts
      cases hstarts with
      | functionChange =>
          simp only [changedReplies]
          rw [devices_loop referencePlatform "10.0.0.2" 49152 rfl]
          simp [Operation.reply, truthy])
  obtain ⟨_, _, _, _, h₃⟩ := h₂.deliver 1 1026 changes
    (commands referencePlatform.curves .boolean "adc00000001" ++
      [⟨recordKey "adc00000001", .hmset [("function", "boolean")]⟩])
    (by rw [hchanges, List.length_replicate])
    (by
      intro ordinal reply memory hreply
      rw [hchanges]
      exact change_turn referencePlatform "adc00000001" .boolean 1 ordinal hreply memory) hignored
    (fun _ _ _ _ _ _ hfollows => by cases hfollows)
  have h₄ := h₃.finish (n := 1026) (by
    change changes.length = 1026
    rw [hchanges, List.length_replicate])
    (by
      intro callback hmem
      exact List.eq_of_mem_replicate (hchanges ▸ hmem)) 1
  unfold changedSchedule
  exact ⟨_, h₄⟩

/-- After a registration and a change on its own the table is the new one. -/
theorem function_matches_table_changed :
    ∃ function : Allowed, function.name = "boolean" ∧
      ((server referencePlatform).run (boot empty) changedSchedule).store
          (tableKey "adc00000001") =
        some (.hash (table referencePlatform.curves function)) := by
  obtain ⟨s, htrace⟩ := trace_changed
  have hquiet : ((server referencePlatform).run (boot empty) changedSchedule).Quiescent := by
    rw [htrace.run]
    exact ⟨htrace.outbox, List.map_eq_nil_iff.mp htrace.callbacks⟩
  have hkeys : ∀ key, tableKey "adc00000001" ≠ key →
      opsAt key (commands referencePlatform.curves .boolean "adc00000001") = [] := by
    intro key hne
    apply opsAt_of_key_ne
    intro command hmem
    rw [(commands_spec _ _ _ command hmem).1]
    exact hne
  have hmem : "adc00000001" ∈
      devices ((server referencePlatform).run (boot empty) changedSchedule).store := by
    have hstore : s.store devicesKey = some (.set {"adc00000001"}) := by
      rw [htrace.store, devices_loop referencePlatform "10.0.0.2" 49152]
      simp [opsAt_append, opsAt_cons, hkeys _ (tableKey_ne_devicesKey _),
        (recordKey_ne_devicesKey _)]
    rw [htrace.run]
    simp [devices, setAt, hstore]
  have hrecorded : fieldAt ((server referencePlatform).run (boot empty) changedSchedule).store
      (recordKey "adc00000001") "function" = some "boolean" := by
    have hplain : Plain "adc00000001" := by decide
    rw [htrace.run, fieldAt, htrace.store, opsAt_append, opsAt_append, opsAt_append,
      applyAll_append, applyAll_append, applyAll_append,
      show empty (recordKey "adc00000001") = none from rfl, record_registrationWrites,
      hkeys _ (recordKey_ne_tableKey _ hplain).symm]
    rfl
  have hplain : PlainSchedule referencePlatform changedSchedule := by
    intro event now hmem
    unfold changedSchedule eventRound replyRound at hmem
    simp only [List.mem_append, List.mem_cons, List.mem_replicate, reduceCtorEq,
      and_false, or_false, Pipeline.Action.event.injEq] at hmem
    rcases hmem with (⟨rfl, _⟩ | hround) | ⟨rfl, _⟩
    · intro value hvalue _
      rw [List.mem_singleton.mp hvalue, isPingOf_samplePing.2]
      decide
    · exact absurd hround (eventFree_rounds 1030 event now)
    · trivial
  have hguarded : (server referencePlatform).Guarded changeGuard (boot empty) changedSchedule := by
    unfold changedSchedule
    rw [List.append_assoc, List.append_assoc]
    refine (server referencePlatform).guarded_append.mpr ⟨?_, ?_⟩
    · apply guarded_change_of_no_request
      intro device newFunction now hmem
      rcases List.mem_cons.mp hmem with heq | hround
      · cases heq
      · exact eventFree_rounds 1030 _ now hround
    · apply guarded_change_of_no_ping referencePlatform
      · exact quiescent_registration referencePlatform isPingOf_samplePing
          (Finset.notMem_empty _) "10.0.0.2" 49152 0
      · intro ip port values now hmem
        simp only [eventRound, replyRound, List.mem_append, List.mem_cons, List.mem_replicate,
          Pipeline.Action.event.injEq, reduceCtorEq, false_and, and_false, or_false] at hmem
  exact function_matches_table referencePlatform hplain hguarded hquiet hmem hrecorded

/-! ## A request that is answered during a registration -/

theorem table_linear_ne_boolean (curves : Curves) :
    table curves .linear ≠ table curves .boolean := by
  intro heq
  have hfield := congrFun heq (Nat.repr 1)
  rw [table_repr curves _ 1 (by decide), table_repr curves _ 1 (by decide),
    value_linear curves 1 (by decide), value_boolean_one] at hfield
  exact absurd hfield (by decide)

/-- The first PING of a device and a request to change its function, which finds
the device announced and is handled before the table is written. -/
@[irreducible]
def overtakingSchedule : List Action :=
  [] ++ eventRound (.tcpData "10.0.0.2" 49152 [samplePing]) 0 2 ++ replyRound 0 0 ++
    replyRound 0 2 ++ eventRound (.functionChange "adc00000001" (some "boolean")) 0 1 ++
    replyRound 0 1 ++ replyRound 0 0 ++ replyRound 0 1026 ++ replyRound 0 1025 ++
    List.replicate 2051 (.deliver 0)

theorem plainSchedule_overtaking : PlainSchedule referencePlatform overtakingSchedule := by
  intro event now hmem
  unfold overtakingSchedule eventRound replyRound at hmem
  simp only [List.mem_append, List.mem_cons, List.mem_replicate, List.not_mem_nil, reduceCtorEq,
    and_false, or_false, false_or, Pipeline.Action.event.injEq] at hmem
  rcases hmem with ⟨rfl, _⟩ | ⟨rfl, _⟩
  · intro value hvalue _
    rw [List.mem_singleton.mp hvalue, isPingOf_samplePing.2]
    decide
  · trivial

/-- The PING finds its device new, the request finds it registered. -/
def overtakingReplies : Callback → Reply → Prop
  | .pingSismember _ _ _ _, reply => truthy reply = false
  | .functionChange _ _, reply => truthy reply = true
  | _, _ => True

/-- The writes of the registration and of the request, in order. -/
def overtakingWrites : List Command :=
  [] ++ [⟨msgCountKey, .incr⟩] ++ [] ++
  [⟨devicesKey, .sadd "adc00000001"⟩, ⟨recordKey "adc00000001", .hincrby "msg_count" 1⟩] ++ [] ++
  [⟨recordKey "adc00000001", .hmset [("ip", "10.0.0.2"), ("port", Nat.repr 49152),
    ("active", "true"), ("last_ping", Nat.repr 0), ("function", "linear")]⟩] ++ [] ++
  (commands referencePlatform.curves .boolean "adc00000001" ++
    [⟨recordKey "adc00000001", .hmset [("function", "boolean")]⟩]) ++
  commands referencePlatform.curves .linear "adc00000001"

theorem trace_overtaking : ∃ s, Trace referencePlatform empty overtakingReplies overtakingSchedule
    s [] overtakingWrites := by
  have hignored : ∀ reply, overtakingReplies .ignored reply := fun _ => trivial
  -- The replies to the two tables stay abstract, they are too many to be looked at.
  obtain ⟨changes, hchanges⟩ : ∃ callbacks, callbacks = List.replicate 1026 Callback.ignored :=
    ⟨_, rfl⟩
  obtain ⟨tables, htables⟩ : ∃ callbacks, callbacks = List.replicate 1025 Callback.ignored :=
    ⟨_, rfl⟩
  -- The PING arrives and finds the device new.
  have h₁ := (trace_boot referencePlatform empty overtakingReplies).event
    (.tcpData "10.0.0.2" 49152 [samplePing]) 0 2
    [.ignored, .pingSismember "adc00000001" "10.0.0.2" 49152 0]
    ([⟨msgCountKey, .incr⟩]) rfl (by
      intro memory
      have hping := isPingOf_samplePing.1
      have hdevice := isPingOf_samplePing.2
      simp [onEvent, TCP.data, TCP.responses, TCP.response, hping, hdevice]) rfl hignored (by
      intro command callback ordinal hstarts
      cases hstarts with
      | ping hmem hping => rfl)
  obtain ⟨_, _, _, _, h₂⟩ := h₁.deliver 0 0 [] [] rfl
    (fun _ _ _ _ => ⟨rfl, rfl, rfl⟩) hignored (fun _ _ _ _ _ _ hfollows => by cases hfollows)
  obtain ⟨_, _, _, _, h₃⟩ := h₂.deliver 0 2
    [.pingSadd "adc00000001" "10.0.0.2" 49152 0, .ignored]
    ([⟨devicesKey, .sadd "adc00000001"⟩,
      ⟨recordKey "adc00000001", .hincrby "msg_count" 1⟩]) rfl
    (by
      intro ordinal reply memory hreply
      have hnew : truthy reply = false := hreply
      simp [onReply, finish, TCP.pingSismember, silent, hnew, replyWrites, registered, rewritten,
        linked, recorded, counted]) hignored (by
      intro askedAt reply command asked ordinal _ hfollows
      cases hfollows with
      | pingSadd hnew => trivial)
  -- The request finds it registered.
  have h₄ := h₃.event (.functionChange "adc00000001" (some "boolean")) 0 1
    [.functionChange "adc00000001" (some "boolean")] [] rfl
    (fun _ => ⟨rfl, rfl⟩) rfl hignored (by
      intro command callback ordinal hstarts
      cases hstarts with
      | functionChange => rfl)
  -- The record is sent before the request is handled, the table after it.
  obtain ⟨_, _, _, _, h₅⟩ := h₄.deliver 0 1 [.pingHmset "adc00000001"]
    ([⟨recordKey "adc00000001", .hmset [("ip", "10.0.0.2"), ("port", Nat.repr 49152),
      ("active", "true"), ("last_ping", Nat.repr 0), ("function", "linear")]⟩]) rfl
    (fun _ _ _ _ => ⟨rfl, rfl, rfl⟩) hignored (by
      intro askedAt reply command asked ordinal _ hfollows
      cases hfollows with
      | pingHmset => trivial)
  obtain ⟨_, _, _, _, h₆⟩ := h₅.deliver 0 0 [] [] rfl
    (fun _ _ _ _ => ⟨rfl, rfl, rfl⟩) hignored (fun _ _ _ _ _ _ hfollows => by cases hfollows)
  obtain ⟨_, _, _, _, h₇⟩ := h₆.deliver 0 1026 changes
    (commands referencePlatform.curves .boolean "adc00000001" ++
      [⟨recordKey "adc00000001", .hmset [("function", "boolean")]⟩])
    (by rw [hchanges, List.length_replicate])
    (by
      intro ordinal reply memory hreply
      rw [hchanges]
      exact change_turn referencePlatform "adc00000001" .boolean 0 ordinal hreply memory) hignored
    (fun _ _ _ _ _ _ hfollows => by cases hfollows)
  obtain ⟨_, _, _, _, h₈⟩ := h₇.deliver 0 1025 tables
    (commands referencePlatform.curves .linear "adc00000001")
    (by rw [htables, List.length_replicate])
    (by
      intro ordinal reply memory _
      refine ⟨?_, rfl, ?_⟩
      · simp only [onReply, finish, TCP.pingHmset, FunctionsService.linear]
        rw [callbacks_silent, length_commands, htables]
      · simp [replyWrites, registered, rewritten, linked, recorded, counted]) hignored
    (fun _ _ _ _ _ _ hfollows => by cases hfollows)
  have h₉ := h₈.finish (n := 2051) (by
    change (changes ++ tables).length = 2051
    rw [List.length_append, hchanges, htables, List.length_replicate, List.length_replicate])
    (by
      intro callback hmem
      change callback ∈ changes ++ tables at hmem
      rcases List.mem_append.mp hmem with hchange | htable
      · exact List.eq_of_mem_replicate (hchanges ▸ hchange)
      · exact List.eq_of_mem_replicate (htables ▸ htable)) 0
  unfold overtakingSchedule overtakingWrites
  exact ⟨_, h₉⟩

/-- The recorded function is the requested one, the table stays the linear one. -/
theorem function_change_overtaken :
    PlainSchedule referencePlatform overtakingSchedule ∧
      ((server referencePlatform).run (boot empty) overtakingSchedule).Quiescent ∧
      "adc00000001" ∈
        devices ((server referencePlatform).run (boot empty) overtakingSchedule).store ∧
      fieldAt ((server referencePlatform).run (boot empty) overtakingSchedule).store
        (recordKey "adc00000001") "function" = some Allowed.boolean.name ∧
      ((server referencePlatform).run (boot empty) overtakingSchedule).store
        (tableKey "adc00000001") ≠
          some (.hash (table referencePlatform.curves .boolean)) := by
  obtain ⟨s, htrace⟩ := trace_overtaking
  have hkeys : ∀ key, tableKey "adc00000001" ≠ key → ∀ function,
      opsAt key (commands referencePlatform.curves function "adc00000001") = [] := by
    intro key hne function
    apply opsAt_of_key_ne
    intro command hmem
    rw [(commands_spec _ _ _ command hmem).1]
    exact hne
  have htables : ∀ function,
      opsAt (tableKey "adc00000001") (commands referencePlatform.curves function "adc00000001") =
        (commands referencePlatform.curves function "adc00000001").map Command.op := by
    intro function
    rw [opsAt_of_key_eq _ _ _ fun command hmem => (commands_spec _ _ _ command hmem).1,
      if_pos rfl]
  have hplain : Plain "adc00000001" := by decide
  rw [htrace.run]
  refine ⟨plainSchedule_overtaking, ⟨htrace.outbox, List.map_eq_nil_iff.mp htrace.callbacks⟩,
    ?_, ?_, ?_⟩
  · have hstore : s.store devicesKey = some (.set {"adc00000001"}) := by
      rw [htrace.store, overtakingWrites]
      simp [opsAt_append, opsAt_cons, hkeys _ (tableKey_ne_devicesKey _), Operation.update, empty]
    simp [devices, setAt, hstore]
  · rw [fieldAt, htrace.store, overtakingWrites]
    simp [opsAt_append, opsAt_cons, hkeys _ (recordKey_ne_tableKey _ hplain).symm,
      (recordKey_ne_devicesKey _).symm, (recordKey_ne_msgCountKey _).symm, Operation.update, empty,
      fieldsOf, Allowed.name]
  · rw [htrace.store, overtakingWrites]
    simp only [opsAt_append, htables, applyAll_append, applyAll_commands]
    intro heq
    exact table_linear_ne_boolean _ (Value.hash.inj (Option.some.inj heq))

end RealTimeWs