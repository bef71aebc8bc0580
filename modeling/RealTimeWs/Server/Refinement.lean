import RealTimeWs.Server.Serial

/-! # The registry in the database

The rest of the registry: the function of each device, as its table and as the name
shown to the user, and the answers. Each is what the registry says or will be, once
the outstanding replies have had their effect; the main result follows when none is
outstanding.
-/

namespace RealTimeWs

open Redis FunctionsService

variable (platform : Platform)

/-! ## Values that are due -/

/-- A value is right, or some reply is going to make it right; none makes it wrong. -/
def Due {α : Type} (s : State) (owes : Callback → Reply → α → Prop) (held : Store → α → Prop)
    (value : α) : Prop :=
  (∀ a ∈ s.inbox, ∀ other, owes a.callback a.reply other → other = value) ∧
    ((∃ a ∈ s.inbox, owes a.callback a.reply value) ∨ held s.store value)

section Due

variable {α : Type} {owes : Callback → Reply → α → Prop} {held : Store → α → Prop} {value : α}
variable {s : State}

/-- The reply pays what it owes or passes it on, and changes nothing else. -/
theorem Due.deliver {a : Pipeline.Answer Reply Callback}
    {rest : List (Pipeline.Answer Reply Callback)} {now : Nat} (hempty : s.outbox = [])
    (hinbox : s.inbox = a :: rest) (hdue : Due s owes held value)
    (hignored : ∀ reply other, ¬ owes .ignored reply other)
    (hpasses : ∀ command callback reply other,
      Follows a.callback a.ordinal a.reply command callback → owes callback reply other →
        owes a.callback a.reply other)
    (hpays : owes a.callback a.reply value →
      (∃ b ∈ (delivered platform s a rest now).inbox, owes b.callback b.reply value) ∨
        held (delivered platform s a rest now).store value)
    (hframe : (∀ other, ¬ owes a.callback a.reply other) → held s.store value →
      held (delivered platform s a rest now).store value) :
    Due (delivered platform s a rest now) owes held value := by
  have hhead : a ∈ s.inbox := hinbox ▸ List.mem_cons_self
  obtain ⟨honly, hheld⟩ := hdue
  refine ⟨?_, ?_⟩
  · intro b hmem other howes
    rcases mem_inbox_delivered platform hempty hmem with hold | ⟨_, hcallback | ⟨_, hfollows, _⟩⟩
    · exact honly b (hinbox ▸ List.mem_cons_of_mem _ hold) other howes
    · rw [hcallback] at howes
      exact absurd howes (hignored _ _)
    · exact honly a hhead other (hpasses _ _ _ _ hfollows howes)
  · by_cases howes : owes a.callback a.reply value
    · exact hpays howes
    · have hnone : ∀ other, ¬ owes a.callback a.reply other := by
        intro other hother
        rw [honly a hhead other hother] at hother
        exact howes hother
      rcases hheld with ⟨b, hmem, hb⟩ | hstored
      · rw [hinbox] at hmem
        rcases List.mem_cons.mp hmem with rfl | hrest
        · exact absurd hb howes
        · exact Or.inl ⟨b, mem_inbox_delivered_of_rest platform hempty hrest, hb⟩
      · exact Or.inr (hframe hnone hstored)

/-- An event that asks for nothing leaves what is due. -/
theorem Due.occur {event : Event} {now : Nat} (hempty : s.outbox = [])
    (hdue : Due s owes held value) (hignored : ∀ reply other, ¬ owes .ignored reply other)
    (hasks : ∀ command callback n other, Starts platform.toLowerCase event now command callback →
      owes callback (command.op.reply platform.order n (s.store command.key)) other →
        other = value)
    (hframe : held s.store value → held (occurred platform s event now).store value) :
    Due (occurred platform s event now) owes held value := by
  obtain ⟨honly, hheld⟩ := hdue
  refine ⟨?_, ?_⟩
  · intro b hmem other howes
    rcases mem_inbox_occurred platform hempty hmem with hold | ⟨_, hcallback | hasked⟩
    · exact honly b hold other howes
    · rw [hcallback] at howes
      exact absurd howes (hignored _ _)
    · obtain ⟨command, hstarts, hreply⟩ := hasked
      rw [hreply] at howes
      exact hasks command b.callback b.ordinal other hstarts howes
  · rcases hheld with ⟨b, hmem, hb⟩ | hstored
    · exact Or.inl ⟨b, mem_inbox_occurred_of_mem platform hempty hmem, hb⟩
    · exact Or.inr (hframe hstored)

theorem Due.of_quiescent (hdue : Due s owes held value) (hquiet : s.Quiescent) :
    held s.store value := by
  rcases hdue.2 with ⟨a, hmem, _⟩ | hheld
  · rw [hquiet.2] at hmem
    cases hmem
  · exact hheld

end Due

/-! ## Functions -/

/-- The reply is going to give the device this function. -/
inductive Assigning (device : String) : Callback → Reply → Allowed → Prop
  | pingSismember {ip : String} {port epoch : Nat} {reply : Reply} (hnew : truthy reply = false) :
      Assigning device (.pingSismember device ip port epoch) reply .linear
  | pingSadd {ip : String} {port epoch : Nat} {reply : Reply} :
      Assigning device (.pingSadd device ip port epoch) reply .linear
  | pingHmset {reply : Reply} : Assigning device (.pingHmset device) reply .linear
  | functionChange {newFunction : Option String} {function : Allowed} {reply : Reply}
      (hfound : truthy reply = true) (hfind : newFunction.bind find = some function) :
      Assigning device (.functionChange device newFunction) reply function

/-- The name of the function is written one step before the table of a new device. -/
def Naming (device : String) (callback : Callback) (reply : Reply) (function : Allowed) : Prop :=
  Assigning device callback reply function ∧ callback ≠ .pingHmset device

/-- The table of the device is that of the function. -/
def HasTable (device : String) (store : Store) (function : Allowed) : Prop :=
  store (tableKey device) = some (.hash (table platform.curves function))

/-- The record of the device names the function. -/
def HasName (device : String) (store : Store) (function : Allowed) : Prop :=
  fieldAt store (recordKey device) "function" = some function.name

theorem assigning_of_follows {device : String} {asked callback : Callback} {n : Nat}
    {given reply : Reply} {command : Command} {function : Allowed}
    (hfollows : Follows asked n given command callback)
    (hassigning : Assigning device callback reply function) :
    Assigning device asked given function := by
  cases hfollows with
  | pingSadd hnew =>
      cases hassigning
      exact .pingSismember hnew
  | pingHmset =>
      cases hassigning
      exact .pingSadd
  | _ => cases hassigning

theorem naming_of_follows {device : String} {asked callback : Callback} {n : Nat}
    {given reply : Reply} {command : Command} {function : Allowed}
    (hfollows : Follows asked n given command callback)
    (hnaming : Naming device callback reply function) : Naming device asked given function := by
  refine ⟨assigning_of_follows hfollows hnaming.1, ?_⟩
  rintro rfl
  cases hfollows

/-- A reply that rewrites the table of a device gives it the function. -/
theorem assigning_of_rewritten {device : String} {callback : Callback} {reply : Reply}
    {function : Allowed} (hwritten : rewritten callback reply = some (device, function)) :
    Assigning device callback reply function := by
  cases callback with
  | pingHmset other =>
      cases hwritten
      exact .pingHmset
  | functionChange other newFunction =>
      simp only [rewritten, Option.ite_none_right_eq_some, Option.map_eq_some_iff,
        Prod.mk.injEq] at hwritten
      obtain ⟨hfound, _, hfind, rfl, rfl⟩ := hwritten
      exact .functionChange hfound hfind
  | _ => cases hwritten

section Delivered

variable {s : State} {a : Pipeline.Answer Reply Callback}
variable {rest : List (Pipeline.Answer Reply Callback)} {now : Nat} (hempty : s.outbox = [])
variable (hinbox : s.inbox = a :: rest) (hregular : Regular s) {device : String}
variable {function : Allowed}

include hempty hinbox

theorem due_table_delivered (hplain : Plain device)
    (hdue : Due s (Assigning device) (HasTable platform device) function) :
    Due (delivered platform s a rest now) (Assigning device) (HasTable platform device)
      function := by
  have htable := delivered_table platform a rest now hempty hplain
  apply hdue.deliver platform hempty hinbox
  · intro reply other hassigning
    cases hassigning
  · intro command callback reply other hfollows
    exact assigning_of_follows hfollows
  · intro howes
    obtain ⟨ordinal, reply, callback⟩ := a
    cases howes with
    | pingSismember hnew =>
        obtain ⟨b, hmem, hcallback⟩ := @exists_inbox_delivered platform s ⟨ordinal, reply, _⟩ rest
          now hempty _ _ (.pingSadd hnew)
        exact Or.inl ⟨b, hmem, hcallback ▸ .pingSadd⟩
    | pingSadd =>
        obtain ⟨b, hmem, hcallback⟩ := @exists_inbox_delivered platform s ⟨ordinal, reply, _⟩ rest
          now hempty _ _ .pingHmset
        exact Or.inl ⟨b, hmem, hcallback ▸ .pingHmset⟩
    | pingHmset =>
        right
        rcases htable with ⟨hnone, _⟩ | ⟨other, hwritten, hnew⟩
        · exact absurd rfl (hnone .linear)
        · cases hwritten
          exact hnew
    | functionChange hfound hfind =>
        right
        rcases htable with ⟨hnone, _⟩ | ⟨other, hwritten, hnew⟩
        · exact absurd (by simp [rewritten, hfound, hfind]) (hnone function)
        · rw [show other = function by simpa [rewritten, hfound, hfind] using hwritten.symm] at hnew
          exact hnew
  · intro hnone hheld
    rcases htable with ⟨_, hsame⟩ | ⟨other, hwritten, _⟩
    · exact hsame.trans hheld
    · exact absurd (assigning_of_rewritten hwritten) (hnone other)

include hregular

theorem due_name_delivered (htyped : TypedRecords s)
    (hdue : Due s (Naming device) (HasName device) function) :
    Due (delivered platform s a rest now) (Naming device) (HasName device) function := by
  have hrecord := fieldAt_delivered platform now hempty hinbox hregular htyped device
  have hne : "function" ≠ "msg_count" := by decide
  apply hdue.deliver platform hempty hinbox
  · rintro reply other ⟨hassigning, _⟩
    cases hassigning
  · intro command callback reply other hfollows
    exact naming_of_follows hfollows
  · rintro ⟨howes, hnot⟩
    obtain ⟨ordinal, reply, callback⟩ := a
    cases howes with
    | pingSismember hnew =>
        obtain ⟨b, hmem, hcallback⟩ := @exists_inbox_delivered platform s ⟨ordinal, reply, _⟩ rest
          now hempty _ _ (.pingSadd hnew)
        refine Or.inl ⟨b, hmem, hcallback ▸ .pingSadd, ?_⟩
        rw [hcallback]
        exact fun heq => by cases heq
    | pingSadd =>
        right
        rcases hrecord with ⟨hnone, _⟩ | ⟨pairs, counts, hrecords, hnew⟩
        · exact absurd rfl (hnone _)
        · cases hrecords
          rw [HasName, hnew]
          rfl
    | pingHmset => exact absurd rfl hnot
    | functionChange hfound hfind =>
        right
        rcases hrecord with ⟨hnone, _⟩ | ⟨pairs, counts, hrecords, hnew⟩
        · exact absurd (by simp [recorded, rewritten, hfound, hfind]) (hnone
            [.hmset [("function", function.name)]])
        · cases hrecords with
          | function hwritten =>
              rename_i other
              rw [show other = function by
                simpa [rewritten, hfound, hfind] using hwritten.symm] at hnew
              rw [HasName, hnew]
              simp [changed]
  · intro hnone hheld
    rcases hrecord with ⟨_, hsame⟩ | ⟨pairs, counts, hrecords, hnew⟩
    · exact (congrFun hsame _).trans hheld
    · have hnotmem : "function" ∉ pairs.map Prod.fst := by
        generalize a.callback = callback, a.reply = reply at hrecords hnone
        cases hrecords with
        | registration => exact absurd ⟨.pingSadd, fun heq => by cases heq⟩ (hnone .linear)
        | function hwritten =>
            exact absurd ⟨assigning_of_rewritten hwritten, fun heq => by cases heq⟩ (hnone _)
        | _ => simp
      rw [HasName, hnew, changed_of_not_mem _ _ _ hne hnotmem]
      exact hheld

end Delivered

/-- The function that a request gives a device. -/
def Event.assigned : Event → String → Option Allowed
  | .functionChange device newFunction, name =>
      if device = name then newFunction.bind find else none
  | _, _ => none

namespace Registry

variable (registry : Registry)

theorem function_register {name other : String} {device : Device}
    (hother : registry.register name other = some device) :
    registry other = some device ∨ registry other = none ∧ device.function = .linear := by
  unfold register at hother
  split at hother
  next => exact Or.inl hother
  next hnew =>
      by_cases heq : other = name
      · rw [heq, Function.update_self, Option.some.injEq] at hother
        rw [heq, ← hother]
        exact Or.inr ⟨Option.not_isSome_iff_eq_none.mp hnew, rfl⟩
      · rw [Function.update_of_ne heq] at hother
        exact Or.inl hother

theorem function_foldl_register {names : List String} {other : String} {device : Device}
    (hother : names.foldl register registry other = some device) :
    registry other = some device ∨ registry other = none ∧ device.function = .linear := by
  induction names generalizing registry with
  | nil => exact Or.inl hother
  | cons name rest ih =>
      rcases ih (registry.register name) hother with hsome | ⟨hnone, hlinear⟩
      · exact function_register registry hsome
      · refine Or.inr ⟨?_, hlinear⟩
        have hnot : ¬ (registry.register name other).isSome := by simp [hnone]
        rw [isSome_register, not_or] at hnot
        exact Option.not_isSome_iff_eq_none.mp hnot.1

theorem function_change {name other : String} {what : Device → Device} {device : Device}
    (hother : registry.change name what other = some device)
    (hkeeps : ∀ device, (what device).function = device.function) :
    ∃ old, registry other = some old ∧ device.function = old.function := by
  unfold change at hother
  by_cases heq : other = name
  · rw [heq, Function.update_self, Option.map_eq_some_iff] at hother
    obtain ⟨old, hold, rfl⟩ := hother
    exact ⟨old, heq ▸ hold, hkeeps old⟩
  · rw [Function.update_of_ne heq] at hother
    exact ⟨device, hother, rfl⟩

/-- Where the function of a device comes from. -/
theorem function_handle {event : Event} {name : String} {device : Device}
    (hname : registry.handle platform event name = some device) :
    (∃ old, registry name = some old ∧
        device.function = (event.assigned name).getD old.function) ∨
      registry name = none ∧ name ∈ event.pinged platform ∧ device.function = .linear := by
  cases event with
  | tcpData ip port values =>
      rcases function_foldl_register registry hname with hsome | ⟨hnone, hlinear⟩
      · exact Or.inl ⟨device, hsome, rfl⟩
      · right
        refine ⟨hnone, ?_, hlinear⟩
        have hsome : (registry.handle platform (.tcpData ip port values) name).isSome := by
          rw [hname]
          rfl
        rw [isSome_handle, hnone] at hsome
        simpa using hsome
  | connect fromDevice toDevice referer =>
      left
      simp only [handle] at hname
      split at hname
      · exact function_change registry hname fun _ => rfl
      · exact ⟨device, hname, rfl⟩
  | disconnect fromDevice toDevice referer =>
      left
      simp only [handle] at hname
      exact function_change registry hname fun _ => rfl
  | disconnectAll fromDevice referer =>
      left
      simp only [handle] at hname
      exact function_change registry hname fun _ => rfl
  | release fromDevice referer =>
      left
      obtain ⟨old, hold, rfl⟩ := Option.map_eq_some_iff.mp hname
      exact ⟨old, hold, rfl⟩
  | functionChange other newFunction =>
      left
      simp only [handle] at hname
      simp only [Event.assigned]
      cases hfind : newFunction.bind find with
      | none =>
          rw [hfind] at hname
          exact ⟨device, hname, by simp⟩
      | some function =>
          rw [hfind] at hname
          simp only [change] at hname
          by_cases heq : other = name
          · subst heq
            rw [Function.update_self, Option.map_eq_some_iff] at hname
            obtain ⟨old, hold, rfl⟩ := hname
            exact ⟨old, hold, by simp⟩
          · rw [Function.update_of_ne (Ne.symm heq)] at hname
            exact ⟨device, hname, by simp [heq]⟩
  | _ => exact Or.inl ⟨device, hname, rfl⟩

end Registry

theorem plain_of_isSome {s : State} (hregular : Regular s) (henrolled : Enrolled platform s)
    {name : String} (hsome : (Registry.after platform (handled s) name).isSome) : Plain name := by
  rcases (henrolled name).mp hsome with hmem | ⟨a, hmem, hregistered⟩
  · exact hregular.plain name hmem
  · exact plain_of_registered (hregular.okay a hmem) hregistered

theorem plain_of_pinged {event : Event} (hplain : event.PlainIds platform) {name : String}
    (hpinged : name ∈ event.pinged platform) : Plain name := by
  cases event with
  | tcpData ip port values =>
      have hsent : (⟨devicesKey, .sismember name⟩, .pingSismember name ip port 0) ∈
          (TCP.responses platform ip port 0 values).1 := mem_sends_of_pinged platform hpinged
      obtain ⟨value, hmem, hping, heq⟩ := mem_responses platform hsent
      simp only [Prod.mk.injEq, Callback.pingSismember.injEq] at heq
      rw [heq.2.1]
      exact hplain value hmem hping
  | _ => cases hpinged

section Occurred

variable {s : State} {event : Event} {now : Nat} (hempty : s.outbox = [])
variable (hguard : event.topic ≠ none → ∀ a ∈ s.inbox, a.callback.topic = none)
variable (henrolled : Enrolled platform s) {name : String}

include hempty hguard henrolled

/-- What an event makes of the function of a device, for the table and for the name. -/
theorem due_occurred {owes : Callback → Reply → Allowed → Prop} {held : Store → Allowed → Prop}
    (hassigning : ∀ callback reply function, owes callback reply function →
      Assigning name callback reply function)
    (hping : ∀ ip port epoch reply, truthy reply = false →
      owes (.pingSismember name ip port epoch) reply .linear)
    (hchange : ∀ newFunction reply function, truthy reply = true →
      newFunction.bind find = some function →
        owes (.functionChange name newFunction) reply function)
    (hframe : ∀ function, held s.store function →
      held (occurred platform s event now).store function)
    (hdue : ∀ device, Registry.after platform (handled s) name = some device →
      Due s owes held device.function) {device : Device}
    (hname : Registry.after platform (handled (occurred platform s event now)) name =
      some device) :
    Due (occurred platform s event now) owes held device.function := by
  have hignored : ∀ reply other, ¬ owes .ignored reply other := by
    intro reply other howes
    cases hassigning _ _ _ howes
  have howned : ∀ a ∈ s.inbox, ∀ other, owes a.callback a.reply other →
      a.callback.topic ≠ none := by
    intro a hmem other howes
    have htopic := hassigning _ _ _ howes
    generalize a.callback = callback, a.reply = reply at htopic
    cases htopic <;> exact fun heq => by cases heq
  rw [handled_occurred platform now hempty, Registry.after_concat] at hname
  rcases Registry.function_handle platform _ hname with
    ⟨old, hold, hfunction⟩ | ⟨hnone, hpinged, hlinear⟩
  · cases hassigned : event.assigned name with
    | some function =>
        rw [hassigned, Option.getD_some] at hfunction
        rw [hfunction]
        cases event with
        | functionChange other newFunction =>
            simp only [Event.assigned, Option.ite_none_right_eq_some] at hassigned
            obtain ⟨rfl, hfind⟩ := hassigned
            have hidle := hguard (fun heq => by cases heq)
            have hknown : other ∈ devices s.store := by
              rw [← isSome_of_idle platform henrolled hidle, hold]
              rfl
            have hsent : (⟨devicesKey, .sismember other⟩, .functionChange other newFunction) ∈
                (onEvent platform (.functionChange other newFunction) now s.memory).sends :=
              List.mem_singleton_self _
            refine ⟨?_, Or.inl ?_⟩
            · intro b hmem given howes
              rcases mem_inbox_occurred platform hempty hmem with hin | ⟨_, hcallback | hasked⟩
              · exact absurd (hidle b hin) (howned b hin given howes)
              · rw [hcallback] at howes
                exact absurd howes (hignored _ _)
              · obtain ⟨command, hstarts, _⟩ := hasked
                have hgives := hassigning _ _ _ howes
                generalize b.callback = callback, b.reply = reply at hstarts hgives
                cases hstarts
                cases hgives with
                | functionChange _ hagain => exact Option.some.inj (hagain.symm.trans hfind)
            · obtain ⟨b, hmem, hcallback, hreply⟩ :=
                replied_occurred platform hempty hsent fun heq => by cases heq
              refine ⟨b, hmem, ?_⟩
              rw [hcallback, hreply]
              exact hchange _ _ _ (truthy_sismember.mpr hknown) hfind
        | _ => cases hassigned
    | none =>
        rw [hassigned, Option.getD_none] at hfunction
        rw [hfunction]
        apply (hdue old hold).occur platform hempty hignored _ (hframe _)
        intro command callback n other hstarts howes
        have hgives := hassigning _ _ _ howes
        cases hstarts with
        | ping hmem hping =>
            have hknown : name ∈ devices s.store := by
              rw [← isSome_of_idle platform henrolled (hguard fun heq => by cases heq), hold]
              rfl
            generalize platform.toLowerCase (TCP.secondText _) = pinged at hgives
            cases hgives with
            | pingSismember hnew =>
                exact absurd (hnew.symm.trans (truthy_sismember.mpr hknown)) fun heq => by cases heq
        | functionChange =>
            cases hgives with
            | functionChange _ hfind => simp [Event.assigned, hfind] at hassigned
        | _ => cases hgives
  · rw [hlinear]
    have hidle : ∀ a ∈ s.inbox, a.callback.topic = none := by
      apply hguard
      cases event with
      | tcpData ip port values => exact fun heq => by cases heq
      | _ => cases hpinged
    have hnew : name ∉ devices s.store := by
      rw [← isSome_of_idle platform henrolled hidle, hnone]
      exact fun heq => by cases heq
    cases event with
    | tcpData ip port values =>
        have hsent : (⟨devicesKey, .sismember name⟩, .pingSismember name ip port now) ∈
            (onEvent platform (.tcpData ip port values) now s.memory).sends :=
          List.mem_cons_of_mem _ (mem_sends_of_pinged platform hpinged)
        refine ⟨?_, Or.inl ?_⟩
        · intro b hmem given howes
          rcases mem_inbox_occurred platform hempty hmem with hin | ⟨_, hcallback | hasked⟩
          · exact absurd (hidle b hin) (howned b hin given howes)
          · rw [hcallback] at howes
            exact absurd howes (hignored _ _)
          · obtain ⟨command, hstarts, _⟩ := hasked
            have hgives := hassigning _ _ _ howes
            generalize b.callback = callback, b.reply = reply at hstarts hgives
            cases hgives with
            | functionChange => cases hstarts
            | _ => rfl
        · obtain ⟨b, hmem, hcallback, hreply⟩ :=
            replied_occurred platform hempty hsent fun heq => by cases heq
          refine ⟨b, hmem, ?_⟩
          rw [hcallback, hreply]
          apply hping
          rw [← Bool.not_eq_true, truthy_sismember]
          exact hnew
    | _ => cases hpinged

end Occurred

/-- The functions of the registry are those of the database, once the outstanding
replies have had their effect. -/
def Equipped (s : State) : Prop :=
  ∀ name device, Registry.after platform (handled s) name = some device →
    Due s (Assigning name) (HasTable platform name) device.function ∧
      Due s (Naming name) (HasName name) device.function

/-! ## Answers -/

/-- The output is for the browser. -/
def Output.spoken : Output → Bool
  | .datagram _ => false
  | _ => true

/-- What the browser gets to see. -/
def spoken (outputs : List Output) : List Output := outputs.filter Output.spoken

theorem spoken_append (first second : List Output) :
    spoken (first ++ second) = spoken first ++ spoken second :=
  List.filter_append _ _

/-- What the browser will get to see because of a reply. -/
def tells (store : Store) : Callback → Reply → List Output
  | .connectFrom fromDevice toDevice referer, reply =>
      if truthy reply then
        if toDevice ∈ devices store then
          success (fromDevice ++ " successfully connected to the " ++ toDevice) referer
        else danger (ConnectController.missing toDevice) referer
      else danger (ConnectController.missing fromDevice) referer
  | .connectTo fromDevice toDevice referer, reply =>
      if truthy reply then
        success (fromDevice ++ " successfully connected to the " ++ toDevice) referer
      else danger (ConnectController.missing toDevice) referer
  | .connectSadd fromDevice toDevice referer, _ =>
      success (fromDevice ++ " successfully connected to the " ++ toDevice) referer
  | .disconnectExists fromDevice toDevice referer, reply =>
      if truthy reply then
        success (toDevice ++ " successfully disconnected from the " ++ fromDevice) referer
      else danger "Sorry, this connection doesn't exist." referer
  | .disconnectSrem fromDevice toDevice referer, _ =>
      success (toDevice ++ " successfully disconnected from the " ++ fromDevice) referer
  | .disconnectDel referer, _ => success "All connections successfully dropped!" referer
  | .functionChange device newFunction, reply =>
      if truthy reply then
        match newFunction.bind find with
        | some function => [.send 200 "new_function" function.name]
        | none => [.send 500 "error" ("Function " ++ newFunction.getD "undefined" ++
            " is not allowed")]
      else [.flash "danger" (ConnectController.missing device), .redirect none]
  | _, _ => []

theorem tells_of_page {store : Store} {callback : Callback} {reply : Reply}
    (hpage : callback.page = 0) : tells store callback reply = [] := by
  cases callback <;> first | rfl | exact absurd hpage (Multiset.singleton_ne_zero _)

theorem page_of_topic {callback : Callback} (htopic : callback.topic = none) :
    callback.page = 0 := by
  cases callback <;> first | rfl | cases htopic

/-- A callback without a request tells nothing in its turn. -/
theorem spoken_onReply {callback : Callback} {n : Nat} {reply : Reply} {now : Nat}
    {memory : Memory} (hpage : callback.page = 0) :
    spoken (onReply platform callback n reply now memory).outputs = [] := by
  cases callback with
  | releaseSmembers fromDevice => cases reply <;> rfl
  | routineSmembers => cases reply <;> rfl
  | routineHmget device =>
      cases reply with
      | array texts => cases texts <;> rfl
      | _ => rfl
  | forwardSmembers => cases reply <;> rfl
  | forwardConnected device => cases reply <;> rfl
  | forwardHgetall device connected reading readAt =>
      cases reply with
      | object fields => cases fields <;> rfl
      | _ => rfl
  | forwardHget device connected reading readAt record recordAt =>
      cases reply with
      | bulk text =>
          cases text with
          | none => rfl
          | some newValue =>
              simp only [onReply, UDP.forwardHget]
              split <;> rfl
      | _ => rfl
  | _ => first | rfl | exact absurd hpage (Multiset.singleton_ne_zero _)

/-- At most one outstanding callback belongs to a request that is still to be
answered. -/
def Sole (s : State) : Prop :=
  (s.inbox.map fun a : Pipeline.Answer Reply Callback => a.callback.page).sum.card ≤ 1

theorem sum_page_answersTo (n : Nat) (store : Store) (sends : Sends) :
    (((server platform).answersTo n store sends).map fun a : Pipeline.Answer Reply Callback =>
      a.callback.page).sum = pages.debt sends := by
  have hcallbacks := congrArg (List.map Callback.page)
    ((server platform).answersTo_callbacks n store sends)
  rw [List.map_map, List.map_map] at hcallbacks
  exact congrArg List.sum hcallbacks

theorem card_page (event : Event) : event.page.card ≤ 1 := by
  cases event <;> first | exact le_rfl | exact Nat.zero_le _

theorem preserved_sole : (server platform).Preserved serialGuard Sole where
  event := by
    intro s event now hempty _ hguard hsole
    change Sole (occurred platform s event now)
    have hbalanced := (balanced_pages platform).event event now s.memory
    rw [Sole, occurred_eq platform hempty]
    simp only [List.map_append, List.sum_append, sum_page_answersTo, Multiset.card_add]
    have hdebt : (pages.debt (onEvent platform event now s.memory).sends).card ≤
        event.page.card := by
      rw [show event.page = _ from hbalanced, Multiset.card_add]
      exact Nat.le_add_right _ _
    cases htopic : event.topic with
    | none =>
        have hpage : event.page = 0 := by
          cases event <;> first | rfl | cases htopic
        rw [hpage, Multiset.card_zero, Nat.le_zero] at hdebt
        rw [hdebt, Nat.add_zero]
        exact hsole
    | some topic =>
        have hidle := hguard event now rfl (by rw [htopic]; exact Option.some_ne_none _)
        have hzero : (s.inbox.map fun a : Pipeline.Answer Reply Callback =>
            a.callback.page).sum = 0 := by
          apply List.sum_eq_zero
          intro page hmem
          obtain ⟨a, ha, rfl⟩ := List.mem_map.mp hmem
          exact page_of_topic (hidle a ha)
        rw [hzero, Multiset.card_zero, Nat.zero_add]
        exact hdebt.trans (card_page event)
  deliver := by
    intro s a rest now hempty _ hinbox _ hsole
    change Sole (delivered platform s a rest now)
    have hbalanced := (balanced_pages platform).reply a.callback a.ordinal a.reply now s.memory
    rw [Sole, hinbox, List.map_cons, List.sum_cons, Multiset.card_add,
      show a.callback.page = _ from hbalanced, Multiset.card_add] at hsole
    rw [Sole, delivered_eq platform hempty]
    simp only [List.map_append, List.sum_append, sum_page_answersTo, Multiset.card_add]
    change _ + (pages.debt ((server platform).onReply _ _ _ _ _).sends).card ≤ 1
    omega

/-- What outstanding replies are going to tell. -/
def told (store : Store) (inbox : List (Pipeline.Answer Reply Callback)) : List Output :=
  inbox.flatMap fun a => tells store a.callback a.reply

theorem told_append (store : Store) (first second : List (Pipeline.Answer Reply Callback)) :
    told store (first ++ second) = told store first ++ told store second :=
  List.flatMap_append

theorem told_eq_nil {store : Store} {inbox : List (Pipeline.Answer Reply Callback)}
    (hpage : ∀ a ∈ inbox, a.callback.page = 0) : told store inbox = [] := by
  rw [told, List.flatMap_eq_nil_iff]
  exact fun a hmem => tells_of_page (hpage a hmem)

theorem tells_congr {store store' : Store} (callback : Callback) (reply : Reply)
    (hsame : callback.topic = some .linking → devices store' = devices store) :
    tells store' callback reply = tells store callback reply := by
  cases callback with
  | connectFrom fromDevice toDevice referer => simp only [tells, hsame rfl]
  | _ => rfl

theorem told_congr {store store' : Store} {inbox : List (Pipeline.Answer Reply Callback)}
    (hsame : ∀ a ∈ inbox, a.callback.topic = some .linking → devices store' = devices store) :
    told store' inbox = told store inbox :=
  List.flatMap_congr fun a hmem => tells_congr a.callback a.reply (hsame a hmem)

/-- An answer belongs to a command that was sent. -/
theorem sent_of_answer {n : Nat} {store : Store} {sends : Sends}
    {a : Pipeline.Answer Reply Callback}
    (hmem : a ∈ (server platform).answersTo n store sends) :
    ∃ command, (command, a.callback) ∈ sends := by
  have hcallback : a.callback ∈ sends.map Prod.snd := by
    rw [← (server platform).answersTo_callbacks n store]
    exact List.mem_map_of_mem hmem
  obtain ⟨⟨command, callback⟩, hsent, rfl⟩ := List.mem_map.mp hcallback
  exact ⟨command, hsent⟩

/-- What the browser has seen and is going to see is what the registry answers. -/
def Answered (s : State) : Prop :=
  spoken s.outputs ++ told s.store s.inbox =
    Registry.answers platform (fun _ => none) (handled s)

/-- A callback of a request tells it at once or leaves it to the next one. -/
theorem tells_onReply {callback : Callback} (hpage : callback.page ≠ 0) (ordinal : Nat)
    (reply : Reply) (now : Nat) (memory : Memory) (n : Nat) (store store' : Store) :
    spoken (onReply platform callback ordinal reply now memory).outputs ++
        told store' ((server platform).answersTo n store
          (onReply platform callback ordinal reply now memory).sends) =
      tells store callback reply := by
  cases callback with
  | connectFrom fromDevice toDevice referer =>
      cases htruthy : truthy reply with
      | false => simp [onReply, ConnectController.sismemberFrom, htruthy, finish, tells, told,
          spoken, Output.spoken, danger]
      | true =>
          have hfound := @truthy_sismember toDevice platform.order n store
          by_cases hto : toDevice ∈ devices store
          · have hreply := hfound.mpr hto
            simp [onReply, ConnectController.sismemberFrom, htruthy, finish, tells, told, spoken,
              server, execute, hto, hreply]
          · have hreply := mt hfound.mp hto
            simp [onReply, ConnectController.sismemberFrom, htruthy, finish, tells, told, spoken,
              server, execute, hto, hreply]
  | connectTo fromDevice toDevice referer =>
      cases htruthy : truthy reply <;>
        simp [onReply, ConnectController.sismemberTo, htruthy, finish, tells, told, spoken,
          Output.spoken, danger]
  | connectSadd fromDevice toDevice referer =>
      simp [onReply, ConnectController.sadd, finish, tells, told, spoken, Output.spoken, success]
  | disconnectExists fromDevice toDevice referer =>
      cases htruthy : truthy reply <;>
        simp [onReply, DisconnectController.existsConnection, htruthy, finish, tells, told, spoken,
          Output.spoken, danger]
  | disconnectSrem fromDevice toDevice referer =>
      simp [onReply, DisconnectController.srem, finish, tells, told, spoken, Output.spoken, success]
  | disconnectDel referer =>
      simp [onReply, DisconnectController.del, finish, tells, told, spoken, Output.spoken, success]
  | functionChange device newFunction =>
      cases htruthy : truthy reply with
      | false => simp [onReply, DeviceController.functionChange, htruthy, finish, tells, told,
          spoken, Output.spoken]
      | true =>
          cases hfind : newFunction.bind find with
          | none => simp [onReply, DeviceController.functionChange, htruthy, hfind, finish, tells,
              told, spoken, Output.spoken]
          | some function =>
              have hsilent : ∀ commands, told store' ((server platform).answersTo n store
                  (silent commands)) = [] := by
                intro commands
                apply told_eq_nil
                intro a hmem
                obtain ⟨command, hsent⟩ := sent_of_answer platform hmem
                rw [ignored_of_mem_silent hsent]
                rfl
              simp [onReply, DeviceController.functionChange, htruthy, hfind, finish, tells,
                hsilent, spoken, Output.spoken]
  | _ => exact absurd rfl hpage

section Delivered

variable {s : State} {a : Pipeline.Answer Reply Callback}
variable {rest : List (Pipeline.Answer Reply Callback)} {now : Nat} (hempty : s.outbox = [])
variable (hinbox : s.inbox = a :: rest)

include hempty hinbox

theorem answered_delivered (hregular : Regular s) (hone : OneTopic s) (hsole : Sole s)
    (hanswered : Answered platform s) : Answered platform (delivered platform s a rest now) := by
  have hhead : a ∈ s.inbox := hinbox ▸ List.mem_cons_self
  have hrest : told (delivered platform s a rest now).store rest = told s.store rest := by
    apply told_congr
    intro b hmem htopic
    apply devices_delivered_of_topic platform now hempty hregular
    intro hregistration
    cases hone.eq hhead (hinbox ▸ List.mem_cons_of_mem _ hmem) hregistration htopic
  rw [Answered, hinbox, show told s.store (a :: rest) = tells s.store a.callback a.reply ++
    told s.store rest from List.flatMap_cons] at hanswered
  rw [Answered, handled, delivered_history platform hempty]
  refine Eq.trans ?_ hanswered
  have hinbox' : (delivered platform s a rest now).inbox = rest ++
      (server platform).answersTo s.executed s.store
        (onReply platform a.callback a.ordinal a.reply now s.memory).sends := by
    rw [delivered_eq platform hempty]
  have houtputs : (delivered platform s a rest now).outputs = s.outputs ++
      (onReply platform a.callback a.ordinal a.reply now s.memory).outputs := by
    rw [delivered_eq platform hempty]
  rw [hinbox', houtputs, told_append, spoken_append, hrest]
  by_cases hpage : a.callback.page = 0
  · have hnew : told (delivered platform s a rest now).store
        ((server platform).answersTo s.executed s.store
          (onReply platform a.callback a.ordinal a.reply now s.memory).sends) = [] := by
      apply told_eq_nil
      intro b hmem
      obtain ⟨command, hsent⟩ := sent_of_answer platform hmem
      rcases follows_of_mem platform hsent with hignored | hfollows
      · rw [hignored]
        rfl
      · by_contra hasks
        exact (serves_of_follows hfollows hasks).1 hpage
    rw [spoken_onReply platform hpage, tells_of_page hpage, hnew, List.append_nil,
      List.append_nil, List.nil_append]
  · have hothers : told s.store rest = [] := by
      apply told_eq_nil
      intro b hmem
      have hcard : a.callback.page.card + (rest.map fun b : Pipeline.Answer Reply Callback =>
          b.callback.page).sum.card ≤ 1 := by
        rwa [Sole, hinbox, List.map_cons, List.sum_cons, Multiset.card_add] at hsole
      have hone : 0 < a.callback.page.card := Multiset.card_pos.mpr hpage
      have hzero : (rest.map fun b : Pipeline.Answer Reply Callback =>
          b.callback.page).sum = 0 := by
        rw [← Multiset.card_eq_zero]
        omega
      have hle := List.single_le_sum (fun _ _ => Multiset.zero_le _) _
        (List.mem_map_of_mem (f := fun b : Pipeline.Answer Reply Callback => b.callback.page) hmem)
      rw [hzero] at hle
      exact Multiset.le_zero.mp hle
    rw [hothers, List.nil_append, List.append_nil, List.append_assoc,
      tells_onReply platform hpage]

end Delivered

/-- The answer of the registry is what the first turn tells and what it asks for. -/
theorem tells_onEvent (event : Event) (now : Nat) {registry : Registry} {store store' : Store}
    (hsome : ∀ name, (registry name).isSome ↔ name ∈ devices store)
    (hconnected : ∀ name, registry.connected name = setAt store (connectionKey name))
    (hkept : ∀ name, KeptSet (store (connectionKey name)))
    (hdevices : devices store' = devices store) (memory : Memory) (n : Nat) :
    spoken (onEvent platform event now memory).outputs ++
        told store' ((server platform).answersTo n store
          (onEvent platform event now memory).sends) = registry.answer event := by
  have hisNone : ∀ name, (registry name).isNone = true ↔ name ∉ devices store := by
    intro name
    rw [← hsome name, Option.isNone_iff_eq_none, Option.not_isSome_iff_eq_none]
  cases event with
  | connect fromDevice toDevice referer =>
      have hfound := @truthy_sismember fromDevice platform.order n store
      by_cases hfrom : fromDevice ∈ devices store
      · have hreply := hfound.mpr hfrom
        simp [onEvent, finish, told, tells, spoken, server, Redis.execute, Registry.answer, hreply,
          hisNone, hfrom, hdevices]
      · have hreply := mt hfound.mp hfrom
        simp [onEvent, finish, told, tells, spoken, server, Redis.execute, Registry.answer, hreply,
          hisNone, hfrom]
  | disconnect fromDevice toDevice referer =>
      have hexists := @truthy_existsKey_iff platform.order n store _ (hkept fromDevice)
      by_cases hset : setAt store (connectionKey fromDevice) = ∅
      · have hreply := mt hexists.mp (not_not_intro hset)
        simp [onEvent, finish, told, tells, spoken, server, Redis.execute, Registry.answer, hreply,
          hconnected, hset]
      · have hreply := hexists.mpr hset
        simp [onEvent, finish, told, tells, spoken, server, Redis.execute, Registry.answer, hreply,
          hconnected, hset]
  | functionChange device newFunction =>
      have hfound := @truthy_sismember device platform.order n store
      by_cases hknown : device ∈ devices store
      · have hreply := hfound.mpr hknown
        cases hfind : newFunction.bind find <;>
          simp [onEvent, finish, told, tells, spoken, server, Redis.execute, Registry.answer,
            hreply, hisNone, hknown, hfind]
      · have hreply := mt hfound.mp hknown
        simp [onEvent, finish, told, tells, spoken, server, Redis.execute, Registry.answer, hreply,
          hisNone, hknown]
  | disconnectAll fromDevice referer =>
      simp [onEvent, finish, told, tells, spoken, Registry.answer]
  | release fromDevice referer =>
      simp [onEvent, DisconnectController.release, finish, told, tells, spoken, Output.spoken,
        Registry.answer, success]
  | tcpData ip port values =>
      apply told_eq_nil
      intro b hmem
      obtain ⟨command, hsent⟩ := sent_of_answer platform hmem
      rcases List.mem_cons.mp hsent with hcount | hping
      · rw [(Prod.mk.inj hcount).2]
        rfl
      · obtain ⟨name, _, heq⟩ := pinged_of_mem_sends platform hping
        rw [(Prod.mk.inj heq).2]
        rfl
  | udpMessage msg address port =>
      apply told_eq_nil
      intro b hmem
      obtain ⟨command, hsent⟩ := sent_of_answer platform hmem
      rw [ignored_of_mem_silent hsent]
      rfl
  | _ => rfl

section Occurred

variable {s : State} {event : Event} {now : Nat} (hempty : s.outbox = [])

include hempty

theorem answered_occurred
    (hidle : event.topic ≠ none → ∀ a ∈ s.inbox, a.callback.topic = none)
    (hkept : SetsKept s) (henrolled : Enrolled platform s) (hwired : Wired platform s)
    (hanswered : Answered platform s) : Answered platform (occurred platform s event now) := by
  have hdevices := @devices_occurred platform s now hempty event
  have hinbox : (occurred platform s event now).inbox = s.inbox ++
      (server platform).answersTo s.executed s.store
        (onEvent platform event now s.memory).sends := by
    rw [occurred_eq platform hempty]
  have houtputs : (occurred platform s event now).outputs = s.outputs ++
      (onEvent platform event now s.memory).outputs := by
    rw [occurred_eq platform hempty]
  have hold : told (occurred platform s event now).store s.inbox = told s.store s.inbox :=
    told_congr fun _ _ _ => hdevices
  rw [Answered, handled_occurred platform now hempty, Registry.answers_append, hinbox, houtputs,
    told_append, spoken_append, hold]
  rw [Answered] at hanswered
  rw [← hanswered, Registry.answers, Registry.answers, List.append_nil]
  cases htopic : event.topic with
  | none =>
      have hquiet : spoken (onEvent platform event now s.memory).outputs = [] ∧
          Registry.answer (List.foldl (Registry.handle platform) (fun _ => none) (handled s))
            event = [] := by
        cases event <;> first | exact ⟨rfl, rfl⟩ | cases htopic
      have hnew : told (occurred platform s event now).store
          ((server platform).answersTo s.executed s.store
            (onEvent platform event now s.memory).sends) = [] := by
        apply told_eq_nil
        intro b hmem
        obtain ⟨command, hsent⟩ := sent_of_answer platform hmem
        rcases starts_of_mem platform hsent with hignored | hstarts
        · rw [hignored]
          rfl
        · exact page_of_topic ((topic_of_starts hstarts).trans htopic)
      rw [hquiet.1, hquiet.2, hnew, List.append_nil, List.append_nil, List.append_nil]
  | some topic =>
      have hfree := hidle (by rw [htopic]; exact Option.some_ne_none _)
      have hnone : told s.store s.inbox = [] :=
        told_eq_nil fun a hmem => page_of_topic (hfree a hmem)
      have hconnected : ∀ name, (Registry.after platform (handled s)).connected name =
          setAt s.store (connectionKey name) := by
        intro name
        ext member
        exact wired_of_idle platform hfree hwired name member
      have htells := tells_onEvent platform event now
        (isSome_of_idle platform henrolled hfree) hconnected hkept hdevices s.memory s.executed
      rw [hnone, List.append_nil, List.nil_append, List.append_assoc, htells]
      rfl

end Occurred

/-! ## The refinement -/

/-- The database keeps the registry. -/
structure Holds (registry : Registry) (store : Store) : Prop where
  registered : ∀ name, name ∈ devices store ↔ (registry name).isSome
  connected : ∀ name, setAt store (connectionKey name) = registry.connected name
  table : ∀ name device, registry name = some device →
    store (tableKey name) = some (.hash (table platform.curves device.function))
  name : ∀ name device, registry name = some device →
    fieldAt store (recordKey name) "function" = some device.function.name

/-- All that is kept while requests come one after the other. -/
structure Orderly (s : State) : Prop where
  kept : SetsKept s
  one : OneTopic s
  sole : Sole s
  enrolled : Enrolled platform s
  wired : Wired platform s
  equipped : Equipped platform s
  answered : Answered platform s

theorem equipped_occurred {s : State} {event : Event} {now : Nat} (hempty : s.outbox = [])
    (hplain : event.PlainIds platform) (hregular : Regular s) (htyped : TypedRecords s)
    (hidle : event.topic ≠ none → ∀ a ∈ s.inbox, a.callback.topic = none)
    (henrolled : Enrolled platform s) (hequipped : Equipped platform s) :
    Equipped platform (occurred platform s event now) := by
  intro name device hname
  have hname' : Plain name := by
    have hsome :
        (Registry.after platform (handled (occurred platform s event now)) name).isSome := by
      rw [hname]
      rfl
    rw [handled_occurred platform now hempty, Registry.after_concat,
      Registry.isSome_handle] at hsome
    rcases hsome with hold | hpinged
    · exact plain_of_isSome platform hregular henrolled hold
    · exact plain_of_pinged platform hplain hpinged
  constructor
  · apply due_occurred platform hempty hidle henrolled (fun _ _ _ howes => howes)
      (fun _ _ _ _ hnew => .pingSismember hnew)
      (fun _ _ _ hfound hfind => .functionChange hfound hfind)
      _ (fun device hold => (hequipped name device hold).1) hname
    exact fun function hheld => (occurred_table platform now hempty event hname').trans hheld
  · apply due_occurred platform hempty hidle henrolled (fun _ _ _ howes => howes.1)
      (fun _ _ _ _ hnew => ⟨.pingSismember hnew, fun heq => by cases heq⟩)
      (fun _ _ _ hfound hfind => ⟨.functionChange hfound hfind, fun heq => by cases heq⟩)
      _ (fun device hold => (hequipped name device hold).2) hname
    intro function hheld
    rcases fieldAt_occurred platform now hempty hplain htyped name with hsame | ⟨port, hnew⟩
    · exact (congrFun hsame _).trans hheld
    · rw [HasName, hnew, changed_of_not_mem _ _ _ (by decide) (by simp)]
      exact hheld

theorem equipped_delivered {s : State} {a : Pipeline.Answer Reply Callback}
    {rest : List (Pipeline.Answer Reply Callback)} {now : Nat} (hempty : s.outbox = [])
    (hinbox : s.inbox = a :: rest) (hregular : Regular s) (htyped : TypedRecords s)
    (henrolled : Enrolled platform s) (hequipped : Equipped platform s) :
    Equipped platform (delivered platform s a rest now) := by
  intro name device hname
  rw [handled, delivered_history platform hempty] at hname
  obtain ⟨htable, hnamed⟩ := hequipped name device hname
  have hplain : Plain name := by
    apply plain_of_isSome platform hregular henrolled
    rw [handled, hname]
    rfl
  exact ⟨due_table_delivered platform hempty hinbox hplain htable,
    due_name_delivered platform hempty hinbox hregular htyped hnamed⟩

theorem preserved_orderly : (server platform).Preserved
    (fun s action => recordGuard platform s action ∧ serialGuard s action)
    (Orderly platform) where
  event := by
    intro s event now hempty hthrown hguard horderly
    have hidle := hguard.2 event now rfl
    have hregular := hguard.1.1
    have hplain := hregular.1.1 event now rfl
    exact {
      kept := (preserved_setsKept platform).event s event now hempty hthrown hregular horderly.kept
      one := (preserved_oneTopic platform).event s event now hempty hthrown hguard.2 horderly.one
      sole := (preserved_sole platform).event s event now hempty hthrown hguard.2 horderly.sole
      enrolled := (preserved_enrolled platform).event s event now hempty hthrown hregular
        horderly.enrolled
      wired := by
        by_cases htopic : event.topic = none
        · exact wired_occurred_of_topic platform now hempty hplain htopic horderly.wired
        · exact wired_occurred_of_idle platform now hempty hplain (hidle htopic) hregular.2.typed
            horderly.kept horderly.enrolled horderly.wired
      equipped := equipped_occurred platform hempty hplain hregular.2 hguard.1.2 hidle
        horderly.enrolled horderly.equipped
      answered := answered_occurred platform hempty hidle horderly.kept horderly.enrolled
        horderly.wired horderly.answered }
  deliver := by
    intro s a rest now hempty hthrown hinbox hguard horderly
    have hregular := hguard.1.1
    exact {
      kept := (preserved_setsKept platform).deliver s a rest now hempty hthrown hinbox hregular
        horderly.kept
      one := (preserved_oneTopic platform).deliver s a rest now hempty hthrown hinbox hguard.2
        horderly.one
      sole := (preserved_sole platform).deliver s a rest now hempty hthrown hinbox hguard.2
        horderly.sole
      enrolled := (preserved_enrolled platform).deliver s a rest now hempty hthrown hinbox hregular
        horderly.enrolled
      wired := wired_delivered platform now hempty hinbox hregular.2 horderly.kept horderly.one
        horderly.wired
      equipped := equipped_delivered platform hempty hinbox hregular.2 hguard.1.2
        horderly.enrolled horderly.equipped
      answered := answered_delivered platform hempty hinbox hregular.2 horderly.one horderly.sole
        horderly.answered }

theorem orderly_boot_empty : Orderly platform ((server platform).flush (boot empty)) where
  kept := fun _ => trivial
  one := ⟨.registration, fun a hmem => by cases hmem⟩
  sole := Nat.zero_le _
  enrolled := fun name => by
    simp [handled, boot, Pipeline.State.start, Registry.after, Pipeline.Client.flush, devices,
      setAt, empty]
  wired := fun name member => by
    simp [handled, boot, Pipeline.State.start, Registry.after, Registry.connected,
      Pipeline.Client.flush, setAt, empty, WillAdd]
  equipped := fun name device hname => by cases hname
  answered := rfl

/-- With plain identifiers and as long as PINGs and requests come one after the other,
whatever readings and ticks come in between, the server does what the registry does: at
rest the database keeps the registry, and the browser has seen the answers of the registry. -/
theorem serial_refines {schedule : List Action} (hplain : PlainSchedule platform schedule)
    (hserial : Serial platform schedule)
    (hquiet : ((server platform).run (boot empty) schedule).Quiescent) :
    Holds platform (Registry.after platform
        (handled ((server platform).run (boot empty) schedule)))
      ((server platform).run (boot empty) schedule).store ∧
    spoken ((server platform).run (boot empty) schedule).outputs =
      Registry.answers platform (fun _ => none)
        (handled ((server platform).run (boot empty) schedule)) := by
  have horderly := (preserved_orderly platform).run (server platform) (boot empty) schedule
    ((guarded_record platform hplain).and (server platform) (guarded_serial platform hserial))
    (orderly_boot_empty platform)
  rw [(server platform).flush_of_quiescent hquiet] at horderly
  have hidle : ∀ a ∈ ((server platform).run (boot empty) schedule).inbox,
      a.callback.topic = none := by
    intro a hmem
    rw [hquiet.2] at hmem
    cases hmem
  refine ⟨⟨?_, ?_, ?_, ?_⟩, ?_⟩
  · intro name
    exact (isSome_of_idle platform horderly.enrolled hidle name).symm
  · intro name
    ext member
    exact (wired_of_idle platform hidle horderly.wired name member).symm
  · intro name device hname
    exact (horderly.equipped name device hname).1.of_quiescent hquiet
  · intro name device hname
    exact (horderly.equipped name device hname).2.of_quiescent hquiet
  · have hanswered := horderly.answered
    rw [Answered, hquiet.2] at hanswered
    simpa [told] using hanswered

/-- A concentrator announces itself; nothing else happens. -/
theorem serial_refines_single :
    ((server referencePlatform).run (boot empty)
        (.event (.tcpData "10.0.0.2" 49152 [samplePing]) 0 :: rounds 1030)).store
      (tableKey "adc00000001") =
        some (.hash (table referencePlatform.curves .linear)) := by
  have hnew : "adc00000001" ∉ devices empty := Finset.notMem_empty _
  have hquiet := quiescent_registration referencePlatform isPingOf_samplePing hnew
    "10.0.0.2" 49152 0
  have hserial : Serial referencePlatform
      (.event (.tcpData "10.0.0.2" 49152 [samplePing]) 0 :: rounds 1030) := by
    intro before event now after hsplit _
    cases before with
    | nil => exact ⟨fun _ hmem => absurd hmem List.not_mem_nil,
        fun _ hmem => absurd hmem List.not_mem_nil⟩
    | cons action rest =>
        have hmem : .event event now ∈ rounds 1030 := by
          rw [(List.cons.inj hsplit).2]
          exact List.mem_append_right _ List.mem_cons_self
        exact absurd hmem (eventFree_rounds 1030 event now)
  apply (serial_refines referencePlatform (plainSchedule_samplePing _ _ _ _) hserial
    hquiet).1.table "adc00000001" ⟨.linear, ∅⟩
  rw [run_ping_new_rounds referencePlatform isPingOf_samplePing hnew _ _ _ le_rfl]
  change (pinged referencePlatform [samplePing]).foldl Registry.register (fun _ => none)
    "adc00000001" = _
  rw [pinged, isPingOf_samplePing.1, isPingOf_samplePing.2]
  rfl

end RealTimeWs
