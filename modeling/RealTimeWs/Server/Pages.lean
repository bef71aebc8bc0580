import RealTimeWs.Redis.Store

/-! # Pages of the web interface

The homepage and the page of a device list the connections of every registered
device. They are fetched with one `SMEMBERS` per device, and each reply compares
the number of the collected keys with the number of the devices to find out
whether it was the last one. The replies are taken in an arbitrary order here.
-/

namespace RealTimeWs

variable {α : Type}

/-- The own properties of an object literal, in the order of their creation. -/
structure ScriptObject (α : Type) where
  own : List (String × α)

namespace ScriptObject

/-- `{}` -/
def empty : ScriptObject α := ⟨[]⟩

/-- `Object.keys` -/
def keys (object : ScriptObject α) : List String := object.own.map Prod.fst

/-- The own property of a name. -/
def get (object : ScriptObject α) (key : String) : Option α := object.own.lookup key

/-- `object[key] = value`. The name `__proto__` reaches the setter that every object
inherits, which replaces the prototype and creates no property. -/
def assign (object : ScriptObject α) (key : String) (value : α) : ScriptObject α :=
  if key = "__proto__" then object
  else if key ∈ object.keys then
    ⟨object.own.map fun entry => if entry.1 = key then (key, value) else entry⟩
  else ⟨object.own ++ [(key, value)]⟩

theorem own_assign_of_fresh {object : ScriptObject α} {key : String}
    (hproto : key ≠ "__proto__") (hfresh : key ∉ object.keys) (value : α) :
    (object.assign key value).own = object.own ++ [(key, value)] := by
  rw [assign, if_neg hproto, if_neg hfresh]

end ScriptObject

namespace DevicesService

/-- The variables of one call of `getConnectedDevices`, with the arguments of all
calls of `after_callback` so far. -/
structure Progress (α : Type) where
  connectedDevices : ScriptObject α
  calls : List (ScriptObject α)

/-- The callback of one `SMEMBERS`. -/
def collected (connectable : List String) (progress : Progress α) (arrival : String × α) :
    Progress α :=
  let connectedDevices := progress.connectedDevices.assign arrival.1 arrival.2
  ⟨connectedDevices,
    if connectedDevices.keys.length = connectable.length then
      progress.calls ++ [connectedDevices]
    else progress.calls⟩

/-- `getConnectedDevices` after some of its replies, each with the device it is for. -/
def getConnectedDevices (connectable : List String) (arrivals : List (String × α)) : Progress α :=
  arrivals.foldl (collected connectable) ⟨.empty, []⟩

/-- The callback is called once, after the last reply, with all replies. -/
def Completes (connectable : List String) (arrivals : List (String × α)) : Prop :=
  ∃ before last object, arrivals = before ++ [last] ∧
    (getConnectedDevices connectable before).calls = [] ∧
    (getConnectedDevices connectable arrivals).calls = [object] ∧
    ∀ device connected, (device, connected) ∈ arrivals → object.get device = some connected

end DevicesService

/-- What a page request is answered with. -/
inductive PageResponse (α : Type) where
  | homepage (connectableDevices : List String) (connectedDevices : ScriptObject α)
  | device (name : String) (data : Option Redis.Hash) (connectableDevices : List String)
      (connectedDevices : ScriptObject α)
  | redirect (location : String)

/-- The responses to a request for the homepage. -/
def HomepageController.index (connectable : List String) (arrivals : List (String × α)) :
    List (PageResponse α) :=
  (DevicesService.getConnectedDevices connectable arrivals).calls.map
    fun connected => .homepage connectable connected

/-- The responses to a request for the page of a device, `registered` or not. -/
def DeviceController.index (device : String) (registered : Bool) (data : Option Redis.Hash)
    (connectable : List String) (arrivals : List (String × α)) : List (PageResponse α) :=
  if registered then (DevicesService.getConnectedDevices connectable arrivals).calls.map
    fun connected => .device device data connectable connected
  else [.redirect "/"]

namespace DevicesService

theorem getConnectedDevices_concat (connectable : List String) (before : List (String × α))
    (last : String × α) :
    getConnectedDevices connectable (before ++ [last]) =
      collected connectable (getConnectedDevices connectable before) last := by
  simp [getConnectedDevices]

/-- Replies for distinct devices are collected one by one, except for `__proto__`. -/
theorem own_getConnectedDevices (connectable : List String) {arrivals : List (String × α)}
    (hnodup : (arrivals.map Prod.fst).Nodup) :
    (getConnectedDevices connectable arrivals).connectedDevices.own =
      arrivals.filter fun arrival => arrival.1 ≠ "__proto__" := by
  induction arrivals using List.reverseRecOn with
  | nil => rfl
  | append_singleton before last ih =>
      rw [List.map_append, List.map_singleton, List.nodup_append] at hnodup
      have hbefore := ih hnodup.1
      rw [getConnectedDevices_concat, List.filter_append]
      by_cases hproto : last.1 = "__proto__"
      · simp [collected, ScriptObject.assign, hproto, hbefore]
      · have hfresh :
            last.1 ∉ (getConnectedDevices connectable before).connectedDevices.keys := by
          intro hmem
          rw [ScriptObject.keys, hbefore] at hmem
          obtain ⟨arrival, hfilter, hname⟩ := List.mem_map.mp hmem
          exact hnodup.2.2 _ (List.mem_map_of_mem (List.mem_of_mem_filter hfilter)) _
            (List.mem_singleton_self _) hname
        simp [collected, ScriptObject.own_assign_of_fresh hproto hfresh, hbefore, hproto]

/-- The number that each reply compares with the number of the devices. -/
theorem length_keys (connectable : List String) {arrivals : List (String × α)}
    (hnodup : (arrivals.map Prod.fst).Nodup) :
    (getConnectedDevices connectable arrivals).connectedDevices.keys.length =
      (arrivals.filter fun arrival => arrival.1 ≠ "__proto__").length := by
  rw [ScriptObject.keys, own_getConnectedDevices connectable hnodup, List.length_map]

/-- No reply calls back while the collected keys are fewer than the devices. -/
theorem calls_eq_nil (connectable : List String) {arrivals : List (String × α)}
    (hnodup : (arrivals.map Prod.fst).Nodup)
    (hfewer : (arrivals.filter fun arrival => arrival.1 ≠ "__proto__").length <
      connectable.length) :
    (getConnectedDevices connectable arrivals).calls = [] := by
  induction arrivals using List.reverseRecOn with
  | nil => rfl
  | append_singleton before last ih =>
      have hkeys := length_keys connectable hnodup
      rw [List.map_append, List.nodup_append] at hnodup
      have hbefore : (before.filter fun arrival => arrival.1 ≠ "__proto__").length <
          connectable.length := by
        rw [List.filter_append, List.length_append] at hfewer
        omega
      rw [getConnectedDevices_concat] at hkeys ⊢
      have hne : ((getConnectedDevices connectable before).connectedDevices.assign
          last.1 last.2).keys.length ≠ connectable.length := by
        intro heq
        rw [collected, heq] at hkeys
        omega
      rw [collected, if_neg hne]
      exact ih hnodup.1 hbefore

/-- Until the last reply the collected keys are fewer than the devices. -/
theorem calls_before (connectable : List String) {arrivals before : List (String × α)}
    {last : String × α} (hnodup : (arrivals.map Prod.fst).Nodup)
    (hlength : arrivals.length = connectable.length) (hsplit : arrivals = before ++ [last]) :
    (getConnectedDevices connectable before).calls = [] := by
  subst hsplit
  rw [List.map_append, List.nodup_append] at hnodup
  apply calls_eq_nil connectable hnodup.1
  have hfilter := List.length_filter_le (fun arrival : String × α => arrival.1 ≠ "__proto__") before
  rw [List.length_append, List.length_singleton] at hlength
  omega

/-- The device `__proto__` is never counted, so the callback is never called. -/
theorem calls_of_proto {connectable : List String} {arrivals : List (String × α)}
    (horder : (arrivals.map Prod.fst).Perm connectable) (hnodup : connectable.Nodup)
    (hproto : "__proto__" ∈ connectable) :
    (getConnectedDevices connectable arrivals).calls = [] := by
  apply calls_eq_nil connectable (horder.nodup_iff.mpr hnodup)
  obtain ⟨arrival, hmem, hname⟩ := List.mem_map.mp (horder.mem_iff.mpr hproto)
  rw [← horder.length_eq, List.length_map]
  apply List.length_filter_lt_length_iff_exists.mpr
  exact ⟨arrival, hmem, by simp [hname]⟩

theorem lookup_of_nodup {arrivals : List (String × α)} (hnodup : (arrivals.map Prod.fst).Nodup)
    {device : String} {connected : α} (hmem : (device, connected) ∈ arrivals) :
    arrivals.lookup device = some connected := by
  induction arrivals with
  | nil => cases hmem
  | cons arrival rest ih =>
      rw [List.map_cons, List.nodup_cons] at hnodup
      rcases List.mem_cons.mp hmem with rfl | hrest
      · simp
      · have hne : device ≠ arrival.1 := by
          intro heq
          exact hnodup.1 (heq ▸ List.mem_map_of_mem hrest)
        rw [List.lookup_cons, beq_false_of_ne hne]
        exact ih hnodup.2 hrest

/-- Distinct devices other than `__proto__` are all there after the last reply only. -/
theorem completes_of_plain {connectable : List String} {arrivals : List (String × α)}
    (hnodup : connectable.Nodup) (horder : (arrivals.map Prod.fst).Perm connectable)
    (hne : connectable ≠ []) (hproto : "__proto__" ∉ connectable) :
    Completes connectable arrivals := by
  have hnames : (arrivals.map Prod.fst).Nodup := horder.nodup_iff.mpr hnodup
  have hlength : arrivals.length = connectable.length := by
    rw [← horder.length_eq, List.length_map]
  have hall : (arrivals.filter fun arrival => arrival.1 ≠ "__proto__") = arrivals := by
    rw [List.filter_eq_self]
    intro arrival hmem
    have hdevice := horder.mem_iff.mp (List.mem_map_of_mem hmem)
    simpa using fun heq : arrival.1 = "__proto__" => hproto (heq ▸ hdevice)
  have hsome : arrivals ≠ [] := by
    intro hnil
    rw [hnil, List.map_nil] at horder
    exact hne horder.symm.eq_nil
  obtain ⟨before, last, hsplit⟩ := (List.eq_nil_or_concat' arrivals).resolve_left hsome
  have hown := own_getConnectedDevices connectable hnames
  rw [hall] at hown
  refine ⟨before, last, (getConnectedDevices connectable arrivals).connectedDevices, hsplit,
    ?_, ?_, ?_⟩
  · exact calls_before connectable hnames hlength hsplit
  · have hkeys := length_keys connectable hnames
    rw [hall, hlength, hsplit, getConnectedDevices_concat] at hkeys
    rw [hsplit, getConnectedDevices_concat]
    simp only [collected] at hkeys ⊢
    rw [if_pos hkeys, calls_before connectable hnames hlength hsplit, List.nil_append]
  · intro device connected hmem
    rw [ScriptObject.get, hown]
    exact lookup_of_nodup hnames hmem

/-- Without `__proto__` and with at least one device, and only then, each page is
answered, by a callback that has seen every reply. -/
theorem pages_answered_iff (connectable : List String) (hnodup : connectable.Nodup)
    (arrivals : List (String × α)) (horder : (arrivals.map Prod.fst).Perm connectable) :
    (Completes connectable arrivals ∧ HomepageController.index connectable arrivals ≠ [] ∧
      ∀ device registered data,
        DeviceController.index device registered data connectable arrivals ≠ []) ↔
      connectable ≠ [] ∧ "__proto__" ∉ connectable := by
  constructor
  · rintro ⟨⟨before, last, object, hsplit, -, hcalls, -⟩, -, -⟩
    constructor
    · intro hnil
      rw [hnil, hsplit, List.map_append] at horder
      simpa using horder.eq_nil
    · intro hproto
      rw [calls_of_proto horder hnodup hproto] at hcalls
      cases hcalls
  · rintro ⟨hne, hproto⟩
    have hcompletes := completes_of_plain hnodup horder hne hproto
    obtain ⟨before, last, object, -, -, hcalls, -⟩ := id hcompletes
    refine ⟨hcompletes, ?_, ?_⟩
    · simp [HomepageController.index, hcalls]
    · intro device registered data
      cases registered <;> simp [DeviceController.index, hcalls]

/-- Three devices whose replies arrive in another order. -/
theorem pages_answered_three :
    Completes ["temp_000001", "adch_000002", "constructor"]
      [("adch_000002", ["temp_000001"]), ("constructor", []), ("temp_000001", [])] :=
  ((pages_answered_iff ["temp_000001", "adch_000002", "constructor"] (by decide)
    [("adch_000002", ["temp_000001"]), ("constructor", []), ("temp_000001", [])]
    (by decide)).mpr (by decide)).1

/-- The homepage of a server without devices is never answered. -/
theorem empty_homepage_unanswered :
    ([] : List String).Nodup ∧ ¬ Completes [] ([] : List (String × List String)) ∧
      HomepageController.index [] ([] : List (String × List String)) = [] := by
  refine ⟨List.nodup_nil, ?_, rfl⟩
  intro hcompletes
  obtain ⟨before, last, object, hsplit, -, -, -⟩ := hcompletes
  simp at hsplit

end DevicesService

end RealTimeWs
