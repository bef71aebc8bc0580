import RealTimeWs.Redis.Laws

/-! # Names of the records

The server builds its keys by concatenation: the identifier of a device is the
suffix of two kinds of keys and the prefix of two others. Identifiers without a
colon other than `device` and `connection` keep the four families apart; each key
then shows its family before its first colon.
-/

namespace RealTimeWs

open Redis

/-- The set of the registered devices. -/
def devicesKey : String := "devices"

/-- The counter of all messages. -/
def msgCountKey : String := "msg_count"

/-- The hash with the address and the state of a device. -/
def recordKey (device : String) : String := "device:" ++ device

/-- The list of the readings of a device, newest first. -/
def dataKey (device : String) : String := device ++ ":data"

/-- The hash that maps readings of a device to forwarded values. -/
def tableKey (device : String) : String := device ++ ":table"

/-- The set of the devices that a device is connected to. -/
def connectionKey (device : String) : String := "connection:" ++ device

/-- Identifiers for which the families of keys cannot meet. -/
def Plain (device : String) : Prop :=
  ':' ∉ device.toList ∧ device ≠ "device" ∧ device ≠ "connection"

instance (device : String) : Decidable (Plain device) :=
  inferInstanceAs (Decidable (_ ∧ _ ∧ _))

/-- The part of a key before its first colon. -/
def family (key : String) : List Char := key.toList.takeWhile (· ≠ ':')

@[simp] theorem family_recordKey (device : String) :
    family (recordKey device) = "device".toList := by
  simp [family, recordKey]

@[simp] theorem family_connectionKey (device : String) :
    family (connectionKey device) = "connection".toList := by
  simp [family, connectionKey]

theorem takeWhile_append_colon (text rest : List Char) (hcolon : ':' ∉ text) :
    (text ++ ':' :: rest).takeWhile (· ≠ ':') = text := by
  rw [List.takeWhile_append_of_pos]
  · simp
  · intro c hmem
    simpa using fun heq : c = ':' => hcolon (heq ▸ hmem)

theorem family_tableKey {device : String} (hplain : Plain device) :
    family (tableKey device) = device.toList := by
  rw [family, tableKey, String.toList_append]
  exact takeWhile_append_colon _ _ hplain.1

theorem family_dataKey {device : String} (hplain : Plain device) :
    family (dataKey device) = device.toList := by
  rw [family, dataKey, String.toList_append]
  exact takeWhile_append_colon _ _ hplain.1

theorem recordKey_injective : Function.Injective recordKey := by
  intro left right heq
  have hlists := congrArg String.toList heq
  simp only [recordKey, String.toList_append, List.append_cancel_left_eq] at hlists
  exact String.toList_inj.mp hlists

theorem connectionKey_injective : Function.Injective connectionKey := by
  intro left right heq
  have hlists := congrArg String.toList heq
  simp only [connectionKey, String.toList_append, List.append_cancel_left_eq] at hlists
  exact String.toList_inj.mp hlists

theorem tableKey_injective : Function.Injective tableKey := by
  intro left right heq
  have hlists := congrArg String.toList heq
  simp only [tableKey, String.toList_append, List.append_cancel_right_eq] at hlists
  exact String.toList_inj.mp hlists

theorem dataKey_injective : Function.Injective dataKey := by
  intro left right heq
  have hlists := congrArg String.toList heq
  simp only [dataKey, String.toList_append, List.append_cancel_right_eq] at hlists
  exact String.toList_inj.mp hlists

@[simp] theorem recordKey_inj {left right : String} :
    recordKey left = recordKey right ↔ left = right := recordKey_injective.eq_iff

@[simp] theorem connectionKey_inj {left right : String} :
    connectionKey left = connectionKey right ↔ left = right := connectionKey_injective.eq_iff

@[simp] theorem tableKey_inj {left right : String} :
    tableKey left = tableKey right ↔ left = right := tableKey_injective.eq_iff

@[simp] theorem dataKey_inj {left right : String} :
    dataKey left = dataKey right ↔ left = right := dataKey_injective.eq_iff

/-! ## Separation -/

/-- A key with a colon is none of the two plain names. -/
theorem ne_of_colon_mem {key name : String} (hcolon : ':' ∈ key.toList)
    (hname : ':' ∉ name.toList) : key ≠ name :=
  fun heq => hname (heq ▸ hcolon)

@[simp] theorem recordKey_ne_devicesKey (device : String) : recordKey device ≠ devicesKey :=
  ne_of_colon_mem (by simp [recordKey]) (by decide)

@[simp] theorem connectionKey_ne_devicesKey (device : String) :
    connectionKey device ≠ devicesKey :=
  ne_of_colon_mem (by simp [connectionKey]) (by decide)

@[simp] theorem tableKey_ne_devicesKey (device : String) : tableKey device ≠ devicesKey :=
  ne_of_colon_mem (by simp [tableKey]) (by decide)

@[simp] theorem dataKey_ne_devicesKey (device : String) : dataKey device ≠ devicesKey :=
  ne_of_colon_mem (by simp [dataKey]) (by decide)

@[simp] theorem recordKey_ne_msgCountKey (device : String) : recordKey device ≠ msgCountKey :=
  ne_of_colon_mem (by simp [recordKey]) (by decide)

@[simp] theorem connectionKey_ne_msgCountKey (device : String) :
    connectionKey device ≠ msgCountKey :=
  ne_of_colon_mem (by simp [connectionKey]) (by decide)

@[simp] theorem tableKey_ne_msgCountKey (device : String) : tableKey device ≠ msgCountKey :=
  ne_of_colon_mem (by simp [tableKey]) (by decide)

@[simp] theorem dataKey_ne_msgCountKey (device : String) : dataKey device ≠ msgCountKey :=
  ne_of_colon_mem (by simp [dataKey]) (by decide)

@[simp] theorem msgCountKey_ne_devicesKey : msgCountKey ≠ devicesKey := by decide

@[simp] theorem recordKey_ne_connectionKey (left right : String) :
    recordKey left ≠ connectionKey right := by
  intro heq
  have hfamily := congrArg family heq
  simp at hfamily

@[simp] theorem dataKey_ne_tableKey (left right : String) : dataKey left ≠ tableKey right := by
  intro heq
  have hlast := congrArg (fun key => key.toList.getLast?) heq
  simp [dataKey, tableKey] at hlast

theorem recordKey_ne_tableKey (left : String) {right : String} (hplain : Plain right) :
    recordKey left ≠ tableKey right := by
  intro heq
  have hfamily := congrArg family heq
  rw [family_recordKey, family_tableKey hplain] at hfamily
  exact hplain.2.1 (String.toList_inj.mp hfamily.symm)

theorem recordKey_ne_dataKey (left : String) {right : String} (hplain : Plain right) :
    recordKey left ≠ dataKey right := by
  intro heq
  have hfamily := congrArg family heq
  rw [family_recordKey, family_dataKey hplain] at hfamily
  exact hplain.2.1 (String.toList_inj.mp hfamily.symm)

theorem connectionKey_ne_tableKey (left : String) {right : String} (hplain : Plain right) :
    connectionKey left ≠ tableKey right := by
  intro heq
  have hfamily := congrArg family heq
  rw [family_connectionKey, family_tableKey hplain] at hfamily
  exact hplain.2.2 (String.toList_inj.mp hfamily.symm)

theorem connectionKey_ne_dataKey (left : String) {right : String} (hplain : Plain right) :
    connectionKey left ≠ dataKey right := by
  intro heq
  have hfamily := congrArg family heq
  rw [family_connectionKey, family_dataKey hplain] at hfamily
  exact hplain.2.2 (String.toList_inj.mp hfamily.symm)

/-- The record and the table of one device never meet. -/
theorem recordKey_ne_tableKey_self (device : String) : recordKey device ≠ tableKey device := by
  intro heq
  have hlength := congrArg (fun key => key.toList.length) heq
  simp only [recordKey, tableKey, String.toList_append, List.length_append] at hlength
  have hrecord : "device:".toList.length = 7 := by decide
  have htable : ":table".toList.length = 6 := by decide
  omega

/-- Nor do the record and the readings of one device. -/
theorem recordKey_ne_dataKey_self (device : String) : recordKey device ≠ dataKey device := by
  intro heq
  have hlength := congrArg (fun key => key.toList.length) heq
  simp only [recordKey, dataKey, String.toList_append, List.length_append] at hlength
  have hrecord : "device:".toList.length = 7 := by decide
  have hdata : ":data".toList.length = 5 := by decide
  omega

/-! ## Where the families meet -/

/-- Keys with a word before the first colon and keys with a word after the last. -/
theorem append_colon_eq_iff {word suffix : String} (hword : ':' ∉ word.toList)
    (left right : String) :
    word ++ ":" ++ right = left ++ ":" ++ suffix ↔
      left = word ∧ right = suffix ∨
        ∃ middle, left = word ++ ":" ++ middle ∧ right = middle ++ ":" ++ suffix := by
  have hcolon : ":".toList = [':'] := by decide
  constructor
  · intro heq
    have hlists := congrArg String.toList heq
    simp only [String.toList_append, hcolon, List.append_assoc, List.singleton_append] at hlists
    rcases List.append_eq_append_iff.mp hlists with ⟨rest, hleft, hrest⟩ | ⟨rest, hlong, hrest⟩
    · cases rest with
      | nil =>
          left
          rw [List.append_nil, String.toList_inj] at hleft
          exact ⟨hleft, String.toList_inj.mp (List.cons.inj hrest).2⟩
      | cons c middle =>
          right
          obtain ⟨rfl, hright⟩ := List.cons.inj hrest
          refine ⟨String.ofList middle, ?_, ?_⟩
          · apply String.toList_inj.mp
            simpa [hcolon] using hleft
          · apply String.toList_inj.mp
            simpa [hcolon] using hright
    · cases rest with
      | nil =>
          left
          rw [List.append_nil, String.toList_inj] at hlong
          exact ⟨hlong.symm, String.toList_inj.mp (List.cons.inj hrest).2.symm⟩
      | cons c middle =>
          -- The word would have a colon of its own.
          obtain ⟨rfl, _⟩ := List.cons.inj hrest
          refine absurd ?_ hword
          rw [hlong]
          simp
  · rintro (⟨rfl, rfl⟩ | ⟨middle, rfl, rfl⟩)
    · rfl
    · simp only [String.append_assoc]

theorem recordKey_eq (device : String) : recordKey device = "device" ++ ":" ++ device := rfl

theorem tableKey_eq (device : String) : tableKey device = device ++ ":" ++ "table" := by
  rw [tableKey, String.append_assoc]
  rfl

theorem dataKey_eq (device : String) : dataKey device = device ++ ":" ++ "data" := by
  rw [dataKey, String.append_assoc]
  rfl

theorem connectionKey_eq (device : String) :
    connectionKey device = "connection" ++ ":" ++ device := rfl

/-- A record of a name without a colon is the table of no device but `device`. -/
theorem eq_device_of_tableKey_eq {left right : String} (hcolon : ':' ∉ right.toList)
    (heq : tableKey left = recordKey right) : left = "device" := by
  rw [tableKey_eq, recordKey_eq, eq_comm, append_colon_eq_iff (by decide)] at heq
  rcases heq with ⟨hleft, _⟩ | ⟨middle, _, rfl⟩
  · exact hleft
  · exact absurd (by simp) hcolon

end RealTimeWs
