import RealTimeWs.Redis.Store
import RealTimeWs.Pipeline.Invariant

/-! # Laws of the database

A command leaves every other key alone, so what a batch of commands leaves at a
key is what the operations on that key do to it, one after the other. The type of
a value only depends on which operations a key ever sees.
-/

namespace Redis

variable (order : SetOrder)

theorem execute_of_ne (n : Nat) (store : Store) (command : Command) (key : String)
    (hne : key ≠ command.key) : (execute order n store command).1 key = store key :=
  Function.update_of_ne hne _ _

@[simp] theorem execute_key (n : Nat) (store : Store) (command : Command) :
    (execute order n store command).1 command.key = command.op.update (store command.key) :=
  Function.update_self _ _ _

/-- Operations applied to the value at one key, one after the other. -/
def applyAll (ops : List Operation) (value : Option Value) : Option Value :=
  ops.foldl (fun value op => op.update value) value

@[simp] theorem applyAll_nil (value : Option Value) : applyAll [] value = value := rfl

@[simp] theorem applyAll_cons (op : Operation) (rest : List Operation) (value : Option Value) :
    applyAll (op :: rest) value = applyAll rest (op.update value) := rfl

theorem applyAll_append (first second : List Operation) (value : Option Value) :
    applyAll (first ++ second) value = applyAll second (applyAll first value) :=
  List.foldl_append

namespace Operation

/-- Operations that never change the value at their key. -/
def isRead : Operation → Bool
  | .existsKey | .get | .hmget _ | .hget _ | .hgetall | .lindex _ | .lrange _ _ => true
  | .sismember _ | .smembers => true
  | _ => false

theorem update_of_isRead {op : Operation} (hread : op.isRead = true) (value : Option Value) :
    op.update value = value := by
  cases op <;> first | rfl | cases hread

end Operation

/-- Reading leaves the store as it is. -/
theorem execute_of_isRead (n : Nat) (store : Store) {command : Command}
    (hread : command.op.isRead = true) : (execute order n store command).1 = store := by
  rw [execute, Operation.update_of_isRead hread]
  exact Function.update_eq_self _ _

theorem execute_read {op : Operation} (hread : op.isRead = true) (n : Nat) (store : Store)
    (key : String) : execute order n store ⟨key, op⟩ = (store, op.reply order n (store key)) :=
  Prod.ext (execute_of_isRead order n store hread) rfl

section Batch

variable {Callback Event Clock Output Memory : Type}
variable (client : Pipeline.Client Store Command Reply Callback Event Clock Output Memory)

/-- The commands of a batch that may change the value at their key. -/
def writes (batch : List (Command × Callback)) : List Command :=
  (batch.map Prod.fst).filter fun command => !command.op.isRead

/-- The operations on one key, in order. -/
def opsAt (key : String) (commands : List Command) : List Operation :=
  (commands.filter fun command => command.key = key).map Command.op

@[simp] theorem opsAt_nil (key : String) : opsAt key [] = [] := rfl

theorem opsAt_cons (key : String) (command : Command) (rest : List Command) :
    opsAt key (command :: rest) =
      if command.key = key then command.op :: opsAt key rest else opsAt key rest := by
  by_cases heq : command.key = key <;> simp [opsAt, heq]

theorem opsAt_append (key : String) (first second : List Command) :
    opsAt key (first ++ second) = opsAt key first ++ opsAt key second := by
  simp [opsAt]

/-- Commands that all name one key. -/
theorem opsAt_of_key_eq (key other : String) (commands : List Command)
    (hkey : ∀ command ∈ commands, command.key = other) :
    opsAt key commands = if other = key then commands.map Command.op else [] := by
  rw [opsAt]
  split
  next heq =>
      rw [List.filter_eq_self.mpr]
      intro command hmem
      simp [hkey command hmem, heq]
  next hne =>
      rw [List.filter_eq_nil_iff.mpr]
      · rfl
      · intro command hmem
        simp [hkey command hmem, hne]

theorem opsAt_of_key_ne (key : String) (commands : List Command)
    (hkey : ∀ command ∈ commands, command.key ≠ key) : opsAt key commands = [] := by
  rw [opsAt, List.filter_eq_nil_iff.mpr]
  · rfl
  · intro command hmem
    simpa using hkey command hmem

@[simp] theorem writes_nil : writes ([] : List (Command × Callback)) = [] := rfl

theorem writes_cons (command : Command) (callback : Callback)
    (rest : List (Command × Callback)) :
    writes ((command, callback) :: rest) =
      if command.op.isRead then writes rest else command :: writes rest := by
  cases hread : command.op.isRead <;> simp [writes, hread]

theorem writes_append (first second : List (Command × Callback)) :
    writes (first ++ second) = writes first ++ writes second := by
  simp [writes]

/-- A batch of reads writes nothing. -/
theorem writes_of_isRead (batch : List (Command × Callback))
    (hread : ∀ entry ∈ batch, entry.1.op.isRead = true) : writes batch = [] := by
  rw [writes, List.filter_eq_nil_iff]
  intro command hmem
  obtain ⟨entry, hentry, rfl⟩ := List.mem_map.mp hmem
  simp [hread entry hentry]

/-- A command that is no read is among the writes. -/
theorem mem_writes {batch : List (Command × Callback)} {command : Command} {callback : Callback}
    (hmem : (command, callback) ∈ batch) (hwrite : command.op.isRead = false) :
    command ∈ writes batch := by
  apply List.mem_filter.mpr
  exact ⟨List.mem_map.mpr ⟨_, hmem, rfl⟩, by simp [hwrite]⟩

/-- What a batch leaves at a key. -/
theorem storeAfter_apply (hexecute : client.execute = execute order) (n : Nat) (store : Store)
    (batch : List (Command × Callback)) (key : String) :
    client.storeAfter n store batch key =
      applyAll (opsAt key (writes batch)) (store key) := by
  induction batch generalizing n store with
  | nil => rfl
  | cons entry rest ih =>
      obtain ⟨command, callback⟩ := entry
      rw [Pipeline.Client.storeAfter_cons, ih, hexecute, writes_cons]
      by_cases heq : command.key = key
      · subst heq
        cases hread : command.op.isRead with
        | true => simp [Operation.update_of_isRead hread]
        | false => simp [opsAt_cons]
      · rw [execute_of_ne order n store command key (Ne.symm heq)]
        split
        · rfl
        · rw [opsAt_cons, if_neg heq]

/-- A batch of reads leaves the store as it is. -/
theorem storeAfter_of_isRead (hexecute : client.execute = execute order) (n : Nat) (store : Store)
    {batch : List (Command × Callback)} (hread : ∀ entry ∈ batch, entry.1.op.isRead = true) :
    client.storeAfter n store batch = store := by
  funext key
  rw [storeAfter_apply order client hexecute, writes_of_isRead batch hread]
  rfl

/-- The replies to a batch whose command at this place sees its key untouched. -/
theorem mem_answersTo (hexecute : client.execute = execute order) (n : Nat) (store : Store)
    (batch : List (Command × Callback)) (a : Pipeline.Answer Reply Callback)
    (hmem : a ∈ client.answersTo n store batch) :
    ∃ before command after, batch = before ++ (command, a.callback) :: after ∧
      a.ordinal = n + before.length ∧
      a.reply = command.op.reply order a.ordinal
        (client.storeAfter n store before command.key) := by
  induction batch generalizing n store with
  | nil => simp at hmem
  | cons entry rest ih =>
      obtain ⟨command, callback⟩ := entry
      rw [Pipeline.Client.answersTo_cons, List.mem_cons] at hmem
      rcases hmem with rfl | hmem
      · refine ⟨[], command, rest, rfl, rfl, ?_⟩
        rw [hexecute]
        rfl
      · obtain ⟨before, other, after, hsplit, hordinal, hreply⟩ := ih _ _ hmem
        refine ⟨(command, callback) :: before, other, after, by rw [hsplit]; rfl, ?_, hreply⟩
        rw [hordinal, List.length_cons]
        omega

end Batch

/-! ## Types of values -/

/-- The types of values. -/
inductive Kind where
  | counter
  | hash
  | list
  | set
  deriving DecidableEq

/-- A key of this kind is missing or holds a value of it. -/
def Kind.Admits : Kind → Option Value → Prop
  | _, none => True
  | .counter, some (.counter _) => True
  | .hash, some (.hash _) => True
  | .list, some (.list _) => True
  | .set, some (.set _) => True
  | _, some _ => False

/-- The kind of value that an operation creates at a missing key. -/
def Operation.creates : Operation → Option Kind
  | .incr => some .counter
  | .hincrby _ _ => some .hash
  | .hmset _ => some .hash
  | .lpush _ => some .list
  | .rpush _ => some .list
  | .sadd _ => some .set
  | _ => none

/-- An operation that creates nothing else keeps the kind of a key. -/
theorem admits_update {kind : Kind} {op : Operation} {value : Option Value}
    (hcreates : ∀ other, op.creates = some other → other = kind)
    (hadmits : kind.Admits value) : kind.Admits (op.update value) := by
  cases value with
  | none =>
      cases op <;> cases kind <;>
        first
        | trivial
        | exact absurd (hcreates _ rfl) (by decide)
  | some held =>
      cases held <;> cases kind <;> cases op <;>
        first
        | trivial
        | exact hadmits.elim
        | (simp only [Operation.update]; split <;> trivial)
        | (simp only [Operation.update]; split <;> (try split) <;> trivial)

/-- A batch keeps the kind of a key when each of its operations does. -/
theorem admits_applyAll {kind : Kind} (ops : List Operation) (value : Option Value)
    (hcreates : ∀ op ∈ ops, ∀ other, op.creates = some other → other = kind)
    (hadmits : kind.Admits value) :
    kind.Admits (applyAll ops value) := by
  induction ops generalizing value with
  | nil => exact hadmits
  | cons op rest ih =>
      exact ih _ (fun op hmem => hcreates op (List.mem_cons_of_mem _ hmem))
        (admits_update (hcreates op List.mem_cons_self) hadmits)

/-! ## Fields of hashes -/

/-- What incrementing a field does to a hash. -/
def Hash.increment (fields : Hash) (field : String) (increment : Int) : Hash :=
  match fields field with
  | Option.none => fields.setAll [(field, increment.repr)]
  | some text =>
      match Decimal.intValue text with
      | Option.none => fields
      | some n => fields.setAll [(field, (n + increment).repr)]

namespace Hash

theorem increment_of_ne (fields : Hash) {field other : String} (increment : Int)
    (hne : other ≠ field) : fields.increment field increment other = fields other := by
  cases hheld : fields field with
  | none => simp [Hash.increment, hheld, hne]
  | some text =>
      cases hparsed : Decimal.intValue text with
      | none => simp [Hash.increment, hheld, hparsed]
      | some n => simp [Hash.increment, hheld, hparsed, hne]

/-- A counter that holds a natural number goes on to the next one. -/
theorem increment_self (fields : Hash) {field : String} {n : Nat}
    (hheld : fields field = some n.repr) :
    fields.increment field 1 field = some (n + 1).repr := by
  unfold Hash.increment
  rw [hheld]
  simp only [Decimal.intValue_repr, setAll_cons, setAll_nil, Function.update_self]
  rfl

theorem increment_none (fields : Hash) {field : String} (hmissing : fields field = Option.none) :
    fields.increment field 1 field = some (Nat.repr 1) := by
  unfold Hash.increment
  rw [hmissing]
  simp only [setAll_cons, setAll_nil, Function.update_self]
  rfl

end Hash

theorem fieldsOf_hmset {value : Option Value} (hadmits : Kind.hash.Admits value)
    (pairs : List (String × String)) :
    fieldsOf ((Operation.hmset pairs).update value) = (fieldsOf value).setAll pairs := by
  cases value with
  | none => rfl
  | some held =>
      cases held with
      | hash fields => rfl
      | _ => exact hadmits.elim

/-- Fields are only set in a hash. -/
theorem fieldsOf_hmset_eq (value : Option Value) (pairs : List (String × String)) :
    fieldsOf ((Operation.hmset pairs).update value) = fieldsOf value ∨
      fieldsOf ((Operation.hmset pairs).update value) = (fieldsOf value).setAll pairs := by
  by_cases hadmits : Kind.hash.Admits value
  · exact Or.inr (fieldsOf_hmset hadmits pairs)
  · left
    cases value with
    | none => exact absurd trivial hadmits
    | some held =>
        cases held with
        | hash fields => exact absurd trivial hadmits
        | _ => rfl

theorem update_hincrby (fields : Hash) (field : String) (increment : Int) :
    (Operation.hincrby field increment).update (some (.hash fields)) =
      some (.hash (fields.increment field increment)) := by
  cases hheld : fields field with
  | none => simp [Operation.update, Hash.increment, hheld]
  | some text =>
      cases hparsed : Decimal.intValue text <;>
        simp [Operation.update, Hash.increment, hheld, hparsed]

theorem fieldsOf_hincrby {value : Option Value} (hadmits : Kind.hash.Admits value)
    (field : String) (increment : Int) :
    fieldsOf ((Operation.hincrby field increment).update value) =
      (fieldsOf value).increment field increment := by
  cases value with
  | none => rfl
  | some held =>
      cases held with
      | hash fields =>
          rw [update_hincrby]
          rfl
      | _ => exact hadmits.elim

/-! ## Members of sets -/

/-- Only an addition puts a member into a set. -/
theorem mem_of_update_eq_set {op : Operation} {value : Option Value} {members : Finset String}
    {member : String} (hupdate : op.update value = some (.set members)) (hmem : member ∈ members) :
    op = .sadd member ∨ ∃ held, value = some (.set held) ∧ member ∈ held := by
  cases op with
  | sadd added =>
      cases value with
      | none =>
          cases hupdate
          exact Or.inl (congrArg Operation.sadd (Finset.mem_singleton.mp hmem).symm)
      | some held =>
          cases held with
          | set held =>
              cases hupdate
              rcases Finset.mem_insert.mp hmem with rfl | hold
              · exact Or.inl rfl
              · exact Or.inr ⟨held, rfl, hold⟩
          | _ => cases hupdate
  | srem removed =>
      right
      cases value with
      | none => cases hupdate
      | some held =>
          cases held with
          | set held =>
              simp only [Operation.update, Option.ite_none_left_eq_some, Option.some.injEq,
                Value.set.injEq] at hupdate
              refine ⟨held, rfl, ?_⟩
              rw [← hupdate.2] at hmem
              exact Finset.mem_of_mem_erase hmem
          | _ => cases hupdate
  | ltrim start stop =>
      cases value with
      | none => cases hupdate
      | some held =>
          cases held with
          | list elements =>
              simp only [Operation.update] at hupdate
              split at hupdate <;> cases hupdate
          | _ => simp_all [Operation.update]
  | hincrby field increment =>
      cases value with
      | none => cases hupdate
      | some held =>
          cases held with
          | hash fields =>
              rw [update_hincrby] at hupdate
              cases hupdate
          | _ => simp_all [Operation.update]
  | _ =>
      right
      cases value with
      | none => cases hupdate
      | some held => cases held <;> simp_all [Operation.update]

theorem mem_setAt_iff {store : Store} {key member : String} :
    member ∈ setAt store key ↔ ∃ members, store key = some (.set members) ∧ member ∈ members := by
  rw [setAt]
  cases store key with
  | none => simp
  | some value => cases value <;> simp

theorem mem_setAt_execute {n : Nat} {store : Store} {command : Command} {key member : String}
    (hmem : member ∈ setAt (execute order n store command).1 key) :
    member ∈ setAt store key ∨ command = ⟨key, .sadd member⟩ := by
  obtain ⟨members, hvalue, hmember⟩ := mem_setAt_iff.mp hmem
  by_cases hkey : key = command.key
  · obtain ⟨other, op⟩ := command
    simp only at hkey
    subst hkey
    rw [execute_key] at hvalue
    rcases mem_of_update_eq_set hvalue hmember with rfl | hheld
    · exact Or.inr rfl
    · exact Or.inl (mem_setAt_iff.mpr hheld)
  · left
    rw [execute_of_ne _ _ _ _ _ hkey] at hvalue
    exact mem_setAt_iff.mpr ⟨members, hvalue, hmember⟩

end Redis
