import RealTimeWs.Text.Decimal

/-! # A Redis database

Keys hold counters, hashes, lists or sets. Every command names one key and acts
on the value found there; a command for another type of value changes nothing and
is answered with an error. Sets are unordered, so the order in which their members
are returned is left open, separately for every command. Counters stay below 2 ^ 63:
the error of `INCR` and `HINCRBY` on an overflow is left out.
-/

namespace Redis

/-- The fields of a hash. -/
abbrev Hash := String → Option String

/-- What a key can hold. -/
inductive Value where
  | counter (n : Int)
  | hash (fields : Hash)
  | list (elements : List String)
  | set (members : Finset String)

/-- The value at each key, none where the key does not exist. -/
abbrev Store := String → Option Value

/-- The database before the first command. -/
def empty : Store := fun _ => none

/-- The order in which the `n`-th command of the connection enumerates a set. -/
structure SetOrder where
  enumerate : Nat → Finset String → List String
  nodup : ∀ n members, (enumerate n members).Nodup
  mem_enumerate : ∀ n members x, x ∈ enumerate n members ↔ x ∈ members

/-- The commands that the server uses, without the key that each of them names. -/
inductive Operation where
  | del
  | existsKey
  | get
  | incr
  | hincrby (field : String) (increment : Int)
  | hmget (fields : List String)
  | hget (field : String)
  | hgetall
  | hmset (pairs : List (String × String))
  | lindex (index : Nat)
  | lpush (element : String)
  | rpush (element : String)
  | lrange (start stop : Nat)
  | ltrim (start stop : Nat)
  | sadd (member : String)
  | sismember (member : String)
  | smembers
  | srem (member : String)

/-- An operation on the value at a key. -/
structure Command where
  key : String
  op : Operation

/-- A reply as the client library hands it to a callback: `HGETALL` arrives as an object,
which is none for a missing key. -/
inductive Reply where
  | error
  | status
  | integer (n : Int)
  | bulk (text : Option String)
  | array (texts : List (Option String))
  | members (texts : List String)
  | object (fields : Option Hash)

namespace Hash

/-- The hash without fields. -/
def none : Hash := fun _ => Option.none

/-- Write one field after the other. -/
def setAll (fields : Hash) (pairs : List (String × String)) : Hash :=
  pairs.foldl (fun h pair => Function.update h pair.1 (some pair.2)) fields

@[simp] theorem setAll_nil (fields : Hash) : fields.setAll [] = fields := rfl

@[simp] theorem setAll_cons (fields : Hash) (pair : String × String)
    (rest : List (String × String)) :
    fields.setAll (pair :: rest) = setAll (Function.update fields pair.1 (some pair.2)) rest := rfl

/-- Fields that are not written keep their values. -/
theorem setAll_of_not_mem (fields : Hash) (pairs : List (String × String)) (field : String)
    (hnot : field ∉ pairs.map Prod.fst) : fields.setAll pairs field = fields field := by
  induction pairs generalizing fields with
  | nil => rfl
  | cons pair rest ih =>
      simp only [List.map_cons, List.mem_cons, not_or] at hnot
      rw [setAll_cons, ih _ hnot.2, Function.update_of_ne hnot.1]

/-- Writing never removes a field. -/
theorem setAll_isSome (fields : Hash) (pairs : List (String × String)) (field : String)
    (hsome : (fields field).isSome) : (fields.setAll pairs field).isSome := by
  induction pairs generalizing fields with
  | nil => exact hsome
  | cons pair rest ih =>
      apply ih
      by_cases heq : field = pair.1
      · simp [heq]
      · simpa [Function.update_of_ne heq] using hsome

end Hash

/-- The inclusive range of a list between two indices. -/
def slice (start stop : Nat) (elements : List String) : List String :=
  (elements.drop start).take (stop + 1 - start)

namespace Operation

/-- The value left at the key. -/
def update : Operation → Option Value → Option Value
  | .del, _ => none
  | .incr, none => some (.counter 1)
  | .incr, some (.counter n) => some (.counter (n + 1))
  | .hincrby field increment, none => some (.hash (Hash.none.setAll [(field, increment.repr)]))
  | .hincrby field increment, some (.hash fields) =>
      match fields field with
      | none => some (.hash (fields.setAll [(field, increment.repr)]))
      | some text =>
          match Decimal.intValue text with
          | none => some (.hash fields)
          | some n => some (.hash (fields.setAll [(field, (n + increment).repr)]))
  | .hmset pairs, none => some (.hash (Hash.none.setAll pairs))
  | .hmset pairs, some (.hash fields) => some (.hash (fields.setAll pairs))
  | .lpush element, none => some (.list [element])
  | .lpush element, some (.list elements) => some (.list (element :: elements))
  | .rpush element, none => some (.list [element])
  | .rpush element, some (.list elements) => some (.list (elements ++ [element]))
  | .ltrim start stop, some (.list elements) =>
      match slice start stop elements with
      | [] => none
      | kept => some (.list kept)
  | .sadd member, none => some (.set {member})
  | .sadd member, some (.set members) => some (.set (insert member members))
  | .srem member, some (.set members) =>
      if members.erase member = ∅ then none else some (.set (members.erase member))
  | _, value => value

/-- The reply sent to the client. A missing key reads as the empty value. -/
def reply (order : SetOrder) (n : Nat) : Operation → Option Value → Reply
  | .del, value => .integer (if value.isSome then 1 else 0)
  | .existsKey, value => .integer (if value.isSome then 1 else 0)
  | .get, none => .bulk none
  | .get, some (.counter n) => .bulk (some n.repr)
  | .incr, none => .integer 1
  | .incr, some (.counter n) => .integer (n + 1)
  | .hincrby _ increment, none => .integer increment
  | .hincrby field increment, some (.hash fields) =>
      match fields field with
      | none => .integer increment
      | some text =>
          match Decimal.intValue text with
          | none => .error
          | some n => .integer (n + increment)
  | .hmget fields, none => .array (fields.map fun _ => none)
  | .hmget fields, some (.hash values) => .array (fields.map values)
  | .hget _, none => .bulk none
  | .hget field, some (.hash fields) => .bulk (fields field)
  | .hgetall, none => .object none
  | .hgetall, some (.hash fields) => .object (some fields)
  | .hmset _, none => .status
  | .hmset _, some (.hash _) => .status
  | .lindex _, none => .bulk none
  | .lindex index, some (.list elements) => .bulk elements[index]?
  | .lpush _, none => .integer 1
  | .lpush _, some (.list elements) => .integer (elements.length + 1)
  | .rpush _, none => .integer 1
  | .rpush _, some (.list elements) => .integer (elements.length + 1)
  | .lrange _ _, none => .members []
  | .lrange start stop, some (.list elements) => .members (slice start stop elements)
  | .ltrim _ _, none => .status
  | .ltrim _ _, some (.list _) => .status
  | .sadd _, none => .integer 1
  | .sadd member, some (.set members) => .integer (if member ∈ members then 0 else 1)
  | .sismember _, none => .integer 0
  | .sismember member, some (.set members) => .integer (if member ∈ members then 1 else 0)
  | .smembers, none => .members []
  | .smembers, some (.set members) => .members (order.enumerate n members)
  | .srem _, none => .integer 0
  | .srem member, some (.set members) => .integer (if member ∈ members then 1 else 0)
  | _, _ => .error

end Operation

/-- Execute the `n`-th command of the connection. -/
def execute (order : SetOrder) (n : Nat) (store : Store) (command : Command) : Store × Reply :=
  (Function.update store command.key (command.op.update (store command.key)),
    command.op.reply order n (store command.key))

/-! ## Reading a store

The functions below say what a store holds, with the empty value for a missing
key or a value of another type. -/

/-- The members of the set at a key. -/
def setAt (store : Store) (key : String) : Finset String :=
  match store key with
  | some (.set members) => members
  | _ => ∅

/-- The fields of a hash value, none for a missing key. -/
def fieldsOf : Option Value → Hash
  | some (.hash fields) => fields
  | _ => Hash.none

/-- The fields of the hash at a key. -/
def fieldAt (store : Store) (key : String) : Hash := fieldsOf (store key)

end Redis
