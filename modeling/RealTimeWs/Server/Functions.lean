import RealTimeWs.Server.Keys

/-! # Conversion functions

`FunctionsService` fills the table of a device from one of five curves. Two of
them are exact; of the other three only the samples before clamping are taken from
outside, as arbitrary numbers or infinities. Clamping and rounding leave an integer
between 0 and 1023 at each of the 1024 fields.
-/

namespace RealTimeWs

open Redis

/-- A curve evaluated at one point. -/
inductive Sample (K : Type) where
  | negInfinity
  | finite (x : K)
  | infinity

/-- The samples of the three curves that involve floating point. -/
structure Curves where
  K : Type
  [field : Field K]
  [linearOrder : LinearOrder K]
  [strictOrder : IsStrictOrderedRing K]
  [floorRing : FloorRing K]
  exponential : Nat → Sample K
  logarithmic : Nat → Sample K
  wavy : Nat → Sample K

attribute [instance] Curves.field Curves.linearOrder Curves.strictOrder Curves.floorRing

namespace FunctionsService

/-- The functions a device can be given. -/
inductive Allowed where
  | linear
  | exponential
  | logarithmic
  | wavy
  | boolean
  deriving DecidableEq

/-- The name under which a function is requested and recorded. -/
def Allowed.name : Allowed → String
  | .linear => "linear"
  | .exponential => "exponential"
  | .logarithmic => "logarithmic"
  | .wavy => "wavy"
  | .boolean => "boolean"

/-- `allowed` of the service. -/
def allowed : List Allowed := [.linear, .exponential, .logarithmic, .wavy, .boolean]

/-- Look a requested name up among the allowed ones. -/
def find (name : String) : Option Allowed :=
  allowed.find? fun function => function.name = name

theorem find_eq_some {name : String} {function : Allowed} :
    find name = some function ↔ function.name = name := by
  constructor
  · intro hfind
    simpa using List.find?_some hfind
  · intro hname
    subst hname
    cases function <;> decide

section Entries

variable {K : Type} [Field K] [LinearOrder K] [IsStrictOrderedRing K]

/-- The two comparisons made before an entry is rounded. -/
def clamp : Sample K → K
  | .negInfinity => 0
  | .infinity => 1023
  | .finite x =>
      let entry := if x ≤ 0 then 0 else x
      if 1023 ≤ entry then 1023 else entry

theorem clamp_nonneg (sample : Sample K) : 0 ≤ clamp sample := by
  cases sample with
  | negInfinity => exact le_refl 0
  | infinity => simp [clamp]
  | finite x =>
      simp only [clamp]
      split_ifs with hlow hhigh hhigh
      · simp
      · exact le_refl 0
      · simp
      · exact (not_le.mp hlow).le

theorem clamp_le (sample : Sample K) : clamp sample ≤ 1023 := by
  cases sample with
  | negInfinity => simp [clamp]
  | infinity => exact le_refl _
  | finite x =>
      simp only [clamp]
      split_ifs with hlow hhigh hhigh
      · exact le_refl _
      · exact (not_le.mp hhigh).le
      · exact le_refl _
      · exact (not_le.mp hhigh).le

variable [FloorRing K]

/-- `Math.round`: the closest integer, halves upwards. -/
def round (x : K) : Int := ⌊x + 1 / 2⌋

theorem round_intCast (n : Int) : round (n : K) = n := by
  rw [round, Int.floor_eq_iff]
  constructor
  · simp
  · simp only [add_lt_add_iff_left]
    linarith

theorem round_zero : round (0 : K) = 0 := by
  simpa using round_intCast (K := K) 0

theorem round_1023 : round (1023 : K) = 1023 := by
  simpa using round_intCast (K := K) 1023

theorem round_mono {x y : K} (hle : x ≤ y) : round x ≤ round y :=
  Int.floor_le_floor (by linarith)

/-- A rounded value stays between integers that bound it before rounding. -/
theorem round_clamp_bounds (sample : Sample K) :
    0 ≤ round (clamp sample) ∧ round (clamp sample) ≤ 1023 := by
  have hlow := round_mono (clamp_nonneg sample)
  have hhigh := round_mono (clamp_le sample)
  rw [round_zero] at hlow
  rw [round_1023] at hhigh
  exact ⟨hlow, hhigh⟩

end Entries

variable (curves : Curves)

/-- The value a function assigns to a reading. -/
def value : Allowed → Nat → Int
  | .linear, i => round (clamp (.finite (i : ℚ)))
  | .exponential, i => round (clamp (curves.exponential i))
  | .logarithmic, i => round (clamp (curves.logarithmic i))
  | .wavy, i => round (clamp (curves.wavy i))
  | .boolean, i => round (if i ≤ 512 then 0 else 1023 : ℚ)

theorem value_bounds (function : Allowed) (i : Nat) :
    0 ≤ value curves function i ∧ value curves function i ≤ 1023 := by
  cases function with
  | boolean =>
      simp only [value]
      split_ifs
      · rw [round_zero]
        decide
      · rw [round_1023]
        decide
  | _ => exact round_clamp_bounds _

theorem value_linear (i : Nat) (hle : i ≤ 1023) : value curves .linear i = i := by
  have hcast : (i : ℚ) ≤ 1023 := by exact_mod_cast hle
  have hclamp : clamp (.finite (i : ℚ)) = ((i : Int) : ℚ) := by
    simp only [clamp, Int.cast_natCast]
    split_ifs with hlow hhigh hhigh
    · norm_num at hhigh
    · have hzero : (i : ℚ) = 0 := le_antisymm hlow (Nat.cast_nonneg i)
      rw [hzero]
    · exact le_antisymm hhigh hcast
    · rfl
  rw [value, hclamp, round_intCast]

theorem value_boolean_one : value curves .boolean 1 = 0 := by
  rw [value, if_pos (by decide), round_zero]

/-- The fields and values of a complete table, in the order they are written. -/
def entries (function : Allowed) : List (String × String) :=
  (List.range 1024).map fun i => (i.repr, (value curves function i).repr)

/-- The hash a function leaves at the key of the table. -/
def table (function : Allowed) : Hash := Hash.none.setAll (entries curves function)

/-- The commands of one function: the old table is deleted, then each field is
written by a command of its own. None of them has a callback. -/
def commands (function : Allowed) (device : String) : List Command :=
  ⟨tableKey device, .del⟩ ::
    (entries curves function).map fun pair => ⟨tableKey device, .hmset [pair]⟩

/-- The commands of `FunctionsService.linear`. -/
def linear (device : String) : List Command := commands curves .linear device

/-! ## The table that is left -/

/-- Writing one field after the other is writing them all. -/
theorem applyAll_hmset (fields : Hash) (pairs : List (String × String)) :
    applyAll (pairs.map fun pair => Operation.hmset [pair]) (some (.hash fields)) =
      some (.hash (fields.setAll pairs)) := by
  induction pairs generalizing fields with
  | nil => rfl
  | cons pair rest ih =>
      simp only [List.map_cons, applyAll_cons, Operation.update, Hash.setAll_cons,
        Hash.setAll_nil]
      exact ih _

/-- Whatever was stored before, the operations of a function leave its table. -/
theorem applyAll_commands (function : Allowed) (device : String) (value : Option Value) :
    applyAll ((commands curves function device).map Command.op) value =
      some (.hash (table curves function)) := by
  have hentries : entries curves function ≠ [] := by
    intro hnil
    simpa [entries] using congrArg List.length hnil
  obtain ⟨pair, rest, hcons⟩ := List.exists_cons_of_ne_nil hentries
  have hrest := applyAll_hmset (Hash.none.setAll [pair]) rest
  rw [commands, table, hcons]
  simpa [Operation.update, Function.comp_def] using hrest

/-- Later writes of other fields do not matter to a field. -/
theorem setAll_repr (values : Nat → String) (count : Nat) (i : Nat) (fields : Hash) :
    fields.setAll ((List.range count).map fun i => (i.repr, values i)) i.repr =
      if i < count then some (values i) else fields i.repr := by
  induction count generalizing fields with
  | zero => rfl
  | succ count ih =>
      rw [List.range_succ, List.map_append, Hash.setAll, List.foldl_append]
      change Function.update (fields.setAll _) count.repr (some (values count)) i.repr = _
      by_cases heq : i = count
      · subst heq
        simp
      · have hne : i.repr ≠ count.repr := fun h => heq (Nat.repr_inj.mp h)
        rw [Function.update_of_ne hne, ih]
        by_cases hlt : i < count
        · simp [hlt, Nat.lt_succ_of_lt hlt]
        · simp [hlt, show ¬ i < count + 1 by omega]

theorem table_repr (function : Allowed) (i : Nat) (hlt : i < 1024) :
    table curves function i.repr = some (value curves function i).repr := by
  rw [table, entries, setAll_repr (fun i => (value curves function i).repr), if_pos hlt]

/-- The fields of a table are exactly the numbers from 0 to 1023. -/
theorem table_isSome (function : Allowed) (field : String) :
    (table curves function field).isSome ↔ ∃ i < 1024, field = i.repr := by
  constructor
  · intro hsome
    by_contra hnone
    push Not at hnone
    have hmem : field ∉ (entries curves function).map Prod.fst := by
      simp only [entries, List.map_map, List.mem_map, List.mem_range, Function.comp_apply]
      rintro ⟨i, hlt, heq⟩
      exact hnone i hlt heq.symm
    rw [table, Hash.setAll_of_not_mem _ _ _ hmem] at hsome
    simp [Hash.none] at hsome
  · rintro ⟨i, hlt, rfl⟩
    rw [table_repr curves function i hlt]
    rfl

end FunctionsService

end RealTimeWs
