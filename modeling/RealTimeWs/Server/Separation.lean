import RealTimeWs.Server.Messages
import RealTimeWs.Server.Keys

/-! # Records of different devices

Identifiers come from the devices, so nothing keeps one of them from being called
like a part of the keys. Two of the four kinds of keys put a word before the
identifier and two put one behind it; a key of the first sort is one of the second
sort exactly when the words and the identifiers fit into each other.
-/

namespace RealTimeWs

open Redis

/-- The four records that the server keeps of a device. -/
inductive RecordKind where
  | device
  | data
  | table
  | connection
  deriving DecidableEq

namespace RecordKind

/-- The key of a record. -/
def key : RecordKind → String → String
  | .device => recordKey
  | .data => dataKey
  | .table => tableKey
  | .connection => connectionKey

/-- The word before the identifier. -/
def before : RecordKind → Option String
  | .device => some "device"
  | .connection => some "connection"
  | _ => none

/-- The word behind the identifier. -/
def behind : RecordKind → Option String
  | .data => some "data"
  | .table => some "table"
  | _ => none

/-- The identifiers make a key of the first kind out of one of the second: each of
them is the word of the other kind, or they share the middle of the key. -/
def Fits (first : RecordKind) (x : String) (second : RecordKind) (y : String) : Prop :=
  ∃ word, first.before = some word ∧ ∃ suffix, second.behind = some suffix ∧
    (y = word ∧ x = suffix ∨
      ∃ middle, y = word ++ ":" ++ middle ∧ x = middle ++ ":" ++ suffix)

theorem key_of_before {kind : RecordKind} {word : String} (hword : kind.before = some word)
    (x : String) : kind.key x = word ++ ":" ++ x ∧ ':' ∉ word.toList := by
  cases kind with
  | device =>
      cases hword
      exact ⟨recordKey_eq x, by decide⟩
  | connection =>
      cases hword
      exact ⟨connectionKey_eq x, by decide⟩
  | _ => cases hword

theorem key_of_behind {kind : RecordKind} {suffix : String} (hsuffix : kind.behind = some suffix)
    (x : String) : kind.key x = x ++ ":" ++ suffix := by
  cases kind with
  | data =>
      cases hsuffix
      exact dataKey_eq x
  | table =>
      cases hsuffix
      exact tableKey_eq x
  | _ => cases hsuffix

/-- Where a key with a word before the identifier is one with a word behind it. -/
theorem key_eq_iff_fits {first second : RecordKind} (hfirst : first.before.isSome)
    (hsecond : second.behind.isSome) (x y : String) :
    first.key x = second.key y ↔ Fits first x second y := by
  obtain ⟨word, hword⟩ := Option.isSome_iff_exists.mp hfirst
  obtain ⟨suffix, hsuffix⟩ := Option.isSome_iff_exists.mp hsecond
  obtain ⟨hkey, hcolon⟩ := key_of_before hword x
  rw [hkey, key_of_behind hsuffix, append_colon_eq_iff hcolon]
  constructor
  · intro hfits
    exact ⟨word, hword, suffix, hsuffix, hfits⟩
  · rintro ⟨_, hword', _, hsuffix', hfits⟩
    rw [hword, Option.some.injEq] at hword'
    rw [hsuffix, Option.some.injEq] at hsuffix'
    subst hword' hsuffix'
    exact hfits

theorem before_eq_none_iff {kind : RecordKind} : kind.before = none ↔ kind.behind.isSome := by
  cases kind <;> simp [before, behind]

/-- Kinds with the identifier at the same end of the key. -/
theorem key_eq_iff_of_same {first second : RecordKind}
    (hsame : first.before.isSome ↔ second.before.isSome) (x y : String) :
    first.key x = second.key y ↔ first = second ∧ x = y := by
  cases first <;> cases second <;>
    simp [key, before, (recordKey_ne_connectionKey _ _).symm, (dataKey_ne_tableKey _ _).symm]
      at hsame ⊢

theorem Fits.before_isSome {first second : RecordKind} {x y : String}
    (hfits : Fits first x second y) : first.before.isSome := by
  obtain ⟨word, hword, _⟩ := hfits
  simp [hword]

theorem Fits.before_eq_none {first second : RecordKind} {x y : String}
    (hfits : Fits first x second y) : second.before = none := by
  obtain ⟨_, _, suffix, hsuffix, _⟩ := hfits
  rw [before_eq_none_iff, hsuffix]
  rfl

/-- Keys that fit belong to different kinds. -/
theorem Fits.ne {first second : RecordKind} {x y : String} (hfits : Fits first x second y) :
    first ≠ second := by
  rintro rfl
  have hsome := hfits.before_isSome
  rw [hfits.before_eq_none] at hsome
  cases hsome

/-- All ways in which two keys can be equal. -/
theorem key_eq_iff (first second : RecordKind) (x y : String) :
    first.key x = second.key y ↔
      (first = second ∧ x = y) ∨ Fits first x second y ∨ Fits second y first x := by
  constructor
  · intro heq
    cases hfirst : first.before with
    | none =>
        cases hsecond : second.before with
        | none => exact Or.inl ((key_eq_iff_of_same (by simp [hfirst, hsecond]) x y).mp heq)
        | some word =>
            refine Or.inr (Or.inr ((key_eq_iff_fits ?_ ?_ y x).mp heq.symm))
            · simp [hsecond]
            · exact before_eq_none_iff.mp hfirst
    | some word =>
        cases hsecond : second.before with
        | none =>
            refine Or.inr (Or.inl ((key_eq_iff_fits ?_ ?_ x y).mp heq))
            · simp [hfirst]
            · exact before_eq_none_iff.mp hsecond
        | some other => exact Or.inl ((key_eq_iff_of_same (by simp [hfirst, hsecond]) x y).mp heq)
  · rintro (⟨rfl, rfl⟩ | hfits | hfits)
    · rfl
    · exact (key_eq_iff_fits hfits.before_isSome
        (before_eq_none_iff.mp hfits.before_eq_none) x y).mpr hfits
    · exact ((key_eq_iff_fits hfits.before_isSome
        (before_eq_none_iff.mp hfits.before_eq_none) y x).mpr hfits).symm

theorem key_ne_names (kind : RecordKind) (x : String) :
    kind.key x ≠ devicesKey ∧ kind.key x ≠ msgCountKey := by
  cases kind <;> simp [key]

/-- The two records are kept apart: their keys are equal only if kind and identifier
are, neither is one of the two global keys, and a command for the first record
neither changes the second one nor depends on what it holds. -/
structure Apart (first : RecordKind) (x : String) (second : RecordKind) (y : String) : Prop where
  key : first.key x = second.key y → first = second ∧ x = y
  global : ∀ name ∈ [devicesKey, msgCountKey], first.key x ≠ name ∧ second.key y ≠ name
  unchanged : ¬ (first = second ∧ x = y) → ∀ order n store op,
    (execute order n store ⟨first.key x, op⟩).1 (second.key y) = store (second.key y)
  unread : ¬ (first = second ∧ x = y) → ∀ order n store op value,
    (execute order n (Function.update store (second.key y) value) ⟨first.key x, op⟩).2 =
      (execute order n store ⟨first.key x, op⟩).2

/-- Records are kept apart unless their kinds and identifiers fit into each other. -/
theorem apart_iff (first second : RecordKind) (x y : String) :
    Apart first x second y ↔ ¬ Fits first x second y ∧ ¬ Fits second y first x := by
  constructor
  · intro hapart
    constructor
    · intro hfits
      exact hfits.ne (hapart.key ((key_eq_iff _ _ _ _).mpr (Or.inr (Or.inl hfits)))).1
    · intro hfits
      exact hfits.ne (hapart.key ((key_eq_iff _ _ _ _).mpr (Or.inr (Or.inr hfits)))).1.symm
  · rintro ⟨hfirst, hsecond⟩
    have hkey : first.key x = second.key y → first = second ∧ x = y := by
      intro heq
      rcases (key_eq_iff first second x y).mp heq with hsame | hfits | hfits
      · exact hsame
      · exact absurd hfits hfirst
      · exact absurd hfits hsecond
    refine ⟨hkey, ?_, ?_, ?_⟩
    · intro name hname
      obtain ⟨hdevices, hcount⟩ := key_ne_names first x
      obtain ⟨hdevices', hcount'⟩ := key_ne_names second y
      simp only [List.mem_cons, List.not_mem_nil, or_false] at hname
      rcases hname with rfl | rfl
      · exact ⟨hdevices, hdevices'⟩
      · exact ⟨hcount, hcount'⟩
    · intro hother order n store op
      exact execute_of_ne order n store _ _ fun heq => hother (hkey heq.symm)
    · intro hother order n store op value
      have hne : first.key x ≠ second.key y := fun heq => hother (hkey heq)
      simp only [execute, Function.update_of_ne hne]

set_option maxRecDepth 20000 in
/-- The datagram handler accepts devices called `data` and `device`; the record of
the first is the list of readings of the second. -/
theorem record_of_data_is_readings_of_device :
    UDP.accept (Utf8.ascii "*2\r\n$4\r\ndata\r\n$4\r\n0512\r\n".toList) = some ("data", "0512") ∧
    UDP.accept (Utf8.ascii "*2\r\n$6\r\ndevice\r\n$4\r\n0512\r\n".toList) =
      some ("device", "0512") ∧
    RecordKind.device.key "data" = RecordKind.data.key "device" ∧
    ¬ Apart .device "data" .data "device" := by
  refine ⟨by decide, by decide, by decide, ?_⟩
  intro hapart
  exact absurd (hapart.key (by decide)).1 (by decide)

end RecordKind

end RealTimeWs
