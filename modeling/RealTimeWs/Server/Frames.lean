import RealTimeWs.Server.Messages

/-! # Frames in datagrams

What the pattern of the message handler accepts, without the pattern: the decoded
datagram contains a star, a number and two bulk strings whose lengths may be wrong.
The leftmost such place decides which words are taken.
-/

namespace RealTimeWs

open Regex

/-- The two characters that end a line. -/
def newline : List Char := ['\r', '\n']

/-- A nonempty run of decimal digits. -/
def Digits (text : List Char) : Prop := text ≠ [] ∧ ∀ c ∈ text, c.isDigit = true

/-- A nonempty run of letters, digits and underscores. -/
def Word (text : List Char) : Prop := text ≠ [] ∧ ∀ c ∈ text, isWordChar c = true

/-- The text starts with a count and two bulk strings that hold the two words. -/
def Frame (text first second : List Char) : Prop :=
  ∃ count length length' after, Digits count ∧ Digits length ∧ Digits length' ∧ Word first ∧
    Word second ∧ text = '*' :: (count ++ (newline ++ ('$' :: (length ++ (newline ++ (first ++
      (newline ++ ('$' :: (length' ++ (newline ++ (second ++ (newline ++ after))))))))))))

/-! ## Elements of the pattern -/

section Elements

variable {next : Pattern} {groups : Nat → Option (List Char)} {rest : List Char} {stop : Position}

theorem reach_newline : crlf.reach ⟨newline ++ rest, groups⟩ = [⟨rest, groups⟩] := by
  simp [Pattern.reach, crlf, Pattern.lit, newline]

theorem exists_of_mem_reach_newline {start : Position} (hmem : stop ∈ crlf.reach start) :
    start.rest = newline ++ stop.rest ∧ stop.groups = start.groups := by
  obtain ⟨text, groups⟩ := start
  rcases text with _ | ⟨c, _ | ⟨d, rest⟩⟩
  · simp [Pattern.reach, crlf, Pattern.lit] at hmem
  · by_cases hfirst : c = '\r' <;> simp [Pattern.reach, crlf, Pattern.lit, hfirst] at hmem
  · by_cases hfirst : c = '\r'
    · by_cases hsecond : d = '\n'
      · subst hfirst hsecond
        rw [show '\r' :: '\n' :: rest = newline ++ rest from rfl, reach_newline,
          List.mem_singleton] at hmem
        subst hmem
        exact ⟨rfl, rfl⟩
      · simp [Pattern.reach, crlf, Pattern.lit, hfirst, hsecond] at hmem
    · simp [Pattern.reach, crlf, Pattern.lit, hfirst] at hmem

theorem consumed_append {text : List Char} {start : Position}
    (hrest : start.rest = text ++ stop.rest) :
    consumed start stop = text := by
  simp [consumed, hrest]

theorem reach_group_newline :
    (Pattern.seq (.group 1 crlf) next).reach ⟨newline ++ rest, groups⟩ =
      next.reach ⟨rest, Function.update groups 1 (some newline)⟩ := by
  change ((crlf.reach ⟨newline ++ rest, groups⟩).map _).flatMap next.reach = _
  rw [reach_newline, List.map_singleton, List.flatMap_singleton]
  rw [consumed_append rfl]

theorem exists_of_mem_reach_group_newline {start : Position}
    (hmem : stop ∈ (Pattern.seq (.group 1 crlf) next).reach start) :
    ∃ rest, start.rest = newline ++ rest ∧
      stop ∈ next.reach ⟨rest, Function.update start.groups 1 (some newline)⟩ := by
  obtain ⟨captured, hcaptured, hstop⟩ := List.mem_flatMap.mp hmem
  obtain ⟨middle, hmiddle, rfl⟩ := List.mem_map.mp hcaptured
  obtain ⟨hrest, hgroups⟩ := exists_of_mem_reach_newline hmiddle
  refine ⟨middle.rest, hrest, ?_⟩
  rw [hgroups, consumed_append hrest] at hstop
  exact hstop

/-- A line end cannot stand where a character of a word is. -/
theorem group_newline_refuses {accepts : Char → Bool} (hreturn : accepts '\r' = false) {c : Char}
    (haccepts : accepts c = true) :
    (Pattern.seq (.group 1 crlf) next).reach ⟨c :: rest, groups⟩ = [] := by
  apply List.eq_nil_iff_forall_not_mem.mpr
  intro stop hmem
  obtain ⟨other, hrest, _⟩ := exists_of_mem_reach_group_newline hmem
  obtain ⟨rfl, _⟩ := List.cons.inj hrest
  rw [hreturn] at haccepts
  cases haccepts

theorem backref_refuses {accepts : Char → Bool} (hreturn : accepts '\r' = false)
    (hcaptured : groups 1 = some newline) {c : Char} (haccepts : accepts c = true) :
    (Pattern.seq (.backref 1) next).reach ⟨c :: rest, groups⟩ = [] := by
  apply List.eq_nil_iff_forall_not_mem.mpr
  intro stop hmem
  obtain ⟨other, hrest, _⟩ := exists_of_mem_reach_backref
    (show Position.groups ⟨c :: rest, groups⟩ 1 = some newline from hcaptured) hmem
  obtain ⟨rfl, _⟩ := List.cons.inj hrest
  rw [hreturn] at haccepts
  cases haccepts

theorem plus_backref_refuses {accepts : Char → Bool} (hreturn : accepts '\r' = false)
    (hcaptured : groups 1 = some newline) {c : Char} (haccepts : accepts c = true) :
    (Pattern.plus (.backref 1)).reach ⟨c :: rest, groups⟩ = [] := by
  apply List.eq_nil_iff_forall_not_mem.mpr
  intro stop hmem
  obtain ⟨_, other, hrest⟩ := mem_repeated_backref _
    (show Position.groups ⟨c :: rest, groups⟩ 1 = some newline from hcaptured) hmem
  obtain ⟨rfl, _⟩ := List.cons.inj hrest
  rw [hreturn] at haccepts
  cases haccepts

theorem head_newline {accepts : Char → Bool} (hreturn : accepts '\r' = false) :
    ∀ c ∈ (newline ++ rest).head?, accepts c = false := by
  rintro c ⟨⟩
  exact hreturn

end Elements

/-! ## Matches are frames -/

theorem frame_of_mem_reach {text : List Char} {stop : Position}
    (hmem : stop ∈ UDP.pattern.reach ⟨text, fun _ => none⟩) :
    ∃ first second, Frame text first second ∧ stop.groups 2 = some first ∧
      stop.groups 3 = some second := by
  obtain ⟨r₁, h₁, hmem⟩ := exists_of_mem_reach_lit hmem
  obtain ⟨count, r₂, hne₂, hrun₂, h₂, hmem⟩ := exists_of_mem_reach_run hmem
  obtain ⟨r₃, h₃, hmem⟩ := exists_of_mem_reach_group_newline hmem
  obtain ⟨r₄, h₄, hmem⟩ := exists_of_mem_reach_lit hmem
  obtain ⟨length, r₅, hne₅, hrun₅, h₅, hmem⟩ := exists_of_mem_reach_run hmem
  obtain ⟨r₆, h₆, hmem⟩ := exists_of_mem_reach_backref rfl hmem
  obtain ⟨first, r₇, hne₇, hrun₇, h₇, hmem⟩ := exists_of_mem_reach_group_run hmem
  obtain ⟨r₈, h₈, hmem⟩ := exists_of_mem_reach_backref rfl hmem
  obtain ⟨r₉, h₉, hmem⟩ := exists_of_mem_reach_lit hmem
  obtain ⟨length', r₁₀, hne₁₀, hrun₁₀, h₁₀, hmem⟩ := exists_of_mem_reach_run hmem
  obtain ⟨r₁₁, h₁₁, hmem⟩ := exists_of_mem_reach_backref rfl hmem
  obtain ⟨second, r₁₂, hne₁₂, hrun₁₂, h₁₂, hmem⟩ := exists_of_mem_reach_group_run hmem
  obtain ⟨hgroups, after, h₁₃⟩ := mem_repeated_backref _ rfl hmem
  refine ⟨first, second, ⟨count, length, length', after, ⟨hne₂, hrun₂⟩, ⟨hne₅, hrun₅⟩,
    ⟨hne₁₀, hrun₁₀⟩, ⟨hne₇, hrun₇⟩, ⟨hne₁₂, hrun₁₂⟩, ?_⟩, ?_, ?_⟩
  · simp only at h₁ h₂ h₃ h₄ h₅ h₆ h₇ h₈ h₉ h₁₀ h₁₁ h₁₂ h₁₃
    rw [h₁, h₂, h₃, h₄, h₅, h₆, h₇, h₈, h₉, h₁₀, h₁₁, h₁₂, ← h₁₃]
  · rw [hgroups]
    rfl
  · rw [hgroups]
    rfl

/-- A frame is matched, with its two words captured. -/
theorem reach_of_frame {text first second : List Char} (hframe : Frame text first second) :
    ∃ stop, (UDP.pattern.reach ⟨text, fun _ => none⟩).head? = some stop ∧
      stop.groups 2 = some first ∧ stop.groups 3 = some second := by
  obtain ⟨count, length, length', after, ⟨hne₂, hrun₂⟩, ⟨hne₅, hrun₅⟩, ⟨hne₁₀, hrun₁₀⟩,
    ⟨hne₇, hrun₇⟩, ⟨hne₁₂, hrun₁₂⟩, rfl⟩ := hframe
  have hdigit : Char.isDigit '\r' = false := by decide
  have hword : isWordChar '\r' = false := by decide
  simp only [UDP.pattern, Pattern.all]
  rw [reach_lit_cons,
    reach_run hne₂ hrun₂ (head_newline hdigit) fun c rest => group_newline_refuses hdigit,
    reach_group_newline, reach_lit_cons,
    reach_run hne₅ hrun₅ (head_newline hdigit) fun c rest => backref_refuses hdigit rfl,
    reach_backref rfl,
    reach_group_run 2 hne₇ hrun₇ (head_newline hword) fun c rest _ => backref_refuses hword rfl,
    reach_backref rfl, reach_lit_cons,
    reach_run hne₁₀ hrun₁₀ (head_newline hdigit) fun c rest => backref_refuses hdigit rfl,
    reach_backref rfl,
    reach_group_run 3 hne₁₂ hrun₁₂ (head_newline hword)
      fun c rest _ => plus_backref_refuses hword rfl]
  have hcaptured : Function.update (Function.update (Function.update (fun _ => none) 1
      (some newline)) 2 (some first)) 3 (some second) 1 = some newline := rfl
  obtain ⟨stop, hstop, hgroups⟩ := reach_plus_backref hcaptured after
  refine ⟨stop, hstop, ?_, ?_⟩
  · rw [hgroups]
    rfl
  · rw [hgroups]
    rfl

/-! ## Acceptance -/

/-- A frame has no other words. -/
theorem Frame.unique {text first second first' second' : List Char}
    (hframe : Frame text first second) (hother : Frame text first' second') :
    first = first' ∧ second = second' := by
  obtain ⟨stop, hstop, hfirst, hsecond⟩ := reach_of_frame hframe
  obtain ⟨stop', hstop', hfirst', hsecond'⟩ := reach_of_frame hother
  rw [hstop, Option.some.injEq] at hstop'
  subst hstop'
  rw [hfirst, Option.some.injEq] at hfirst'
  rw [hsecond, Option.some.injEq] at hsecond'
  exact ⟨hfirst', hsecond'⟩

/-- The words of the leftmost frame in the text. -/
def Leftmost (text first second : List Char) : Prop :=
  ∃ before rest, text = before ++ rest ∧ Frame rest first second ∧
    ∀ before' rest', text = before' ++ rest' → before'.length < before.length →
      ∀ first' second', ¬ Frame rest' first' second'

theorem accept_eq_some_iff (msg : List UInt8) (device data : String) :
    UDP.accept msg = some (device, data) ↔
      ∃ first second, Leftmost (Utf8.decode msg) first second ∧
        device = String.ofList (first.map Char.toLower) ∧ data = String.ofList second := by
  rw [UDP.accept, Option.bind_eq_some_iff]
  constructor
  · rintro ⟨stop, hsearch, haccept⟩
    obtain ⟨before, rest, hsplit, hhead, hleast⟩ := (search_eq_some_iff _ _ _).mp hsearch
    obtain ⟨first, second, hframe, hfirst, hsecond⟩ :=
      frame_of_mem_reach (List.mem_of_mem_head? hhead)
    simp only [hfirst, hsecond, Option.bind_some, Option.map_some, Option.some.injEq,
      Prod.mk.injEq] at haccept
    refine ⟨first, second, ⟨before, rest, hsplit, hframe, ?_⟩, haccept.1.symm, haccept.2.symm⟩
    intro before' rest' hsplit' hlt first' second' hframe'
    obtain ⟨stop', hstop', _⟩ := reach_of_frame hframe'
    rw [hleast before' rest' hsplit' hlt] at hstop'
    cases hstop'
  · rintro ⟨first, second, ⟨before, rest, hsplit, hframe, hleast⟩, rfl, rfl⟩
    obtain ⟨stop, hstop, hfirst, hsecond⟩ := reach_of_frame hframe
    refine ⟨stop, (search_eq_some_iff _ _ _).mpr ⟨before, rest, hsplit, hstop, ?_⟩, ?_⟩
    · intro before' rest' hsplit' hlt
      apply List.eq_nil_iff_forall_not_mem.mpr
      intro stop' hmem
      obtain ⟨first', second', hframe', _⟩ := frame_of_mem_reach hmem
      exact hleast before' rest' hsplit' hlt first' second' hframe'
    · simp [hfirst, hsecond]

/-- Something is accepted exactly when there is a frame somewhere. -/
theorem accept_isSome_iff (msg : List UInt8) :
    (UDP.accept msg).isSome ↔
      ∃ before rest first second, Utf8.decode msg = before ++ rest ∧ Frame rest first second := by
  constructor
  · intro hsome
    obtain ⟨⟨device, data⟩, haccept⟩ := Option.isSome_iff_exists.mp hsome
    obtain ⟨first, second, ⟨before, rest, hsplit, hframe, _⟩, _⟩ :=
      (accept_eq_some_iff msg device data).mp haccept
    exact ⟨before, rest, first, second, hsplit, hframe⟩
  · rintro ⟨before, rest, first, second, hsplit, hframe⟩
    obtain ⟨stop, hstop, _⟩ := reach_of_frame hframe
    have hsearch : (UDP.pattern.search (Utf8.decode msg)).isSome := by
      refine (search_isSome_iff _ _).mpr ⟨before, rest, hsplit, ?_⟩
      intro hnil
      rw [hnil] at hstop
      cases hstop
    obtain ⟨found, hfound⟩ := Option.isSome_iff_exists.mp hsearch
    obtain ⟨_, _, _, hhead, _⟩ := (search_eq_some_iff _ _ _).mp hfound
    obtain ⟨first', second', _, hfirst, hsecond⟩ :=
      frame_of_mem_reach (List.mem_of_mem_head? hhead)
    simp [UDP.accept, hfound, hfirst, hsecond]

theorem toNat_lt_of_isWordChar {c : Char} (hword : isWordChar c = true) : c.toNat < 128 := by
  simp only [isWordChar, Char.isAlphanum, Char.isAlpha, Char.isUpper, Char.isLower, Char.isDigit,
    Bool.or_eq_true, Bool.and_eq_true, decide_eq_true_eq, beq_iff_eq,
    UInt32.le_iff_toNat_le] at hword
  change c.val.toNat < 128
  rcases hword with ((⟨_, hle⟩ | ⟨_, hle⟩) | ⟨_, hle⟩) | rfl
  · change _ ≤ 90 at hle
    omega
  · change _ ≤ 122 at hle
    omega
  · change _ ≤ 57 at hle
    omega
  · decide

theorem isWordChar_toLower {c : Char} (hword : isWordChar c = true) :
    isWordChar c.toLower = true := by
  have hall : ∀ n < 128, isWordChar (Char.ofNat n) = true →
      isWordChar (Char.ofNat n).toLower = true := by decide
  have hc := hall c.toNat (toNat_lt_of_isWordChar hword)
  rw [Char.ofNat_toNat] at hc
  exact hc hword

/-- Accepted identifiers are words, in lower case. -/
theorem word_of_accept {msg : List UInt8} {device data : String}
    (haccept : UDP.accept msg = some (device, data)) :
    Word device.toList ∧ Word data.toList := by
  obtain ⟨first, second, ⟨before, rest, _, hframe, _⟩, rfl, rfl⟩ :=
    (accept_eq_some_iff msg device data).mp haccept
  obtain ⟨count, length, length', after, _, _, _, hfirst, hsecond, _⟩ := hframe
  rw [String.toList_ofList, String.toList_ofList]
  refine ⟨⟨?_, ?_⟩, hsecond⟩
  · simpa using hfirst.1
  · intro c hmem
    obtain ⟨d, hd, rfl⟩ := List.mem_map.mp hmem
    exact isWordChar_toLower (hfirst.2 d hd)

theorem colon_notMem_of_word {text : List Char} (hword : Word text) : ':' ∉ text := by
  intro hmem
  exact absurd (hword.2 ':' hmem) (by decide)

end RealTimeWs
