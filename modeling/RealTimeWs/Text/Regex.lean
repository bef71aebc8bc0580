import Mathlib

/-! # Backtracking regular expressions with captures

A pattern maps a position in the text to all positions it can reach, in the order
in which a backtracking matcher tries them: repetition is greedy, a back-reference
repeats what its group captured, and the search takes the leftmost start that
succeeds. The head of the list is the match that such a matcher reports.
-/

namespace Regex

/-- The patterns of the server: one character, a sequence, a greedy repetition, a group and a
reference back to it. -/
inductive Pattern where
  | one (accepts : Char → Bool)
  | seq (first second : Pattern)
  | plus (body : Pattern)
  | group (index : Nat) (body : Pattern)
  | backref (index : Nat)

/-- The text still to be read and the groups captured so far. -/
structure Position where
  rest : List Char
  groups : Nat → Option (List Char)

/-- What was read between two positions of one match. -/
def consumed (start stop : Position) : List Char :=
  start.rest.take (start.rest.length - stop.rest.length)

/-- Greedy repetition. A further iteration has to read at least one character. -/
def repeated (body : Position → List Position) : Nat → Position → List Position
  | 0, _ => []
  | fuel + 1, start => (body start).flatMap fun stop =>
      (if stop.rest.length < start.rest.length then repeated body fuel stop else []) ++ [stop]

/-- Where a match that starts at a position can end, the preferred end first. -/
def Pattern.reach : Pattern → Position → List Position
  | .one accepts, start =>
      match start.rest with
      | [] => []
      | c :: rest => if accepts c then [{ start with rest := rest }] else []
  | .seq first second, start => (first.reach start).flatMap second.reach
  | .plus body, start => repeated body.reach (start.rest.length + 1) start
  | .group index body, start => (body.reach start).map fun stop =>
      { stop with groups := Function.update stop.groups index (some (consumed start stop)) }
  | .backref index, start =>
      match start.groups index with
      | none => [start]
      | some text =>
          if text <+: start.rest then [{ start with rest := start.rest.drop text.length }] else []

/-- The leftmost match of a pattern that is not anchored. -/
def Pattern.search (pattern : Pattern) : List Char → Option Position
  | [] => (pattern.reach ⟨[], fun _ => none⟩).head?
  | c :: rest =>
      match (pattern.reach ⟨c :: rest, fun _ => none⟩).head? with
      | some stop => some stop
      | none => pattern.search rest

/-- One given character. -/
def Pattern.lit (c : Char) : Pattern := .one (· == c)

/-- A nonempty sequence of patterns. -/
def Pattern.all : Pattern → List Pattern → Pattern
  | first, [] => first
  | first, second :: rest => .seq first (.all second rest)

/-- One character of each of the given classes. -/
def Pattern.ones (first : Char → Bool) (others : List (Char → Bool)) : Pattern :=
  .all (.one first) (others.map .one)

/-- Whether a text starts with one character of each of the given classes. -/
def fits : List (Char → Bool) → List Char → Bool
  | [], _ => true
  | _ :: _, [] => false
  | accepts :: classes, c :: text => accepts c && fits classes text

/-! ## Runs of one character class

A greedy run is followed here by a pattern that cannot start with a character of
the class, so that shorter runs are tried in vain. -/

theorem reach_one_cons (accepts : Char → Bool) (c : Char) (rest : List Char)
    (groups : Nat → Option (List Char)) (haccepts : accepts c = true) :
    (Pattern.one accepts).reach ⟨c :: rest, groups⟩ = [⟨rest, groups⟩] := by
  simp [Pattern.reach, haccepts]

/-- A run of a class, continued by something that refuses that class, is taken
whole or not at all. -/
theorem flatMap_repeated_one {α : Type} (accepts : Char → Bool) (fuel : Nat)
    (text : List Char) (groups : Nat → Option (List Char)) (hfuel : text.length < fuel)
    (follow : Position → List α)
    (hrefuses : ∀ c rest, accepts c = true → follow ⟨c :: rest, groups⟩ = []) :
    (repeated (Pattern.one accepts).reach fuel ⟨text, groups⟩).flatMap follow =
      if text.takeWhile accepts = [] then []
      else follow ⟨text.dropWhile accepts, groups⟩ := by
  induction fuel generalizing text with
  | zero => omega
  | succ fuel ih =>
      cases text with
      | nil => rfl
      | cons c rest =>
          cases haccepts : accepts c with
          | false => simp [repeated, Pattern.reach, haccepts]
          | true =>
              have htail := ih rest (by simpa using hfuel)
              simp only [repeated, reach_one_cons accepts c rest groups haccepts,
                List.flatMap_cons, List.flatMap_nil, List.append_nil, List.length_cons,
                Nat.lt_succ_self, ↓reduceIte, List.flatMap_append, htail,
                List.takeWhile_cons_of_pos haccepts, List.dropWhile_cons_of_pos haccepts,
                List.cons_ne_nil]
              cases rest with
              | nil => simp
              | cons d rest =>
                  cases hd : accepts d with
                  | false => simp [hd]
                  | true => simp [hd, hrefuses d rest hd]

theorem takeWhile_run {accepts : Char → Bool} {run rest : List Char}
    (hrun : ∀ c ∈ run, accepts c = true) (hend : ∀ c ∈ rest.head?, accepts c = false) :
    (run ++ rest).takeWhile accepts = run ∧ (run ++ rest).dropWhile accepts = rest := by
  rw [List.takeWhile_append_of_pos hrun, List.dropWhile_append_of_pos hrun]
  cases rest with
  | nil => simp
  | cons c rest => simp [hend c rfl]

theorem flatMap_plus_one {α : Type} (accepts : Char → Bool) (text : List Char)
    (groups : Nat → Option (List Char)) (follow : Position → List α)
    (hrefuses : ∀ c rest, accepts c = true → follow ⟨c :: rest, groups⟩ = []) :
    ((Pattern.plus (.one accepts)).reach ⟨text, groups⟩).flatMap follow =
      if text.takeWhile accepts = [] then []
      else follow ⟨text.dropWhile accepts, groups⟩ :=
  flatMap_repeated_one accepts _ text groups (Nat.lt_succ_self _) follow hrefuses

/-! ## Patterns of fixed width -/

theorem reach_ones (first : Char → Bool) (others : List (Char → Bool)) (text : List Char)
    (groups : Nat → Option (List Char)) :
    (Pattern.ones first others).reach ⟨text, groups⟩ =
      if fits (first :: others) text then [⟨text.drop (others.length + 1), groups⟩] else [] := by
  induction others generalizing first text with
  | nil =>
      cases text with
      | nil => rfl
      | cons c text =>
          cases hc : first c <;> simp [Pattern.ones, Pattern.all, Pattern.reach, fits, hc]
  | cons second others ih =>
      cases text with
      | nil => rfl
      | cons c text =>
          have hstep : (Pattern.ones first (second :: others)).reach ⟨c :: text, groups⟩ =
              ((Pattern.one first).reach ⟨c :: text, groups⟩).flatMap
                (Pattern.ones second others).reach := rfl
          rw [hstep]
          cases hc : first c with
          | false => simp [Pattern.reach, fits, hc]
          | true =>
              have hfits : fits (first :: second :: others) (c :: text) =
                  fits (second :: others) text := by
                rw [fits, hc, Bool.true_and]
              rw [hfits, Pattern.reach]
              simp only [hc, ↓reduceIte, List.flatMap_cons, List.flatMap_nil, List.append_nil, ih]
              rfl

theorem fits_append {classes : List (Char → Bool)} {text rest : List Char}
    (hlength : text.length = classes.length) : fits classes (text ++ rest) = fits classes text := by
  induction classes generalizing text with
  | nil => rfl
  | cons accepts classes ih =>
      cases text with
      | nil => cases hlength
      | cons c text =>
          simp only [List.cons_append, fits]
          rw [ih (Nat.succ.inj hlength)]

theorem length_le_of_fits {classes : List (Char → Bool)} {text : List Char}
    (hfits : fits classes text = true) : classes.length ≤ text.length := by
  induction classes generalizing text with
  | nil => exact Nat.zero_le _
  | cons accepts classes ih =>
      cases text with
      | nil => cases hfits
      | cons c text =>
          rw [fits, Bool.and_eq_true] at hfits
          exact Nat.succ_le_succ (ih hfits.2)

/-! ## Sequences of literals, runs and back-references

For each kind of element that may stand before the rest of a pattern: where the
rest is tried on a text that the element matches, and what a match says about the
text. -/

section Sequences

variable {next : Pattern} {groups : Nat → Option (List Char)} {rest : List Char} {stop : Position}

theorem reach_lit_cons (c : Char) :
    (Pattern.seq (.lit c) next).reach ⟨c :: rest, groups⟩ = next.reach ⟨rest, groups⟩ := by
  simp [Pattern.reach, Pattern.lit]

theorem exists_of_mem_reach_lit {c : Char} {start : Position}
    (hmem : stop ∈ (Pattern.seq (.lit c) next).reach start) :
    ∃ rest, start.rest = c :: rest ∧ stop ∈ next.reach ⟨rest, start.groups⟩ := by
  obtain ⟨text, groups⟩ := start
  cases text with
  | nil => simp [Pattern.reach, Pattern.lit] at hmem
  | cons d rest =>
      by_cases heq : d = c
      · subst heq
        rw [reach_lit_cons] at hmem
        exact ⟨rest, rfl, hmem⟩
      · simp [Pattern.reach, Pattern.lit, heq] at hmem

/-- A run that ends where the class ends is taken as a whole. -/
theorem reach_run {accepts : Char → Bool} {run : List Char} (hne : run ≠ [])
    (hrun : ∀ c ∈ run, accepts c = true) (hend : ∀ c ∈ rest.head?, accepts c = false)
    (hrefuses : ∀ c rest, accepts c = true → next.reach ⟨c :: rest, groups⟩ = []) :
    (Pattern.seq (.plus (.one accepts)) next).reach ⟨run ++ rest, groups⟩ =
      next.reach ⟨rest, groups⟩ := by
  obtain ⟨htake, hdrop⟩ := takeWhile_run hrun hend
  change ((Pattern.plus (.one accepts)).reach ⟨run ++ rest, groups⟩).flatMap next.reach = _
  rw [flatMap_plus_one accepts _ groups _ hrefuses, htake, hdrop, if_neg hne]

/-- A captured run. -/
theorem reach_group_run {accepts : Char → Bool} {run : List Char} (index : Nat) (hne : run ≠ [])
    (hrun : ∀ c ∈ run, accepts c = true) (hend : ∀ c ∈ rest.head?, accepts c = false)
    (hrefuses : ∀ c rest captured, accepts c = true →
      next.reach ⟨c :: rest, Function.update groups index captured⟩ = []) :
    (Pattern.seq (.group index (.plus (.one accepts))) next).reach ⟨run ++ rest, groups⟩ =
      next.reach ⟨rest, Function.update groups index (some run)⟩ := by
  obtain ⟨htake, hdrop⟩ := takeWhile_run hrun hend
  change (((Pattern.plus (.one accepts)).reach ⟨run ++ rest, groups⟩).map _).flatMap next.reach = _
  rw [List.flatMap_map, flatMap_plus_one accepts _ groups _ fun c rest haccepts =>
    hrefuses c rest _ haccepts, htake, hdrop, if_neg hne]
  simp [consumed]

theorem mem_repeated_one {accepts : Char → Bool} (fuel : Nat) {text : List Char}
    (hmem : stop ∈ repeated (Pattern.one accepts).reach fuel ⟨text, groups⟩) :
    stop.groups = groups ∧ ∃ run, run ≠ [] ∧ (∀ c ∈ run, accepts c = true) ∧
      text = run ++ stop.rest := by
  induction fuel generalizing text with
  | zero => simp [repeated] at hmem
  | succ fuel ih =>
      cases text with
      | nil => simp [repeated, Pattern.reach] at hmem
      | cons c text =>
          cases haccepts : accepts c with
          | false => simp [repeated, Pattern.reach, haccepts] at hmem
          | true =>
              simp only [repeated, reach_one_cons accepts c text groups haccepts,
                List.flatMap_cons, List.flatMap_nil, List.append_nil, List.length_cons,
                Nat.lt_succ_self, ↓reduceIte, List.mem_append, List.mem_singleton] at hmem
              rcases hmem with hmore | rfl
              · obtain ⟨hgroups, run, _, hrun, htext⟩ := ih hmore
                refine ⟨hgroups, c :: run, List.cons_ne_nil _ _, ?_, by rw [htext]; rfl⟩
                intro d hd
                rcases List.mem_cons.mp hd with rfl | hd
                · exact haccepts
                · exact hrun d hd
              · exact ⟨rfl, [c], List.cons_ne_nil _ _, by simpa using haccepts, rfl⟩

theorem exists_of_mem_reach_run {accepts : Char → Bool} {start : Position}
    (hmem : stop ∈ (Pattern.seq (.plus (.one accepts)) next).reach start) :
    ∃ run rest, run ≠ [] ∧ (∀ c ∈ run, accepts c = true) ∧ start.rest = run ++ rest ∧
      stop ∈ next.reach ⟨rest, start.groups⟩ := by
  obtain ⟨middle, hmiddle, hstop⟩ := List.mem_flatMap.mp hmem
  obtain ⟨hgroups, run, hne, hrun, htext⟩ := mem_repeated_one _ hmiddle
  refine ⟨run, middle.rest, hne, hrun, htext, ?_⟩
  rw [← hgroups]
  exact hstop

theorem exists_of_mem_reach_group_run {accepts : Char → Bool} {index : Nat} {start : Position}
    (hmem : stop ∈ (Pattern.seq (.group index (.plus (.one accepts))) next).reach start) :
    ∃ run rest, run ≠ [] ∧ (∀ c ∈ run, accepts c = true) ∧ start.rest = run ++ rest ∧
      stop ∈ next.reach ⟨rest, Function.update start.groups index (some run)⟩ := by
  obtain ⟨captured, hcaptured, hstop⟩ := List.mem_flatMap.mp hmem
  obtain ⟨middle, hmiddle, rfl⟩ := List.mem_map.mp hcaptured
  obtain ⟨hgroups, run, hne, hrun, htext⟩ := mem_repeated_one _ hmiddle
  refine ⟨run, middle.rest, hne, hrun, htext, ?_⟩
  have hread : consumed start middle = run := by simp [consumed, htext]
  rw [hgroups, hread] at hstop
  exact hstop

theorem reach_backref {index : Nat} {text : List Char} (hcaptured : groups index = some text) :
    (Pattern.seq (.backref index) next).reach ⟨text ++ rest, groups⟩ =
      next.reach ⟨rest, groups⟩ := by
  simp [Pattern.reach, hcaptured]

theorem exists_of_mem_reach_backref {index : Nat} {start : Position} {text : List Char}
    (hcaptured : start.groups index = some text)
    (hmem : stop ∈ (Pattern.seq (.backref index) next).reach start) :
    ∃ rest, start.rest = text ++ rest ∧ stop ∈ next.reach ⟨rest, start.groups⟩ := by
  obtain ⟨middle, hmiddle, hstop⟩ := List.mem_flatMap.mp hmem
  simp only [Pattern.reach, hcaptured] at hmiddle
  split at hmiddle
  next hstarts =>
      obtain ⟨rest, hrest⟩ := hstarts
      rw [List.mem_singleton] at hmiddle
      subst hmiddle
      rw [← hrest, List.drop_left] at hstop
      exact ⟨rest, hrest.symm, hstop⟩
  next => cases hmiddle

end Sequences

/-! ## Repeated back-references -/

theorem mem_repeated_backref {index : Nat} {text : List Char} (fuel : Nat) {start stop : Position}
    (hcaptured : start.groups index = some text)
    (hmem : stop ∈ repeated (Pattern.backref index).reach fuel start) :
    stop.groups = start.groups ∧ text <+: start.rest := by
  induction fuel generalizing start with
  | zero => simp [repeated] at hmem
  | succ fuel ih =>
      have hreach : (Pattern.backref index).reach start = if text <+: start.rest then
          [{ start with rest := start.rest.drop text.length }] else [] := by
        simp only [Pattern.reach, hcaptured]
      by_cases hstarts : text <+: start.rest
      · refine ⟨?_, hstarts⟩
        simp only [repeated, hreach, if_pos hstarts, List.flatMap_cons, List.flatMap_nil,
          List.append_nil, List.mem_append, List.mem_singleton] at hmem
        rcases hmem with hmore | rfl
        · split at hmore
          · have hnext : (⟨start.rest.drop text.length, start.groups⟩ : Position).groups index =
                some text := hcaptured
            exact (ih hnext hmore).1
          · cases hmore
        · rfl
      · simp [repeated, hreach, hstarts] at hmem

/-- At least one repetition is found where there is one. -/
theorem reach_plus_backref {index : Nat} {text : List Char}
    {groups : Nat → Option (List Char)} (hcaptured : groups index = some text)
    (rest : List Char) :
    ∃ stop, ((Pattern.plus (.backref index)).reach ⟨text ++ rest, groups⟩).head? = some stop ∧
      stop.groups = groups := by
  have hsome : ∃ stop, ((Pattern.plus (.backref index)).reach ⟨text ++ rest, groups⟩).head? =
      some stop := by
    rw [← Option.isSome_iff_exists, List.isSome_head?]
    simp [Pattern.reach, repeated, hcaptured]
  obtain ⟨stop, hstop⟩ := hsome
  refine ⟨stop, hstop, ?_⟩
  exact (mem_repeated_backref _ hcaptured (List.mem_of_mem_head? hstop)).1

/-- One iteration is a repetition. -/
theorem mem_reach_plus {body : Pattern} {start stop : Position} (hmem : stop ∈ body.reach start) :
    stop ∈ (Pattern.plus body).reach start :=
  List.mem_flatMap.mpr ⟨stop, hmem, List.mem_append_right _ (List.mem_singleton_self stop)⟩

/-! ## The search -/

/-- The search finds the leftmost place where the pattern matches. -/
theorem search_eq_some_iff (pattern : Pattern) (text : List Char) (stop : Position) :
    pattern.search text = some stop ↔
      ∃ before rest, text = before ++ rest ∧
        (pattern.reach ⟨rest, fun _ => none⟩).head? = some stop ∧
        ∀ before' rest', text = before' ++ rest' → before'.length < before.length →
          pattern.reach ⟨rest', fun _ => none⟩ = [] := by
  induction text with
  | nil =>
      constructor
      · intro hfound
        exact ⟨[], [], rfl, hfound, fun _ _ _ hlt => absurd hlt (Nat.not_lt_zero _)⟩
      · rintro ⟨before, rest, hsplit, hhead, _⟩
        obtain ⟨rfl, rfl⟩ := List.append_eq_nil_iff.mp hsplit.symm
        exact hhead
  | cons c text ih =>
      cases hhead : (pattern.reach ⟨c :: text, fun _ => none⟩).head? with
      | some found =>
          simp only [Pattern.search, hhead]
          constructor
          · intro heq
            exact ⟨[], c :: text, rfl, hhead.trans heq,
              fun _ _ _ hlt => absurd hlt (Nat.not_lt_zero _)⟩
          · rintro ⟨before, rest, hsplit, hrest, hleast⟩
            cases before with
            | nil =>
                rw [List.nil_append] at hsplit
                rw [← hsplit, hhead] at hrest
                exact hrest
            | cons d before =>
                rw [hleast [] (c :: text) rfl (Nat.succ_pos _)] at hhead
                cases hhead
      | none =>
          simp only [Pattern.search, hhead]
          rw [ih]
          rw [List.head?_eq_none_iff] at hhead
          constructor
          · rintro ⟨before, rest, hsplit, hrest, hleast⟩
            refine ⟨c :: before, rest, by rw [hsplit]; rfl, hrest, ?_⟩
            intro before' rest' hsplit' hlt
            cases before' with
            | nil =>
                rw [List.nil_append] at hsplit'
                rw [← hsplit']
                exact hhead
            | cons d before' =>
                exact hleast before' rest' (List.cons.inj hsplit').2 (Nat.lt_of_succ_lt_succ hlt)
          · rintro ⟨before, rest, hsplit, hrest, hleast⟩
            cases before with
            | nil =>
                rw [List.nil_append] at hsplit
                rw [← hsplit, hhead] at hrest
                cases hrest
            | cons d before =>
                obtain ⟨rfl, htail⟩ := List.cons.inj hsplit
                refine ⟨before, rest, htail, hrest, ?_⟩
                intro before' rest' hsplit' hlt
                exact hleast (c :: before') rest' (by rw [hsplit']; rfl) (Nat.succ_lt_succ hlt)

/-- The search finds something where there is something to find. -/
theorem search_isSome_iff (pattern : Pattern) (text : List Char) :
    (pattern.search text).isSome ↔
      ∃ before rest, text = before ++ rest ∧ pattern.reach ⟨rest, fun _ => none⟩ ≠ [] := by
  induction text with
  | nil =>
      rw [Pattern.search, List.isSome_head?]
      constructor
      · intro hne
        exact ⟨[], [], rfl, hne⟩
      · rintro ⟨before, rest, hsplit, hne⟩
        obtain ⟨rfl, rfl⟩ := List.append_eq_nil_iff.mp hsplit.symm
        exact hne
  | cons c text ih =>
      cases hhead : (pattern.reach ⟨c :: text, fun _ => none⟩).head? with
      | some found =>
          simp only [Pattern.search, hhead, Option.isSome_some, true_iff]
          refine ⟨[], c :: text, rfl, ?_⟩
          intro hnil
          rw [hnil] at hhead
          cases hhead
      | none =>
          simp only [Pattern.search, hhead]
          rw [ih]
          rw [List.head?_eq_none_iff] at hhead
          constructor
          · rintro ⟨before, rest, rfl, hne⟩
            exact ⟨c :: before, rest, rfl, hne⟩
          · rintro ⟨before, rest, hsplit, hne⟩
            cases before with
            | nil =>
                rw [List.nil_append] at hsplit
                exact absurd (hsplit ▸ hhead) hne
            | cons d before => exact ⟨before, rest, (List.cons.inj hsplit).2, hne⟩

end Regex
