import RealTimeWs.Server.Websocket

/-! # Messages to the browser

The hook joins the identifier of a device and a payload with a colon. The script of
the page searches the text for an identifier of four letters, an underscore and six
digits before a colon, at the leftmost place where there is one. The payload of a
status message is the record of the device as JSON text.
-/

namespace RealTimeWs

open Regex

namespace Json

/-- `\u` with the two hexadecimal digits that a control character needs. -/
def controlEscape (n : Nat) : List Char :=
  ['\\', 'u', '0', '0', Nat.digitChar (n / 16), Nat.digitChar (n % 16)]

/-- One character inside a JSON string. -/
def escape (c : Char) : List Char :=
  if c = '"' then ['\\', '"']
  else if c = '\\' then ['\\', '\\']
  else if c = '\x08' then ['\\', 'b']
  else if c = '\t' then ['\\', 't']
  else if c = '\n' then ['\\', 'n']
  else if c = '\x0c' then ['\\', 'f']
  else if c = '\r' then ['\\', 'r']
  else if c.toNat < 32 then controlEscape c.toNat
  else [c]

/-- A string in quotes. -/
def quoted (text : String) : List Char := '"' :: text.toList.flatMap escape ++ ['"']

/-- A property and its value. -/
def field (pair : String × String) : List Char := quoted pair.1 ++ ':' :: quoted pair.2

/-- `JSON.stringify` of an object whose values are strings. -/
def stringify (record : List (String × String)) : String :=
  String.ofList ('\x7b' :: List.intercalate [','] (record.map field) ++ ['\x7d'])

end Json

namespace Websocket

/-- `device + ':' + Math.round(sum / sma)` -/
def dataMessage (device : String) (value : Script.Number) : String :=
  device ++ ":" ++ Script.text value

/-- `device + ':' + JSON.stringify(reply)` -/
def statusMessage (device : String) (record : List (String × String)) : String :=
  device ++ ":" ++ Json.stringify record

end Websocket

namespace Browser

/-- `[a-z]{4}_[0-9]{6}` without regard to case, one class for each character. -/
def classes : List (Char → Bool) :=
  List.replicate 4 Char.isAlpha ++ (· == '_') :: List.replicate 6 Char.isDigit

/-- `([a-z]{4}_[0-9]{6}):`, the part of the expression before `(.*)` -/
def pattern : Pattern :=
  .seq (.group 1 (.ones Char.isAlpha (classes.drop 1))) (.lit ':')

/-- What a dot does not match. -/
def isLineTerminator (c : Char) : Bool :=
  c == '\n' || c == '\r' || c == '\u2028' || c == '\u2029'

/-- `String(data).match(/([a-z]{4}_[0-9]{6}):(.*)/i)`: the two groups. The second one
matches everywhere, up to the end of the line. -/
def decode (message : String) : Option (String × String) :=
  (pattern.search message.toList).bind fun stop =>
    (stop.groups 1).map fun device =>
      (String.ofList device, String.ofList (stop.rest.takeWhile fun c => !isLineTerminator c))

/-- The pair that the `data` handler shows; `page` says which elements there are. -/
def onData (page : String → Bool) (message : String) : Option (String × String) :=
  (decode message).filter fun result => page result.1

/-- The elements that a status message fills. -/
def statusElements (device : String) : List String :=
  [device ++ "_status", device ++ "_tcp_ip", device ++ "_udp_ip", device ++ "_msg_count",
    device ++ "_last_ping"]

/-- The pair that the `status` handler takes on, the payload still as text. -/
def onStatus (page : String → Bool) (message : String) : Option (String × String) :=
  (decode message).filter fun result => (statusElements result.1).any page

/-- A message is shown as the pair it was made of or ignored, and not ignored where
the page has an element for the device. -/
def Attributed (device payload : String) (present : Bool) (shown : Option (String × String)) :
    Prop :=
  (shown = some (device, payload) ∨ shown = none) ∧ (present = true → shown ≠ none)

/-- Both messages of a device, on one page. -/
def Faithful (page : String → Bool) (device : String) (value : Script.Number)
    (record : List (String × String)) : Prop :=
  Attributed device (Script.text value) (page device)
      (onData page (Websocket.dataMessage device value)) ∧
    Attributed device (Json.stringify record) ((statusElements device).any page)
      (onStatus page (Websocket.statusMessage device record))

/-- An identifier of the form that the script looks for. -/
def Shaped (device : String) : Prop :=
  device.toList.length = 11 ∧ fits classes device.toList = true

instance (device : String) : Decidable (Shaped device) := inferInstanceAs (Decidable (_ ∧ _))

/-- A record without the line terminators that JSON text may contain. -/
def SingleLine (record : List (String × String)) : Prop :=
  ∀ pair ∈ record, ∀ c ∈ pair.1.toList ++ pair.2.toList, c ≠ '\u2028' ∧ c ≠ '\u2029'

instance (record : List (String × String)) : Decidable (SingleLine record) :=
  inferInstanceAs (Decidable (∀ pair ∈ record, _))

/-! ## Where the script finds an identifier -/

theorem reach_identifier (text : List Char) (groups : Nat → Option (List Char)) :
    (Pattern.group 1 (.ones Char.isAlpha (classes.drop 1))).reach ⟨text, groups⟩ =
      if fits classes text = true then
        [⟨text.drop 11, Function.update groups 1 (some (text.take 11))⟩]
      else [] := by
  have hreach : (Pattern.ones Char.isAlpha (classes.drop 1)).reach ⟨text, groups⟩ =
      if fits classes text = true then [⟨text.drop 11, groups⟩] else [] :=
    reach_ones Char.isAlpha (classes.drop 1) text groups
  rw [Pattern.reach, hreach]
  by_cases hfits : fits classes text = true
  · have hlength : 11 ≤ text.length := length_le_of_fits hfits
    have hconsumed : consumed ⟨text, groups⟩ ⟨text.drop 11, groups⟩ = text.take 11 := by
      change text.take (text.length - (text.drop 11).length) = text.take 11
      rw [List.length_drop, Nat.sub_sub_self hlength]
    rw [if_pos hfits, if_pos hfits, List.map_singleton, hconsumed]
  · rw [if_neg hfits, if_neg hfits, List.map_nil]

/-- A match starts with an identifier and a colon. -/
theorem eq_of_mem_reach {text : List Char} {stop : Position}
    (hmem : stop ∈ pattern.reach ⟨text, fun _ => none⟩) :
    fits classes text = true ∧
      stop = ⟨text.drop 12, Function.update (fun _ => none) 1 (some (text.take 11))⟩ := by
  rw [pattern, Pattern.reach, reach_identifier] at hmem
  by_cases hfits : fits classes text = true
  · rw [if_pos hfits, List.flatMap_cons, List.flatMap_nil, List.append_nil] at hmem
    refine ⟨hfits, ?_⟩
    cases hdrop : text.drop 11 with
    | nil =>
        rw [hdrop] at hmem
        cases hmem
    | cons c rest =>
        have hrest : text.drop 12 = rest := by
          rw [← List.drop_drop (i := 1) (j := 11), hdrop]
          rfl
        rw [hdrop, Pattern.lit] at hmem
        rw [hrest]
        cases hcolon : c == ':' with
        | true =>
            rw [reach_one_cons (· == ':') c rest _ hcolon] at hmem
            exact List.mem_singleton.mp hmem
        | false => simp [Pattern.reach, hcolon] at hmem
  · rw [if_neg hfits] at hmem
    cases hmem

theorem shaped_of_decode {message device payload : String}
    (hdecode : decode message = some (device, payload)) : Shaped device := by
  rw [decode, Option.bind_eq_some_iff] at hdecode
  obtain ⟨stop, hsearch, hgroups⟩ := hdecode
  obtain ⟨before, text, -, hhead, -⟩ := (search_eq_some_iff _ _ _).mp hsearch
  obtain ⟨hfits, rfl⟩ := eq_of_mem_reach (List.mem_of_mem_head? hhead)
  have hlength : (text.take 11).length = 11 := by
    rw [List.length_take]
    have hle : 11 ≤ text.length := length_le_of_fits hfits
    omega
  simp only [Function.update_self, Option.map_some, Option.some.injEq, Prod.mk.injEq] at hgroups
  rw [Shaped, ← hgroups.1, String.toList_ofList]
  refine ⟨hlength, ?_⟩
  have happend : fits classes (text.take 11 ++ text.drop 11) = fits classes (text.take 11) :=
    fits_append hlength
  rw [List.take_append_drop] at happend
  rw [← happend]
  exact hfits

/-- An identifier of the right form is found at the start of its message. -/
theorem decode_of_shaped {device : String} (hshaped : Shaped device) (payload : String) :
    decode (device ++ ":" ++ payload) =
      some (device, String.ofList (payload.toList.takeWhile fun c => !isLineTerminator c)) := by
  obtain ⟨hlength, hfits⟩ := hshaped
  have htext : (device ++ ":" ++ payload).toList = device.toList ++ ':' :: payload.toList := by
    simp
  have hreach : pattern.reach ⟨device.toList ++ ':' :: payload.toList, fun _ => none⟩ =
      [⟨payload.toList, Function.update (fun _ => none) 1 (some device.toList)⟩] := by
    have hwhole : fits classes (device.toList ++ ':' :: payload.toList) = true := by
      rw [fits_append hlength]
      exact hfits
    rw [pattern, Pattern.reach, reach_identifier, if_pos hwhole, ← hlength, List.drop_left,
      List.take_left]
    simp [Pattern.reach, Pattern.lit]
  have hsearch : pattern.search (device.toList ++ ':' :: payload.toList) =
      some ⟨payload.toList, Function.update (fun _ => none) 1 (some device.toList)⟩ := by
    apply (search_eq_some_iff _ _ _).mpr
    refine ⟨[], device.toList ++ ':' :: payload.toList, rfl, ?_, ?_⟩
    · rw [hreach]
      rfl
    · intro before rest _ hlt
      exact absurd hlt (Nat.not_lt_zero _)
  rw [decode, htext, hsearch]
  simp

/-! ## Line terminators in payloads -/

theorem takeWhile_eq_iff (payload : String) :
    String.ofList (payload.toList.takeWhile fun c => !isLineTerminator c) = payload ↔
      ∀ c ∈ payload.toList, isLineTerminator c = false := by
  rw [← String.toList_inj, String.toList_ofList, List.takeWhile_eq_self_iff]
  simp

theorem isLineTerminator_of_isDigit {c : Char} (hdigit : c.isDigit = true) :
    isLineTerminator c = false := by
  cases hterminator : isLineTerminator c with
  | false => rfl
  | true =>
      simp only [isLineTerminator, Bool.or_eq_true, beq_iff_eq] at hterminator
      rcases hterminator with ((rfl | rfl) | rfl) | rfl <;> cases hdigit

theorem isLineTerminator_of_mem_toDigits {n : Nat} {c : Char} (hmem : c ∈ Nat.toDigits 10 n) :
    isLineTerminator c = false :=
  isLineTerminator_of_isDigit (Decimal.isDigit_of_mem_toDigits hmem)

theorem isLineTerminator_of_mem_largeText {n : Nat} {c : Char} (hmem : c ∈ Script.largeText n) :
    isLineTerminator c = false := by
  simp only [Script.largeText] at hmem
  split at hmem
  · rcases List.mem_append.mp hmem with hdigits | hzeros
    · exact isLineTerminator_of_mem_toDigits hdigits
    · rw [List.eq_of_mem_replicate hzeros]
      decide
  · simp only [List.mem_append, List.mem_cons, List.not_mem_nil, or_false] at hmem
    rcases hmem with ((hfirst | hothers) | rfl | rfl) | hexponent
    · exact isLineTerminator_of_mem_toDigits (List.mem_of_mem_take hfirst)
    · split at hothers
      · cases hothers
      · rcases List.mem_cons.mp hothers with rfl | hdigits
        · decide
        · exact isLineTerminator_of_mem_toDigits (List.mem_of_mem_drop hdigits)
    · decide
    · decide
    · exact isLineTerminator_of_mem_toDigits hexponent

/-- Numbers are printed on one line. -/
theorem isLineTerminator_of_mem_text (value : Script.Number) {c : Char}
    (hmem : c ∈ (Script.text value).toList) : isLineTerminator c = false := by
  cases value with
  | nan =>
      simp [Script.text] at hmem
      rcases hmem with rfl | rfl | rfl <;> decide
  | infinity =>
      simp [Script.text] at hmem
      rcases hmem with rfl | rfl | rfl | rfl | rfl | rfl | rfl | rfl <;> decide
  | nat n =>
      rw [Script.text] at hmem
      split at hmem
      · rw [Nat.toList_repr] at hmem
        exact isLineTerminator_of_mem_toDigits hmem
      · rw [String.toList_ofList] at hmem
        exact isLineTerminator_of_mem_largeText hmem

theorem isLineTerminator_digitChar {d : Nat} (hlt : d < 16) :
    isLineTerminator (Nat.digitChar d) = false := by
  interval_cases d <;> decide

theorem isLineTerminator_of_mem_controlEscape {n : Nat} (hlt : n < 32) {c : Char}
    (hmem : c ∈ Json.controlEscape n) : isLineTerminator c = false := by
  simp only [Json.controlEscape, List.mem_cons, List.not_mem_nil, or_false] at hmem
  rcases hmem with rfl | rfl | rfl | rfl | rfl | rfl
  · decide
  · decide
  · decide
  · decide
  · exact isLineTerminator_digitChar (by omega)
  · exact isLineTerminator_digitChar (by omega)

/-- In JSON text only two line terminators stand for themselves. -/
theorem exists_terminator_escape_iff (c : Char) :
    (∃ d ∈ Json.escape c, isLineTerminator d = true) ↔ c = '\u2028' ∨ c = '\u2029' := by
  constructor
  · rintro ⟨d, hmem, hterminator⟩
    have hpair : ∀ second : Char, isLineTerminator second = false → d ∉ ['\\', second] := by
      intro second hsecond hin
      rcases List.mem_pair.mp hin with rfl | rfl
      · cases hterminator
      · rw [hsecond] at hterminator
        cases hterminator
    unfold Json.escape at hmem
    split_ifs at hmem with hquote hslash hb ht hn hf hr hcontrol
    · exact absurd hmem (hpair _ (by decide))
    · exact absurd hmem (hpair _ (by decide))
    · exact absurd hmem (hpair _ (by decide))
    · exact absurd hmem (hpair _ (by decide))
    · exact absurd hmem (hpair _ (by decide))
    · exact absurd hmem (hpair _ (by decide))
    · exact absurd hmem (hpair _ (by decide))
    · rw [isLineTerminator_of_mem_controlEscape hcontrol hmem] at hterminator
      cases hterminator
    · rw [List.mem_singleton.mp hmem] at hterminator
      simpa [isLineTerminator, hn, hr] using hterminator
  · rintro (rfl | rfl)
    · exact ⟨'\u2028', by decide, by decide⟩
    · exact ⟨'\u2029', by decide, by decide⟩

theorem terminator_free_quoted_iff (text : String) :
    (∀ c ∈ Json.quoted text, isLineTerminator c = false) ↔
      ∀ c ∈ text.toList, c ≠ '\u2028' ∧ c ≠ '\u2029' := by
  constructor
  · intro hfree c hmem
    rw [← not_or, ← exists_terminator_escape_iff]
    rintro ⟨d, hescape, hterminator⟩
    have hquoted : d ∈ Json.quoted text := by
      rw [Json.quoted]
      apply List.mem_append_left
      exact List.mem_cons_of_mem _ (List.mem_flatMap.mpr ⟨c, hmem, hescape⟩)
    rw [hfree d hquoted] at hterminator
    cases hterminator
  · intro hplain d hmem
    simp only [Json.quoted, List.cons_append, List.mem_cons, List.mem_append, List.mem_flatMap,
      List.not_mem_nil, or_false] at hmem
    rcases hmem with rfl | ⟨c, hc, hescape⟩ | rfl
    · decide
    · by_contra hterminator
      rw [Bool.not_eq_false] at hterminator
      rcases (exists_terminator_escape_iff c).mp ⟨d, hescape, hterminator⟩ with rfl | rfl
      · exact (hplain _ hc).1 rfl
      · exact (hplain _ hc).2 rfl
    · decide

/-- A property of the separator and of all items is one of the joined text. -/
theorem forall_mem_intercalate_iff {p : Char → Prop} {separator : Char} (hseparator : p separator)
    (items : List (List Char)) :
    (∀ c ∈ List.intercalate [separator] items, p c) ↔ ∀ item ∈ items, ∀ c ∈ item, p c := by
  induction items with
  | nil => simp [List.intercalate]
  | cons item rest ih =>
      cases rest with
      | nil => simp [List.intercalate]
      | cons next rest =>
          have hjoin : List.intercalate [separator] (item :: next :: rest) =
              item ++ separator :: List.intercalate [separator] (next :: rest) := by
            simp [List.intercalate]
          rw [hjoin, List.forall_mem_append, List.forall_mem_cons, List.forall_mem_cons, ih]
          exact and_congr_right fun _ => and_iff_right hseparator

/-- The text of a record is one line if and only if its fields and values are. -/
theorem terminator_free_stringify_iff (record : List (String × String)) :
    (∀ c ∈ (Json.stringify record).toList, isLineTerminator c = false) ↔ SingleLine record := by
  have hbraces : (∀ c ∈ (Json.stringify record).toList, isLineTerminator c = false) ↔
      ∀ c ∈ List.intercalate [','] (record.map Json.field), isLineTerminator c = false := by
    rw [Json.stringify, String.toList_ofList, List.forall_mem_append, List.forall_mem_cons,
      List.forall_mem_singleton]
    constructor
    · intro hfree
      exact hfree.1.2
    · intro hfree
      exact ⟨⟨by decide, hfree⟩, by decide⟩
  rw [hbraces, forall_mem_intercalate_iff (by decide), List.forall_mem_map]
  apply forall₂_congr
  intro pair _
  rw [Json.field, List.forall_mem_append, List.forall_mem_cons, terminator_free_quoted_iff,
    terminator_free_quoted_iff, List.forall_mem_append]
  apply and_congr_right
  intro _
  exact and_iff_right (by decide)

/-! ## Attribution -/

section Attribution

variable {device payload message : String}

theorem attributed_of_decode (elements : String → Bool)
    (hdecode : decode message = some (device, payload)) :
    Attributed device payload (elements device)
      ((decode message).filter fun result => elements result.1) := by
  rw [hdecode]
  cases hpresent : elements device with
  | false => simp [Attributed, Option.filter, hpresent]
  | true => simp [Attributed, Option.filter, hpresent]

theorem decode_of_attributed (elements : String → Bool)
    (hattributed : Attributed device payload (elements device)
      ((decode message).filter fun result => elements result.1))
    (hpresent : elements device = true) : decode message = some (device, payload) := by
  obtain ⟨heither, hshown⟩ := hattributed
  have hsome := heither.resolve_right (hshown hpresent)
  exact (Option.filter_eq_some_iff.mp hsome).1

end Attribution

/-- On every page both messages of a device are attributed to it if and only if its
identifier has the form that the script looks for and its record is one line. -/
theorem faithful_iff (device : String) (value : Script.Number)
    (record : List (String × String)) :
    (∀ page, Faithful page device value record) ↔ Shaped device ∧ SingleLine record := by
  constructor
  · intro hfaithful
    obtain ⟨hdata, hstatus⟩ := hfaithful fun _ => true
    have hshaped : Shaped device :=
      shaped_of_decode (decode_of_attributed (fun _ => true) hdata rfl)
    refine ⟨hshaped, ?_⟩
    have hdecode := decode_of_attributed (fun name => (statusElements name).any fun _ => true)
      hstatus rfl
    rw [Websocket.statusMessage, decode_of_shaped hshaped] at hdecode
    rw [← terminator_free_stringify_iff, ← takeWhile_eq_iff]
    exact (Prod.mk.inj (Option.some.inj hdecode)).2
  · rintro ⟨hshaped, hline⟩ page
    constructor
    · apply attributed_of_decode page
      rw [Websocket.dataMessage, decode_of_shaped hshaped,
        (takeWhile_eq_iff _).mpr fun c => isLineTerminator_of_mem_text value]
    · apply attributed_of_decode fun name => (statusElements name).any page
      rw [Websocket.statusMessage, decode_of_shaped hshaped,
        (takeWhile_eq_iff _).mpr ((terminator_free_stringify_iff record).mpr hline)]

/-- A device whose identifier ends in another one registers with a plain PING, and
its readings are shown for the other device. -/
theorem contained_identifier_shown :
    TCP.passes (Utf8.ascii "*2\r\n$4\r\nPING\r\n$12\r\nxtemp_000001\r\n".toList) = true ∧
    "xtemp_000001" ∈ Redis.setAt ((server referencePlatform).run (boot Redis.empty)
      [.event (.tcpData "10.0.0.2" 50000 [.array [.bulk "PING", .bulk "xtemp_000001"]]) 0,
        .execute, .execute, .deliver 0, .deliver 0, .execute]).store devicesKey ∧
    onData (· == "temp_000001") (Websocket.dataMessage "xtemp_000001" (.nat 512)) =
      some ("temp_000001", "512") ∧
    ¬ Faithful (· == "temp_000001") "xtemp_000001" (.nat 512) [] := by
  have hshown : onData (· == "temp_000001") (Websocket.dataMessage "xtemp_000001" (.nat 512)) =
      some ("temp_000001", "512") := by decide
  refine ⟨by decide, by decide, hshown, ?_⟩
  intro hfaithful
  have hdata := hfaithful.1.1
  rw [hshown] at hdata
  revert hdata
  decide

end Browser

end RealTimeWs
