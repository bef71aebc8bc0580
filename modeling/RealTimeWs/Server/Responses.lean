import RealTimeWs.Server.Ping
import RealTimeWs.Resp.Wire

/-! # Values that reach the response handler

The guard in front of the parser looks for one bulk string anywhere in a chunk,
but the parser then emits every value of the chunk, of any type and length. The
handler reads the first element of whatever it gets and takes the second one as
the name of a device without looking at either of them.
-/

namespace RealTimeWs

open Redis

namespace TCP

variable (platform : Platform)

/-- The values that the handler is made for: nonempty strings, and arrays that
start with a string and hold two bulk strings if the first one is the word. -/
def Expected (toLowerCase : String → String) : Resp.Value String → Prop
  | .simple text => text ≠ ""
  | .bulk text => text ≠ ""
  | .array (.simple first :: _) => toLowerCase first ≠ "ping"
  | .array (.bulk first :: rest) => toLowerCase first = "ping" → ∃ second, rest = [.bulk second]
  | _ => False

/-- The value is a PING, in any letter case, and the request concerns its device. -/
def Concerns (ip : String) (port now : Nat) (value : Resp.Value String)
    (request : Command × Callback) : Prop :=
  ∃ first second, value = .array [.bulk first, .bulk second] ∧
    platform.toLowerCase first = "ping" ∧
    request = (⟨devicesKey, .sismember (platform.toLowerCase second)⟩,
      .pingSismember (platform.toLowerCase second) ip port now)

/-- The values of a chunk are handled without an exception, and nothing is asked
of the database for a value that is not a PING. -/
structure Disciplined (ip : String) (port now : Nat) (values : List (Resp.Value String))
    (memory : Memory) : Prop where
  calm : (data platform ip port now values memory).thrown = false
  only : ∀ value ∈ values, ∀ sends, response platform ip port now value = some sends →
    ∀ request ∈ sends, Concerns platform ip port now value request

variable {platform} {ip : String} {port now : Nat}

theorem responses_calm_iff (values : List (Resp.Value String)) :
    (responses platform ip port now values).2 = false ↔
      ∀ value ∈ values, (response platform ip port now value).isSome := by
  induction values with
  | nil => simp [responses]
  | cons value rest ih =>
      cases hresponse : response platform ip port now value with
      | none => simp [responses, hresponse]
      | some sends => simp [responses, hresponse, ih]

/-- An array that starts with the word is taken for a PING, whatever follows. -/
theorem response_of_ping {value : Resp.Value String}
    (hping : isPing platform.toLowerCase value = some true) :
    response platform ip port now value =
      some [(⟨devicesKey, .sismember (platform.toLowerCase (secondText value))⟩,
        .pingSismember (platform.toLowerCase (secondText value)) ip port now)] := by
  simp [response, hping]

theorem response_of_not_ping {value : Resp.Value String}
    (hping : isPing platform.toLowerCase value = some false) :
    response platform ip port now value = some [] := by
  simp [response, hping]

/-- One value is handled as it should be exactly when it is expected. -/
theorem expected_iff (value : Resp.Value String) :
    Expected platform.toLowerCase value ↔
      (response platform ip port now value).isSome ∧
        ∀ sends, response platform ip port now value = some sends →
          ∀ request ∈ sends, Concerns platform ip port now value request := by
  have hquiet : isPing platform.toLowerCase value = some false →
      (response platform ip port now value).isSome ∧
        ∀ sends, response platform ip port now value = some sends →
          ∀ request ∈ sends, Concerns platform ip port now value request := by
    intro hping
    rw [response_of_not_ping hping]
    refine ⟨rfl, ?_⟩
    rintro _ ⟨⟩ request hmem
    cases hmem
  have hthrows : isPing platform.toLowerCase value = none →
      ¬ (response platform ip port now value).isSome := by
    intro hping
    simp [response, hping]
  cases value with
  | simple text =>
      by_cases hempty : text = ""
      · simp [Expected, hempty, response, isPing]
      · exact ⟨fun _ => hquiet (by simp [isPing, hempty]), fun _ => hempty⟩
  | bulk text =>
      by_cases hempty : text = ""
      · simp [Expected, hempty, response, isPing]
      · exact ⟨fun _ => hquiet (by simp [isPing, hempty]), fun _ => hempty⟩
  | array items =>
      cases items with
      | nil => exact ⟨False.elim, fun hhandled => hthrows rfl hhandled.1⟩
      | cons head rest =>
          cases head with
          | simple first =>
              constructor
              · intro hexpected
                have hother : platform.toLowerCase first ≠ "ping" := hexpected
                exact hquiet (by simp [isPing, hother])
              · rintro ⟨_, honly⟩ hping
                obtain ⟨_, _, heq, _⟩ := honly _ (response_of_ping (by simp [isPing, hping])) _
                  List.mem_cons_self
                cases heq
          | bulk first =>
              by_cases hping : platform.toLowerCase first = "ping"
              · rw [response_of_ping (by simp [isPing, hping])]
                constructor
                · intro hexpected
                  obtain ⟨second, rfl⟩ := hexpected hping
                  refine ⟨rfl, ?_⟩
                  rintro _ ⟨⟩ request hmem
                  exact ⟨first, second, rfl, hping, List.mem_singleton.mp hmem⟩
                · rintro ⟨_, honly⟩ _
                  obtain ⟨_, second, heq, _⟩ := honly _ rfl _ List.mem_cons_self
                  exact ⟨second, (List.cons.inj (Resp.Value.array.inj heq)).2⟩
              · exact ⟨fun _ => hquiet (by simpa [isPing] using hping),
                  fun _ hcontra => absurd hcontra hping⟩
          | _ => exact ⟨False.elim, fun hhandled => hthrows rfl hhandled.1⟩
  | _ => exact ⟨False.elim, fun hhandled => hthrows rfl hhandled.1⟩

variable (platform ip port now)

/-- The values of a chunk are handled as they should be exactly when each of them
is expected. -/
theorem disciplined_iff (values : List (Resp.Value String)) (memory : Memory) :
    Disciplined platform ip port now values memory ↔
      ∀ value ∈ values, Expected platform.toLowerCase value := by
  constructor
  · intro hdisciplined value hmem
    exact (expected_iff value).mpr ⟨(responses_calm_iff values).mp hdisciplined.calm value hmem,
      hdisciplined.only value hmem⟩
  · intro hexpected
    constructor
    · apply (responses_calm_iff values).mpr
      intro value hmem
      exact ((expected_iff value).mp (hexpected value hmem)).1
    · intro value hmem
      exact ((expected_iff value).mp (hexpected value hmem)).2

/-- An integer in front of a PING. -/
def precededPing : List (Resp.Value String) :=
  [.integer 5, .array [.bulk "PING", .bulk "adc00000001"]]

set_option maxRecDepth 20000 in
/-- The chunk passes the guard of the data handler and stops the server. -/
theorem precededPing_stops_server :
    passes (Resp.encodeAll (fun text => Utf8.ascii text.toList) precededPing) = true ∧
      (data referencePlatform "10.0.0.2" 4000 0 precededPing fun _ => none).thrown = true ∧
      ¬ Disciplined referencePlatform "10.0.0.2" 4000 0 precededPing fun _ => none := by
  refine ⟨by decide, rfl, ?_⟩
  intro hdisciplined
  cases hdisciplined.calm

end TCP

end RealTimeWs
