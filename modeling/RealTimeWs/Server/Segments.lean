import RealTimeWs.Server.Handlers
import RealTimeWs.Resp.Parser

/-! # Chunks of a connection

TCP cuts a stream wherever it likes. The parser of a connection could take that, but the
data handler drops every chunk in which it does not find a bulk string behind a count, so
what the parser sees depends on the cuts.
-/

namespace RealTimeWs

namespace TCP

/-- A way to cut a stream into the chunks of data events. -/
def Split (stream : List UInt8) : Type := { chunks : List (List UInt8) // chunks.flatten = stream }

/-- The bytes that the data handler passes on. -/
def kept (chunks : List (List UInt8)) : List UInt8 := (chunks.filter passes).flatten

/-- A connection: the state of its parser, the responses that were delivered to the response
handler, and whether the handler has thrown, after which nothing is delivered. -/
structure Connection (parser : Resp.Parser String) where
  state : parser.State
  delivered : List (Resp.Value String)
  stopped : Bool

section Connections

variable (toLowerCase : String → String)

/-- The responses that reach the handler: all up to the first one on which it throws. -/
def reached : List (Resp.Value String) → List (Resp.Value String)
  | [] => []
  | value :: rest =>
      if isPing toLowerCase value = none then [value] else value :: reached rest

variable (parser : Resp.Parser String)

/-- The data handler. -/
def onData (connection : Connection parser) (data : List UInt8) : Connection parser :=
  if connection.stopped then connection
  else if passes data then
    let fed := parser.feed connection.state data
    { state := fed.1
      delivered := connection.delivered ++ reached toLowerCase fed.2
      stopped := fed.2.any fun value => isPing toLowerCase value = none }
  else connection

/-- What is delivered on a new connection. -/
def delivered (chunks : List (List UInt8)) : List (Resp.Value String) :=
  (chunks.foldl (onData toLowerCase parser) ⟨parser.start, [], false⟩).delivered

/-! ## What is delivered -/

variable {toLowerCase}

theorem reached_append_of_throws {values : List (Resp.Value String)}
    (hthrows : ∃ value ∈ values, isPing toLowerCase value = none)
    (values' : List (Resp.Value String)) :
    reached toLowerCase (values ++ values') = reached toLowerCase values := by
  induction values with
  | nil =>
      obtain ⟨value, hmem, _⟩ := hthrows
      cases hmem
  | cons value rest ih =>
      rw [List.cons_append, reached, reached]
      split
      next => rfl
      next hcalm =>
        obtain ⟨thrower, hmem, hthrower⟩ := hthrows
        rcases List.mem_cons.mp hmem with rfl | hrest
        · exact absurd hthrower hcalm
        · rw [ih ⟨thrower, hrest, hthrower⟩]

theorem reached_append_of_calm {values : List (Resp.Value String)}
    (hcalm : ∀ value ∈ values, isPing toLowerCase value ≠ none)
    (values' : List (Resp.Value String)) :
    reached toLowerCase (values ++ values') = values ++ reached toLowerCase values' := by
  induction values with
  | nil => rfl
  | cons value rest ih =>
      rw [List.cons_append, reached, if_neg (hcalm value List.mem_cons_self)]
      rw [ih fun other hmem => hcalm other (List.mem_cons_of_mem _ hmem)]
      rfl

theorem reached_of_calm {values : List (Resp.Value String)}
    (hcalm : ∀ value ∈ values, isPing toLowerCase value ≠ none) :
    reached toLowerCase values = values := by
  have happend := reached_append_of_calm hcalm []
  rw [List.append_nil] at happend
  rw [happend, reached, List.append_nil]

theorem foldl_onData_stopped {connection : Connection parser} (hstopped : connection.stopped = true)
    (chunks : List (List UInt8)) :
    chunks.foldl (onData toLowerCase parser) connection = connection := by
  induction chunks with
  | nil => rfl
  | cons data rest ih =>
      rw [List.foldl_cons, onData, if_pos hstopped]
      exact ih

/-- From any point of a connection on, what is delivered is what the parser emits for the
chunks that pass, as far as the handler gets. -/
theorem delivered_foldl_onData (chunks : List (List UInt8)) (connection : Connection parser)
    (hrunning : connection.stopped = false) :
    (chunks.foldl (onData toLowerCase parser) connection).delivered =
      connection.delivered ++
        reached toLowerCase (parser.emitted connection.state (chunks.filter passes)) := by
  induction chunks generalizing connection with
  | nil => simp [Resp.Parser.emitted, reached]
  | cons data rest ih =>
      by_cases hpasses : passes data = true
      · rw [List.filter_cons_of_pos hpasses, List.foldl_cons, Resp.Parser.emitted]
        by_cases hthrows : ∃ value ∈ (parser.feed connection.state data).2,
            isPing toLowerCase value = none
        · rw [reached_append_of_throws hthrows]
          have hstopped : (onData toLowerCase parser connection data).stopped = true := by
            simpa [onData, hrunning, hpasses] using hthrows
          rw [foldl_onData_stopped parser hstopped]
          simp [onData, hrunning, hpasses]
        · push Not at hthrows
          have hstill : (onData toLowerCase parser connection data).stopped = false := by
            simpa [onData, hrunning, hpasses] using hthrows
          rw [reached_append_of_calm hthrows, ih _ hstill]
          simp [onData, hrunning, hpasses, reached_of_calm hthrows]
      · rw [List.filter_cons_of_neg hpasses, List.foldl_cons]
        have hsame : onData toLowerCase parser connection data = connection := by
          simp [onData, hpasses]
        rw [hsame]
        exact ih connection hrunning

theorem delivered_eq (chunks : List (List UInt8)) :
    delivered toLowerCase parser chunks =
      reached toLowerCase (parser.emitted parser.start (chunks.filter passes)) := by
  rw [delivered, delivered_foldl_onData parser chunks ⟨parser.start, [], false⟩ rfl]
  exact List.nil_append _

end Connections

/-! ## Cuts that do not matter -/

/-- A byte as a string of its own. -/
def single (byte : UInt8) : Resp.Value String := .simple (String.singleton (Char.ofNat byte.toNat))

/-- A parser that emits every byte at once. -/
def echo : Resp.Parser String where
  State := Unit
  start := ()
  feed := fun _ chunk => ((), chunk.map single)

theorem emitted_echo (chunks : List (List UInt8)) :
    echo.emitted () chunks = chunks.flatten.map single := by
  induction chunks with
  | nil => rfl
  | cons chunk rest ih =>
      rw [List.flatten_cons, List.map_append, ← ih]
      rfl

theorem echo_incremental : echo.Incremental := by
  intro chunks chunks' hsame
  change echo.emitted () chunks = echo.emitted () chunks'
  rw [emitted_echo, emitted_echo, hsame]

theorem single_injective : Function.Injective single := by
  intro byte byte' hsame
  have htext := congrArg String.toList (Resp.Value.simple.inj hsame)
  rw [String.toList_singleton, String.toList_singleton] at htext
  have hchar := congrArg Char.toNat (List.singleton_inj.mp htext)
  have htoNat : ∀ n < 256, (Char.ofNat n).toNat = n := by
    intro n hlt
    rw [Char.toNat_ofNat, if_pos (Or.inl (by omega))]
  rw [htoNat _ byte.toNat_lt, htoNat _ byte'.toNat_lt] at hchar
  exact UInt8.toNat_inj.mp hchar

theorem isPing_single (toLowerCase : String → String) (byte : UInt8) :
    isPing toLowerCase (single byte) = some false := by
  have hne : String.singleton (Char.ofNat byte.toNat) ≠ "" := by
    intro hempty
    have := congrArg String.toList hempty
    simp at this
  simp [single, isPing, hne]

/-- Two ways to cut a stream deliver the same responses, whatever incremental parser reads
them, exactly when the data handler passes the same bytes on. -/
theorem segments_agree_iff (toLowerCase : String → String) (stream : List UInt8)
    (split split' : Split stream) :
    (∀ parser : Resp.Parser String, parser.Incremental →
      delivered toLowerCase parser split.1 = delivered toLowerCase parser split'.1) ↔
      kept split.1 = kept split'.1 := by
  constructor
  · intro hagree
    have hecho := hagree echo echo_incremental
    rw [delivered_eq, delivered_eq] at hecho
    change reached toLowerCase (echo.emitted () _) =
      reached toLowerCase (echo.emitted () _) at hecho
    have hcalm : ∀ bytes : List UInt8,
        reached toLowerCase (bytes.map single) = bytes.map single := by
      intro bytes
      apply reached_of_calm
      intro value hmem
      obtain ⟨byte, _, rfl⟩ := List.mem_map.mp hmem
      rw [isPing_single]
      exact Option.some_ne_none false
    rw [emitted_echo, emitted_echo, hcalm, hcalm] at hecho
    exact List.map_injective_iff.mpr single_injective hecho
  · intro hkept parser hincremental
    rw [delivered_eq, delivered_eq, hincremental _ _ hkept]

/-- The PING of a concentrator. -/
def pingValue : Resp.Value String := .array [.bulk "PING", .bulk "adc00000001"]

/-- A PING as it is sent. -/
def pingStream : List UInt8 :=
  Utf8.ascii "*2\r\n$4\r\nPING\r\n$11\r\nadc00000001\r\n".toList

theorem pingStream_eq : pingStream = Resp.encode Resp.textBytes pingValue := by
  decide

/-- The PING arrives in one chunk. -/
def pingWhole : Split pingStream := ⟨[pingStream], by simp⟩

/-- The same bytes, cut behind the count. -/
def pingCut : Split pingStream := ⟨[pingStream.take 4, pingStream.drop 4], by simp⟩

set_option maxRecDepth 20000 in
theorem filter_pingWhole : pingWhole.1.filter passes = [pingStream] := by
  decide

set_option maxRecDepth 20000 in
theorem filter_pingCut : pingCut.1.filter passes = [] := by
  decide

/-- In one chunk the PING is delivered, in two it is lost. -/
theorem ping_lost_when_cut :
    (Resp.Parser.buffered Resp.bytesText).Incremental ∧
      delivered referencePlatform.toLowerCase (Resp.Parser.buffered Resp.bytesText) pingWhole.1 =
        [pingValue] ∧
      delivered referencePlatform.toLowerCase (Resp.Parser.buffered Resp.bytesText) pingCut.1 =
        [] := by
  have hparse : Resp.parse Resp.bytesText pingStream = [pingValue] := by
    rw [pingStream_eq]
    exact Resp.parse_bulks ["PING", "adc00000001"] (by simp)
  refine ⟨Resp.Parser.buffered_incremental, ?_, ?_⟩
  · rw [delivered_eq, filter_pingWhole]
    change reached _ ((Resp.Parser.buffered Resp.bytesText).emitted [] [pingStream]) = _
    rw [Resp.Parser.emitted_buffered, List.flatten_singleton, List.nil_append, hparse]
    rfl
  · rw [delivered_eq, filter_pingCut]
    rfl

end TCP

end RealTimeWs
