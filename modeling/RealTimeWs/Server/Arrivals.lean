import RealTimeWs.Server.Regular

/-! # Arrivals of datagrams

The accepted datagrams of a device in the order of their arrival, each with its
place in the sequence of commands. What had arrived when a command was sent is a
prefix of all arrivals, and later events never change it.
-/

namespace RealTimeWs

open Redis

/-- An accepted datagram, and how many commands had been sent when it arrived. -/
structure Arrival where
  position : Nat
  data : String
  address : String
  port : Nat

/-- What a device tells the server by an event. -/
def Event.arrival (device : String) (position : Nat) : Event → Option Arrival
  | .udpMessage msg address port => (UDP.accept msg).bind fun reading =>
      if reading.1 = device then some ⟨position, reading.2, address, port⟩ else none
  | _ => none

/-- All arrivals of a device, the oldest first. -/
def arrivals (device : String) (history : List (Nat × Event)) : List Arrival :=
  history.filterMap fun entry => entry.2.arrival device entry.1

/-- The arrivals of a device before the command with the given ordinal was sent. -/
def arrivedBy (device : String) (history : List (Nat × Event)) (n : Nat) : List Arrival :=
  (arrivals device history).filter fun arrival => arrival.position ≤ n

/-- The newest of them. -/
def newestBy (device : String) (history : List (Nat × Event)) (n : Nat) : Option Arrival :=
  (arrivedBy device history n).getLast?

section Arrivals

variable {device : String} {history : List (Nat × Event)}

/-- Arrivals are accepted datagrams of the device. -/
theorem exists_of_arrival {event : Event} {n : Nat} {arrival : Arrival}
    (harrival : event.arrival device n = some arrival) :
    arrival.position = n ∧ ∃ msg, event = .udpMessage msg arrival.address arrival.port ∧
      UDP.accept msg = some (device, arrival.data) := by
  cases event with
  | udpMessage msg address port =>
      obtain ⟨reading, haccept, hreading⟩ := Option.bind_eq_some_iff.mp harrival
      split at hreading
      next heq =>
          cases hreading
          exact ⟨rfl, msg, rfl, by rw [haccept, ← heq]⟩
      next => cases hreading
  | _ => cases harrival

theorem arrival_position {event : Event} {n : Nat} {arrival : Arrival}
    (harrival : event.arrival device n = some arrival) : arrival.position = n :=
  (exists_of_arrival harrival).1

/-- What is done for the device of an accepted datagram is done for its arrival. -/
theorem opsFor_accepted (event : Event) (position : Nat) (ops : String × String → List Operation) :
    opsFor device event.accepted (fun reading => reading.1) ops =
      ((event.arrival device position).map fun arrival => ops (device, arrival.data)).getD [] := by
  cases event with
  | udpMessage msg address port =>
      cases haccept : UDP.accept msg with
      | none => simp [Event.accepted, Event.arrival, haccept, opsFor]
      | some reading =>
          by_cases heq : reading.1 = device
          · subst heq
            simp [Event.accepted, Event.arrival, haccept, opsFor]
          · simp [Event.accepted, Event.arrival, haccept, opsFor, heq]
  | _ => rfl

variable (device history) in
/-- Which readings arrive depends on the events only, not on their places. -/
theorem arrivals_map_data : (arrivals device history).map Arrival.data =
    (history.map Prod.snd).filterMap fun event => (event.arrival device 0).map Arrival.data := by
  rw [arrivals, List.map_filterMap, List.filterMap_map]
  congr 1
  funext ⟨position, event⟩
  cases event with
  | udpMessage msg address port =>
      cases haccept : UDP.accept msg with
      | none => simp [Event.arrival, haccept]
      | some reading =>
          by_cases hdevice : reading.1 = device <;> simp [Event.arrival, haccept, hdevice]
  | _ => rfl

theorem arrivals_append_singleton (entry : Nat × Event) :
    arrivals device (history ++ [entry]) =
      arrivals device history ++ (entry.2.arrival device entry.1).toList := by
  rw [arrivals, List.filterMap_append, arrivals]
  cases harrival : entry.2.arrival device entry.1 <;> simp [harrival]

variable (device) in
/-- Everything has arrived before a command that is still to be sent. -/
theorem arrivedBy_of_past {n : Nat} (hpast : ∀ entry ∈ history, entry.1 ≤ n) :
    arrivedBy device history n = arrivals device history := by
  apply List.filter_eq_self.mpr
  intro arrival hmem
  obtain ⟨entry, hentry, harrival⟩ := List.mem_filterMap.mp hmem
  rw [decide_eq_true_eq, arrival_position harrival]
  exact hpast entry hentry

/-- A later event does not change what had arrived before. -/
theorem arrivedBy_append {n : Nat} {entry : Nat × Event} (hlater : n < entry.1) :
    arrivedBy device (history ++ [entry]) n = arrivedBy device history n := by
  rw [arrivedBy, arrivals_append_singleton, List.filter_append, ← arrivedBy]
  cases harrival : entry.2.arrival device entry.1 with
  | none => simp
  | some arrival =>
      have hposition := arrival_position harrival
      simp only [Option.toList_some, List.filter_cons, List.filter_nil]
      rw [if_neg (by simpa [hposition] using hlater), List.append_nil]

theorem newestBy_append {n : Nat} {entry : Nat × Event} (hlater : n < entry.1) :
    newestBy device (history ++ [entry]) n = newestBy device history n := by
  rw [newestBy, arrivedBy_append hlater, ← newestBy]

/-- Positions of arrivals increase. -/
theorem arrivals_sorted
    (hrecorded : history.Pairwise fun earlier later => earlier.1 ≤ later.1) :
    (arrivals device history).Pairwise
      fun earlier later => earlier.position ≤ later.position := by
  refine hrecorded.filterMap _ ?_
  intro earlier later hle arrival harrival other hother
  rw [arrival_position harrival, arrival_position hother]
  exact hle

/-- The smaller of two bounds cuts an ordered list off earlier. -/
theorem filter_le_isPrefix (list : List Arrival) {n m : Nat} (hle : n ≤ m)
    (hsorted : list.Pairwise fun earlier later => earlier.position ≤ later.position) :
    list.filter (fun arrival => arrival.position ≤ n) <+:
      list.filter (fun arrival => arrival.position ≤ m) := by
  induction list with
  | nil => exact List.prefix_rfl
  | cons arrival rest ih =>
      obtain ⟨hfirst, hrest⟩ := List.pairwise_cons.mp hsorted
      by_cases hearly : arrival.position ≤ n
      · rw [List.filter_cons_of_pos (by simpa using hearly),
          List.filter_cons_of_pos (by simpa using hearly.trans hle)]
        exact (List.prefix_cons_inj arrival).mpr (ih hrest)
      · -- Everything behind the first late arrival is late as well.
        have hnone : (arrival :: rest).filter (fun arrival => arrival.position ≤ n) = [] := by
          apply List.filter_eq_nil_iff.mpr
          intro other hmem
          rcases List.mem_cons.mp hmem with rfl | hmem
          · simpa using hearly
          · have := hfirst other hmem
            simp only [decide_eq_true_eq]
            omega
        rw [hnone]
        exact List.nil_prefix

theorem arrivedBy_isPrefix {n m : Nat} (hle : n ≤ m)
    (hrecorded : history.Pairwise fun earlier later => earlier.1 ≤ later.1) :
    arrivedBy device history n <+: arrivedBy device history m :=
  filter_le_isPrefix _ hle (arrivals_sorted hrecorded)

end Arrivals

end RealTimeWs
