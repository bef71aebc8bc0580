import Mathlib.Data.List.Perm.Basic
import Mathlib.Data.List.Nodup
import RealTimeWs.Concentrator.PingClient

/-! # Control blocks in the lists of lwIP

A control block is in the free pool or linked in one of the lists. Opening a connection
takes one from the pool, links it in the list of bound ones and moves it to the active
ones. When the last step fails it is given back to the pool without a look at the list.
-/

namespace RealTimeWs

/-- The free pool and the lists. The heads of the lists come first. -/
structure PcbLists where
  free : List Nat
  timeWait : List Nat
  active : List Nat
  bound : List Nat
deriving DecidableEq, Repr

namespace PcbLists

variable (lists : PcbLists)

/-- All control blocks of the stack. -/
def all : List Nat := lists.free ++ (lists.timeWait ++ (lists.active ++ lists.bound))

/-- No control block is in two places. -/
def Consistent : Prop := lists.all.Nodup

instance : Decidable lists.Consistent := inferInstanceAs (Decidable lists.all.Nodup)

/-- Abort the connection at this place of the list of waiting ones. -/
def killTimeWait (oldest : Nat) : PcbLists :=
  match lists.timeWait[oldest]? with
  | none => lists
  | some pcb =>
      { lists with timeWait := lists.timeWait.eraseIdx oldest, free := pcb :: lists.free }

/-- Abort the connection at this place of the list of active ones. -/
def killPrio (oldest : Nat) : PcbLists :=
  match lists.active[oldest]? with
  | none => lists
  | some pcb => { lists with active := lists.active.eraseIdx oldest, free := pcb :: lists.free }

/-- Take a control block from the pool. -/
def mempMalloc : Option Nat × PcbLists :=
  match lists.free with
  | [] => (none, lists)
  | pcb :: free => (some pcb, { lists with free := free })

/-- The control block goes back to the pool. -/
def mempFree : Option Nat → PcbLists
  | none => lists
  | some pcb => { lists with free := pcb :: lists.free }

end PcbLists

/-- Which connections are the oldest ones, and what the calls of lwIP return. A place behind the
end of a list says that there is no connection to abort. -/
structure ConnectAnswers where
  oldestTimeWait : Nat
  oldestActive : Nat
  tcpBind : Err
  tcpConnect : Err
deriving DecidableEq, Repr

/-- An empty pool is filled from the connections that wait, then from the active ones. -/
def tcpNew (answers : ConnectAnswers) (lists : PcbLists) : Option Nat × PcbLists :=
  if lists.free ≠ [] then lists.mempMalloc
  else
    let lists := lists.killTimeWait answers.oldestTimeWait
    if lists.free ≠ [] then lists.mempMalloc
    else (lists.killPrio answers.oldestActive).mempMalloc

/-- `tcp_bind`: a control block with a local address is in the list of the bound ones. -/
def tcpBind (answers : ConnectAnswers) (pcb : Nat) (lists : PcbLists) : PcbLists :=
  if answers.tcpBind = .ok then { lists with bound := pcb :: lists.bound } else lists

/-- `tcp_connect`: the control block becomes an active one when its SYN is sent. -/
def tcpConnect (answers : ConnectAnswers) (pcb : Nat) (lists : PcbLists) : Err × PcbLists :=
  if answers.tcpConnect = .ok then
    (.ok, { lists with bound := lists.bound.erase pcb, active := pcb :: lists.active })
  else (answers.tcpConnect, lists)

/-- The result of binding is not looked at. -/
def tcpEchoclientConnect (answers : ConnectAnswers) (lists : PcbLists) : PcbLists :=
  match tcpNew answers lists with
  | (some echoclientPcb, lists) =>
      let lists := tcpBind answers echoclientPcb lists
      let (err, lists) := tcpConnect answers echoclientPcb lists
      if err ≠ .ok then lists.mempFree echoclientPcb else lists
  | (none, lists) => lists.mempFree none

/-! ## Taking a control block -/

section New

variable {lists : PcbLists} {answers : ConnectAnswers} {pcb : Nat}

theorem cons_eraseIdx_perm {list : List Nat} {place : Nat} (hpcb : list[place]? = some pcb) :
    (pcb :: list.eraseIdx place).Perm list := by
  obtain ⟨hlt, rfl⟩ := List.getElem?_eq_some_iff.mp hpcb
  exact List.getElem_cons_eraseIdx_perm hlt

theorem killTimeWait_perm (oldest : Nat) : (lists.killTimeWait oldest).all.Perm lists.all := by
  rw [PcbLists.killTimeWait]
  cases hpcb : lists.timeWait[oldest]? with
  | none => exact List.Perm.refl _
  | some pcb =>
      have hmoved : (pcb :: (lists.free ++ (lists.timeWait.eraseIdx oldest ++
          (lists.active ++ lists.bound)))).Perm
          (lists.free ++ (pcb :: lists.timeWait.eraseIdx oldest ++
            (lists.active ++ lists.bound))) := List.perm_middle.symm
      apply hmoved.trans
      apply List.Perm.append_left
      exact (cons_eraseIdx_perm hpcb).append_right _

theorem killPrio_perm (oldest : Nat) : (lists.killPrio oldest).all.Perm lists.all := by
  rw [PcbLists.killPrio]
  cases hpcb : lists.active[oldest]? with
  | none => exact List.Perm.refl _
  | some pcb =>
      have hmoved : (pcb :: (lists.free ++ (lists.timeWait ++
          (lists.active.eraseIdx oldest ++ lists.bound)))).Perm
          (lists.free ++ (pcb :: (lists.timeWait ++
            (lists.active.eraseIdx oldest ++ lists.bound)))) := List.perm_middle.symm
      have hmoved' : (pcb :: (lists.timeWait ++ (lists.active.eraseIdx oldest ++
          lists.bound))).Perm (lists.timeWait ++ (pcb :: lists.active.eraseIdx oldest ++
            lists.bound)) := List.perm_middle.symm
      apply hmoved.trans
      apply List.Perm.append_left
      apply hmoved'.trans
      apply List.Perm.append_left
      exact (cons_eraseIdx_perm hpcb).append_right _

/-- What a control block is taken from: everything else stays where it is or is in the pool. -/
theorem mempMalloc_cases (lists : PcbLists) :
    (lists.mempMalloc = (none, lists) ∧ lists.free = []) ∨
      ∃ pcb lists', lists.mempMalloc = (some pcb, lists') ∧ (pcb :: lists'.all).Perm lists.all := by
  rw [PcbLists.mempMalloc]
  cases hfree : lists.free with
  | nil => exact .inl ⟨rfl, rfl⟩
  | cons pcb free =>
      refine .inr ⟨pcb, { lists with free := free }, rfl, ?_⟩
      rw [PcbLists.all, PcbLists.all, hfree]
      exact List.Perm.refl _

theorem tcpNew_cases (answers : ConnectAnswers) (lists : PcbLists) :
    (∃ lists', tcpNew answers lists = (none, lists') ∧ lists'.free = []) ∨
      ∃ pcb lists', tcpNew answers lists = (some pcb, lists') ∧
        (pcb :: lists'.all).Perm lists.all := by
  have htake : ∀ lists' : PcbLists, lists'.all.Perm lists.all →
      (∃ lists'', lists'.mempMalloc = (none, lists'') ∧ lists''.free = []) ∨
        ∃ pcb lists'', lists'.mempMalloc = (some pcb, lists'') ∧
          (pcb :: lists''.all).Perm lists.all := by
    intro lists' hperm
    rcases mempMalloc_cases lists' with ⟨hnone, hfree⟩ | ⟨pcb, lists'', hsome, htaken⟩
    · exact .inl ⟨lists', hnone, hfree⟩
    · exact .inr ⟨pcb, lists'', hsome, htaken.trans hperm⟩
  rw [tcpNew]
  by_cases hfree : lists.free ≠ []
  · rw [if_pos hfree]
    exact htake lists (List.Perm.refl _)
  · rw [if_neg hfree]
    simp only
    split
    · exact htake _ (killTimeWait_perm answers.oldestTimeWait)
    · exact htake _ ((killPrio_perm answers.oldestActive).trans
        (killTimeWait_perm answers.oldestTimeWait))

end New

/-! ## The connection -/

/-- No free control block is linked, and one that was taken without a connection is free again. -/
def GivenBack (answers : ConnectAnswers) (lists : PcbLists) : Prop :=
  (∀ pcb ∈ (tcpEchoclientConnect answers lists).free,
    pcb ∉ (tcpEchoclientConnect answers lists).bound ∧
      pcb ∉ (tcpEchoclientConnect answers lists).active) ∧
  ∀ pcb, (tcpNew answers lists).1 = some pcb → answers.tcpConnect ≠ .ok →
    pcb ∈ (tcpEchoclientConnect answers lists).free

/-- The lists stay as they should be except when the control block was bound and could not be
connected. -/
theorem given_back_iff (answers : ConnectAnswers) (lists : PcbLists)
    (hconsistent : lists.Consistent) :
    GivenBack answers lists ↔
      ¬ ((tcpNew answers lists).1 ≠ none ∧ answers.tcpBind = .ok ∧ answers.tcpConnect ≠ .ok) := by
  rw [GivenBack, tcpEchoclientConnect]
  rcases tcpNew_cases answers lists with ⟨lists', hnew, hfree⟩ | ⟨pcb, lists', hnew, hperm⟩
  · rw [hnew]
    simp [PcbLists.mempFree, hfree]
  · have hnodup : (pcb :: lists'.all).Nodup := hperm.nodup_iff.mpr hconsistent
    obtain ⟨hfresh, hnodup⟩ := List.nodup_cons.mp hnodup
    simp only [PcbLists.all, List.mem_append, not_or] at hfresh
    obtain ⟨hnotFree, _, hnotActive, hnotBound⟩ := hfresh
    -- a free control block is neither active nor bound
    have hapart : ∀ other ∈ lists'.free, other ∉ lists'.active ∧ other ∉ lists'.bound := by
      intro other hmem
      have hdisjoint := List.disjoint_of_nodup_append hnodup hmem
      exact ⟨fun hactive => hdisjoint (by simp [hactive]),
        fun hbound => hdisjoint (by simp [hbound])⟩
    rw [hnew]
    simp only [tcpBind, tcpConnect]
    by_cases hconnect : answers.tcpConnect = .ok
    · have herase : (if answers.tcpBind = .ok then { lists' with bound := pcb :: lists'.bound }
          else lists').bound.erase pcb = lists'.bound := by
        split
        · exact List.erase_cons_head pcb lists'.bound
        · exact List.erase_of_not_mem hnotBound
      have hactive : (if answers.tcpBind = .ok then { lists' with bound := pcb :: lists'.bound }
          else lists').active = lists'.active := by
        split <;> rfl
      have hpool : (if answers.tcpBind = .ok then { lists' with bound := pcb :: lists'.bound }
          else lists').free = lists'.free := by
        split <;> rfl
      refine iff_of_true ⟨?_, fun _ _ hne => absurd hconnect hne⟩ (fun hbad => hbad.2.2 hconnect)
      simp only [hconnect, if_true, ne_eq, not_true_eq_false, if_false, herase, hactive, hpool]
      intro other hmem
      have hother : other ≠ pcb := fun heq => hnotFree (heq ▸ hmem)
      obtain ⟨hactive, hbound⟩ := hapart other hmem
      exact ⟨hbound, by simp [hother, hactive]⟩
    · simp only [hconnect, if_false, ne_eq, not_false_eq_true, if_true, PcbLists.mempFree]
      by_cases hbind : answers.tcpBind = .ok
      · refine iff_of_false (fun hback => ?_) (fun hgood => hgood ⟨by simp, hbind, trivial⟩)
        rw [if_pos hbind] at hback
        exact (hback.1 pcb List.mem_cons_self).1 List.mem_cons_self
      · refine iff_of_true ?_ (fun hbad => hbind hbad.2.1)
        rw [if_neg hbind]
        refine ⟨?_, ?_⟩
        · intro other hmem
          rcases List.mem_cons.mp hmem with rfl | hmem
          · exact ⟨hnotBound, hnotActive⟩
          · exact (hapart other hmem).symm
        · intro other hother _
          rw [← Option.some.inj hother]
          exact List.mem_cons_self

/-- Two free control blocks and nothing else. -/
def idleLists : PcbLists := ⟨[1, 2], [], [], []⟩

/-- A connection that is opened, and one that fails after its port was in use (`ERR_USE`). -/
theorem given_back_iff_idle :
    GivenBack ⟨0, 0, .ok, .ok⟩ idleLists ∧ GivenBack ⟨0, 0, .other (-8), .mem⟩ idleLists :=
  ⟨(given_back_iff ⟨0, 0, .ok, .ok⟩ idleLists (by decide)).mpr (by decide),
    (given_back_iff ⟨0, 0, .other (-8), .mem⟩ idleLists (by decide)).mpr (by decide)⟩

/-- A connection that could be bound but not opened: its control block is in the pool and still
the head of the list of bound ones. -/
theorem bound_block_freed :
    tcpEchoclientConnect ⟨0, 0, .ok, .mem⟩ idleLists = ⟨[1, 2], [], [], [1]⟩ ∧
      ¬ GivenBack ⟨0, 0, .ok, .mem⟩ idleLists := by
  refine ⟨rfl, fun hback => ?_⟩
  exact (hback.1 1 (by decide)).1 (by decide)

end RealTimeWs
