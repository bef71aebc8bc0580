import Mathlib.Algebra.BigOperators.Group.List.Basic
import RealTimeWs.Concentrator.RxQueue
import RealTimeWs.Memory.Heap
import RealTimeWs.Memory.References

/-! # The pool of packet buffers

The driver, the ping client and the commands take their packet buffers from one pool. A
buffer that is free is linked to the next free one through the same word that links
a packet buffer to the next one of its chain. Who holds a pointer may take another one,
and gives each of them back with `pbuf_free`.
-/

namespace RealTimeWs

open Memory

/-- `PBUF_POOL_BUFSIZE_ALIGNED`. -/
def pbufPoolBufsizeAligned : Nat := 512

/-- `LWIP_MEM_ALIGN_SIZE`, for an alignment of four bytes. -/
def lwipMemAlignSize (size : Nat) : Nat := (size + 3) / 4 * 4

/-- The layers of `pbuf_alloc`. -/
inductive PbufLayer where
  | transport
  | ip
  | link
  | raw
deriving DecidableEq, Repr

/-- The room for the headers of the layer and of those below it. -/
def PbufLayer.offset : PbufLayer → Nat
  | .transport => 14 + 20 + 20
  | .ip => 14 + 20
  | .link => 14
  | .raw => 0

/-- What is left of the first buffer of a chain behind the headers. -/
def PbufLayer.room (layer : PbufLayer) : Nat :=
  pbufPoolBufsizeAligned - lwipMemAlignSize layer.offset

/-- A buffer of the pool: its place in a chain or in the free list, its lengths, and how
many pointers lead to it. -/
structure PoolPbuf where
  next : Option Nat := none
  totLen : Nat := 0
  len : Nat := 0
  ref : Nat := 0
deriving DecidableEq, Repr

/-- The pool: how many buffers it has, the head of the free list, and the buffers. -/
structure PbufPool where
  num : Nat
  tab : Option Nat
  cells : Nat → PoolPbuf

namespace PbufPool

variable (pool : PbufPool)

/-- The word that links a buffer to the next one. -/
def next (p : Nat) : Option Nat := (pool.cells p).next

/-- The reference counter of a buffer. -/
def ref (p : Nat) : Nat := (pool.cells p).ref

/-- Write a buffer. -/
def put (p : Nat) (pbuf : PoolPbuf) : PbufPool :=
  { pool with cells := Function.update pool.cells p pbuf }

/-- One more element is carved out and becomes the first one of the list. -/
def mempCarve (pool : PbufPool) (j : Nat) : PbufPool :=
  { pool.put j { pool.cells j with next := pool.tab } with tab := some j }

/-- `memp_init`: the list of all buffers, the one carved out last in front. -/
def mempInit (num : Nat) : PbufPool :=
  (List.range num).foldl mempCarve ⟨num, none, fun _ => {}⟩

/-- `memp_malloc`: unlink the first free buffer. -/
def mempMalloc : Option Nat × PbufPool :=
  match pool.tab with
  | none => (none, pool)
  | some memp => (some memp, { pool with tab := pool.next memp })

/-- `memp_free`: link a buffer in front of the free ones. -/
def mempFree (mem : Nat) : PbufPool :=
  { pool.put mem { pool.cells mem with next := pool.tab } with tab := some mem }

/-- Drop one reference to the first buffer. A buffer without references goes back to the pool,
and the next one loses a reference. The count has eight bits. -/
def pbufFreeFrom : Nat → PbufPool → Option Nat → Nat → Except Fault (Nat × PbufPool)
  | _, pool, none, count => .ok (count, pool)
  | 0, _, some _, _ => .error .endless
  | fuel + 1, pool, some p, count =>
      -- the assertion that a buffer of a chain is referenced
      if pool.ref p = 0 then .error .freedTwice
      else
        let dropped := pool.put p { pool.cells p with ref := pool.ref p - 1 }
        if dropped.ref p = 0 then
          pbufFreeFrom fuel (dropped.mempFree p) (pool.next p) ((count + 1) % 2 ^ 8)
        else
          .ok (count, dropped)

/-- `pbuf_free`. A chain has no more buffers than the pool. -/
def pbufFree (p : Option Nat) : Except Fault (Nat × PbufPool) :=
  pbufFreeFrom pool.num pool p 0

/-- `pbuf_ref`. The counter has sixteen bits. -/
def pbufRef (p : Nat) : PbufPool :=
  pool.put p { pool.cells p with ref := (pool.ref p + 1) % 2 ^ 16 }

/-- Add buffers behind the last one until the rest of the length is covered. When the pool is
empty before that, the chain so far is freed. -/
def pbufAllocTail : Nat → PbufPool → Nat → Nat → Nat → Except Fault (Option Nat × PbufPool)
  | _, pool, p, _, 0 => .ok (some p, pool)
  | 0, _, _, _, _ + 1 => .error .endless
  | fuel + 1, pool, p, r, remLen + 1 =>
      match pool.mempMalloc with
      | (none, pool) => do
          let freed ← pool.pbufFree (some p)
          .ok (none, freed.2)
      | (some q, pool) =>
          let len := min (remLen + 1) pbufPoolBufsizeAligned
          let linked := pool.put r { pool.cells r with next := some q }
          pbufAllocTail fuel (linked.put q { next := none, totLen := remLen + 1, len, ref := 1 })
            p q (remLen + 1 - len)

/-- `pbuf_alloc` from the pool: the first buffer leaves room for the headers. -/
def pbufAlloc (layer : PbufLayer) (length : UInt16) : Except Fault (Option Nat × PbufPool) :=
  match pool.mempMalloc with
  | (none, pool) => .ok (none, pool)
  | (some p, pool) =>
      let len := min length.toNat layer.room
      pbufAllocTail pool.num (pool.put p { next := none, totLen := length.toNat, len, ref := 1 })
        p p (length.toNat - len)

/-- The buffers that a pointer leads to, as many as the pool can have. -/
def walk (pool : PbufPool) : Nat → Option Nat → List Nat
  | 0, _ => []
  | _ + 1, none => []
  | fuel + 1, some p => p :: walk pool fuel (pool.next p)

/-- The free buffers, the one to be taken next in front. -/
def free : List Nat := pool.walk pool.num pool.tab

/-- The buffers of the chain that a pointer leads to. -/
def chain (p : Nat) : List Nat := pool.walk pool.num (some p)

end PbufPool

/-! ## Who holds pointers -/

/-- The pool, and the pointers that the drivers, the stack and the application hold. -/
structure PoolSystem where
  pool : PbufPool
  held : List Nat

/-- What the holders of pointers do. -/
inductive PoolAction where
  | alloc (layer : PbufLayer) (length : UInt16)
  | ref (p : Nat)
  | free (p : Nat)
deriving DecidableEq, Repr

namespace PoolSystem

/-- One call: what is allocated is held, and what is freed is not held any more. -/
def step (s : PoolSystem) : PoolAction → Except Fault PoolSystem
  | .alloc layer length => do
      let allocated ← s.pool.pbufAlloc layer length
      .ok ⟨allocated.2, allocated.1.toList ++ s.held⟩
  | .ref p => .ok ⟨s.pool.pbufRef p, p :: s.held⟩
  | .free p => do
      let freed ← s.pool.pbufFree (some p)
      .ok ⟨freed.2, s.held.erase p⟩

/-- A pointer is given up by one who holds it, and taken by one who can come to it. A buffer
has fewer pointers to it than its counter can count. -/
def Legal (s : PoolSystem) : PoolAction → Prop
  | .alloc _ _ => True
  | .ref p => Leads s.pool.next s.held p ∧ s.pool.ref p + 1 < 2 ^ 16
  | .free p => p ∈ s.held

/-- The states that legal calls lead to. -/
inductive Reachable (num : Nat) : PoolSystem → Prop
  | init : Reachable num ⟨PbufPool.mempInit num, []⟩
  | step {s s' : PoolSystem} {action : PoolAction} (hreachable : Reachable num s)
      (hlegal : s.Legal action) (hstep : s.step action = .ok s') : Reachable num s'

end PoolSystem

/-! ## The pool at rest -/

namespace PbufPool

variable {pool pool' : PbufPool} {free held : List Nat} {p : Nat}

@[simp] theorem put_num (pbuf : PoolPbuf) : (pool.put p pbuf).num = pool.num := rfl

@[simp] theorem put_tab (pbuf : PoolPbuf) : (pool.put p pbuf).tab = pool.tab := rfl

@[simp] theorem put_cells_self (pbuf : PoolPbuf) : (pool.put p pbuf).cells p = pbuf := by
  simp only [put, Function.update_self]

theorem put_cells_of_ne {other : Nat} (hne : other ≠ p) (pbuf : PoolPbuf) :
    (pool.put p pbuf).cells other = pool.cells other := by
  simp only [put, Function.update_of_ne hne]

@[simp] theorem mempFree_num : (pool.mempFree p).num = pool.num := rfl

@[simp] theorem mempFree_tab : (pool.mempFree p).tab = some p := rfl

@[simp] theorem mempFree_cells_self :
    (pool.mempFree p).cells p = { pool.cells p with next := pool.tab } := by
  rw [mempFree, put_cells_self]

theorem mempFree_cells_of_ne {other : Nat} (hne : other ≠ p) :
    (pool.mempFree p).cells other = pool.cells other := by
  rw [mempFree, put_cells_of_ne hne]

theorem walk_of_linked {pointer : Option Nat} {fuel : Nat}
    (hlinked : Linked pool.next pointer free) (hfuel : free.length ≤ fuel) :
    pool.walk fuel pointer = free := by
  induction free generalizing pointer fuel with
  | nil =>
      rw [show pointer = none from hlinked]
      cases fuel with
      | zero => rfl
      | succ fuel => rfl
  | cons p rest ih =>
      obtain ⟨rfl, hrest⟩ := hlinked
      obtain ⟨fuel, rfl⟩ : ∃ less, fuel = less + 1 := by
        cases fuel with
        | zero => exact absurd hfuel (Nat.not_succ_le_zero _)
        | succ less => exact ⟨less, rfl⟩
      rw [walk, ih hrest (Nat.le_of_succ_le_succ hfuel)]

/-- The buffers that are in use. -/
def live (num : Nat) (free : List Nat) : Finset Nat := Finset.range num \ free.toFinset

theorem mem_live {num : Nat} : p ∈ live num free ↔ p < num ∧ p ∉ free := by
  simp [live]

theorem live_cons (num p : Nat) (free : List Nat) :
    live num (p :: free) = (live num free).erase p := by
  ext other
  simp only [Finset.mem_erase, mem_live, List.mem_cons, not_or]
  tauto

/-- These buffers are free, and all others are in use and count the pointers to them. -/
structure Conserved (pool : PbufPool) (free held : List Nat) : Prop where
  linked : Linked pool.next pool.tab free
  nodup : free.Nodup
  bound : ∀ p ∈ free, p < pool.num
  counts : Counts pool.next pool.ref (live pool.num free) held
  ranked : Ranked pool.next (live pool.num free)
  totals : ∀ p ∈ live pool.num free, (pool.cells p).totLen =
    (pool.cells p).len + (pool.next p).elim 0 fun other => (pool.cells other).totLen

theorem Conserved.length_le (hconserved : pool.Conserved free held) : free.length ≤ pool.num := by
  have hsubset : free ⊆ List.range pool.num := fun p hmem =>
    List.mem_range.mpr (hconserved.bound p hmem)
  have hle := (hconserved.nodup.subperm hsubset).length_le
  rwa [List.length_range] at hle

theorem Conserved.free_eq (hconserved : pool.Conserved free held) : pool.free = free :=
  walk_of_linked hconserved.linked hconserved.length_le

/-- What is not free is unchanged. -/
theorem Conserved.congr {free' : List Nat} (hconserved : pool.Conserved free held)
    (hperm : free'.Perm free) (hlinked : Linked pool'.next pool'.tab free')
    (hnum : pool'.num = pool.num) (hcells : ∀ p ∉ free, pool'.cells p = pool.cells p) :
    pool'.Conserved free' held := by
  have hlive : live pool'.num free' = live pool.num free := by
    ext p
    rw [mem_live, mem_live, hnum, hperm.mem_iff]
  have hsame : ∀ p ∈ live pool.num free, pool'.cells p = pool.cells p := fun p hmem =>
    hcells p (mem_live.mp hmem).2
  have hnext : ∀ p ∈ live pool.num free, pool'.next p = pool.next p := fun p hmem => by
    rw [next, next, hsame p hmem]
  refine ⟨hlinked, hperm.nodup_iff.mpr hconserved.nodup, ?_, ?_, ?_, ?_⟩
  · intro p hmem
    rw [hnum]
    exact hconserved.bound p (hperm.mem_iff.mp hmem)
  · rw [hlive]
    exact hconserved.counts.congr hnext fun p hmem => by rw [ref, ref, hsame p hmem]
  · rw [hlive]
    exact hconserved.ranked.mono (Finset.Subset.refl _) hnext
  · rw [hlive]
    intro p hmem
    rw [hsame p hmem, hconserved.totals p hmem, hnext p hmem]
    cases hother : pool.next p with
    | none => rfl
    | some other =>
        have hclosed := hconserved.counts.closed p hmem other hother
        simp only [Option.elim_some, hsame other hclosed]

theorem Conserved.perm {held' : List Nat} (hconserved : pool.Conserved free held)
    (hperm : held.Perm held') : pool.Conserved free held' :=
  { hconserved with counts := hconserved.counts.perm hperm }

/-! ## Freeing -/

theorem Conserved.ref_ne_zero (hconserved : pool.Conserved free held) (hmem : p ∈ held) :
    pool.ref p ≠ 0 :=
  hconserved.counts.used p (hconserved.counts.held p hmem)

/-- A pointer that is not the last one is given up. -/
theorem Conserved.drop (hconserved : pool.Conserved free (p :: held)) (hmore : pool.ref p ≠ 1) :
    (pool.put p { pool.cells p with ref := pool.ref p - 1 }).Conserved free held := by
  have hmem : p ∈ p :: held := List.mem_cons_self
  have hcells : ∀ other, (pool.put p { pool.cells p with ref := pool.ref p - 1 }).cells other =
      { pool.cells other with ref := Function.update pool.ref p (pool.ref p - 1) other } := by
    intro other
    by_cases heq : other = p
    · subst heq
      rw [put_cells_self, Function.update_self]
    · rw [put_cells_of_ne heq, Function.update_of_ne heq]
      rfl
  have hnext : ∀ other, (pool.put p { pool.cells p with ref := pool.ref p - 1 }).next other =
      pool.next other := fun other => by rw [next, hcells other, next]
  refine ⟨?_, hconserved.nodup, hconserved.bound, ?_, ?_, ?_⟩
  · exact hconserved.linked.congr fun other _ => hnext other
  · have hdrop := hconserved.counts.drop hmem hmore
    rw [List.erase_cons_head] at hdrop
    exact hdrop.congr (fun other _ => hnext other) fun other _ => by rw [ref, hcells other]
  · exact hconserved.ranked.mono (Finset.Subset.refl _) fun other _ => hnext other
  · intro other hother
    simp only [hcells, hnext]
    exact hconserved.totals other hother

/-- The last pointer is given up. The pointer of the buffer is held until it is followed. -/
theorem Conserved.release (hconserved : pool.Conserved free (p :: held)) (hlast : pool.ref p = 1) :
    ((pool.put p { pool.cells p with ref := pool.ref p - 1 }).mempFree p).Conserved (p :: free)
      ((pool.next p).toList ++ held) := by
  have hmem : p ∈ p :: held := List.mem_cons_self
  have hlive := hconserved.counts.held p hmem
  have hfresh := (mem_live.mp hlive).2
  have hcells : ∀ other, other ≠ p →
      ((pool.put p { pool.cells p with ref := pool.ref p - 1 }).mempFree p).cells other =
        pool.cells other := fun other hne => by rw [mempFree_cells_of_ne hne, put_cells_of_ne hne]
  have herase := live_cons pool.num p free
  have hrelease := hconserved.counts.release hmem hlast
  rw [List.erase_cons_head] at hrelease
  have hsame : ∀ other ∈ (live pool.num free).erase p,
      ((pool.put p { pool.cells p with ref := pool.ref p - 1 }).mempFree p).cells other =
        pool.cells other := fun other hother => hcells other (Finset.ne_of_mem_erase hother)
  refine ⟨⟨rfl, ?_⟩, List.nodup_cons.mpr ⟨hfresh, hconserved.nodup⟩, ?_, ?_, ?_, ?_⟩
  · rw [next, mempFree_cells_self]
    refine hconserved.linked.congr fun other hother => ?_
    have hne : other ≠ p := by
      rintro rfl
      exact hfresh hother
    rw [next, hcells other hne, next]
  · intro other hother
    rcases List.mem_cons.mp hother with rfl | hold
    · exact (mem_live.mp hlive).1
    · exact hconserved.bound other hold
  · rw [mempFree_num, put_num, herase]
    exact hrelease.congr (fun other hother => by rw [next, hsame other hother, next])
      fun other hother => by rw [ref, hsame other hother, ref]
  · rw [mempFree_num, put_num, herase]
    exact hconserved.ranked.mono (Finset.erase_subset p _) fun other hother => by
      rw [next, hsame other hother, next]
  · rw [mempFree_num, put_num, herase]
    intro other hother
    rw [next, hsame other hother, hconserved.totals other (Finset.mem_of_mem_erase hother), ← next]
    cases hthird : pool.next other with
    | none => rfl
    | some third =>
        have hclosed := hrelease.closed other hother third hthird
        simp only [Option.elim_some, hsame third hclosed]

/-- The walk gives up the pointer it holds, and every buffer it gives back is one less in use. -/
theorem pbufFreeFrom_conserves {fuel : Nat} {pointer : Option Nat} (count : Nat)
    (hconserved : pool.Conserved free (pointer.toList ++ held))
    (hfuel : (live pool.num free).card ≤ fuel) :
    Returns (pbufFreeFrom fuel pool pointer count) fun freed =>
      freed.2.num = pool.num ∧ ∃ free', freed.2.Conserved free' held := by
  induction fuel generalizing pool free pointer count with
  | zero =>
      cases pointer with
      | none => exact Returns.ok ⟨rfl, free, hconserved⟩
      | some p =>
          have hlive := hconserved.counts.held p List.mem_cons_self
          have hpos := Finset.card_pos.mpr ⟨p, hlive⟩
          omega
  | succ fuel ih =>
      cases pointer with
      | none => exact Returns.ok ⟨rfl, free, hconserved⟩
      | some p =>
          rw [Option.toList_some, List.singleton_append] at hconserved
          have hmem : p ∈ p :: held := List.mem_cons_self
          have hused := hconserved.ref_ne_zero hmem
          rw [pbufFreeFrom, if_neg hused]
          by_cases hlast : pool.ref p = 1
          · have hzero : (pool.put p { pool.cells p with ref := pool.ref p - 1 }).ref p = 0 := by
              rw [ref, put_cells_self, hlast]
            simp only [hzero, if_true]
            have hlive := hconserved.counts.held p hmem
            apply ih _ (hconserved.release hlast)
            rw [mempFree_num, put_num, live_cons, Finset.card_erase_of_mem hlive]
            omega
          · have hzero : (pool.put p { pool.cells p with ref := pool.ref p - 1 }).ref p ≠ 0 := by
              rw [ref, put_cells_self]
              simp only
              omega
            simp only [hzero, if_false]
            exact Returns.ok ⟨rfl, free, hconserved.drop hlast⟩

theorem Conserved.pbufFree (hconserved : pool.Conserved free (p :: held)) :
    Returns (pool.pbufFree (some p)) fun freed =>
      freed.2.num = pool.num ∧ ∃ free', freed.2.Conserved free' held := by
  apply pbufFreeFrom_conserves 0 hconserved
  calc (live pool.num free).card
    _ ≤ (Finset.range pool.num).card := Finset.card_le_card Finset.sdiff_subset
    _ = pool.num := Finset.card_range pool.num

/-! ## Allocating -/

/-- The lengths of the buffers that cover this many bytes. -/
def pieces (remLen : Nat) : List Nat :=
  (List.range ((remLen + pbufPoolBufsizeAligned - 1) / pbufPoolBufsizeAligned)).map fun piece =>
    min (remLen - piece * pbufPoolBufsizeAligned) pbufPoolBufsizeAligned

/-- The lengths of the buffers of a chain. Its first buffer has the headers in front. -/
def sizes (layer : PbufLayer) (length : Nat) : List Nat :=
  min length layer.room :: pieces (length - min length layer.room)

@[simp] theorem pieces_zero : pieces 0 = [] := rfl

theorem pieces_succ (remLen : Nat) :
    pieces (remLen + 1) = min (remLen + 1) pbufPoolBufsizeAligned ::
      pieces (remLen + 1 - min (remLen + 1) pbufPoolBufsizeAligned) := by
  have hcount : (remLen + 1 + pbufPoolBufsizeAligned - 1) / pbufPoolBufsizeAligned =
      (remLen + 1 - min (remLen + 1) pbufPoolBufsizeAligned + pbufPoolBufsizeAligned - 1) /
        pbufPoolBufsizeAligned + 1 := by
    simp only [pbufPoolBufsizeAligned]
    omega
  rw [pieces, hcount, List.range_succ_eq_map, List.map_cons, List.map_map, Nat.zero_mul,
    Nat.sub_zero, pieces]
  congr 1
  apply List.map_congr_left
  intro piece _
  simp only [Function.comp_apply, pbufPoolBufsizeAligned]
  omega

theorem pieces_sum (remLen : Nat) : (pieces remLen).sum = remLen := by
  induction remLen using Nat.strong_induction_on with
  | _ remLen ih =>
      cases remLen with
      | zero => rfl
      | succ remLen =>
          have hpos : 0 < min (remLen + 1) pbufPoolBufsizeAligned := by
            simp [pbufPoolBufsizeAligned]
          rw [pieces_succ, List.sum_cons, ih _ (by omega)]
          omega

theorem sizes_sum (layer : PbufLayer) (length : Nat) : (sizes layer length).sum = length := by
  rw [sizes, List.sum_cons, pieces_sum]
  omega

/-- A chain through these addresses with buffers of these lengths, to which this many bytes
are still missing. -/
def Laid (pool : PbufPool) : List Nat → List Nat → Nat → Prop
  | [], [], _ => True
  | p :: built, len :: lens, remLen =>
      pool.cells p =
        { next := built.head?, totLen := len + lens.sum + remLen, len := len, ref := 1 } ∧
      Laid pool built lens remLen
  | _, _, _ => False

section Laid

variable {built lens : List Nat} {remLen : Nat}

theorem Laid.congr (hlaid : pool.Laid built lens remLen)
    (hcells : ∀ p ∈ built, pool'.cells p = pool.cells p) : pool'.Laid built lens remLen := by
  induction built generalizing lens with
  | nil =>
      cases lens with
      | nil => trivial
      | cons len lens => exact hlaid.elim
  | cons p rest ih =>
      cases lens with
      | nil => exact hlaid.elim
      | cons len lens =>
          refine ⟨?_, ih hlaid.2 fun other hmem => hcells other (List.mem_cons_of_mem p hmem)⟩
          rw [hcells p List.mem_cons_self]
          exact hlaid.1

theorem Laid.ref_eq (hlaid : pool.Laid built lens remLen) (hmem : p ∈ built) :
    pool.ref p = 1 := by
  induction built generalizing lens with
  | nil => exact absurd hmem List.not_mem_nil
  | cons first rest ih =>
      cases lens with
      | nil => exact hlaid.elim
      | cons len lens =>
          rcases List.mem_cons.mp hmem with rfl | hrest
          · rw [ref, hlaid.1]
          · exact ih hlaid.2 hrest

theorem Laid.linked (hlaid : pool.Laid built lens remLen) :
    Linked pool.next built.head? built := by
  induction built generalizing lens with
  | nil => rfl
  | cons p rest ih =>
      cases lens with
      | nil => exact hlaid.elim
      | cons len lens =>
          refine ⟨rfl, ?_⟩
          rw [next, hlaid.1]
          exact ih hlaid.2

theorem Laid.lens_eq (hlaid : pool.Laid built lens remLen) :
    built.map (fun p => (pool.cells p).len) = lens := by
  induction built generalizing lens with
  | nil =>
      cases lens with
      | nil => rfl
      | cons len lens => exact hlaid.elim
  | cons p rest ih =>
      cases lens with
      | nil => exact hlaid.elim
      | cons len lens => rw [List.map_cons, ih hlaid.2, hlaid.1]

/-- The first buffer counts all bytes, those that are still missing as well. -/
theorem Laid.totLen_eq (hlaid : pool.Laid built lens remLen) (hhead : built.head? = some p) :
    (pool.cells p).totLen = lens.sum + remLen := by
  cases built with
  | nil => cases hhead
  | cons first rest =>
      rw [List.head?_cons, Option.some.injEq] at hhead
      subst hhead
      cases lens with
      | nil => exact hlaid.elim
      | cons len lens => rw [hlaid.1, List.sum_cons]

/-- The total of a complete chain is the length of the buffer and the total of the next one. -/
theorem Laid.total_eq (hlaid : pool.Laid built lens 0) (hmem : p ∈ built) :
    (pool.cells p).totLen =
      (pool.cells p).len + (pool.next p).elim 0 fun other => (pool.cells other).totLen := by
  induction built generalizing lens with
  | nil => exact absurd hmem List.not_mem_nil
  | cons first rest ih =>
      cases lens with
      | nil => exact hlaid.elim
      | cons len lens =>
          rcases List.mem_cons.mp hmem with rfl | hrest
          · rw [next, hlaid.1]
            cases rest with
            | nil =>
                cases lens with
                | nil => rfl
                | cons len' lens => exact hlaid.2.elim
            | cons second rest =>
                cases lens with
                | nil => exact hlaid.2.elim
                | cons len' lens =>
                    simp only [List.head?_cons, Option.elim_some, hlaid.2.1, List.sum_cons]
                    omega
          · exact ih hlaid.2 hrest

/-- One more buffer behind the last one. -/
theorem Laid.concat {r q len : Nat} (hlaid : pool.Laid (built ++ [r]) lens remLen)
    (hnodup : (built ++ [r, q]).Nodup) (hlen : len ≤ remLen) :
    ((pool.put r { pool.cells r with next := some q }).put q
      { next := none, totLen := remLen, len, ref := 1 }).Laid (built ++ [r, q]) (lens ++ [len])
        (remLen - len) := by
  induction built generalizing lens with
  | nil =>
      have hne : r ≠ q := by
        simpa using hnodup
      cases lens with
      | nil => exact hlaid.elim
      | cons len' lens =>
          cases lens with
          | cons _ _ => exact hlaid.2.elim
          | nil =>
              simp only [List.nil_append, List.cons_append]
              refine ⟨?_, ?_, trivial⟩
              · rw [put_cells_of_ne hne, put_cells_self, hlaid.1]
                simp only [PoolPbuf.mk.injEq, List.sum_cons, List.sum_nil, List.head?_cons,
                  and_true, true_and]
                omega
              · rw [put_cells_self]
                simp only [PoolPbuf.mk.injEq, List.sum_nil, List.head?_nil, and_true, true_and]
                omega
  | cons first rest ih =>
      cases lens with
      | nil => exact hlaid.elim
      | cons len' lens =>
          rw [List.cons_append] at hlaid
          obtain ⟨hfirst, hrest⟩ := hlaid
          rw [List.cons_append, List.nodup_cons] at hnodup
          have hner : first ≠ r := by
            rintro rfl
            exact hnodup.1 (by simp)
          have hneq : first ≠ q := by
            rintro rfl
            exact hnodup.1 (by simp)
          simp only [List.cons_append]
          refine ⟨?_, ih hrest hnodup.2⟩
          rw [put_cells_of_ne hneq, put_cells_of_ne hner, hfirst]
          have hhead : (rest ++ [r]).head? = (rest ++ [r, q]).head? := by
            cases rest with
            | nil => rfl
            | cons second rest => rfl
          rw [hhead, List.sum_append, List.sum_singleton]
          simp only [PoolPbuf.mk.injEq, and_true, true_and]
          omega

end Laid

/-- A chain that nobody else holds goes back to the pool as a whole. -/
theorem pbufFreeFrom_laid {fuel : Nat} {built lens : List Nat} {remLen : Nat} (count : Nat)
    (hlaid : pool.Laid built lens remLen) (hlinked : Linked pool.next pool.tab free)
    (hnodup : (built ++ free).Nodup) (hfuel : built.length ≤ fuel) :
    Returns (pbufFreeFrom fuel pool built.head? count) fun freed =>
      freed.2.num = pool.num ∧ Linked freed.2.next freed.2.tab (built.reverse ++ free) ∧
        ∀ other ∉ built, freed.2.cells other = pool.cells other := by
  induction built generalizing pool free lens fuel count with
  | nil =>
      have hnone : pbufFreeFrom fuel pool none count = .ok (count, pool) := by
        cases fuel with
        | zero => rfl
        | succ fuel => rfl
      rw [List.head?_nil, hnone]
      exact Returns.ok ⟨rfl, hlinked, fun other _ => rfl⟩
  | cons p rest ih =>
      cases lens with
      | nil => exact hlaid.elim
      | cons len lens =>
          obtain ⟨fuel, rfl⟩ : ∃ less, fuel = less + 1 := by
            cases fuel with
            | zero => exact absurd hfuel (Nat.not_succ_le_zero _)
            | succ less => exact ⟨less, rfl⟩
          have hone : pool.ref p = 1 := hlaid.ref_eq List.mem_cons_self
          have hzero : (pool.put p { pool.cells p with ref := pool.ref p - 1 }).ref p = 0 := by
            rw [ref, put_cells_self, hone]
          have hnext : pool.next p = rest.head? := by
            rw [next, hlaid.1]
          obtain ⟨hnot, hnodup'⟩ := List.nodup_cons.mp hnodup
          have hcells : ∀ other, other ≠ p →
              ((pool.put p { pool.cells p with ref := pool.ref p - 1 }).mempFree p).cells other =
                pool.cells other := fun other hne => by
            rw [mempFree_cells_of_ne hne, put_cells_of_ne hne]
          have hrest : ∀ other ∈ rest ++ free, other ≠ p := by
            rintro other hmem rfl
            exact hnot hmem
          rw [List.head?_cons, pbufFreeFrom, if_neg (by omega)]
          simp only [hzero, if_true, hnext]
          have hrec := @ih ((pool.put p { pool.cells p with ref := pool.ref p - 1 }).mempFree p)
            (p :: free) fuel lens ((count + 1) % 2 ^ 8)
            (hlaid.2.congr fun other hmem =>
              hcells other (hrest other (List.mem_append_left _ hmem)))
            ⟨rfl, by
              rw [next, mempFree_cells_self]
              refine hlinked.congr fun other hmem => ?_
              rw [next, hcells other (hrest other (List.mem_append_right _ hmem)), next]⟩
            (by
              rw [List.nodup_middle, List.nodup_cons]
              exact ⟨hnot, hnodup'⟩)
            (Nat.le_of_succ_le_succ hfuel)
          refine hrec.mono fun freed hfreed => ⟨hfreed.1, ?_, ?_⟩
          · rw [List.reverse_cons, List.append_assoc, List.singleton_append]
            exact hfreed.2.1
          · intro other hmem
            rw [hfreed.2.2 other fun hin => hmem (List.mem_cons_of_mem p hin),
              hcells other fun heq => hmem (heq ▸ List.mem_cons_self)]

/-- What becomes of a chain that still needs buffers of these lengths. -/
structure Supplies (pool : PbufPool) (built free lens more : List Nat)
    (allocated : Option Nat × PbufPool) : Prop where
  num : allocated.2.num = pool.num
  cells : ∀ other ∉ built ++ free, allocated.2.cells other = pool.cells other
  enough : more.length ≤ free.length → allocated.1 = (built ++ free).head? ∧
    allocated.2.Laid (built ++ free.take more.length) (lens ++ more) 0 ∧
    Linked allocated.2.next allocated.2.tab (free.drop more.length)
  short : free.length < more.length → allocated.1 = none ∧
    Linked allocated.2.next allocated.2.tab (built ++ free).reverse

section Supplies

variable {front lens : List Nat} {fuel remLen r q : Nat}

theorem mempMalloc_of_linked (hlinked : Linked pool.next pool.tab (q :: free)) :
    pool.mempMalloc = (some q, { pool with tab := pool.next q }) := by
  simp only [mempMalloc, hlinked.1]

theorem mempMalloc_of_empty (hlinked : Linked pool.next pool.tab []) :
    pool.mempMalloc = (none, pool) := by
  simp only [mempMalloc, show pool.tab = none from hlinked]

theorem pbufAllocTail_supplies (hlaid : pool.Laid (front ++ [r]) lens remLen)
    (hhead : (front ++ [r]).head? = some p) (hlinked : Linked pool.next pool.tab free)
    (hnodup : (front ++ r :: free).Nodup) (hbound : (front ++ [r]).length ≤ pool.num)
    (hroom : (front ++ r :: free).length ≤ pool.num) (hfuel : free.length < fuel) :
    Returns (pbufAllocTail fuel pool p r remLen)
      (Supplies pool (front ++ [r]) free lens (pieces remLen)) := by
  induction fuel generalizing pool front r lens remLen free with
  | zero => exact absurd hfuel (Nat.not_lt_zero _)
  | succ fuel ih =>
      cases remLen with
      | zero =>
          refine Returns.ok ⟨rfl, fun _ _ => rfl, ?_, ?_⟩
          · intro _
            rw [List.head?_append, hhead]
            simpa using ⟨hlaid, hlinked⟩
          · intro hless
            exact absurd hless (Nat.not_lt_zero _)
      | succ remLen =>
          cases free with
          | nil =>
              rw [pbufAllocTail, mempMalloc_of_empty hlinked]
              simp only
              have hfreed := pbufFreeFrom_laid 0 hlaid hlinked (by simpa using hnodup) hbound
              rw [hhead] at hfreed
              refine hfreed.bind fun freed hfreed => Returns.ok ⟨hfreed.1, ?_, ?_, ?_⟩
              · intro other hother
                rw [List.append_nil] at hother
                exact hfreed.2.2 other hother
              · intro hless
                rw [pieces_succ] at hless
                exact absurd hless (Nat.not_succ_le_zero _)
              · intro _
                rw [List.append_nil]
                refine ⟨rfl, ?_⟩
                simpa using hfreed.2.1
          | cons q rest =>
              have hnodup' : (front ++ [r, q]).Nodup :=
                hnodup.sublist ((List.Sublist.refl front).append (by simp))
              have hfresh : ∀ other ∈ rest, other ≠ q ∧ other ≠ r := by
                intro other hmem
                have hapart := (List.nodup_append.mp hnodup).2.1
                simp only [List.nodup_cons, List.mem_cons, not_or] at hapart
                constructor
                · rintro rfl
                  exact hapart.2.1 hmem
                · rintro rfl
                  exact hapart.1.2 hmem
              have hlen : min (remLen + 1) pbufPoolBufsizeAligned ≤ remLen + 1 :=
                Nat.min_le_left _ _
              have hpos : 0 < min (remLen + 1) pbufPoolBufsizeAligned := by
                simp [pbufPoolBufsizeAligned]
              have hlonger := @Laid.concat { pool with tab := pool.next q } front lens _ r q _
                (hlaid.congr fun _ _ => rfl) hnodup' hlen
              rw [pbufAllocTail, mempMalloc_of_linked hlinked]
              simp only
              have hrest : Linked ((({ pool with tab := pool.next q } : PbufPool).put r
                  { pool.cells r with next := some q }).put q
                  ⟨none, remLen + 1, min (remLen + 1) pbufPoolBufsizeAligned, 1⟩).next
                  (pool.next q) rest := by
                refine hlinked.2.congr fun other hmem => ?_
                simp only [next, put_cells_of_ne (hfresh other hmem).1,
                  put_cells_of_ne (hfresh other hmem).2]
              have hrec := @ih _ rest (front ++ [r])
                (lens ++ [min (remLen + 1) pbufPoolBufsizeAligned])
                (remLen + 1 - min (remLen + 1) pbufPoolBufsizeAligned) q
                (by simpa using hlonger) (by rw [List.head?_append, hhead]; rfl)
                hrest
                (by simpa using hnodup) (by simp at hroom ⊢; omega) (by simpa using hroom)
                (Nat.lt_of_succ_lt_succ hfuel)
              refine hrec.mono fun allocated hallocated => ⟨hallocated.num, ?_, ?_, ?_⟩
              · intro other hother
                have hne : other ≠ q ∧ other ≠ r := by
                  constructor
                  · rintro rfl
                    exact hother (by simp)
                  · rintro rfl
                    exact hother (by simp)
                rw [hallocated.cells other (by simpa using hother), put_cells_of_ne hne.1,
                  put_cells_of_ne hne.2]
              · intro hle
                rw [pieces_succ, List.length_cons, List.length_cons] at hle
                obtain ⟨hfirst, hall, hleft⟩ := hallocated.enough (Nat.le_of_succ_le_succ hle)
                rw [pieces_succ, List.length_cons, List.take_succ_cons, List.drop_succ_cons]
                exact ⟨by simpa using hfirst, by simpa using hall, hleft⟩
              · intro hless
                rw [pieces_succ, List.length_cons, List.length_cons] at hless
                obtain ⟨hnone, hback⟩ := hallocated.short (Nat.lt_of_succ_lt_succ hless)
                exact ⟨hnone, by simpa using hback⟩

theorem pbufAlloc_supplies (layer : PbufLayer) (length : UInt16)
    (hlinked : Linked pool.next pool.tab free) (hnodup : free.Nodup)
    (hroom : free.length ≤ pool.num) :
    Returns (pool.pbufAlloc layer length)
      (Supplies pool [] free [] (sizes layer length.toNat)) := by
  cases free with
  | nil =>
      rw [pbufAlloc, mempMalloc_of_empty hlinked]
      refine Returns.ok ⟨rfl, fun _ _ => rfl, ?_, ?_⟩
      · intro hless
        exact absurd hless (Nat.not_succ_le_zero _)
      · exact fun _ => ⟨rfl, hlinked⟩
  | cons q rest =>
      rw [pbufAlloc, mempMalloc_of_linked hlinked]
      simp only
      have hfresh : ∀ other ∈ rest, other ≠ q := by
        rintro other hmem rfl
        exact (List.nodup_cons.mp hnodup).1 hmem
      have htail := @pbufAllocTail_supplies ({ pool with tab := pool.next q }.put q
          { next := none, totLen := length.toNat, len := min length.toNat layer.room, ref := 1 })
        rest q [] [min length.toNat layer.room] pool.num
        (length.toNat - min length.toNat layer.room) q
        ⟨by
          rw [put_cells_self]
          simp only [PoolPbuf.mk.injEq, List.head?_nil, List.sum_nil, and_true, true_and]
          omega, trivial⟩ rfl
        (hlinked.2.congr fun other hmem => by simp only [next, put_cells_of_ne (hfresh other hmem)])
        (by simpa using hnodup) (by simp at hroom ⊢; omega) (by simpa using hroom)
        hroom
      refine htail.mono fun allocated hallocated => ⟨hallocated.num, ?_, ?_, ?_⟩
      · intro other hother
        have hne : other ≠ q := by
          rintro rfl
          exact hother (by simp)
        rw [hallocated.cells other (by simpa using hother), put_cells_of_ne hne]
      · intro hle
        rw [sizes, List.length_cons, List.length_cons] at hle
        obtain ⟨hfirst, hall, hleft⟩ := hallocated.enough (Nat.le_of_succ_le_succ hle)
        rw [sizes, List.length_cons, List.take_succ_cons, List.drop_succ_cons]
        exact ⟨by simpa using hfirst, by simpa using hall, hleft⟩
      · intro hless
        rw [sizes, List.length_cons, List.length_cons] at hless
        obtain ⟨hnone, hback⟩ := hallocated.short (Nat.lt_of_succ_lt_succ hless)
        exact ⟨hnone, by simpa using hback⟩

variable {more : List Nat} {allocated : Option Nat × PbufPool}

/-- The new chain is in use, and the one pointer to it is held. -/
theorem Conserved.supplied (hconserved : pool.Conserved free held)
    (hsupplies : Supplies pool [] free [] more allocated) (hsome : more ≠ [])
    (hle : more.length ≤ free.length) :
    allocated.2.Conserved (free.drop more.length) (allocated.1.toList ++ held) := by
  obtain ⟨hfirst, hlaid, hlinked⟩ := hsupplies.enough hle
  rw [List.nil_append] at hfirst hlaid
  have hhead : (free.take more.length).head? = free.head? := by
    rw [List.head?_take, if_neg (by simpa using hsome)]
  have hsplit : free.take more.length ++ free.drop more.length = free :=
    List.take_append_drop _ _
  have hapart : ∀ p ∈ free.take more.length, p ∉ free.drop more.length := by
    have hnodup := hconserved.nodup
    rw [← hsplit, List.nodup_append] at hnodup
    exact fun p hp hdrop => hnodup.2.2 p hp p hdrop rfl
  have hlive : live allocated.2.num (free.drop more.length) =
      live pool.num free ∪ (free.take more.length).toFinset := by
    ext p
    rw [Finset.mem_union, mem_live, mem_live, List.mem_toFinset, hsupplies.num]
    constructor
    · rintro ⟨hlt, hnot⟩
      by_cases htaken : p ∈ free.take more.length
      · exact Or.inr htaken
      · refine Or.inl ⟨hlt, fun hmem => ?_⟩
        rw [← hsplit, List.mem_append] at hmem
        exact hmem.elim htaken hnot
    · rintro (⟨hlt, hnot⟩ | htaken)
      · exact ⟨hlt, fun hdrop => hnot (List.mem_of_mem_drop hdrop)⟩
      · exact ⟨hconserved.bound p (List.mem_of_mem_take htaken), hapart p htaken⟩
  have hsame : ∀ p ∈ live pool.num free, allocated.2.cells p = pool.cells p := fun p hmem =>
    hsupplies.cells p (mem_live.mp hmem).2
  have hnext : ∀ p ∈ live pool.num free, allocated.2.next p = pool.next p := fun p hmem => by
    rw [next, hsame p hmem, next]
  have href : ∀ p ∈ live pool.num free, allocated.2.ref p = pool.ref p := fun p hmem => by
    rw [ref, hsame p hmem, ref]
  have hcounts := hconserved.counts.congr hnext href
  have hfresh : ∀ p ∈ free.take more.length, p ∉ live pool.num free := fun p htaken hmem =>
    (mem_live.mp hmem).2 (List.mem_of_mem_take htaken)
  have hnodup : (free.take more.length).Nodup :=
    hconserved.nodup.sublist (List.take_sublist _ _)
  have hchain := hcounts.chain hlaid.linked hnodup hfresh fun p htaken => hlaid.ref_eq htaken
  have hranked := (hconserved.ranked.mono (Finset.Subset.refl _) hnext).chain hcounts.closed
    hlaid.linked hnodup hfresh
  rw [hfirst, ← hhead]
  refine ⟨hlinked, hconserved.nodup.sublist (List.drop_sublist _ _), ?_, ?_, ?_, ?_⟩
  · intro p hmem
    rw [hsupplies.num]
    exact hconserved.bound p (List.mem_of_mem_drop hmem)
  · rw [hlive]
    exact hchain
  · rw [hlive]
    exact hranked.1
  · rw [hlive]
    intro p hmem
    rcases Finset.mem_union.mp hmem with hold | htaken
    · rw [hsame p hold, hconserved.totals p hold, hnext p hold]
      cases hother : pool.next p with
      | none => rfl
      | some other =>
          have hclosed := hconserved.counts.closed p hold other hother
          simp only [Option.elim_some, hsame other hclosed]
    · exact hlaid.total_eq (List.mem_toFinset.mp htaken)

/-- The pool takes everything back. -/
theorem Conserved.refused (hconserved : pool.Conserved free held)
    (hsupplies : Supplies pool [] free [] more allocated) (hless : free.length < more.length) :
    allocated.2.Conserved free.reverse (allocated.1.toList ++ held) := by
  obtain ⟨hnone, hlinked⟩ := hsupplies.short hless
  rw [hnone]
  exact hconserved.congr (List.reverse_perm free) hlinked hsupplies.num fun p hnot =>
    hsupplies.cells p hnot

theorem Conserved.alloc (hconserved : pool.Conserved free held) (layer : PbufLayer)
    (length : UInt16) :
    Returns (pool.pbufAlloc layer length) fun allocated =>
      allocated.2.num = pool.num ∧
        ∃ free', allocated.2.Conserved free' (allocated.1.toList ++ held) := by
  have hsupplies := pbufAlloc_supplies layer length hconserved.linked hconserved.nodup
    hconserved.length_le
  refine hsupplies.mono fun allocated hallocated => ⟨hallocated.num, ?_⟩
  rcases Nat.lt_or_ge free.length (sizes layer length.toNat).length with hless | hle
  · exact ⟨_, hconserved.refused hallocated hless⟩
  · exact ⟨_, hconserved.supplied hallocated (List.cons_ne_nil _ _) hle⟩

end Supplies

/-- One more pointer is taken. -/
theorem Conserved.share (hconserved : pool.Conserved free held) (hlive : p ∈ live pool.num free)
    (hroom : pool.ref p + 1 < 2 ^ 16) : (pool.pbufRef p).Conserved free (p :: held) := by
  have hcells : ∀ other, (pool.pbufRef p).cells other =
      { pool.cells other with ref := Function.update pool.ref p (pool.ref p + 1) other } := by
    intro other
    by_cases heq : other = p
    · subst heq
      rw [pbufRef, put_cells_self, Function.update_self, Nat.mod_eq_of_lt hroom]
    · rw [pbufRef, put_cells_of_ne heq, Function.update_of_ne heq]
      rfl
  have hnext : ∀ other, (pool.pbufRef p).next other = pool.next other := fun other => by
    rw [next, hcells other, next]
  refine ⟨?_, hconserved.nodup, hconserved.bound, ?_, ?_, ?_⟩
  · exact hconserved.linked.congr fun other _ => hnext other
  · exact (hconserved.counts.share hlive).congr (fun other _ => hnext other) fun other _ => by
      rw [ref, hcells other]
  · exact hconserved.ranked.mono (Finset.Subset.refl _) fun other _ => hnext other
  · intro other hother
    simp only [hcells, hnext]
    exact hconserved.totals other hother

/-! ## The first pool -/

/-- After so many elements the last one is the first of the list. -/
theorem mempCarve_linked (num : Nat) (pool : PbufPool) (hempty : pool.tab = none) :
    ((List.range num).foldl mempCarve pool).num = pool.num ∧
      Linked ((List.range num).foldl mempCarve pool).next
        ((List.range num).foldl mempCarve pool).tab (List.range num).reverse := by
  induction num with
  | zero => exact ⟨rfl, hempty⟩
  | succ num ih =>
      rw [List.range_succ, List.foldl_append, List.reverse_append]
      refine ⟨ih.1, rfl, ?_⟩
      simp only [List.foldl_cons, List.foldl_nil, mempCarve, next, put_cells_self]
      refine ih.2.congr fun other hmem => ?_
      have hne : other ≠ num := by
        rintro rfl
        simp at hmem
      simp only [next, put_cells_of_ne hne]

theorem mempInit_conserved (num : Nat) :
    (mempInit num).Conserved (List.range num).reverse [] := by
  obtain ⟨hnum, hlinked⟩ := mempCarve_linked num ⟨num, none, fun _ => {}⟩ rfl
  have hlive : live (mempInit num).num (List.range num).reverse = ∅ := by
    ext p
    rw [mem_live, mempInit, hnum]
    simp
  refine ⟨hlinked, List.nodup_reverse.mpr List.nodup_range, ?_, ?_, ?_, ?_⟩
  · intro p hmem
    rw [mempInit, hnum]
    simpa using hmem
  · rw [hlive]
    exact ⟨by simp, by simp, by simp, by simp⟩
  · rw [hlive]
    exact ⟨fun _ => 0, by simp⟩
  · rw [hlive]
    simp

end PbufPool

/-! ## Every run -/

namespace PoolSystem

variable {num : Nat} {s s' : PoolSystem} {free : List Nat}

theorem step_conserves (hconserved : s.pool.Conserved free s.held) {action : PoolAction}
    (hlegal : s.Legal action) :
    Returns (s.step action) fun s' =>
      s'.pool.num = s.pool.num ∧ ∃ free', s'.pool.Conserved free' s'.held := by
  cases action with
  | alloc layer length =>
      refine (hconserved.alloc layer length).bind fun allocated hallocated => ?_
      exact Returns.ok hallocated
  | ref p =>
      have hlive := hconserved.counts.live_of_leads hlegal.1
      exact Returns.ok ⟨rfl, free, hconserved.share hlive hlegal.2⟩
  | free p =>
      have hheld : p ∈ s.held := hlegal
      have hfront : s.pool.Conserved free (p :: s.held.erase p) :=
        hconserved.perm (List.perm_cons_erase hheld)
      refine hfront.pbufFree.bind fun freed hfreed => ?_
      exact Returns.ok hfreed

theorem Reachable.conserved (hreachable : Reachable num s) :
    s.pool.num = num ∧ ∃ free, s.pool.Conserved free s.held := by
  induction hreachable with
  | init => exact ⟨(PbufPool.mempCarve_linked num ⟨num, none, fun _ => {}⟩ rfl).1, _,
      PbufPool.mempInit_conserved num⟩
  | step _ hlegal hstep ih =>
      obtain ⟨hnum, free, hconserved⟩ := ih
      obtain ⟨s', hresult, hkept, hconserved'⟩ := step_conserves hconserved hlegal
      rw [hstep] at hresult
      cases hresult
      exact ⟨hkept.trans hnum, hconserved'⟩

end PoolSystem

/-- Whatever the holders of pointers do, as long as each gives up what it has and the counters are
not full: a buffer is in use exactly if a held pointer leads to it, its counter is the number of
pointers to it, its total is the length of what follows, and nothing that may be done next is
a fault. -/
theorem pool_conserves {num : Nat} {s : PoolSystem} (hreachable : PoolSystem.Reachable num s) :
    s.pool.free.Nodup ∧
      (∀ p < num, p ∉ s.pool.free ↔ Leads s.pool.next s.held p) ∧
      (∀ p < num, p ∉ s.pool.free →
        s.pool.ref p =
            s.held.count p + referrers s.pool.next (PbufPool.live num s.pool.free) p ∧
          (s.pool.cells p).totLen = (s.pool.cells p).len +
            (s.pool.next p).elim 0 fun other => (s.pool.cells other).totLen) ∧
      ∀ action, s.Legal action → ∃ s', s.step action = .ok s' := by
  obtain ⟨rfl, free, hconserved⟩ := hreachable.conserved
  rw [hconserved.free_eq]
  refine ⟨hconserved.nodup, ?_, ?_, ?_⟩
  · intro p hlt
    constructor
    · intro hnot
      exact hconserved.counts.leads_of_live hconserved.ranked (PbufPool.mem_live.mpr ⟨hlt, hnot⟩)
    · intro hleads
      exact (PbufPool.mem_live.mp (hconserved.counts.live_of_leads hleads)).2
  · intro p hlt hnot
    have hlive := PbufPool.mem_live.mpr ⟨hlt, hnot⟩
    exact ⟨hconserved.counts.exact p hlive, hconserved.totals p hlive⟩
  · intro action hlegal
    obtain ⟨s', hstep, _⟩ := PoolSystem.step_conserves hconserved hlegal
    exact ⟨s', hstep⟩

/-- Two buffers take a frame of 700 bytes, and no third one is there. -/
theorem pool_conserves_frame :
    ∃ s, (⟨PbufPool.mempInit 2, []⟩ : PoolSystem).step (.alloc .raw 700) = .ok s ∧
      s.held = [1] ∧ s.pool.free = [] ∧
      (∀ p < 2, p ∉ s.pool.free ↔ Leads s.pool.next s.held p) ∧
      ∃ s', s.step (.free 1) = .ok s' := by
  refine ⟨_, rfl, rfl, rfl, ?_⟩
  obtain ⟨_, hused, _, hsafe⟩ := pool_conserves
    (@PoolSystem.Reachable.step 2 _ _ (.alloc .raw 700) .init trivial rfl)
  exact ⟨hused, hsafe (.free 1) (List.mem_singleton_self 1)⟩

/-- An allocation that finds enough free buffers takes the first ones of the list as one chain.
Otherwise it takes none, and the free ones are linked the other way round. No buffer in
use is touched. -/
theorem pool_supplies {num : Nat} {s : PoolSystem} (hreachable : PoolSystem.Reachable num s)
    (layer : PbufLayer) (length : UInt16) :
    ∃ allocated, s.pool.pbufAlloc layer length = .ok allocated ∧
      (∀ p ∉ s.pool.free, allocated.2.cells p = s.pool.cells p) ∧
      ((PbufPool.sizes layer length.toNat).length ≤ s.pool.free.length →
        ∃ p, allocated.1 = some p ∧
          allocated.2.chain p =
            s.pool.free.take (PbufPool.sizes layer length.toNat).length ∧
          (allocated.2.chain p).map (fun q => (allocated.2.cells q).len) =
            PbufPool.sizes layer length.toNat ∧
          (allocated.2.cells p).totLen = length.toNat ∧
          allocated.2.free = s.pool.free.drop (PbufPool.sizes layer length.toNat).length) ∧
      (s.pool.free.length < (PbufPool.sizes layer length.toNat).length →
        allocated.1 = none ∧ allocated.2.free = s.pool.free.reverse) := by
  obtain ⟨_, free, hconserved⟩ := hreachable.conserved
  rw [hconserved.free_eq]
  obtain ⟨allocated, hresult, hsupplies⟩ := PbufPool.pbufAlloc_supplies layer length
    hconserved.linked hconserved.nodup hconserved.length_le
  refine ⟨allocated, hresult, hsupplies.cells, ?_, ?_⟩
  · intro hle
    have hnew := hconserved.supplied hsupplies (List.cons_ne_nil _ _) hle
    obtain ⟨hfirst, hlaid, _⟩ := hsupplies.enough hle
    rw [List.nil_append] at hfirst hlaid
    have hpos : 0 < (PbufPool.sizes layer length.toNat).length := Nat.succ_pos _
    cases hfree : free with
    | nil =>
        rw [hfree] at hle
        exact absurd (hpos.trans_le hle) (Nat.lt_irrefl 0)
    | cons p rest =>
        rw [hfree] at hfirst
        have hhead : (free.take (PbufPool.sizes layer length.toNat).length).head? = some p := by
          rw [List.head?_take, if_neg hpos.ne', hfree, List.head?_cons]
        have hlength : (free.take (PbufPool.sizes layer length.toNat).length).length ≤
            allocated.2.num := by
          rw [hsupplies.num]
          exact (List.length_take_le' _ _).trans hconserved.length_le
        have hchain : allocated.2.chain p =
            free.take (PbufPool.sizes layer length.toNat).length := by
          have hlinked := hlaid.linked
          rw [hhead] at hlinked
          exact PbufPool.walk_of_linked hlinked hlength
        rw [← hfree]
        refine ⟨p, hfirst, hchain, ?_, ?_, hnew.free_eq⟩
        · rw [hchain]
          exact hlaid.lens_eq
        · rw [hlaid.totLen_eq hhead, List.nil_append, PbufPool.sizes_sum, Nat.add_zero]
  · intro hless
    have hold := hconserved.refused hsupplies hless
    exact ⟨(hsupplies.short hless).1, hold.free_eq⟩

/-- A command of 1000 bytes in the pool of the firmware. -/
theorem pool_supplies_command :
    ∃ allocated, (PbufPool.mempInit 12).pbufAlloc .transport 1000 = .ok allocated ∧
      ∃ p, allocated.1 = some p ∧ allocated.2.chain p = [11, 10, 9] ∧
        (allocated.2.chain p).map (fun q => (allocated.2.cells q).len) = [456, 512, 32] ∧
        (allocated.2.cells p).totLen = 1000 ∧
        allocated.2.free = [8, 7, 6, 5, 4, 3, 2, 1, 0] := by
  obtain ⟨allocated, hresult, _, henough, _⟩ :=
    pool_supplies (@PoolSystem.Reachable.init 12) .transport 1000
  have hfree : (PbufPool.mempInit 12).free = [11, 10, 9, 8, 7, 6, 5, 4, 3, 2, 1, 0] := by
    decide +kernel
  have hsizes : PbufPool.sizes .transport (UInt16.toNat 1000) = [456, 512, 32] := by
    decide +kernel
  rw [hfree, hsizes] at henough
  exact ⟨allocated, hresult, henough (by decide)⟩

end RealTimeWs
