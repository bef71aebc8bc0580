import Mathlib.Data.List.Perm.Subperm
import Mathlib.Data.Nat.Basic
import RealTimeWs.Memory.Heap

/-! # Packet buffers

A packet buffer of lwIP points to the next one of its chain and counts the pointers
to itself. Walks along a chain get as much fuel as there are cells, which is more
than a chain can have; a walk that needs more runs in a circle and is a fault.
-/

namespace RealTimeWs

open Memory

/-- A packet buffer. Its lengths are those of its payload and of its chain. -/
structure Pbuf where
  payload : List UInt8
  ref : Nat
  next : Option Nat
deriving DecidableEq, Repr

/-- `len` of a buffer. -/
def Pbuf.len (pbuf : Pbuf) : Nat := pbuf.payload.length

/-- Copy as much of the data as the buffer holds over the start of its payload. -/
def Pbuf.fill (pbuf : Pbuf) (data : List UInt8) : Pbuf :=
  { pbuf with payload := data.take pbuf.len ++ pbuf.payload.drop data.length }

/-- The memory of the packet buffers. -/
abbrev Pbufs := Heap Pbuf

/-- A chain over the payloads, each of its buffers referenced once. -/
def pbufChain (heap : Pbufs) : List (List UInt8) → Option Nat × Pbufs
  | [] => (none, heap)
  | payload :: rest =>
      let tail := pbufChain heap rest
      let head := tail.2.alloc ⟨payload, 1, tail.1⟩
      (some head.1, head.2)

/-- The pool gives a chain of buffers of these sizes. No sizes stand for an empty pool. -/
def pbufAlloc (heap : Pbufs) (sizes : List Nat) : Option Nat × Pbufs :=
  pbufChain heap (sizes.map (List.replicate · 0))

/-- Copy the data into the buffers of the chain, as far as they reach. -/
def pbufTakeFrom : Nat → Pbufs → Option Nat → List UInt8 → Except Fault Pbufs
  | _, heap, none, _ => .ok heap
  | _, heap, some _, [] => .ok heap
  | 0, _, some _, _ :: _ => .error .endless
  | fuel + 1, heap, some address, byte :: bytes => do
      let pbuf ← heap.read (some address)
      let heap ← heap.write (some address) (pbuf.fill (byte :: bytes))
      pbufTakeFrom fuel heap pbuf.next ((byte :: bytes).drop pbuf.len)

/-- `pbuf_take`: copy the data into a chain. -/
def pbufTake (heap : Pbufs) (pointer : Option Nat) (data : List UInt8) : Except Fault Pbufs :=
  pbufTakeFrom heap.cells.length heap pointer data

/-- `pbuf_ref`: one more pointer leads to the buffer. -/
def pbufRef (heap : Pbufs) : Option Nat → Except Fault Pbufs
  | none => .ok heap
  | some address => do
      let pbuf ← heap.read (some address)
      heap.write (some address) { pbuf with ref := pbuf.ref + 1 }

/-- Drop one reference to the head. Buffers without a reference are released, and with
each of them its reference to the next one is dropped. -/
def pbufFreeFrom : Nat → Pbufs → Option Nat → Except Fault Pbufs
  | _, heap, none => .ok heap
  | 0, _, some _ => .error .endless
  | fuel + 1, heap, some address => do
      let pbuf ← heap.read (some address)
      if pbuf.ref - 1 = 0 then
        let heap ← heap.free (some address)
        pbufFreeFrom fuel heap pbuf.next
      else
        heap.write (some address) { pbuf with ref := pbuf.ref - 1 }

/-- `pbuf_free`: give up a pointer to a chain. -/
def pbufFree (heap : Pbufs) (pointer : Option Nat) : Except Fault Pbufs :=
  pbufFreeFrom heap.cells.length heap pointer

/-! ## Chains -/

/-- The pointer leads through these addresses to the end, and every buffer on the way has
one reference. -/
def Chain (heap : Pbufs) : Option Nat → List Nat → Prop
  | pointer, [] => pointer = none
  | pointer, address :: rest => pointer = some address ∧ address ∉ rest ∧
      ∃ pbuf, heap.lookup address = some pbuf ∧ pbuf.ref = 1 ∧ Chain heap pbuf.next rest

/-- The lengths of the buffers at these addresses. -/
def lengths (heap : Pbufs) (addresses : List Nat) : List Nat :=
  addresses.map fun address => ((heap.lookup address).map Pbuf.len).getD 0

/-- The bytes in the buffers at these addresses. -/
def contents (heap : Pbufs) (addresses : List Nat) : List UInt8 :=
  addresses.flatMap fun address => ((heap.lookup address).map Pbuf.payload).getD []

section Laws

variable {heap heap' : Pbufs} {pointer : Option Nat} {addresses : List Nat}

theorem Pbuf.len_fill (pbuf : Pbuf) (data : List UInt8) : (pbuf.fill data).len = pbuf.len := by
  simp only [fill, len, List.length_append, List.length_take, List.length_drop]
  omega

/-- Data that runs over the end of a buffer goes on at the start of the next ones. -/
theorem fill_append (pbuf : Pbuf) (rest data : List UInt8) :
    (pbuf.fill data).payload ++ ((data.drop pbuf.len).take rest.length ++
        rest.drop (data.drop pbuf.len).length) =
      data.take (pbuf.payload ++ rest).length ++ (pbuf.payload ++ rest).drop data.length := by
  simp only [Pbuf.fill, Pbuf.len, List.length_append, List.length_drop, List.drop_append,
    List.append_assoc]
  rcases Nat.le_total data.length pbuf.payload.length with hfits | hover
  · have hfits' : data.length ≤ pbuf.payload.length + rest.length := by omega
    rw [List.drop_eq_nil_of_le hfits, List.take_nil, List.nil_append,
      List.take_of_length_le hfits, List.take_of_length_le hfits']
  · rw [List.drop_eq_nil_of_le hover, List.nil_append, List.nil_append, List.take_add,
      List.append_assoc]

section Cons

variable {address : Nat} {rest : List Nat} {pbuf : Pbuf}

theorem lengths_cons (hlookup : heap.lookup address = some pbuf) :
    lengths heap (address :: rest) = pbuf.len :: lengths heap rest := by
  simp [lengths, hlookup]

theorem contents_cons (hlookup : heap.lookup address = some pbuf) :
    contents heap (address :: rest) = pbuf.payload ++ contents heap rest := by
  simp [contents, hlookup]

end Cons

theorem lengths_congr (hsame : ∀ address ∈ addresses, heap'.lookup address = heap.lookup address) :
    lengths heap' addresses = lengths heap addresses := by
  apply List.map_congr_left
  intro address hmem
  rw [hsame address hmem]

theorem contents_congr (hsame : ∀ address ∈ addresses, heap'.lookup address = heap.lookup address) :
    contents heap' addresses = contents heap addresses := by
  apply List.flatMap_congr
  intro address hmem
  rw [hsame address hmem]

/-- A chain only depends on its own buffers. -/
theorem Chain.congr (hsame : ∀ address ∈ addresses, heap'.lookup address = heap.lookup address)
    (hchain : Chain heap pointer addresses) : Chain heap' pointer addresses := by
  induction addresses generalizing pointer with
  | nil => exact hchain
  | cons address rest ih =>
      obtain ⟨hpointer, hnot, pbuf, hlookup, href, hrest⟩ := hchain
      refine ⟨hpointer, hnot, pbuf, ?_, href, ?_⟩
      · rw [hsame address List.mem_cons_self, hlookup]
      · exact ih (fun other hmem => hsame other (List.mem_cons_of_mem address hmem)) hrest

theorem Chain.live (hchain : Chain heap pointer addresses) {address : Nat}
    (hmem : address ∈ addresses) : ∃ pbuf, heap.lookup address = some pbuf := by
  induction addresses generalizing pointer with
  | nil => cases hmem
  | cons first rest ih =>
      obtain ⟨_, _, pbuf, hlookup, _, hrest⟩ := hchain
      rcases List.mem_cons.mp hmem with rfl | hmem
      · exact ⟨pbuf, hlookup⟩
      · exact ih hrest hmem

theorem Chain.nodup (hchain : Chain heap pointer addresses) : addresses.Nodup := by
  induction addresses generalizing pointer with
  | nil => exact List.nodup_nil
  | cons first rest ih =>
      obtain ⟨_, hnot, _, _, _, hrest⟩ := hchain
      exact List.nodup_cons.mpr ⟨hnot, ih hrest⟩

/-- The fuel of a walk suffices for every chain. -/
theorem Chain.length_le (hchain : Chain heap pointer addresses) :
    addresses.length ≤ heap.cells.length := by
  have hsubset : addresses ⊆ List.range heap.cells.length := by
    intro address hmem
    obtain ⟨pbuf, hlookup⟩ := hchain.live hmem
    exact List.mem_range.mpr (Heap.lt_of_lookup hlookup)
  have hle := (List.subperm_of_subset hchain.nodup hsubset).length_le
  rwa [List.length_range] at hle

/-! ## Operations on chains -/

theorem Chain.pointer_eq_none_iff (hchain : Chain heap pointer addresses) :
    pointer = none ↔ addresses = [] := by
  cases addresses with
  | nil => exact iff_of_true hchain rfl
  | cons address rest => simp [hchain.1]

/-- What an allocation of a chain has done: it took addresses nobody had used. -/
structure Taken (heap heap' : Pbufs) (addresses : List Nat) : Prop where
  fresh : ∀ address ∈ addresses, heap.lookup address = none
  rest : ∀ address, address ∉ addresses → heap'.lookup address = heap.lookup address

theorem pbufChain_taken (heap : Pbufs) (payloads : List (List UInt8)) :
    ∃ addresses, Chain (pbufChain heap payloads).2 (pbufChain heap payloads).1 addresses ∧
      Taken heap (pbufChain heap payloads).2 addresses ∧
      heap.cells.length ≤ (pbufChain heap payloads).2.cells.length ∧
      lengths (pbufChain heap payloads).2 addresses = payloads.map List.length := by
  induction payloads with
  | nil =>
      exact ⟨[], rfl, ⟨fun _ hmem => (List.not_mem_nil hmem).elim, fun _ _ => rfl⟩, le_rfl, rfl⟩
  | cons payload rest ih =>
      obtain ⟨addresses, hchain, ⟨hfresh, hrest⟩, hle, hlengths⟩ := ih
      simp only [pbufChain]
      generalize pbufChain heap rest = tail at *
      have hsame : ∀ address ∈ addresses,
          (tail.2.alloc ⟨payload, 1, tail.1⟩).2.lookup address = tail.2.lookup address := by
        intro address hmem
        obtain ⟨pbuf, hlookup⟩ := hchain.live hmem
        rw [Heap.lookup_alloc, if_neg (Nat.ne_of_lt (Heap.lt_of_lookup hlookup))]
      have hnot : tail.2.cells.length ∉ addresses := by
        intro hmem
        obtain ⟨pbuf, hlookup⟩ := hchain.live hmem
        exact Nat.lt_irrefl _ (Heap.lt_of_lookup hlookup)
      refine ⟨tail.2.cells.length :: addresses, ?_, ⟨?_, ?_⟩, ?_, ?_⟩
      · refine ⟨rfl, hnot, ⟨payload, 1, tail.1⟩, ?_, rfl, hchain.congr hsame⟩
        rw [Heap.lookup_alloc, if_pos rfl]
      · intro address hmem
        rcases List.mem_cons.mp hmem with rfl | hmem
        · have hempty : heap.cells[tail.2.cells.length]? = none := List.getElem?_eq_none hle
          simp [Heap.lookup, hempty]
        · exact hfresh address hmem
      · intro address hmem
        rw [List.mem_cons, not_or] at hmem
        rw [Heap.lookup_alloc, if_neg hmem.1, hrest address hmem.2]
      · simp only [Heap.alloc, List.length_append, List.length_singleton]
        omega
      · have hhead : (tail.2.alloc ⟨payload, 1, tail.1⟩).2.lookup tail.2.cells.length =
            some ⟨payload, 1, tail.1⟩ := by
          rw [Heap.lookup_alloc, if_pos rfl]
        rw [lengths_cons hhead, lengths_congr hsame, hlengths]
        rfl

/-- Releasing a chain empties exactly its cells. -/
theorem pbufFreeFrom_chain {fuel : Nat} (hfuel : addresses.length ≤ fuel)
    (hchain : Chain heap pointer addresses) :
    Returns (pbufFreeFrom fuel heap pointer) fun heap' => ∀ address,
      heap'.lookup address = if address ∈ addresses then none else heap.lookup address := by
  induction addresses generalizing fuel heap pointer with
  | nil =>
      cases hchain
      cases fuel <;> exact Returns.ok (fun address => by simp)
  | cons first rest ih =>
      obtain ⟨rfl, hnot, pbuf, hlookup, href, hrest⟩ := hchain
      obtain ⟨fuel, rfl⟩ : ∃ more, fuel = more + 1 := ⟨fuel - 1, by simp at hfuel; omega⟩
      have hafter : Chain (heap.put first none) pbuf.next rest := by
        apply hrest.congr
        intro address hmem
        rw [Heap.lookup_put hlookup, if_neg (ne_of_mem_of_not_mem hmem hnot)]
      have hfree := ih (Nat.le_of_succ_le_succ hfuel) hafter
      simp only [pbufFreeFrom, Heap.read_of_lookup hlookup, Heap.free_of_lookup hlookup, href,
        Nat.sub_self, if_true, bind_ok]
      apply hfree.mono
      intro heap' hheap' address
      rw [hheap' address, Heap.lookup_put hlookup]
      by_cases hfirst : address = first <;> simp [hfirst]

theorem pbufFree_chain (hchain : Chain heap pointer addresses) :
    Returns (pbufFree heap pointer) fun heap' => ∀ address,
      heap'.lookup address = if address ∈ addresses then none else heap.lookup address :=
  pbufFreeFrom_chain hchain.length_le hchain

/-- The head of a chain is released on its own when the next buffer was referenced before:
the reference that the head gives up is the one that was added. -/
theorem pbufFree_head {address : Nat} {rest : List Nat} {pbuf : Pbuf}
    (hnot : address ∉ rest) (hlookup : heap.lookup address = some pbuf) (href : pbuf.ref = 1)
    (hrest : Chain heap pbuf.next rest) :
    (pbufRef heap pbuf.next >>= fun heap => pbufFree heap (some address)) =
      .ok (heap.put address none) := by
  have hlength := Heap.lt_of_lookup hlookup
  cases rest with
  | nil =>
      obtain ⟨fuel, hfuel⟩ : ∃ fuel, heap.cells.length = fuel + 1 :=
        ⟨heap.cells.length - 1, by omega⟩
      have hend : ∀ fuel heap, pbufFreeFrom fuel heap none = .ok heap := by
        intro fuel heap
        cases fuel <;> rfl
      have hnext : pbuf.next = none := hrest
      simp only [pbufRef, hnext, bind_ok, pbufFree, hfuel, pbufFreeFrom,
        Heap.read_of_lookup hlookup, Heap.free_of_lookup hlookup, href, Nat.sub_self, if_true, hend]
  | cons second rest =>
      obtain ⟨hnext, _, other, hother, hsingle, _⟩ := hrest
      have hne : address ≠ second := fun heq => hnot (heq ▸ List.mem_cons_self)
      have hlength' := Heap.lt_of_lookup hother
      -- two different addresses are below the number of cells
      obtain ⟨fuel, hfuel⟩ : ∃ fuel, heap.cells.length = fuel + 1 + 1 :=
        ⟨heap.cells.length - 2, by omega⟩
      have hheld : (heap.put second (some { other with ref := other.ref + 1 })).lookup address =
          some pbuf := by
        rw [Heap.lookup_put hother, if_neg hne, hlookup]
      have hshared : ((heap.put second (some { other with ref := other.ref + 1 })).put address
          none).lookup second = some { other with ref := other.ref + 1 } := by
        rw [Heap.lookup_put hheld, if_neg hne.symm, Heap.lookup_put hother, if_pos rfl]
      have hback : { other with ref := other.ref + 1 - 1 } = other := rfl
      have hstays : other.ref + 1 - 1 ≠ 0 := by omega
      simp only [pbufRef, hnext, Heap.read_of_lookup hother, Heap.write_of_lookup hother, bind_ok,
        pbufFree, Heap.length_put, hfuel, pbufFreeFrom, Heap.read_of_lookup hheld,
        Heap.free_of_lookup hheld, href, Nat.sub_self, if_true, Heap.read_of_lookup hshared,
        Heap.write_of_lookup hshared, if_neg hstays]
      rw [Heap.put_comm hne, Heap.put_put, hback, Heap.put_self hother]

/-- Filling a chain keeps its buffers and their lengths. -/
theorem pbufTakeFrom_chain {fuel : Nat} (hfuel : addresses.length ≤ fuel)
    (hchain : Chain heap pointer addresses) (data : List UInt8) :
    Returns (pbufTakeFrom fuel heap pointer data) fun heap' =>
      Chain heap' pointer addresses ∧ lengths heap' addresses = lengths heap addresses ∧
      contents heap' addresses = data.take (contents heap addresses).length ++
        (contents heap addresses).drop data.length ∧
      ∀ address, address ∉ addresses → heap'.lookup address = heap.lookup address := by
  induction addresses generalizing fuel heap pointer data with
  | nil =>
      cases hchain
      cases fuel <;> exact Returns.ok (by simp [Chain, lengths, contents])
  | cons first rest ih =>
      obtain ⟨rfl, hnot, pbuf, hlookup, href, hrest⟩ := hchain
      obtain ⟨fuel, rfl⟩ : ∃ more, fuel = more + 1 := ⟨fuel - 1, by simp at hfuel; omega⟩
      cases data with
      | nil =>
          exact Returns.ok ⟨⟨rfl, hnot, pbuf, hlookup, href, hrest⟩, rfl, by simp, fun _ _ => rfl⟩
      | cons byte bytes =>
          have hothers : ∀ address ∈ rest,
              (heap.put first (some (pbuf.fill (byte :: bytes)))).lookup address =
                heap.lookup address := by
            intro address hmem
            rw [Heap.lookup_put hlookup, if_neg (ne_of_mem_of_not_mem hmem hnot)]
          have htake := ih (Nat.le_of_succ_le_succ hfuel) (hrest.congr hothers)
            ((byte :: bytes).drop pbuf.len)
          rw [lengths_congr hothers, contents_congr hothers] at htake
          simp only [pbufTakeFrom, Heap.read_of_lookup hlookup, Heap.write_of_lookup hlookup,
            bind_ok]
          apply htake.mono
          rintro heap' ⟨hchain, hlengths, hcontents, hothers'⟩
          have hfirst : heap'.lookup first = some (pbuf.fill (byte :: bytes)) := by
            rw [hothers' first hnot, Heap.lookup_put hlookup, if_pos rfl]
          refine ⟨⟨rfl, hnot, _, hfirst, href, hchain⟩, ?_, ?_, ?_⟩
          · rw [lengths_cons hfirst, lengths_cons hlookup, hlengths, Pbuf.len_fill]
          · rw [contents_cons hfirst, contents_cons hlookup, hcontents]
            exact fill_append _ _ _
          · intro address hmem
            rw [List.mem_cons, not_or] at hmem
            rw [hothers' address hmem.2, Heap.lookup_put hlookup, if_neg hmem.1]

theorem pbufTake_chain (hchain : Chain heap pointer addresses) (data : List UInt8) :
    Returns (pbufTake heap pointer data) fun heap' =>
      Chain heap' pointer addresses ∧ lengths heap' addresses = lengths heap addresses ∧
      contents heap' addresses = data.take (contents heap addresses).length ++
        (contents heap addresses).drop data.length ∧
      ∀ address, address ∉ addresses → heap'.lookup address = heap.lookup address :=
  pbufTakeFrom_chain hchain.length_le hchain data

end Laws

end RealTimeWs
