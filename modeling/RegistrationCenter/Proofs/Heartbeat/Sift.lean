import RegistrationCenter.Proofs.Heartbeat.Refinement

/-!
# `RegistrationCenter.Proofs.Heartbeat.Sift`: a sift repairs one re-keyed node

The timer and the counter change the key of a node where it stands and call
`shift_down(shift_up(idx))` then. `sift_repairs` says that this is enough, whichever way the key
was changed: both loops end, no access is outside the vector, and the heap is valid again with the
same nodes. The positions are numbers of 64 bits, and the vector is one that can exist
(`vectorMaxSize`), so that the positions of the children do not wrap around.

`HeapTimer.sift_eq` and `HeapHeartBeatCounter.sift_eq` lead from the checked loops to `resift`,
which the calls of the model use.
-/

set_option autoImplicit false

namespace RegistrationCenter

open Lib CheckedHeap

variable {β : Type}

namespace HeapTimer

theorem sift_eq {t : HeapTimer β} (hsize : t.nodes.length ≤ vectorMaxSize) {idx : UInt64}
    (hidx : idx.toNat < t.nodes.length) :
    ∃ j, ∀ rounds, t.nodes.length ≤ rounds → t.sift rounds idx = .ok (t.resift idx.toNat, j) :=
  CheckedHeap.sift_eq hsize hidx

end HeapTimer

namespace HeapHeartBeatCounter

/-- The sift of the counter is that of its heap. -/
theorem sift_eq_map (rounds : Nat) (c : HeapHeartBeatCounter β) (idx : UInt64) :
    c.sift rounds idx =
      (CheckedHeap.sift rounds c.heap idx).map fun r => ({ c with heap := r.1 }, r.2) := by
  rw [sift, shiftUp, CheckedHeap.sift]
  cases CheckedHeap.shiftUp rounds c.heap idx with
  | error e => rfl
  | ok up =>
      show shiftDown rounds { c with heap := up.1 } up.2 =
        (CheckedHeap.shiftDown rounds up.1 up.2).map _
      rw [shiftDown]
      cases CheckedHeap.shiftDown rounds up.1 up.2 with
      | error e => rfl
      | ok down => rfl

theorem sift_eq {c : HeapHeartBeatCounter β} (hsize : c.heap.nodes.length ≤ vectorMaxSize)
    {idx : UInt64} (hidx : idx.toNat < c.heap.nodes.length) :
    ∃ j, ∀ rounds, c.heap.nodes.length ≤ rounds →
      c.sift rounds idx = .ok ({ c with heap := c.heap.resift idx.toNat }, j) := by
  obtain ⟨j, hsift⟩ := CheckedHeap.sift_eq hsize hidx
  refine ⟨j, fun rounds hrounds => ?_⟩
  rw [sift_eq_map, hsift rounds hrounds]
  rfl

end HeapHeartBeatCounter

/-- In the timer and in the counter, the sift repairs a heap in which one node was re-keyed. It
ends within as many rounds as there are nodes, and it does the same in more. -/
theorem sift_repairs :
    (∀ (t : HeapTimer β) (idx : UInt64), t.Rekeyed idx.toNat → t.nodes.length ≤ vectorMaxSize →
      ∃ t' j, (∀ rounds, t.nodes.length ≤ rounds → t.sift rounds idx = .ok (t', j)) ∧
        t'.Valid ∧ t'.nodes.Perm t.nodes) ∧
    (∀ (c : HeapHeartBeatCounter β) (idx : UInt64), c.heap.Rekeyed idx.toNat →
      c.heap.nodes.length ≤ vectorMaxSize →
      ∃ c' j, (∀ rounds, c.heap.nodes.length ≤ rounds → c.sift rounds idx = .ok (c', j)) ∧
        c'.heap.Valid ∧ c'.heap.nodes.Perm c.heap.nodes ∧ c'.LIMIT = c.LIMIT) := by
  constructor
  · intro t idx hr hsize
    obtain ⟨j, hsift⟩ := HeapTimer.sift_eq hsize hr.faulty.2.2
    obtain ⟨hvalid, hperm⟩ := hr.valid
    exact ⟨t.resift idx.toNat, j, hsift, hvalid, hperm⟩
  · intro c idx hr hsize
    obtain ⟨j, hsift⟩ := HeapHeartBeatCounter.sift_eq hsize hr.faulty.2.2
    obtain ⟨hvalid, hperm⟩ := hr.valid
    exact ⟨{ c with heap := c.heap.resift idx.toNat }, j, hsift, hvalid, hperm, rfl⟩

/-- Two ids, of which the one at the root is put off to after the other one. -/
def putOffTimer : HeapTimer Unit :=
  let t := (HeapTimer.after (fun _ => 0) [.push 1 3 (), .push 2 5 ()]).1
  { t with nodes := t.nodes.set 0 { id := 1, expires := MS 9, cb := () } }

/-- Two ids, of which the one that is not at the root has missed more beats now. -/
def lateCounter : HeapHeartBeatCounter Unit :=
  let c := (HeapHeartBeatCounter.after (fun _ _ w => w) 5 () [.push 1 (), .push 2 ()]).1
  { c with heap := { c.heap with
    nodes := c.heap.nodes.set 1 { id := 2, heartbeatCount := 3, cb := () } } }

theorem sift_repairs_twoNodes :
    (∃ t' j, (∀ rounds, 2 ≤ rounds → putOffTimer.sift rounds 0 = .ok (t', j)) ∧
      t'.Valid ∧ t'.nodes.Perm putOffTimer.nodes) ∧
    ∃ c' j, (∀ rounds, 2 ≤ rounds → lateCounter.sift rounds 1 = .ok (c', j)) ∧
      c'.heap.Valid ∧ c'.heap.nodes.Perm lateCounter.heap.nodes ∧ c'.LIMIT = 5 := by
  constructor
  · exact sift_repairs.1 putOffTimer 0 ⟨_, _, HeapTimer.valid_after .., rfl, rfl⟩ (by decide)
  · exact sift_repairs.2 lateCounter 1
      ⟨_, _, (HeapHeartBeatCounter.valid_after ..).1, rfl, rfl⟩ (by decide)

end RegistrationCenter
