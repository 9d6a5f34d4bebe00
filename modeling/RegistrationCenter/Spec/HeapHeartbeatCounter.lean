import Mathlib.Data.Int.Order.Basic
import RegistrationCenter.Lib.CheckedSift

/-!
# `RegistrationCenter.Spec.HeapHeartbeatCounter`: the heartbeat counts

`src/HeapHeartbeatCounter.h` and `src/HeapHeartbeatCounter.cpp`. The counter is a
heap of nodes with the greatest count at the root: `operator<` of its nodes
compares the other way round. `m_heap` is the node list and `m_map` the index of
an `IndexedHeap`, whose sifts do not ask where an access falls. `shiftUp`,
`shiftDown` and `sift` are the same sifts with every access to the vector and
the end of each loop checked; their `swap_node` is that of `CheckedHeap`.

`tick` runs the callback of the root and then pops the root, in one loop. The
callback may change the counter, so nothing bounds the loop in general:
`tickLoop` takes fuel and answers `none` when the fuel is used up. `tick` is the
loop for callbacks that change only the world `ω` around the counter;
`tickLoop_isSome` shows that it ends.
-/

set_option autoImplicit false

namespace RegistrationCenter

open Lib

structure HeartBeatCounterNode (β : Type) where
  id : UInt64
  heartbeatCount : Int
  cb : β

/-- `HeartBeatCounterNode::operator<`: the greater count goes first. -/
def HeartBeatCounterNode.lt {β : Type} (a b : HeartBeatCounterNode β) : Bool :=
  decide (a.heartbeatCount > b.heartbeatCount)

instance {β : Type} : HeapNode (HeartBeatCounterNode β) UInt64 Int where
  id := HeartBeatCounterNode.id
  less := HeartBeatCounterNode.lt
  key n := -n.heartbeatCount
  less_iff a b := by simp [HeartBeatCounterNode.lt]

@[simp] theorem HeartBeatCounterNode.heapNode_id {β : Type} (n : HeartBeatCounterNode β) :
    HeapNode.id n = n.id := rfl

@[simp] theorem HeartBeatCounterNode.heapNode_key {β : Type} (n : HeartBeatCounterNode β) :
    HeapNode.key n = -n.heartbeatCount := rfl

structure HeapHeartBeatCounter (β : Type) where
  heap : IndexedHeap (HeartBeatCounterNode β) UInt64
  LIMIT : Int

namespace HeapHeartBeatCounter

variable {β ω : Type}

/-- `push`: the id with the count 0 and a new callback. -/
def push (c : HeapHeartBeatCounter β) (id : UInt64) (cb : β) : HeapHeartBeatCounter β :=
  { c with heap := c.heap.pushNode { id := id, heartbeatCount := 0, cb := cb } }

/-- `adjust`: a new count for a known id. -/
def adjust (c : HeapHeartBeatCounter β) (id : UInt64) (count : Int) : HeapHeartBeatCounter β :=
  { c with heap := c.heap.modify id fun n => { n with heartbeatCount := count } }

/-- `addOne`: one more for a known id. -/
def addOne (c : HeapHeartBeatCounter β) (id : UInt64) : HeapHeartBeatCounter β :=
  { c with heap := c.heap.modify id fun n => { n with heartbeatCount := n.heartbeatCount + 1 } }

def pop (c : HeapHeartBeatCounter β) : HeapHeartBeatCounter β :=
  { c with heap := c.heap.pop }

def clear (c : HeapHeartBeatCounter β) : HeapHeartBeatCounter β :=
  { c with heap := c.heap.clear }

/-- The loop of `tick`: while the root has reached `LIMIT`, run its callback and pop the
root. `call cb id` is what running the callback `cb` on `id` does. -/
def tickLoop (call : β → UInt64 → HeapHeartBeatCounter β × ω → HeapHeartBeatCounter β × ω) :
    Nat → HeapHeartBeatCounter β × ω → Option (HeapHeartBeatCounter β × ω)
  | 0, _ => none
  | fuel + 1, (c, w) =>
      match c.heap.nodes[0]? with
      | none => some (c, w)
      | some top =>
          if top.heartbeatCount < c.LIMIT then some (c, w)
          else
            -- The callback runs first, on the heap that still holds the root.
            let (c', w') := call top.cb top.id (c, w)
            tickLoop call fuel (c'.pop, w')

/-- The loop ends when the callbacks leave the counter alone: each round pops a node. -/
theorem tickLoop_isSome (call : β → UInt64 → ω → ω) :
    ∀ (fuel : Nat) (c : HeapHeartBeatCounter β) (w : ω), c.heap.nodes.length < fuel →
      (tickLoop (fun cb id s => (s.1, call cb id s.2)) fuel (c, w)).isSome := by
  intro fuel
  -- The induction is on the fuel; each round leaves one node less.
  induction fuel with
  | zero => intro c w h; exact absurd h (Nat.not_lt_zero _)
  | succ fuel ih =>
      intro c w h
      unfold tickLoop
      split
      · rfl
      · rename_i top htop
        split
        · rfl
        · have hlen := (List.getElem?_eq_some_iff.mp htop).1
          exact ih c.pop _ (by simp only [pop, IndexedHeap.length_pop]; omega)

/-- `tick`, for callbacks that do not touch the counter. -/
def tick (call : β → UInt64 → ω → ω) (c : HeapHeartBeatCounter β) (w : ω) :
    HeapHeartBeatCounter β × ω :=
  (tickLoop (fun cb id s => (s.1, call cb id s.2)) (c.heap.nodes.length + 1) (c, w)).get
    (tickLoop_isSome call _ c w (Nat.lt_succ_self _))

/-- A call on the counter. -/
inductive Call (β : Type)
  | push (id : UInt64) (cb : β)
  | adjust (id : UInt64) (count : Int)
  | addOne (id : UInt64)
  | pop
  | clear
  | tick

/-- The counter and the world of its callbacks, after a call. -/
def call (callback : β → UInt64 → ω → ω) (s : HeapHeartBeatCounter β × ω) :
    Call β → HeapHeartBeatCounter β × ω
  | .push id cb => (s.1.push id cb, s.2)
  | .adjust id count => (s.1.adjust id count, s.2)
  | .addOne id => (s.1.addOne id, s.2)
  | .pop => (s.1.pop, s.2)
  | .clear => (s.1.clear, s.2)
  | .tick => s.1.tick callback s.2

/-- `shift_up`, within this many rounds of its loop. -/
def shiftUp (rounds : Nat) (c : HeapHeartBeatCounter β) (idx : UInt64) :
    Except SiftError (HeapHeartBeatCounter β × UInt64) := do
  let (heap, j) ← CheckedHeap.shiftUp rounds c.heap idx
  return ({ c with heap := heap }, j)

/-- `shift_down`, within this many rounds of its loop. -/
def shiftDown (rounds : Nat) (c : HeapHeartBeatCounter β) (idx : UInt64) :
    Except SiftError (HeapHeartBeatCounter β × UInt64) := do
  let (heap, j) ← CheckedHeap.shiftDown rounds c.heap idx
  return ({ c with heap := heap }, j)

/-- `shift_down(shift_up(idx))`, which `push`, `adjust`, `addOne` and `delete_node` call. -/
def sift (rounds : Nat) (c : HeapHeartBeatCounter β) (idx : UInt64) :
    Except SiftError (HeapHeartBeatCounter β × UInt64) := do
  let (c', j) ← c.shiftUp rounds idx
  c'.shiftDown rounds j

end HeapHeartBeatCounter

end RegistrationCenter
