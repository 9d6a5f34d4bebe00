import Mathlib.Data.Int.Order.Basic
import RegistrationCenter.Lib.CheckedSift

/-!
# `RegistrationCenter.Spec.HeapTimer`: the timeout timer

`src/HeapTimer.h` and `src/HeapTimer.cpp`. The timer is a heap of nodes with the
earliest expiry at the root: `m_heap` is the node list and `m_map` the index of
an `IndexedHeap`, whose sifts do not ask where an access falls. `shiftUp`,
`shiftDown` and `sift` are the same sifts with every access to the vector and
the end of each loop checked; their `swap_node` is that of `CheckedHeap`.

`Clock::now()` is the environment's. A run is given the sequence `clk` of all
readings it will ever take, in nanoseconds, and each function that reads the
clock takes the number `k` of readings taken before it and returns the number
after it. `tick` first collects the callbacks of the expired nodes and then runs
them. A callback may change the timer, so it acts on the whole state: the timer,
the readings taken, and the world `ω` around the timer.
-/

set_option autoImplicit false

namespace RegistrationCenter

open Lib

/-- `MS(n)`: a span of `n` milliseconds in clock ticks. -/
def MS (n : Int) : Int := n * 1000000

/-- `duration_cast<MS>(d).count()`: whole milliseconds, rounded toward zero. -/
def durationCastMS (d : Int) : Int := d.tdiv 1000000

structure TimerNode (β : Type) where
  id : UInt64
  expires : Int
  cb : β

/-- `TimerNode::operator<`. -/
def TimerNode.lt {β : Type} (a b : TimerNode β) : Bool :=
  decide (a.expires < b.expires)

instance {β : Type} : HeapNode (TimerNode β) UInt64 Int where
  id := TimerNode.id
  less := TimerNode.lt
  key := TimerNode.expires
  less_iff a b := by simp [TimerNode.lt]

@[simp] theorem TimerNode.heapNode_id {β : Type} (n : TimerNode β) : HeapNode.id n = n.id := rfl

abbrev HeapTimer (β : Type) := IndexedHeap (TimerNode β) UInt64

namespace HeapTimer

variable {β ω : Type}

/-- `push`: a new node, or a new expiry and callback for a known id. -/
def push (clk : Nat → Int) (t : HeapTimer β) (k : Nat) (id : UInt64) (timeout : Int) (cb : β) :
    HeapTimer β × Nat :=
  (t.pushNode { id := id, expires := clk k + MS timeout, cb := cb }, k + 1)

/-- `adjust`: a new expiry for a known id. An unknown id does not read the clock. -/
def adjust (clk : Nat → Int) (t : HeapTimer β) (k : Nat) (id : UInt64) (timeout : Int) :
    HeapTimer β × Nat :=
  match t.index id with
  | none => (t, k)
  | some _ => (t.modify id fun n => { n with expires := clk k + MS timeout }, k + 1)

/-- `del`. -/
def del (t : HeapTimer β) (id : UInt64) : HeapTimer β := t.erase id

/-- The root is expired: less than one whole millisecond is left at the reading. -/
def expired (n : TimerNode β) (now : Int) : Bool :=
  decide (durationCastMS (n.expires - now) ≤ 0)

/-- The first loop of `tick`: pop the expired nodes and collect their callbacks, with one
clock reading per root looked at. Each round pops a node, so as many rounds of fuel as
the heap has nodes are enough. -/
def popExpired (clk : Nat → Int) : Nat → HeapTimer β → Nat →
    List (β × UInt64) × HeapTimer β × Nat
  | 0, t, k => ([], t, k)
  | fuel + 1, t, k =>
      match t.nodes[0]? with
      | none => ([], t, k)
      | some top =>
          if expired top (clk k) then
            -- `m_heap.front()` is expired: keep its callback and its id, and pop it.
            let (callbacks, t', k') := popExpired clk fuel t.pop (k + 1)
            ((top.cb, top.id) :: callbacks, t', k')
          else ([], t, k + 1)

/-- `tick`: pop the expired nodes, then run the collected callbacks in order. `call cb id`
is what running the callback `cb` on `id` does. -/
def tick (clk : Nat → Int) (call : β → UInt64 → HeapTimer β × Nat × ω → HeapTimer β × Nat × ω)
    (t : HeapTimer β) (k : Nat) (w : ω) : HeapTimer β × Nat × ω :=
  let (callbacks, t', k') := popExpired clk t.nodes.length t k
  callbacks.foldl (fun s c => call c.1 c.2 s) (t', k', w)

/-- `getNextTick`: tick, then the milliseconds until the root expires, or -1 when no node is
left. The count of the duration becomes an `int` before it is compared with 0. -/
def getNextTick (clk : Nat → Int)
    (call : β → UInt64 → HeapTimer β × Nat × ω → HeapTimer β × Nat × ω)
    (t : HeapTimer β) (k : Nat) (w : ω) : Int32 × HeapTimer β × Nat × ω :=
  let (t', k', w') := tick clk call t k w
  match t'.nodes[0]? with
  | none => (-1, t', k', w')
  | some top =>
      let res := Int32.ofInt (durationCastMS (top.expires - clk k'))
      (if res < 0 then 0 else res, t', k' + 1, w')

/-- A call on the timer, or a reading of the clock that somebody takes between two calls. `pop`
and `clear` are those of `IndexedHeap`. -/
inductive Call (β : Type)
  | push (id : UInt64) (timeout : Int32) (cb : β)
  | adjust (id : UInt64) (timeout : Int32)
  | del (id : UInt64)
  | pop
  | clear
  | now

/-- The timer and the readings taken, after a call. -/
def call (clk : Nat → Int) (s : HeapTimer β × Nat) : Call β → HeapTimer β × Nat
  | .push id timeout cb => s.1.push clk s.2 id timeout.toInt cb
  | .adjust id timeout => s.1.adjust clk s.2 id timeout.toInt
  | .del id => (s.1.del id, s.2)
  | .pop => (s.1.pop, s.2)
  | .clear => (s.1.clear, s.2)
  | .now => (s.1, s.2 + 1)

/-- `shift_up`, within this many rounds of its loop. -/
def shiftUp (rounds : Nat) (t : HeapTimer β) (idx : UInt64) :
    Except SiftError (HeapTimer β × UInt64) :=
  CheckedHeap.shiftUp rounds t idx

/-- `shift_down`, within this many rounds of its loop. -/
def shiftDown (rounds : Nat) (t : HeapTimer β) (idx : UInt64) :
    Except SiftError (HeapTimer β × UInt64) :=
  CheckedHeap.shiftDown rounds t idx

/-- `shift_down(shift_up(idx))`, which `push`, `adjust` and `delete_node` call. -/
def sift (rounds : Nat) (t : HeapTimer β) (idx : UInt64) :
    Except SiftError (HeapTimer β × UInt64) := do
  let (t', j) ← t.shiftUp rounds idx
  t'.shiftDown rounds j

end HeapTimer

end RegistrationCenter
