import RegistrationCenter.Lib.PriorityMap
import RegistrationCenter.Lib.Runs
import RegistrationCenter.Proofs.Heartbeat.Tables

/-!
# `RegistrationCenter.Proofs.Heartbeat.Refinement`: the two heaps are maps

`TimerMap` and `CountMap` are what the timer and the counter are for: finite maps from ids,
from which an entry of least expiry, or of greatest count, can be taken. `Next` says what
each call does to the map. After any calls the heap stands for its map, with an exact index
and in heap order, and one more call on the heap is one step of the map:
`timer_refines_map`, `counter_refines_map`.
-/

set_option autoImplicit false

namespace RegistrationCenter

open Lib IndexedHeap

variable {β ω : Type}

/-- The entries of a timer, by their ids. -/
abbrev TimerMap (β : Type) := UInt64 → Option (TimerNode β)

/-- The entries of a heartbeat counter, by their ids. -/
abbrev CountMap (β : Type) := UInt64 → Option (HeartBeatCounterNode β)

namespace HeapTimer

/-- What a call does to the map, when the clock shows `now` in the call. -/
def Next (now : Int) (m : TimerMap β) : Call β → TimerMap β → Prop
  | .push id timeout cb, m' =>
      m' = Function.update m id (some { id := id, expires := now + MS timeout.toInt, cb := cb })
  | .adjust id timeout, m' =>
      m' = Function.update m id ((m id).map fun n => { n with expires := now + MS timeout.toInt })
  | .del id, m' => m' = Function.update m id none
  | .pop, m' => PopsLeast m m'
  | .clear, m' => m' = fun _ => none
  | .now, m' => m' = m

/-- Each call keeps the heap valid and is a step of the map. -/
theorem call_next (clk : Nat → Int) {s : HeapTimer β × Nat} (hv : s.1.Valid) (call : Call β) :
    (HeapTimer.call clk s call).1.Valid ∧
      Next (clk s.2) s.1.find call (HeapTimer.call clk s call).1.find := by
  cases call with
  -- One spec lemma for each function.
  | push id timeout cb => exact find_push clk hv s.2 id timeout.toInt cb
  | adjust id timeout => exact find_adjust clk hv s.2 id timeout.toInt
  | del id => exact hv.erase id
  | pop => exact hv.popsLeast
  | clear => exact valid_clear s.1
  | now => exact ⟨hv, rfl⟩

/-- The timer and the readings taken, after some calls on a new timer. -/
def after (clk : Nat → Int) (calls : List (Call β)) : HeapTimer β × Nat :=
  calls.foldl (HeapTimer.call clk) (IndexedHeap.empty, 0)

/-- Calls keep the heap valid. -/
theorem valid_calls (clk : Nat → Int) (calls : List (Call β)) {s : HeapTimer β × Nat}
    (hv : s.1.Valid) : (calls.foldl (HeapTimer.call clk) s).1.Valid := by
  have hkeep : ∀ (s : HeapTimer β × Nat) (call : Call β), s.1.Valid →
      (HeapTimer.call clk s call).1.Valid := fun _ call hs => (call_next clk hs call).1
  exact inv_foldl hkeep calls hv

theorem valid_after (clk : Nat → Int) (calls : List (Call β)) : (after clk calls).1.Valid :=
  valid_calls clk calls valid_empty

/-- The timer refines its map. A new timer stands for the empty map. After any calls, at any
clock readings, the timer stands for a map, and one more call takes it to a timer that stands
for a next map. -/
theorem timer_refines_map (clk : Nat → Int) (calls : List (Call β)) :
    (IndexedHeap.empty : HeapTimer β).Represents (fun _ => none) ∧
      ∃ m : TimerMap β, (after clk calls).1.Represents m ∧
        ∀ call : Call β, ∃ m', Next (clk (after clk calls).2) m call m' ∧
          (after clk (calls ++ [call])).1.Represents m' := by
  have hv := valid_after clk calls
  -- The map of a valid heap is its `find`.
  refine ⟨valid_empty.represents, (after clk calls).1.find, hv.represents, ?_⟩
  intro call
  obtain ⟨hvalid, hnext⟩ := call_next clk hv call
  have hafter : after clk (calls ++ [call]) = HeapTimer.call clk (after clk calls) call :=
    List.foldl_concat ..
  rw [hafter]
  exact ⟨_, hnext, hvalid.represents⟩

end HeapTimer

namespace HeapHeartBeatCounter

/-- What a call does to the map of a counter with the limit `limit`, and to the world of the
callbacks. In the order of the nodes the greatest count is the least. In a tick, `reached` are
the entries whose callbacks run, in that order. -/
def Next (callback : β → UInt64 → ω → ω) (limit : Int) (m : CountMap β) (w : ω) :
    Call β → CountMap β → ω → Prop
  | .push id cb, m', w' =>
      m' = Function.update m id (some { id := id, heartbeatCount := 0, cb := cb }) ∧ w' = w
  | .adjust id count, m', w' =>
      m' = Function.update m id ((m id).map fun n => { n with heartbeatCount := count }) ∧ w' = w
  | .addOne id, m', w' =>
      m' = Function.update m id
        ((m id).map fun n => { n with heartbeatCount := n.heartbeatCount + 1 }) ∧ w' = w
  | .pop, m', w' => PopsLeast m m' ∧ w' = w
  | .clear, m', w' => (m' = fun _ => none) ∧ w' = w
  | .tick, m', w' => ∃ reached : List (HeartBeatCounterNode β), (reached.map (·.id)).Nodup ∧
      (∀ n, n ∈ reached ↔ m n.id = some n ∧ limit ≤ n.heartbeatCount) ∧
      w' = reached.foldl (fun w n => callback n.cb n.id w) w ∧
      m' = fun id => (m id).filter fun n => decide (n.heartbeatCount < limit)

/-- Each call keeps the heap valid and the limit, and is a step of the map. -/
theorem call_next (callback : β → UInt64 → ω → ω) {s : HeapHeartBeatCounter β × ω}
    (hv : s.1.heap.Valid) (call : Call β) :
    let s' := HeapHeartBeatCounter.call callback s call
    s'.1.heap.Valid ∧ s'.1.LIMIT = s.1.LIMIT ∧
      Next callback s.1.LIMIT s.1.heap.find s.2 call s'.1.heap.find s'.2 := by
  cases call with
  | push id cb =>
      obtain ⟨hvalid, hfind⟩ := find_push hv id cb
      exact ⟨hvalid, rfl, hfind, rfl⟩
  | adjust id count =>
      obtain ⟨hvalid, hfind⟩ := find_adjust hv id count
      exact ⟨hvalid, rfl, hfind, rfl⟩
  | addOne id =>
      obtain ⟨hvalid, hfind⟩ := find_addOne hv id
      exact ⟨hvalid, rfl, hfind, rfl⟩
  | pop =>
      obtain ⟨hvalid, hpops⟩ := hv.popsLeast
      exact ⟨hvalid, rfl, hpops, rfl⟩
  | clear =>
      obtain ⟨hvalid, hfind⟩ := valid_clear s.1.heap
      exact ⟨hvalid, rfl, hfind, rfl⟩
  | tick =>
      obtain ⟨hvalid, hlim, reached, hnodup, hw, hmem, hfind⟩ := tick_spec callback hv s.2
      refine ⟨hvalid, hlim, reached, hnodup, hmem, hw, ?_⟩
      funext id
      show (s.1.tick callback s.2).1.heap.find id = _
      rw [hfind id]
      cases hid : s.1.heap.find id with
      | none => rw [ite_self, Option.filter_none]
      | some n =>
          have hnid : n.id = id := (hv.indexed.find_eq_some.mp hid).2
          have hin : id ∈ reached.map (·.id) ↔ s.1.LIMIT ≤ n.heartbeatCount := by
            rw [List.mem_map]
            constructor
            · rintro ⟨n', hn', hid'⟩
              obtain ⟨hfind', hge⟩ := (hmem n').mp hn'
              rw [hid', hid] at hfind'
              rwa [Option.some.inj hfind']
            · intro hge
              exact ⟨n, (hmem n).mpr ⟨by rw [hnid]; exact hid, hge⟩, hnid⟩
          by_cases hlt : n.heartbeatCount < s.1.LIMIT
          · rw [Option.filter_some]
            simp [hin, hlt]
          · rw [Option.filter_some]
            simp [hin, hlt]

/-- The counter and the world, after some calls on a new counter with the limit `limit`. -/
def after (callback : β → UInt64 → ω → ω) (limit : Int) (w : ω) (calls : List (Call β)) :
    HeapHeartBeatCounter β × ω :=
  calls.foldl (HeapHeartBeatCounter.call callback)
    ({ heap := IndexedHeap.empty, LIMIT := limit }, w)

theorem valid_after (callback : β → UInt64 → ω → ω) (limit : Int) (w : ω)
    (calls : List (Call β)) :
    (after callback limit w calls).1.heap.Valid ∧
      (after callback limit w calls).1.LIMIT = limit := by
  have hkeep : ∀ (s : HeapHeartBeatCounter β × ω) (call : Call β),
      s.1.heap.Valid ∧ s.1.LIMIT = limit →
        (HeapHeartBeatCounter.call callback s call).1.heap.Valid ∧
          (HeapHeartBeatCounter.call callback s call).1.LIMIT = limit := by
    intro s call hs
    obtain ⟨hvalid, hlim, -⟩ := call_next callback hs.1 call
    exact ⟨hvalid, hlim.trans hs.2⟩
  exact inv_foldl hkeep calls ⟨valid_empty, rfl⟩

/-- The counter refines its map: a new counter stands for the empty map. After any calls the
counter stands for a map, and one more call takes it to a counter that stands for a next map. -/
theorem counter_refines_map (callback : β → UInt64 → ω → ω) (limit : Int) (w : ω)
    (calls : List (Call β)) :
    (IndexedHeap.empty : IndexedHeap (HeartBeatCounterNode β) UInt64).Represents (fun _ => none) ∧
      ∃ m : CountMap β, (after callback limit w calls).1.heap.Represents m ∧
        ∀ call : Call β, ∃ m',
          Next callback limit m (after callback limit w calls).2 call m'
            (after callback limit w (calls ++ [call])).2 ∧
          (after callback limit w (calls ++ [call])).1.heap.Represents m' := by
  obtain ⟨hv, hlim⟩ := valid_after callback limit w calls
  refine ⟨valid_empty.represents, (after callback limit w calls).1.heap.find, hv.represents, ?_⟩
  intro call
  obtain ⟨hvalid, -, hnext⟩ := call_next callback hv call
  rw [hlim] at hnext
  have hafter : after callback limit w (calls ++ [call])
      = HeapHeartBeatCounter.call callback (after callback limit w calls) call :=
    List.foldl_concat ..
  rw [hafter]
  exact ⟨_, hnext, hvalid.represents⟩

end HeapHeartBeatCounter

end RegistrationCenter
