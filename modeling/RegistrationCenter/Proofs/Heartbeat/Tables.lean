import Mathlib.Data.Int.ConditionallyCompleteOrder
import Mathlib.Tactic.Linarith
import RegistrationCenter.Spec.HeartbeatCounter

/-!
# `RegistrationCenter.Proofs.Heartbeat.Tables`: what each call does to the two heaps

The timer and the counter are read through `find`, the map from ids to nodes
(`Lib.IndexedHeap`). `HeartbeatCounter.Sound` is the invariant: both heaps are
valid and hold the same ids. Each function gets one theorem that says what it
does to the two maps:

* `sound_push`, `sound_reset`: one id is written, all others are kept.
* `tickTimer_spec`: the ids in `expiredIds` are started again at a reading not
  before the one that found them expired, and their counts go up by one.
* `tickCounter_spec`: the ids whose count has reached the limit lose both nodes,
  and the owner's callback runs once for each of them.

`tick_spec` puts the two halves of a tick together, for callers that need not know which
timers expired.
-/

set_option autoImplicit false

namespace RegistrationCenter

open Lib IndexedHeap

variable {β ω : Type}

/-- Taking `a` out of a map and then the keys of `l` is taking the keys of `a :: l` out. -/
theorem ite_mem_update_none {α : Type} (f : UInt64 → Option α) (a : UInt64) (l : List UInt64)
    (id : UInt64) :
    (if id ∈ l then none else Function.update f a none id) =
      if id ∈ a :: l then none else f id := by
  by_cases hid : id = a
  · subst hid
    simp
  · simp only [Function.update_of_ne hid, List.mem_cons, hid, false_or]

/-- A duration is cut to zero milliseconds or less exactly below one millisecond. -/
theorem durationCastMS_nonpos_iff (d : Int) : durationCastMS d ≤ 0 ↔ d < MS 1 := by
  unfold durationCastMS MS
  have hsign : Int.sign 1000000 = 1 := rfl
  rw [Int.tdiv_eq_ediv, hsign]
  split <;> omega

namespace HeapTimer

/-- An expired timer has less than one millisecond left. -/
theorem expired_iff_lt (n : TimerNode β) (now : Int) :
    expired n now = true ↔ n.expires < now + MS 1 := by
  rw [expired, decide_eq_true_iff, durationCastMS_nonpos_iff]
  omega

/-- What the first loop of `tick` does. It takes the nodes `removed` out, in this order, each
one expired at the reading taken at its turn, and it ends because no node is left or because
the root is not expired at the last reading. -/
structure Removed (clk : Nat → Int) (t : HeapTimer β) (k : Nat) (removed : List (TimerNode β))
    (t' : HeapTimer β) (k' : Nat) : Prop where
  valid : t'.Valid
  nodup : (removed.map (·.id)).Nodup
  turn : ∀ j n, removed[j]? = some n → t.find n.id = some n ∧ expired n (clk (k + j)) = true
  sorted : removed.Pairwise fun a b => a.expires ≤ b.expires
  left : ∀ id, t'.find id = if id ∈ removed.map (·.id) then none else t.find id
  ended : (t'.nodes[0]? = none ∧ k' = k + removed.length) ∨
    ∃ top, t'.nodes[0]? = some top ∧ expired top (clk (k + removed.length)) = false ∧
      k' = k + removed.length + 1

theorem Removed.find_of_mem {clk : Nat → Int} {t t' : HeapTimer β} {k k' : Nat}
    {removed : List (TimerNode β)} (hr : Removed clk t k removed t' k') {n : TimerNode β}
    (hn : n ∈ removed) : t.find n.id = some n := by
  obtain ⟨j, hj⟩ := List.getElem?_of_mem hn
  exact (hr.turn j n hj).1

/-- The loop that takes nothing out. -/
theorem Removed.nil {clk : Nat → Int} {t : HeapTimer β} {k k' : Nat} (hv : t.Valid)
    (hended : (t.nodes[0]? = none ∧ k' = k) ∨
      ∃ top, t.nodes[0]? = some top ∧ expired top (clk k) = false ∧ k' = k + 1) :
    Removed clk t k [] t k' where
  valid := hv
  nodup := List.nodup_nil
  turn j n hj := by cases hj
  sorted := List.Pairwise.nil
  left id := by simp
  ended := hended

/-- As many rounds as there are nodes are enough for the loop to end by itself. -/
theorem removed_popExpired (clk : Nat → Int) :
    ∀ (fuel : Nat) (t : HeapTimer β) (k : Nat), t.Valid → t.nodes.length ≤ fuel →
      ∃ removed, (popExpired clk fuel t k).1 = removed.map (fun n => (n.cb, n.id)) ∧
        Removed clk t k removed (popExpired clk fuel t k).2.1 (popExpired clk fuel t k).2.2 := by
  intro fuel
  -- The induction follows the loop; the rest of the loop starts one node and one reading later.
  induction fuel with
  | zero =>
      intro t k hv hlen
      have htop : t.nodes[0]? = none := by
        rw [List.getElem?_eq_none_iff]
        exact hlen
      exact ⟨[], rfl, Removed.nil hv (.inl ⟨htop, rfl⟩)⟩
  | succ fuel ih =>
      intro t k hv hlen
      rw [popExpired]
      cases htop : t.nodes[0]? with
      | none =>
          exact ⟨[], rfl, Removed.nil hv (.inl ⟨htop, rfl⟩)⟩
      | some top =>
          obtain ⟨hvpop, hpop⟩ := hv.pop htop
          obtain ⟨hroot, hleast⟩ := hv.find_root htop
          simp only [TimerNode.heapNode_id] at hpop hroot
          by_cases hexp : expired top (clk k) = true
          · simp only [hexp, if_true]
            have hlenpop : t.pop.nodes.length ≤ fuel := by rw [length_pop]; omega
            obtain ⟨removed, hcbs, hr⟩ := ih t.pop (k + 1) hvpop hlenpop
            generalize popExpired clk fuel t.pop (k + 1) = r at hcbs hr
            obtain ⟨cbs, t', k'⟩ := r
            simp only at hcbs hr ⊢
            -- The popped root is gone from the rest of the loop, and no later node is before it.
            have hne : ∀ n ∈ removed, n.id ≠ top.id := by
              intro n hn heq
              have hfind := hr.find_of_mem hn
              rw [hpop, heq, Function.update_self] at hfind
              cases hfind
            have hfind : ∀ n : TimerNode β, n.id ≠ top.id → t.pop.find n.id = t.find n.id := by
              intro n hn
              rw [hpop, Function.update_of_ne hn]
            refine ⟨top :: removed, by rw [hcbs, List.map_cons], hr.valid, ?_, ?_, ?_, ?_, ?_⟩
            · rw [List.map_cons, List.nodup_cons]
              refine ⟨fun hmem => ?_, hr.nodup⟩
              obtain ⟨n, hn, heq⟩ := List.mem_map.mp hmem
              exact hne n hn heq
            · intro j n hj
              cases j with
              | zero =>
                  obtain rfl := Option.some.inj hj
                  exact ⟨hroot, hexp⟩
              | succ j =>
                  obtain ⟨hn, hx⟩ := hr.turn j n hj
                  rw [hfind n (hne n (List.mem_of_getElem? hj))] at hn
                  rw [Nat.add_assoc, Nat.add_comm 1 j] at hx
                  exact ⟨hn, hx⟩
            · refine List.pairwise_cons.mpr ⟨fun n hn => ?_, hr.sorted⟩
              have hn' := hr.find_of_mem hn
              rw [hfind n (hne n hn)] at hn'
              exact hleast n.id n hn'
            · intro id
              rw [hr.left id, hpop, List.map_cons, ite_mem_update_none]
            · rw [List.length_cons, ← Nat.add_assoc, Nat.add_right_comm]
              exact hr.ended
          · simp only [hexp, Bool.false_eq_true, if_false]
            have hnot : expired top (clk k) = false := Bool.eq_false_of_not_eq_true hexp
            exact ⟨[], rfl, Removed.nil hv (.inr ⟨top, htop, hnot, rfl⟩)⟩

/-- What popping the expired roots does: every popped id was expired at a reading of this
call, and the other ids are kept. -/
structure Popped (clk : Nat → Int) (t : HeapTimer β) (k : Nat) (cbs : List (β × UInt64))
    (t' : HeapTimer β) (k' : Nat) : Prop where
  valid : t'.Valid
  nodup : (cbs.map Prod.snd).Nodup
  fired : ∀ c ∈ cbs, ∃ n j, t.find c.2 = some n ∧ n.cb = c.1 ∧ k ≤ j ∧ j < k' ∧
    expired n (clk j) = true
  left : ∀ id, t'.find id = if id ∈ cbs.map Prod.snd then none else t.find id
  reads : k ≤ k'

theorem popped_popExpired (clk : Nat → Int) {t : HeapTimer β} (k : Nat) (hv : t.Valid) :
    Popped clk t k (popExpired clk t.nodes.length t k).1 (popExpired clk t.nodes.length t k).2.1
      (popExpired clk t.nodes.length t k).2.2 := by
  obtain ⟨removed, hcbs, hr⟩ := removed_popExpired clk t.nodes.length t k hv (Nat.le_refl _)
  generalize popExpired clk t.nodes.length t k = r at hcbs hr
  obtain ⟨cbs, t', k'⟩ := r
  simp only at hcbs hr ⊢
  subst hcbs
  have hids : (removed.map fun n => (n.cb, n.id)).map Prod.snd = removed.map (·.id) := by
    rw [List.map_map]
    rfl
  have hreads : k + removed.length ≤ k' := by
    rcases hr.ended with ⟨_, hk⟩ | ⟨_, _, _, hk⟩ <;> omega
  refine ⟨hr.valid, by rw [hids]; exact hr.nodup, ?_, by rw [hids]; exact hr.left, by omega⟩
  intro c hc
  obtain ⟨n, hn, rfl⟩ := List.mem_map.mp hc
  obtain ⟨j, hj⟩ := List.getElem?_of_mem hn
  obtain ⟨hfind, hexp⟩ := hr.turn j n hj
  have hlt := (List.getElem?_eq_some_iff.mp hj).1
  exact ⟨n, k + j, hfind, rfl, by omega, by omega, hexp⟩

theorem find_push (clk : Nat → Int) {t : HeapTimer β} (hv : t.Valid) (k : Nat) (id : UInt64)
    (timeout : Int) (cb : β) :
    (t.push clk k id timeout cb).1.Valid ∧
      (t.push clk k id timeout cb).1.find = Function.update t.find id
        (some { id := id, expires := clk k + MS timeout, cb := cb }) :=
  hv.pushNode _

theorem find_adjust (clk : Nat → Int) {t : HeapTimer β} (hv : t.Valid) (k : Nat) (id : UInt64)
    (timeout : Int) :
    (t.adjust clk k id timeout).1.Valid ∧
      (t.adjust clk k id timeout).1.find = Function.update t.find id
        ((t.find id).map fun n => { n with expires := clk k + MS timeout }) := by
  have hmod := hv.modify (d := id) (f := fun n => { n with expires := clk k + MS timeout })
    (fun _ => rfl)
  unfold adjust
  cases hidx : t.index id with
  | none =>
      have hfind : t.find id = none := by simp [find, hidx]
      refine ⟨hv, ?_⟩
      show t.find = _
      rw [hfind, Option.map_none, ← hfind, Function.update_eq_self]
  | some i => exact hmod

end HeapTimer

namespace HeapHeartBeatCounter

theorem find_push {c : HeapHeartBeatCounter β} (hv : c.heap.Valid) (id : UInt64) (cb : β) :
    (c.push id cb).heap.Valid ∧
      (c.push id cb).heap.find = Function.update c.heap.find id
        (some { id := id, heartbeatCount := 0, cb := cb }) :=
  hv.pushNode _

theorem find_adjust {c : HeapHeartBeatCounter β} (hv : c.heap.Valid) (id : UInt64) (count : Int) :
    (c.adjust id count).heap.Valid ∧
      (c.adjust id count).heap.find = Function.update c.heap.find id
        ((c.heap.find id).map fun n => { n with heartbeatCount := count }) :=
  hv.modify fun _ => rfl

theorem find_addOne {c : HeapHeartBeatCounter β} (hv : c.heap.Valid) (id : UInt64) :
    (c.addOne id).heap.Valid ∧
      (c.addOne id).heap.find = Function.update c.heap.find id
        ((c.heap.find id).map fun n => { n with heartbeatCount := n.heartbeatCount + 1 }) :=
  hv.modify fun _ => rfl

/-- The loop of `tick`, for callbacks that leave the counter alone, with the fuel left. The ids
whose count has reached the limit, and no others, are taken out, and their callbacks run in
some order, once each. The root has the greatest count, so a root below the limit shows that
no such id is left. -/
theorem tickLoop_spec (callback : β → UInt64 → ω → ω) :
    ∀ (fuel : Nat) (c : HeapHeartBeatCounter β) (w : ω) (c' : HeapHeartBeatCounter β) (w' : ω),
      c.heap.Valid →
      tickLoop (fun cb id s => (s.1, callback cb id s.2)) fuel (c, w) = some (c', w') →
      c'.heap.Valid ∧ c'.LIMIT = c.LIMIT ∧ ∃ reached : List (HeartBeatCounterNode β),
        (reached.map (·.id)).Nodup ∧
        w' = reached.foldl (fun w n => callback n.cb n.id w) w ∧
        (∀ n, n ∈ reached ↔ c.heap.find n.id = some n ∧ c.LIMIT ≤ n.heartbeatCount) ∧
        (∀ id, c'.heap.find id = if id ∈ reached.map (·.id) then none else c.heap.find id) := by
  intro fuel
  -- The induction is on the fuel, which `hrun` says is enough.
  induction fuel with
  | zero => intro c w c' w' _ hrun; cases hrun
  | succ fuel ih =>
      intro c w c' w' hv hrun
      rw [tickLoop] at hrun
      cases htop : c.heap.nodes[0]? with
      | none =>
          rw [htop] at hrun
          cases hrun
          refine ⟨hv, rfl, [], List.nodup_nil, rfl, fun n => ?_, by simp⟩
          simp [hv.find_none_of_root_none htop n.id]
      | some top =>
          rw [htop] at hrun
          obtain ⟨hroot, hmax⟩ := hv.find_root htop
          simp only [HeartBeatCounterNode.heapNode_id, HeartBeatCounterNode.heapNode_key,
            neg_le_neg_iff] at hroot hmax
          -- A root below the limit ends the loop: every other count is at most the one of the
          -- root.
          by_cases hlt : top.heartbeatCount < c.LIMIT
          · simp only [hlt, if_true, Option.some.injEq] at hrun
            cases hrun
            refine ⟨hv, rfl, [], List.nodup_nil, rfl, fun n => ?_, by simp⟩
            simp only [List.not_mem_nil, false_iff, not_and, not_le]
            intro hn
            exact lt_of_le_of_lt (hmax n.id n hn) hlt
          · simp only [hlt, if_false] at hrun
            obtain ⟨hvpop, hpop⟩ := hv.pop htop
            rw [HeartBeatCounterNode.heapNode_id] at hpop
            obtain ⟨hv', hlim, reached, hnodup, hw, hmem, hc⟩ :=
              ih c.pop (callback top.cb top.id w) c' w' hvpop hrun
            have hpopfind : c.pop.heap.find = Function.update c.heap.find top.id none := hpop
            -- The popped id is not in the rest of the loop.
            have hne : ∀ n ∈ reached, n.id ≠ top.id := by
              intro n hn hid
              have hfind := ((hmem n).mp hn).1
              rw [hpopfind, hid, Function.update_self] at hfind
              cases hfind
            have hnot : top.id ∉ reached.map (·.id) := by
              intro hin
              obtain ⟨n, hn, hid⟩ := List.mem_map.mp hin
              exact hne n hn hid
            refine ⟨hv', hlim, top :: reached, List.nodup_cons.mpr ⟨hnot, hnodup⟩, hw,
              fun n => ?_, fun id => ?_⟩
            · rw [List.mem_cons, hmem, hpopfind]
              by_cases hid : n.id = top.id
              · rw [hid, Function.update_self, hroot]
                constructor
                · rintro (rfl | ⟨habs, _⟩)
                  · exact ⟨rfl, not_lt.mp hlt⟩
                  · cases habs
                · rintro ⟨heq, _⟩
                  exact .inl (Option.some.inj heq).symm
              · rw [Function.update_of_ne hid]
                exact ⟨fun h => h.resolve_left fun heq => hid (by rw [heq]), Or.inr⟩
            · rw [hc id, hpopfind, List.map_cons, ite_mem_update_none]

/-- `tick`, for callbacks that leave the counter alone. -/
theorem tick_spec (callback : β → UInt64 → ω → ω) {c : HeapHeartBeatCounter β}
    (hv : c.heap.Valid) (w : ω) :
    (c.tick callback w).1.heap.Valid ∧ (c.tick callback w).1.LIMIT = c.LIMIT ∧
      ∃ reached : List (HeartBeatCounterNode β), (reached.map (·.id)).Nodup ∧
        (c.tick callback w).2 = reached.foldl (fun w n => callback n.cb n.id w) w ∧
        (∀ n, n ∈ reached ↔ c.heap.find n.id = some n ∧ c.LIMIT ≤ n.heartbeatCount) ∧
        (∀ id, (c.tick callback w).1.heap.find id =
          if id ∈ reached.map (·.id) then none else c.heap.find id) := by
  have hrun : tickLoop (fun cb id s => (s.1, callback cb id s.2)) (c.heap.nodes.length + 1) (c, w)
      = some (c.tick callback w) := by
    rw [tick, Option.some_get]
  exact tickLoop_spec callback _ c w _ _ hv hrun

end HeapHeartBeatCounter

namespace HeartbeatCounter

/-- Both heaps are valid and hold the same ids. -/
structure Sound (h : HeartbeatCounter) : Prop where
  timer : h.m_timer.Valid
  counter : h.m_counter.heap.Valid
  same : ∀ id, (h.m_timer.find id).isSome = (h.m_counter.heap.find id).isSome

theorem sound_init (timeout max_heartbeat : Int) : (init timeout max_heartbeat).Sound :=
  ⟨valid_empty, valid_empty, fun _ => rfl⟩

theorem sound_push (clk : Nat → Int) {h : HeartbeatCounter} (hs : h.Sound) (id : UInt64) :
    (h.push clk id).Sound ∧
      (h.push clk id).m_timer.find = Function.update h.m_timer.find id
        (some { id := id, expires := clk h.reads + MS h.m_timeout, cb := .timeoutFunc }) ∧
      (h.push clk id).m_counter.heap.find = Function.update h.m_counter.heap.find id
        (some { id := id, heartbeatCount := 0, cb := .heartbeatReach }) := by
  obtain ⟨hvt, hft⟩ := HeapTimer.find_push clk hs.timer h.reads id h.m_timeout .timeoutFunc
  obtain ⟨hvc, hfc⟩ := HeapHeartBeatCounter.find_push hs.counter id .heartbeatReach
  refine ⟨⟨hvt, hvc, fun d => ?_⟩, hft, hfc⟩
  show ((h.m_timer.push clk h.reads id h.m_timeout .timeoutFunc).1.find d).isSome
    = ((h.m_counter.push id .heartbeatReach).heap.find d).isSome
  rw [hft, hfc]
  by_cases hd : d = id
  · subst hd; simp
  · rw [Function.update_of_ne hd, Function.update_of_ne hd]; exact hs.same d

theorem sound_reset (clk : Nat → Int) {h : HeartbeatCounter} (hs : h.Sound) (id : UInt64) :
    (h.reset clk id).Sound ∧
      (h.reset clk id).m_timer.find = Function.update h.m_timer.find id
        ((h.m_timer.find id).map fun n =>
          { n with expires := clk h.reads + MS h.m_timeout }) ∧
      (h.reset clk id).m_counter.heap.find = Function.update h.m_counter.heap.find id
        ((h.m_counter.heap.find id).map fun n => { n with heartbeatCount := 0 }) := by
  obtain ⟨hvt, hft⟩ := HeapTimer.find_adjust clk hs.timer h.reads id h.m_timeout
  obtain ⟨hvc, hfc⟩ := HeapHeartBeatCounter.find_adjust hs.counter id 0
  refine ⟨⟨hvt, hvc, fun d => ?_⟩, hft, hfc⟩
  show ((h.m_timer.adjust clk h.reads id h.m_timeout).1.find d).isSome
    = ((h.m_counter.adjust id 0).heap.find d).isSome
  rw [hft, hfc]
  by_cases hd : d = id
  · subst hd; simpa using hs.same d
  · rw [Function.update_of_ne hd, Function.update_of_ne hd]; exact hs.same d

/-- A reset of an id without a timer changes nothing, not even the readings taken. -/
theorem reset_of_find_none (clk : Nat → Int) {h : HeartbeatCounter} (hs : h.Sound) {id : UInt64}
    (hid : h.m_timer.find id = none) : h.reset clk id = h := by
  have hcid : h.m_counter.heap.find id = none := by
    have := hs.same id
    rw [hid] at this
    simpa using this.symm
  have hidx : h.m_timer.index id = none := by
    have := hs.timer.indexed.index_isSome id
    rw [hid] at this
    simpa using this
  simp [reset, HeapTimer.adjust, hidx, HeapHeartBeatCounter.adjust,
    modify_of_find_none hs.counter hcid]

/-! ### The timer half of a tick -/

/-- The ids whose timers expire in the next tick, in the order they are popped. -/
def expiredIds (clk : Nat → Int) (h : HeartbeatCounter) : List UInt64 :=
  (HeapTimer.popExpired clk h.m_timer.nodes.length h.m_timer h.reads).1.map Prod.snd

/-- The second loop of the timer tick. Every id of the list was popped before, so each
callback inserts a new node, and the nodes of different callbacks do not meet. -/
theorem foldl_timeoutFunc (clk : Nat → Int) (timeout : Int) :
    ∀ (cbs : List (TimeoutCallback × UInt64)) (t : HeapTimer TimeoutCallback) (k : Nat)
      (c : HeapHeartBeatCounter CountCallback), (cbs.map Prod.snd).Nodup → t.Valid →
      c.heap.Valid →
      ∃ t' k' c', cbs.foldl (fun s c => timeoutFunc clk timeout c.2 s) (t, k, c) = (t', k', c') ∧
        t'.Valid ∧ c'.heap.Valid ∧ c'.LIMIT = c.LIMIT ∧ k ≤ k' ∧
        (∀ id ∈ cbs.map Prod.snd, ∃ j, k ≤ j ∧ j < k' ∧
          t'.find id = some { id := id, expires := clk j + MS timeout, cb := .timeoutFunc }) ∧
        (∀ id, id ∉ cbs.map Prod.snd → t'.find id = t.find id) ∧
        (∀ id, c'.heap.find id = if id ∈ cbs.map Prod.snd then
          (c.heap.find id).map fun n => { n with heartbeatCount := n.heartbeatCount + 1 }
          else c.heap.find id) := by
  intro cbs
  -- The induction is on the callbacks left; each starts one timer again and takes one reading.
  induction cbs with
  | nil =>
      intro t k c _ hvt hvc
      exact ⟨t, k, c, rfl, hvt, hvc, rfl, Nat.le_refl k, by simp, by simp, by simp⟩
  | cons cb cbs ih =>
      intro t k c hnodup hvt hvc
      obtain ⟨hhead, htail⟩ := List.nodup_cons.mp hnodup
      obtain ⟨hvt₁, hft₁⟩ := HeapTimer.find_push clk hvt k cb.2 timeout .timeoutFunc
      obtain ⟨hvc₁, hfc₁⟩ := HeapHeartBeatCounter.find_addOne hvc cb.2
      obtain ⟨t', k', c', hrun, hvt', hvc', hlim, hk, hin, hout, hcount⟩ :=
        ih _ (k + 1) _ htail hvt₁ hvc₁
      refine ⟨t', k', c', hrun, hvt', hvc', hlim, by omega, ?_, ?_, ?_⟩
      · intro id hid
        rcases List.mem_cons.mp hid with heq | hid
        · refine ⟨k, Nat.le_refl k, by omega, ?_⟩
          subst heq
          -- No later callback is for the same id, so the new node stays.
          rw [hout cb.2 hhead, hft₁, Function.update_self]
        · obtain ⟨j, hkj, hjk, hfind⟩ := hin id hid
          exact ⟨j, by omega, hjk, hfind⟩
      · intro id hid
        obtain ⟨hne, hid⟩ := not_or.mp (fun h => hid (List.mem_cons.mpr h))
        rw [hout id hid, hft₁, Function.update_of_ne hne]
      · intro id
        rw [hcount id, hfc₁]
        by_cases hid : id = cb.2
        · subst hid
          simp [hhead]
        · simp only [Function.update_of_ne hid, List.map_cons, List.mem_cons, hid, false_or]

/-- The timer half of a tick: the expired ids are started again and counted once more. -/
theorem tickTimer_spec (clk : Nat → Int) {h : HeartbeatCounter} (hs : h.Sound) :
    (h.tickTimer clk).Sound ∧
      (h.tickTimer clk).m_counter.LIMIT = h.m_counter.LIMIT ∧
      (h.tickTimer clk).m_timeout = h.m_timeout ∧
      h.reads ≤ (h.tickTimer clk).reads ∧
      (h.expiredIds clk).Nodup ∧
      (∀ id ∈ h.expiredIds clk, ∃ n i j, h.m_timer.find id = some n ∧ i ≤ j ∧
        j < (h.tickTimer clk).reads ∧ HeapTimer.expired n (clk i) = true ∧
        (h.tickTimer clk).m_timer.find id
          = some { id := id, expires := clk j + MS h.m_timeout, cb := .timeoutFunc }) ∧
      (∀ id, id ∉ h.expiredIds clk →
        (h.tickTimer clk).m_timer.find id = h.m_timer.find id) ∧
      (∀ id, (h.tickTimer clk).m_counter.heap.find id = if id ∈ h.expiredIds clk then
        (h.m_counter.heap.find id).map fun n =>
          { n with heartbeatCount := n.heartbeatCount + 1 }
        else h.m_counter.heap.find id) := by
  have hpop := HeapTimer.popped_popExpired clk h.reads hs.timer
  unfold expiredIds tickTimer HeapTimer.tick
  generalize HeapTimer.popExpired clk h.m_timer.nodes.length h.m_timer h.reads = r at hpop
  obtain ⟨cbs, t₁, k₁⟩ := r
  simp only at hpop ⊢
  obtain ⟨t', k', c', hrun, hvt, hvc, hlim, hk, hin, hout, hcount⟩ :=
    foldl_timeoutFunc clk h.m_timeout cbs t₁ k₁ h.m_counter hpop.nodup hpop.valid hs.counter
  rw [hrun]
  have hreads := hpop.reads
  -- A started timer belongs to an id that the first loop found expired.
  have hexp : ∀ id ∈ cbs.map Prod.snd, ∃ n i j, h.m_timer.find id = some n ∧ i ≤ j ∧ j < k' ∧
      HeapTimer.expired n (clk i) = true ∧ t'.find id
        = some { id := id, expires := clk j + MS h.m_timeout, cb := .timeoutFunc } := by
    intro id hid
    obtain ⟨c, hc, rfl⟩ := List.mem_map.mp hid
    obtain ⟨n, i, hn, _, _, hik, hx⟩ := hpop.fired c hc
    obtain ⟨j, hkj, hjk, hfind⟩ := hin c.2 hid
    exact ⟨n, i, j, hn, by omega, hjk, hx, hfind⟩
  have hkeep : ∀ id, id ∉ cbs.map Prod.snd → t'.find id = h.m_timer.find id := by
    intro id hid
    rw [hout id hid, hpop.left id, if_neg hid]
  refine ⟨⟨hvt, hvc, fun id => ?_⟩, hlim, trivial, by show h.reads ≤ k'; omega,
    hpop.nodup, hexp, hkeep, hcount⟩
  show (t'.find id).isSome = (c'.heap.find id).isSome
  rw [hcount id]
  by_cases hid : id ∈ cbs.map Prod.snd
  · obtain ⟨n, i, j, hn, _, _, _, hfind⟩ := hexp id hid
    have hsame := hs.same id
    rw [hn] at hsame
    simp [hfind, hid, ← hsame]
  · rw [hkeep id hid, if_neg hid]
    exact hs.same id

/-! ### The counter half of a tick -/

/-- The callbacks of the counter tick, run for the ids of a list: each takes its id out of the
timer, and the owner's callback runs in the order of the list. -/
theorem foldl_heartbeatReach (onReach : UInt64 → ω → ω) :
    ∀ (ids : List UInt64) (t : HeapTimer TimeoutCallback) (w : ω), t.Valid →
      ∃ t', ids.foldl (fun s id => heartbeatReach onReach id s) (t, w)
          = (t', ids.foldl (fun w id => onReach id w) w) ∧ t'.Valid ∧
        ∀ id, t'.find id = if id ∈ ids then none else t.find id := by
  intro ids
  induction ids with
  | nil => intro t w hv; exact ⟨t, rfl, hv, fun id => by simp⟩
  | cons d ids ih =>
      intro t w hv
      obtain ⟨hvdel, hdel⟩ := hv.erase d
      obtain ⟨t', hrun, hv', hfind⟩ := ih (t.del d) (onReach d w) hvdel
      have hdelfind : (t.del d).find = Function.update t.find d none := hdel
      refine ⟨t', hrun, hv', fun id => ?_⟩
      rw [hfind id, hdelfind, ite_mem_update_none]

/-- The counter half of a tick: the ids at the limit lose their timer and their count, and
the owner's callback runs once for each of them. -/
theorem tickCounter_spec (onReach : UInt64 → ω → ω) {h : HeartbeatCounter} (hs : h.Sound)
    (w : ω) :
    (h.tickCounter onReach w).1.Sound ∧
      (h.tickCounter onReach w).1.m_counter.LIMIT = h.m_counter.LIMIT ∧
      (h.tickCounter onReach w).1.m_timeout = h.m_timeout ∧
      (h.tickCounter onReach w).1.reads = h.reads ∧ ∃ reached : List UInt64,
        reached.Nodup ∧
        (h.tickCounter onReach w).2 = reached.foldl (fun w id => onReach id w) w ∧
        (∀ id, id ∈ reached ↔ ∃ n, h.m_counter.heap.find id = some n ∧
          h.m_counter.LIMIT ≤ n.heartbeatCount) ∧
        (∀ id, (h.tickCounter onReach w).1.m_counter.heap.find id =
          if id ∈ reached then none else h.m_counter.heap.find id) ∧
        (∀ id, (h.tickCounter onReach w).1.m_timer.find id =
          if id ∈ reached then none else h.m_timer.find id) := by
  obtain ⟨hvc, hlim, reached, hnodup, hrun, hmem, hc⟩ :=
    HeapHeartBeatCounter.tick_spec (fun (_ : CountCallback) => heartbeatReach onReach) hs.counter
      (h.m_timer, w)
  have hrun' : (h.m_counter.tick (fun (_ : CountCallback) => heartbeatReach onReach)
      (h.m_timer, w)).2 = (reached.map (·.id)).foldl (fun s id => heartbeatReach onReach id s)
        (h.m_timer, w) := by
    rw [hrun, List.foldl_map]
  obtain ⟨t', hfold, hvt, ht⟩ :=
    foldl_heartbeatReach onReach (reached.map (·.id)) h.m_timer w hs.timer
  rw [hfold] at hrun'
  -- The tick of the counter, with its callbacks named by their type.
  generalize htick : h.m_counter.tick (fun (_ : CountCallback) => heartbeatReach onReach)
    (h.m_timer, w) = r at hvc hlim hc hrun'
  obtain ⟨c', s'⟩ := r
  simp only at hvc hlim hc hrun'
  subst hrun'
  have htickCounter : h.tickCounter onReach w = ({ h with m_timer := t', m_counter := c' },
      (reached.map (·.id)).foldl (fun w id => onReach id w) w) := by
    unfold tickCounter
    rw [htick]
  rw [htickCounter]
  have hmemid : ∀ id, id ∈ reached.map (·.id) ↔ ∃ n, h.m_counter.heap.find id = some n ∧
      h.m_counter.LIMIT ≤ n.heartbeatCount := by
    intro id
    rw [List.mem_map]
    constructor
    · rintro ⟨n, hn, rfl⟩
      exact ⟨n, (hmem n).mp hn⟩
    · rintro ⟨n, hn, hge⟩
      have hid : n.id = id := (hs.counter.indexed.find_eq_some.mp hn).2
      exact ⟨n, (hmem n).mpr ⟨by rw [hid]; exact hn, hge⟩, hid⟩
  refine ⟨⟨hvt, hvc, fun id => ?_⟩, hlim, rfl, rfl, reached.map (·.id), hnodup, rfl, hmemid,
    hc, ht⟩
  show (t'.find id).isSome = (c'.heap.find id).isSome
  rw [hc id, ht id]
  split
  · rfl
  · exact hs.same id

/-! ### The whole tick -/

/-- A tick takes the ids that reach the limit out of both heaps, runs the owner's callback
once for each of them, and keeps all others. Every count it leaves is below the limit, and
none has gone down. -/
theorem tick_spec (clk : Nat → Int) (onReach : UInt64 → ω → ω) {h : HeartbeatCounter}
    (hs : h.Sound) (w : ω) :
    let r := h.tick clk onReach w
    r.1.Sound ∧ r.1.m_counter.LIMIT = h.m_counter.LIMIT ∧ ∃ reached : List UInt64,
      r.2 = reached.foldl (fun w id => onReach id w) w ∧
      (∀ id ∈ reached, (h.m_timer.find id).isSome) ∧
      (∀ id, (r.1.m_timer.find id).isSome =
        (!decide (id ∈ reached) && (h.m_timer.find id).isSome)) ∧
      (∀ id n, r.1.m_counter.heap.find id = some n → n.heartbeatCount < h.m_counter.LIMIT ∧
        ∃ m, h.m_counter.heap.find id = some m ∧ m.heartbeatCount ≤ n.heartbeatCount) := by
  intro r
  obtain ⟨hs₁, hlim₁, -, -, -, -, -, hcount⟩ := tickTimer_spec clk hs
  obtain ⟨hs₂, hlim₂, -, -, reached, -, hw, hmem, hcounter, htimer⟩ :=
    tickCounter_spec onReach hs₁ w
  -- The timer half keeps the ids: the expired ones are started again.
  have hcount_isSome : ∀ id, ((h.tickTimer clk).m_counter.heap.find id).isSome =
      (h.m_counter.heap.find id).isSome := by
    intro id
    rw [hcount id]
    split
    · rw [Option.isSome_map]
    · rfl
  have hids : ∀ id, ((h.tickTimer clk).m_timer.find id).isSome = (h.m_timer.find id).isSome := by
    intro id
    rw [hs₁.same, hcount_isSome, hs.same]
  refine ⟨hs₂, hlim₂.trans hlim₁, reached, hw, fun id hid => ?_, fun id => ?_, fun id n hn => ?_⟩
  · obtain ⟨n, hn, -⟩ := (hmem id).mp hid
    rw [hs.same, ← hcount_isSome, hn]
    rfl
  · show (((h.tickTimer clk).tickCounter onReach w).1.m_timer.find id).isSome = _
    rw [htimer id]
    by_cases hid : id ∈ reached
    · simp [hid]
    · simp [hid, hids]
  · have hn : ((h.tickTimer clk).tickCounter onReach w).1.m_counter.heap.find id = some n := hn
    rw [hcounter id] at hn
    split at hn
    · cases hn
    · rename_i hid
      refine ⟨?_, ?_⟩
      · by_contra hge
        exact hid ((hmem id).mpr ⟨n, hn, by rw [hlim₁]; exact not_lt.mp hge⟩)
      · rw [hcount id] at hn
        split at hn
        -- An expired id counts one more.
        · obtain ⟨m, hm, rfl⟩ := Option.map_eq_some_iff.mp hn
          exact ⟨m, hm, by show m.heartbeatCount ≤ m.heartbeatCount + 1; omega⟩
        · exact ⟨n, hn, le_refl _⟩

end HeartbeatCounter

end RegistrationCenter
