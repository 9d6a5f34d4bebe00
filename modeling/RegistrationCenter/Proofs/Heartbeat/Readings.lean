import RegistrationCenter.Proofs.Heartbeat.Tables

/-!
# `RegistrationCenter.Proofs.Heartbeat.Readings`: the clock readings of a tick

A tick reads the clock once for each root that it looks at, and once more for each timer that
it starts again. So the timers it finds expired lie between two marks. A timer that has run
out at the first reading is among them, and each of them has run out at the reading that
starts it again. A tick of a counter with a timer takes a reading at least.
-/

set_option autoImplicit false

namespace RegistrationCenter

open Lib IndexedHeap

namespace HeartbeatCounter

variable {h : HeartbeatCounter}

/-- The timer half of a tick, with the nodes that its first loop takes out. The readings of the
second loop come after those of the first. -/
theorem exists_removed (clk : Nat → Int) (hs : h.Sound) : ∃ removed t' k',
    HeapTimer.Removed clk h.m_timer h.reads removed t' k' ∧
      h.expiredIds clk = removed.map (·.id) ∧ k' ≤ (h.tickTimer clk).reads ∧
      ∀ id ∈ removed.map (·.id), ∃ j, k' ≤ j ∧ j < (h.tickTimer clk).reads ∧
        (h.tickTimer clk).m_timer.find id =
          some { id := id, expires := clk j + MS h.m_timeout, cb := .timeoutFunc } := by
  obtain ⟨removed, hcbs, hr⟩ :=
    HeapTimer.removed_popExpired clk h.m_timer.nodes.length h.m_timer h.reads hs.timer le_rfl
  have hids : (removed.map fun n => (n.cb, n.id)).map Prod.snd = removed.map (·.id) := by
    rw [List.map_map]
    rfl
  unfold expiredIds tickTimer HeapTimer.tick
  generalize HeapTimer.popExpired clk h.m_timer.nodes.length h.m_timer h.reads = r at hcbs hr
  obtain ⟨cbs, t', k'⟩ := r
  simp only at hcbs hr ⊢
  subst hcbs
  obtain ⟨t'', k'', c', hrun, -, -, -, hk, hin, -⟩ := foldl_timeoutFunc clk h.m_timeout
    (removed.map fun n => (n.cb, n.id)) t' k' h.m_counter (hids ▸ hr.nodup) hr.valid hs.counter
  rw [hids] at hin
  rw [hrun]
  exact ⟨removed, t', k', hr, hids, hk, hin⟩

/-- A timer that the tick does not take out has time left at the first reading. -/
theorem le_expires_of_notMem {clk : Nat → Int} (hclk : Monotone clk) (hs : h.Sound) {id : UInt64}
    {n : TimerNode TimeoutCallback} (hn : h.m_timer.find id = some n)
    (hid : id ∉ h.expiredIds clk) : clk h.reads + MS 1 ≤ n.expires := by
  obtain ⟨removed, t', k', hr, hids, -⟩ := exists_removed clk hs
  rw [hids] at hid
  have hleft : t'.find id = some n := by rw [hr.left id, if_neg hid, hn]
  rcases hr.ended with ⟨hempty, -⟩ | ⟨top, htop, hnot, -⟩
  -- The loop cannot have ended with an empty heap.
  · rw [hr.valid.find_none_of_root_none hempty] at hleft
    cases hleft
  -- The root that ended the loop expires no later.
  · obtain ⟨-, hleast⟩ := hr.valid.find_root htop
    have hle : top.expires ≤ n.expires := hleast id n hleft
    have hmono := hclk (Nat.le_add_right h.reads removed.length)
    have hlt : ¬ top.expires < clk (h.reads + removed.length) + MS 1 := by
      rw [← HeapTimer.expired_iff_lt, hnot]
      exact Bool.false_ne_true
    omega

/-- A timer that the tick takes out has run out at the reading that starts it again. -/
theorem restarted_of_mem {clk : Nat → Int} (hclk : Monotone clk) (hs : h.Sound) {id : UInt64}
    (hid : id ∈ h.expiredIds clk) : ∃ n j, h.m_timer.find id = some n ∧ h.reads ≤ j ∧
      j < (h.tickTimer clk).reads ∧ n.expires < clk j + MS 1 ∧
      (h.tickTimer clk).m_timer.find id =
        some { id := id, expires := clk j + MS h.m_timeout, cb := .timeoutFunc } := by
  obtain ⟨removed, t', k', hr, hids, -, hin⟩ := exists_removed clk hs
  rw [hids] at hid
  obtain ⟨j, hkj, hjk, hfind⟩ := hin id hid
  obtain ⟨n, hn, rfl⟩ := List.mem_map.mp hid
  obtain ⟨i, hi⟩ := List.getElem?_of_mem hn
  obtain ⟨hold, hexp⟩ := hr.turn i n hi
  have hilt := (List.getElem?_eq_some_iff.mp hi).1
  have hij : h.reads + i ≤ j := by
    rcases hr.ended with ⟨-, hk⟩ | ⟨-, -, -, hk⟩
    · omega
    · omega
  refine ⟨n, j, hold, by omega, hjk, ?_, hfind⟩
  -- The reading that starts it again is not before the one that has found it expired.
  have hmono := hclk hij
  have hlt := (HeapTimer.expired_iff_lt n _).mp hexp
  omega

/-- With a timer in the heap the tick takes a reading. -/
theorem reads_lt_tickTimer (clk : Nat → Int) (hs : h.Sound) {id : UInt64}
    (hid : (h.m_timer.find id).isSome) : h.reads < (h.tickTimer clk).reads := by
  obtain ⟨removed, t', k', hr, -, hk, -⟩ := exists_removed clk hs
  refine Nat.lt_of_lt_of_le ?_ hk
  rcases hr.ended with ⟨hempty, hk'⟩ | ⟨-, -, -, hk'⟩
  -- The loop has emptied the heap, so it has taken a node out.
  · have hnone : t'.find id = none := hr.valid.find_none_of_root_none hempty id
    rw [hr.left id] at hnone
    have hne : removed ≠ [] := by
      rintro rfl
      rw [List.map_nil, if_neg List.not_mem_nil] at hnone
      rw [hnone] at hid
      cases hid
    have hpos := List.length_pos_iff.mpr hne
    omega
  · omega

end HeartbeatCounter

end RegistrationCenter
