import Mathlib.Tactic.Ring
import RegistrationCenter.Lib.Runs
import RegistrationCenter.Proofs.Heartbeat.Readings

/-!
# `RegistrationCenter.Proofs.Heartbeat.MissedPeriods`: a session dies of missed periods only

A run is a list of calls of `push`, `reset` and `tick` in any order. Next to the
state, the run keeps a log of what happened, newest record first: the calls with
the clock reading they took, the expiries of the timers, and the runs of the
limit callback. The counts of the counter play no part in the log.

`expiries id log` is the number of expiries of `id` since its most recent push or
reset, read off the log. `Counted` ties the log to the state: the count of each
id is `expiries`, and its expiry lies at least that many periods after the push
or reset. `counted_step` keeps it, and `limit_callback_exact` reads the property
off it.
-/

set_option autoImplicit false

namespace RegistrationCenter

open Lib IndexedHeap

/-- A call on the heartbeat counter. -/
inductive BeatCall
  | push (id : UInt64)
  | reset (id : UInt64)
  | tick
  deriving DecidableEq

/-- One record of the log. -/
inductive BeatRecord
  | pushed (id : UInt64) (time : Int)
  | reset (id : UInt64) (time : Int)
  | expired (id : UInt64)
  | reached (id : UInt64)

structure BeatRun where
  counter : HeartbeatCounter
  log : List BeatRecord

/-- The ids for which the next tick runs the limit callback, in the order it runs. -/
def callbacksOf (clk : Nat → Int) (h : HeartbeatCounter) : List UInt64 :=
  (h.tick clk (fun id ran => ran ++ [id]) []).2

/-- The log after the timer half of the next tick. -/
def logExpired (clk : Nat → Int) (s : BeatRun) : List BeatRecord :=
  (s.counter.expiredIds clk).reverse.map .expired ++ s.log

def beatStep (clk : Nat → Int) (s : BeatRun) : BeatCall → BeatRun
  | .push id =>
      { counter := s.counter.push clk id
        log := .pushed id (clk s.counter.reads) :: s.log }
  | .reset id =>
      { counter := s.counter.reset clk id
        log := .reset id (clk s.counter.reads) :: s.log }
  | .tick =>
      { counter := (s.counter.tick clk (fun id ran => ran ++ [id]) []).1
        log := (callbacksOf clk s.counter).reverse.map .reached ++ logExpired clk s }

/-- The run of the calls from the counter the server starts with. -/
def beatRun (clk : Nat → Int) (timeout max_heartbeat : Int) (calls : List BeatCall) : BeatRun :=
  calls.foldl (beatStep clk) { counter := HeartbeatCounter.init timeout max_heartbeat, log := [] }

/-! ### Reading the log -/

/-- The expiries of the timer of `id` since the most recent push or reset of `id`. -/
def expiries (id : UInt64) : List BeatRecord → Nat
  | [] => 0
  | .pushed i _ :: log => if i = id then 0 else expiries id log
  | .reset i _ :: log => if i = id then 0 else expiries id log
  | .expired i :: log => if i = id then expiries id log + 1 else expiries id log
  | .reached _ :: log => expiries id log

/-- The time of the most recent push or reset of `id`. -/
def startTime (id : UInt64) : List BeatRecord → Option Int
  | [] => none
  | .pushed i time :: log => if i = id then some time else startTime id log
  | .reset i time :: log => if i = id then some time else startTime id log
  | .expired _ :: log => startTime id log
  | .reached _ :: log => startTime id log

/-- `id` was pushed, and the limit callback has not run for it since. -/
def armed (id : UInt64) : List BeatRecord → Bool
  | [] => false
  | .pushed i _ :: log => if i = id then true else armed id log
  | .reached i :: log => if i = id then false else armed id log
  | .reset _ _ :: log => armed id log
  | .expired _ :: log => armed id log

theorem expiries_map_expired (id : UInt64) (log : List BeatRecord) :
    ∀ ids : List UInt64, ids.Nodup →
      expiries id (ids.map .expired ++ log) = expiries id log + if id ∈ ids then 1 else 0 := by
  intro ids
  induction ids with
  | nil => intro _; simp
  | cons i ids ih =>
      intro hnodup
      obtain ⟨hi, hnodup⟩ := List.nodup_cons.mp hnodup
      show (if i = id then expiries id (ids.map .expired ++ log) + 1
        else expiries id (ids.map .expired ++ log)) = _
      rw [ih hnodup]
      by_cases hid : i = id
      · subst hid
        simp [hi]
      · simp [hid, Ne.symm hid]

theorem startTime_map_expired (id : UInt64) (log : List BeatRecord) (ids : List UInt64) :
    startTime id (ids.map .expired ++ log) = startTime id log := by
  induction ids with
  | nil => rfl
  | cons i ids ih => exact ih

theorem armed_map_expired (id : UInt64) (log : List BeatRecord) (ids : List UInt64) :
    armed id (ids.map .expired ++ log) = armed id log := by
  induction ids with
  | nil => rfl
  | cons i ids ih => exact ih

theorem expiries_map_reached (id : UInt64) (log : List BeatRecord) (ids : List UInt64) :
    expiries id (ids.map .reached ++ log) = expiries id log := by
  induction ids with
  | nil => rfl
  | cons i ids ih => exact ih

theorem startTime_map_reached (id : UInt64) (log : List BeatRecord) (ids : List UInt64) :
    startTime id (ids.map .reached ++ log) = startTime id log := by
  induction ids with
  | nil => rfl
  | cons i ids ih => exact ih

theorem armed_map_reached (id : UInt64) (log : List BeatRecord) (ids : List UInt64) :
    armed id (ids.map .reached ++ log) = if id ∈ ids then false else armed id log := by
  induction ids with
  | nil => simp
  | cons i ids ih =>
      show (if i = id then false else armed id (ids.map .reached ++ log)) = _
      rw [ih]
      by_cases hid : i = id
      · simp [hid]
      · simp [hid, Ne.symm hid]

theorem expiries_logExpired (clk : Nat → Int) (s : BeatRun) (hs : s.counter.Sound) (id : UInt64) :
    expiries id (logExpired clk s)
      = expiries id s.log + if id ∈ s.counter.expiredIds clk then 1 else 0 := by
  have hnodup := (HeartbeatCounter.tickTimer_spec clk hs).2.2.2.2.1
  rw [logExpired, expiries_map_expired id s.log _ ((List.reverse_perm _).nodup_iff.mpr hnodup)]
  simp only [List.mem_reverse]

/-- A tick counts one expiry more for each id whose timer has expired. -/
theorem expiries_tick (clk : Nat → Int) (s : BeatRun) (hs : s.counter.Sound) (id : UInt64) :
    expiries id (beatStep clk s .tick).log
      = expiries id s.log + if id ∈ s.counter.expiredIds clk then 1 else 0 := by
  rw [beatStep, expiries_map_reached, expiries_logExpired clk s hs]

theorem startTime_tick (clk : Nat → Int) (s : BeatRun) (id : UInt64) :
    startTime id (beatStep clk s .tick).log = startTime id s.log := by
  rw [beatStep, startTime_map_reached, logExpired, startTime_map_expired]

/-- A tick disarms the ids for which it runs the limit callback. -/
theorem armed_tick (clk : Nat → Int) (s : BeatRun) (id : UInt64) :
    armed id (beatStep clk s .tick).log
      = if id ∈ callbacksOf clk s.counter then false else armed id s.log := by
  rw [beatStep, armed_map_reached, logExpired, armed_map_expired]
  simp only [List.mem_reverse]

/-! ### The invariant -/

/-- The state and the log agree: an id has a timer while it is armed, its count is the
number of expiries since the last push or reset, and each of them took a period. -/
structure Counted (timeout max_heartbeat : Int) (s : BeatRun) : Prop where
  sound : s.counter.Sound
  limit : s.counter.m_counter.LIMIT = max_heartbeat
  period : s.counter.m_timeout = timeout
  timers : ∀ id, armed id s.log = (s.counter.m_timer.find id).isSome
  count : ∀ id n, s.counter.m_counter.heap.find id = some n →
    n.heartbeatCount = expiries id s.log ∧ n.heartbeatCount < max_heartbeat
  started : ∀ id n, s.counter.m_timer.find id = some n → ∃ r, startTime id s.log = some r ∧
    r + expiries id s.log * MS (timeout - 1) + MS timeout ≤ n.expires

theorem foldl_concat (ids acc : List UInt64) :
    ids.foldl (fun ran id => ran ++ [id]) acc = acc ++ ids := by
  induction ids generalizing acc with
  | nil => simp
  | cons i ids ih => rw [List.foldl_cons, ih]; simp

/-- What a tick does, with the limit callbacks it ran as a list of ids. -/
theorem tick_spec (clk : Nat → Int) {h : HeartbeatCounter} (hs : h.Sound) :
    let after := (h.tick clk (fun id ran => ran ++ [id]) []).1
    after.Sound ∧ after.m_counter.LIMIT = h.m_counter.LIMIT ∧ after.m_timeout = h.m_timeout ∧
      after.reads = (h.tickTimer clk).reads ∧ (callbacksOf clk h).Nodup ∧
      (∀ id, id ∈ callbacksOf clk h ↔ ∃ n,
        (h.tickTimer clk).m_counter.heap.find id = some n ∧
          h.m_counter.LIMIT ≤ n.heartbeatCount) ∧
      (∀ id, after.m_counter.heap.find id = if id ∈ callbacksOf clk h then none
        else (h.tickTimer clk).m_counter.heap.find id) ∧
      (∀ id, after.m_timer.find id = if id ∈ callbacksOf clk h then none
        else (h.tickTimer clk).m_timer.find id) := by
  obtain ⟨hs₁, hlim₁, htime₁, -⟩ := HeartbeatCounter.tickTimer_spec clk hs
  obtain ⟨hs₂, hlim₂, htime₂, hreads₂, reached, hnodup, hw, hmem, hc, ht⟩ :=
    HeartbeatCounter.tickCounter_spec (fun id ran => ran ++ [id]) hs₁ ([] : List UInt64)
  have hran : callbacksOf clk h = reached := by
    show ((h.tickTimer clk).tickCounter (fun id ran => ran ++ [id]) []).2 = reached
    rw [hw, foldl_concat, List.nil_append]
  rw [hran]
  rw [hlim₁] at hmem
  exact ⟨hs₂, hlim₂.trans hlim₁, htime₂.trans htime₁, hreads₂, hnodup, hmem, hc, ht⟩

/-- The limit callback runs for an id exactly when its timer expires in this tick and the
expiry is the `max_heartbeat`-th since the last push or reset. -/
theorem mem_callbacksOf_iff (clk : Nat → Int) {timeout max_heartbeat : Int} {s : BeatRun}
    (hc : Counted timeout max_heartbeat s) (id : UInt64) :
    id ∈ callbacksOf clk s.counter ↔ id ∈ s.counter.expiredIds clk ∧
      (expiries id s.log : Int) + 1 = max_heartbeat := by
  obtain ⟨-, -, -, -, -, hmem, -, -⟩ := tick_spec clk hc.sound
  obtain ⟨-, -, -, -, -, hexp, -, hcount⟩ := HeartbeatCounter.tickTimer_spec clk hc.sound
  rw [hmem, hcount id, hc.limit]
  -- Only an expiry of this tick can bring a count to the limit: the invariant keeps it below
  -- before.
  by_cases hid : id ∈ s.counter.expiredIds clk
  · simp only [hid, if_true, true_and]
    obtain ⟨n, i, j, hn, _⟩ := hexp id hid
    have hsame := hc.sound.same id
    rw [hn] at hsame
    obtain ⟨m, hm⟩ := Option.isSome_iff_exists.mp hsame.symm
    obtain ⟨hval, hlt⟩ := hc.count id m hm
    simp only [hm, Option.map_some, Option.some.injEq, exists_eq_left']
    omega
  · simp only [hid, if_false, false_and, iff_false, not_exists, not_and, not_le]
    intro n hn
    exact (hc.count id n hn).2

/-- A call that starts the period of `id` afresh and touches no other id keeps the invariant. -/
theorem Counted.restart {timeout max_heartbeat : Int} (hmax : 1 ≤ max_heartbeat) {s s' : BeatRun}
    (hc : Counted timeout max_heartbeat s) (id : UInt64) (time : Int) (hs : s'.counter.Sound)
    (hlimit : s'.counter.m_counter.LIMIT = s.counter.m_counter.LIMIT)
    (hperiod : s'.counter.m_timeout = s.counter.m_timeout)
    (htimers : ∀ d, armed d s'.log = (s'.counter.m_timer.find d).isSome)
    (hexpiries : ∀ d, expiries d s'.log = if id = d then 0 else expiries d s.log)
    (hstart : ∀ d, startTime d s'.log = if id = d then some time else startTime d s.log)
    (hcount : ∀ n, s'.counter.m_counter.heap.find id = some n → n.heartbeatCount = 0)
    (hexpires : ∀ n, s'.counter.m_timer.find id = some n → n.expires = time + MS timeout)
    (hcounter : ∀ d, d ≠ id →
      s'.counter.m_counter.heap.find d = s.counter.m_counter.heap.find d)
    (htimer : ∀ d, d ≠ id → s'.counter.m_timer.find d = s.counter.m_timer.find d) :
    Counted timeout max_heartbeat s' := by
  refine ⟨hs, hlimit.trans hc.limit, hperiod.trans hc.period, htimers, fun d n hn => ?_,
    fun d n hn => ?_⟩
  · rw [hexpiries d]
    by_cases hd : d = id
    · subst hd
      rw [if_pos rfl, hcount n hn]
      exact ⟨rfl, by omega⟩
    · rw [hcounter d hd] at hn
      rw [if_neg (Ne.symm hd)]
      exact hc.count d n hn
  · rw [hexpiries d, hstart d]
    by_cases hd : d = id
    · -- No expiry yet, and the expiry time is one whole period after the start.
      subst hd
      rw [if_pos rfl, if_pos rfl]
      exact ⟨time, rfl, by rw [hexpires n hn]; simp⟩
    · rw [htimer d hd] at hn
      rw [if_neg (Ne.symm hd), if_neg (Ne.symm hd)]
      exact hc.started d n hn

theorem counted_push (clk : Nat → Int) {timeout max_heartbeat : Int} (hmax : 1 ≤ max_heartbeat)
    {s : BeatRun} (hc : Counted timeout max_heartbeat s) (id : UInt64) :
    Counted timeout max_heartbeat (beatStep clk s (.push id)) := by
  obtain ⟨hs, hft, hfc⟩ := HeartbeatCounter.sound_push clk hc.sound id
  refine hc.restart hmax id (clk s.counter.reads) hs rfl rfl (fun d => ?_)
    (fun d => rfl) (fun d => rfl) (fun n hn => ?_) (fun n hn => ?_) (fun d hd => ?_)
    (fun d hd => ?_)
  · show (if id = d then true else armed d s.log) = ((s.counter.push clk id).m_timer.find d).isSome
    rw [hft]
    by_cases hd : d = id
    · subst hd; simp
    · rw [if_neg (Ne.symm hd), Function.update_of_ne hd]; exact hc.timers d
  · replace hn : (s.counter.push clk id).m_counter.heap.find id = some n := hn
    rw [hfc, Function.update_self] at hn
    cases hn
    rfl
  · replace hn : (s.counter.push clk id).m_timer.find id = some n := hn
    rw [hft, Function.update_self] at hn
    cases hn
    show clk s.counter.reads + MS s.counter.m_timeout = clk s.counter.reads + MS timeout
    rw [hc.period]
  · show (s.counter.push clk id).m_counter.heap.find d = _
    rw [hfc, Function.update_of_ne hd]
  · show (s.counter.push clk id).m_timer.find d = _
    rw [hft, Function.update_of_ne hd]

theorem counted_reset (clk : Nat → Int) {timeout max_heartbeat : Int} (hmax : 1 ≤ max_heartbeat)
    {s : BeatRun} (hc : Counted timeout max_heartbeat s) (id : UInt64) :
    Counted timeout max_heartbeat (beatStep clk s (.reset id)) := by
  obtain ⟨hs, hft, hfc⟩ := HeartbeatCounter.sound_reset clk hc.sound id
  refine hc.restart hmax id (clk s.counter.reads) hs rfl rfl (fun d => ?_)
    (fun d => rfl) (fun d => rfl) (fun n hn => ?_) (fun n hn => ?_) (fun d hd => ?_)
    (fun d hd => ?_)
  · -- A reset arms nothing: the id keeps its timer or stays without one.
    show armed d s.log = ((s.counter.reset clk id).m_timer.find d).isSome
    rw [hft, hc.timers d]
    by_cases hd : d = id
    · subst hd; simp
    · rw [Function.update_of_ne hd]
  · replace hn : (s.counter.reset clk id).m_counter.heap.find id = some n := hn
    rw [hfc, Function.update_self] at hn
    obtain ⟨m, _, rfl⟩ := Option.map_eq_some_iff.mp hn
    rfl
  · replace hn : (s.counter.reset clk id).m_timer.find id = some n := hn
    rw [hft, Function.update_self] at hn
    obtain ⟨m, _, rfl⟩ := Option.map_eq_some_iff.mp hn
    show clk s.counter.reads + MS s.counter.m_timeout = clk s.counter.reads + MS timeout
    rw [hc.period]
  · show (s.counter.reset clk id).m_counter.heap.find d = _
    rw [hfc, Function.update_of_ne hd]
  · show (s.counter.reset clk id).m_timer.find d = _
    rw [hft, Function.update_of_ne hd]

/-- An expiry costs a period: the reading that finds the timer of `id` expired is later
than one more period, less a millisecond each, after the last push or reset. -/
theorem period_lt_of_expired {timeout max_heartbeat : Int} {s : BeatRun}
    (hc : Counted timeout max_heartbeat s) {id : UInt64} {n : TimerNode TimeoutCallback} {now : Int}
    (hn : s.counter.m_timer.find id = some n) (hexp : HeapTimer.expired n now = true) :
    ∃ r, startTime id s.log = some r ∧
      r + ((expiries id s.log : Int) + 1) * MS (timeout - 1) < now := by
  obtain ⟨r, hr, hle⟩ := hc.started id n hn
  refine ⟨r, hr, ?_⟩
  have hlt := (HeapTimer.expired_iff_lt n now).mp hexp
  have hms : MS timeout = MS (timeout - 1) + MS 1 := by unfold MS; ring
  rw [hms] at hle
  linarith

/-- The timer half of a tick counts the expired ids once more. -/
theorem Counted.count_tickTimer (clk : Nat → Int) {timeout max_heartbeat : Int} {s : BeatRun}
    (hc : Counted timeout max_heartbeat s) {id : UInt64} {n : HeartBeatCounterNode CountCallback}
    (hn : (s.counter.tickTimer clk).m_counter.heap.find id = some n) :
    n.heartbeatCount =
      (expiries id s.log + if id ∈ s.counter.expiredIds clk then 1 else 0 : Nat) := by
  obtain ⟨-, -, -, -, -, -, -, hcount⟩ := HeartbeatCounter.tickTimer_spec clk hc.sound
  rw [hcount id] at hn
  by_cases hid : id ∈ s.counter.expiredIds clk
  · rw [if_pos hid] at hn
    obtain ⟨m, hm, rfl⟩ := Option.map_eq_some_iff.mp hn
    have hval := (hc.count id m hm).1
    rw [if_pos hid]
    show m.heartbeatCount + 1 = _
    push_cast
    omega
  · rw [if_neg hid] at hn
    rw [if_neg hid]
    exact (hc.count id n hn).1

/-- A timer that the timer half starts again is one period after the reading that found it
expired, or later, since the clock does not go back. -/
theorem Counted.started_tickTimer (clk : Nat → Int) (hclk : Monotone clk)
    {timeout max_heartbeat : Int} {s : BeatRun} (hc : Counted timeout max_heartbeat s)
    {id : UInt64} {n : TimerNode TimeoutCallback}
    (hn : (s.counter.tickTimer clk).m_timer.find id = some n) :
    ∃ r, startTime id s.log = some r ∧
      r + (expiries id s.log + if id ∈ s.counter.expiredIds clk then 1 else 0 : Nat) *
        MS (timeout - 1) + MS timeout ≤ n.expires := by
  obtain ⟨-, -, -, -, -, hexp, hkeep, -⟩ := HeartbeatCounter.tickTimer_spec clk hc.sound
  by_cases hid : id ∈ s.counter.expiredIds clk
  · obtain ⟨m, i, j, hm, hij, _, hx, hfind⟩ := hexp id hid
    rw [hfind] at hn
    cases hn
    obtain ⟨r, hr, hlt⟩ := period_lt_of_expired hc hm hx
    refine ⟨r, hr, ?_⟩
    rw [if_pos hid, hc.period]
    have hmono := hclk hij
    push_cast
    show r + ((expiries id s.log : Int) + 1) * MS (timeout - 1) + MS timeout
      ≤ clk j + MS timeout
    omega
  · rw [hkeep id hid] at hn
    rw [if_neg hid]
    exact hc.started id n hn

theorem counted_tick (clk : Nat → Int) (hclk : Monotone clk) {timeout max_heartbeat : Int}
    {s : BeatRun} (hc : Counted timeout max_heartbeat s) :
    Counted timeout max_heartbeat (beatStep clk s .tick) := by
  obtain ⟨hs, hlim, htime, -, -, hmem, hfc, hft⟩ := tick_spec clk hc.sound
  obtain ⟨-, -, -, -, -, hexp, hkeep, -⟩ := HeartbeatCounter.tickTimer_spec clk hc.sound
  -- The timer half keeps the set of ids that have a timer.
  have hsome : ∀ id, ((s.counter.tickTimer clk).m_timer.find id).isSome
      = (s.counter.m_timer.find id).isSome := by
    intro id
    by_cases hid : id ∈ s.counter.expiredIds clk
    · obtain ⟨n, i, j, hn, _, _, _, hfind⟩ := hexp id hid
      rw [hfind, hn]
      rfl
    · rw [hkeep id hid]
  refine ⟨hs, hlim.trans hc.limit, htime.trans hc.period, fun id => ?_, fun id n hn => ?_,
    fun id n hn => ?_⟩
  -- The armed ids lose the ones whose callback ran, as the timers do.
  · rw [armed_tick, hc.timers id]
    show _ = ((s.counter.tick clk (fun id ran => ran ++ [id]) []).1.m_timer.find id).isSome
    rw [hft id]
    split
    · rfl
    · exact (hsome id).symm
  -- The counts that are left are below the limit.
  · replace hn : (s.counter.tick clk (fun id ran => ran ++ [id]) []).1.m_counter.heap.find id
      = some n := hn
    rw [hfc id] at hn
    split at hn
    · cases hn
    case isFalse hnot =>
      rw [expiries_tick clk s hc.sound]
      refine ⟨hc.count_tickTimer clk hn, lt_of_not_ge fun hge => hnot ((hmem id).mpr ⟨n, hn, ?_⟩)⟩
      rw [hc.limit]
      exact hge
  · replace hn : (s.counter.tick clk (fun id ran => ran ++ [id]) []).1.m_timer.find id
      = some n := hn
    rw [hft id] at hn
    rw [startTime_tick, expiries_tick clk s hc.sound]
    split at hn
    · cases hn
    · exact hc.started_tickTimer clk hclk hn

theorem counted_step (clk : Nat → Int) (hclk : Monotone clk) {timeout max_heartbeat : Int}
    (hmax : 1 ≤ max_heartbeat) (s : BeatRun) (call : BeatCall)
    (hc : Counted timeout max_heartbeat s) :
    Counted timeout max_heartbeat (beatStep clk s call) := by
  cases call with
  | push id => exact counted_push clk hmax hc id
  | reset id => exact counted_reset clk hmax hc id
  | tick => exact counted_tick clk hclk hc

theorem counted_run (clk : Nat → Int) (hclk : Monotone clk) (timeout : Int) {max_heartbeat : Int}
    (hmax : 1 ≤ max_heartbeat) (calls : List BeatCall) :
    Counted timeout max_heartbeat (beatRun clk timeout max_heartbeat calls) := by
  refine inv_foldl (fun s c hs => counted_step clk hclk hmax s c hs) calls ?_
  exact ⟨HeartbeatCounter.sound_init _ _, rfl, rfl, fun _ => rfl,
    fun _ n hn => by simp [HeartbeatCounter.init, find, empty] at hn,
    fun _ n hn => by simp [HeartbeatCounter.init, find, empty] at hn⟩

/-! ### The property -/

/-- Only a push arms an id. -/
theorem armed_step_eq_false (clk : Nat → Int) {s : BeatRun} {id : UInt64} {call : BeatCall}
    (hcall : call ≠ .push id) (h : armed id s.log = false) :
    armed id (beatStep clk s call).log = false := by
  cases call with
  | push i =>
      show (if i = id then true else armed id s.log) = false
      rw [if_neg fun heq => hcall (by rw [heq])]
      exact h
  | reset i => exact h
  | tick =>
      rw [armed_tick, h]
      exact ite_self false

/-- An id that is not armed is in neither heap, a reset of it does nothing, and the limit
callback does not run for it. -/
theorem not_armed_spec (clk : Nat → Int) {timeout max_heartbeat : Int} {s : BeatRun}
    (hc : Counted timeout max_heartbeat s) {id : UInt64} (h : armed id s.log = false) :
    s.counter.m_timer.find id = none ∧ s.counter.m_counter.heap.find id = none ∧
      s.counter.reset clk id = s.counter ∧ id ∉ callbacksOf clk s.counter := by
  have hnone : s.counter.m_timer.find id = none := by
    rw [hc.timers id] at h
    simpa using h
  refine ⟨hnone, ?_, HeartbeatCounter.reset_of_find_none clk hc.sound hnone, ?_⟩
  · have hsame := hc.sound.same id
    rw [hnone] at hsame
    simpa using hsame.symm
  · rw [mem_callbacksOf_iff clk hc]
    rintro ⟨hid, -⟩
    obtain ⟨-, -, -, -, -, hexp, -⟩ := HeartbeatCounter.tickTimer_spec clk hc.sound
    obtain ⟨n, i, j, hn, _⟩ := hexp id hid
    rw [hnone] at hn
    cases hn

theorem armed_foldl_eq_false (clk : Nat → Int) {id : UInt64} {calls : List BeatCall}
    (hcalls : ∀ c ∈ calls, c ≠ .push id) {s : BeatRun} (h : armed id s.log = false) :
    armed id (calls.foldl (beatStep clk) s).log = false := by
  induction calls generalizing s with
  | nil => exact h
  | cons c calls ih =>
      obtain ⟨hc, hcalls⟩ := List.forall_mem_cons.mp hcalls
      exact ih hcalls (armed_step_eq_false clk hc h)

/-- A session dies exactly after `max_heartbeat` missed periods in a row, and never early.
In every state that calls of `push`, `reset` and `tick` reach, with a clock that never goes
back:

1. the next tick runs the limit callback for `id` exactly when the timer of `id` expires in
   it, and this makes exactly `max_heartbeat` expiries since the last push or reset;
2. a timer that has expired, to the millisecond, at the first reading of the tick expires in it,
   and each timer that expires in it has expired at one of its readings;
3. the callback then runs at a time later than `max_heartbeat` periods, less a millisecond
   each, after that push or reset: the last reading taken before it is later;
4. it runs once in the tick, never for an id that was not pushed, and in every continuation
   without a push of `id` it does not run again, neither heap holds `id`, and a reset of `id`
   changes nothing. -/
theorem limit_callback_exact (clk : Nat → Int) (hclk : Monotone clk)
    (timeout max_heartbeat : Int) (hmax : 1 ≤ max_heartbeat) (calls : List BeatCall)
    (id : UInt64) :
    let s := beatRun clk timeout max_heartbeat calls
    let after := beatStep clk s .tick
    (id ∈ callbacksOf clk s.counter ↔ id ∈ s.counter.expiredIds clk ∧
      (expiries id (logExpired clk s) : Int) = max_heartbeat) ∧
    ((∀ n, s.counter.m_timer.find id = some n → n.expires < clk s.counter.reads + MS 1 →
        id ∈ s.counter.expiredIds clk) ∧
      (id ∈ s.counter.expiredIds clk → ∃ n j, s.counter.m_timer.find id = some n ∧
        s.counter.reads ≤ j ∧ j < after.counter.reads ∧ n.expires < clk j + MS 1)) ∧
    (id ∈ callbacksOf clk s.counter → ∃ r, startTime id s.log = some r ∧
      r + max_heartbeat * MS (timeout - 1) < clk (after.counter.reads - 1)) ∧
    (callbacksOf clk s.counter).Nodup ∧
    ((∀ c ∈ calls, c ≠ .push id) → id ∉ callbacksOf clk s.counter) ∧
    (id ∈ callbacksOf clk s.counter → ∀ later : List BeatCall, (∀ c ∈ later, c ≠ .push id) →
      let t := later.foldl (beatStep clk) after
      t.counter.m_timer.find id = none ∧ t.counter.m_counter.heap.find id = none ∧
        t.counter.reset clk id = t.counter ∧ id ∉ callbacksOf clk t.counter) := by
  intro s after
  have hc : Counted timeout max_heartbeat s := counted_run clk hclk timeout hmax calls
  have hmem := mem_callbacksOf_iff clk hc id
  obtain ⟨-, -, -, hreads, hnodup, -, -, -⟩ := tick_spec clk hc.sound
  obtain ⟨-, -, -, -, -, hexp, -⟩ := HeartbeatCounter.tickTimer_spec clk hc.sound
  have hafter : after.counter.reads = (s.counter.tickTimer clk).reads := hreads
  refine ⟨?_, ⟨?_, ?_⟩, ?_, hnodup, ?_, ?_⟩
  -- Part 1.
  · rw [hmem, expiries_logExpired clk s hc.sound]
    constructor
    · rintro ⟨hid, heq⟩
      exact ⟨hid, by rw [if_pos hid]; push_cast; exact heq⟩
    · rintro ⟨hid, heq⟩
      rw [if_pos hid] at heq
      push_cast at heq
      exact ⟨hid, heq⟩
  -- Part 2.
  · intro n hn hdue
    by_contra hid
    exact absurd hdue (not_lt.mpr (HeartbeatCounter.le_expires_of_notMem hclk hc.sound hn hid))
  · intro hid
    obtain ⟨n, j, hn, hkj, hj, hdue, -⟩ := HeartbeatCounter.restarted_of_mem hclk hc.sound hid
    exact ⟨n, j, hn, hkj, hafter ▸ hj, hdue⟩
  -- Part 3: the reading that found the timer expired is not after the last one of the tick.
  · intro hid
    obtain ⟨hidE, hcount⟩ := hmem.mp hid
    obtain ⟨n, i, j, hn, hij, hj, hx, -⟩ := hexp id hidE
    obtain ⟨r, hr, hlt⟩ := period_lt_of_expired hc hn hx
    rw [hcount] at hlt
    exact ⟨r, hr, lt_of_lt_of_le hlt (hclk (by omega))⟩
  -- Part 4.
  · intro hcalls
    exact (not_armed_spec clk hc (armed_foldl_eq_false clk hcalls rfl)).2.2.2
  · intro hid later hlater
    have hafter : Counted timeout max_heartbeat (later.foldl (beatStep clk) after) :=
      inv_foldl (fun s c hs => counted_step clk hclk hmax s c hs) later
        (counted_step clk hclk hmax s .tick hc)
    have hdead : armed id after.log = false := by
      rw [armed_tick, if_pos hid]
    exact not_armed_spec clk hafter (armed_foldl_eq_false clk hlater hdead)

/-- A clock that advances two milliseconds between readings. -/
def twoMillisecondClock (n : Nat) : Int :=
  n * MS 2

/-- With a limit of one and a timeout of a millisecond, the tick after the push of session 7
runs its callback, later than the push, and nothing but a new push revives it. -/
theorem limit_callback_exact_one :
    let s := beatRun twoMillisecondClock 1 1 [.push 7]
    7 ∈ callbacksOf twoMillisecondClock s.counter ∧
    (∃ r, startTime 7 s.log = some r ∧ r + 1 * MS (1 - 1)
      < twoMillisecondClock ((beatStep twoMillisecondClock s .tick).counter.reads - 1)) ∧
    ∀ later : List BeatCall, (∀ c ∈ later, c ≠ .push 7) →
      7 ∉ callbacksOf twoMillisecondClock
        (later.foldl (beatStep twoMillisecondClock)
          (beatStep twoMillisecondClock s .tick)).counter := by
  have hclk : Monotone twoMillisecondClock := by
    intro i j hij
    show (i : Int) * MS 2 ≤ j * MS 2
    unfold MS
    omega
  obtain ⟨-, -, htime, -, -, hafter⟩ :=
    limit_callback_exact twoMillisecondClock hclk 1 1 (le_refl 1) [.push 7] 7
  have hran : 7 ∈ callbacksOf twoMillisecondClock
      (beatRun twoMillisecondClock 1 1 [.push 7]).counter := by decide
  exact ⟨hran, htime hran, fun later hlater => (hafter hran later hlater).2.2.2⟩

end RegistrationCenter
