import RegistrationCenter.Proofs.Heartbeat.Refinement

/-!
# `RegistrationCenter.Proofs.Heartbeat.Tick`: which timers a tick fires

A tick takes the expired nodes out first and runs their callbacks then, so a callback that
starts a timer does not make the tick longer: `FiresExpired` holds of every tick
(`firesExpired_tick`). `getNextTick` is right as long as the `int` of the milliseconds to the
expiry of the root has the sign of the `long` (`getNextTick_iff`): a root that is overdue by
more than 2^31 milliseconds can turn into a large positive number.
-/

set_option autoImplicit false

namespace RegistrationCenter

open Lib IndexedHeap

variable {β ω : Type}

/-- The node is within one millisecond of its expiry, or past it. -/
def TimerNode.Due (n : TimerNode β) (now : Int) : Prop := n.expires - now < MS 1

/-- A duration of at least zero is at least its whole milliseconds. -/
theorem MS_durationCastMS_le {d : Int} (hd : 0 ≤ d) : MS (durationCastMS d) ≤ d := by
  unfold durationCastMS MS
  rw [Int.tdiv_eq_ediv_of_nonneg hd]
  omega

namespace HeapTimer

theorem expired_iff (n : TimerNode β) (now : Int) : expired n now = true ↔ n.Due now := by
  unfold expired TimerNode.Due
  rw [decide_eq_true_iff]
  exact durationCastMS_nonpos_iff _

/-- Callbacks that act on the timer through its functions. `acts cb id s` are the calls that
the callback `cb` makes for `id` in the state `s`, and the world after them. -/
def acting (clk : Nat → Int)
    (acts : β → UInt64 → HeapTimer β × Nat × ω → List (Call β) × ω) (cb : β) (id : UInt64)
    (s : HeapTimer β × Nat × ω) : HeapTimer β × Nat × ω :=
  let (calls, w) := acts cb id s
  let (t, k) := calls.foldl (HeapTimer.call clk) (s.1, s.2.1)
  (t, k, w)

/-! ### The expired nodes -/

/-- What `tick` does on the timer `t` after `k` readings of the clock. The nodes `removed` are
taken out before any callback runs, which leaves the timer `t'` after `k'` readings. Then the
callbacks of the nodes taken out run, each once and with its own id, and no others. -/
structure FiresExpired (clk : Nat → Int)
    (call : β → UInt64 → HeapTimer β × Nat × ω → HeapTimer β × Nat × ω) (t : HeapTimer β) (k : Nat)
    (w : ω) (removed : List (TimerNode β)) (t' : HeapTimer β) (k' : Nat) : Prop where
  /-- The reading taken at the turn of a node finds it due. -/
  turn : ∀ (j : Nat) (n : TimerNode β), removed[j]? = some n → n.Due (clk (k + j))
  /-- Exactly the nodes are taken out that are due at some reading of the loop. -/
  due : ∀ n : TimerNode β, n ∈ removed ↔ n ∈ t.nodes ∧ ∃ i, k ≤ i ∧ i < k' ∧ n.Due (clk i)
  nodup : (removed.map (·.id)).Nodup
  /-- They are taken out in an order of expiry. -/
  sorted : removed.Pairwise fun a b => a.expires ≤ b.expires
  left : ∀ n, n ∈ t'.nodes ↔ n ∈ t.nodes ∧ n ∉ removed
  /-- No node that is left is due at the last reading. -/
  last : ∀ n ∈ t'.nodes, k < k' ∧ ¬ n.Due (clk (k' - 1))
  run : tick clk call t k w = removed.foldl (fun s n => call n.cb n.id s) (t', k', w)

/-- The root that ended the loop expires before all nodes that are left. -/
theorem Removed.not_due {clk : Nat → Int} {t t' : HeapTimer β} {k k' : Nat}
    {removed : List (TimerNode β)} (hr : Removed clk t k removed t' k') {n : TimerNode β}
    (hn : n ∈ t'.nodes) :
    k' = k + removed.length + 1 ∧ ¬ n.Due (clk (k + removed.length)) := by
  rcases hr.ended with ⟨hnone, _⟩ | ⟨top, htop, hexp, hk⟩
  · have hnil : t'.nodes = [] := by simpa using hnone
    rw [hnil] at hn
    exact absurd hn List.not_mem_nil
  -- The root was not due at the last reading, and it expires first.
  · refine ⟨hk, fun hdue => ?_⟩
    have hle : top.expires ≤ n.expires :=
      (hr.valid.find_root htop).2 n.id n (hr.valid.indexed.find_eq_some.mpr ⟨hn, rfl⟩)
    have hnot : ¬ top.Due (clk (k + removed.length)) := by
      rw [← expired_iff, hexp]
      exact Bool.false_ne_true
    unfold TimerNode.Due at hdue hnot
    omega

theorem firesExpired_tick {clk : Nat → Int} (hclk : Monotone clk)
    (call : β → UInt64 → HeapTimer β × Nat × ω → HeapTimer β × Nat × ω) {t : HeapTimer β}
    (hv : t.Valid) (k : Nat) (w : ω) :
    ∃ removed t' k', t'.Valid ∧ FiresExpired clk call t k w removed t' k' := by
  obtain ⟨removed, hcbs, hr⟩ := removed_popExpired clk t.nodes.length t k hv (Nat.le_refl _)
  generalize hpop : popExpired clk t.nodes.length t k = r at hcbs hr
  obtain ⟨cbs, t', k'⟩ := r
  simp only at hcbs hr
  have hmem : ∀ n ∈ removed, n ∈ t.nodes := fun n hn =>
    (hv.indexed.find_eq_some.mp (hr.find_of_mem hn)).1
  have hturn : ∀ (j : Nat) (n : TimerNode β), removed[j]? = some n → n.Due (clk (k + j)) := by
    intro j n hj
    exact (expired_iff n _).mp (hr.turn j n hj).2
  have hleft : ∀ n, n ∈ t'.nodes ↔ n ∈ t.nodes ∧ n ∉ removed := by
    intro n
    have hn' : n ∈ t'.nodes ↔ t'.find n.id = some n := by
      rw [hr.valid.indexed.find_eq_some]
      exact ⟨fun h => ⟨h, rfl⟩, fun h => h.1⟩
    have hn : n ∈ t.nodes ↔ t.find n.id = some n := by
      rw [hv.indexed.find_eq_some]
      exact ⟨fun h => ⟨h, rfl⟩, fun h => h.1⟩
    rw [hn', hr.left n.id, hn]
    by_cases hid : n.id ∈ removed.map (·.id)
    · rw [if_pos hid]
      obtain ⟨n₁, hn₁, heq⟩ := List.mem_map.mp hid
      constructor
      · intro h
        cases h
      -- An id is taken out together with the only node that has it.
      · rintro ⟨hfind, hnot⟩
        have hfind₁ := hr.find_of_mem hn₁
        rw [heq, hfind] at hfind₁
        rw [Option.some.inj hfind₁] at hnot
        exact absurd hn₁ hnot
    · rw [if_neg hid]
      exact ⟨fun h => ⟨h, fun hin => hid (List.mem_map_of_mem hin)⟩, fun h => h.1⟩
  refine ⟨removed, t', k', hr.valid, hturn, ?_, hr.nodup, hr.sorted, hleft, ?_, ?_⟩
  -- A node is taken out at its own turn. One that is left was not due then.
  · intro n
    constructor
    · intro hn
      obtain ⟨j, hj⟩ := List.getElem?_of_mem hn
      have hlt := (List.getElem?_eq_some_iff.mp hj).1
      have hk : k + removed.length ≤ k' := by
        rcases hr.ended with ⟨_, hk⟩ | ⟨_, _, _, hk⟩ <;> omega
      exact ⟨hmem n hn, k + j, by omega, by omega, hturn j n hj⟩
    · rintro ⟨hn, i, hki, hik, hdue⟩
      by_contra hnot
      -- The clock has not gone back, so a node that was due is still due at the last reading.
      obtain ⟨hk, hlast⟩ := hr.not_due ((hleft n).mpr ⟨hn, hnot⟩)
      have hle : clk i ≤ clk (k + removed.length) := hclk (by omega)
      unfold TimerNode.Due at hdue hlast
      omega
  · intro n hn
    obtain ⟨hk, hnot⟩ := hr.not_due hn
    refine ⟨by omega, ?_⟩
    rw [hk, Nat.add_sub_cancel]
    exact hnot
  · unfold tick
    rw [hpop]
    simp only [hcbs, List.foldl_map]

/-! ### The time to the next expiry -/

/-- Callbacks that act on the timer through its functions keep the heap valid. -/
theorem valid_foldl_acting (clk : Nat → Int)
    (acts : β → UInt64 → HeapTimer β × Nat × ω → List (Call β) × ω) (fired : List (TimerNode β)) :
    ∀ {s : HeapTimer β × Nat × ω}, s.1.Valid →
      (fired.foldl (fun s n => acting clk acts n.cb n.id s) s).1.Valid := by
  -- The induction is on the callbacks; each makes calls that keep the heap.
  induction fired with
  | nil => intro s hv; exact hv
  | cons n fired ih =>
      intro s hv
      exact ih (valid_calls clk (acts n.cb n.id s).1 (s := (s.1, s.2.1)) hv)

theorem valid_tick {clk : Nat → Int} (hclk : Monotone clk)
    (acts : β → UInt64 → HeapTimer β × Nat × ω → List (Call β) × ω) {t : HeapTimer β}
    (hv : t.Valid) (k : Nat) (w : ω) : (tick clk (acting clk acts) t k w).1.Valid := by
  obtain ⟨removed, t', k', hv', hfires⟩ := firesExpired_tick hclk (acting clk acts) hv k w
  rw [hfires.run]
  exact valid_foldl_acting clk acts removed hv'

/-- What the result of `getNextTick` says of the timer that is left, when the clock shows
`now`. -/
structure NextTickRight (res : Int32) (t : HeapTimer β) (now : Int) : Prop where
  none_left : res = -1 ↔ t.nodes = []
  nonneg : t.nodes ≠ [] → 0 ≤ res.toInt
  /-- The result is no longer than the remaining time of any node that has not yet expired. -/
  le : ∀ n ∈ t.nodes, now < n.expires → MS res.toInt ≤ n.expires - now

/-- The milliseconds by which the expiry of the node is over. -/
def overdue (n : TimerNode β) (now : Int) : Int := -durationCastMS (n.expires - now)

/-- The `int` of the milliseconds to the expiry of the root does no harm: the root is overdue
by at most 2^31 milliseconds; or the `int` is not positive; or it is, and no node that has not
yet expired has less time left than it says. -/
def NarrowsRight (t : HeapTimer β) (now : Int) : Prop :=
  ∀ top, t.nodes[0]? = some top →
    overdue top now ≤ 2 ^ 31 ∨ overdue top now % 2 ^ 32 ≤ 2 ^ 31 ∨
      ∀ n ∈ t.nodes, now < n.expires → MS (2 ^ 32 - overdue top now % 2 ^ 32) ≤ n.expires - now

/-- `if(res < 0) res = 0;` on the `int` of a count of milliseconds. -/
theorem toInt_clip (d : Int) :
    (if Int32.ofInt d < 0 then 0 else Int32.ofInt d : Int32).toInt = max 0 (d.bmod (2 ^ 32)) := by
  have hlt : Int32.ofInt d < 0 ↔ d.bmod (2 ^ 32) < 0 := by
    rw [Int32.lt_iff_toInt_lt, Int32.toInt_ofInt]
    rfl
  -- The sign of the `int` is the sign of the residue.
  by_cases hneg : d.bmod (2 ^ 32) < 0
  · rw [if_pos (hlt.mpr hneg), max_eq_left (le_of_lt hneg)]
    rfl
  · rw [if_neg (fun h => hneg (hlt.mp h)), Int32.toInt_ofInt, max_eq_right (not_lt.mp hneg)]
    rfl

/-- A count that is not below the least `int` is clipped to zero or to at most itself. -/
theorem clip_of_ge {d : Int} (hd : -d ≤ 2 ^ 31) :
    max 0 (d.bmod (2 ^ 32)) = 0 ∨ max 0 (d.bmod (2 ^ 32)) ≤ d := by
  rw [Int.bmod_eq_emod]
  by_cases hneg : d < 0
  · left
    split <;> omega
  · right
    split <;> omega

/-- What becomes of any count. -/
theorem clip_eq (d : Int) :
    max 0 (d.bmod (2 ^ 32)) = if -d % 2 ^ 32 ≤ 2 ^ 31 then 0 else 2 ^ 32 - -d % 2 ^ 32 := by
  rw [Int.bmod_eq_emod]
  split <;> split <;> omega

/-- The result of `getNextTick` when the root `top` is left. -/
theorem nextTickRight_iff {t : HeapTimer β} (hv : t.Valid) {top : TimerNode β}
    (htop : t.nodes[0]? = some top) {now : Int} {res : Int32}
    (hres : res.toInt = max 0 ((durationCastMS (top.expires - now)).bmod (2 ^ 32))) :
    NextTickRight res t now ↔ NarrowsRight t now := by
  have hroot : ∀ n ∈ t.nodes, top.expires ≤ n.expires := fun n hn =>
    (hv.find_root htop).2 n.id n (hv.indexed.find_eq_some.mpr ⟨hn, rfl⟩)
  have hnonneg : 0 ≤ res.toInt := by
    rw [hres]
    exact le_max_left ..
  -- What is asked of the result is that it is not too long.
  have hright : NextTickRight res t now ↔
      ∀ n ∈ t.nodes, now < n.expires → MS res.toInt ≤ n.expires - now := by
    refine ⟨fun h => h.le, fun h => ⟨?_, fun _ => hnonneg, h⟩⟩
    constructor
    · intro hneg
      rw [hneg] at hnonneg
      exact absurd hnonneg (by decide)
    · intro hnil
      rw [hnil] at htop
      cases htop
  have hzero : res.toInt = 0 → ∀ n ∈ t.nodes, now < n.expires →
      MS res.toInt ≤ n.expires - now := by
    intro hzero n _ hlt
    rw [hzero]
    unfold MS
    omega
  have hnarrows : NarrowsRight t now ↔ overdue top now ≤ 2 ^ 31 ∨
      overdue top now % 2 ^ 32 ≤ 2 ^ 31 ∨ ∀ n ∈ t.nodes, now < n.expires →
        MS (2 ^ 32 - overdue top now % 2 ^ 32) ≤ n.expires - now := by
    constructor
    · intro h
      exact h top htop
    · intro h top' htop'
      rw [htop] at htop'
      obtain rfl := Option.some.inj htop'
      exact h
  rw [hright, hnarrows]
  unfold overdue
  generalize hd : durationCastMS (top.expires - now) = d at hres
  -- Down to the least `int` the conversion keeps the number.
  by_cases hge : -d ≤ 2 ^ 31
  · refine ⟨fun _ => .inl hge, fun _ => ?_⟩
    rcases clip_of_ge hge with hclip | hclip
    · exact hzero (hres.trans hclip)
    · intro n hn hlt
      have hle := hroot n hn
      by_cases hpos : now ≤ top.expires
      -- The root has `d` whole milliseconds left, and the node at least as many.
      · have hms : MS d ≤ top.expires - now := by
          rw [← hd]
          exact MS_durationCastMS_le (by omega)
        unfold MS at hms ⊢
        omega
      · have hdneg : d ≤ 0 := by
          rw [← hd, durationCastMS_nonpos_iff]
          unfold MS
          omega
        exact hzero (by omega) n hn hlt
  · have hclip := clip_eq d
    by_cases hmod : -d % 2 ^ 32 ≤ 2 ^ 31
    · rw [if_pos hmod] at hclip
      exact ⟨fun _ => .inr (.inl hmod), fun _ => hzero (hres.trans hclip)⟩
    · rw [if_neg hmod] at hclip
      rw [hres, hclip]
      exact ⟨fun h => .inr (.inr h), fun h => (h.resolve_left hge).resolve_left hmod⟩

theorem getNextTick_none {clk : Nat → Int}
    {call : β → UInt64 → HeapTimer β × Nat × ω → HeapTimer β × Nat × ω} {t : HeapTimer β} {k : Nat}
    {w : ω} (htop : (tick clk call t k w).1.nodes[0]? = none) :
    (getNextTick clk call t k w).1 = -1 := by
  unfold getNextTick
  generalize tick clk call t k w = s at htop ⊢
  obtain ⟨t', k', w'⟩ := s
  simp only at htop ⊢
  rw [htop]

theorem getNextTick_some {clk : Nat → Int}
    {call : β → UInt64 → HeapTimer β × Nat × ω → HeapTimer β × Nat × ω} {t : HeapTimer β} {k : Nat}
    {w : ω} {top : TimerNode β} (htop : (tick clk call t k w).1.nodes[0]? = some top) :
    (getNextTick clk call t k w).1.toInt = max 0 ((durationCastMS
      (top.expires - clk (tick clk call t k w).2.1)).bmod (2 ^ 32)) := by
  unfold getNextTick
  generalize tick clk call t k w = s at htop ⊢
  obtain ⟨t', k', w'⟩ := s
  simp only at htop ⊢
  rw [htop]
  exact toInt_clip _

/-- A tick fires exactly the due timers, and `getNextTick` is right exactly when the `int` of
the time to the next expiry does no harm. -/
theorem getNextTick_iff {clk : Nat → Int} (hclk : Monotone clk)
    (acts : β → UInt64 → HeapTimer β × Nat × ω → List (Call β) × ω) {t : HeapTimer β}
    (hv : t.Valid) (k : Nat) (w : ω) :
    let call := acting clk acts
    let s := tick clk call t k w
    ((∃ removed t' k', FiresExpired clk call t k w removed t' k') ∧
        NextTickRight (getNextTick clk call t k w).1 s.1 (clk s.2.1)) ↔
      NarrowsRight s.1 (clk s.2.1) := by
  intro call s
  obtain ⟨removed, t', k', -, hfires⟩ := firesExpired_tick hclk call hv k w
  rw [and_iff_right ⟨removed, t', k', hfires⟩]
  cases htop : s.1.nodes[0]? with
  -- The timer is empty, and the result is -1.
  | none =>
      have hnil : s.1.nodes = [] := by simpa using htop
      rw [getNextTick_none htop]
      constructor
      · intro _ top htop'
        rw [htop] at htop'
        cases htop'
      · intro _
        refine ⟨⟨fun _ => hnil, fun _ => rfl⟩, fun h => absurd hnil h, fun n hn => ?_⟩
        rw [hnil] at hn
        exact absurd hn List.not_mem_nil
  | some top => exact nextTickRight_iff (valid_tick hclk acts hv k w) htop (getNextTick_some htop)

/-- One reading in every millisecond. -/
def millisecondClock (k : Nat) : Int := MS k

theorem monotone_millisecondClock : Monotone millisecondClock := by
  intro i j hij
  unfold millisecondClock MS
  omega

/-- A timer with the id 1, which is due at once. -/
def dueTimer : HeapTimer Unit := (after millisecondClock [.push 1 0 ()]).1

theorem valid_dueTimer : dueTimer.Valid := valid_after ..

/-- A callback that starts its own timer again. -/
def startAgain (_ : Unit) (id : UInt64) (_ : HeapTimer Unit × Nat × Unit) :
    List (Call Unit) × Unit :=
  ([.push id 5 ()], ())

theorem getNextTick_iff_startAgain :
    let call := acting millisecondClock startAgain
    let s := tick millisecondClock call dueTimer 1 ()
    (∃ removed t' k', FiresExpired millisecondClock call dueTimer 1 () removed t' k') ∧
      NextTickRight (getNextTick millisecondClock call dueTimer 1 ()).1 s.1
        (millisecondClock s.2.1) := by
  refine (getNextTick_iff monotone_millisecondClock startAgain valid_dueTimer 1 ()).mpr ?_
  intro top htop
  -- The callback has started the timer again, five milliseconds from then.
  let s := tick millisecondClock (acting millisecondClock startAgain) dueTimer 1 ()
  have hroot : s.1.nodes[0]? = some { id := 1, expires := 7000000, cb := () } := by rfl
  obtain rfl := Option.some.inj (hroot.symm.trans htop)
  left
  decide

/-- A callback with a timeout that is negative, by as much as an `int` can be. -/
def startLongAgo (_ : Unit) (id : UInt64) (_ : HeapTimer Unit × Nat × Unit) :
    List (Call Unit) × Unit :=
  ([.push id (-2147483648) (), .push 2 5 ()], ())

/-- The timer 1 is overdue by two milliseconds more than the least `int`, and `getNextTick`
answers 2147483646, though the timer 2 has four milliseconds left. -/
theorem not_nextTickRight_startLongAgo :
    let call := acting millisecondClock startLongAgo
    let s := tick millisecondClock call dueTimer 1 ()
    ¬ ((∃ removed t' k', FiresExpired millisecondClock call dueTimer 1 () removed t' k') ∧
      NextTickRight (getNextTick millisecondClock call dueTimer 1 ()).1 s.1
        (millisecondClock s.2.1)) := by
  rintro call s ⟨-, hright⟩
  have hle := hright.le { id := 2, expires := 8000000, cb := () } (.tail _ (.head _)) (by decide)
  exact absurd hle (by decide)

end HeapTimer

end RegistrationCenter
