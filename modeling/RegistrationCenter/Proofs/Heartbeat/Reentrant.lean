import RegistrationCenter.Lib.Runs
import RegistrationCenter.Proofs.Heartbeat.Refinement

/-!
# `RegistrationCenter.Proofs.Heartbeat.Reentrant`: callbacks that act on the counter

A turn of the loop of `HeapHeartBeatCounter::tick` runs the callback of the root and pops the
root then. It does not ask whether the root is still the same one. The timer takes its nodes out
first and runs the callbacks then, so nothing that a callback does to the timer can make it lose
another node.

The counter is as good as long as the callbacks keep their own ids ahead in the counts, and it fails
when they let another id get ahead (`removesDying_of_keepsAhead`). Between the two there are only
ties: when the id at the root gives way to several others that have the same greatest count, it is
their positions in the heap that say which of them comes to the root. The callbacks may be any
functions that keep the heap valid, as all functions of the counter do (`valid_acting`).
-/

set_option autoImplicit false

namespace RegistrationCenter

open Lib IndexedHeap

variable {β ω : Type}

namespace HeapHeartBeatCounter

/-- The node whose callback a turn of the loop runs: the root, if it has reached the limit. -/
def dying (c : HeapHeartBeatCounter β) : Option (HeartBeatCounterNode β) :=
  match c.heap.nodes[0]? with
  | none => none
  | some top => if top.heartbeatCount < c.LIMIT then none else some top

theorem dying_eq_some {c : HeapHeartBeatCounter β} {top : HeartBeatCounterNode β}
    (htop : c.dying = some top) :
    c.heap.nodes[0]? = some top ∧ c.LIMIT ≤ top.heartbeatCount := by
  unfold dying at htop
  split at htop
  · cases htop
  · rename_i root hroot
    split at htop
    · cases htop
    case isFalse hge =>
      obtain rfl := Option.some.inj htop
      exact ⟨hroot, not_lt.mp hge⟩

/-! ## Who is ahead -/

/-- The id is in the counter, and no count is greater than its own. -/
def Leads (id : UInt64) (c : HeapHeartBeatCounter β) : Prop :=
  ∃ n, c.heap.find id = some n ∧
    ∀ d m, c.heap.find d = some m → m.heartbeatCount ≤ n.heartbeatCount

/-- The id is in the counter, and all other counts are smaller. -/
def Outruns (id : UInt64) (c : HeapHeartBeatCounter β) : Prop :=
  ∃ n, c.heap.find id = some n ∧
    ∀ d m, c.heap.find d = some m → d = id ∨ m.heartbeatCount < n.heartbeatCount

/-- The counter after a call that a callback makes. -/
def acted (c : HeapHeartBeatCounter β) (act : Call β) : HeapHeartBeatCounter β :=
  (call (fun _ _ w => w) (c, ()) act).1

/-- Some calls make the second counter out of the first, and the id leads before them and after
each one. -/
def LeadsTo (id : UInt64) (c c' : HeapHeartBeatCounter β) : Prop :=
  ∃ acts : List (Call β), AllStates acted (Leads id) c acts ∧ acts.foldl acted c = c'

variable {c : HeapHeartBeatCounter β} {top : HeartBeatCounterNode β}

theorem valid_acted (hv : c.heap.Valid) (act : Call β) : (c.acted act).heap.Valid :=
  (call_next (fun _ _ w => w) (s := (c, ())) hv act).1

/-- A tick finds nothing to do when the root is below the limit. -/
theorem tick_of_lt (htop : c.heap.nodes[0]? = some top) (hlt : top.heartbeatCount < c.LIMIT)
    (callback : β → UInt64 → ω → ω) (w : ω) : c.tick callback w = (c, w) := by
  have hloop : tickLoop (fun cb id s => (s.1, callback cb id s.2)) (c.heap.nodes.length + 1)
      (c, w) = some (c, w) := by
    rw [tickLoop, htop]
    exact if_pos hlt
  rw [tick, Option.get_of_eq_some _ hloop]

/-- The id at the root stays there in a call after which it still leads. -/
theorem root_acted (hv : c.heap.Valid) (htop : c.heap.nodes[0]? = some top) (act : Call β)
    (hleads : (c.acted act).Leads top.id) :
    ∃ b, (c.acted act).heap.nodes[0]? = some b ∧ b.id = top.id := by
  obtain ⟨n, hn, hgreatest⟩ := hleads
  have hid : n.id = top.id := ((valid_acted hv act).indexed.find_eq_some.mp hn).2
  have hleast : ∀ d m, (c.acted act).heap.find d = some m → HeapNode.key n ≤ HeapNode.key m :=
    fun d m hm => Int.neg_le_neg (hgreatest d m hm)
  cases act with
  | push id cb => exact ⟨n, hv.root_pushNode htop hn hleast, hid⟩
  | adjust id count =>
      have hkeep : ∀ m : HeartBeatCounterNode β,
          HeapNode.id { m with heartbeatCount := count } = HeapNode.id m := fun _ => rfl
      exact ⟨n, hv.root_modify hkeep htop hn hleast, hid⟩
  | addOne id =>
      have hkeep : ∀ m : HeartBeatCounterNode β,
          HeapNode.id { m with heartbeatCount := m.heartbeatCount + 1 } = HeapNode.id m :=
        fun _ => rfl
      exact ⟨n, hv.root_modify hkeep htop hn hleast, hid⟩
  -- The other calls take the id out, or do nothing.
  | pop =>
      have hfind : (c.acted .pop).heap.find = Function.update c.heap.find top.id none :=
        (hv.pop htop).2
      rw [hfind, Function.update_self] at hn
      cases hn
  | clear => cases hn
  | tick =>
      obtain ⟨-, -, -, -, -, -, hfind⟩ := call_next (fun _ _ w => w) (s := (c, ())) hv .tick
      have hfind : (c.acted .tick).heap.find top.id =
          (c.heap.find top.id).filter fun n => decide (n.heartbeatCount < c.LIMIT) :=
        congrFun hfind top.id
      have hroot : c.heap.find top.id = some top := (hv.find_root htop).1
      rw [hfind, hroot, Option.filter_eq_some_iff] at hn
      obtain ⟨rfl, hlt⟩ := And.imp_left Option.some.inj hn
      have hsame : c.acted .tick = c :=
        congrArg Prod.fst (tick_of_lt htop (of_decide_eq_true hlt) (fun _ _ w => w) ())
      rw [hsame]
      exact ⟨top, htop, rfl⟩

/-- An id that leads all the time stays at the root. -/
theorem LeadsTo.root {c' : HeapHeartBeatCounter β} (h : c.LeadsTo top.id c')
    (hv : c.heap.Valid) (htop : c.heap.nodes[0]? = some top) :
    ∃ b, c'.heap.nodes[0]? = some b ∧ b.id = top.id := by
  obtain ⟨acts, hleads, rfl⟩ := h
  induction acts generalizing c top with
  | nil => exact ⟨top, htop, rfl⟩
  | cons act acts ih =>
      obtain ⟨b, hb, hid⟩ := root_acted hv htop act hleads.2.head
      rw [← hid] at hleads ⊢
      exact ih (valid_acted hv act) hb hleads.2

/-- In a valid heap the root leads. -/
theorem leads_root (hv : c.heap.Valid) (htop : c.heap.nodes[0]? = some top) : c.Leads top.id := by
  obtain ⟨hfind, hleast⟩ := hv.find_root htop
  exact ⟨top, hfind, fun d m hm => Int.neg_le_neg_iff.mp (hleast d m hm)⟩

/-- An id that outruns the others is at the root. -/
theorem Outruns.root {id : UInt64} (h : c.Outruns id) (hv : c.heap.Valid) :
    ∃ b, c.heap.nodes[0]? = some b ∧ b.id = id := by
  obtain ⟨n, hn, hsmaller⟩ := h
  cases htop : c.heap.nodes[0]? with
  | none =>
      rw [hv.find_none_of_root_none htop] at hn
      cases hn
  | some top =>
      obtain ⟨m, hm, hgreatest⟩ := leads_root hv htop
      refine ⟨top, rfl, (hsmaller top.id m hm).resolve_right fun hlt => ?_⟩
      exact absurd (hgreatest id n hn) (not_le.mpr hlt)

end HeapHeartBeatCounter

open HeapHeartBeatCounter

/-! ## The turns of the loop -/

/-- A tick that is under way. -/
structure Ticking (β ω : Type) where
  counter : HeapHeartBeatCounter β
  world : ω
  /-- The ids whose callback has been run. -/
  ran : List UInt64
  /-- The counter at each turn so far, before the callback. -/
  turns : List (HeapHeartBeatCounter β)

namespace Ticking

variable (call : β → UInt64 → HeapHeartBeatCounter β × ω → HeapHeartBeatCounter β × ω)

/-- Before the first turn. -/
def start (c : HeapHeartBeatCounter β) (w : ω) : Ticking β ω :=
  { counter := c, world := w, ran := [], turns := [] }

/-- A turn of the loop. When the loop has ended, nothing happens. -/
def turn (s : Ticking β ω) (_ : Unit) : Ticking β ω :=
  match s.counter.dying with
  | none => s
  | some top =>
      let (c', w') := call top.cb top.id (s.counter, s.world)
      { counter := c'.pop
        world := w'
        ran := s.ran ++ [top.id]
        turns := s.turns ++ [s.counter] }

/-- The tick after this many turns. -/
def afterTurns (n : Nat) (s : Ticking β ω) : Ticking β ω :=
  (List.replicate n ()).foldl (turn call) s

variable {call}

theorem turn_of_none {s : Ticking β ω} (hnone : s.counter.dying = none) :
    s.turn call () = s := by
  rw [turn, hnone]

theorem afterTurns_of_none {s : Ticking β ω} (hnone : s.counter.dying = none) (n : Nat) :
    s.afterTurns call n = s := by
  induction n with
  | zero => rfl
  | succ n ih =>
      show (s.turn call ()).afterTurns call n = s
      rw [turn_of_none hnone, ih]

/-- The turns are those of the loop: with fuel for `n` turns, it ends exactly when they leave
nothing to do, and then in the state that they leave. -/
theorem tickLoop_eq : ∀ (n : Nat) (s : Ticking β ω),
    tickLoop call (n + 1) (s.counter, s.world) =
      if (s.afterTurns call n).counter.dying.isNone then
        some ((s.afterTurns call n).counter, (s.afterTurns call n).world)
      else none := by
  intro n
  -- The induction is on the turns; the turn that finds nothing to do takes a unit of fuel as well.
  induction n with
  | zero =>
      intro s
      show tickLoop call 1 (s.counter, s.world) =
        if s.counter.dying.isNone then some (s.counter, s.world) else none
      rw [tickLoop, dying]
      cases s.counter.heap.nodes[0]? with
      | none => rfl
      | some top =>
          by_cases hlt : top.heartbeatCount < s.counter.LIMIT
          · simp [hlt]
          · simp [hlt, tickLoop]
  | succ n ih =>
      intro s
      have hturn : tickLoop call (n + 2) (s.counter, s.world) =
          if s.counter.dying.isNone then some (s.counter, s.world)
          else tickLoop call (n + 1) ((s.turn call ()).counter, (s.turn call ()).world) := by
        rw [tickLoop, turn, dying]
        cases s.counter.heap.nodes[0]? with
        | none => rfl
        | some top =>
            by_cases hlt : top.heartbeatCount < s.counter.LIMIT
            · simp [hlt]
            · simp [hlt]
      rw [hturn]
      cases hdying : s.counter.dying with
      | none =>
          rw [afterTurns_of_none hdying, hdying]
          rfl
      | some top => exact ih (s.turn call ())

/-! ## What a tick removes -/

variable (call) in
/-- The turn removes an id: it is in the heap when the callback has run, and not after the
turn. -/
def Removes (s : Ticking β ω) (id : UInt64) : Prop :=
  ∃ top, s.counter.dying = some top ∧
    ((call top.cb top.id (s.counter, s.world)).1.heap.find id).isSome ∧
      (s.turn call ()).counter.heap.find id = none

variable (call) in
/-- What the turn removes has had its callback run in this tick, and has been at the limit. -/
def RemovesDying (s : Ticking β ω) (_ : Unit) : Prop :=
  ∀ id, s.Removes call id → id ∈ (s.turn call ()).ran ∧
    ∃ c ∈ (s.turn call ()).turns, ∃ n, c.heap.find id = some n ∧ c.LIMIT ≤ n.heartbeatCount

variable (call) in
/-- The callback keeps its id ahead all the time. Or it takes this id, or one whose callback has
run before, ahead of all others and keeps it ahead from then on. Or it leaves no other id ahead
in the end: each one has a smaller count than some id. -/
def KeepsAhead (s : Ticking β ω) (_ : Unit) : Prop :=
  ∀ top, s.counter.dying = some top →
    let c' := (call top.cb top.id (s.counter, s.world)).1
    s.counter.LeadsTo top.id c' ∨
      (∃ id, (id = top.id ∨ id ∈ s.ran) ∧ ∃ acts : List (Call β),
        (acts.foldl acted s.counter).Outruns id ∧ (acts.foldl acted s.counter).LeadsTo id c') ∨
      ∀ id n, c'.heap.find id = some n → id = top.id ∨ id ∈ s.ran ∨
        ∃ id' n', c'.heap.find id' = some n' ∧ n.heartbeatCount < n'.heartbeatCount

variable (call) in
/-- The callback lets an id whose callback has not run get ahead of all those whose callback
has. -/
def LetsAhead (s : Ticking β ω) (_ : Unit) : Prop :=
  ∃ top, s.counter.dying = some top ∧
    let c' := (call top.cb top.id (s.counter, s.world)).1
    ∃ id n, c'.heap.find id = some n ∧ id ≠ top.id ∧ id ∉ s.ran ∧
      ∀ id' n', id' = top.id ∨ id' ∈ s.ran → c'.heap.find id' = some n' →
        n'.heartbeatCount < n.heartbeatCount

variable (call) in
/-- The callback leaves at the root the id that it is run for, or one whose callback has run
before in this tick. -/
def LeavesOnTop (s : Ticking β ω) (_ : Unit) : Prop :=
  ∀ top, s.counter.dying = some top →
    ∀ next, (call top.cb top.id (s.counter, s.world)).1.heap.nodes[0]? = some next →
      next.id = top.id ∨ next.id ∈ s.ran

/-- The invariant of a tick. -/
structure Sound (s : Ticking β ω) : Prop where
  valid : s.counter.heap.Valid
  dead : ∀ id ∈ s.ran, ∃ c ∈ s.turns, ∃ n, c.heap.find id = some n ∧ c.LIMIT ≤ n.heartbeatCount

variable (call) in
/-- What a turn adds, when the root has reached the limit. -/
theorem turn_of_some {s : Ticking β ω} {top : HeartBeatCounterNode β}
    (htop : s.counter.dying = some top) :
    let c' := (call top.cb top.id (s.counter, s.world)).1
    (s.turn call ()).counter = c'.pop ∧ (s.turn call ()).ran = s.ran ++ [top.id] ∧
      (s.turn call ()).turns = s.turns ++ [s.counter] := by
  rw [turn, htop]
  exact ⟨rfl, rfl, rfl⟩

theorem sound_start {c : HeapHeartBeatCounter β} (hv : c.heap.Valid) (w : ω) :
    (start c w).Sound where
  valid := hv
  dead _ hid := absurd hid List.not_mem_nil

section
variable (hcall : ∀ cb id s, s.1.heap.Valid → (call cb id s).1.heap.Valid) {s : Ticking β ω}
include hcall

theorem Sound.turn (h : s.Sound) (e : Unit) : (s.turn call e).Sound := by
  cases hdying : s.counter.dying with
  | none => rwa [turn_of_none hdying]
  | some top =>
      obtain ⟨hcounter, hran, hturns⟩ := turn_of_some call hdying
      obtain ⟨hroot, hge⟩ := dying_eq_some hdying
      refine ⟨?_, fun id hid => ?_⟩
      · rw [hcounter]
        exact (hcall top.cb top.id (s.counter, s.world) h.valid).popsLeast.1
      · rw [hran, List.mem_append, List.mem_singleton] at hid
        rw [hturns]
        rcases hid with hid | rfl
        · obtain ⟨c, hc, hn⟩ := h.dead id hid
          exact ⟨c, List.mem_append_left _ hc, hn⟩
        · exact ⟨s.counter, List.mem_append_right _ (List.mem_singleton.mpr rfl), top,
            (h.valid.find_root hroot).1, hge⟩

/-- What a turn removes is what the callback has left at the root. -/
theorem Sound.removes_iff (h : s.Sound) {top : HeartBeatCounterNode β}
    (htop : s.counter.dying = some top) (id : UInt64) :
    s.Removes call id ↔
      ∃ next, (call top.cb top.id (s.counter, s.world)).1.heap.nodes[0]? = some next ∧
        next.id = id := by
  have hremoves : s.Removes call id ↔
      ((call top.cb top.id (s.counter, s.world)).1.heap.find id).isSome ∧
        (s.turn call ()).counter.heap.find id = none :=
    ⟨fun ⟨_, hother, hfind⟩ => Option.some.inj (htop.symm.trans hother) ▸ hfind,
      fun hfind => ⟨top, htop, hfind⟩⟩
  have hv' := hcall top.cb top.id (s.counter, s.world) h.valid
  rw [hremoves, (turn_of_some call htop).1]
  generalize (call top.cb top.id (s.counter, s.world)).1 = c' at hv'
  cases hnext : c'.heap.nodes[0]? with
  | none =>
      rw [hv'.find_none_of_root_none hnext]
      simp
  | some next =>
      have hfind : c'.heap.find next.id = some next := (hv'.find_root hnext).1
      have hpop : c'.pop.heap.find = Function.update c'.heap.find next.id none :=
        (hv'.pop hnext).2
      rw [hpop]
      by_cases hid : id = next.id
      · subst hid
        simp [hfind]
      · simp [hid, Ne.symm hid, Option.isSome_iff_ne_none]

/-- A turn removes only what it may exactly when the callback leaves such an id at the root. -/
theorem Sound.removesDying_iff (h : s.Sound) (e : Unit) :
    s.RemovesDying call e ↔ s.LeavesOnTop call e := by
  constructor
  · intro hremoves top htop next hnext
    obtain ⟨hran, -⟩ := hremoves next.id ((h.removes_iff hcall htop _).mpr ⟨next, hnext, rfl⟩)
    rw [(turn_of_some call htop).2.1, List.mem_append, List.mem_singleton] at hran
    exact hran.symm
  · intro htops id hremoved
    have hsound := h.turn hcall e
    have ⟨top, htop, _⟩ := hremoved
    obtain ⟨next, hnext, rfl⟩ := (h.removes_iff hcall htop id).mp hremoved
    have hran : next.id ∈ (s.turn call e).ran := by
      rw [(turn_of_some call htop).2.1, List.mem_append, List.mem_singleton]
      exact (htops top htop next hnext).symm
    exact ⟨hran, hsound.dead next.id hran⟩

/-- An id that leads all the time is at the root, and an id that has a smaller count than another
one is not. -/
theorem Sound.leavesOnTop (h : s.Sound) {e : Unit} (hahead : s.KeepsAhead call e) :
    s.LeavesOnTop call e := by
  intro top htop next hnext
  rcases hahead top htop with hleads | ⟨id, hid, acts, houtruns, hleads⟩ | hgreatest
  · obtain ⟨b, hb, hid⟩ := hleads.root h.valid (dying_eq_some htop).1
    obtain rfl := Option.some.inj (hb.symm.trans hnext)
    exact .inl hid
  · have hkeep : ∀ (c : HeapHeartBeatCounter β) (act : Call β), c.heap.Valid →
        (c.acted act).heap.Valid := fun _ act hv => valid_acted hv act
    have hv : (acts.foldl acted s.counter).heap.Valid := inv_foldl hkeep acts h.valid
    obtain ⟨first, hfirst, rfl⟩ := houtruns.root hv
    obtain ⟨b, hb, hsame⟩ := hleads.root hv hfirst
    obtain rfl := Option.some.inj (hb.symm.trans hnext)
    rwa [hsame]
  · have hv' := hcall top.cb top.id (s.counter, s.world) h.valid
    obtain ⟨n, hfind, hmax⟩ := leads_root hv' hnext
    rcases hgreatest next.id n hfind with hid | hran | ⟨id', n', hn', hlt⟩
    · exact .inl hid
    · exact .inr hran
    · exact absurd (hmax id' n' hn') (not_le.mpr hlt)

/-- An id that is ahead of all those that may be at the root has one ahead of them at the root. -/
theorem Sound.not_leavesOnTop (h : s.Sound) {e : Unit} (hahead : s.LetsAhead call e) :
    ¬ s.LeavesOnTop call e := by
  intro htops
  obtain ⟨top, htop, id, n, hfind, -, -, hgreater⟩ := hahead
  have hv' := hcall top.cb top.id (s.counter, s.world) h.valid
  cases hnext : (call top.cb top.id (s.counter, s.world)).1.heap.nodes[0]? with
  | none =>
      rw [hv'.find_none_of_root_none hnext] at hfind
      cases hfind
  | some next =>
      obtain ⟨m, hm, hmax⟩ := leads_root hv' hnext
      have hlt := hgreater next.id m (htops top htop next hnext) hm
      exact absurd (hmax id n hfind) (not_le.mpr hlt)

end

/-- The turns are those of the loop of `tick`. As long as each callback keeps its own id ahead,
they remove only ids whose callback has been run, and none whose count stayed below the limit.
They do not when a callback lets another id get ahead. This is said of any number of turns,
since the callbacks may keep the loop from ending. -/
theorem removesDying_of_keepsAhead
    (call : β → UInt64 → HeapHeartBeatCounter β × ω → HeapHeartBeatCounter β × ω)
    (hcall : ∀ cb id s, s.1.heap.Valid → (call cb id s).1.heap.Valid)
    {c : HeapHeartBeatCounter β} (hv : c.heap.Valid) (w : ω) (n : Nat) :
    (tickLoop call (n + 1) (c, w) =
      if ((start c w).afterTurns call n).counter.dying.isNone then
        some (((start c w).afterTurns call n).counter, ((start c w).afterTurns call n).world)
      else none) ∧
    (StepsMeet (turn call) (KeepsAhead call) (start c w) (List.replicate n ()) →
      StepsMeet (turn call) (RemovesDying call) (start c w) (List.replicate n ())) ∧
    (StepsMeet (turn call) (RemovesDying call) (start c w) (List.replicate n ()) →
      StepsMeet (turn call) (fun s e => ¬ s.LetsAhead call e) (start c w)
        (List.replicate n ())) := by
  have hkeep : ∀ (C : Ticking β ω → Unit → Prop) s e, s.Sound → C s e → (s.turn call e).Sound :=
    fun _ s e h _ => h.turn hcall e
  refine ⟨tickLoop_eq n (start c w), fun hahead => ?_, fun hremoves => ?_⟩
  · exact StepsMeet.imp (hkeep _)
      (fun s e h ha => (h.removesDying_iff hcall e).mpr (h.leavesOnTop hcall ha))
      (sound_start hv w) hahead
  · exact StepsMeet.imp (hkeep _)
      (fun s e h hr ha => h.not_leavesOnTop hcall ha ((h.removesDying_iff hcall e).mp hr))
      (sound_start hv w) hremoves

/-! ## Callbacks that call the counter -/

/-- Callbacks that act on the counter through its functions. `acts cb id s` are the calls that the
callback `cb` makes for `id` in the state `s`, and the world after them. -/
def acting (callback : β → UInt64 → ω → ω)
    (acts : β → UInt64 → HeapHeartBeatCounter β × ω → List (Call β) × ω) (cb : β) (id : UInt64)
    (s : HeapHeartBeatCounter β × ω) : HeapHeartBeatCounter β × ω :=
  let (calls, w) := acts cb id s
  calls.foldl (HeapHeartBeatCounter.call callback) (s.1, w)

theorem valid_acting (callback : β → UInt64 → ω → ω)
    (acts : β → UInt64 → HeapHeartBeatCounter β × ω → List (Call β) × ω) (cb : β) (id : UInt64)
    (s : HeapHeartBeatCounter β × ω) (hv : s.1.heap.Valid) :
    (acting callback acts cb id s).1.heap.Valid := by
  have hkeep : ∀ (s : HeapHeartBeatCounter β × ω) (call : Call β), s.1.heap.Valid →
      (HeapHeartBeatCounter.call callback s call).1.heap.Valid := fun s call hv =>
    (call_next callback hv call).1
  have hstart : ((s.1, (acts cb id s).2) : HeapHeartBeatCounter β × ω).1.heap.Valid := hv
  exact inv_foldl hkeep _ hstart

/-- A counter with the limit 2, in which 1 has reached the limit and 2 has missed one beat. -/
def oneDying : HeapHeartBeatCounter Unit :=
  (after (fun _ _ w => w) 2 () [.push 1 (), .push 2 (), .addOne 1, .addOne 1, .addOne 2]).1

theorem valid_oneDying : oneDying.heap.Valid := (valid_after ..).1

/-- A callback that registers 3, and reports that 2 has missed one beat more. -/
def reportOthers (_ : Unit) (_ : UInt64) (_ : HeapHeartBeatCounter Unit × Unit) :
    List (Call Unit) × Unit :=
  ([.push 3 (), .addOne 2], ())

/-- The id 1 dies. Its callback takes 2 to the same count, and 1 is the one that is removed. Then 2
dies. -/
theorem removesDying_of_keepsAhead_reportOthers :
    StepsMeet (turn (acting (fun _ _ w => w) reportOthers))
      (RemovesDying (acting (fun _ _ w => w) reportOthers)) (start oneDying ())
      (List.replicate 2 ()) := by
  have hcall := valid_acting (ω := Unit) (fun _ _ w => w) reportOthers
  have hvalid := (sound_start valid_oneDying ()).turn hcall ()
  refine (removesDying_of_keepsAhead _ hcall valid_oneDying () 2).2.1 ⟨?_, ?_, trivial⟩
  · intro top htop
    cases htop
    exact .inl ⟨[.push 3 (), .addOne 2], ⟨leads_root valid_oneDying rfl,
      leads_root (valid_acted valid_oneDying _) rfl,
      leads_root (valid_acted (valid_acted valid_oneDying _) _) rfl⟩, rfl⟩
  · intro top htop
    have hlast : Leads 2 ((((start oneDying ()).turn (acting (fun _ _ w => w) reportOthers)
        ()).counter.acted (.push 3 ())).acted (.addOne 2)) := by
      have hroot : ((((start oneDying ()).turn (acting (fun _ _ w => w) reportOthers)
          ()).counter.acted (.push 3 ())).acted (.addOne 2)).heap.nodes[0]? =
            some { id := 2, heartbeatCount := 3, cb := () } := rfl
      exact leads_root (valid_acted (valid_acted hvalid.valid _) _) hroot
    cases htop
    exact .inl ⟨[.push 3 (), .addOne 2], ⟨leads_root hvalid.valid rfl,
      leads_root (valid_acted hvalid.valid _) rfl, hlast⟩, rfl⟩

/-- A callback that registers its id again. -/
def registerAgain (_ : Unit) (id : UInt64) (_ : HeapHeartBeatCounter Unit × Unit) :
    List (Call Unit) × Unit :=
  ([.push id ()], ())

/-- The id 1 dies and is registered again, and the tick removes 2. -/
theorem not_removesDying_registerAgain :
    ¬ StepsMeet (turn (acting (fun _ _ w => w) registerAgain))
      (RemovesDying (acting (fun _ _ w => w) registerAgain)) (start oneDying ())
      (List.replicate 1 ()) := by
  intro h
  have hremoves : (start oneDying ()).Removes (acting (fun _ _ w => w) registerAgain) 2 :=
    ⟨{ id := 1, heartbeatCount := 2, cb := () }, rfl, rfl, rfl⟩
  exact absurd (h.1 2 hremoves).1 (by decide)

end Ticking

end RegistrationCenter
