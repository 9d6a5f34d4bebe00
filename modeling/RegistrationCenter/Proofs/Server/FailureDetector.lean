import Mathlib.Tactic.Ring
import RegistrationCenter.Proofs.Server.Registry

/-!
# `RegistrationCenter.Proofs.Server.FailureDetector`: when a silent session dies

A session is silent in a step that neither hands out its id nor is a heartbeat with it. On the
registry, a silent session only goes on from one period to the next, in a tick, until it is
dropped (`Next.silent_cases`). Two bounds follow, and with the refinement they are bounds for
the server. A session last heard of at some moment lives for as long as no tick ends later than
`max_heartbeat` periods after it, less a millisecond each. When ticks come at most `gap` apart,
it is dead after the first tick that starts later than `max_heartbeat` periods and
`max_heartbeat - 1` gaps after it: `detection_window`. The end of a tick is the next reading of
the clock after it.

Nothing bounds the gaps in general. But in every infinite run in which ticks go on and the clock
goes on, a session that stays silent dies, and it stays dead: `eventually_dead`.
-/

set_option autoImplicit false

namespace RegistrationCenter

open Lib

namespace Registry

/-- The step brings no sign of life of the session. -/
def Label.Silent (id : UInt64) (l : Label) : Prop :=
  match l.event with
  | .message demand => demand = .connection → l.sessionId ≠ id
  | .heartbeat d => d ≠ id
  | .tick => True

def Label.isTick (l : Label) : Bool :=
  match l.event with
  | .message _ => false
  | .heartbeat _ => false
  | .tick => true

/-- The start of the last tick, with `last` for that of the one before the step. -/
def Label.mark (last : Int) (l : Label) : Int := if l.isTick then l.start else last

def lastTick (last : Int) (ls : List Label) : Int := ls.foldl Label.mark last

/-- From one tick to the end of the next it is no longer than `gap`. -/
def Ticking (gap : Int) : Int → List Label → Prop
  | _, [] => True
  | last, l :: ls => (l.isTick = true → l.stop ≤ last + gap) ∧ Ticking gap (l.mark last) ls

variable {period limit : Int} {r r' : Registry} {l : Label} {id : UInt64}

/-- A session that a tick does not drop. -/
def kept (limit : Int) (life : LiveSession) : Option LiveSession :=
  if limit ≤ life.missed then none else some life

/-- What a step makes of a silent session. -/
inductive SilentStep (period limit : Int) (l : Label) :
    Option LiveSession → Option LiveSession → Prop
  | other (life : Option LiveSession) (htick : l.isTick = false) :
      SilentStep period limit l life life
  | dead : SilentStep period limit l none none
  -- The period runs on in a tick.
  | runs (life : LiveSession) (htick : l.isTick = true) (hover : l.start + MS 1 ≤ life.expires) :
      SilentStep period limit l (some life) (kept limit life)
  -- One period is over, and the next one starts.
  | missed (life : LiveSession) (moment : Int) (htick : l.isTick = true)
      (hmoment : l.start ≤ moment ∧ moment ≤ l.stop) (hover : life.expires < moment + MS 1) :
      SilentStep period limit l (some life)
        (kept limit { missed := life.missed + 1, expires := moment + MS period })

theorem Next.silent_step (h : r.Next period limit l r') (hsilent : l.Silent id) :
    SilentStep period limit l (r.sessions id) (r'.sessions id) := by
  cases h with
  | message start stop sessionId demand response r' hanswered =>
      cases hanswered with
      | connection =>
          have hne : sessionId ≠ id := hsilent rfl
          have hsame : (r.opened period start sessionId).sessions id = r.sessions id :=
            Function.update_of_ne hne.symm _ _
          rw [hsame]
          exact .other _ rfl
      | service request response hanswers => exact .other _ rfl
      | unreadable operation => exact .other _ rfl
      | refused reason => exact .other _ rfl
  | heartbeat start stop sessionId d =>
      have hne : d ≠ id := hsilent
      have hsame : (r.beaten period start d).sessions id = r.sessions id :=
        Function.update_of_ne hne.symm _ _
      rw [hsame]
      exact .other _ rfl
  | tick start stop sessionId due moment hdue =>
      show SilentStep _ _ _ _ ((r.sessions id).bind _)
      cases hl : r.sessions id with
      | none => exact .dead
      | some life =>
          rw [Option.bind_some, afterPeriod, counted]
          by_cases hid : id ∈ due
          · obtain ⟨life', hlife', hover⟩ := hdue.ranOut id hid
            obtain rfl := Option.some.inj (hl.symm.trans hlife')
            simp only [if_pos hid]
            exact .missed life (moment id) rfl (hdue.moments id hid) hover
          · simp only [if_neg hid]
            exact .runs life rfl (not_lt.mp fun hover => hid (hdue.all id life hl hover))

/-! ### No later than -/

/-- With ticks at most `gap` apart from now on, the session is dropped by the moment `bound`. -/
structure BoundedBy (period limit gap bound last : Int) (life : LiveSession) : Prop where
  missed : life.missed < limit
  last : last ≤ life.expires
  bound : life.expires + (limit - 1 - life.missed) * (MS period + gap) ≤ bound

variable {gap bound last : Int}

theorem SilentStep.boundedBy (hperiod : 0 ≤ period) {life life' : Option LiveSession}
    (h : SilentStep period limit l life life') (hgap : l.isTick = true → l.stop ≤ last + gap)
    (hlife : ∀ x, life = some x → BoundedBy period limit gap bound last x) :
    ∀ x, life' = some x → BoundedBy period limit gap bound (l.mark last) x := by
  have hms : ∀ n, MS n = n * 1000000 := fun n => rfl
  intro x hx
  cases h with
  | other life htick =>
      rw [Label.mark, htick]
      exact hlife x hx
  | dead => cases hx
  | runs life htick hover =>
      obtain ⟨hmissed, hlast, hbound⟩ := hlife life rfl
      rw [kept, if_neg (not_le.mpr hmissed), Option.some.injEq] at hx
      subst hx
      rw [Label.mark, if_pos htick]
      refine ⟨hmissed, ?_, hbound⟩
      have h1 := hms 1
      omega
  | missed life moment htick hmoment hover =>
      obtain ⟨hmissed, hlast, hbound⟩ := hlife life rfl
      rw [kept] at hx
      split at hx
      · cases hx
      case isFalse hnot =>
        rw [Option.some.injEq] at hx
        subst hx
        rw [Label.mark, if_pos htick]
        have hstop := hgap htick
        refine ⟨not_le.mp hnot, ?_, ?_⟩
        · show l.start ≤ moment + MS period
          have hp := hms period
          omega
        -- The next period starts no later than a gap after the end of this one.
        · show moment + MS period + (limit - 1 - (life.missed + 1)) * (MS period + gap) ≤ bound
          have hone : (limit - 1 - (life.missed + 1)) * (MS period + gap) =
              (limit - 1 - life.missed) * (MS period + gap) - (MS period + gap) := by ring
          rw [hone]
          omega

/-- In a run of the registry in which the session is silent. -/
theorem boundedBy_run (hperiod : 0 ≤ period) {ls : List Label}
    (h : Run (Next period limit) r ls r') : ∀ {last : Int}, (∀ l ∈ ls, l.Silent id) →
      Ticking gap last ls →
      (∀ x, r.sessions id = some x → BoundedBy period limit gap bound last x) →
      ∀ x, r'.sessions id = some x → BoundedBy period limit gap bound (lastTick last ls) x := by
  induction h with
  | nil r => intro last _ _ hr; exact hr
  | cons head tail ih =>
      intro last hsilent hticking hr
      rw [List.forall_mem_cons] at hsilent
      exact ih hsilent.2 hticking.2
        ((head.silent_step hsilent.1).boundedBy hperiod hticking.1 hr)

/-- A session that lives has not come to its bound. -/
theorem BoundedBy.last_le (hperiod : 0 ≤ period) (hgap : 0 ≤ gap) {life : LiveSession}
    (h : BoundedBy period limit gap bound last life) : last ≤ bound := by
  have hrest : 0 ≤ (limit - 1 - life.missed) * (MS period + gap) := by
    have hmissed := h.missed
    have hms : MS period = period * 1000000 := rfl
    refine mul_nonneg ?_ ?_
    · omega
    · omega
  have hlast := h.last
  have hbound := h.bound
  omega

/-! ### No sooner than -/

/-- The periods that the session has missed since it was heard of have passed. -/
structure Lived (period limit heard : Int) (life : LiveSession) : Prop where
  missed : life.missed < limit
  passed : heard + life.missed * MS (period - 1) + MS period ≤ life.expires

variable {heard : Int}

/-- A session that is heard of starts with no period missed. -/
theorem lived_firstPeriod (hlimit : 1 ≤ limit) :
    Lived period limit heard (firstPeriod period heard) := by
  refine ⟨show (0 : Int) < limit by omega, ?_⟩
  show heard + 0 * MS (period - 1) + MS period ≤ heard + MS period
  omega

theorem SilentStep.lived {life : LiveSession} {life' : Option LiveSession}
    (h : SilentStep period limit l (some life) life') (hlife : Lived period limit heard life)
    (hperiod : 1 ≤ period)
    (hstop : l.isTick = true → l.stop ≤ heard + limit * MS (period - 1)) :
    ∃ x, life' = some x ∧ Lived period limit heard x := by
  cases h with
  | other life htick => exact ⟨life, rfl, hlife⟩
  | runs life htick hover => exact ⟨life, if_neg (not_le.mpr hlife.missed), hlife⟩
  | missed life moment htick hmoment hover =>
      have hpassed := hlife.passed
      have hms : MS period = MS (period - 1) + MS 1 := by
        unfold MS
        ring
      -- The moment is past the end of one period more.
      have hpast : heard + (life.missed + 1) * MS (period - 1) < moment := by
        have hone : (life.missed + 1) * MS (period - 1) =
            life.missed * MS (period - 1) + MS (period - 1) := by ring
        rw [hone]
        omega
      have hbefore := hmoment.2.trans (hstop htick)
      have hmissed : life.missed + 1 < limit := by
        by_contra hge
        have hle : limit * MS (period - 1) ≤ (life.missed + 1) * MS (period - 1) := by
          refine mul_le_mul_of_nonneg_right (not_lt.mp hge) ?_
          show 0 ≤ (period - 1) * 1000000
          omega
        omega
      refine ⟨_, if_neg (not_le.mpr hmissed), hmissed, ?_⟩
      show heard + (life.missed + 1) * MS (period - 1) + MS period ≤ moment + MS period
      omega

theorem lived_run (hperiod : 1 ≤ period) {ls : List Label}
    (h : Run (Next period limit) r ls r') : (∀ l ∈ ls, l.Silent id) →
      (∀ l ∈ ls, l.isTick = true → l.stop ≤ heard + limit * MS (period - 1)) →
      (∃ x, r.sessions id = some x ∧ Lived period limit heard x) →
      ∃ x, r'.sessions id = some x ∧ Lived period limit heard x := by
  intro hsilent hstops hr
  refine Run.keeps (P := fun r => ∃ x, r.sessions id = some x ∧ Lived period limit heard x) h ?_ hr
  intro l hl c d hnext hc
  obtain ⟨x, hx, hlived⟩ := hc
  have hstep := hnext.silent_step (hsilent l hl)
  rw [hx] at hstep
  exact hstep.lived hlived hperiod (hstops l hl)

/-! ### In the end -/

/-- The periods that the session may still miss, and one for its death. -/
def remaining (limit : Int) : Option LiveSession → Nat
  | none => 0
  | some life => (limit - life.missed).toNat + 1

/-- A step that changes a silent session takes something of what it has left. -/
theorem SilentStep.remaining_lt {life life' : Option LiveSession}
    (h : SilentStep period limit l life life') :
    life' = life ∨ remaining limit life' < remaining limit life := by
  cases h with
  | other life htick => exact .inl rfl
  | dead => exact .inl rfl
  | runs life htick hover =>
      rw [kept]
      split
      · exact .inr (Nat.succ_pos _)
      · exact .inl rfl
  | missed life moment htick hmoment hover =>
      refine .inr ?_
      rw [kept]
      split
      · exact Nat.succ_pos _
      case isFalse hnot =>
        have hnot : ¬ limit ≤ life.missed + 1 := hnot
        show (limit - (life.missed + 1)).toNat + 1 < (limit - life.missed).toNat + 1
        omega

/-- A tick that finds the period of a silent session over changes the session. -/
theorem SilentStep.changes {life : LiveSession} {life' : Option LiveSession}
    (h : SilentStep period limit l (some life) life') (htick : l.isTick = true)
    (hover : life.expires ≤ l.start) : life' ≠ some life := by
  cases h with
  | other life hno =>
      rw [htick] at hno
      cases hno
  | runs life htick hruns =>
      have hms : MS 1 = 1000000 := rfl
      omega
  | missed life moment htick hmoment hlt =>
      rw [kept]
      split
      · exact (Option.some_ne_none _).symm
      · intro heq
        have hmissed := congrArg LiveSession.missed (Option.some.inj heq)
        have hmissed : life.missed + 1 = life.missed := hmissed
        omega

theorem SilentStep.dead_iff {life' : Option LiveSession}
    (h : SilentStep period limit l none life') : life' = none := by
  cases h with
  | other life htick => rfl
  | dead => rfl

end Registry

/-! ## The server -/

namespace SRCServer

variable {env : Environment} {timeout max_heartbeat : Int}

/-- The event is a sign of life of the session: it hands out its id, or it is a heartbeat with
it, and the session lives. -/
def Contact (env : Environment) (s : SRCServer) (id : UInt64) : Event → Prop
  | .message _ buffer =>
      Demand.parse buffer.readable = .connection ∧ env.generateSessionId s.generated = id
  | .heartbeat sessionId => sessionId = id ∧ s.m_sessionManager.exist id = true
  | .tick => False

/-- After a sign of life the first period of the session runs. -/
theorem Consistent.contact {s : SRCServer} (hs : s.Consistent timeout max_heartbeat)
    (hclk : Monotone env.now) {id : UInt64} {event : Event} (hcontact : s.Contact env id event) :
    (s.step env event).registry.sessions id =
      some (Registry.firstPeriod timeout (env.now s.m_heartbeatCounter.reads)) := by
  obtain ⟨-, hnext⟩ := next_registry hclk s event hs
  cases event with
  | message peerAddress buffer =>
      obtain ⟨hdemand, hid⟩ := hcontact
      subst hid
      obtain ⟨-, hanswered⟩ := hs.onData env peerAddress buffer.readable
      have hstep : s.step env (.message peerAddress buffer) =
          (s.onData env peerAddress buffer.readable).2 := by rw [SRCServer.step, onMessage_eq]
      rw [hdemand] at hanswered
      rw [hstep]
      generalize (s.onData env peerAddress buffer.readable).1 = response at hanswered
      generalize (s.onData env peerAddress buffer.readable).2.registry = r at hanswered ⊢
      cases hanswered
      exact Function.update_self ..
  | heartbeat sessionId =>
      obtain ⟨rfl, hexist⟩ := hcontact
      rw [hs.exist_eq] at hexist
      obtain ⟨life, hlife⟩ := Option.isSome_iff_exists.mp hexist
      generalize (s.step env (.heartbeat sessionId)).registry = r at hnext ⊢
      cases hnext
      have hbeaten : (s.registry.beaten timeout (env.now s.m_heartbeatCounter.reads)
          sessionId).sessions sessionId = (s.registry.sessions sessionId).map fun _ =>
            Registry.firstPeriod timeout (env.now s.m_heartbeatCounter.reads) :=
        Function.update_self ..
      rw [hbeaten, hlife, Option.map_some]
  | tick => exact False.elim hcontact

/-- A session is heard of in a reachable state of the server, and is silent from then on. As
long as no tick ends later than `max_heartbeat` periods after it was heard of, each a
millisecond short, it lives. When from one tick to the end of the next it is no longer than
`gap`, the session is dead once a tick has started later than `max_heartbeat` periods and
`max_heartbeat - 1` gaps after it was heard of. A tick starts at its first reading of the clock,
and ends at the first one after it. -/
theorem detection_window (env : Environment) (hclk : Monotone env.now)
    (timeout max_heartbeat : Int) (htimeout : 1 ≤ timeout) (hmax : 1 ≤ max_heartbeat)
    (before : List Event) (contact : Event) (id : UInt64) (after : List Event) :
    let s := before.foldl (step env) (init timeout max_heartbeat)
    let heard := env.now s.m_heartbeatCounter.reads
    let labels := trace (step env) (label env) (s.step env contact) after
    let s' := after.foldl (step env) (s.step env contact)
    s.Contact env id contact → (∀ l ∈ labels, l.Silent id) →
      ((∀ l ∈ labels, l.isTick = true → l.stop ≤ heard + max_heartbeat * MS (timeout - 1)) →
        s'.m_sessionManager.exist id = true) ∧
      ∀ gap, 0 ≤ gap → Registry.Ticking gap heard labels →
        heard + max_heartbeat * MS timeout + (max_heartbeat - 1) * gap <
          Registry.lastTick heard labels →
        s'.m_sessionManager.exist id = false := by
  intro s heard labels s' hcontact hsilent
  have hs : s.Consistent timeout max_heartbeat :=
    inv_foldl (consistent_step hclk) before (consistent_init timeout max_heartbeat)
  have hs₁ := consistent_step hclk s contact hs
  have hs' : s'.Consistent timeout max_heartbeat := inv_foldl (consistent_step hclk) after hs₁
  have hrun : Run (Registry.Next timeout max_heartbeat) (s.step env contact).registry labels
      s'.registry := hs₁.run hclk after
  have hfirst := hs.contact hclk hcontact
  have hms : MS timeout = timeout * 1000000 := rfl
  constructor
  · intro hstops
    obtain ⟨x, hx, -⟩ := Registry.lived_run htimeout hrun hsilent hstops
      ⟨_, hfirst, Registry.lived_firstPeriod hmax⟩
    rw [hs'.exist_eq, hx]
    rfl
  · intro gap hgap hticking hlate
    have hperiod : 0 ≤ timeout := by omega
    have hbounded : Registry.BoundedBy timeout max_heartbeat gap
        (heard + max_heartbeat * MS timeout + (max_heartbeat - 1) * gap) heard
        (Registry.firstPeriod timeout heard) := by
      refine ⟨show (0 : Int) < max_heartbeat by omega, ?_, ?_⟩
      · show heard ≤ heard + MS timeout
        omega
      · show heard + MS timeout + (max_heartbeat - 1 - 0) * (MS timeout + gap) ≤ _
        have hexpand : (max_heartbeat - 1 - 0) * (MS timeout + gap) =
            max_heartbeat * MS timeout - MS timeout + (max_heartbeat - 1) * gap := by ring
        rw [hexpand]
        omega
    have hend := Registry.boundedBy_run hperiod hrun hsilent hticking
      fun y hy => Option.some.inj (hfirst.symm.trans hy) ▸ hbounded
    rw [hs'.exist_eq, Option.isSome_eq_false_iff, Option.isNone_iff_eq_none]
    -- A session that still lives has not come to its bound.
    by_contra hsome
    obtain ⟨x, hx⟩ := Option.ne_none_iff_exists'.mp hsome
    exact absurd ((hend x hx).last_le hperiod hgap) (not_le.mpr hlate)

/-- A client opens a session, and a tick comes four seconds later, when its only period of ten
milliseconds is over. -/
theorem detection_window_oneSession :
    let env : Environment := { now := secondClock, generateSessionId := fun _ => 5 }
    let client : InetAddress := { octets := (127, 0, 0, 1), port := 4000 }
    let contact : Event := .message client (Buffer.new.append connectionRequest)
    ([Event.tick].foldl (step env) ((init 10 1).step env contact)).m_sessionManager.exist 5 =
      false := by
  intro env client contact
  have hparse : ParseFromString WrappedRequest connectionRequest =
      some { requestType := .Connection } := by decide
  have hdemand : Demand.parse connectionRequest = .connection := by rw [Demand.parse, hparse]
  have hcontact : (init 10 1).Contact env 5 contact :=
    ⟨by rw [readable_connectionRequest, hdemand], rfl⟩
  have hopen : (init 10 1).step env contact = ((init 10 1).onConnectionRequest env client).2 :=
    step_connectionRequest env (init 10 1) client
  have hopened : ((init 10 1).step env contact).m_heartbeatCounter.reads = 1 := by
    rw [hopen]
    rfl
  have hticked : (((init 10 1).step env contact).step env .tick).m_heartbeatCounter.reads = 3 := by
    rw [hopen]
    decide
  have hstop : env.now (((init 10 1).step env contact).step env .tick).m_heartbeatCounter.reads ≤
      env.now 0 + secondClock 5 := by
    rw [hticked]
    decide
  have hstart : env.now 0 + 1 * MS 10 + (1 - 1) * secondClock 5 <
      env.now ((init 10 1).step env contact).m_heartbeatCounter.reads := by
    rw [hopened]
    decide
  have hwindow := (detection_window env monotone_secondClock 10 1 (by decide) (by decide) [] contact
    5 [.tick] hcontact (List.forall_mem_singleton.mpr trivial)).2 (secondClock 5) (by decide)
  rw [List.foldl_nil] at hwindow
  refine hwindow ⟨fun _ => ?_, trivial⟩ ?_
  · rw [label]
    exact hstop
  · exact hstart

/-! ### Infinite runs -/

/-- The readings taken go up. -/
theorem Consistent.reads_le_step {s : SRCServer} (hs : s.Consistent timeout max_heartbeat)
    (env : Environment) (event : Event) :
    s.m_heartbeatCounter.reads ≤ (s.step env event).m_heartbeatCounter.reads := by
  cases event with
  | message peerAddress buffer =>
      rw [SRCServer.step, onMessage_eq]
      rcases s.onData_cases env peerAddress buffer.readable with
        ⟨call, -, hdata⟩ | ⟨-, hdata | hdata⟩
      · rw [hdata]
      · rw [hdata]
      · rw [hdata]
        exact Nat.le_succ _
  | heartbeat sessionId =>
      show _ ≤ (s.onUDPMessage env sessionId).m_heartbeatCounter.reads
      rw [onUDPMessage]
      split
      · show _ ≤ (s.m_heartbeatCounter.m_timer.adjust env.now s.m_heartbeatCounter.reads sessionId
          s.m_heartbeatCounter.m_timeout).2
        rw [HeapTimer.adjust]
        split
        · exact le_rfl
        · exact Nat.le_succ _
      · exact le_rfl
  | tick =>
      obtain ⟨-, -, -, hreads, -⟩ := tick_maps env hs.heaps
      obtain ⟨-, -, -, hle, -⟩ := HeartbeatCounter.tickTimer_spec env.now hs.heaps
      exact hle.trans_eq hreads.symm

/-- A tick with a live session takes a reading. -/
theorem Consistent.reads_lt_tick {s : SRCServer} (hs : s.Consistent timeout max_heartbeat)
    (env : Environment) {id : UInt64} (hid : (s.registry.sessions id).isSome) :
    s.m_heartbeatCounter.reads < (s.step env .tick).m_heartbeatCounter.reads := by
  obtain ⟨-, -, -, hreads, -⟩ := tick_maps env hs.heaps
  rw [isSome_sessions hs.heaps] at hid
  exact (HeartbeatCounter.reads_lt_tickTimer env.now hs.heaps hid).trans_eq hreads.symm

/-- The silent session, in a step of the server. -/
theorem Consistent.silent_step {s : SRCServer} (hs : s.Consistent timeout max_heartbeat)
    (hclk : Monotone env.now) {event : Event} {id : UInt64}
    (hsilent : (s.label env event).Silent id) :
    Registry.SilentStep timeout max_heartbeat (s.label env event) (s.registry.sessions id)
      ((s.step env event).registry.sessions id) :=
  (next_registry hclk s event hs).2.silent_step hsilent

section
variable {s : SRCServer} {events : Nat → Event} {id : UInt64}

/-- While a session lives, each tick takes a reading, so the readings go beyond every number. -/
theorem exists_reads_ge (hclk : Monotone env.now) (hs : s.Consistent timeout max_heartbeat)
    (hticks : InfinitelyOften (step env) (fun _ event => event = .tick) s events) {n : Nat}
    (hlive : ∀ k ≥ n, ((stateAt (step env) s events k).registry.sessions id).isSome) :
    ∀ j, ∃ k ≥ n, j ≤ (stateAt (step env) s events k).m_heartbeatCounter.reads := by
  have hinv := inv_stateAt (consistent_step hclk) hs events
  have hmono : Monotone fun k => (stateAt (step env) s events k).m_heartbeatCounter.reads :=
    monotone_nat_of_le_succ fun k => (hinv k).reads_le_step env (events k)
  intro j
  induction j with
  | zero => exact ⟨n, le_rfl, Nat.zero_le _⟩
  | succ j ih =>
      obtain ⟨k, hk, hj⟩ := ih
      obtain ⟨m, hm, htick⟩ := hticks k
      have htick : events m = .tick := htick
      refine ⟨m + 1, by omega, ?_⟩
      have hlt := (hinv m).reads_lt_tick env (hlive m (hk.trans hm))
      have hle : (stateAt (step env) s events k).m_heartbeatCounter.reads ≤
          (stateAt (step env) s events m).m_heartbeatCounter.reads := hmono hm
      show j + 1 ≤ ((stateAt (step env) s events m).step env (events m)).m_heartbeatCounter.reads
      rw [htick]
      omega

/-- While ticks and the clock go on, a session that is silent from the start does not stay as it
is. -/
theorem infinitelyOften_changes (hclk : Monotone env.now) (hgrows : ∀ t, ∃ k, t ≤ env.now k)
    (hs : s.Consistent timeout max_heartbeat)
    (hticks : InfinitelyOften (step env) (fun _ event => event = .tick) s events)
    (hsilent : ∀ k, ((stateAt (step env) s events k).label env (events k)).Silent id) :
    InfinitelyOften (step env) (fun s event => s.registry.sessions id = none ∨
      (s.step env event).registry.sessions id ≠ s.registry.sessions id) s events := by
  have hinv := inv_stateAt (consistent_step hclk) hs events
  intro n
  by_contra hnever
  push Not at hnever
  -- The session lives from now on, and never changes.
  obtain ⟨life, hlife⟩ := Option.ne_none_iff_exists'.mp (hnever n le_rfl).1
  have hconst : ∀ k ≥ n, (stateAt (step env) s events k).registry.sessions id = some life := by
    intro k hk
    induction k, hk using Nat.le_induction with
    | base => exact hlife
    | succ k hk ih => exact (hnever k hk).2.trans ih
  have hlive : ∀ k ≥ n, ((stateAt (step env) s events k).registry.sessions id).isSome :=
    fun k hk => by rw [hconst k hk]; rfl
  -- A tick after the end of its period changes it.
  obtain ⟨j, hj⟩ := hgrows life.expires
  obtain ⟨k, hk, hreads⟩ := exists_reads_ge hclk hs hticks hlive j
  obtain ⟨m, hm, htick⟩ := hticks k
  have htick : events m = .tick := htick
  have hmono : Monotone fun k => (stateAt (step env) s events k).m_heartbeatCounter.reads :=
    monotone_nat_of_le_succ fun k => (hinv k).reads_le_step env (events k)
  have hlate : life.expires ≤
      env.now (stateAt (step env) s events m).m_heartbeatCounter.reads :=
    hj.trans (hclk (hreads.trans (hmono hm)))
  have hstep := (hinv m).silent_step hclk (hsilent m)
  rw [hconst m (hk.trans hm)] at hstep
  have hchanged := hstep.changes (by rw [htick]; rfl) hlate
  exact hchanged ((hnever m (hk.trans hm)).2.trans (hconst m (hk.trans hm)))

end

/-- In an infinite run with ticks again and again and a clock that goes beyond every moment, a
session that is silent from some point on is dead from some later point on. -/
theorem eventually_dead (env : Environment) (hclk : Monotone env.now)
    (hgrows : ∀ t, ∃ k, t ≤ env.now k) (timeout max_heartbeat : Int) (events : Nat → Event)
    (hticks : ∀ n, ∃ m ≥ n, events m = .tick) (id : UInt64) (n : Nat) :
    let run := stateAt (step env) (init timeout max_heartbeat) events
    (∀ m ≥ n, ((run m).label env (events m)).Silent id) →
      ∃ m ≥ n, ∀ k ≥ m, (run k).m_sessionManager.exist id = false := by
  intro run hsilent
  have hinv : ∀ k, (run k).Consistent timeout max_heartbeat :=
    inv_stateAt (consistent_step hclk) (consistent_init timeout max_heartbeat) events
  -- The run from the point where the silence begins.
  have hadd : ∀ k, stateAt (step env) (run n) (fun k => events (n + k)) k = run (n + k) :=
    fun k => (stateAt_add _ events n k).symm
  have hsilent' : ∀ k, ((stateAt (step env) (run n) (fun k => events (n + k)) k).label env
      (events (n + k))).Silent id := fun k => by
    rw [hadd]
    exact hsilent (n + k) (Nat.le_add_right n k)
  have hticks' : InfinitelyOften (step env) (fun _ event => event = .tick) (run n)
      fun k => events (n + k) := by
    intro k
    obtain ⟨m, hm, htick⟩ := hticks (n + k)
    obtain ⟨d, rfl⟩ := Nat.exists_eq_add_of_le (Nat.le_of_add_right_le hm)
    exact ⟨d, Nat.le_of_add_le_add_left hm, htick⟩
  -- What the session has left goes down with each change.
  have hquiet : ∀ (s : SRCServer) (event : Event), s.Consistent timeout max_heartbeat →
      (s.label env event).Silent id → (s.step env event).Consistent timeout max_heartbeat :=
    fun s event hs _ => consistent_step hclk s event hs
  have hle : ∀ (s : SRCServer) (event : Event), s.Consistent timeout max_heartbeat →
      (s.label env event).Silent id → ¬ s.registry.sessions id = none →
        Registry.remaining max_heartbeat ((s.step env event).registry.sessions id) ≤
          Registry.remaining max_heartbeat (s.registry.sessions id) := by
    intro s event hs hquiet _
    rcases (hs.silent_step hclk hquiet).remaining_lt with hsame | hlt
    · rw [hsame]
    · exact hlt.le
  have hlt : ∀ (s : SRCServer) (event : Event), s.Consistent timeout max_heartbeat →
      (s.label env event).Silent id → ¬ s.registry.sessions id = none →
        (s.registry.sessions id = none ∨
          (s.step env event).registry.sessions id ≠ s.registry.sessions id) →
        Registry.remaining max_heartbeat ((s.step env event).registry.sessions id) <
          Registry.remaining max_heartbeat (s.registry.sessions id) := by
    intro s event hs hquiet hlive hchanges
    rcases (hs.silent_step hclk hquiet).remaining_lt with hsame | hlt
    · exact absurd hsame (hchanges.resolve_left hlive)
    · exact hlt
  obtain ⟨m, hm⟩ := exists_goal_of_measure_of
    (fun s => Registry.remaining max_heartbeat (s.registry.sessions id)) hquiet hle hlt
    (hinv n) hsilent' (infinitelyOften_changes hclk hgrows (hinv n) hticks' hsilent')
  have hm : (run (n + m)).registry.sessions id = none := hadd m ▸ hm
  refine ⟨n + m, Nat.le_add_right n m, fun k hk => ?_⟩
  -- A session that is dead and silent stays dead.
  have hdead : (run k).registry.sessions id = none := by
    induction k, hk using Nat.le_induction with
    | base => exact hm
    | succ k hk ih =>
        have hstep := (hinv k).silent_step hclk (hsilent k (by omega))
        rw [ih] at hstep
        exact hstep.dead_iff
  rw [(hinv k).exist_eq, hdead]
  rfl

/-- A client opens a session, and nothing but ticks happens after that. -/
theorem eventually_dead_onlyTicks :
    let client : InetAddress := { octets := (127, 0, 0, 1), port := 4000 }
    let events : Nat → Event := fun n =>
      if n = 0 then .message client (Buffer.new.append connectionRequest) else .tick
    ∃ m ≥ 1, ∀ k ≥ m, (stateAt (step { now := secondClock, generateSessionId := fun _ => 5 })
      (init 10 1) events k).m_sessionManager.exist 5 = false := by
  intro client events
  have htick : ∀ n ≥ 1, events n = .tick := fun n hn => if_neg (by omega)
  refine eventually_dead { now := secondClock, generateSessionId := fun _ => 5 }
    monotone_secondClock (fun t => ⟨t.toNat, ?_⟩) 10 1 events
    (fun n => ⟨n + 1, Nat.le_succ n, htick (n + 1) (by omega)⟩) 5 1 fun m hm => ?_
  · show t ≤ 1000000000 * (t.toNat : Int)
    omega
  · rw [htick m hm]
    trivial

end SRCServer

end RegistrationCenter
