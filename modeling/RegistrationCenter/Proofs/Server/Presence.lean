import RegistrationCenter.Proofs.Server.Durability
import RegistrationCenter.Proofs.Server.FailureDetector

/-!
# `RegistrationCenter.Proofs.Server.Presence`: who sends heartbeats stays registered

A session that is heard of again and again lives. Again and again means that no tick ends later than
`max_heartbeat` periods, each a millisecond short, after the last sign of life (`Registry.Beating`).
So the session nodes of such a session stay as well, whatever all other clients do (`present`).
Nothing but the times of the ticks and of the signs of life is asked for.
-/

set_option autoImplicit false

namespace RegistrationCenter

open Lib

namespace Registry

/-- The step is a sign of life of the session, when it lives. -/
def Label.hears (id : UInt64) (l : Label) : Bool :=
  match l.event with
  | .message .connection => decide (l.sessionId = id)
  | .message _ => false
  | .heartbeat d => decide (d = id)
  | .tick => false

/-- The moment of the last sign of life after the step, with the one before it. -/
def Label.heard (id : UInt64) (heard : Int) (l : Label) : Int :=
  if l.hears id then l.start else heard

/-- No tick ends too late after the last sign of life. -/
def Beating (period limit : Int) (id : UInt64) : Int → List Label → Prop
  | _, [] => True
  | heard, l :: ls =>
      (l.isTick = true → l.stop ≤ heard + limit * MS (period - 1)) ∧
        Beating period limit id (l.heard id heard) ls

variable {period limit heard : Int} {r r' : Registry} {l : Label} {id : UInt64}

theorem Label.silent_of_hears (h : l.hears id = false) : l.Silent id := by
  obtain ⟨event, start, stop, sessionId, response⟩ := l
  cases event with
  | message demand =>
      rintro rfl
      exact of_decide_eq_false h
  | heartbeat d => exact of_decide_eq_false h
  | tick => trivial

/-- A live session after a step. -/
theorem Next.lived (h : r.Next period limit l r') (hperiod : 1 ≤ period) (hlimit : 1 ≤ limit)
    (hstop : l.isTick = true → l.stop ≤ heard + limit * MS (period - 1))
    (hr : ∃ x, r.sessions id = some x ∧ Lived period limit heard x) :
    ∃ x, r'.sessions id = some x ∧ Lived period limit (l.heard id heard) x := by
  obtain ⟨x, hx, hlived⟩ := hr
  rw [Label.heard]
  cases hhears : l.hears id with
  | false =>
      have hstep := h.silent_step (Label.silent_of_hears hhears)
      rw [hx] at hstep
      exact hstep.lived hlived hperiod hstop
  -- A sign of life starts the first period.
  | true =>
      cases h with
      | message start stop sessionId demand response r' hanswered =>
          cases hanswered with
          | connection =>
              obtain rfl : sessionId = id := of_decide_eq_true hhears
              exact ⟨_, Function.update_self .., lived_firstPeriod hlimit⟩
          | service request response hanswers => cases hhears
          | unreadable operation => cases hhears
          | refused reason => cases hhears
      | heartbeat start stop sessionId d =>
          obtain rfl : d = id := of_decide_eq_true hhears
          refine ⟨firstPeriod period start, ?_, lived_firstPeriod hlimit⟩
          have hbeaten : (r.beaten period start d).sessions d =
              (r.sessions d).map fun _ => firstPeriod period start := Function.update_self ..
          rw [hbeaten, hx, Option.map_some]
      | tick start stop sessionId due moment hdue => cases hhears

end Registry

namespace SRCServer

variable {env : Environment} {timeout max_heartbeat : Int}

/-- A session that is heard of often enough lives in each state of the run. -/
theorem Consistent.alive (hclk : Monotone env.now) (htimeout : 1 ≤ timeout)
    (hmax : 1 ≤ max_heartbeat) {id : UInt64} (events : List Event) :
    ∀ (s : SRCServer) (heard : Int), s.Consistent timeout max_heartbeat →
      (∃ x, s.registry.sessions id = some x ∧
        Registry.Lived timeout max_heartbeat heard x) →
      Registry.Beating timeout max_heartbeat id heard (trace (step env) (label env) s events) →
      AllStates (step env) (fun s => s.m_sessionManager.exist id = true) s events := by
  induction events with
  | nil =>
      intro s heard hs hx _
      obtain ⟨x, hx, -⟩ := hx
      show s.m_sessionManager.exist id = true
      rw [hs.exist_eq, hx]
      rfl
  | cons event events ih =>
      intro s heard hs hx hbeating
      obtain ⟨hs', hnext⟩ := next_registry hclk s event hs
      have hx' := hnext.lived htimeout hmax hbeating.1 hx
      refine ⟨?_, ih (s.step env event) _ hs' hx' hbeating.2⟩
      obtain ⟨x, hx, -⟩ := hx
      rw [hs.exist_eq, hx]
      rfl

/-- The session is heard of in the first part of the run, and often enough from then on, up to
the end of the second part. -/
def StaysHeard (env : Environment) (timeout max_heartbeat : Int) (id : UInt64)
    (before after : List Event) : Prop :=
  ∃ first contact rest, before = first ++ contact :: rest ∧
    let s := first.foldl (step env) (init timeout max_heartbeat)
    s.Contact env id contact ∧ Registry.Beating timeout max_heartbeat id
      (env.now s.m_heartbeatCounter.reads)
      (trace (step env) (label env) (s.step env contact) (rest ++ after))

/-- A session that is heard of often enough lives all the time. -/
theorem StaysHeard.alive (hclk : Monotone env.now) (htimeout : 1 ≤ timeout)
    (hmax : 1 ≤ max_heartbeat) {id : UInt64} {before after : List Event}
    (h : StaysHeard env timeout max_heartbeat id before after) :
    AllStates (step env) (fun s => s.m_sessionManager.exist id = true)
      (before.foldl (step env) (init timeout max_heartbeat)) after := by
  obtain ⟨first, contact, rest, rfl, hcontact, hbeating⟩ := h
  have hs : (first.foldl (step env) (init timeout max_heartbeat)).Consistent timeout
      max_heartbeat := inv_foldl (consistent_step hclk) first (consistent_init _ _)
  have halive := Consistent.alive hclk htimeout hmax (rest ++ after) _ _
    (consistent_step hclk _ contact hs)
    ⟨_, hs.contact hclk hcontact, Registry.lived_firstPeriod hmax⟩ hbeating
  rw [List.foldl_append, List.foldl_cons]
  exact halive.drop

/-- A node of the store stays, with its type and its owner and with the data that were set last, as
long as nobody deletes it or one above it, and each session with a session node there is heard
of often enough. -/
theorem present (env : Environment) (hclk : Monotone env.now) (timeout max_heartbeat : Int)
    (htimeout : 1 ≤ timeout) (hmax : 1 ≤ max_heartbeat) (before after : List Event)
    (π : List Bytes) (e : Entry) :
    let s := before.foldl (step env) (init timeout max_heartbeat)
    let labels := trace (step env) (label env) s after
    s.services.tree π = some e → (∀ l ∈ labels, ¬ l.Deletes π) →
      (∀ ρ, ρ <+: π → ∀ c, s.services.tree ρ = some c → c.type = .EPHEMERAL →
        StaysHeard env timeout max_heartbeat c.owner before after) →
      (after.foldl (step env) s).services.tree π =
        some { e with data := Registry.lastData π e.data labels } := by
  intro s labels he hno hheard
  have hs : s.Consistent timeout max_heartbeat :=
    inv_foldl (consistent_step hclk) before (consistent_init timeout max_heartbeat)
  have hlive : ∀ ρ, ρ <+: π → ∀ c, s.services.tree ρ = some c → c.type = .EPHEMERAL →
      AllStates (step env) (fun s => s.m_sessionManager.exist c.owner = true) s after :=
    fun ρ hρ c hc htype => (hheard ρ hρ c hc htype).alive hclk htimeout hmax
  exact Consistent.keeps_entry hclk π after s e hs he hno
    (Consistent.ownersStay hclk π after s e hs he hno hlive)

/-- A client opens session 5, creates its session node and sends a heartbeat. The node is still
there after a tick. -/
theorem present_oneNode :
    let env : Environment := { now := secondClock, generateSessionId := fun _ => 5 }
    let client : InetAddress := { octets := (127, 0, 0, 1), port := 4000 }
    let before : List Event := [.message client (Buffer.new.append connectionRequest),
      .message client (Buffer.new.append createForNobody)]
    let s := before.foldl (step env) (init 12000 5)
    ([Event.heartbeat 5, .tick].foldl (step env) s).services.tree [[], bytes "a"] =
      some { data := [], type := .EPHEMERAL, owner := 5 } := by
  intro env client before s
  let contact : Event := .message client (Buffer.new.append connectionRequest)
  let create : Event := .message client (Buffer.new.append createForNobody)
  let s₁ : SRCServer := ((init 12000 5).onConnectionRequest env client).2
  have hopened : (init 12000 5).step env contact = s₁ := step_connectionRequest env _ client
  have htree : s.services.tree = Function.update NodeMap.init [[], bytes "a"]
      (some { data := [], type := .EPHEMERAL, owner := 5 }) := by
    have hbefore : before = [contact, create] := rfl
    show (before.foldl (step env) (init 12000 5)).services.tree = _
    rw [hbefore, List.foldl_cons, hopened, List.foldl_cons, List.foldl_nil,
      show s₁.step env create = _ from step_createForNobody env s₁ client]
    exact tree_createForNobody
  have hnode : s.services.tree [[], bytes "a"] =
      some { data := [], type := .EPHEMERAL, owner := 5 } := by rw [htree, Function.update_self]
  have hheard : StaysHeard env 12000 5 5 before [.heartbeat 5, .tick] := by
    have hparse : ParseFromString WrappedRequest connectionRequest =
        some { requestType := .Connection } := by decide
    have hdemand : Demand.parse connectionRequest = .connection := by rw [Demand.parse, hparse]
    refine ⟨[], contact, [create], rfl, ⟨by rw [readable_connectionRequest, hdemand], rfl⟩, ?_⟩
    -- The tick ends two seconds after the heartbeat.
    have hstop : env.now (((s₁.step env create).step env (.heartbeat 5)).step env
        .tick).m_heartbeatCounter.reads ≤
          env.now (s₁.step env create).m_heartbeatCounter.reads + 5 * MS (12000 - 1) := by
      rw [show s₁.step env create = _ from step_createForNobody env s₁ client]
      decide
    have hbeat : ∀ heard, ((s₁.step env create).label env (.heartbeat 5)).heard 5 heard =
        env.now (s₁.step env create).m_heartbeatCounter.reads := fun heard => if_pos rfl
    rw [List.foldl_nil, hopened]
    refine ⟨fun h => absurd h Bool.false_ne_true, fun h => absurd h Bool.false_ne_true, fun _ => ?_,
      trivial⟩
    rw [hbeat]
    exact hstop
  refine present env monotone_secondClock 12000 5 (by decide) (by decide) before
    [.heartbeat 5, .tick] _ _ hnode ?_ ?_
  · intro l hl hdeletes
    obtain ⟨path, hevent, -⟩ := hdeletes
    rcases List.mem_pair.mp hl with rfl | rfl
    · cases hevent
    · cases hevent
  · intro ρ hρ c hc htype
    have hc : s.services.tree ρ = some c := hc
    rw [htree] at hc
    -- The only session node is the one at the path.
    by_cases hne : ρ = [[], bytes "a"]
    · subst hne
      rw [Function.update_self] at hc
      cases hc
      exact hheard
    · rw [Function.update_of_ne hne, NodeMap.init] at hc
      by_cases hroot : ρ = [[]]
      · subst hroot
        rw [Function.update_self] at hc
        cases hc
        cases htype
      · rw [Function.update_of_ne hroot] at hc
        cases hc

end SRCServer

end RegistrationCenter
