import RegistrationCenter.Proofs.Server.Registry
import RegistrationCenter.Proofs.Store.RootOnly

/-!
# `RegistrationCenter.Proofs.Server.Durability`: what is registered stays registered

A node that is in the store stays there, with its type and its owner, until somebody deletes it
or a node above it, or a live session dies that owns a session node at it or above it. Until then
its data are those that were set last, by whichever client. `durable` says so for every run of the
server from every state that it can reach, so no request on another path, no heartbeat, no
death of another session and no bytes that are not a request ever lose it or change it. The
session nodes of sessions that are dead already, or have never lived, stay as well.
-/

set_option autoImplicit false

namespace RegistrationCenter

open Lib

open Services (splitPath)

namespace Registry

/-- The step is a request to delete the path or one above it, which is not the root. -/
def Label.Deletes (π : List Bytes) (l : Label) : Prop :=
  ∃ path, l.event = .message (.service (.deleteNode path)) ∧ 2 ≤ (splitPath path).length ∧
    splitPath path <+: π

/-- The data at a path after the request, with those before it. -/
def written (π : List Bytes) (data : Bytes) : Request → Bytes
  | .setNode path nodeData => if splitPath path = π then nodeData else data
  | _ => data

/-- The data at a path after the step. -/
def dataAfter (π : List Bytes) (data : Bytes) (l : Label) : Bytes :=
  match l.event with
  | .message (.service request) => written π data request
  | _ => data

/-- The data at a path that were set last. -/
def lastData (π : List Bytes) (data : Bytes) (ls : List Label) : Bytes :=
  ls.foldl (dataAfter π) data

/-- No live session dies in the step that owns a session node at the path or above it. -/
def OwnersStay (π : List Bytes) (r r' : Registry) : Prop :=
  ∀ ρ, ρ <+: π → ∀ c, r.nodes ρ = some c → c.type = .EPHEMERAL →
    (r.sessions c.owner).isSome → (r'.sessions c.owner).isSome

variable {period limit : Int} {r r' : Registry} {l : Label} {π : List Bytes} {e : Entry}

/-- An entry after a request. -/
theorem next_entry (A : NodeMap) (request : Request) (hA : A π = some e)
    (hno : ∀ path, request = .deleteNode path → 2 ≤ (splitPath path).length →
      ¬ splitPath path <+: π) :
    A.next request π = some { e with data := written π e.data request } := by
  cases request with
  | createNode sessionId path nodeData nodeType =>
      rw [NodeMap.next]
      split
      case isTrue hcan =>
        -- A create goes to a path that is not there.
        have hne : π ≠ splitPath path := by
          rintro rfl
          rw [hcan.2.1] at hA
          cases hA
        exact (Function.update_of_ne hne _ _).trans hA
      case isFalse => exact hA
  | setNode path nodeData =>
      rw [NodeMap.next]
      by_cases hπ : splitPath path = π
      · subst hπ
        rw [Function.update_self, hA, written, if_pos rfl]
        rfl
      · rw [Function.update_of_ne (Ne.symm hπ), hA, written, if_neg hπ]
  | deleteNode path =>
      rw [NodeMap.next]
      split
      case isTrue hcan =>
        refine (PathMap.cut_eq_self ?_).trans hA
        rintro ⟨ρ, rfl, hρ⟩
        exact hno path rfl hcan.1 hρ
      case isFalse => exact hA
  | getNode path => exact hA
  | lsNode path => exact hA
  | statNode path => exact hA
  | existsNode path => exact hA

/-- A step that deletes nothing at the path or above it, and drops no owner there, keeps the
entry, with the data that it sets. -/
theorem Next.keeps_entry (h : r.Next period limit l r') (hno : ¬ l.Deletes π)
    (howners : r.OwnersStay π r') (he : r.nodes π = some e) :
    r'.nodes π = some { e with data := dataAfter π e.data l } := by
  cases h with
  | message start stop sessionId demand response r' hanswered =>
      cases hanswered with
      | connection => exact he
      | service request response hanswers =>
          have hdelete : ∀ path, request = .deleteNode path → 2 ≤ (splitPath path).length →
              ¬ splitPath path <+: π := by
            rintro path rfl hlen hpre
            exact hno ⟨path, rfl, hlen, hpre⟩
          exact next_entry r.nodes request he hdelete
      | unreadable operation => exact he
      | refused reason => exact he
  | heartbeat start stop sessionId d => exact he
  | tick start stop sessionId due moment hdue =>
      refine PathMap.cutWhere_eq_some.mpr ⟨he, fun ρ hρ c hc hdropped => ?_⟩
      obtain ⟨htype, hlived, hnone⟩ := hdropped
      have hlive := howners ρ hρ c hc htype hlived
      rw [show (r.afterTick period limit due moment).sessions c.owner = none from hnone] at hlive
      cases hlive

end Registry

namespace SRCServer

variable {env : Environment} {timeout max_heartbeat : Int}

/-- The event takes out no live session that owns a session node at the path or above it. -/
def OwnersStay (env : Environment) (π : List Bytes) (s : SRCServer) (event : Event) : Prop :=
  ∀ ρ, ρ <+: π → ∀ c, s.services.tree ρ = some c → c.type = .EPHEMERAL →
    s.m_sessionManager.exist c.owner = true →
      (s.step env event).m_sessionManager.exist c.owner = true

/-- An entry after a step of the server. -/
theorem Consistent.keeps_entry_step {s : SRCServer} (hs : s.Consistent timeout max_heartbeat)
    (hclk : Monotone env.now) {π : List Bytes} {e : Entry} {event : Event}
    (he : s.services.tree π = some e) (hno : ¬ (s.label env event).Deletes π)
    (howners : s.OwnersStay env π event) :
    (s.step env event).services.tree π =
      some { e with data := Registry.dataAfter π e.data (s.label env event) } := by
  obtain ⟨hs', hnext⟩ := next_registry hclk s event hs
  refine hnext.keeps_entry hno (fun ρ hρ c hc htype hlive => ?_) he
  rw [← hs'.exist_eq]
  exact howners ρ hρ c hc htype ((hs.exist_eq c.owner).trans hlive)

/-- The entry after some events, from a state in which the tables of the server fit together. -/
theorem Consistent.keeps_entry (hclk : Monotone env.now) (π : List Bytes) (events : List Event) :
    ∀ (s : SRCServer) (e : Entry), s.Consistent timeout max_heartbeat →
      s.services.tree π = some e → (∀ l ∈ trace (step env) (label env) s events, ¬ l.Deletes π) →
      StepsMeet (step env) (OwnersStay env π) s events →
      (events.foldl (step env) s).services.tree π = some { e with
        data := Registry.lastData π e.data (trace (step env) (label env) s events) } := by
  induction events with
  | nil => intro s e _ he _ _; exact he
  | cons event events ih =>
      intro s e hs he hno howners
      rw [trace_cons, List.forall_mem_cons] at hno
      exact ih (s.step env event) _ (consistent_step hclk s event hs)
        (hs.keeps_entry_step hclk he hno.1 howners.1) hno.2 howners.2

/-- The owners stay when those of the session nodes at the path and above it live all the time. -/
theorem Consistent.ownersStay (hclk : Monotone env.now) (π : List Bytes) (events : List Event) :
    ∀ (s : SRCServer) (e : Entry), s.Consistent timeout max_heartbeat →
      s.services.tree π = some e → (∀ l ∈ trace (step env) (label env) s events, ¬ l.Deletes π) →
      (∀ ρ, ρ <+: π → ∀ c, s.services.tree ρ = some c → c.type = .EPHEMERAL →
        AllStates (step env) (fun s => s.m_sessionManager.exist c.owner = true) s events) →
      StepsMeet (step env) (OwnersStay env π) s events := by
  induction events with
  | nil => intro s e _ _ _ _; exact trivial
  | cons event events ih =>
      intro s e hs he hno hlive
      rw [trace_cons, List.forall_mem_cons] at hno
      have hstay : s.OwnersStay env π event := fun ρ hρ c hc htype _ =>
        (hlive ρ hρ c hc htype).2.head
      refine ⟨hstay, ih (s.step env event) _ (consistent_step hclk s event hs)
        (hs.keeps_entry_step hclk he hno.1 hstay) hno.2 fun ρ hρ c hc htype => ?_⟩
      -- A node above the path was there before, with the same owner.
      have hne : ρ ≠ [] := (Services.tree_eq_some.mp hc).1
      obtain ⟨c₀, hc₀⟩ : ∃ c₀, s.services.tree ρ = some c₀ := by
        refine Option.ne_none_iff_exists'.mp fun hnone => ?_
        rw [hs.store.tree_eq_none_of_prefix hne hnone hρ] at he
        cases he
      have hkept := hs.keeps_entry_step hclk hc₀ (fun ⟨path, hevent, hlen, hpre⟩ =>
        hno.1 ⟨path, hevent, hlen, hpre.trans hρ⟩) (fun σ hσ => hstay σ (hσ.trans hρ))
      obtain rfl := Option.some.inj (hc.symm.trans hkept)
      exact (hlive ρ hρ c₀ hc₀ htype).2

/-- A client creates the session node `/a` of session 5. -/
theorem step_createForNobody (env : Environment) (s : SRCServer) (peerAddress : InetAddress) :
    s.step env (.message peerAddress (Buffer.new.append createForNobody)) =
      { s with
          services := Services.storeStep s.services (.create 5 (bytes "/a") [] .EPHEMERAL) } := by
  have hread : (Buffer.new.append createForNobody).readable = createForNobody :=
    (Buffer.valid_new.append createForNobody).2
  have hcall : requestedCall createForNobody = some (.create 5 (bytes "/a") [] .EPHEMERAL) := by
    decide
  rw [SRCServer.step, onMessage_eq, hread]
  rcases s.onData_cases env peerAddress createForNobody with ⟨call, hsome, hdata⟩ | ⟨hnone, -⟩
  · obtain rfl := Option.some.inj (hsome.symm.trans hcall)
    exact hdata
  · rw [hcall] at hnone
    cases hnone

theorem tree_createForNobody :
    (Services.storeStep .init (.create 5 (bytes "/a") [] .EPHEMERAL)).tree =
      Function.update NodeMap.init [[], bytes "a"]
        (some { data := [], type := .EPHEMERAL, owner := 5 }) := by
  obtain ⟨-, hiff, -, htree⟩ := Services.createNode_spec Services.wellFormed_init 5 (bytes "/a") []
    .EPHEMERAL
  have hcan : NodeMap.CanCreate Services.init.tree (splitPath (bytes "/a")) :=
    ⟨by decide, by decide, Or.inr (by decide)⟩
  exact (htree (hiff.mpr hcan)).trans (by rw [Services.tree_init]; rfl)

end SRCServer

end RegistrationCenter
