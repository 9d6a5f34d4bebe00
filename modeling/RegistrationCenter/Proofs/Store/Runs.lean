import RegistrationCenter.Proofs.Store.SessionCleanup

/-!
# `RegistrationCenter.Proofs.Store.Runs`: the store over whole runs

A run is any sequence of creates, sets, deletes and ends of sessions, with any paths and
any session ids, from the store that the constructor makes. Every state of a run has the
invariant, so that the tree and the session table represent the same store. Two facts about
the end of a session follow for every reachable store: the table loop does what the recursive
scan did, and nothing but the session's own nodes is lost exactly when nothing else lies
below one of them.
-/

set_option autoImplicit false

namespace RegistrationCenter

open Lib

namespace Services

/-- A call that can change the store. -/
inductive StoreCall
  | create (sessionId : UInt64) (path data : Bytes) (type : NodeType)
  | set (path data : Bytes)
  | delete (path : Bytes)
  | removeEphemeral (sessionId : UInt64)
  deriving DecidableEq

def storeStep (s : Services) : StoreCall → Services
  | .create sessionId path data type => (s.createNode sessionId path data type).2
  | .set path data => (s.setNode path data).2
  | .delete path => (s.deleteNode path).2
  | .removeEphemeral sessionId => s.removeEphemeral sessionId

/-- The store after these calls. -/
def storeRun (calls : List StoreCall) : Services := calls.foldl storeStep init

theorem wellFormed_storeStep (s : Services) (call : StoreCall) (hs : s.WellFormed) :
    (storeStep s call).WellFormed := by
  cases call with
  | create sessionId path data type => exact (createNode_spec hs sessionId path data type).1
  | set path data => exact (setNode_spec hs path data).1
  | delete path => exact (deleteNode_spec hs path).1
  | removeEphemeral sessionId => exact (removeEphemeral_spec hs sessionId).1

theorem wellFormed_storeRun (calls : List StoreCall) : (storeRun calls).WellFormed :=
  inv_foldl wellFormed_storeStep calls wellFormed_init

/-- A node that can be reached from the dummy through the children. -/
def Attached (s : Services) (p : Nat) : Prop := ∃ π, s.walkTo π = some p

/-- The tree and the session table represent the same store. -/
structure Represented (s : Services) : Prop where
  /-- An attached node is among the children of an attached node, under its own name, and its
  parent pointer denotes that node unless it is the root. -/
  placed : ∀ p, s.Attached p → p ≠ s.m_dummy → ∃ v q, s.heap.get p = some v ∧ s.Attached q ∧
    s.heap.childOf q v.name = some p ∧ (s.walkTo [[]] ≠ some p → v.parent = some q)
  /-- No node is attached twice. -/
  once : ∀ π ρ p, s.walkTo π = some p → s.walkTo ρ = some p → π = ρ
  /-- An attached session node is in the table of its owner, exactly once. -/
  registered : ∀ p v, s.Attached p → s.heap.get p = some v → v.type = .EPHEMERAL →
    ((s.m_sessionMap v.ephemeralOwner).getD []).count p = 1
  /-- An entry of the table that is not expired is an attached node of that session. -/
  entries : ∀ sessionId p v, p ∈ (s.m_sessionMap sessionId).getD [] → s.heap.get p = some v →
    s.Attached p ∧ v.type = .EPHEMERAL ∧ v.ephemeralOwner = sessionId
  /-- A node that is not attached is released: every weak pointer to it is expired. -/
  released : ∀ p, ¬ s.Attached p → s.heap.cells p = none

theorem WellFormed.attached_iff {s : Services} (hs : s.WellFormed) (p : Nat) :
    s.Attached p ↔ (s.heap.cells p).isSome := by
  constructor
  · rintro ⟨π, hπ⟩
    exact hs.rooted.isSome_of_walk hπ
  · intro hp
    exact hs.rooted.exists_walk hp

theorem WellFormed.represented {s : Services} (hs : s.WellFormed) : s.Represented where
  placed p hp hne := by
    have hlive := (hs.attached_iff p).mp hp
    obtain ⟨v, hv⟩ := get_eq_some_of_isSome hlive
    obtain ⟨q, n, hn⟩ := hs.rooted.attached hlive hne
    obtain ⟨hname, hparent⟩ := hs.named hn hv
    subst hname
    obtain ⟨c, hc, _⟩ := RcHeap.childOf_eq_some.mp hn
    have hq : s.Attached q := (hs.attached_iff q).mpr (by rw [hc]; rfl)
    refine ⟨v, q, hv, hq, hn, fun hroot => ?_⟩
    rcases hparent with hparent | ⟨-, -, hdummy, hempty⟩
    · exact hparent
    -- Only the root has no parent: it is the child of the dummy under the empty name.
    · subst hdummy
      rw [hempty] at hn
      exact absurd (by simp [walkTo, RcHeap.walk, hn]) hroot
  once π ρ p hπ hρ := hs.rooted.walk_inj hπ hρ
  registered p v _ hv htype :=
    List.count_eq_one_of_mem (hs.nodup v.ephemeralOwner) (hs.listed ⟨v, hv, htype, rfl⟩)
  entries sessionId p v hmem hv := by
    obtain ⟨htype, howner⟩ := hs.owned hmem hv
    exact ⟨(hs.attached_iff p).mpr (isSome_of_get hv), htype, howner⟩
  released p hp := by
    rw [hs.attached_iff, Option.not_isSome_iff_eq_none] at hp
    exact hp

/-- The tree and the session table represent the same store in every reachable store. -/
theorem represented_storeRun (calls : List StoreCall) : (storeRun calls).Represented :=
  (wellFormed_storeRun calls).represented

/-- In every reachable store, the loop over the table of session nodes leaves the tree that
the recursive scan would leave, whatever fuel beyond the size of the heap the scan gets:
the tree without the subtrees at the session nodes of the session. -/
theorem removeEphemeral_eq_scan (calls : List StoreCall) (sessionId : UInt64) (extra : Nat) :
    let s := storeRun calls
    let scanned : Services := { s with
      heap := removeEphemeralScan sessionId (s.heap.next + extra) s.heap s.m_dummy }
    (s.removeEphemeral sessionId).tree = scanned.tree ∧
      scanned.tree = s.tree.cut (sessionPaths s.tree sessionId) := by
  intro s scanned
  have hs : s.WellFormed := wellFormed_storeRun calls
  have hscan : scanned.tree = _ := tree_removeEphemeralScan hs sessionId extra
  exact ⟨(removeEphemeral_spec hs sessionId).2.trans hscan.symm, hscan⟩

/-- The end of a session takes nothing but the session's own session nodes. -/
def TakesOwnNodesOnly (s : Services) (sessionId : UInt64) : Prop :=
  ∀ π e, s.tree π = some e → ¬ (e.type = .EPHEMERAL ∧ e.owner = sessionId) →
    (s.removeEphemeral sessionId).tree π = some e

/-- Everything below a session node of the session is a session node of the session. -/
def OwnNodesBelow (s : Services) (sessionId : UInt64) : Prop :=
  ∀ ρ ∈ sessionPaths s.tree sessionId, ∀ π, ρ <+: π → ∀ e, s.tree π = some e →
    e.type = .EPHEMERAL ∧ e.owner = sessionId

/-- In every reachable store, the end of a session takes its own nodes only, exactly when
nothing else lies below them. -/
theorem takesOwnNodesOnly_iff (calls : List StoreCall) (sessionId : UInt64) :
    TakesOwnNodesOnly (storeRun calls) sessionId ↔ OwnNodesBelow (storeRun calls) sessionId := by
  have htree := (removeEphemeral_spec (wellFormed_storeRun calls) sessionId).2
  constructor
  · intro hkeep ρ hρ π hpre e he
    by_contra hnot
    have hkept := hkeep π e he hnot
    rw [htree, PathMap.cut_eq_none ⟨ρ, hρ, hpre⟩] at hkept
    cases hkept
  · intro hbelow π e he hnot
    rw [htree]
    refine PathMap.cut_eq_some.mpr ⟨he, fun ρ hρ hpre => ?_⟩
    exact hnot (hbelow ρ hρ π hpre e he)

/-- A permanent node below a session node of session 1 is lost with session 1. -/
theorem not_takesOwnNodesOnly : ¬ TakesOwnNodesOnly
    (storeRun [.create 1 (bytes "/a") [] .EPHEMERAL, .create 2 (bytes "/a/b") [] .PERSISTENT])
    1 := by
  intro h
  have hkept := h [[], bytes "a", bytes "b"]
    { data := [], type := .PERSISTENT, owner := 0 } (by decide) (by decide)
  exact absurd hkept (by decide)

end Services

end RegistrationCenter
