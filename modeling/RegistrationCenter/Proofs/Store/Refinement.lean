import Mathlib.Data.Set.Card
import RegistrationCenter.Lib.Runs
import RegistrationCenter.Proofs.Store.Effects

/-!
# `RegistrationCenter.Proofs.Store.Refinement`: the store is a map from paths

`NodeMap` is what the store is for: a finite map from component lists to data, type and
owner. `NodeMap.next` is what each of the seven requests does to it, and `Answers` is
what the response must say. The store simulates the map: `Simulates` is kept by every
request, with a response that answers it (`simulates_perform`), so the responses and the
trees of every history agree with the map (`store_refines_map`). The text of a response that is
no success follows from the map as well: `NodeMap.reason` and `failure_perform`.
-/

set_option autoImplicit false

namespace RegistrationCenter

open Lib RcHeap

/-- A request to the store. Only a create depends on the session that sends it. -/
inductive Request
  | createNode (sessionId : UInt64) (path nodeData : Bytes) (nodeType : NodeType)
  | getNode (path : Bytes)
  | setNode (path nodeData : Bytes)
  | deleteNode (path : Bytes)
  | lsNode (path : Bytes)
  | statNode (path : Bytes)
  | existsNode (path : Bytes)

inductive Response
  | createNode (r : CreateNodeResponse)
  | getNode (r : GetNodeResponse)
  | setNode (r : SetNodeResponse)
  | deleteNode (r : DeleteNodeResponse)
  | lsNode (r : LsNodeResponse)
  | statNode (r : StatNodeResponse)
  | existsNode (r : ExistsNodeResponse)

/-- The success flag of a response. -/
def Response.success : Response → Bool
  | .createNode r => r.success
  | .getNode r => r.success
  | .setNode r => r.success
  | .deleteNode r => r.success
  | .lsNode r => r.success
  | .statNode r => r.success
  | .existsNode r => r.success

/-- Why a response is not a success, none when it is one. -/
def Response.failure : Response → Option Bytes
  | .createNode r => if r.success then none else some r.errmsg
  | .getNode r => if r.success then none else some r.errmsg
  | .setNode r => if r.success then none else some r.errmsg
  | .deleteNode r => if r.success then none else some r.errmsg
  | .lsNode r => if r.success then none else some r.errmsg
  | .statNode r => if r.success then none else some r.errmsg
  | .existsNode r => if r.success then none else some r.errmsg

/-- A request that only reads. -/
def Request.reads : Request → Bool
  | .getNode _ => true
  | .lsNode _ => true
  | .statNode _ => true
  | .existsNode _ => true
  | .createNode _ _ _ _ => false
  | .setNode _ _ => false
  | .deleteNode _ => false

/-- The service of the store for a request. -/
def Services.perform (s : Services) : Request → Response × Services
  | .createNode sessionId path nodeData nodeType =>
      let (r, s') := s.createNode sessionId path nodeData nodeType
      (.createNode r, s')
  | .getNode path => (.getNode (s.getNode path), s)
  | .setNode path nodeData =>
      let (r, s') := s.setNode path nodeData
      (.setNode r, s')
  | .deleteNode path =>
      let (r, s') := s.deleteNode path
      (.deleteNode r, s')
  | .lsNode path => (.lsNode (s.lsNode path), s)
  | .statNode path => (.statNode (s.statNode path), s)
  | .existsNode path => (.existsNode (s.existsNode path), s)

/-- The store after a history of requests. -/
def Services.performAll (requests : List Request) : Services :=
  requests.foldl (fun s request => (s.perform request).2) Services.init

/-! ### The abstract map -/

/-- The nodes by the components of their paths. -/
abbrev NodeMap := PathMap Bytes Entry

namespace NodeMap

open Services (splitPath)

/-- The map with the root. -/
def init : NodeMap := Function.update (fun _ => none) [[]]
  (some { data := bytes "root", type := .PERSISTENT, owner := 0 })

/-- The path is absent and its parent is there, where a one-component path has the dummy as
its parent. -/
def CanCreate (A : NodeMap) (π : List Bytes) : Prop :=
  π ≠ [] ∧ A π = none ∧ (π.dropLast = [] ∨ (A π.dropLast).isSome)

open Classical in
/-- The map after a request. -/
noncomputable def next (A : NodeMap) : Request → NodeMap
  | .createNode sessionId path nodeData nodeType =>
      if A.CanCreate (splitPath path) then
        Function.update A (splitPath path) (some
          { data := nodeData, type := nodeType,
            owner := if nodeType = .EPHEMERAL then sessionId else 0 })
      else A
  | .setNode path nodeData =>
      Function.update A (splitPath path)
        ((A (splitPath path)).map fun e => { e with data := nodeData })
  | .deleteNode path =>
      if 2 ≤ (splitPath path).length ∧ (A (splitPath path)).isSome then A.cut {splitPath path}
      else A
  | .getNode _ => A
  | .lsNode _ => A
  | .statNode _ => A
  | .existsNode _ => A

/-- What the response says of the map before the request. -/
def Answers (A : NodeMap) : Request → Response → Prop
  | .createNode _ path _ _, .createNode r => r.success = true ↔ A.CanCreate (splitPath path)
  | .getNode path, .getNode r =>
      (r.success = true ↔ (A (splitPath path)).isSome) ∧
        ∀ e, A (splitPath path) = some e → r.nodeData = e.data
  | .setNode path _, .setNode r => r.success = true ↔ (A (splitPath path)).isSome
  | .deleteNode path, .deleteNode r =>
      r.success = true ↔ 2 ≤ (splitPath path).length ∧ (A (splitPath path)).isSome
  | .lsNode path, .lsNode r =>
      (r.success = true ↔ (A (splitPath path)).isSome) ∧
        ((A (splitPath path)).isSome → r.children.Nodup ∧
          { n | n ∈ r.children } = A.childNames (splitPath path))
  | .statNode path, .statNode r =>
      (r.success = true ↔ (A (splitPath path)).isSome) ∧
        ∀ e, A (splitPath path) = some e → ∃ state, r.state = some state ∧
          state.ephemeralOwner = e.owner ∧ state.NodeType = e.type ∧
          (e.data.length < 2 ^ 31 → state.dataLength.toInt = e.data.length) ∧
          ((A.childNames (splitPath path)).ncard < 2 ^ 31 →
            state.numChildren.toInt = (A.childNames (splitPath path)).ncard)
  | .existsNode path, .existsNode r =>
      (r.success = true ↔ splitPath path ≠ []) ∧
        (r.exist = true ↔ (A (splitPath path)).isSome)
  | _, _ => False

/-- Why there is no node at a path, none when there is one. -/
def missing (A : NodeMap) (path : Bytes) : Option Bytes :=
  if splitPath path = [] then some (bytes "path error")
  else if (A (splitPath path)).isSome then none
  else some (bytes "node not exists")

/-- Why a request fails on the map, none when it does not. -/
def reason (A : NodeMap) : Request → Option Bytes
  | .createNode _ path _ _ =>
      if splitPath path = [] then some (bytes "path error")
      else if (splitPath path).dropLast ≠ [] ∧ (A (splitPath path).dropLast).isNone then
        some (bytes "path not exists")
      else if (A (splitPath path)).isSome then some (bytes "node already exists")
      else none
  | .deleteNode path =>
      if (splitPath path).length = 1 then some (bytes "delete the root node is not allowed")
      else A.missing path
  | .existsNode path => if splitPath path = [] then some (bytes "path error") else none
  | .getNode path => A.missing path
  | .setNode path _ => A.missing path
  | .lsNode path => A.missing path
  | .statNode path => A.missing path

/-- Only finitely many paths are there. -/
def IsFinite (A : NodeMap) : Prop := { π | (A π).isSome }.Finite

/-- A map stays finite. -/
theorem isFinite_next (A : NodeMap) (request : Request) (hA : A.IsFinite) :
    (A.next request).IsFinite := by
  -- An update adds one path at most.
  have hupdate : ∀ (π : List Bytes) (e : Option Entry),
      { ρ | (Function.update A π e ρ).isSome }.Finite := by
    intro π e
    refine (Set.Finite.insert π hA).subset fun ρ hρ => ?_
    by_cases hρπ : ρ = π
    · exact Or.inl hρπ
    · refine Or.inr ?_
      have hρ : (Function.update A π e ρ).isSome := hρ
      rwa [Function.update_of_ne hρπ] at hρ
  cases request with
  | createNode sessionId path nodeData nodeType =>
      by_cases hcan : A.CanCreate (splitPath path)
      · rw [next, if_pos hcan]
        exact hupdate _ _
      · rw [next, if_neg hcan]
        exact hA
  | setNode path nodeData => exact hupdate _ _
  | deleteNode path =>
      by_cases hcan : 2 ≤ (splitPath path).length ∧ (A (splitPath path)).isSome
      · rw [next, if_pos hcan]
        -- A cut adds none.
        refine Set.Finite.subset hA fun ρ hρ => ?_
        obtain ⟨e, he⟩ := Option.isSome_iff_exists.mp hρ
        exact Option.isSome_iff_exists.mpr ⟨e, (PathMap.cut_eq_some.mp he).1⟩
      · rw [next, if_neg hcan]
        exact hA
  | getNode path => exact hA
  | lsNode path => exact hA
  | statNode path => exact hA
  | existsNode path => exact hA

theorem isFinite_init : init.IsFinite := by
  refine (Set.finite_singleton [[]]).subset fun ρ hρ => ?_
  by_contra hne
  have hρ : (init ρ).isSome := hρ
  rw [init, Function.update_of_ne hne] at hρ
  cases hρ

end NodeMap

/-! ### The simulation -/

namespace Services

/-- The store shows the map. -/
structure Simulates (s : Services) (A : NodeMap) : Prop where
  wellFormed : s.WellFormed
  tree : s.tree = A

variable {s : Services}

theorem simulates_init : Simulates init NodeMap.init := ⟨wellFormed_init, tree_init⟩

/-- What a reading service finds at a path is what the tree has there. -/
theorem WellFormed.find_eq (hs : s.WellFormed) {π : List Bytes} (hπ : π ≠ []) :
    (s.tree π = none ∧ (s.walkTo π).bind s.heap.get = none) ∨
      ∃ p v, s.walkTo π = some p ∧ s.heap.get p = some v ∧ s.tree π = some v.entry := by
  cases hp : s.walkTo π with
  | none => exact Or.inl ⟨by simp [tree, hp], rfl⟩
  | some p =>
      obtain ⟨v, hv⟩ := get_eq_some_of_isSome (hs.rooted.isSome_of_walk hp)
      exact Or.inr ⟨p, v, rfl, hv, tree_eq_some.mpr ⟨hπ, p, v, hp, hv, rfl⟩⟩

/-- The keys of a node are the names below its path, each once. -/
theorem WellFormed.keys_eq_childNames (hs : s.WellFormed) {π : List Bytes} {p : Nat} {v : DNode}
    (hp : s.walkTo π = some p) (hv : s.heap.get p = some v) :
    { n | n ∈ v.children.keys } = PathMap.childNames s.tree π := by
  ext n
  show n ∈ v.children.keys ↔ (s.tree (π ++ [n])).isSome
  rw [← hs.isSome_childOf hp, childOf, hv, Option.bind_some, ← AList.mem_keys]
  exact AList.lookup_isSome.symm

theorem getNode_answers (hs : s.WellFormed) (path : Bytes) :
    NodeMap.Answers s.tree (.getNode path) (.getNode (s.getNode path)) := by
  show (_ ↔ (s.tree (splitPath path)).isSome) ∧ _
  unfold getNode
  by_cases hπ : splitPath path = []
  · simp [hπ, tree]
  · rcases hs.find_eq hπ with ⟨hnone, hfind⟩ | ⟨p, v, hp, hv, htree⟩
    · simp [hπ, hnone, hfind]
    · simp [hπ, hp, hv, htree, DNode.entry]

theorem lsNode_answers (hs : s.WellFormed) (path : Bytes) :
    NodeMap.Answers s.tree (.lsNode path) (.lsNode (s.lsNode path)) := by
  show (_ ↔ (s.tree (splitPath path)).isSome) ∧ _
  unfold lsNode
  by_cases hπ : splitPath path = []
  · simp [hπ, tree]
  · rcases hs.find_eq hπ with ⟨hnone, hfind⟩ | ⟨p, v, hp, hv, htree⟩
    · simp [hπ, hnone, hfind]
    · simp only [hπ, hp, hv, htree, if_false, Option.bind_some, Option.isSome_some, iff_self,
        true_and, forall_const]
      exact ⟨v.children.keys_nodup, hs.keys_eq_childNames hp hv⟩

theorem statNode_answers (hs : s.WellFormed) (path : Bytes) :
    NodeMap.Answers s.tree (.statNode path) (.statNode (s.statNode path)) := by
  show (_ ↔ (s.tree (splitPath path)).isSome) ∧ _
  unfold statNode
  by_cases hπ : splitPath path = []
  · simp [hπ, tree]
  · rcases hs.find_eq hπ with ⟨hnone, hfind⟩ | ⟨p, v, hp, hv, htree⟩
    · simp [hπ, hnone, hfind]
    · have hcard : (PathMap.childNames s.tree (splitPath path)).ncard
          = v.children.keys.length := by
        rw [← hs.keys_eq_childNames hp hv, ← List.toFinset_card_of_nodup v.children.keys_nodup,
          ← Set.ncard_coe_finset, List.coe_toFinset]
      simp only [hπ, hp, hv, htree, if_false, Option.bind_some, Option.isSome_some, iff_self,
        true_and, Option.some.injEq, hcard]
      rintro e rfl
      exact ⟨_, rfl, rfl, rfl, Int32.toInt_ofNat_of_lt, Int32.toInt_ofNat_of_lt⟩

theorem existsNode_answers (hs : s.WellFormed) (path : Bytes) :
    NodeMap.Answers s.tree (.existsNode path) (.existsNode (s.existsNode path)) := by
  show (_ ↔ splitPath path ≠ []) ∧ (_ ↔ (s.tree (splitPath path)).isSome)
  unfold existsNode
  by_cases hπ : splitPath path = []
  · simp [hπ, tree]
  · simp [hπ, hs.isSome_tree hπ]

/-- One request: the response answers it, and the store shows the map after it. A request
that fails or only reads leaves the store as it is. -/
theorem simulates_perform {A : NodeMap} (h : Simulates s A) (request : Request) :
    A.Answers request (s.perform request).1 ∧ Simulates (s.perform request).2 (A.next request) ∧
      ((s.perform request).1.success = false ∨ request.reads = true →
        (s.perform request).2 = s) := by
  obtain ⟨hs, rfl⟩ := h
  cases request with
  | createNode sessionId path nodeData nodeType =>
      obtain ⟨hwf, hiff, hfail, htree⟩ := createNode_spec hs sessionId path nodeData nodeType
      refine ⟨hiff, ⟨hwf, ?_⟩, fun h => hfail (h.resolve_right nofun)⟩
      show (s.createNode sessionId path nodeData nodeType).2.tree = _
      by_cases hcan : NodeMap.CanCreate s.tree (splitPath path)
      · rw [NodeMap.next, if_pos hcan]
        exact htree (hiff.mpr hcan)
      -- The map stays as it is, and so does the store, because the create fails.
      · rw [NodeMap.next, if_neg hcan,
          hfail (Bool.eq_false_iff.mpr fun hsuccess => hcan (hiff.mp hsuccess))]
  | setNode path nodeData =>
      obtain ⟨hwf, hiff, hfail, htree⟩ := setNode_spec hs path nodeData
      refine ⟨hiff, ⟨hwf, ?_⟩, fun h => hfail (h.resolve_right nofun)⟩
      show (s.setNode path nodeData).2.tree = Function.update _ _ _
      cases hsuccess : (s.setNode path nodeData).1.success with
      | true => exact htree hsuccess
      -- A set that fails writes to a path that is not there, which changes no map.
      | false =>
          have hnone : s.tree (splitPath path) = none := by
            rw [hsuccess] at hiff
            simpa using hiff
          rw [hfail hsuccess, hnone, Option.map_none, ← hnone, Function.update_eq_self]
  | deleteNode path =>
      obtain ⟨hwf, hiff, hfail, htree⟩ := deleteNode_spec hs path
      refine ⟨hiff, ⟨hwf, ?_⟩, fun h => hfail (h.resolve_right nofun)⟩
      show (s.deleteNode path).2.tree = _
      by_cases hcan : 2 ≤ (splitPath path).length ∧ (s.tree (splitPath path)).isSome
      · rw [NodeMap.next, if_pos hcan]
        exact htree (hiff.mpr hcan)
      · rw [NodeMap.next, if_neg hcan,
          hfail (Bool.eq_false_iff.mpr fun hsuccess => hcan (hiff.mp hsuccess))]
  | getNode path => exact ⟨getNode_answers hs path, ⟨hs, rfl⟩, fun _ => rfl⟩
  | lsNode path => exact ⟨lsNode_answers hs path, ⟨hs, rfl⟩, fun _ => rfl⟩
  | statNode path => exact ⟨statNode_answers hs path, ⟨hs, rfl⟩, fun _ => rfl⟩
  | existsNode path => exact ⟨existsNode_answers hs path, ⟨hs, rfl⟩, fun _ => rfl⟩

/-- A service that looks for the node at a path fails when it finds none, and says so. -/
theorem WellFormed.missing_eq (hs : s.WellFormed) (path : Bytes) :
    NodeMap.missing s.tree path =
      if splitPath path = [] then some (bytes "path error")
      else if ((s.walkTo (splitPath path)).bind s.heap.get).isSome then none
      else some (bytes "node not exists") := by
  rw [NodeMap.missing]
  by_cases hπ : splitPath path = []
  · rw [if_pos hπ, if_pos hπ]
  · rw [if_neg hπ, if_neg hπ]
    rcases hs.find_eq hπ with ⟨hnone, hfind⟩ | ⟨p, v, hp, hv, htree⟩
    · rw [hnone, hfind]
      rfl
    · rw [htree, hp, Option.bind_some, hv]
      rfl

theorem failure_createNode (hs : s.WellFormed) (sessionId : UInt64) (path nodeData : Bytes)
    (nodeType : NodeType) :
    (Response.createNode (s.createNode sessionId path nodeData nodeType).1).failure =
      NodeMap.reason s.tree (.createNode sessionId path nodeData nodeType) := by
  rw [NodeMap.reason, createNode]
  rcases List.eq_nil_or_concat' (splitPath path) with hπ | ⟨ρ, n, hπ⟩
  · simp [hπ, Response.failure]
  · have hne : ρ ++ [n] ≠ [] := by simp
    simp only [hπ, List.getLast?_concat, List.dropLast_concat, if_neg hne]
    cases hwalk : s.walkTo ρ with
    -- The parent is not there, and it is not the dummy.
    | none =>
        have hρ : ρ ≠ [] := by
          rintro rfl
          cases hwalk
        have hsome := hs.isSome_tree hρ
        rw [hwalk] at hsome
        have hparent : ρ ≠ [] ∧ (s.tree ρ).isNone := ⟨hρ, by simpa using hsome⟩
        rw [if_pos hparent]
        rfl
    | some curr =>
        have hparent : ¬ (ρ ≠ [] ∧ (s.tree ρ).isNone) := by
          rintro ⟨hρ, hnone⟩
          have hsome := hs.isSome_tree hρ
          rw [hwalk, Option.isNone_iff_eq_none.mp hnone] at hsome
          cases hsome
        rw [if_neg hparent, ← hs.isSome_childOf hwalk]
        by_cases hchild : (s.heap.childOf curr n).isSome
        · rw [if_pos hchild]
          simp only [hchild, if_true]
          rfl
        · simp only [hchild]
          rfl

theorem failure_deleteNode (hs : s.WellFormed) (path : Bytes) :
    (Response.deleteNode (s.deleteNode path).1).failure =
      NodeMap.reason s.tree (.deleteNode path) := by
  rw [NodeMap.reason, NodeMap.missing, deleteNode]
  rcases List.eq_nil_or_concat' (splitPath path) with hπ | ⟨ρ, n, hπ⟩
  · simp [hπ, Response.failure]
  · have hne : ρ ++ [n] ≠ [] := by simp
    simp only [hπ, List.getLast?_concat, List.dropLast_concat, if_neg hne]
    by_cases hlen : (ρ ++ [n]).length = 1
    · rw [if_pos hlen, if_pos hlen]
      rfl
    · rw [if_neg hlen, if_neg hlen, hs.isSome_tree hne, walkTo_concat]
      cases hwalk : s.walkTo ρ with
      | none => rfl
      | some curr =>
          rw [Option.bind_some]
          by_cases hchild : (s.heap.childOf curr n).isSome
          · simp only [hchild, if_true]
            rfl
          · simp only [hchild]
            rfl

/-- What a response that is no success says is why the request fails on the tree. -/
theorem failure_perform (hs : s.WellFormed) (request : Request) :
    (s.perform request).1.failure = NodeMap.reason s.tree request := by
  cases request with
  | createNode sessionId path nodeData nodeType =>
      exact failure_createNode hs sessionId path nodeData nodeType
  | deleteNode path => exact failure_deleteNode hs path
  | existsNode path =>
      show (Response.existsNode (s.existsNode path)).failure = _
      rw [NodeMap.reason, existsNode]
      by_cases hπ : splitPath path = []
      · rw [if_pos hπ, if_pos hπ]
        rfl
      · rw [if_neg hπ, if_neg hπ]
        rfl
  | getNode path =>
      show (Response.getNode (s.getNode path)).failure = NodeMap.missing s.tree path
      rw [hs.missing_eq, getNode]
      by_cases hπ : splitPath path = []
      · simp [hπ, Response.failure]
      · cases (s.walkTo (splitPath path)).bind s.heap.get <;> simp [hπ, Response.failure]
  | setNode path nodeData =>
      show (Response.setNode (s.setNode path nodeData).1).failure = NodeMap.missing s.tree path
      rw [NodeMap.missing, setNode]
      by_cases hπ : splitPath path = []
      · simp [hπ, Response.failure]
      · rw [hs.isSome_tree hπ]
        cases s.walkTo (splitPath path) <;> simp [hπ, Response.failure]
  | lsNode path =>
      show (Response.lsNode (s.lsNode path)).failure = NodeMap.missing s.tree path
      rw [hs.missing_eq, lsNode]
      by_cases hπ : splitPath path = []
      · simp [hπ, Response.failure]
      · cases (s.walkTo (splitPath path)).bind s.heap.get <;> simp [hπ, Response.failure]
  | statNode path =>
      show (Response.statNode (s.statNode path)).failure = NodeMap.missing s.tree path
      rw [hs.missing_eq, statNode]
      by_cases hπ : splitPath path = []
      · simp [hπ, Response.failure]
      · cases (s.walkTo (splitPath path)).bind s.heap.get <;> simp [hπ, Response.failure]

theorem simulates_performAll (requests : List Request) :
    Simulates (performAll requests) (requests.foldl NodeMap.next NodeMap.init) := by
  induction requests using List.reverseRecOn with
  | nil => exact simulates_init
  | append_singleton requests request ih =>
      rw [performAll, List.foldl_append, List.foldl_append]
      exact (simulates_perform ih request).2.1

/-- After every history of requests, by any sessions, the tree of the store is the map that
the history makes, the map is finite, the response to the next request says of the map what
it must, and a request that fails or only reads leaves the store as it is. -/
theorem store_refines_map (requests : List Request) (request : Request) :
    let s := performAll requests
    let A := requests.foldl NodeMap.next NodeMap.init
    s.tree = A ∧ A.IsFinite ∧ A.Answers request (s.perform request).1 ∧
      ((s.perform request).1.success = false ∨ request.reads = true →
        (s.perform request).2 = s) := by
  intro s A
  have hsim : Simulates s A := simulates_performAll requests
  obtain ⟨hanswer, -, hsame⟩ := simulates_perform hsim request
  exact ⟨hsim.tree, inv_foldl NodeMap.isFinite_next requests NodeMap.isFinite_init, hanswer, hsame⟩

end Services

end RegistrationCenter
