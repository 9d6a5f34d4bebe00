import RegistrationCenter.Proofs.Store.Refinement
import RegistrationCenter.Proofs.Store.Runs

/-!
# `RegistrationCenter.Proofs.Store.Commute`: requests on unrelated paths

The IO threads come to the store in any order. A request that writes changes what lies at or
below its path, and it is answered by what lies around it: `next_localAt` and
`writeAnswer_congr` say so of the map that the store simulates. So two such requests on paths of
which neither is below the other can change places: `perform_comm`.

The table of session nodes holds pointers, and a node that the one order makes first the other
makes second. `livePaths` are the nodes of a session by what can be seen of them, their paths.
-/

set_option autoImplicit false

namespace RegistrationCenter

open Lib RcHeap

/-- The path of a request. -/
def Request.path : Request → Bytes
  | .createNode _ path _ _ => path
  | .getNode path => path
  | .setNode path _ => path
  | .deleteNode path => path
  | .lsNode path => path
  | .statNode path => path
  | .existsNode path => path

namespace NodeMap

open Services (splitPath)

open PathMap (AgreeAround LocalAt)

variable {A B : NodeMap}

/-! ## The requests on the map -/

theorem canCreate_congr {π : List Bytes} (hAB : AgreeAround π A B) :
    A.CanCreate π ↔ B.CanCreate π := by
  rw [CanCreate, CanCreate, hAB π (.inl (List.prefix_refl π)),
    hAB π.dropLast (.inl (List.dropLast_prefix π))]

/-- A request that writes is local at its path. -/
theorem next_localAt (request : Request) :
    LocalAt (splitPath request.path) (fun A : NodeMap => A.next request) := by
  -- An update at the path touches no path that does not extend it.
  have hupdate : ∀ (π : List Bytes) (e : Option Entry) (A : NodeMap) τ, ¬ π <+: τ →
      Function.update A π e τ = A τ := by
    intro π e A τ hτ
    rw [Function.update_of_ne]
    rintro rfl
    exact hτ (List.prefix_refl τ)
  cases request with
  | createNode sessionId path nodeData nodeType =>
      let π := splitPath path
      refine ⟨fun A τ hτ => ?_, fun A B hAB τ hτ => ?_⟩
      · show NodeMap.next A _ τ = A τ
        rw [next]
        split
        · exact hupdate π _ A τ hτ
        · rfl
      · show NodeMap.next A _ τ = NodeMap.next B _ τ
        have hboth : NodeMap.CanCreate A π ↔ NodeMap.CanCreate B π := canCreate_congr hAB
        rw [next, next]
        by_cases hcan : NodeMap.CanCreate A π
        · rw [if_pos hcan, if_pos (hboth.mp hcan)]
          by_cases heq : τ = π
          · rw [heq, Function.update_self, Function.update_self]
          · rw [Function.update_of_ne heq, Function.update_of_ne heq]
            exact hAB τ (.inr hτ)
        · rw [if_neg hcan, if_neg (mt hboth.mpr hcan)]
          exact hAB τ (.inr hτ)
  | setNode path nodeData =>
      let π := splitPath path
      refine ⟨fun A τ hτ => hupdate π _ A τ hτ, fun A B hAB τ hτ => ?_⟩
      show Function.update A π _ τ = Function.update B π _ τ
      rw [hAB π (.inl (List.prefix_refl π))]
      by_cases heq : τ = π
      · rw [heq, Function.update_self, Function.update_self]
      · rw [Function.update_of_ne heq, Function.update_of_ne heq]
        exact hAB τ (.inr hτ)
  | deleteNode path =>
      let π := splitPath path
      refine ⟨fun A τ hτ => ?_, fun A B hAB τ hτ => ?_⟩
      · show (if 2 ≤ π.length ∧ (A π).isSome then A.cut {π} else A) τ = A τ
        split
        · refine PathMap.cut_eq_self ?_
          rintro ⟨ρ, rfl, hρ⟩
          exact hτ hρ
        · rfl
      · show (if 2 ≤ π.length ∧ (A π).isSome then A.cut {π} else A) τ =
          (if 2 ≤ π.length ∧ (B π).isSome then B.cut {π} else B) τ
        rw [hAB π (.inl (List.prefix_refl π))]
        split
        -- Everything at or below the path is gone.
        · have hcut : ∃ ρ ∈ ({π} : Set (List Bytes)), ρ <+: τ := ⟨π, Set.mem_singleton π, hτ⟩
          rw [PathMap.cut_eq_none hcut, PathMap.cut_eq_none hcut]
        · exact hAB τ (.inr hτ)
  | getNode path => exact PathMap.localAt_id _
  | lsNode path => exact PathMap.localAt_id _
  | statNode path => exact PathMap.localAt_id _
  | existsNode path => exact PathMap.localAt_id _

/-- The response to a request that writes, with the text of the error. -/
def writeAnswer (A : NodeMap) : Request → Option Response
  | .createNode _ path _ _ =>
      let π := splitPath path
      some <| .createNode <|
        if π = [] then { success := false, errmsg := bytes "path error" }
        else if ¬ (π.dropLast = [] ∨ (A π.dropLast).isSome) then
          { success := false, errmsg := bytes "path not exists" }
        else if (A π).isSome then { success := false, errmsg := bytes "node already exists" }
        else { success := true }
  | .setNode path _ =>
      let π := splitPath path
      some <| .setNode <|
        if π = [] then { success := false, errmsg := bytes "path error" }
        else if (A π).isSome then { success := true }
        else { success := false, errmsg := bytes "node not exists" }
  | .deleteNode path =>
      let π := splitPath path
      some <| .deleteNode <|
        if π = [] then { success := false, errmsg := bytes "path error" }
        else if π.length = 1 then
          { success := false, errmsg := bytes "delete the root node is not allowed" }
        else if (A π).isSome then { success := true }
        else { success := false, errmsg := bytes "node not exists" }
  | .getNode _ => none
  | .lsNode _ => none
  | .statNode _ => none
  | .existsNode _ => none

/-- The response goes by what lies around the path. -/
theorem writeAnswer_congr (request : Request) (hAB : AgreeAround (splitPath request.path) A B) :
    A.writeAnswer request = B.writeAnswer request := by
  -- A response asks for the path and its parent, and for nothing else.
  have hself := hAB _ (.inl (List.prefix_refl _))
  have hparent := hAB _ (.inl (List.dropLast_prefix _))
  cases request with
  | createNode sessionId path nodeData nodeType =>
      have hself : A (splitPath path) = B (splitPath path) := hself
      have hparent : A (splitPath path).dropLast = B (splitPath path).dropLast := hparent
      rw [writeAnswer, writeAnswer, hself, hparent]
  | setNode path nodeData =>
      have hself : A (splitPath path) = B (splitPath path) := hself
      rw [writeAnswer, writeAnswer, hself]
  | deleteNode path =>
      have hself : A (splitPath path) = B (splitPath path) := hself
      rw [writeAnswer, writeAnswer, hself]
  | getNode path => rfl
  | lsNode path => rfl
  | statNode path => rfl
  | existsNode path => rfl

end NodeMap

namespace Services

variable {s : Services}

theorem createNode_fst (hs : s.WellFormed) (sessionId : UInt64) (path nodeData : Bytes)
    (nodeType : NodeType) :
    NodeMap.writeAnswer s.tree (.createNode sessionId path nodeData nodeType) =
      some (.createNode (s.createNode sessionId path nodeData nodeType).1) := by
  rw [NodeMap.writeAnswer, createNode]
  rcases List.eq_nil_or_concat' (splitPath path) with hπ | ⟨ρ, n, hπ⟩
  · simp [hπ]
  · have hparent := hs.isSome_walkTo ρ
    cases hwalk : s.walkTo ρ with
    -- The parent is not there, in the store and in the map.
    | none =>
        rw [hwalk] at hparent
        have hnot : ¬ (ρ = [] ∨ (s.tree ρ).isSome) := mt hparent.mpr Bool.false_ne_true
        simp [hπ, hwalk, hnot]
    | some curr =>
        have hthere : ρ = [] ∨ (s.tree ρ).isSome := hparent.mp (by rw [hwalk]; rfl)
        rw [hπ, ← hs.isSome_childOf hwalk]
        cases hchild : s.heap.childOf curr n with
        | none => simp [hwalk, hthere, hchild]
        | some q => simp [hwalk, hthere, hchild]

theorem setNode_fst (hs : s.WellFormed) (path nodeData : Bytes) :
    NodeMap.writeAnswer s.tree (.setNode path nodeData) =
      some (.setNode (s.setNode path nodeData).1) := by
  rw [NodeMap.writeAnswer, setNode]
  by_cases hπ : splitPath path = []
  · simp [hπ]
  · rw [hs.isSome_tree hπ]
    cases hwalk : s.walkTo (splitPath path) with
    | none => simp [hπ]
    | some curr => simp [hπ]

theorem deleteNode_fst (hs : s.WellFormed) (path : Bytes) :
    NodeMap.writeAnswer s.tree (.deleteNode path) =
      some (.deleteNode (s.deleteNode path).1) := by
  rw [NodeMap.writeAnswer, deleteNode]
  rcases List.eq_nil_or_concat' (splitPath path) with hπ | ⟨ρ, n, hπ⟩
  · simp [hπ]
  · have hsome := hs.isSome_tree (show ρ ++ [n] ≠ [] by simp)
    rw [walkTo_concat] at hsome
    rw [hπ, hsome]
    -- The root is refused before it is looked up.
    by_cases hroot : ρ = []
    · simp [hroot]
    · cases hwalk : s.walkTo ρ with
      | none => simp [hwalk, hroot]
      | some curr =>
          cases hchild : s.heap.childOf curr n with
          | none => simp [hwalk, hchild, hroot]
          | some q => simp [hwalk, hchild, hroot]

/-- The response of the store to a request that writes is that of the map. -/
theorem writeAnswer_perform (hs : s.WellFormed) {request : Request}
    (hwrites : request.reads = false) :
    NodeMap.writeAnswer s.tree request = some (s.perform request).1 := by
  cases request with
  | createNode sessionId path nodeData nodeType =>
      exact createNode_fst hs sessionId path nodeData nodeType
  | setNode path nodeData => exact setNode_fst hs path nodeData
  | deleteNode path => exact deleteNode_fst hs path
  | getNode path => cases hwrites
  | lsNode path => cases hwrites
  | statNode path => cases hwrites
  | existsNode path => cases hwrites

/-! ## The table of session nodes -/

open Classical in
/-- The path of a node that is attached. -/
noncomputable def pathOf (s : Services) (p : Nat) : Option (List Bytes) :=
  if h : ∃ π, s.walkTo π = some p then some h.choose else none

/-- The paths of the session nodes that the table lists for a session, less the expired
entries. -/
noncomputable def livePaths (s : Services) (sessionId : UInt64) : List (List Bytes) :=
  ((s.m_sessionMap sessionId).getD []).filterMap s.pathOf

theorem WellFormed.pathOf_eq_some (hs : s.WellFormed) {p : Nat} {π : List Bytes} :
    s.pathOf p = some π ↔ s.walkTo π = some p := by
  rw [pathOf]
  split
  case isTrue h =>
    rw [Option.some.injEq]
    exact ⟨fun heq => heq ▸ h.choose_spec, fun hπ => hs.rooted.walk_inj h.choose_spec hπ⟩
  case isFalse h => exact ⟨nofun, fun hπ => absurd ⟨π, hπ⟩ h⟩

/-- The table has the session nodes of the tree. -/
theorem WellFormed.mem_livePaths (hs : s.WellFormed) {sessionId : UInt64} {π : List Bytes} :
    π ∈ s.livePaths sessionId ↔
      ∃ e, s.tree π = some e ∧ e.type = .EPHEMERAL ∧ e.owner = sessionId := by
  rw [livePaths, List.mem_filterMap]
  constructor
  · rintro ⟨p, hmem, hp⟩
    have hwalk := hs.pathOf_eq_some.mp hp
    obtain ⟨v, hv⟩ := get_eq_some_of_isSome (hs.rooted.isSome_of_walk hwalk)
    obtain ⟨htype, howner⟩ := hs.owned hmem hv
    -- The node is not the dummy, because the dummy is permanent.
    have hne : π ≠ [] := by
      rintro rfl
      obtain rfl : s.m_dummy = p := Option.some.inj hwalk
      rw [hs.dummy hv] at htype
      cases htype
    exact ⟨v.entry, tree_eq_some.mpr ⟨hne, p, v, hwalk, hv, rfl⟩, htype, howner⟩
  · rintro ⟨e, he, htype, howner⟩
    obtain ⟨-, p, v, hwalk, hv, rfl⟩ := tree_eq_some.mp he
    exact ⟨p, hs.listed ⟨v, hv, htype, howner⟩, hs.pathOf_eq_some.mpr hwalk⟩

theorem WellFormed.nodup_livePaths (hs : s.WellFormed) (sessionId : UInt64) :
    (s.livePaths sessionId).Nodup := by
  refine (hs.nodup sessionId).filterMap fun p q π hp hq => ?_
  have hp := hs.pathOf_eq_some.mp hp
  have hq := hs.pathOf_eq_some.mp hq
  exact Option.some.inj (hp.symm.trans hq)

/-- The tables are the same up to the order of the entries and the expired ones. -/
structure SameTable (s s' : Services) : Prop where
  keys : ∀ sessionId, (s.m_sessionMap sessionId).isSome = (s'.m_sessionMap sessionId).isSome
  entries : ∀ sessionId, (s.livePaths sessionId).Perm (s'.livePaths sessionId)

/-- The tables of equal trees have the same live entries. -/
theorem WellFormed.perm_livePaths {s' : Services} (hs : s.WellFormed) (hs' : s'.WellFormed)
    (htree : s.tree = s'.tree) (sessionId : UInt64) :
    (s.livePaths sessionId).Perm (s'.livePaths sessionId) := by
  refine (List.perm_ext_iff_of_nodup (hs.nodup_livePaths _) (hs'.nodup_livePaths _)).mpr ?_
  intro π
  rw [hs.mem_livePaths, hs'.mem_livePaths, htree]

/-- The request creates a session node of the session. -/
def Records (A : NodeMap) (sessionId : UInt64) : Request → Prop
  | .createNode id path _ nodeType =>
      nodeType = .EPHEMERAL ∧ id = sessionId ∧ A.CanCreate (splitPath path)
  | _ => False

theorem records_congr {A B : NodeMap} {sessionId : UInt64} {request : Request}
    (hAB : PathMap.AgreeAround (splitPath request.path) A B) :
    Records A sessionId request ↔ Records B sessionId request := by
  cases request with
  | createNode id path nodeData nodeType =>
      have hAB : PathMap.AgreeAround (splitPath path) A B := hAB
      exact and_congr_right fun _ => and_congr_right fun _ => NodeMap.canCreate_congr hAB
  | setNode path nodeData => exact Iff.rfl
  | deleteNode path => exact Iff.rfl
  | getNode path => exact Iff.rfl
  | lsNode path => exact Iff.rfl
  | statNode path => exact Iff.rfl
  | existsNode path => exact Iff.rfl

/-- A session gets a key in the table with its first session node. -/
theorem WellFormed.isSome_sessionMap_perform (hs : s.WellFormed) (request : Request)
    (sessionId : UInt64) : ((s.perform request).2.m_sessionMap sessionId).isSome ↔
      (s.m_sessionMap sessionId).isSome ∨ Records s.tree sessionId request := by
  have hsame : ∀ {P : Prop}, ¬ P → ((s.m_sessionMap sessionId).isSome ↔
      (s.m_sessionMap sessionId).isSome ∨ P) := fun hP => (or_iff_left hP).symm
  cases request with
  | createNode id path nodeData nodeType =>
      obtain ⟨-, hiff, -⟩ := createNode_spec hs id path nodeData nodeType
      show ((s.createNode id path nodeData nodeType).2.m_sessionMap sessionId).isSome ↔ _
      rw [isSome_sessionMap_createNode]
      refine or_congr_right ?_
      -- A create succeeds exactly when it can.
      constructor
      · rintro ⟨hsuccess, htype, heq⟩
        exact ⟨htype, heq.symm, hiff.mp hsuccess⟩
      · rintro ⟨htype, heq, hcan⟩
        exact ⟨hiff.mpr hcan, htype, heq.symm⟩
  | setNode path nodeData =>
      show ((s.setNode path nodeData).2.m_sessionMap sessionId).isSome ↔ _
      rw [m_sessionMap_setNode]
      exact hsame id
  | deleteNode path =>
      show ((s.deleteNode path).2.m_sessionMap sessionId).isSome ↔ _
      rw [m_sessionMap_deleteNode]
      exact hsame id
  | getNode path => exact hsame id
  | lsNode path => exact hsame id
  | statNode path => exact hsame id
  | existsNode path => exact hsame id

/-! ## Both orders -/

/-- What one request does is not seen around the path of the other. -/
theorem WellFormed.agreeAround_perform (hs : s.WellFormed) {a b : Request}
    (hab : ¬ splitPath a.path <+: splitPath b.path)
    (hba : ¬ splitPath b.path <+: splitPath a.path) :
    PathMap.AgreeAround (splitPath b.path) (s.perform a).2.tree s.tree := by
  rw [(simulates_perform ⟨hs, rfl⟩ a).2.1.tree]
  exact (NodeMap.next_localAt a).agreeAround hba hab s.tree

/-- A request is answered in the same way after the other one as before it. -/
theorem WellFormed.perform_perform_fst (hs : s.WellFormed) {a b : Request}
    (hb : b.reads = false) (hab : ¬ splitPath a.path <+: splitPath b.path)
    (hba : ¬ splitPath b.path <+: splitPath a.path) :
    ((s.perform a).2.perform b).1 = (s.perform b).1 := by
  have hs' : (s.perform a).2.WellFormed := (simulates_perform ⟨hs, rfl⟩ a).2.1.wellFormed
  have hanswer := NodeMap.writeAnswer_congr b (hs.agreeAround_perform hab hba)
  rw [writeAnswer_perform hs' hb, writeAnswer_perform hs hb] at hanswer
  exact Option.some.inj hanswer

/-- The trees of both orders. -/
theorem WellFormed.perform_perform_tree (hs : s.WellFormed) {a b : Request}
    (hab : ¬ splitPath a.path <+: splitPath b.path)
    (hba : ¬ splitPath b.path <+: splitPath a.path) :
    ((s.perform a).2.perform b).2.tree = ((s.perform b).2.perform a).2.tree := by
  have htree : ∀ a b : Request,
      ((s.perform a).2.perform b).2.tree = NodeMap.next (NodeMap.next s.tree a) b := fun a b =>
    (simulates_perform (simulates_perform ⟨hs, rfl⟩ a).2.1 b).2.1.tree
  rw [htree a b, htree b a]
  exact (NodeMap.next_localAt b).comm (NodeMap.next_localAt a) hba hab s.tree

/-- Two requests that write, on paths of which neither is below the other: in every reachable
store, both orders give the same responses, the same tree, and the same table up to the order of
its entries and the expired ones. -/
theorem perform_comm (calls : List StoreCall) (a b : Request) (ha : a.reads = false)
    (hb : b.reads = false) (hab : ¬ splitPath a.path <+: splitPath b.path)
    (hba : ¬ splitPath b.path <+: splitPath a.path) :
    let s := storeRun calls
    ((s.perform a).2.perform b).1 = (s.perform b).1 ∧
      ((s.perform b).2.perform a).1 = (s.perform a).1 ∧
      ((s.perform a).2.perform b).2.tree = ((s.perform b).2.perform a).2.tree ∧
      SameTable ((s.perform a).2.perform b).2 ((s.perform b).2.perform a).2 := by
  intro s
  have hs : s.WellFormed := wellFormed_storeRun calls
  have hsim : ∀ a b, ((s.perform a).2.perform b).2.WellFormed := fun a b =>
    (simulates_perform (simulates_perform ⟨hs, rfl⟩ a).2.1 b).2.1.wellFormed
  have htree := hs.perform_perform_tree hab hba
  -- The keys of the table: those that were there, and those of the two requests.
  have hkeys : ∀ {a b : Request} sessionId, ¬ splitPath a.path <+: splitPath b.path →
      ¬ splitPath b.path <+: splitPath a.path →
      ((((s.perform a).2.perform b).2.m_sessionMap sessionId).isSome ↔
        ((s.m_sessionMap sessionId).isSome ∨ Records s.tree sessionId a) ∨
          Records s.tree sessionId b) := by
    intro a b sessionId hab hba
    have hs' : (s.perform a).2.WellFormed := (simulates_perform ⟨hs, rfl⟩ a).2.1.wellFormed
    rw [hs'.isSome_sessionMap_perform, hs.isSome_sessionMap_perform,
      records_congr (hs.agreeAround_perform hab hba)]
  refine ⟨hs.perform_perform_fst hb hab hba, hs.perform_perform_fst ha hba hab, htree,
    fun sessionId => ?_, fun sessionId => ?_⟩
  · rw [Bool.eq_iff_iff, hkeys sessionId hab hba, hkeys sessionId hba hab]
    exact or_right_comm
  · exact (hsim a b).perm_livePaths (hsim b a) htree sessionId

/-- A session node beside a subtree that goes. -/
theorem perform_comm_siblings :
    let s := storeRun [.create 1 (bytes "/a") [] .PERSISTENT,
      .create 1 (bytes "/a/b") [] .EPHEMERAL, .create 2 (bytes "/a/b/c") [] .EPHEMERAL]
    let a : Request := .createNode 2 (bytes "/a/d") (bytes "x") .EPHEMERAL
    let b : Request := .deleteNode (bytes "/a/b/")
    ((s.perform a).2.perform b).1 = (s.perform b).1 ∧
      ((s.perform b).2.perform a).1 = (s.perform a).1 ∧
      ((s.perform a).2.perform b).2.tree = ((s.perform b).2.perform a).2.tree ∧
      SameTable ((s.perform a).2.perform b).2 ((s.perform b).2.perform a).2 :=
  perform_comm _ _ _ rfl rfl (by decide) (by decide)

end Services

end RegistrationCenter
