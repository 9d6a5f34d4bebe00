import RegistrationCenter.Lib.PathMap
import RegistrationCenter.Spec.Services

/-!
# `RegistrationCenter.Proofs.Store.WellFormed`: the invariant of the store

`WellFormed` ties the tree and the session table together: the heap is a tree below
the dummy node, each node knows its name and its parent, the root is there, and the
table lists each live session node once, under its owner, and no other live node.

Every operation acts on the heap in one of three ways: it changes the data of a node,
inserts a leaf, or prunes a closed set of nodes. One lemma for each says that it keeps
the invariant and what it does to `tree`, the map from paths to entries.
-/

set_option autoImplicit false

namespace RegistrationCenter

open Lib RcHeap

/-- What a node says besides its name and its place. -/
structure Entry where
  data : Bytes
  type : NodeType
  owner : UInt64
  deriving DecidableEq

def DNode.entry (v : DNode) : Entry :=
  { data := v.data, type := v.type, owner := v.ephemeralOwner }

/-- The fields of a node that nothing changes. -/
def DNode.fixed (v : DNode) : Bytes × NodeType × UInt64 × Option Nat :=
  (v.name, v.type, v.ephemeralOwner, v.parent)

theorem DNode.fixed_eq {v v' : DNode} (heq : v.fixed = v'.fixed) : v.name = v'.name ∧
    v.type = v'.type ∧ v.ephemeralOwner = v'.ephemeralOwner ∧ v.parent = v'.parent := by
  simpa only [DNode.fixed, Prod.mk.injEq] using heq

namespace Services

/-- The entries of the store by the components of their paths. -/
def tree (s : Services) : PathMap Bytes Entry := fun π =>
  if π = [] then none else ((s.walkTo π).bind s.heap.get).map DNode.entry

/-- `p` is a live session node of the session. -/
def SessionNode (h : RcHeap DNode) (sessionId : UInt64) (p : Nat) : Prop :=
  ∃ v, h.get p = some v ∧ v.type = .EPHEMERAL ∧ v.ephemeralOwner = sessionId

structure WellFormed (s : Services) : Prop where
  rooted : s.heap.Rooted s.m_dummy
  /-- A node knows its name, and its parent unless it is the root. -/
  named : ∀ {p n q v}, s.heap.childOf p n = some q → s.heap.get q = some v →
    v.name = n ∧ (v.parent = some p ∨
      v.parent = none ∧ v.type = .PERSISTENT ∧ p = s.m_dummy ∧ n = [])
  dummy : ∀ {v}, s.heap.get s.m_dummy = some v → v.type = .PERSISTENT
  root : ∃ q, s.heap.childOf s.m_dummy [] = some q ∧
    ∀ {v}, s.heap.get q = some v → v.type = .PERSISTENT
  listed : ∀ {id p}, SessionNode s.heap id p → p ∈ (s.m_sessionMap id).getD []
  owned : ∀ {id p v}, p ∈ (s.m_sessionMap id).getD [] → s.heap.get p = some v →
    v.type = .EPHEMERAL ∧ v.ephemeralOwner = id
  nodup : ∀ id, ((s.m_sessionMap id).getD []).Nodup
  old : ∀ {id p}, p ∈ (s.m_sessionMap id).getD [] → p < s.heap.next

variable {s : Services}

theorem get_eq_some_of_isSome {h : RcHeap DNode} {p : Nat} (hp : (h.cells p).isSome) :
    ∃ v, h.get p = some v := by
  obtain ⟨c, hc⟩ := Option.isSome_iff_exists.mp hp
  exact ⟨c.value, by simp [RcHeap.get, hc]⟩

theorem isSome_of_get {h : RcHeap DNode} {p : Nat} {v : DNode} (hv : h.get p = some v) :
    (h.cells p).isSome := by
  obtain ⟨c, hc, _⟩ := Option.map_eq_some_iff.mp hv
  rw [hc]
  rfl

/-- A live session node hangs below a live parent, which it knows. -/
theorem WellFormed.parent_of_session (hs : s.WellFormed) {p : Nat} {v : DNode}
    (hv : s.heap.get p = some v) (htype : v.type = .EPHEMERAL) :
    ∃ q, v.parent = some q ∧ (s.heap.cells q).isSome ∧ s.heap.childOf q v.name = some p := by
  have hne : p ≠ s.m_dummy := by
    rintro rfl
    rw [hs.dummy hv] at htype
    cases htype
  obtain ⟨q, n, hn⟩ := hs.rooted.attached (isSome_of_get hv) hne
  obtain ⟨hname, hparent⟩ := hs.named hn hv
  subst hname
  rcases hparent with hparent | ⟨-, hpers, -, -⟩
  · obtain ⟨c, hc, _⟩ := childOf_eq_some.mp hn
    exact ⟨q, hparent, by rw [hc]; rfl, hn⟩
  · rw [hpers] at htype
    cases htype

/-! ### Entries by path -/

theorem tree_eq_some {π : List Bytes} {e : Entry} : s.tree π = some e ↔
    π ≠ [] ∧ ∃ p v, s.walkTo π = some p ∧ s.heap.get p = some v ∧ v.entry = e := by
  unfold tree
  by_cases hπ : π = []
  · simp [hπ]
  · simp only [if_neg hπ, Option.map_eq_some_iff, Option.bind_eq_some_iff]
    constructor
    · rintro ⟨v, ⟨p, hp, hv⟩, he⟩
      exact ⟨hπ, p, v, hp, hv, he⟩
    · rintro ⟨-, p, v, hp, hv, he⟩
      exact ⟨v, ⟨p, hp, hv⟩, he⟩

theorem WellFormed.isSome_tree (hs : s.WellFormed) {π : List Bytes} (hπ : π ≠ []) :
    (s.tree π).isSome = (s.walkTo π).isSome := by
  unfold tree
  rw [if_neg hπ, Option.isSome_map]
  cases hp : s.walkTo π with
  | none => rfl
  | some p =>
      obtain ⟨v, hv⟩ := get_eq_some_of_isSome (hs.rooted.isSome_of_walk hp)
      rw [Option.bind_some, hv]
      rfl

/-! ### Pruning -/

/-- A change that takes no new child in, keeps the root, and leaves the fixed fields of the
nodes it keeps. -/
theorem WellFormed.of_fixed (hs : s.WellFormed) {h' : RcHeap DNode}
    (hrooted : h'.Rooted s.m_dummy)
    (hchild : ∀ {p n q}, h'.childOf p n = some q → s.heap.childOf p n = some q)
    (hroot : ∀ {q}, s.heap.childOf s.m_dummy [] = some q → h'.childOf s.m_dummy [] = some q)
    (hfixed : ∀ {q v'}, h'.get q = some v' → ∃ v, s.heap.get q = some v ∧ v.fixed = v'.fixed)
    (hnext : h'.next = s.heap.next) : ({ s with heap := h' } : Services).WellFormed := by
  have hget : ∀ {q v'}, h'.get q = some v' → ∃ v, s.heap.get q = some v ∧ v.name = v'.name ∧
      v.type = v'.type ∧ v.ephemeralOwner = v'.ephemeralOwner ∧ v.parent = v'.parent := by
    intro q v' hv'
    obtain ⟨v, hv, heq⟩ := hfixed hv'
    exact ⟨v, hv, DNode.fixed_eq heq⟩
  refine { rooted := hrooted, named := ?_, dummy := ?_, root := ?_, listed := ?_, owned := ?_,
           nodup := hs.nodup, old := ?_ }
  · intro p n q v' hn hv'
    obtain ⟨v, hv, hname, htype, -, hparent⟩ := hget hv'
    rw [← hname, ← hparent, ← htype]
    exact hs.named (hchild hn) hv
  · intro v' hv'
    obtain ⟨v, hv, -, htype, -, -⟩ := hget hv'
    rw [← htype]
    exact hs.dummy hv
  · obtain ⟨q, hq, htype⟩ := hs.root
    refine ⟨q, hroot hq, ?_⟩
    intro v' hv'
    obtain ⟨v, hv, -, heq, -, -⟩ := hget hv'
    rw [← heq]
    exact htype hv
  · rintro id p ⟨v', hv', htype', howner'⟩
    obtain ⟨v, hv, -, htype, howner, -⟩ := hget hv'
    exact hs.listed ⟨v, hv, htype.trans htype', howner.trans howner'⟩
  · intro id p v' hmem hv'
    obtain ⟨v, hv, -, htype, howner, -⟩ := hget hv'
    rw [← htype, ← howner]
    exact hs.owned hmem hv
  · intro id p hmem
    show p < h'.next
    rw [hnext]
    exact hs.old hmem

/-- Pruning a closed set of nodes without the dummy and the root. -/
theorem WellFormed.pruned (hs : s.WellFormed) {h' : RcHeap DNode} {D : Set Nat}
    (hp : Pruned D s.heap h') (hclosed : s.heap.Closed D) (hdummy : s.m_dummy ∉ D)
    (hroot : ∀ q, s.heap.childOf s.m_dummy [] = some q → q ∉ D) :
    ({ s with heap := h' } : Services).WellFormed := by
  refine hs.of_fixed (hp.rooted hs.rooted hdummy hclosed)
    (fun hn => (hp.childOf_eq_some.mp hn).2.1)
    (fun hq => hp.childOf_eq_some.mpr ⟨hdummy, hq, hroot _ hq⟩) ?_ hp.next
  intro q v' hv'
  have hq : q ∉ D := (hp.isSome_cells.mp (isSome_of_get hv')).2
  have hmap := hp.map_get (f := DNode.fixed) (fun _ _ => rfl) hq
  rw [hv', Option.map_some] at hmap
  exact Option.map_eq_some_iff.mp hmap.symm

/-- Pruning what lies at or below the nodes of `E` cuts their paths. -/
theorem WellFormed.tree_pruned (hs : s.WellFormed) {h' : RcHeap DNode} {E : Set Nat}
    (hp : Pruned { r | ∃ e ∈ E, r ∈ s.heap.below e } s.heap h')
    (hE : ∀ e ∈ E, (s.heap.cells e).isSome) (hdummy : s.m_dummy ∉ E) :
    ({ s with heap := h' } : Services).tree
      = s.tree.cut { ρ | ∃ e ∈ E, s.walkTo ρ = some e } := by
  have hclosed : s.heap.Closed { r | ∃ e ∈ E, r ∈ s.heap.below e } := closed_below_of s.heap (· ∈ E)
  have htop : s.m_dummy ∉ { r | ∃ e ∈ E, r ∈ s.heap.below e } := by
    rintro ⟨e, he, hbelow⟩
    exact hdummy (hs.rooted.root_mem_below hbelow ▸ he)
  funext π
  apply Option.ext
  intro e
  rw [PathMap.cut_eq_some, tree_eq_some, tree_eq_some]
  constructor
  -- A path that is left leads to a survivor, so no cut path is a beginning of it.
  · rintro ⟨hπ, p, v', hwalk, hv', he⟩
    obtain ⟨hwalk, hpD⟩ := (hp.walk_eq_some hclosed htop).mp hwalk
    have hmap := hp.map_get (f := DNode.entry) (fun _ _ => rfl) hpD
    have hv'' : h'.get p = some v' := hv'
    rw [hv'', Option.map_some] at hmap
    obtain ⟨v, hv, heq⟩ := Option.map_eq_some_iff.mp hmap.symm
    refine ⟨⟨hπ, p, v, hwalk, hv, heq.trans he⟩, ?_⟩
    rintro ρ ⟨a, ha, hρ⟩ hpre
    exact hpD ⟨a, ha, (hs.rooted.mem_below_iff_prefix hρ hwalk).mpr hpre⟩
  -- A path that is not cut does not go through a node of `E`, so its node survives.
  · rintro ⟨⟨hπ, p, v, hwalk, hv, he⟩, hcut⟩
    have hpD : p ∉ { r | ∃ e ∈ E, r ∈ s.heap.below e } := by
      rintro ⟨a, ha, hbelow⟩
      obtain ⟨ρ, hρ⟩ := hs.rooted.exists_walk (hE a ha)
      exact hcut ρ ⟨a, ha, hρ⟩ ((hs.rooted.mem_below_iff_prefix hρ hwalk).mp hbelow)
    have hmap := hp.map_get (f := DNode.entry) (fun _ _ => rfl) hpD
    rw [hv, Option.map_some] at hmap
    obtain ⟨v', hv', heq⟩ := Option.map_eq_some_iff.mp hmap
    exact ⟨hπ, p, v', (hp.walk_eq_some hclosed htop).mpr ⟨hwalk, hpD⟩, hv', heq.trans he⟩

/-! ### Erasing a node -/

theorem walkTo_concat (s : Services) (ρ : List Bytes) (n : Bytes) :
    s.walkTo (ρ ++ [n]) = (s.walkTo ρ).bind fun p => s.heap.childOf p n :=
  walk_concat _ _ _ _

/-- What is at a shorter path is not below a node. -/
theorem WellFormed.notMem_below_of_length_lt (hs : s.WellFormed) {π σ : List Bytes} {q r : Nat}
    (hq : s.walkTo π = some q) (hr : s.walkTo σ = some r) (hlt : σ.length < π.length) :
    r ∉ s.heap.below q := by
  intro hbelow
  have hprefix := (hs.rooted.mem_below_iff_prefix hq hr).mp hbelow
  exact absurd hprefix.length_le (by omega)

/-- A node other than the root goes with all that is below it. -/
theorem WellFormed.eraseChild (hs : s.WellFormed) {ρ : List Bytes} {n : Bytes} {curr q : Nat}
    (hwalk : s.walkTo ρ = some curr) (hchild : s.heap.childOf curr n = some q) (hρ : ρ ≠ []) :
    ({ s with heap := s.heap.eraseChild curr n } : Services).WellFormed := by
  have hwalkq : s.walkTo (ρ ++ [n]) = some q := by
    rw [walkTo_concat, hwalk]
    exact hchild
  -- A path of two components or more does not lead to the dummy or the root.
  have hlen : 1 < (ρ ++ [n]).length := by
    rw [List.length_append]
    exact Nat.lt_add_of_pos_left (List.length_pos_iff.mpr hρ)
  have hdummy : s.m_dummy ∉ s.heap.below q := by
    have hσ : s.walkTo [] = some s.m_dummy := rfl
    exact hs.notMem_below_of_length_lt hwalkq hσ (Nat.zero_lt_of_lt hlen)
  have hroot : ∀ r, s.heap.childOf s.m_dummy [] = some r → r ∉ s.heap.below q := by
    intro r hr
    have hσ : s.walkTo ([] ++ [([] : Bytes)]) = some r := by
      rw [walkTo_concat]
      exact hr
    exact hs.notMem_below_of_length_lt hwalkq hσ hlen
  exact hs.pruned (pruned_eraseChild hs.rooted.toForest hchild) (closed_below _ _) hdummy hroot

theorem WellFormed.tree_eraseChild (hs : s.WellFormed) {ρ : List Bytes} {n : Bytes}
    {curr q : Nat} (hwalk : s.walkTo ρ = some curr) (hchild : s.heap.childOf curr n = some q) :
    ({ s with heap := s.heap.eraseChild curr n } : Services).tree = s.tree.cut {ρ ++ [n]} := by
  have hwalkq : s.walkTo (ρ ++ [n]) = some q := by
    rw [walkTo_concat, hwalk]
    exact hchild
  have hlive := hs.rooted.isSome_of_walk hwalkq
  have hne : s.m_dummy ≠ q := fun heq => hs.rooted.rootFree curr ⟨n, heq ▸ hchild⟩
  have hprune : Pruned { r | ∃ e ∈ ({q} : Set Nat), r ∈ s.heap.below e } s.heap
      (s.heap.eraseChild curr n) := by
    simpa using pruned_eraseChild hs.rooted.toForest hchild
  rw [hs.tree_pruned hprune (by simpa using hlive) (by simpa using hne)]
  -- The only path to the erased node is the one of the request.
  congr 1
  ext σ
  simp only [Set.mem_singleton_iff, exists_eq_left, Set.mem_ofPred_eq]
  exact ⟨fun hσ => hs.rooted.walk_inj hσ hwalkq, fun h => h ▸ hwalkq⟩

/-! ### Inserting a leaf -/

theorem get_insertChild_self {h : RcHeap DNode} {p : Nat} (hp : p ≠ h.next) (n : Bytes)
    (v : DNode) : (h.insertChild p n v).get h.next = some v := by
  rw [RcHeap.get, cells_insertChild hp, if_pos rfl]
  rfl

/-- The nodes other than the new one are as before, besides their children. -/
theorem get_insertChild_of_ne {h : RcHeap DNode} {p a : Nat} (hp : p ≠ h.next)
    (ha : a ≠ h.next) {n : Bytes} {w v' : DNode} (hv' : (h.insertChild p n w).get a = some v') :
    ∃ v, h.get a = some v ∧ v.name = v'.name ∧ v.type = v'.type ∧
      v.ephemeralOwner = v'.ephemeralOwner ∧ v.parent = v'.parent := by
  have hmap := map_get_insertChild (f := DNode.fixed) (fun _ _ => rfl) hp n w a
  rw [if_neg ha, hv', Option.map_some] at hmap
  obtain ⟨v, hv, heq⟩ := Option.map_eq_some_iff.mp hmap.symm
  exact ⟨v, hv, DNode.fixed_eq heq⟩

/-- A live session node after the insertion is one from before, or the new node. -/
theorem sessionNode_insertChild {h : RcHeap DNode} {p : Nat} (hp : p ≠ h.next) {n : Bytes}
    {w : DNode} {id : UInt64} {a : Nat} (ha : SessionNode (h.insertChild p n w) id a) :
    SessionNode h id a ∨ a = h.next ∧ w.type = .EPHEMERAL ∧ w.ephemeralOwner = id := by
  obtain ⟨v', hv', htype', howner'⟩ := ha
  by_cases hnew : a = h.next
  · subst hnew
    rw [get_insertChild_self hp] at hv'
    cases hv'
    exact Or.inr ⟨rfl, htype', howner'⟩
  · obtain ⟨v, hv, -, htype, howner, -⟩ := get_insertChild_of_ne hp hnew hv'
    exact Or.inl ⟨v, hv, htype.trans htype', howner.trans howner'⟩

/-- The lists of the table after a new session node. -/
theorem getD_addSessionNode (s : Services) (owner : UInt64) (p : Nat) (id : UInt64) :
    ((s.addSessionNode owner p).m_sessionMap id).getD [] =
      (s.m_sessionMap id).getD [] ++ if owner = id then [p] else [] := by
  by_cases hid : id = owner
  · subst hid
    simp [addSessionNode]
  · simp [addSessionNode, hid, Ne.symm hid]

/-- A new leaf that knows its name and its parent keeps the names of the tree. -/
theorem WellFormed.named_insertChild (hs : s.WellFormed) {curr : Nat} {name : Bytes} {w : DNode}
    (hcurr : (s.heap.cells curr).isSome) (hnone : s.heap.childOf curr name = none)
    (hw : w.children = ∅) (hname : w.name = name) (hparent : w.parent = some curr)
    {p : Nat} {n : Bytes} {q : Nat} {v : DNode}
    (hn : (s.heap.insertChild curr name w).childOf p n = some q)
    (hv : (s.heap.insertChild curr name w).get q = some v) :
    v.name = n ∧ (v.parent = some p ∨
      v.parent = none ∧ v.type = .PERSISTENT ∧ p = s.m_dummy ∧ n = []) := by
  have hne : curr ≠ s.heap.next := (hs.rooted.lt_next hcurr).ne
  -- The child is an old one, or the new one at `curr`.
  rcases (childOf_insertChild hs.rooted.toForest hcurr hnone hw).mp hn with hn | ⟨rfl, rfl, rfl⟩
  · have hq : q ≠ s.heap.next := (hs.rooted.lt_next (hs.rooted.isSome_of_childOf hn)).ne
    obtain ⟨v₀, hv₀, hname', htype, -, hparent'⟩ := get_insertChild_of_ne hne hq hv
    rw [← hname', ← htype, ← hparent']
    exact hs.named hn hv₀
  · rw [get_insertChild_self hne] at hv
    cases hv
    exact ⟨hname, Or.inl hparent⟩

/-- A new leaf, with a table that has it when it is a session node. -/
theorem WellFormed.insertChild_of_map (hs : s.WellFormed) {curr : Nat} {name : Bytes} {w : DNode}
    (hcurr : (s.heap.cells curr).isSome) (hnone : s.heap.childOf curr name = none)
    (hw : w.children = ∅) (hname : w.name = name) (hparent : w.parent = some curr)
    {m : UInt64 → Option (List Nat)}
    (hm : ∀ id, (m id).getD [] = (s.m_sessionMap id).getD [] ++
      if w.type = .EPHEMERAL ∧ w.ephemeralOwner = id then [s.heap.next] else []) :
    ({ s with
        heap := s.heap.insertChild curr name w, m_sessionMap := m } : Services).WellFormed := by
  have hne : curr ≠ s.heap.next := (hs.rooted.lt_next hcurr).ne
  have hmem : ∀ {id p}, p ∈ (m id).getD [] ↔ p ∈ (s.m_sessionMap id).getD [] ∨
      p = s.heap.next ∧ w.type = .EPHEMERAL ∧ w.ephemeralOwner = id := by
    intro id p
    rw [hm, List.mem_append]
    split
    case isTrue h => simp [h]
    case isFalse h => simp [h]
  -- The type of an old node is as it was.
  have htype : ∀ {a v}, a ≠ s.heap.next → (s.heap.insertChild curr name w).get a = some v →
      ∃ v₀, s.heap.get a = some v₀ ∧ v₀.type = v.type ∧ v₀.ephemeralOwner = v.ephemeralOwner := by
    intro a v ha hv
    obtain ⟨v₀, hv₀, -, htype, howner, -⟩ := get_insertChild_of_ne hne ha hv
    exact ⟨v₀, hv₀, htype, howner⟩
  refine { rooted := rooted_insertChild hs.rooted hcurr hnone hw
           named := hs.named_insertChild hcurr hnone hw hname hparent
           dummy := ?_, root := ?_, listed := ?_, owned := ?_, nodup := ?_, old := ?_ }
  · intro v hv
    obtain ⟨v₀, hv₀, heq, -⟩ := htype (hs.rooted.lt_next hs.rooted.rootLive).ne hv
    rw [← heq]
    exact hs.dummy hv₀
  · obtain ⟨q, hq, hpers⟩ := hs.root
    refine ⟨q, (childOf_insertChild hs.rooted.toForest hcurr hnone hw).mpr (Or.inl hq), ?_⟩
    intro v hv
    obtain ⟨v₀, hv₀, heq, -⟩ :=
      htype (hs.rooted.lt_next (hs.rooted.isSome_of_childOf hq)).ne hv
    rw [← heq]
    exact hpers hv₀
  · intro id p hp
    rw [hmem]
    exact (sessionNode_insertChild hne hp).imp_left fun hold => hs.listed hold
  · intro id p v hp hv
    rcases hmem.mp hp with hp | ⟨rfl, hsession⟩
    · obtain ⟨v₀, hv₀, heq, howner⟩ := htype (hs.old hp).ne hv
      rw [← heq, ← howner]
      exact hs.owned hp hv₀
    · have hv : (s.heap.insertChild curr name w).get s.heap.next = some v := hv
      rw [get_insertChild_self hne] at hv
      cases hv
      exact hsession
  · intro id
    show ((m id).getD []).Nodup
    rw [hm]
    split
    -- The lists have old nodes only.
    · refine List.nodup_append.mpr ⟨hs.nodup id, List.nodup_singleton _, ?_⟩
      intro a ha b hb
      rw [List.mem_singleton.mp hb]
      exact (hs.old ha).ne
    · rw [List.append_nil]
      exact hs.nodup id
  · intro id p hp
    show p < s.heap.next + 1
    rcases hmem.mp hp with hp | ⟨rfl, -⟩
    · exact Nat.lt_succ_of_lt (hs.old hp)
    · exact Nat.lt_succ_self _

/-- A new leaf that knows its name and its parent, and is registered when it is a session
node. -/
theorem WellFormed.insertChild (hs : s.WellFormed) {curr : Nat} {name : Bytes} {w : DNode}
    (hcurr : (s.heap.cells curr).isSome) (hnone : s.heap.childOf curr name = none)
    (hw : w.children = ∅) (hname : w.name = name) (hparent : w.parent = some curr) :
    let s' : Services := { s with heap := s.heap.insertChild curr name w }
    (if w.type = .EPHEMERAL then s'.addSessionNode w.ephemeralOwner s.heap.next
      else s').WellFormed := by
  intro s'
  by_cases htype : w.type = .EPHEMERAL
  · rw [if_pos htype]
    refine hs.insertChild_of_map hcurr hnone hw hname hparent fun id => ?_
    simp only [htype, true_and]
    exact getD_addSessionNode s' w.ephemeralOwner s.heap.next id
  · rw [if_neg htype]
    refine hs.insertChild_of_map hcurr hnone hw hname hparent fun id => ?_
    simp [htype]

theorem WellFormed.tree_insertChild (hs : s.WellFormed) {curr : Nat} {ρ : List Bytes}
    {name : Bytes} {w : DNode} (hcurr : s.walkTo ρ = some curr)
    (hnone : s.heap.childOf curr name = none) (hw : w.children = ∅) :
    ({ s with heap := s.heap.insertChild curr name w } : Services).tree
      = Function.update s.tree (ρ ++ [name]) (some w.entry) := by
  have hlive := hs.rooted.isSome_of_walk hcurr
  have hne : curr ≠ s.heap.next := (hs.rooted.lt_next hlive).ne
  -- The new path is the only one to the new node.
  have hwalk : ∀ {π b}, ({ s with heap := s.heap.insertChild curr name w } : Services).walkTo π
      = some b ↔ s.walkTo π = some b ∨ b = s.heap.next ∧ π = ρ ++ [name] := by
    intro π b
    refine (walk_insertChild hs.rooted hlive hnone hw).trans (or_congr Iff.rfl ?_)
    refine and_congr_right fun _ => ⟨?_, fun h => ⟨ρ, hcurr, h⟩⟩
    rintro ⟨σ, hσ, rfl⟩
    rw [hs.rooted.walk_inj hσ hcurr]
  funext π
  by_cases hπ : π = ρ ++ [name]
  · subst hπ
    rw [Function.update_self]
    exact tree_eq_some.mpr ⟨by simp, s.heap.next, w, hwalk.mpr (Or.inr ⟨rfl, rfl⟩),
      get_insertChild_self hne name w, rfl⟩
  · rw [Function.update_of_ne hπ]
    unfold tree
    split
    · rfl
    · have hsame : ({ s with heap := s.heap.insertChild curr name w } : Services).walkTo π
          = s.walkTo π := by
        apply Option.ext
        intro b
        rw [hwalk]
        simp [hπ]
      rw [hsame]
      cases hp : s.walkTo π with
      | none => rfl
      | some p =>
          have hp' : p ≠ s.heap.next := (hs.rooted.lt_next (hs.rooted.isSome_of_walk hp)).ne
          have hmap := map_get_insertChild (f := DNode.entry) (fun _ _ => rfl) hne name w p
          rw [if_neg hp'] at hmap
          exact hmap

/-! ### Changing the data of a node -/

theorem WellFormed.modifyData (hs : s.WellFormed) (p : Nat) (data : Bytes) :
    ({ s with
        heap := s.heap.modify p fun v => { v with data := data } } : Services).WellFormed := by
  have hchildren : ∀ v : DNode, HasChildren.children ({ v with data := data } : DNode)
      = HasChildren.children v := fun _ => rfl
  refine hs.of_fixed (hs.rooted.modify hchildren p)
    (fun hn => (childOf_modify hchildren p _ _).symm.trans hn)
    (fun hq => (childOf_modify hchildren p _ _).trans hq) ?_ rfl
  intro a v' hv'
  by_cases ha : a = p
  · subst ha
    have hv' : (s.heap.get a).map _ = some v' := (get_modify_self s.heap a _).symm.trans hv'
    obtain ⟨v, hv, rfl⟩ := Option.map_eq_some_iff.mp hv'
    exact ⟨v, hv, rfl⟩
  · exact ⟨v', (get_modify_of_ne ha _).symm.trans hv', rfl⟩

theorem WellFormed.tree_modifyData (hs : s.WellFormed) {π : List Bytes} (hπ : π ≠ []) {p : Nat}
    (hp : s.walkTo π = some p) (data : Bytes) :
    ({ s with heap := s.heap.modify p fun v => { v with data := data } } : Services).tree
      = Function.update s.tree π ((s.tree π).map fun e => { e with data := data }) := by
  have hwalk : ∀ ρ, ({ s with heap := s.heap.modify p fun v => { v with data := data } } :
      Services).walkTo ρ = s.walkTo ρ := fun ρ =>
    walk_modify (g := fun v : DNode => { v with data := data }) (fun _ => rfl) p _ ρ
  funext ρ
  by_cases hρ : ρ = π
  · subst hρ
    rw [Function.update_self]
    simp only [tree, if_neg hπ, hwalk, hp, Option.bind_some, get_modify_self, Option.map_map]
    rfl
  · rw [Function.update_of_ne hρ]
    unfold tree
    split
    · rfl
    · rw [hwalk]
      cases hq : s.walkTo ρ with
      | none => rfl
      | some q =>
          -- A node has one path, so another path leads to another node.
          have hne : q ≠ p := fun heq => hρ (hs.rooted.walk_inj (heq ▸ hq) hp)
          rw [Option.bind_some, Option.bind_some, get_modify_of_ne hne]

end Services

end RegistrationCenter
