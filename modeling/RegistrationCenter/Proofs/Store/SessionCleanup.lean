import RegistrationCenter.Lib.Runs
import RegistrationCenter.Proofs.Store.Effects

/-!
# `RegistrationCenter.Proofs.Store.SessionCleanup`: the end of a session

`removeEphemeral(size_t)` goes through the table of session nodes, which is never
pruned: an entry can stand for a node that is released, by a delete, by the end of
another session, or by an earlier round of the same loop. The recursive scan that it
replaced looks at the whole tree. `pruned_eraseSessionNodes` and
`pruned_removeEphemeralScan` show that both prune exactly what lies at or below the
live session nodes of the session, so both cut the same paths.

What lies below a session node goes with it, whatever its type and owner:
`createNode` does not look at the type of the parent.
-/

set_option autoImplicit false

namespace RegistrationCenter

open Lib RcHeap

namespace Services

variable {s : Services}

/-- The paths of the live session nodes of a session. -/
def sessionPaths (A : PathMap Bytes Entry) (sessionId : UInt64) : Set (List Bytes) :=
  { ρ | ∃ e, A ρ = some e ∧ e.type = .EPHEMERAL ∧ e.owner = sessionId }

theorem sessionNode_pruned_iff {D : Set Nat} {h h' : RcHeap DNode} (hp : Pruned D h h')
    {id : UInt64} {p : Nat} : SessionNode h' id p ↔ SessionNode h id p ∧ p ∉ D := by
  by_cases hpD : p ∈ D
  · have hnone : h'.get p = none := by
      rw [RcHeap.get, hp.gone p hpD]
      rfl
    simp [SessionNode, hnone, hpD]
  · have hmap := hp.map_get (f := DNode.fixed) (fun _ _ => rfl) hpD
    simp only [hpD, not_false_eq_true, and_true]
    constructor
    · rintro ⟨v', hv', htype, howner⟩
      rw [hv', Option.map_some] at hmap
      obtain ⟨v, hv, heq⟩ := Option.map_eq_some_iff.mp hmap.symm
      obtain ⟨-, htype', howner', -⟩ := DNode.fixed_eq heq
      exact ⟨v, hv, htype'.trans htype, howner'.trans howner⟩
    · rintro ⟨v, hv, htype, howner⟩
      rw [hv, Option.map_some] at hmap
      obtain ⟨v', hv', heq⟩ := Option.map_eq_some_iff.mp hmap
      obtain ⟨-, htype', howner', -⟩ := DNode.fixed_eq heq
      exact ⟨v', hv', htype'.trans htype, howner'.trans howner⟩

/-- Neither the dummy nor the root is at or below a session node. -/
theorem WellFormed.notMem_below (hs : s.WellFormed) {Q : Nat → Prop}
    (hQ : ∀ e, Q e → ∃ id, SessionNode s.heap id e) :
    s.m_dummy ∉ { r | ∃ e, Q e ∧ r ∈ s.heap.below e } ∧
      ∀ q, s.heap.childOf s.m_dummy [] = some q →
        q ∉ { r | ∃ e, Q e ∧ r ∈ s.heap.below e } := by
  have hdummy : s.m_dummy ∉ { r | ∃ e, Q e ∧ r ∈ s.heap.below e } := by
    rintro ⟨e, he, hbelow⟩
    obtain ⟨id, v, hv, htype, -⟩ := hQ e he
    rw [hs.rooted.root_mem_below hbelow] at hv
    rw [hs.dummy hv] at htype
    cases htype
  refine ⟨hdummy, ?_⟩
  rintro q hq ⟨e, he, hbelow⟩
  rcases hs.rooted.below_of_owns ⟨[], hq⟩ hbelow with heq | htop
  -- The root is permanent, so it is no session node itself.
  · obtain ⟨id, v, hv, htype, -⟩ := hQ e he
    obtain ⟨q', hq', hpers⟩ := hs.root
    rw [hq] at hq'
    cases hq'
    rw [← heq] at hv
    rw [hpers hv] at htype
    cases htype
  · exact hdummy ⟨e, he, htop⟩

/-- Pruning session nodes keeps the invariant. -/
theorem WellFormed.prunedSessions (hs : s.WellFormed) {h' : RcHeap DNode} {Q : Nat → Prop}
    (hQ : ∀ e, Q e → ∃ id, SessionNode s.heap id e)
    (hp : Pruned { r | ∃ e, Q e ∧ r ∈ s.heap.below e } s.heap h') :
    ({ s with heap := h' } : Services).WellFormed :=
  hs.pruned hp (closed_below_of _ Q) (hs.notMem_below hQ).1 (hs.notMem_below hQ).2

/-- Pruning the session nodes of a session cuts their paths. -/
theorem WellFormed.tree_prunedSession (hs : s.WellFormed) {h' : RcHeap DNode} {id : UInt64}
    (hp : Pruned { r | ∃ e, SessionNode s.heap id e ∧ r ∈ s.heap.below e } s.heap h') :
    ({ s with heap := h' } : Services).tree = s.tree.cut (sessionPaths s.tree id) := by
  have hne : s.m_dummy ∉ { e | SessionNode s.heap id e } := by
    rintro ⟨v, hv, htype, -⟩
    rw [hs.dummy hv] at htype
    cases htype
  have hlive : ∀ e ∈ { e | SessionNode s.heap id e }, (s.heap.cells e).isSome := by
    rintro e ⟨v, hv, -⟩
    exact isSome_of_get hv
  rw [hs.tree_pruned (E := { e | SessionNode s.heap id e }) hp hlive hne]
  congr 1
  ext ρ
  constructor
  · rintro ⟨e, ⟨v, hv, htype, howner⟩, hwalk⟩
    refine ⟨v.entry, tree_eq_some.mpr ⟨?_, e, v, hwalk, hv, rfl⟩, htype, howner⟩
    rintro rfl
    cases hwalk
    exact hne ⟨v, hv, htype, howner⟩
  · rintro ⟨en, hen, htype, howner⟩
    obtain ⟨-, e, v, hwalk, hv, rfl⟩ := tree_eq_some.mp hen
    exact ⟨e, ⟨v, hv, htype, howner⟩, hwalk⟩

/-! ### The loop over the table -/

/-- One entry of the table: a live node is pruned, an expired one does nothing. -/
theorem pruned_eraseSessionNode (hs : s.WellFormed) {id : UInt64} {p : Nat}
    (hmem : p ∈ (s.m_sessionMap id).getD []) :
    Pruned { r | ∃ e, (e = p ∧ SessionNode s.heap id e) ∧ r ∈ s.heap.below e } s.heap
      (eraseSessionNode s.heap p) := by
  cases hv : s.heap.get p with
  -- The weak pointer is expired.
  | none =>
      have hsame : eraseSessionNode s.heap p = s.heap := by
        unfold eraseSessionNode
        rw [hv]
      have hempty : { r | ∃ e, (e = p ∧ SessionNode s.heap id e) ∧ r ∈ s.heap.below e } = ∅ := by
        ext r
        simp [SessionNode, hv]
      rw [hsame, hempty]
      exact Pruned.refl _
  -- The node is live; the table lists session nodes of this session only.
  | some v =>
      obtain ⟨htype, howner⟩ := hs.owned hmem hv
      obtain ⟨q, hparent, hlive, hchild⟩ := hs.parent_of_session hv htype
      have hsame : eraseSessionNode s.heap p = s.heap.eraseChild q v.name := by
        unfold eraseSessionNode
        simp only [hv, hparent, hlive, if_true]
      have hbelow : { r | ∃ e, (e = p ∧ SessionNode s.heap id e) ∧ r ∈ s.heap.below e }
          = s.heap.below p := by
        ext r
        simp [SessionNode, hv, htype, howner]
      rw [hsame, hbelow]
      exact pruned_eraseChild hs.rooted.toForest hchild

/-- The loop, by induction on the entries that are left: the entries that an earlier round
released do nothing in their own. -/
theorem pruned_eraseSessionNodes (id : UInt64) : ∀ (l : List Nat) (s : Services), s.WellFormed →
    (∀ p ∈ l, p ∈ (s.m_sessionMap id).getD []) →
    Pruned { r | ∃ e, (e ∈ l ∧ SessionNode s.heap id e) ∧ r ∈ s.heap.below e } s.heap
      (l.foldl eraseSessionNode s.heap) := by
  intro l
  induction l with
  | nil =>
      intro s _ _
      simpa using Pruned.refl s.heap
  | cons a l ih =>
      intro s hs hl
      obtain ⟨ha, hl⟩ := List.forall_mem_cons.mp hl
      have hp := pruned_eraseSessionNode hs ha
      have hclosed := closed_below_of s.heap (fun e => e = a ∧ SessionNode s.heap id e)
      have hs' := hs.prunedSessions (fun e he => ⟨id, he.2⟩) hp
      have hp' := ih { s with heap := eraseSessionNode s.heap a } hs' hl
      -- The session nodes left after the first round are the ones not below `a`.
      have hunion := hp.union_below hclosed
        (Q := fun e => e ∈ l ∧ SessionNode s.heap id e)
        (R := fun e => e ∈ l ∧ SessionNode (eraseSessionNode s.heap a) id e)
        (fun e => by rw [sessionNode_pruned_iff hp, and_assoc])
      have htrans := hp.trans hp'
      rw [hunion] at htrans
      have hset : { r | ∃ e, (e = a ∧ SessionNode s.heap id e) ∧ r ∈ s.heap.below e } ∪
          { r | ∃ e, (e ∈ l ∧ SessionNode s.heap id e) ∧ r ∈ s.heap.below e }
          = { r | ∃ e, (e ∈ a :: l ∧ SessionNode s.heap id e) ∧ r ∈ s.heap.below e } := by
        ext r
        simp only [Set.mem_union, Set.mem_ofPred_eq, List.mem_cons, or_and_right, exists_or]
      rw [hset] at htrans
      exact htrans

/-- The table loop prunes exactly the live session nodes and what lies below them. -/
theorem pruned_removeEphemeral (hs : s.WellFormed) (id : UInt64) :
    Pruned { r | ∃ e, SessionNode s.heap id e ∧ r ∈ s.heap.below e } s.heap
      (s.removeEphemeral id).heap := by
  have hp := pruned_eraseSessionNodes id ((s.m_sessionMap id).getD []) s hs (fun _ h => h)
  have hset : { r | ∃ e, (e ∈ (s.m_sessionMap id).getD [] ∧ SessionNode s.heap id e) ∧
      r ∈ s.heap.below e } = { r | ∃ e, SessionNode s.heap id e ∧ r ∈ s.heap.below e } := by
    ext r
    refine exists_congr fun e => and_congr_left fun _ => ?_
    exact ⟨fun h => h.2, fun h => ⟨hs.listed h, h⟩⟩
  rw [hset] at hp
  exact hp

/-- The table counts by its lists only: an empty list is as good as no entry. -/
theorem WellFormed.congr_map (hs : s.WellFormed) {m : UInt64 → Option (List Nat)}
    (hm : ∀ id, (m id).getD [] = (s.m_sessionMap id).getD []) :
    ({ s with m_sessionMap := m } : Services).WellFormed where
  rooted := hs.rooted
  named := hs.named
  dummy := hs.dummy
  root := hs.root
  listed hp := by
    show _ ∈ (m _).getD []
    rw [hm]
    exact hs.listed hp
  owned hmem := by
    rw [show (m _).getD [] = _ from hm _] at hmem
    exact hs.owned hmem
  nodup id := by
    rw [show (m _).getD [] = _ from hm _]
    exact hs.nodup id
  old hmem := by
    rw [show (m _).getD [] = _ from hm _] at hmem
    exact hs.old hmem

/-- `removeEphemeral(size_t)` cuts the session nodes of the session, and keeps the
invariant. -/
theorem removeEphemeral_spec (hs : s.WellFormed) (id : UInt64) :
    (s.removeEphemeral id).WellFormed ∧
      (s.removeEphemeral id).tree = s.tree.cut (sessionPaths s.tree id) := by
  have hp := pruned_removeEphemeral hs id
  refine ⟨?_, hs.tree_prunedSession hp⟩
  refine (hs.prunedSessions (fun e he => ⟨id, he⟩) hp).congr_map fun d => ?_
  show (Function.update s.m_sessionMap id _ d).getD [] = (s.m_sessionMap d).getD []
  by_cases hd : d = id
  · subst hd
    rw [Function.update_self, Option.getD_some]
  · rw [Function.update_of_ne hd]

/-! ### The recursive scan -/

/-- One child of the scanned node: a session node is erased, another one is scanned. Either
way the session nodes at or below the child are pruned. -/
theorem pruned_scanChild {h : RcHeap DNode} {node : Nat} {it : Sigma fun _ : Bytes => Nat}
    {scan : RcHeap DNode → Nat → RcHeap DNode} {id : UInt64} (hf : h.Forest)
    (hit : h.childOf node it.1 = some it.2)
    (hscan : Pruned { r | ∃ e, (e ∈ h.below it.2 ∧ e ≠ it.2 ∧ SessionNode h id e) ∧
      r ∈ h.below e } h (scan h it.2)) :
    Pruned { r | ∃ e, (e ∈ h.below it.2 ∧ SessionNode h id e) ∧ r ∈ h.below e } h
      (scanChild id scan node h it) := by
  obtain ⟨v, hv⟩ := get_eq_some_of_isSome (hf.isSome_of_childOf hit)
  unfold scanChild
  simp only [hv]
  -- A session node goes with the session nodes below it.
  by_cases hmine : v.type = .EPHEMERAL ∧ v.ephemeralOwner = id
  · have hc : SessionNode h id it.2 := ⟨v, hv, hmine⟩
    have hset : { r | ∃ e, (e ∈ h.below it.2 ∧ SessionNode h id e) ∧ r ∈ h.below e }
        = h.below it.2 := by
      ext r
      constructor
      · rintro ⟨e, ⟨he, -⟩, hr⟩
        exact Relation.ReflTransGen.trans he hr
      · exact fun hr => ⟨it.2, ⟨self_mem_below h it.2, hc⟩, hr⟩
    rw [if_pos hmine, hset]
    exact pruned_eraseChild hf hit
  · have hset : { r | ∃ e, (e ∈ h.below it.2 ∧ SessionNode h id e) ∧ r ∈ h.below e }
        = { r | ∃ e, (e ∈ h.below it.2 ∧ e ≠ it.2 ∧ SessionNode h id e) ∧ r ∈ h.below e } := by
      ext r
      refine exists_congr fun e => and_congr_left fun _ => and_congr_right fun _ => ?_
      refine ⟨fun he => ⟨?_, he⟩, fun he => he.2⟩
      rintro rfl
      obtain ⟨v', hv', hmine'⟩ := he
      rw [hv] at hv'
      cases hv'
      exact hmine hmine'
    rw [if_neg hmine, hset]
    exact hscan

/-- The loop over the children of a node, by induction on the children that are left: a
round prunes below its own child only, so the other children stay. -/
theorem pruned_scanChildren {node root fuel : Nat} {scan : RcHeap DNode → Nat → RcHeap DNode}
    {id : UInt64}
    (hscan : ∀ (h : RcHeap DNode) (c : Nat), h.Rooted root → (h.cells c).isSome →
      h.next ≤ c + fuel → Pruned { r | ∃ e, (e ∈ h.below c ∧ e ≠ c ∧ SessionNode h id e) ∧
        r ∈ h.below e } h (scan h c)) :
    ∀ (l : List (Sigma fun _ : Bytes => Nat)) (h : RcHeap DNode), h.Rooted root →
      h.next ≤ node + (fuel + 1) → (∀ it ∈ l, h.childOf node it.1 = some it.2) →
      (l.map Sigma.fst).Nodup →
      Pruned { r | ∃ e, ((∃ it ∈ l, e ∈ h.below it.2) ∧ SessionNode h id e) ∧ r ∈ h.below e } h
        (l.foldl (scanChild id scan node) h) := by
  intro l
  induction l with
  | nil =>
      intro h _ _ _ _
      simpa using Pruned.refl h
  | cons it l ih =>
      intro h hr hfuel hl hnodup
      obtain ⟨hit, hl⟩ := List.forall_mem_cons.mp hl
      obtain ⟨hname, hnodup⟩ := List.nodup_cons.mp hnodup
      have hlt := hr.up hit
      have hp := pruned_scanChild hr.toForest hit
        (hscan h it.2 hr (hr.isSome_of_childOf hit) (by omega))
      have hclosed := closed_below_of h (fun e => e ∈ h.below it.2 ∧ SessionNode h id e)
      -- Only what lies below this child is pruned in this round.
      have hsub : ∀ r, (∃ e, (e ∈ h.below it.2 ∧ SessionNode h id e) ∧ r ∈ h.below e) →
          r ∈ h.below it.2 := by
        rintro r ⟨e, ⟨he, -⟩, hr⟩
        exact Relation.ReflTransGen.trans he hr
      have hnode : node ∉ h.below it.2 := hr.notMem_below_child hit
      have hroot : root ∉ { r | ∃ e, (e ∈ h.below it.2 ∧ SessionNode h id e) ∧
          r ∈ h.below e } := by
        intro hmem
        have heq := hr.root_mem_below (hsub root hmem)
        exact hr.rootFree node ⟨it.1, heq ▸ hit⟩
      -- The other children are still there for their own rounds.
      have hother : ∀ it' ∈ l, it'.2 ∉ { r | ∃ e, (e ∈ h.below it.2 ∧ SessionNode h id e) ∧
          r ∈ h.below e } := by
        intro it' hit' hmem
        refine hr.notMem_below_sibling hit (hl it' hit') ?_ (hsub _ hmem)
        exact fun heq => hname (heq ▸ List.mem_map_of_mem hit')
      have hp' := ih (scanChild id scan node h it) (hp.rooted hr hroot hclosed)
        (hp.next ▸ hfuel) (fun it' hit' => hp.childOf_eq_some.mpr
          ⟨fun hmem => hnode (hsub _ hmem), hl it' hit', hother it' hit'⟩) hnodup
      -- The rounds after this one meet the session nodes that this one has left.
      have hunion := hp.union_below hclosed
        (Q := fun e => (∃ it' ∈ l, e ∈ h.below it'.2) ∧ SessionNode h id e)
        (R := fun e => (∃ it' ∈ l, e ∈ (scanChild id scan node h it).below it'.2) ∧
          SessionNode (scanChild id scan node h it) id e) (by
          intro e
          rw [sessionNode_pruned_iff hp]
          constructor
          · rintro ⟨⟨it', hit', hmem⟩, hsession, heD⟩
            exact ⟨⟨⟨it', hit', ((hp.mem_below_iff hclosed (hother it' hit')).mp hmem).1⟩,
              hsession⟩, heD⟩
          · rintro ⟨⟨⟨it', hit', hmem⟩, hsession⟩, heD⟩
            exact ⟨⟨it', hit', (hp.mem_below_iff hclosed (hother it' hit')).mpr ⟨hmem, heD⟩⟩,
              hsession, heD⟩)
      have htrans := hp.trans hp'
      rw [hunion] at htrans
      have hset : { r | ∃ e, (e ∈ h.below it.2 ∧ SessionNode h id e) ∧ r ∈ h.below e } ∪
          { r | ∃ e, ((∃ it' ∈ l, e ∈ h.below it'.2) ∧ SessionNode h id e) ∧ r ∈ h.below e }
          = { r | ∃ e, ((∃ it' ∈ it :: l, e ∈ h.below it'.2) ∧ SessionNode h id e) ∧
              r ∈ h.below e } := by
        ext r
        simp only [Set.mem_union, Set.mem_ofPred_eq, List.exists_mem_cons_iff, or_and_right,
          exists_or]
      rw [hset] at htrans
      exact htrans

/-- The scan prunes the session nodes below its node and what lies below them. The fuel
covers the depth below the node, because addresses grow downwards. -/
theorem pruned_removeEphemeralScan (id : UInt64) {root : Nat} : ∀ (fuel : Nat)
    (h : RcHeap DNode) (node : Nat), h.Rooted root → (h.cells node).isSome →
    h.next ≤ node + fuel →
    Pruned { r | ∃ e, (e ∈ h.below node ∧ e ≠ node ∧ SessionNode h id e) ∧ r ∈ h.below e } h
      (removeEphemeralScan id fuel h node) := by
  intro fuel
  induction fuel with
  | zero =>
      intro h node hr hlive hfuel
      exact absurd (hr.lt_next hlive) (by omega)
  | succ fuel ih =>
      intro h node hr hlive hfuel
      obtain ⟨v, hv⟩ := get_eq_some_of_isSome hlive
      have hentries : ∀ it, it ∈ v.children.entries ↔ h.childOf node it.1 = some it.2 := by
        intro it
        simp only [childOf, hv, Option.bind_some]
        exact AList.mem_lookup_iff.symm
      have hp := pruned_scanChildren ih v.children.entries h hr hfuel
        (fun it hit => (hentries it).mp hit) v.children.nodupKeys
      have hscan : removeEphemeralScan id (fuel + 1) h node
          = v.children.entries.foldl (scanChild id (removeEphemeralScan id fuel) node) h := by
        rw [removeEphemeralScan, hv]
      -- Below the node, and not the node itself, is below one of its children.
      have hset : { r | ∃ e, ((∃ it ∈ v.children.entries, e ∈ h.below it.2) ∧
            SessionNode h id e) ∧ r ∈ h.below e }
          = { r | ∃ e, (e ∈ h.below node ∧ e ≠ node ∧ SessionNode h id e) ∧ r ∈ h.below e } := by
        ext r
        refine exists_congr fun e => and_congr_left fun _ => ?_
        rw [← and_assoc]
        refine and_congr_left fun _ => ?_
        constructor
        · rintro ⟨it, hit, hmem⟩
          have hit := (hentries it).mp hit
          refine ⟨Relation.ReflTransGen.head ⟨it.1, hit⟩ hmem, ?_⟩
          rintro rfl
          exact hr.notMem_below_child hit hmem
        · rintro ⟨hmem, hne⟩
          rcases Relation.ReflTransGen.cases_head hmem with heq | ⟨c, ⟨n, hn⟩, hc⟩
          · exact absurd heq.symm hne
          · exact ⟨⟨n, c⟩, (hentries ⟨n, c⟩).mpr hn, hc⟩
      rw [hscan, ← hset]
      exact hp

/-- The scan from the dummy cuts the session nodes of the session, too. -/
theorem tree_removeEphemeralScan (hs : s.WellFormed) (id : UInt64) (extra : Nat) :
    ({ s with heap := removeEphemeralScan id (s.heap.next + extra) s.heap s.m_dummy } :
      Services).tree = s.tree.cut (sessionPaths s.tree id) := by
  have hp := pruned_removeEphemeralScan id (s.heap.next + extra) s.heap s.m_dummy hs.rooted
    hs.rooted.rootLive (by omega)
  have hset : { r | ∃ e, (e ∈ s.heap.below s.m_dummy ∧ e ≠ s.m_dummy ∧
      SessionNode s.heap id e) ∧ r ∈ s.heap.below e }
      = { r | ∃ e, SessionNode s.heap id e ∧ r ∈ s.heap.below e } := by
    ext r
    refine exists_congr fun e => and_congr_left fun _ => ?_
    refine ⟨fun h => h.2.2, ?_⟩
    rintro ⟨v, hv, htype, howner⟩
    -- Every live node lies below the dummy, and the dummy is permanent.
    obtain ⟨π, hπ⟩ := hs.rooted.exists_walk (isSome_of_get hv)
    refine ⟨mem_below_iff_walk.mpr ⟨π, hπ⟩, ?_, ⟨v, hv, htype, howner⟩⟩
    rintro rfl
    rw [hs.dummy hv] at htype
    cases htype
  rw [hset] at hp
  exact hs.tree_prunedSession hp

end Services

end RegistrationCenter
