import RegistrationCenter.Proofs.Store.WellFormed

/-!
# `RegistrationCenter.Proofs.Store.Effects`: what each service does to the tree

One lemma for each service that changes the store: when it succeeds, what it then does
to `tree`, that it keeps the invariant, and that it changes nothing when it fails. The
store that the constructor makes has the invariant.
-/

set_option autoImplicit false

namespace RegistrationCenter

open Lib RcHeap

namespace Services

variable {s : Services}

/-! ### The initial store -/

theorem childOf_init {p : Nat} {n : Bytes} {q : Nat} :
    init.heap.childOf p n = some q ↔ p = 0 ∧ n = [] ∧ q = 1 := by
  have hget : ∀ p, init.heap.get p = if p = 0 then
      some { DNode.empty with data := bytes "dummy", children := (∅ : AList _).insert [] 1 }
      else if p = 1 then some { DNode.empty with data := bytes "root" } else none := by
    intro p
    match p with
    | 0 => rfl
    | 1 => rfl
    | p + 2 => rfl
  unfold childOf
  rw [hget]
  -- The dummy holds the root under the empty name, and the root holds nothing.
  by_cases hp0 : p = 0
  · rw [if_pos hp0]
    show ((∅ : AList fun _ : Bytes => Nat).insert [] 1).lookup n = some q ↔ _
    by_cases hn : n = []
    · rw [hn, AList.lookup_insert]
      simp [hp0, eq_comm]
    · rw [AList.lookup_insert_ne hn]
      simp [hn]
  · by_cases hp1 : p = 1
    · simp [hp1, HasChildren.children, DNode.empty]
    · simp [hp0, hp1]

theorem cells_init_of_le {p : Nat} (hp : 2 ≤ p) : init.heap.cells p = none := by
  obtain ⟨p, rfl⟩ : ∃ k, p = k + 2 := ⟨p - 2, by omega⟩
  rfl

theorem rooted_init : init.heap.Rooted init.m_dummy where
  up hn := by
    obtain ⟨rfl, -, rfl⟩ := childOf_init.mp hn
    exact Nat.zero_lt_one
  single hn := by
    obtain ⟨-, -, rfl⟩ := childOf_init.mp hn
    rfl
  owner hn hn' := by
    obtain ⟨rfl, rfl, -⟩ := childOf_init.mp hn
    obtain ⟨rfl, rfl, -⟩ := childOf_init.mp hn'
    exact ⟨rfl, rfl⟩
  fresh hp := cells_init_of_le hp
  rootLive := rfl
  rootFree := by
    rintro p ⟨n, hn⟩
    exact absurd (childOf_init.mp hn).2.2 (Nat.zero_ne_one)
  attached := by
    intro q hq hne
    match q with
    | 0 => exact absurd rfl hne
    | 1 => exact ⟨0, [], childOf_init.mpr ⟨rfl, rfl, rfl⟩⟩
    | q + 2 => rw [cells_init_of_le (Nat.le_add_left 2 q)] at hq; cases hq

/-- The two nodes of the initial store are permanent and know their names. -/
theorem get_init {p : Nat} {v : DNode} (hv : init.heap.get p = some v) :
    v.name = [] ∧ v.type = .PERSISTENT ∧ v.parent = none := by
  match p with
  | 0 => cases hv; exact ⟨rfl, rfl, rfl⟩
  | 1 => cases hv; exact ⟨rfl, rfl, rfl⟩
  | p + 2 => cases hv

theorem wellFormed_init : init.WellFormed where
  rooted := rooted_init
  named := by
    intro p n q v hn hv
    obtain ⟨rfl, rfl, -⟩ := childOf_init.mp hn
    obtain ⟨hname, htype, hparent⟩ := get_init hv
    exact ⟨hname, Or.inr ⟨hparent, htype, rfl, rfl⟩⟩
  dummy hv := (get_init hv).2.1
  root := ⟨1, childOf_init.mpr ⟨rfl, rfl, rfl⟩, fun hv => (get_init hv).2.1⟩
  listed := by
    rintro id p ⟨v, hv, htype, -⟩
    rw [(get_init hv).2.1] at htype
    cases htype
  owned hmem := absurd hmem List.not_mem_nil
  nodup _ := List.nodup_nil
  old hmem := absurd hmem List.not_mem_nil

/-- The initial store holds the root and nothing else. -/
theorem tree_init : init.tree = Function.update (fun _ => none) [[]]
    (some { data := bytes "root", type := .PERSISTENT, owner := 0 }) := by
  funext π
  by_cases hπ : π = [[]]
  · subst hπ
    rw [Function.update_self]
    rfl
  · rw [Function.update_of_ne hπ]
    apply Option.eq_none_iff_forall_ne_some.mpr
    intro e he
    obtain ⟨hne, p, v, hwalk, -, -⟩ := tree_eq_some.mp he
    -- A path of the initial store has at most the one step from the dummy to the root.
    rcases List.eq_nil_or_concat' π with rfl | ⟨ρ, n, rfl⟩
    · exact hne rfl
    · obtain ⟨q, hq, hn⟩ := walk_concat_eq_some.mp hwalk
      obtain ⟨rfl, rfl, -⟩ := childOf_init.mp hn
      have hρ : ρ = [] := rooted_init.walk_inj hq rfl
      exact hπ (by rw [hρ]; rfl)

/-! ### Looking up a path -/

/-- The parent of a one-component path is the dummy. -/
theorem WellFormed.isSome_walkTo (hs : s.WellFormed) (ρ : List Bytes) :
    (s.walkTo ρ).isSome ↔ ρ = [] ∨ (s.tree ρ).isSome := by
  by_cases hρ : ρ = []
  · subst hρ
    exact ⟨fun _ => Or.inl rfl, fun _ => rfl⟩
  · rw [hs.isSome_tree hρ]
    simp [hρ]

theorem WellFormed.isSome_childOf (hs : s.WellFormed) {ρ : List Bytes} {n : Bytes} {curr : Nat}
    (hcurr : s.walkTo ρ = some curr) :
    (s.heap.childOf curr n).isSome = (s.tree (ρ ++ [n])).isSome := by
  rw [hs.isSome_tree (by simp), walkTo_concat, hcurr, Option.bind_some]

/-! ### The services that change the store

Each of them is read the same way: the store stays well formed, the service succeeds
exactly when it can, a failure leaves the store as it is, and a success makes a tree. -/

/-- A service that fails has done nothing. -/
theorem WellFormed.failed (hs : s.WellFormed) {can : Prop} (hcan : ¬ can)
    (after : PathMap Bytes Entry) :
    s.WellFormed ∧ (false = true ↔ can) ∧ (false = false → s = s) ∧
      (false = true → s.tree = after) :=
  ⟨hs, ⟨fun h => absurd h Bool.false_ne_true, fun h => absurd h hcan⟩, fun _ => rfl,
    fun h => absurd h Bool.false_ne_true⟩

/-- A service that succeeds could, and has made the tree. -/
theorem WellFormed.succeeded {s' : Services} (hs' : s'.WellFormed) {can : Prop} (hcan : can)
    {after : PathMap Bytes Entry} (htree : s'.tree = after) :
    s'.WellFormed ∧ (true = true ↔ can) ∧ (true = false → s' = s) ∧
      (true = true → s'.tree = after) :=
  ⟨hs', ⟨fun _ => hcan, fun _ => rfl⟩, fun h => absurd h.symm Bool.false_ne_true,
    fun _ => htree⟩

theorem createNode_spec (hs : s.WellFormed) (sessionId : UInt64) (path data : Bytes)
    (type : NodeType) :
    let π := splitPath path
    let r := s.createNode sessionId path data type
    r.2.WellFormed ∧
      (r.1.success = true ↔
        π ≠ [] ∧ s.tree π = none ∧ (π.dropLast = [] ∨ (s.tree π.dropLast).isSome)) ∧
      (r.1.success = false → r.2 = s) ∧
      (r.1.success = true → r.2.tree = Function.update s.tree π
        (some { data := data, type := type,
                owner := if type = .EPHEMERAL then sessionId else 0 })) := by
  intro π r
  rcases List.eq_nil_or_concat' π with hπ | ⟨ρ, n, hπ⟩
  · have hr : r = ({ success := false, errmsg := bytes "path error" }, s) := by
      show s.createNode sessionId path data type = _
      unfold createNode
      rw [show splitPath path = [] from hπ]
      rfl
    rw [hr]
    exact hs.failed (fun hcan => hcan.1 hπ) _
  · have hsplit : splitPath path = ρ ++ [n] := hπ
    cases hwalk : s.walkTo ρ with
    -- The parent is not there.
    | none =>
        have hr : r = ({ success := false, errmsg := bytes "path not exists" }, s) := by
          show s.createNode sessionId path data type = _
          unfold createNode
          simp [hsplit, hwalk]
        have hnot := mt (hs.isSome_walkTo ρ).mpr (by simp [hwalk])
        rw [hr, hπ]
        exact hs.failed (fun hcan => hnot (by simpa using hcan.2.2)) _
    | some curr =>
        have hparent := (hs.isSome_walkTo ρ).mp (by simp [hwalk])
        cases hchild : s.heap.childOf curr n with
        -- The path is taken.
        | some q =>
            have hr : r = ({ success := false, errmsg := bytes "node already exists" }, s) := by
              show s.createNode sessionId path data type = _
              unfold createNode
              simp [hsplit, hwalk, hchild]
            have hsome := hs.isSome_childOf hwalk (n := n)
            rw [hchild] at hsome
            rw [hr, hπ]
            refine hs.failed (fun hcan => ?_) _
            rw [hcan.2.1] at hsome
            cases hsome
        | none =>
            -- The node is made.
            let w := DNode.mk' n data type (if type = .EPHEMERAL then sessionId else 0) curr
            let s' : Services := { s with heap := s.heap.insertChild curr n w }
            have hr : r = ({ success := true }, if type = .EPHEMERAL then
                s'.addSessionNode sessionId s.heap.next else s') := by
              show s.createNode sessionId path data type = _
              unfold createNode
              simp [hsplit, hwalk, hchild, s', w]
            have hnone : s.tree (ρ ++ [n]) = none := by
              have hsome := hs.isSome_childOf hwalk (n := n)
              rw [hchild] at hsome
              simpa using hsome.symm
            have hwf := hs.insertChild (hs.rooted.isSome_of_walk hwalk) hchild
              (show w.children = ∅ from rfl) rfl rfl
            have htree := hs.tree_insertChild hwalk hchild (show w.children = ∅ from rfl)
            have hwf' : (if type = .EPHEMERAL then s'.addSessionNode sessionId s.heap.next
                else s').WellFormed := by
              by_cases htype : type = .EPHEMERAL
              · simpa [s', w, DNode.mk', htype] using hwf
              · simpa [s', w, DNode.mk', htype] using hwf
            -- The table does not show in the tree.
            have hsame : (if type = .EPHEMERAL then s'.addSessionNode sessionId s.heap.next
                else s').tree = s'.tree := by
              split <;> rfl
            rw [hr, hπ]
            exact hwf'.succeeded (by simpa [hnone] using hparent) (hsame.trans htree)

theorem setNode_spec (hs : s.WellFormed) (path data : Bytes) :
    let π := splitPath path
    let r := s.setNode path data
    r.2.WellFormed ∧ (r.1.success = true ↔ (s.tree π).isSome) ∧
      (r.1.success = false → r.2 = s) ∧
      (r.1.success = true →
        r.2.tree = Function.update s.tree π ((s.tree π).map fun e => { e with data := data })) := by
  intro π r
  by_cases hπ : π = []
  · have hr : r = ({ success := false, errmsg := bytes "path error" }, s) := by
      show s.setNode path data = _
      unfold setNode
      rw [if_pos hπ]
    rw [hr]
    exact hs.failed (by simp [tree, hπ]) _
  · have hsome := hs.isSome_tree hπ
    cases hwalk : s.walkTo π with
    | none =>
        have hr : r = ({ success := false, errmsg := bytes "node not exists" }, s) := by
          show s.setNode path data = _
          unfold setNode
          simp only [if_neg (show splitPath path ≠ [] from hπ),
            show s.walkTo (splitPath path) = none from hwalk]
        rw [hwalk] at hsome
        rw [hr]
        exact hs.failed (by simp [hsome]) _
    | some p =>
        have hr : r = ({ success := true },
            { s with heap := s.heap.modify p fun v => { v with data := data } }) := by
          show s.setNode path data = _
          unfold setNode
          simp only [if_neg (show splitPath path ≠ [] from hπ),
            show s.walkTo (splitPath path) = some p from hwalk]
        rw [hwalk] at hsome
        rw [hr]
        exact (hs.modifyData p data).succeeded (by simp [hsome]) (hs.tree_modifyData hπ hwalk data)

theorem deleteNode_spec (hs : s.WellFormed) (path : Bytes) :
    let π := splitPath path
    let r := s.deleteNode path
    r.2.WellFormed ∧ (r.1.success = true ↔ 2 ≤ π.length ∧ (s.tree π).isSome) ∧
      (r.1.success = false → r.2 = s) ∧ (r.1.success = true → r.2.tree = s.tree.cut {π}) := by
  intro π r
  rcases List.eq_nil_or_concat' π with hπ | ⟨ρ, n, hπ⟩
  · have hr : r = ({ success := false, errmsg := bytes "path error" }, s) := by
      show s.deleteNode path = _
      unfold deleteNode
      rw [show splitPath path = [] from hπ]
      rfl
    rw [hr]
    exact hs.failed (by simp [hπ]) _
  · have hsplit : splitPath path = ρ ++ [n] := hπ
    -- The root is refused.
    by_cases hlen : (ρ ++ [n]).length = 1
    · have hr : r = ({ success := false
                       errmsg := bytes "delete the root node is not allowed" }, s) := by
        show s.deleteNode path = _
        unfold deleteNode
        simp only [hsplit, List.getLast?_concat, if_pos hlen]
      rw [hr, hπ]
      exact hs.failed (fun hcan => absurd hcan.1 (by omega)) _
    · have hsome := hs.isSome_tree (show ρ ++ [n] ≠ [] by simp)
      rw [walkTo_concat] at hsome
      cases hwalk : s.walkTo ρ with
      -- The parent is not there, and so the path is not.
      | none =>
          have hr : r = ({ success := false, errmsg := bytes "node not exists" }, s) := by
            show s.deleteNode path = _
            unfold deleteNode
            simp only [hsplit, List.getLast?_concat, List.dropLast_concat, if_neg hlen, hwalk]
          rw [hwalk] at hsome
          rw [hr, hπ]
          exact hs.failed (by simp [hsome]) _
      | some curr =>
          rw [hwalk, Option.bind_some] at hsome
          cases hchild : s.heap.childOf curr n with
          | none =>
              have hr : r = ({ success := false, errmsg := bytes "node not exists" }, s) := by
                show s.deleteNode path = _
                unfold deleteNode
                simp only [hsplit, List.getLast?_concat, List.dropLast_concat, if_neg hlen, hwalk,
                  hchild, Option.isSome_none, Bool.false_eq_true, if_false]
              rw [hchild] at hsome
              rw [hr, hπ]
              exact hs.failed (by simp [hsome]) _
          -- The node goes with all that is below it.
          | some q =>
              have hr : r = ({ success := true },
                  { s with heap := s.heap.eraseChild curr n }) := by
                show s.deleteNode path = _
                unfold deleteNode
                simp only [hsplit, List.getLast?_concat, List.dropLast_concat, if_neg hlen, hwalk,
                  hchild, Option.isSome_some, if_true]
              rw [hchild] at hsome
              rw [hr, hπ]
              have hρ : ρ ≠ [] := by
                rintro rfl
                exact hlen rfl
              have htwo : 2 ≤ (ρ ++ [n]).length := by
                rw [List.length_append]
                exact Nat.succ_le_succ (List.length_pos_iff.mpr hρ)
              exact (hs.eraseChild hwalk hchild hρ).succeeded ⟨htwo, by simp [hsome]⟩
                (hs.tree_eraseChild hwalk hchild)

/-! ### The keys of the session table -/

/-- What a create does to the table. -/
theorem createNode_cases (s : Services) (sessionId : UInt64) (path data : Bytes)
    (type : NodeType) :
    let r := s.createNode sessionId path data type
    r.1.success = false ∧ r.2 = s ∨ r.1.success = true ∧ r.2.m_sessionMap =
      if type = .EPHEMERAL then (s.addSessionNode sessionId s.heap.next).m_sessionMap
      else s.m_sessionMap := by
  unfold createNode
  simp only
  split
  · exact .inl ⟨rfl, rfl⟩
  · split
    · exact .inl ⟨rfl, rfl⟩
    · split
      · exact .inl ⟨rfl, rfl⟩
      -- The node is made.
      · refine .inr ⟨rfl, ?_⟩
        split
        · rfl
        · rfl

/-- A create that makes a session node gives its session a key. -/
theorem isSome_sessionMap_createNode (s : Services) (sessionId : UInt64) (path data : Bytes)
    (type : NodeType) (id : UInt64) :
    ((s.createNode sessionId path data type).2.m_sessionMap id).isSome ↔
      (s.m_sessionMap id).isSome ∨
        (s.createNode sessionId path data type).1.success = true ∧ type = .EPHEMERAL ∧
          id = sessionId := by
  rcases createNode_cases s sessionId path data type with ⟨hfail, hsame⟩ | ⟨hsuccess, hmap⟩
  · rw [hfail, hsame]
    simp
  · rw [hsuccess, hmap]
    by_cases htype : type = .EPHEMERAL
    · by_cases hid : id = sessionId
      · simp [htype, hid, addSessionNode]
      · simp [htype, hid, addSessionNode]
    · simp [htype]

theorem m_sessionMap_setNode (s : Services) (path data : Bytes) :
    (s.setNode path data).2.m_sessionMap = s.m_sessionMap := by
  unfold setNode
  simp only
  split
  · rfl
  · split
    · rfl
    · rfl

theorem m_sessionMap_deleteNode (s : Services) (path : Bytes) :
    (s.deleteNode path).2.m_sessionMap = s.m_sessionMap := by
  unfold deleteNode
  simp only
  split
  · rfl
  · split
    · rfl
    · split
      · rfl
      · split
        · rfl
        · rfl

end Services

end RegistrationCenter
