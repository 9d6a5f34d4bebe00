import RegistrationCenter.Lib.IndexedHeap

/-!
# `RegistrationCenter.Lib.CheckedSift`: the sifts with every access checked

The sifts of `IndexedHeap` as loops over a vector: positions are numbers of 64 bits, an access
outside the vector is an error, and so is a loop that does not end within the rounds it is given.
`sift_eq` says that on a vector that can exist neither error comes up: within as many rounds as the
vector has nodes, both loops end, and with what `resift` makes.
-/

set_option autoImplicit false

namespace RegistrationCenter.Lib

/-- What can go wrong in a sift. -/
inductive SiftError
  | outOfRange
  | outOfRounds
  deriving DecidableEq

namespace CheckedHeap

variable {α ι κ : Type} [LinearOrder κ] [HeapNode α ι κ]

/-- `PTRDIFF_MAX`, which no `max_size` of a vector exceeds. -/
def vectorMaxSize : Nat := 0x7FFFFFFFFFFFFFFF

/-- The node at a position of the vector. -/
def nodeAt (h : IndexedHeap α ι) (i : UInt64) : Except SiftError α :=
  match h.nodes[i.toNat]? with
  | some a => .ok a
  | none => .error .outOfRange

/-- The comparison of the nodes at two positions. -/
def less (h : IndexedHeap α ι) (i j : UInt64) : Except SiftError Bool := do
  let a ← nodeAt h i
  let b ← nodeAt h j
  return HeapNode.less a b

/-- The child `c` when it is in the vector and before what was chosen so far. -/
def choose (n : UInt64) (h : IndexedHeap α ι) (c cur : UInt64) : Except SiftError UInt64 :=
  if c < n then do
    if ← less h c cur then return c else return cur
  else return cur

/-- Of a position and its children, the one that a round of the sift down goes to. -/
def smallestChild (n : UInt64) (h : IndexedHeap α ι) (idx : UInt64) : Except SiftError UInt64 := do
  let lc := idx * 2 + 1
  let rc := idx * 2 + 2
  let cur ← choose n h lc idx
  choose n h rc cur

/-! ### What a round looks at -/

theorem nodeAt_eq {h : IndexedHeap α ι} {i : UInt64} {a : α} (ha : h.nodes[i.toNat]? = some a) :
    nodeAt h i = .ok a := by
  rw [nodeAt, ha]

theorem less_eq {h : IndexedHeap α ι} {i j : UInt64} (hi : i.toNat < h.nodes.length)
    (hj : j.toNat < h.nodes.length) : less h i j = .ok (h.lessAt i.toNat j.toNat) := by
  have ha := List.getElem?_eq_getElem hi
  have hb := List.getElem?_eq_getElem hj
  rw [less, nodeAt_eq ha, nodeAt_eq hb, IndexedHeap.lessAt, ha, hb]
  rfl

/-- The size of a vector is a number of 64 bits. -/
theorem toNat_size {h : IndexedHeap α ι} (hsize : h.nodes.length ≤ vectorMaxSize) :
    (UInt64.ofNat h.nodes.length).toNat = h.nodes.length := by
  unfold vectorMaxSize at hsize
  have hword : UInt64.size = 2 ^ 64 := rfl
  exact UInt64.toNat_ofNat_of_lt' (by omega)

theorem lt_size_iff {h : IndexedHeap α ι} (hsize : h.nodes.length ≤ vectorMaxSize) (i : UInt64) :
    i < UInt64.ofNat h.nodes.length ↔ i.toNat < h.nodes.length := by
  rw [UInt64.lt_iff_toNat_lt, toNat_size hsize]

/-- A child is compared only when it is in the vector. -/
theorem choose_eq {h : IndexedHeap α ι} (hsize : h.nodes.length ≤ vectorMaxSize) (c : UInt64)
    {cur : UInt64} (hcur : cur.toNat < h.nodes.length) :
    choose (.ofNat h.nodes.length) h c cur =
      .ok (if c.toNat < h.nodes.length ∧ h.lessAt c.toNat cur.toNat then c else cur) := by
  rw [choose]
  by_cases hc : c.toNat < h.nodes.length
  · rw [if_pos ((lt_size_iff hsize c).mpr hc), less_eq hc hcur]
    cases hless : h.lessAt c.toNat cur.toNat with
    | true => simp [hc]; rfl
    | false => simp [hc]; rfl
  · rw [if_neg (mt (lt_size_iff hsize c).mp hc), if_neg fun h => hc h.1]
    rfl

/-- In a vector that can exist, the positions of the children do not wrap around. -/
theorem toNat_children {h : IndexedHeap α ι} (hsize : h.nodes.length ≤ vectorMaxSize)
    {idx : UInt64} (hidx : idx.toNat < h.nodes.length) :
    (idx * 2 + 1).toNat = idx.toNat * 2 + 1 ∧ (idx * 2 + 2).toNat = idx.toNat * 2 + 2 := by
  unfold vectorMaxSize at hsize
  simp only [UInt64.toNat_add, UInt64.toNat_mul, UInt64.toNat_ofNat]
  omega

/-- The child that is chosen is the one that the unchecked choice finds. -/
theorem smallestChild_eq {h : IndexedHeap α ι} (hsize : h.nodes.length ≤ vectorMaxSize)
    {idx : UInt64} (hidx : idx.toNat < h.nodes.length) :
    ∃ cur, smallestChild (.ofNat h.nodes.length) h idx = .ok cur ∧
      cur.toNat = h.smallestChild idx.toNat := by
  obtain ⟨hlc, hrc⟩ := toNat_children hsize hidx
  unfold smallestChild IndexedHeap.smallestChild
  simp only [choose_eq hsize _ hidx, hlc]
  by_cases hl : idx.toNat * 2 + 1 < h.nodes.length ∧ h.lessAt (idx.toNat * 2 + 1) idx.toNat = true
  -- The right child is compared with the left one.
  · rw [if_pos hl, if_pos hl]
    refine ⟨_, choose_eq hsize _ (by rw [hlc]; exact hl.1), ?_⟩
    rw [apply_ite UInt64.toNat, hlc, hrc]
  -- The right child is compared with its parent.
  · rw [if_neg hl, if_neg hl]
    refine ⟨_, choose_eq hsize _ hidx, ?_⟩
    rw [apply_ite UInt64.toNat, hrc]

theorem toNat_parent {idx : UInt64} (hpos : 0 < idx) :
    idx.toNat ≠ 0 ∧ ((idx - 1) / 2).toNat = (idx.toNat - 1) / 2 := by
  have hpos' : 0 < idx.toNat := UInt64.lt_iff_toNat_lt.mp hpos
  refine ⟨hpos'.ne', ?_⟩
  rw [UInt64.toNat_div, UInt64.toNat_sub_of_le idx 1 (UInt64.le_iff_toNat_le.mpr hpos')]
  rfl

variable [DecidableEq ι]

/-- Exchange the nodes at two positions and write both positions to the side map. -/
def swapNode (h : IndexedHeap α ι) (a b : UInt64) : Except SiftError (IndexedHeap α ι) := do
  let x ← nodeAt h a
  let y ← nodeAt h b
  return { nodes := (h.nodes.set a.toNat y).set b.toNat x
           index := Function.update (Function.update h.index (HeapNode.id y) (some a.toNat))
             (HeapNode.id x) (some b.toNat) }

/-- The sift up: the heap, and the position where it ends. -/
def shiftUp : Nat → IndexedHeap α ι → UInt64 → Except SiftError (IndexedHeap α ι × UInt64)
  | 0, _, _ => .error .outOfRounds
  | rounds + 1, h, idx =>
      if 0 < idx then do
        let fa := (idx - 1) / 2
        if ← less h idx fa then
          let h' ← swapNode h idx fa
          shiftUp rounds h' fa
        else return (h, idx)
      else return (h, idx)

/-- The loop of the sift down. The size `n` of the vector is read before it. -/
def shiftDownLoop (n : UInt64) :
    Nat → IndexedHeap α ι → UInt64 → Except SiftError (IndexedHeap α ι × UInt64)
  | 0, _, _ => .error .outOfRounds
  | rounds + 1, h, idx =>
      if idx < n then do
        let cur ← smallestChild n h idx
        if cur = idx then return (h, idx)
        else
          let h' ← swapNode h cur idx
          shiftDownLoop n rounds h' cur
      else return (h, idx)

/-- The sift down: the heap, and the position where it ends. -/
def shiftDown (rounds : Nat) (h : IndexedHeap α ι) (idx : UInt64) :
    Except SiftError (IndexedHeap α ι × UInt64) :=
  shiftDownLoop (.ofNat h.nodes.length) rounds h idx

/-- A sift up, and a sift down from where it ends. -/
def sift (rounds : Nat) (h : IndexedHeap α ι) (idx : UInt64) :
    Except SiftError (IndexedHeap α ι × UInt64) := do
  let (h', j) ← shiftUp rounds h idx
  shiftDown rounds h' j

/-! ### The loops end, inside the vector -/

theorem swapNode_eq {h : IndexedHeap α ι} {a b : UInt64} (ha : a.toNat < h.nodes.length)
    (hb : b.toNat < h.nodes.length) : swapNode h a b = .ok (h.swapNode a.toNat b.toNat) := by
  have hx := List.getElem?_eq_getElem ha
  have hy := List.getElem?_eq_getElem hb
  rw [swapNode, nodeAt_eq hx, nodeAt_eq hy, IndexedHeap.swapNode_eq h hx hy]
  rfl

/-- The sift up ends, because each round moves to a smaller position. -/
theorem shiftUp_eq : ∀ (rounds fuel : Nat) (h : IndexedHeap α ι) (idx : UInt64),
    idx.toNat < rounds → idx.toNat ≤ fuel → idx.toNat < h.nodes.length →
      shiftUp rounds h idx =
        .ok ((h.shiftUpLoop fuel idx.toNat).1, .ofNat (h.shiftUpLoop fuel idx.toNat).2) := by
  intro rounds
  -- The induction is on the rounds that are left; the position is less than they are.
  induction rounds with
  | zero => intro fuel h idx hrounds; exact absurd hrounds (Nat.not_lt_zero _)
  | succ rounds ih =>
      intro fuel h idx hrounds hfuel hidx
      rw [shiftUp]
      by_cases hpos : 0 < idx
      · obtain ⟨hzero, hfa⟩ := toNat_parent hpos
        obtain ⟨fuel, rfl⟩ := Nat.exists_eq_succ_of_ne_zero (by omega : fuel ≠ 0)
        have hlen : ((idx - 1) / 2).toNat < h.nodes.length := by omega
        rw [if_pos hpos, IndexedHeap.shiftUpLoop, if_neg hzero]
        simp only [less_eq hidx hlen, swapNode_eq hidx hlen, hfa]
        cases hless : h.lessAt idx.toNat ((idx.toNat - 1) / 2) with
        | true =>
            have hrec := ih fuel (h.swapNode idx.toNat ((idx - 1) / 2).toNat) ((idx - 1) / 2)
              (by omega) (by omega) (by rw [IndexedHeap.length_swapNode]; exact hlen)
            rw [hfa] at hrec
            exact hrec
        | false =>
            rw [if_neg Bool.false_ne_true, UInt64.ofNat_toNat]
            rfl
      · have hzero : idx.toNat = 0 := by
          have hle := UInt64.le_iff_toNat_le.mp (UInt64.not_lt.mp hpos)
          exact Nat.le_zero.mp hle
        rw [if_neg hpos, hzero, IndexedHeap.shiftUpLoop_root, ← hzero, UInt64.ofNat_toNat]
        rfl

/-- The sift down ends, because each round moves to a greater position. -/
theorem shiftDownLoop_eq : ∀ (rounds fuel : Nat) (h : IndexedHeap α ι) (idx : UInt64),
    h.nodes.length ≤ vectorMaxSize → h.nodes.length ≤ rounds + idx.toNat →
      h.nodes.length ≤ fuel + idx.toNat → idx.toNat < h.nodes.length →
      shiftDownLoop (.ofNat h.nodes.length) rounds h idx =
        .ok ((h.shiftDownLoop fuel idx.toNat).1, .ofNat (h.shiftDownLoop fuel idx.toNat).2) := by
  intro rounds
  induction rounds with
  | zero =>
      intro fuel h idx hsize hrounds hfuel hidx
      omega
  | succ rounds ih =>
      intro fuel h idx hsize hrounds hfuel hidx
      obtain ⟨fuel, rfl⟩ := Nat.exists_eq_succ_of_ne_zero (by omega : fuel ≠ 0)
      obtain ⟨cur, hcur, hcurNat⟩ := smallestChild_eq hsize hidx
      rw [shiftDownLoop, if_pos ((lt_size_iff hsize idx).mpr hidx), IndexedHeap.shiftDownLoop,
        if_pos hidx]
      simp only [hcur, ← hcurNat]
      by_cases hstop : cur = idx
      -- No child is before its parent.
      · subst hstop
        show (if cur = cur then Except.ok (h, cur) else _) = _
        rw [if_pos rfl, if_pos rfl, UInt64.ofNat_toNat]
      · have hne : cur.toNat ≠ idx.toNat := mt UInt64.toNat_inj.mp hstop
        obtain heq | ⟨hchild, hlen, -⟩ := IndexedHeap.smallestChild_cases h idx.toNat
        · exact absurd (hcurNat.trans heq) hne
        rw [← hcurNat] at hchild hlen
        -- The child that was chosen lies behind its parent.
        have hrec := ih fuel (h.swapNode cur.toNat idx.toNat) cur
        rw [IndexedHeap.length_swapNode] at hrec
        show (if cur = idx then _ else do
          let h' ← swapNode h cur idx
          shiftDownLoop (.ofNat h.nodes.length) rounds h' cur) = _
        rw [if_neg hstop, if_neg hne, swapNode_eq hlen hidx]
        exact hrec hsize (by omega) (by omega) hlen

/-- A sift of a vector that can exist stays inside it and ends, within as many rounds as it has
nodes, with the heap that `resift` makes. -/
theorem sift_eq {h : IndexedHeap α ι} (hsize : h.nodes.length ≤ vectorMaxSize) {idx : UInt64}
    (hidx : idx.toNat < h.nodes.length) :
    ∃ j, ∀ rounds, h.nodes.length ≤ rounds → sift rounds h idx = .ok (h.resift idx.toNat, j) := by
  let up := h.shiftUp idx.toNat
  have hlen : up.1.nodes.length = h.nodes.length := IndexedHeap.length_shiftUpLoop _ h _
  have hback : up.2 ≤ idx.toNat := IndexedHeap.shiftUpLoop_le idx.toNat h idx.toNat
  have hpos : (UInt64.ofNat up.2).toNat = up.2 :=
    UInt64.toNat_ofNat_of_lt' (hback.trans_lt idx.toNat_lt)
  refine ⟨.ofNat (up.1.shiftDown up.2).2, fun rounds hrounds => ?_⟩
  have hup : shiftUp rounds h idx = .ok (up.1, .ofNat up.2) :=
    shiftUp_eq rounds idx.toNat h idx (by omega) (le_refl _) hidx
  have hdown := shiftDownLoop_eq rounds up.1.nodes.length up.1 (.ofNat up.2)
    (by omega) (by omega) (by omega) (by omega)
  rw [hpos] at hdown
  rw [sift, hup]
  exact hdown

end CheckedHeap

end RegistrationCenter.Lib
