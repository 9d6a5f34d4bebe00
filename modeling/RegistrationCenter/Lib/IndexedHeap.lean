import Mathlib.Data.List.Basic
import Mathlib.Logic.Equiv.Basic
import Mathlib.Logic.Function.Basic
import Mathlib.Order.Basic
import Mathlib.Order.Defs.LinearOrder
import Mathlib.Tactic.Order

/-!
# `RegistrationCenter.Lib.IndexedHeap`: a binary heap with an index by id

The nodes of a binary heap stand in a list: the parent of position `i` is
`(i - 1) / 2`. A side map gives the position of each id, so that a node can be
re-keyed or deleted by its id. The heap is generic in the node type: `HeapNode`
gives the id, the comparison the heap calls, and the key that the comparison
orders by.

* `Indexed h`: the side map is exactly the inverse of the node list.
* `Ordered h`: no node is before its parent.
* `Valid h`: both.
* `Rekeyed h i`: a valid heap in which the node at `i` was given any key.

`resift h i` sifts up from `i` and then down from where that ends.
`valid_resift` is the main fact: it repairs a heap in which the key at the one
position `i` was changed in any way. The operations are then read through
`find h d`, the node with the id `d`: `find_pushNode`, `find_modify`,
`find_erase` and `find_pop` say what each operation does to this map, and
`key_root_le` says that the root has the least key.
-/

set_option autoImplicit false

namespace RegistrationCenter.Lib

/-- What a heap needs of its nodes: an id, the comparison the sifts call, and a
key in a linear order that the comparison agrees with. -/
class HeapNode (α : Type) (ι κ : outParam Type) [LinearOrder κ] where
  id : α → ι
  less : α → α → Bool
  key : α → κ
  less_iff : ∀ a b, less a b = true ↔ key a < key b

/-- The node list of the heap and the position of each id in it. -/
structure IndexedHeap (α ι : Type) where
  nodes : List α
  index : ι → Option Nat

namespace IndexedHeap

variable {α ι κ : Type} [LinearOrder κ] [HeapNode α ι κ]

/-- The heap with no node. -/
def empty : IndexedHeap α ι := { nodes := [], index := fun _ => none }

/-- The comparison of the nodes at two positions. It is `false` when a position is
outside the list. -/
def lessAt (h : IndexedHeap α ι) (i j : Nat) : Bool :=
  match h.nodes[i]?, h.nodes[j]? with
  | some a, some b => HeapNode.less a b
  | _, _ => false

/-- The last child of `idx` that beats what was chosen before it, or `idx` itself
when no child is before it. -/
def smallestChild (h : IndexedHeap α ι) (idx : Nat) : Nat :=
  let n := h.nodes.length
  let lc := idx * 2 + 1
  let rc := idx * 2 + 2
  let cur := if lc < n ∧ h.lessAt lc idx then lc else idx
  if rc < n ∧ h.lessAt rc cur then rc else cur

/-- The node with the id `d`, found through the side map. -/
def find (h : IndexedHeap α ι) (d : ι) : Option α :=
  (h.index d).bind fun i => h.nodes[i]?

/-! ### The exact index -/

/-- The side map is the inverse of the node list: it holds the id `d` at `i` exactly
when the node at `i` has the id `d`. -/
def Indexed (h : IndexedHeap α ι) : Prop :=
  ∀ d i, h.index d = some i ↔ ∃ a, h.nodes[i]? = some a ∧ HeapNode.id a = d

theorem indexed_empty : Indexed (empty : IndexedHeap α ι) := by
  intro d i
  simp [empty]

/-- Two positions that hold the same id are the same position. -/
theorem Indexed.pos_inj {h : IndexedHeap α ι} (hx : Indexed h) {i j : Nat} {a b : α}
    (hi : h.nodes[i]? = some a) (hj : h.nodes[j]? = some b)
    (hid : HeapNode.id a = HeapNode.id b) : i = j := by
  have h1 := (hx (HeapNode.id a) i).mpr ⟨a, hi, rfl⟩
  have h2 := (hx (HeapNode.id a) j).mpr ⟨b, hj, hid.symm⟩
  rw [h1] at h2
  exact Option.some.inj h2

theorem Indexed.lt_length {h : IndexedHeap α ι} (hx : Indexed h) {d : ι} {i : Nat}
    (hi : h.index d = some i) : i < h.nodes.length := by
  obtain ⟨a, ha, _⟩ := (hx d i).mp hi
  exact (List.getElem?_eq_some_iff.mp ha).1

/-- `find` answers the node of the list with that id. -/
theorem Indexed.find_eq_some {h : IndexedHeap α ι} (hx : Indexed h) {d : ι} {a : α} :
    h.find d = some a ↔ a ∈ h.nodes ∧ HeapNode.id a = d := by
  unfold find
  constructor
  · intro hf
    obtain ⟨i, hi, ha⟩ := Option.bind_eq_some_iff.mp hf
    obtain ⟨b, hb, hbd⟩ := (hx d i).mp hi
    rw [hb] at ha
    obtain rfl := Option.some.inj ha
    exact ⟨List.mem_of_getElem? hb, hbd⟩
  · rintro ⟨hmem, hid⟩
    obtain ⟨i, hi⟩ := List.getElem?_of_mem hmem
    rw [(hx d i).mpr ⟨a, hi, hid⟩]
    exact hi

/-- Two heaps with an exact index and the same nodes answer the same. -/
theorem find_congr {h h' : IndexedHeap α ι} (hx : Indexed h) (hx' : Indexed h')
    (hmem : ∀ a, a ∈ h'.nodes ↔ a ∈ h.nodes) : h'.find = h.find := by
  funext d
  apply Option.ext
  intro a
  rw [hx'.find_eq_some, hx.find_eq_some, hmem]

/-- The side map knows an id exactly when `find` does. -/
theorem Indexed.index_isSome {h : IndexedHeap α ι} (hx : Indexed h) (d : ι) :
    (h.index d).isSome = (h.find d).isSome := by
  unfold find
  cases hi : h.index d with
  | none => rfl
  | some i =>
      obtain ⟨a, ha, _⟩ := (hx d i).mp hi
      simp [ha]

/-! ### The heap order

`Above h i j` compares the keys at two positions and says nothing when one of them
is outside the list. All order facts of a heap are facts of this form. -/

/-- The node at `j` is not before the node at `i`. -/
def Above (h : IndexedHeap α ι) (i j : Nat) : Prop :=
  ∀ a b, h.nodes[i]? = some a → h.nodes[j]? = some b → HeapNode.key a ≤ HeapNode.key b

/-- The parent of every position but the root is above it. -/
def Ordered (h : IndexedHeap α ι) : Prop :=
  ∀ i, 0 < i → Above h ((i - 1) / 2) i

/-- The pairs of a parent and a child that do not touch `idx` are in order, and the
parent of `idx` is above the children of `idx`. A valid heap whose key at `idx` was
changed in any way is of this form. -/
structure OrderedExcept (h : IndexedHeap α ι) (idx : Nat) : Prop where
  off : ∀ i, 0 < i → i ≠ idx → (i - 1) / 2 ≠ idx → Above h ((i - 1) / 2) i
  grand : 0 < idx → ∀ i, 0 < i → (i - 1) / 2 = idx → Above h ((idx - 1) / 2) i

theorem Above.trans {h : IndexedHeap α ι} {i j k : Nat} (hij : Above h i j)
    (hjk : Above h j k) (hj : k < h.nodes.length → j < h.nodes.length) : Above h i k := by
  intro a c ha hc
  have hk : k < h.nodes.length := (List.getElem?_eq_some_iff.mp hc).1
  have hb := List.getElem?_eq_getElem (hj hk)
  exact le_trans (hij _ _ ha hb) (hjk _ _ hb hc)

theorem Ordered.except {h : IndexedHeap α ι} (ho : Ordered h) (idx : Nat) :
    OrderedExcept h idx where
  off i hi _ _ := ho i hi
  grand hidx i hi hp := by
    have hchild := ho i hi
    rw [hp] at hchild
    exact (ho idx hidx).trans hchild fun _ => by omega

/-- The root of an ordered heap is above every position. -/
theorem Ordered.root {h : IndexedHeap α ι} (ho : Ordered h) : ∀ i, Above h 0 i := by
  intro i
  induction i using Nat.strongRecOn with
  | ind i ih =>
      cases Nat.eq_zero_or_pos i with
      | inl h0 =>
          subst h0
          intro a b ha hb
          rw [ha] at hb
          rw [Option.some.inj hb]
      -- The parent is above `i`, and the root is above the parent.
      | inr hpos =>
          exact (ih ((i - 1) / 2) (by omega)).trans (ho i hpos) fun _ => by omega

theorem above_of_lessAt {h : IndexedHeap α ι} {i j : Nat} (hl : h.lessAt i j = true) :
    Above h i j := by
  intro a b ha hb
  unfold lessAt at hl
  rw [ha, hb] at hl
  exact le_of_lt ((HeapNode.less_iff a b).mp hl)

theorem above_of_not_lessAt {h : IndexedHeap α ι} {i j : Nat} (hl : h.lessAt i j ≠ true) :
    Above h j i := by
  intro b a hb ha
  unfold lessAt at hl
  rw [ha, hb] at hl
  exact not_lt.mp fun hlt => hl ((HeapNode.less_iff a b).mpr hlt)

theorem lt_length_of_lessAt {h : IndexedHeap α ι} {i j : Nat} (hl : h.lessAt i j = true) :
    i < h.nodes.length ∧ j < h.nodes.length := by
  unfold lessAt at hl
  split at hl
  · rename_i a b ha hb
    exact ⟨(List.getElem?_eq_some_iff.mp ha).1, (List.getElem?_eq_some_iff.mp hb).1⟩
  · cases hl

theorem smallestChild_cases (h : IndexedHeap α ι) (idx : Nat) :
    h.smallestChild idx = idx ∨
      ((h.smallestChild idx = idx * 2 + 1 ∨ h.smallestChild idx = idx * 2 + 2) ∧
        h.smallestChild idx < h.nodes.length ∧ Above h (h.smallestChild idx) idx) := by
  unfold smallestChild
  simp only
  by_cases hl : idx * 2 + 1 < h.nodes.length ∧ h.lessAt (idx * 2 + 1) idx = true
  · rw [if_pos hl]
    have hup := above_of_lessAt hl.2
    -- The right child was compared with the left one, which already beat `idx`.
    split
    · rename_i hr
      exact Or.inr ⟨Or.inr rfl, hr.1,
        (above_of_lessAt hr.2).trans hup fun _ => hl.1⟩
    · exact Or.inr ⟨Or.inl rfl, hl.1, hup⟩
  · rw [if_neg hl]
    split
    · rename_i hr
      exact Or.inr ⟨Or.inr rfl, hr.1, above_of_lessAt hr.2⟩
    · exact Or.inl rfl

/-- The chosen position is above both children. -/
theorem smallestChild_above (h : IndexedHeap α ι) {idx i : Nat} (hi : 0 < i)
    (hp : (i - 1) / 2 = idx) : Above h (h.smallestChild idx) i := by
  have hor : i = idx * 2 + 1 ∨ i = idx * 2 + 2 := by omega
  -- Outside the list there is nothing to compare.
  by_cases hlen : i < h.nodes.length
  swap
  · intro a b _ hb
    exact absurd (List.getElem?_eq_some_iff.mp hb).1 hlen
  have hrefl : Above h i i := fun a b ha hb => by
    rw [ha] at hb; rw [Option.some.inj hb]
  unfold smallestChild
  simp only
  by_cases hl : idx * 2 + 1 < h.nodes.length ∧ h.lessAt (idx * 2 + 1) idx = true
  · rw [if_pos hl]
    split
    · rename_i hr
      -- The right child won: it beat the left one.
      rcases hor with rfl | rfl
      · exact above_of_lessAt hr.2
      · exact hrefl
    · rename_i hr
      rcases hor with rfl | rfl
      · exact hrefl
      · exact above_of_not_lessAt fun hless => hr ⟨hlen, hless⟩
  · rw [if_neg hl]
    split
    · rename_i hr
      rcases hor with rfl | rfl
      · exact (above_of_lessAt hr.2).trans
          (above_of_not_lessAt fun hless => hl ⟨hlen, hless⟩) fun _ => by omega
      · exact hrefl
    · rename_i hr
      rcases hor with rfl | rfl
      · exact above_of_not_lessAt fun hless => hl ⟨hlen, hless⟩
      · exact above_of_not_lessAt fun hless => hr ⟨hlen, hless⟩

/-- The fault at `idx` is gone when no neighbour of `idx` is out of order. -/
theorem OrderedExcept.ordered {h : IndexedHeap α ι} {idx : Nat} (ho : OrderedExcept h idx)
    (hparent : 0 < idx → Above h ((idx - 1) / 2) idx)
    (hchild : ∀ i, 0 < i → (i - 1) / 2 = idx → Above h idx i) : Ordered h := by
  intro i hi
  by_cases hii : i = idx
  · subst hii; exact hparent hi
  · by_cases hp : (i - 1) / 2 = idx
    · rw [hp]; exact hchild i hi hp
    · exact ho.off i hi hii hp

/-- A heap with an exact index in heap order. -/
structure Valid (h : IndexedHeap α ι) : Prop where
  indexed : Indexed h
  ordered : Ordered h

theorem valid_empty : Valid (empty : IndexedHeap α ι) :=
  ⟨indexed_empty, fun i _ a b ha _ => by simp [empty] at ha⟩

/-- Re-keying one position leaves a heap with one fault. -/
theorem OrderedExcept.congr {h h' : IndexedHeap α ι} {idx : Nat} (ho : OrderedExcept h idx)
    (hsame : ∀ i b, i ≠ idx → h'.nodes[i]? = some b → h.nodes[i]? = some b) :
    OrderedExcept h' idx where
  off i hi hii hp a b ha hb := ho.off i hi hii hp a b (hsame _ _ hp ha) (hsame _ _ hii hb)
  grand hpos i hi hp a b ha hb :=
    ho.grand hpos i hi hp a b (hsame _ _ (by omega) ha) (hsame _ _ (by omega) hb)

/-- Writing a node with the same id in place keeps the index exact. -/
theorem Indexed.set {h : IndexedHeap α ι} (hx : Indexed h) {a : α} {idx : Nat}
    (hidx : h.index (HeapNode.id a) = some idx) :
    Indexed { h with nodes := h.nodes.set idx a } := by
  obtain ⟨b, hb, hbid⟩ := (hx _ idx).mp hidx
  have hlt := hx.lt_length hidx
  intro d i
  rw [hx d i]
  simp only [List.getElem?_set]
  by_cases hi : idx = i
  · subst hi
    -- The position that is written: the old node there has the same id.
    rw [hb]
    simp [hlt, hbid]
  · simp [hi]

/-- A valid heap in which the node at `idx` was written over by one with the same id and any
key. -/
def Rekeyed (h : IndexedHeap α ι) (idx : Nat) : Prop :=
  ∃ h₀ a, Valid h₀ ∧ h₀.index (HeapNode.id a) = some idx ∧
    h = { h₀ with nodes := h₀.nodes.set idx a }

/-- Re-keying leaves an exact index and one fault. -/
theorem Rekeyed.faulty {h : IndexedHeap α ι} {idx : Nat} (hr : Rekeyed h idx) :
    Indexed h ∧ OrderedExcept h idx ∧ idx < h.nodes.length := by
  obtain ⟨h₀, a, hv, hidx, rfl⟩ := hr
  refine ⟨hv.indexed.set hidx, (hv.ordered.except idx).congr fun i b hi hb => ?_, ?_⟩
  · simpa [List.getElem?_set, Ne.symm hi] using hb
  · rw [List.length_set]
    exact hv.indexed.lt_length hidx

/-- The root is found under its own id, and no found node has a smaller key. -/
theorem Valid.find_root {h : IndexedHeap α ι} (hv : Valid h) {top : α}
    (htop : h.nodes[0]? = some top) :
    h.find (HeapNode.id top) = some top ∧
      ∀ d a, h.find d = some a → HeapNode.key top ≤ HeapNode.key a := by
  refine ⟨hv.indexed.find_eq_some.mpr ⟨List.mem_of_getElem? htop, rfl⟩, ?_⟩
  intro d a ha
  obtain ⟨i, hi⟩ := List.getElem?_of_mem (hv.indexed.find_eq_some.mp ha).1
  exact hv.ordered.root i top a htop hi

theorem Valid.find_none_of_root_none {h : IndexedHeap α ι} (hv : Valid h)
    (htop : h.nodes[0]? = none) (d : ι) : h.find d = none := by
  rw [Option.eq_none_iff_forall_ne_some]
  intro a ha
  have hmem := (hv.indexed.find_eq_some.mp ha).1
  have : h.nodes = [] := List.length_eq_zero_iff.mp (by simpa using htop)
  rw [this] at hmem
  exact List.not_mem_nil hmem

/-! ### The operations -/

variable [DecidableEq ι]

/-- Exchange the nodes at two positions and write both positions to the side map. -/
def swapNode (h : IndexedHeap α ι) (a b : Nat) : IndexedHeap α ι :=
  match h.nodes[a]?, h.nodes[b]? with
  | some x, some y =>
      { nodes := (h.nodes.set a y).set b x
        index := Function.update (Function.update h.index (HeapNode.id y) (some a))
          (HeapNode.id x) (some b) }
  | _, _ => h

/-- The sift-up loop. Each round at least halves the position, so `idx` rounds of
fuel are enough. -/
def shiftUpLoop : Nat → IndexedHeap α ι → Nat → IndexedHeap α ι × Nat
  | 0, h, idx => (h, idx)
  | fuel + 1, h, idx =>
      if idx = 0 then (h, idx)
      else
        let fa := (idx - 1) / 2
        if h.lessAt idx fa then shiftUpLoop fuel (h.swapNode idx fa) fa else (h, idx)

def shiftUp (h : IndexedHeap α ι) (idx : Nat) : IndexedHeap α ι × Nat :=
  shiftUpLoop idx h idx

/-- The sift-down loop. Each round moves to a child, so as many rounds of fuel as the
heap has nodes are enough. -/
def shiftDownLoop : Nat → IndexedHeap α ι → Nat → IndexedHeap α ι × Nat
  | 0, h, idx => (h, idx)
  | fuel + 1, h, idx =>
      if idx < h.nodes.length then
        let cur := h.smallestChild idx
        if cur = idx then (h, idx) else shiftDownLoop fuel (h.swapNode cur idx) cur
      else (h, idx)

def shiftDown (h : IndexedHeap α ι) (idx : Nat) : IndexedHeap α ι × Nat :=
  shiftDownLoop h.nodes.length h idx

/-- Sift up from `idx`, then down from where the sift up ended. -/
def resift (h : IndexedHeap α ι) (idx : Nat) : IndexedHeap α ι :=
  let (h', j) := h.shiftUp idx
  (h'.shiftDown j).1

/-- Put the node `a` at its id: in place when the id is there, else at the end. -/
def pushNode (h : IndexedHeap α ι) (a : α) : IndexedHeap α ι :=
  match h.index (HeapNode.id a) with
  | some idx => resift { h with nodes := h.nodes.set idx a } idx
  | none =>
      let newIdx := h.nodes.length
      resift
        { nodes := h.nodes ++ [a]
          index := Function.update h.index (HeapNode.id a) (some newIdx) } newIdx

/-- Change the node with the id `d` by `f`. An unknown id changes nothing. -/
def modify (h : IndexedHeap α ι) (d : ι) (f : α → α) : IndexedHeap α ι :=
  match h.index d with
  | none => h
  | some idx => resift { h with nodes := h.nodes.modify idx f } idx

/-- Take the id of the node at `i` out of the side map and drop the last node. -/
def popBack (h : IndexedHeap α ι) (i : Nat) : IndexedHeap α ι :=
  match h.nodes[i]? with
  | some x =>
      { nodes := h.nodes.dropLast, index := Function.update h.index (HeapNode.id x) none }
  | none => h

/-- Delete the node at a position: exchange it with the last node, drop that, and
sift the node that moved. The last node is dropped where it stands. -/
def deleteNode (h : IndexedHeap α ι) (idx : Nat) : IndexedHeap α ι :=
  let endIdx := h.nodes.length - 1
  if idx < endIdx then resift ((h.swapNode idx endIdx).popBack endIdx) idx
  else h.popBack idx

/-- Delete the node with the id `d`. An unknown id changes nothing. -/
def erase (h : IndexedHeap α ι) (d : ι) : IndexedHeap α ι :=
  match h.index d with
  | none => h
  | some idx => h.deleteNode idx

/-- Delete the root. -/
def pop (h : IndexedHeap α ι) : IndexedHeap α ι :=
  if 0 < h.nodes.length then h.deleteNode 0 else h

/-- Drop all nodes and all ids. -/
def clear (h : IndexedHeap α ι) : IndexedHeap α ι :=
  { h with nodes := [], index := fun _ => none }

/-! ### Exchanging two nodes -/

theorem swapNode_eq (h : IndexedHeap α ι) {a b : Nat} {x y : α}
    (ha : h.nodes[a]? = some x) (hb : h.nodes[b]? = some y) :
    h.swapNode a b =
      { nodes := (h.nodes.set a y).set b x
        index := Function.update (Function.update h.index (HeapNode.id y) (some a))
          (HeapNode.id x) (some b) } := by
  unfold swapNode
  rw [ha, hb]

@[simp] theorem length_swapNode (h : IndexedHeap α ι) (a b : Nat) :
    (h.swapNode a b).nodes.length = h.nodes.length := by
  unfold swapNode
  split <;> simp

/-- After the exchange, a position shows what the exchanged position showed before. -/
theorem getElem?_swapNode (h : IndexedHeap α ι) {a b : Nat} (ha : a < h.nodes.length)
    (hb : b < h.nodes.length) (i : Nat) :
    (h.swapNode a b).nodes[i]? = h.nodes[Equiv.swap a b i]? := by
  have hxa : h.nodes[a]? = some h.nodes[a] := List.getElem?_eq_getElem ha
  have hxb : h.nodes[b]? = some h.nodes[b] := List.getElem?_eq_getElem hb
  rw [swapNode_eq h hxa hxb]
  simp only [List.getElem?_set, List.length_set, Equiv.swap_apply_def]
  by_cases hib : b = i
  · subst hib
    by_cases hab : b = a
    · subst hab; simp [hb]
    · simp [hb, hab, hxa]
  · by_cases hia : a = i
    · subst hia; simp [hib, ha, hxb]
    · simp [hib, hia, Ne.symm hib, Ne.symm hia]

theorem perm_swapNode (h : IndexedHeap α ι) (a b : Nat) :
    (h.swapNode a b).nodes.Perm h.nodes := by
  unfold swapNode
  split
  · rename_i x y hx hy
    obtain ⟨ha, rfl⟩ := List.getElem?_eq_some_iff.mp hx
    obtain ⟨hb, rfl⟩ := List.getElem?_eq_some_iff.mp hy
    exact List.set_set_perm ha hb
  -- A position outside the list: nothing is exchanged.
  · exact List.Perm.refl _

/-- An exchange keeps the index exact. -/
theorem Indexed.swapNode {h : IndexedHeap α ι} (hx : Indexed h) {a b : Nat}
    (ha : a < h.nodes.length) (hb : b < h.nodes.length) : Indexed (h.swapNode a b) := by
  have hxa : h.nodes[a]? = some h.nodes[a] := List.getElem?_eq_getElem ha
  have hxb : h.nodes[b]? = some h.nodes[b] := List.getElem?_eq_getElem hb
  intro d i
  rw [getElem?_swapNode h ha hb]
  -- The positions of the two exchanged ids are rewritten, all others are kept.
  have hindex : (h.swapNode a b).index d = (h.index d).map (Equiv.swap a b) := by
    rw [swapNode_eq h hxa hxb]
    have hda := (hx (HeapNode.id h.nodes[a]) a).mpr ⟨_, hxa, rfl⟩
    have hdb := (hx (HeapNode.id h.nodes[b]) b).mpr ⟨_, hxb, rfl⟩
    simp only [Function.update_apply]
    by_cases h1 : d = HeapNode.id h.nodes[a]
    · subst h1; simp [hda]
    · by_cases h2 : d = HeapNode.id h.nodes[b]
      · rw [if_neg h1, if_pos h2, h2, hdb]; simp
      · rw [if_neg h1, if_neg h2]
        cases hd : h.index d with
        | none => rfl
        | some j =>
            obtain ⟨z, hz, hzd⟩ := (hx d j).mp hd
            -- A third id stands at neither of the two positions.
            have hja : j ≠ a := by
              rintro rfl
              rw [hxa] at hz
              exact h1 (by rw [← hzd, Option.some.inj hz])
            have hjb : j ≠ b := by
              rintro rfl
              rw [hxb] at hz
              exact h2 (by rw [← hzd, Option.some.inj hz])
            simp [Equiv.swap_apply_of_ne_of_ne hja hjb]
  rw [hindex, ← hx d (Equiv.swap a b i), Option.map_eq_some_iff]
  constructor
  · rintro ⟨j, hj, rfl⟩
    rwa [Equiv.swap_apply_self]
  · intro hj
    exact ⟨_, hj, Equiv.swap_apply_self a b i⟩

/-- After an exchange, two positions compare as the exchanged positions did before. -/
theorem above_swapNode {h : IndexedHeap α ι} {a b : Nat} (ha : a < h.nodes.length)
    (hb : b < h.nodes.length) {i j i' j' : Nat} (hi : Equiv.swap a b i = i')
    (hj : Equiv.swap a b j = j') (hab : Above h i' j') : Above (h.swapNode a b) i j := by
  intro x y hx hy
  rw [getElem?_swapNode h ha hb, hi] at hx
  rw [getElem?_swapNode h ha hb, hj] at hy
  exact hab x y hx hy

/-! ### Sifting up -/

/-- One round of the sift up: the fault moves from `idx` to its parent. -/
theorem OrderedExcept.swap_up {h : IndexedHeap α ι} {idx : Nat} (ho : OrderedExcept h idx)
    (hpos : 0 < idx) (hless : h.lessAt idx ((idx - 1) / 2) = true) :
    OrderedExcept (h.swapNode idx ((idx - 1) / 2)) ((idx - 1) / 2) := by
  obtain ⟨hlen, hlen'⟩ := lt_length_of_lessAt hless
  generalize hfa : (idx - 1) / 2 = fa at *
  have hlt : fa < idx := by omega
  constructor
  · intro i hi hifa hpfa
    have hii : i ≠ idx := by rintro rfl; exact hpfa hfa
    have hsi := Equiv.swap_apply_of_ne_of_ne hii hifa
    by_cases hp : (i - 1) / 2 = idx
    · -- A child of `idx` now stands under the old parent of `idx`.
      rw [hp]
      have hg := ho.grand hpos i hi hp
      rw [hfa] at hg
      exact above_swapNode hlen hlen' (Equiv.swap_apply_left idx fa) hsi hg
    -- A pair away from both positions.
    · exact above_swapNode hlen hlen' (Equiv.swap_apply_of_ne_of_ne hp hpfa) hsi
        (ho.off i hi hii hp)
  -- The children of the new fault: `idx`, which holds the old parent, and its sibling.
  · intro hfa0 i hi hp
    have hsp : Equiv.swap idx fa ((fa - 1) / 2) = (fa - 1) / 2 :=
      Equiv.swap_apply_of_ne_of_ne (by omega) (by omega)
    have hup : Above h ((fa - 1) / 2) fa := ho.off fa hfa0 (by omega) (by omega)
    by_cases hii : i = idx
    · subst hii
      exact above_swapNode hlen hlen' hsp (Equiv.swap_apply_left i fa) hup
    · have hchild : Above h fa i := by
        have := ho.off i hi hii (by omega)
        rwa [hp] at this
      exact above_swapNode hlen hlen' hsp
        (Equiv.swap_apply_of_ne_of_ne hii (by omega))
        (hup.trans hchild fun _ => by omega)

/-- What the sift up leaves: the nodes are the same, the index is exact, and the fault
is at a position whose parent is above it. -/
structure SiftedUp (h h' : IndexedHeap α ι) (j : Nat) : Prop where
  perm : h'.nodes.Perm h.nodes
  indexed : Indexed h'
  faulty : OrderedExcept h' j
  parent : 0 < j → Above h' ((j - 1) / 2) j
  inRange : j < h'.nodes.length

theorem siftedUp_shiftUpLoop : ∀ (fuel : Nat) {h : IndexedHeap α ι} {idx : Nat},
    idx ≤ fuel → idx < h.nodes.length → Indexed h → OrderedExcept h idx →
      SiftedUp h (shiftUpLoop fuel h idx).1 (shiftUpLoop fuel h idx).2 := by
  intro fuel
  -- The induction is on the fuel; the invariant is the single fault at the current position.
  induction fuel with
  | zero =>
      intro h idx hfuel hlt hx ho
      exact ⟨List.Perm.refl _, hx, ho, fun hpos => absurd hpos (by simp [shiftUpLoop]; omega), hlt⟩
  | succ fuel ih =>
      intro h idx hfuel hlt hx ho
      unfold shiftUpLoop
      split
      · rename_i h0
        exact ⟨List.Perm.refl _, hx, ho, fun hpos => absurd hpos (by simp [h0]), hlt⟩
      · rename_i h0
        have hpos : 0 < idx := Nat.pos_of_ne_zero h0
        simp only
        split
        -- The node is before its parent: exchange them and go on there.
        · rename_i hless
          have hfa : (idx - 1) / 2 < h.nodes.length := by omega
          have hrec := ih (h := h.swapNode idx ((idx - 1) / 2)) (by omega)
            (by simpa using hfa) (hx.swapNode hlt hfa) (ho.swap_up hpos hless)
          exact { hrec with perm := hrec.perm.trans (perm_swapNode h _ _) }
        · rename_i hless
          exact ⟨List.Perm.refl _, hx, ho, fun _ => above_of_not_lessAt hless, hlt⟩

/-! ### Sifting down -/

/-- One round of the sift down: the fault moves from `idx` to the child `cur`. -/
theorem OrderedExcept.swap_down {h : IndexedHeap α ι} {idx cur : Nat}
    (ho : OrderedExcept h idx) (hcur : cur = idx * 2 + 1 ∨ cur = idx * 2 + 2)
    (hlen : cur < h.nodes.length)
    (hmin : ∀ i, 0 < i → (i - 1) / 2 = idx → Above h cur i) :
    OrderedExcept (h.swapNode cur idx) cur := by
  have hidx : idx < h.nodes.length := by omega
  constructor
  · intro i hi hic hpc
    -- The pair of `idx` and its parent: the chosen child was a grandchild of that parent.
    by_cases hii : i = idx
    · subst hii
      exact above_swapNode hlen hidx (Equiv.swap_apply_of_ne_of_ne hpc (by omega))
        (Equiv.swap_apply_right cur i) (ho.grand hi cur (by omega) (by omega))
    · have hsi := Equiv.swap_apply_of_ne_of_ne hic hii
      -- The other child of `idx`: the chosen child is above it.
      by_cases hp : (i - 1) / 2 = idx
      · rw [hp]
        exact above_swapNode hlen hidx (Equiv.swap_apply_right cur idx) hsi (hmin i hi hp)
      · exact above_swapNode hlen hidx (Equiv.swap_apply_of_ne_of_ne hpc hp) hsi
          (ho.off i hi hii hp)
  -- The children of `cur` now have the old node of `idx` two steps above them.
  · intro _ i hi hp
    have hpar : (cur - 1) / 2 = idx := by omega
    have hold := ho.off i hi (by omega) (by omega)
    rw [hp] at hold
    rw [hpar]
    exact above_swapNode hlen hidx (Equiv.swap_apply_right cur idx)
      (Equiv.swap_apply_of_ne_of_ne (by omega) (by omega)) hold

theorem valid_shiftDownLoop : ∀ (fuel : Nat) {h : IndexedHeap α ι} {idx : Nat},
    h.nodes.length ≤ fuel + idx → Indexed h → OrderedExcept h idx →
      (0 < idx → Above h ((idx - 1) / 2) idx) →
      Valid (shiftDownLoop fuel h idx).1 ∧
        (shiftDownLoop fuel h idx).1.nodes.Perm h.nodes := by
  intro fuel
  -- The induction is on the fuel. The fault moves down, and nothing above it is out of order.
  induction fuel with
  -- The position is past the end, so it has no child.
  | zero =>
      intro h idx hfuel hx ho hparent
      refine ⟨⟨hx, ho.ordered hparent ?_⟩, List.Perm.refl _⟩
      intro i hi hp a b _ hb
      have := (List.getElem?_eq_some_iff.mp hb).1
      omega
  | succ fuel ih =>
      intro h idx hfuel hx ho hparent
      unfold shiftDownLoop
      split
      · rename_i hidx
        simp only
        split
        -- No child is before `idx`: the fault is gone.
        · rename_i heq
          refine ⟨⟨hx, ho.ordered hparent fun i hi hp => ?_⟩, List.Perm.refl _⟩
          have hmin := smallestChild_above h hi hp
          rwa [heq] at hmin
        -- The chosen child is before `idx`: exchange them and go on there.
        · rename_i hne
          obtain heq | ⟨hcur, hlen, hup⟩ := smallestChild_cases h idx
          · exact absurd heq hne
          have hmin : ∀ i, 0 < i → (i - 1) / 2 = idx → Above h (h.smallestChild idx) i :=
            fun i hi hp => smallestChild_above h hi hp
          generalize h.smallestChild idx = cur at *
          have hpar : (cur - 1) / 2 = idx := by omega
          have hrec := ih (h := h.swapNode cur idx) (by simp; omega)
            (hx.swapNode hlen hidx) (ho.swap_down hcur hlen hmin)
            (fun _ => by
              rw [hpar]
              exact above_swapNode hlen hidx (Equiv.swap_apply_right cur idx)
                (Equiv.swap_apply_left cur idx) hup)
          exact ⟨hrec.1, hrec.2.trans (perm_swapNode h _ _)⟩
      -- A position past the end has no child.
      · rename_i hidx
        refine ⟨⟨hx, ho.ordered hparent ?_⟩, List.Perm.refl _⟩
        intro i hi hp a b _ hb
        have := (List.getElem?_eq_some_iff.mp hb).1
        omega

/-- A sift up and a sift down repair a heap with one fault. The nodes are the same. -/
theorem valid_resift {h : IndexedHeap α ι} {idx : Nat} (hx : Indexed h)
    (ho : OrderedExcept h idx) (hlt : idx < h.nodes.length) :
    Valid (h.resift idx) ∧ (h.resift idx).nodes.Perm h.nodes := by
  have hup := siftedUp_shiftUpLoop idx (le_refl idx) hlt hx ho
  have hdown := valid_shiftDownLoop (shiftUpLoop idx h idx).1.nodes.length
    (Nat.le_add_right _ _) hup.indexed hup.faulty hup.parent
  exact ⟨hdown.1, hdown.2.trans hup.perm⟩

/-- The sifts repair a re-keyed heap. -/
theorem Rekeyed.valid {h : IndexedHeap α ι} {idx : Nat} (hr : Rekeyed h idx) :
    Valid (h.resift idx) ∧ (h.resift idx).nodes.Perm h.nodes := by
  obtain ⟨hx, ho, hlt⟩ := hr.faulty
  exact valid_resift hx ho hlt

/-- The root has no parent to be compared with. -/
theorem shiftUpLoop_root (fuel : Nat) (h : IndexedHeap α ι) : h.shiftUpLoop fuel 0 = (h, 0) := by
  cases fuel with
  | zero => rfl
  | succ fuel => rw [shiftUpLoop, if_pos rfl]

/-- The sift up ends where it started or before that. -/
theorem shiftUpLoop_le : ∀ (fuel : Nat) (h : IndexedHeap α ι) (idx : Nat),
    (h.shiftUpLoop fuel idx).2 ≤ idx := by
  intro fuel
  induction fuel with
  | zero => intro h idx; exact le_refl idx
  | succ fuel ih =>
      intro h idx
      unfold shiftUpLoop
      split
      · exact le_refl idx
      · simp only
        split
        · have hrec := ih (h.swapNode idx ((idx - 1) / 2)) ((idx - 1) / 2)
          omega
        · exact le_refl idx

@[simp] theorem length_shiftUpLoop : ∀ (fuel : Nat) (h : IndexedHeap α ι) (idx : Nat),
    (shiftUpLoop fuel h idx).1.nodes.length = h.nodes.length := by
  intro fuel
  induction fuel with
  | zero => intro h idx; rfl
  | succ fuel ih =>
      intro h idx
      unfold shiftUpLoop
      split
      · rfl
      · simp only
        split
        · rw [ih, length_swapNode]
        · rfl

@[simp] theorem length_shiftDownLoop : ∀ (fuel : Nat) (h : IndexedHeap α ι) (idx : Nat),
    (shiftDownLoop fuel h idx).1.nodes.length = h.nodes.length := by
  intro fuel
  induction fuel with
  | zero => intro h idx; rfl
  | succ fuel ih =>
      intro h idx
      unfold shiftDownLoop
      split
      · simp only
        split
        · rfl
        · rw [ih, length_swapNode]
      · rfl

@[simp] theorem length_resift (h : IndexedHeap α ι) (idx : Nat) :
    (h.resift idx).nodes.length = h.nodes.length := by
  simp [resift, shiftUp, shiftDown]

/-! ### The operations as updates of `find` -/

theorem find_resift {h : IndexedHeap α ι} {idx : Nat} (hx : Indexed h)
    (ho : OrderedExcept h idx) (hlt : idx < h.nodes.length) :
    (h.resift idx).find = h.find := by
  have hr := valid_resift hx ho hlt
  exact find_congr hx hr.1.indexed fun a => hr.2.mem_iff

theorem Indexed.append {h : IndexedHeap α ι} (hx : Indexed h) {a : α}
    (hnone : h.index (HeapNode.id a) = none) :
    Indexed { nodes := h.nodes ++ [a],
              index := Function.update h.index (HeapNode.id a) (some h.nodes.length) } := by
  intro d i
  simp only [Function.update_apply]
  by_cases hd : d = HeapNode.id a
  -- The new id stands at the end only, because the side map did not know it.
  · subst hd
    rw [if_pos rfl]
    constructor
    · intro hi
      obtain rfl := Option.some.inj hi
      exact ⟨a, by simp, rfl⟩
    · rintro ⟨b, hb, hbid⟩
      by_cases hi : i < h.nodes.length
      · rw [List.getElem?_append_left hi] at hb
        rw [(hx _ i).mpr ⟨b, hb, hbid⟩] at hnone
        cases hnone
      · have := (List.getElem?_eq_some_iff.mp hb).1
        simp only [List.length_append, List.length_singleton] at this
        congr 1; omega
  -- Another id does not stand at the end.
  · rw [if_neg hd, hx d i]
    constructor
    · rintro ⟨b, hb, hbid⟩
      have hi := (List.getElem?_eq_some_iff.mp hb).1
      exact ⟨b, by rw [List.getElem?_append_left hi]; exact hb, hbid⟩
    · rintro ⟨b, hb, hbid⟩
      by_cases hi : i < h.nodes.length
      · rw [List.getElem?_append_left hi] at hb
        exact ⟨b, hb, hbid⟩
      · have hlast : i = h.nodes.length := by
          have := (List.getElem?_eq_some_iff.mp hb).1
          simp only [List.length_append, List.length_singleton] at this
          omega
        subst hlast
        simp only [List.getElem?_concat_length, Option.some.injEq] at hb
        exact absurd (by rw [← hbid, hb]) hd

/-- `pushNode` writes the node at its id and keeps all other ids. -/
theorem Valid.pushNode {h : IndexedHeap α ι} (hv : Valid h) (a : α) :
    Valid (h.pushNode a) ∧
      (h.pushNode a).find = Function.update h.find (HeapNode.id a) (some a) := by
  unfold IndexedHeap.pushNode
  cases hidx : h.index (HeapNode.id a) with
  -- The id is known: its node is overwritten in place.
  | some idx =>
      have hlt := hv.indexed.lt_length hidx
      have hr : Rekeyed { h with nodes := h.nodes.set idx a } idx := ⟨h, a, hv, hidx, rfl⟩
      obtain ⟨hx, ho, hlt'⟩ := hr.faulty
      refine ⟨(valid_resift hx ho hlt').1, ?_⟩
      simp only [find_resift hx ho hlt']
      funext d
      rw [Function.update_apply]
      by_cases hd : d = HeapNode.id a
      · subst hd
        simp [find, hidx, hlt]
      · rw [if_neg hd]
        unfold find
        cases hi : h.index d with
        | none => rfl
        | some i =>
            -- Another id stands at another position.
            have hne : idx ≠ i := by
              rintro rfl
              obtain ⟨b, hb, hbid⟩ := (hv.indexed _ idx).mp hidx
              obtain ⟨c, hc, hcid⟩ := (hv.indexed _ idx).mp hi
              rw [hb] at hc
              exact hd (by rw [← hcid, ← hbid, Option.some.inj hc])
            simp [hne]
  -- The id is new: its node is appended.
  | none =>
      have hx := hv.indexed.append hidx
      have ho : OrderedExcept
          { nodes := h.nodes ++ [a],
            index := Function.update h.index (HeapNode.id a) (some h.nodes.length) }
          h.nodes.length := by
        refine (hv.ordered.except h.nodes.length).congr fun i b hi hb => ?_
        have hlt := (List.getElem?_eq_some_iff.mp hb).1
        simp only [List.length_append, List.length_singleton] at hlt
        rwa [List.getElem?_append_left (by omega)] at hb
      have hlt' : h.nodes.length < (h.nodes ++ [a]).length := by simp
      refine ⟨(valid_resift hx ho hlt').1, ?_⟩
      simp only [find_resift hx ho hlt']
      funext d
      rw [Function.update_apply]
      by_cases hd : d = HeapNode.id a
      · subst hd
        simp [find]
      · rw [if_neg hd]
        unfold find
        simp only [Function.update_of_ne hd]
        cases hi : h.index d with
        | none => rfl
        | some i =>
            simp [List.getElem?_append_left (hv.indexed.lt_length hi)]

/-- `modify` of a known id is `pushNode` of the changed node, when the id is kept. -/
theorem modify_eq_pushNode {h : IndexedHeap α ι} {d : ι} {f : α → α} {a : α}
    (hd : h.find d = some a) (hid : HeapNode.id (f a) = d) :
    h.modify d f = h.pushNode (f a) := by
  unfold find at hd
  obtain ⟨idx, hidx, ha⟩ := Option.bind_eq_some_iff.mp hd
  unfold IndexedHeap.modify IndexedHeap.pushNode
  rw [hid, hidx]
  simp only
  -- Changing the node at `idx` writes the changed node there.
  have hset : h.nodes.modify idx f = h.nodes.set idx (f a) := by
    apply List.ext_getElem?
    intro i
    rw [List.getElem?_modify, List.getElem?_set]
    by_cases hi : idx = i
    · subst hi
      rw [ha]
      simp [(List.getElem?_eq_some_iff.mp ha).1]
    · simp [hi]
  rw [hset]

theorem modify_of_find_none {h : IndexedHeap α ι} (hv : Valid h) {d : ι} {f : α → α}
    (hd : h.find d = none) : h.modify d f = h := by
  have hidx : h.index d = none := by
    have := hv.indexed.index_isSome d
    rw [hd] at this
    simpa using this
  unfold modify
  rw [hidx]

/-- `modify` changes the node with the id and keeps all other ids. -/
theorem Valid.modify {h : IndexedHeap α ι} (hv : Valid h) {d : ι} {f : α → α}
    (hid : ∀ a, HeapNode.id (f a) = HeapNode.id a) :
    Valid (h.modify d f) ∧
      (h.modify d f).find = Function.update h.find d ((h.find d).map f) := by
  cases hd : h.find d with
  | none =>
      rw [modify_of_find_none hv hd]
      refine ⟨hv, ?_⟩
      rw [Option.map_none, ← hd, Function.update_eq_self]
  | some a =>
      have had : HeapNode.id (f a) = d := by
        rw [hid]; exact (hv.indexed.find_eq_some.mp hd).2
      rw [modify_eq_pushNode hd had]
      have hp := hv.pushNode (f a)
      exact ⟨hp.1, by rw [hp.2, had]; rfl⟩

/-- Dropping the last node takes its id out of `find`. -/
theorem Indexed.popBack {h : IndexedHeap α ι} (hx : Indexed h) {x : α}
    (hlast : h.nodes[h.nodes.length - 1]? = some x) :
    Indexed (h.popBack (h.nodes.length - 1)) ∧
      (h.popBack (h.nodes.length - 1)).find
        = Function.update h.find (HeapNode.id x) none := by
  have hpop : h.popBack (h.nodes.length - 1)
      = { nodes := h.nodes.dropLast,
          index := Function.update h.index (HeapNode.id x) none } := by
    unfold IndexedHeap.popBack
    rw [hlast]
  -- An id that is not dropped stands before the last position.
  have hkeep : ∀ d i, d ≠ HeapNode.id x → h.index d = some i →
      h.nodes.dropLast[i]? = h.nodes[i]? := by
    intro d i hd hi
    have hlt := hx.lt_length hi
    have hne : i ≠ h.nodes.length - 1 := by
      rintro rfl
      obtain ⟨b, hb, hbid⟩ := (hx d _).mp hi
      rw [hlast] at hb
      exact hd (by rw [← hbid, Option.some.inj hb])
    rw [List.getElem?_dropLast, if_pos (by omega)]
  rw [hpop]
  constructor
  · intro d i
    simp only [Function.update_apply]
    by_cases hd : d = HeapNode.id x
    -- The dropped id stood at the last position only.
    · subst hd
      simp only [if_true, reduceCtorEq, false_iff, not_exists, not_and]
      intro b hb hbid
      rw [List.getElem?_dropLast] at hb
      split at hb
      · rename_i hlt
        have := hx.pos_inj hb hlast hbid
        omega
      · cases hb
    · rw [if_neg hd]
      constructor
      · intro hi
        rw [hkeep d i hd hi]
        exact (hx d i).mp hi
      · rintro ⟨b, hb, hbid⟩
        rw [List.getElem?_dropLast] at hb
        split at hb
        · exact (hx d i).mpr ⟨b, hb, hbid⟩
        · cases hb
  · funext d
    rw [Function.update_apply]
    unfold find
    simp only [Function.update_apply]
    by_cases hd : d = HeapNode.id x
    · simp [hd]
    · rw [if_neg hd, if_neg hd]
      cases hi : h.index d with
      | none => rfl
      | some i => simp [hkeep d i hd hi]

/-- The exchange before a deletion, then the drop: one fault, at the position of the
node that moved. -/
theorem Ordered.swap_popBack {h : IndexedHeap α ι} (ho : Ordered h) {idx : Nat}
    (hlt : idx < h.nodes.length - 1) :
    OrderedExcept ((h.swapNode idx (h.nodes.length - 1)).popBack (h.nodes.length - 1))
      idx := by
  refine (ho.except idx).congr fun i b hi hb => ?_
  have hlen : (h.swapNode idx (h.nodes.length - 1)).nodes.length = h.nodes.length :=
    length_swapNode ..
  have hx : (h.swapNode idx (h.nodes.length - 1)).nodes[h.nodes.length - 1]?
      = some ((h.swapNode idx (h.nodes.length - 1)).nodes[h.nodes.length - 1]) :=
    List.getElem?_eq_getElem (by omega)
  unfold popBack at hb
  rw [hx] at hb
  simp only [List.getElem?_dropLast] at hb
  split at hb
  -- A position that is left and is not `idx` was not touched by the exchange.
  · rename_i hi'
    rw [hlen] at hi'
    rwa [getElem?_swapNode h (by omega) (by omega),
      Equiv.swap_apply_of_ne_of_ne hi (by omega)] at hb
  · cases hb

/-- Deleting a position takes the id of its node out of `find`. -/
theorem Valid.deleteNode {h : IndexedHeap α ι} (hv : Valid h) {idx : Nat} {x : α}
    (hx : h.nodes[idx]? = some x) :
    Valid (h.deleteNode idx) ∧
      (h.deleteNode idx).find = Function.update h.find (HeapNode.id x) none := by
  have hlt := (List.getElem?_eq_some_iff.mp hx).1
  unfold IndexedHeap.deleteNode
  simp only
  split
  -- The node is not the last: exchange, drop the last, sift the one that moved.
  · rename_i hend
    have hsx := hv.indexed.swapNode (a := idx) (b := h.nodes.length - 1) hlt (by omega)
    have hlast : (h.swapNode idx (h.nodes.length - 1)).nodes[
        (h.swapNode idx (h.nodes.length - 1)).nodes.length - 1]? = some x := by
      rw [length_swapNode, getElem?_swapNode h hlt (by omega), Equiv.swap_apply_right, hx]
    have hpop := hsx.popBack hlast
    rw [length_swapNode] at hpop
    have ho := hv.ordered.swap_popBack hend
    have hlen : idx < ((h.swapNode idx (h.nodes.length - 1)).popBack
        (h.nodes.length - 1)).nodes.length := by
      unfold IndexedHeap.popBack
      split <;> simp <;> omega
    refine ⟨(valid_resift hpop.1 ho hlen).1, ?_⟩
    rw [find_resift hpop.1 ho hlen, hpop.2,
      find_congr hv.indexed hsx fun a => (perm_swapNode h _ _).mem_iff]
  -- The last node is dropped, and every pair that is left was in order.
  · rename_i hend
    have hidx : idx = h.nodes.length - 1 := by omega
    rw [hidx] at hx ⊢
    have hpop := hv.indexed.popBack hx
    refine ⟨⟨hpop.1, fun i hi a b ha hb => ?_⟩, hpop.2⟩
    unfold IndexedHeap.popBack at ha hb
    rw [hx] at ha hb
    simp only [List.getElem?_dropLast] at ha hb
    split at hb
    · split at ha
      · exact hv.ordered i hi a b ha hb
      · cases ha
    · cases hb

/-- `erase` takes the id out and keeps all other ids. -/
theorem Valid.erase {h : IndexedHeap α ι} (hv : Valid h) (d : ι) :
    Valid (h.erase d) ∧ (h.erase d).find = Function.update h.find d none := by
  unfold IndexedHeap.erase
  cases hidx : h.index d with
  | none =>
      refine ⟨hv, ?_⟩
      have hd : h.find d = none := by simp [find, hidx]
      simp only
      rw [← hd, Function.update_eq_self]
  | some idx =>
      obtain ⟨x, hx, hxd⟩ := (hv.indexed d idx).mp hidx
      have hdel := hv.deleteNode hx
      rwa [hxd] at hdel

/-- `pop` takes the id of the root out and keeps all other ids. -/
theorem Valid.pop {h : IndexedHeap α ι} (hv : Valid h) {top : α}
    (htop : h.nodes[0]? = some top) :
    Valid h.pop ∧ h.pop.find = Function.update h.find (HeapNode.id top) none := by
  have hlt := (List.getElem?_eq_some_iff.mp htop).1
  unfold IndexedHeap.pop
  rw [if_pos hlt]
  exact hv.deleteNode htop

@[simp] theorem length_pop (h : IndexedHeap α ι) :
    h.pop.nodes.length = h.nodes.length - 1 := by
  unfold pop deleteNode
  simp only
  split
  · split
    · rw [length_resift]
      unfold popBack
      split
      · simp
      · rename_i hpos _ hnone
        have := List.getElem?_eq_none_iff.mp hnone
        rw [length_swapNode] at this
        omega
    · unfold popBack
      split
      · simp
      · rename_i hpos _ hnone
        have := List.getElem?_eq_none_iff.mp hnone
        omega
  · omega

/-! ### The root -/

/-- A node that does not beat the root does not come to it. -/
theorem shiftUpLoop_below_root : ∀ (fuel : Nat) {h : IndexedHeap α ι} {idx : Nat} {a top : α},
    h.nodes[idx]? = some a → h.nodes[0]? = some top → HeapNode.key top ≤ HeapNode.key a →
      0 < idx →
        (h.shiftUpLoop fuel idx).1.nodes[0]? = some top ∧ 0 < (h.shiftUpLoop fuel idx).2 := by
  intro fuel
  -- The induction is on the fuel; the node that goes up is never before the root.
  induction fuel with
  | zero => intro h idx a top _ htop _ hidx; exact ⟨htop, hidx⟩
  | succ fuel ih =>
      intro h idx a top ha htop hle hidx
      rw [shiftUpLoop, if_neg (Nat.ne_of_gt hidx)]
      dsimp only
      split
      case isFalse => exact ⟨htop, hidx⟩
      case isTrue hless =>
        obtain ⟨hlen, hlen'⟩ := lt_length_of_lessAt hless
        have hfa : 0 < (idx - 1) / 2 := by
          rw [Nat.pos_iff_ne_zero]
          intro hzero
          rw [hzero, lessAt, ha, htop] at hless
          exact absurd ((HeapNode.less_iff a top).mp hless) (not_lt.mpr hle)
        refine ih ?_ ?_ hle hfa
        · rw [getElem?_swapNode h hlen hlen', Equiv.swap_apply_right]
          exact ha
        · rw [getElem?_swapNode h hlen hlen', Equiv.swap_apply_of_ne_of_ne (by omega) (by omega)]
          exact htop

/-- A sift down from below the root leaves the root alone. -/
theorem shiftDownLoop_below_root : ∀ (fuel : Nat) {h : IndexedHeap α ι} {idx : Nat}, 0 < idx →
    (h.shiftDownLoop fuel idx).1.nodes[0]? = h.nodes[0]? := by
  intro fuel
  induction fuel with
  | zero => intro h idx _; rfl
  | succ fuel ih =>
      intro h idx hidx
      rw [shiftDownLoop]
      dsimp only
      split
      case isFalse => rfl
      case isTrue hlt =>
        split
        case isTrue => rfl
        case isFalse hne =>
          obtain ⟨hcur, hlen, -⟩ := (smallestChild_cases h idx).resolve_left hne
          rw [ih (by omega), getElem?_swapNode h hlen hlt,
            Equiv.swap_apply_of_ne_of_ne (by omega) (by omega)]

/-- A new node that does not beat the root leaves it where it is. -/
theorem pushNode_below_root {h : IndexedHeap α ι} {a top : α}
    (hnew : h.index (HeapNode.id a) = none) (htop : h.nodes[0]? = some top)
    (hle : HeapNode.key top ≤ HeapNode.key a) : (h.pushNode a).nodes[0]? = some top := by
  have hlen := (List.getElem?_eq_some_iff.mp htop).1
  obtain ⟨hup, hpos⟩ := shiftUpLoop_below_root h.nodes.length
    (h := { nodes := h.nodes ++ [a],
            index := Function.update h.index (HeapNode.id a) (some h.nodes.length) })
    (by simp) (by rwa [List.getElem?_append_left hlen]) hle hlen
  rw [pushNode, hnew]
  exact (shiftDownLoop_below_root _ hpos).trans hup

/-- A root that no child beats stays in a sift down. -/
theorem shiftDownLoop_root (fuel : Nat) {h : IndexedHeap α ι} (hleast : ∀ i, h.lessAt i 0 ≠ true) :
    h.shiftDownLoop fuel 0 = (h, 0) := by
  have hcur : h.smallestChild 0 = 0 := by
    rw [smallestChild]
    simp only [hleast, Bool.false_eq_true, and_false, if_false]
  cases fuel with
  | zero => rfl
  | succ fuel =>
      rw [shiftDownLoop]
      simp only [hcur, if_true, ite_self]

omit [DecidableEq ι] in
/-- A root that is written over with a node that no other one beats. -/
theorem Valid.not_lessAt_root {h : IndexedHeap α ι} (hv : Valid h) {a old : α}
    (hold : h.nodes[0]? = some old) (hid : HeapNode.id old = HeapNode.id a)
    (hleast : ∀ d c, d ≠ HeapNode.id a → h.find d = some c → HeapNode.key a ≤ HeapNode.key c)
    (i : Nat) : ({ h with nodes := h.nodes.set 0 a } : IndexedHeap α ι).lessAt i 0 ≠ true := by
  intro hless
  have hat : (h.nodes.set 0 a)[0]? = some a :=
    List.getElem?_set_self (List.getElem?_eq_some_iff.mp hold).1
  obtain ⟨c, hc⟩ : ∃ c, (h.nodes.set 0 a)[i]? = some c :=
    ⟨_, List.getElem?_eq_getElem (lt_length_of_lessAt hless).1⟩
  rw [lessAt, hc, hat] at hless
  have hbeats : HeapNode.key c < HeapNode.key a := (HeapNode.less_iff c a).mp hless
  by_cases hi : i = 0
  · subst hi
    obtain rfl := Option.some.inj (hat.symm.trans hc)
    exact lt_irrefl _ hbeats
  · rw [List.getElem?_set_ne (Ne.symm hi)] at hc
    have hne : HeapNode.id c ≠ HeapNode.id a := fun heq =>
      hi (hv.indexed.pos_inj hc hold (heq.trans hid.symm))
    have hfind := hv.indexed.find_eq_some.mpr ⟨List.mem_of_getElem? hc, rfl⟩
    exact absurd (hleast _ c hne hfind) (not_le.mpr hbeats)

/-- When the id at the root is still among the least after a push, it is still at the root. -/
theorem Valid.root_pushNode {h : IndexedHeap α ι} (hv : Valid h) {a top b : α}
    (htop : h.nodes[0]? = some top) (hb : (h.pushNode a).find (HeapNode.id top) = some b)
    (hleast : ∀ d c, (h.pushNode a).find d = some c → HeapNode.key b ≤ HeapNode.key c) :
    (h.pushNode a).nodes[0]? = some b := by
  obtain ⟨-, hfind⟩ := hv.pushNode a
  rw [hfind] at hb hleast
  obtain ⟨htopfind, -⟩ := hv.find_root htop
  have ha : HeapNode.key b ≤ HeapNode.key a := hleast _ a (Function.update_self ..)
  cases hidx : h.index (HeapNode.id a) with
  | none =>
      have hne : HeapNode.id top ≠ HeapNode.id a := by
        intro heq
        rw [heq, find, hidx] at htopfind
        cases htopfind
      rw [Function.update_of_ne hne, htopfind] at hb
      obtain rfl := Option.some.inj hb
      exact pushNode_below_root hidx htop ha
  | some idx =>
      obtain ⟨old, hold, hid⟩ := (hv.indexed _ idx).mp hidx
      have hat : ({ h with nodes := h.nodes.set idx a } : IndexedHeap α ι).nodes[idx]? = some a :=
        List.getElem?_set_self (List.getElem?_eq_some_iff.mp hold).1
      rw [IndexedHeap.pushNode, hidx]
      show (resift { h with nodes := h.nodes.set idx a } idx).nodes[0]? = some b
      rcases Nat.eq_zero_or_pos idx with rfl | hpos
      -- The root itself is written over.
      · obtain rfl := Option.some.inj (hold.symm.trans htop)
        rw [hid, Function.update_self] at hb
        obtain rfl := Option.some.inj hb
        have hroot := hv.not_lessAt_root hold hid fun d c hd hc =>
          hleast d c ((Function.update_of_ne hd _ _).trans hc)
        rw [resift, shiftUp, shiftUpLoop_root]
        simp only [shiftDown, shiftDownLoop_root _ hroot]
        exact hat
      -- Another node is written over, and it does not beat the root.
      · have hne : HeapNode.id top ≠ HeapNode.id a := by
          intro heq
          have hzero := hv.indexed.pos_inj htop hold (heq.trans hid.symm)
          omega
        rw [Function.update_of_ne hne, htopfind] at hb
        obtain rfl := Option.some.inj hb
        have hroot : ({ h with nodes := h.nodes.set idx a } : IndexedHeap α ι).nodes[0]? =
            some top := (List.getElem?_set_ne (by omega)).trans htop
        obtain ⟨hup, hafter⟩ := shiftUpLoop_below_root idx hat hroot ha hpos
        exact (shiftDownLoop_below_root _ hafter).trans hup

/-- The same for a change of a node. -/
theorem Valid.root_modify {h : IndexedHeap α ι} (hv : Valid h) {d : ι} {f : α → α}
    (hid : ∀ a, HeapNode.id (f a) = HeapNode.id a) {top b : α} (htop : h.nodes[0]? = some top)
    (hb : (h.modify d f).find (HeapNode.id top) = some b)
    (hleast : ∀ e c, (h.modify d f).find e = some c → HeapNode.key b ≤ HeapNode.key c) :
    (h.modify d f).nodes[0]? = some b := by
  cases hd : h.find d with
  | none =>
      rw [modify_of_find_none hv hd] at hb ⊢
      rw [(hv.find_root htop).1] at hb
      rw [htop, hb]
  | some a =>
      have had : HeapNode.id (f a) = d := (hid a).trans (hv.indexed.find_eq_some.mp hd).2
      rw [modify_eq_pushNode hd had] at hb hleast ⊢
      exact hv.root_pushNode htop hb hleast

end IndexedHeap

end RegistrationCenter.Lib
