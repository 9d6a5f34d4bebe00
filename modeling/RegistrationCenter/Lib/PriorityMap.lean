import RegistrationCenter.Lib.IndexedHeap

/-!
# `RegistrationCenter.Lib.PriorityMap`: finite maps with extraction of a least entry

What an indexed heap is for: a map from ids to values in which an entry of least key can be
taken out. `Represents h m` says that the heap `h` stands for the map `m`; every valid heap
stands for its own `find`. `PopsLeast` is the one operation of such a map that is not a
function: of several entries with the least key, any may go.
-/

set_option autoImplicit false

namespace RegistrationCenter.Lib

namespace IndexedHeap

variable {α ι κ : Type} [LinearOrder κ] [HeapNode α ι κ]

/-- The heap stands for the map `m`: the side map is exactly the inverse of the node list, no
node is before its heap parent, and the nodes are the values of `m` at their ids. -/
structure Represents (h : IndexedHeap α ι) (m : ι → Option α) : Prop where
  index : ∀ d i, h.index d = some i ↔ ∃ a, h.nodes[i]? = some a ∧ HeapNode.id a = d
  order : ∀ i a b, 0 < i → h.nodes[(i - 1) / 2]? = some a → h.nodes[i]? = some b →
    HeapNode.key a ≤ HeapNode.key b
  contents : ∀ d a, m d = some a ↔ a ∈ h.nodes ∧ HeapNode.id a = d

theorem Valid.represents {h : IndexedHeap α ι} (hv : Valid h) : Represents h h.find where
  index := hv.indexed
  order i a b hi := hv.ordered i hi a b
  contents _ _ := hv.indexed.find_eq_some

/-- A heap stands for at most one map. -/
theorem Represents.unique {h : IndexedHeap α ι} {m m' : ι → Option α} (hr : Represents h m)
    (hr' : Represents h m') : m = m' := by
  funext d
  apply Option.ext
  intro a
  rw [hr.contents, hr'.contents]

variable [DecidableEq ι]

/-- `m'` is `m` less one entry of least key, or `m` itself when it has no entry. -/
def PopsLeast (m m' : ι → Option α) : Prop :=
  ((∀ d, m d = none) ∧ m' = m) ∨
    ∃ d a, m d = some a ∧ (∀ e b, m e = some b → HeapNode.key a ≤ HeapNode.key b) ∧
      m' = Function.update m d none

/-- `pop` takes an entry of least key out. -/
theorem Valid.popsLeast {h : IndexedHeap α ι} (hv : Valid h) :
    Valid h.pop ∧ PopsLeast h.find h.pop.find := by
  cases htop : h.nodes[0]? with
  | none =>
      have hlen : h.nodes.length = 0 := by simpa using htop
      have hpop : h.pop = h := by simp [IndexedHeap.pop, hlen]
      rw [hpop]
      exact ⟨hv, .inl ⟨hv.find_none_of_root_none htop, rfl⟩⟩
  | some top =>
      obtain ⟨hvalid, hfind⟩ := hv.pop htop
      obtain ⟨hroot, hleast⟩ := hv.find_root htop
      exact ⟨hvalid, .inr ⟨HeapNode.id top, top, hroot, hleast, hfind⟩⟩

omit [DecidableEq ι] in
/-- `clear` leaves the map with no entry. -/
theorem valid_clear (h : IndexedHeap α ι) :
    Valid h.clear ∧ h.clear.find = fun _ => none :=
  ⟨valid_empty, rfl⟩

end IndexedHeap

end RegistrationCenter.Lib
