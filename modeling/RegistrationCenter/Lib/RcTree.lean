import Mathlib.Data.List.AList
import Mathlib.Data.List.Induction
import Mathlib.Data.Set.Insert
import Mathlib.Logic.Function.Basic
import Mathlib.Logic.Relation

/-!
# `RegistrationCenter.Lib.RcTree`: trees of reference-counted nodes

A heap of reference-counted allocations. A value holds named shared pointers to
its children, so dropping the last pointer to a value drops the pointers it holds
in turn. Addresses are never used again, so a weak pointer is an address, and it
is expired when the address has no cell.

`Forest` says that no value is shared: each child has one owner, one name and the
count one, and is younger than its owner. In a forest, `release` of a pointer that
nobody holds frees exactly what lies below it (`release_eq_without`). `Rooted` adds
that everything hangs below one root. `Pruned D` is the effect that every removal
has: the addresses in `D` are freed, the names of their pointers are erased, and all
else is as before. `walk` follows a path of names from the root; `Pruned.walk` and
`walk_insertChild` say what removals and insertions do to it.
-/

set_option autoImplicit false

namespace RegistrationCenter.Lib

/-- A value of type `α` holds shared pointers under names of type `ν`. -/
class HasChildren (α : Type*) (ν : outParam (Type*)) where
  children : α → AList (fun _ : ν => Nat)
  setChildren : α → AList (fun _ : ν => Nat) → α
  children_setChildren : ∀ v m, children (setChildren v m) = m
  setChildren_children : ∀ v, setChildren v (children v) = v
  setChildren_setChildren : ∀ v m m', setChildren (setChildren v m) m' = setChildren v m'

open HasChildren

attribute [simp] children_setChildren setChildren_children setChildren_setChildren

/-- An allocation: the value and the number of shared pointers to it. -/
structure RcCell (α : Type*) where
  value : α
  strong : Nat

structure RcHeap (α : Type*) where
  cells : Nat → Option (RcCell α)
  /-- The next fresh address. -/
  next : Nat

namespace RcHeap

variable {α ν : Type*}

def empty : RcHeap α := { cells := fun _ => none, next := 0 }

def get (h : RcHeap α) (p : Nat) : Option α := (h.cells p).map RcCell.value

/-- `make_shared`: a fresh cell with one pointer to it. -/
def make (h : RcHeap α) (v : α) : RcHeap α :=
  { cells := Function.update h.cells h.next (some { value := v, strong := 1 })
    next := h.next + 1 }

/-- Change the value at an address in place. -/
def modify (h : RcHeap α) (p : Nat) (f : α → α) : RcHeap α :=
  { h with
      cells := Function.update h.cells p
        ((h.cells p).map fun c => { c with value := f c.value }) }

section Children

variable [HasChildren α ν]

/-- The shared pointers a value holds, in the order its destructor drops them. -/
def owned (v : α) : List Nat := (children v).entries.map Sigma.snd

/-- Drop one shared pointer. The last one takes the cell away and then drops the pointers
that its value held. `fuel` bounds the depth of this. -/
def releaseLoop : Nat → RcHeap α → Nat → RcHeap α
  | 0, h, _ => h
  | fuel + 1, h, p =>
      match h.cells p with
      | none => h
      | some c =>
          if c.strong ≤ 1 then
            -- The node is destroyed: its map of children goes, pointer by pointer.
            (owned c.value).foldl (releaseLoop fuel)
              { h with cells := Function.update h.cells p none }
          else
            { h with
                cells := Function.update h.cells p (some { c with strong := c.strong - 1 }) }

/-- Drop one shared pointer. No chain of owners is longer than the heap. -/
def release (h : RcHeap α) (p : Nat) : RcHeap α := releaseLoop h.next h p

variable [DecidableEq ν]

/-- The pointer that the value at `p` holds under the name `n`. -/
def childOf (h : RcHeap α) (p : Nat) (n : ν) : Option Nat :=
  (h.get p).bind fun v => (children v).lookup n

/-- Allocate `v` and hold it under a new name of the value at `p`. -/
def insertChild (h : RcHeap α) (p : Nat) (n : ν) (v : α) : RcHeap α :=
  (h.make v).modify p fun w => setChildren w ((children w).insert n h.next)

/-- Erase a name of the value at `p` and drop the pointer it stood for. -/
def eraseChild (h : RcHeap α) (p : Nat) (n : ν) : RcHeap α :=
  match h.childOf p n with
  | none => h
  | some q => (h.modify p fun w => setChildren w ((children w).erase n)).release q

/-- Follow a path of names from `p`. -/
def walk (h : RcHeap α) : Nat → List ν → Option Nat
  | p, [] => some p
  | p, n :: ns =>
      match h.childOf p n with
      | none => none
      | some q => walk h q ns

end Children

/-! ### Cells after an operation -/

@[simp] theorem get_modify_self (h : RcHeap α) (p : Nat) (f : α → α) :
    (h.modify p f).get p = (h.get p).map f := by
  simp only [get, modify, Function.update_self, Option.map_map]
  rfl

theorem get_modify_of_ne {h : RcHeap α} {p q : Nat} (hne : q ≠ p) (f : α → α) :
    (h.modify p f).get q = h.get q := by
  simp only [get, modify, Function.update_of_ne hne]

theorem isSome_cells_modify (h : RcHeap α) (p : Nat) (f : α → α) (q : Nat) :
    ((h.modify p f).cells q).isSome = (h.cells q).isSome := by
  by_cases hq : q = p
  · subst hq; simp [modify]
  · simp [modify, Function.update_of_ne hq]

theorem cells_modify_eq_none {h : RcHeap α} {p : Nat} {f : α → α} {q : Nat} :
    (h.modify p f).cells q = none ↔ h.cells q = none := by
  rw [← Option.not_isSome_iff_eq_none, ← Option.not_isSome_iff_eq_none, isSome_cells_modify]

theorem strong_modify (h : RcHeap α) (p : Nat) (f : α → α) (q : Nat) :
    ((h.modify p f).cells q).map RcCell.strong = (h.cells q).map RcCell.strong := by
  by_cases hq : q = p
  · subst hq
    simp only [modify, Function.update_self, Option.map_map]
    rfl
  · simp [modify, Function.update_of_ne hq]

open Classical in
/-- The heap without the cells of `D`. -/
noncomputable def without (h : RcHeap α) (D : Set Nat) : RcHeap α :=
  { h with cells := fun r => if r ∈ D then none else h.cells r }

theorem cells_without_of_mem {h : RcHeap α} {D : Set Nat} {r : Nat} (hr : r ∈ D) :
    (h.without D).cells r = none := if_pos hr

theorem cells_without_of_notMem {h : RcHeap α} {D : Set Nat} {r : Nat} (hr : r ∉ D) :
    (h.without D).cells r = h.cells r := if_neg hr

theorem without_empty (h : RcHeap α) : h.without ∅ = h := by
  simp [without]

theorem without_without (h : RcHeap α) (D E : Set Nat) :
    (h.without D).without E = h.without (D ∪ E) := by
  unfold without
  congr 1
  funext r
  by_cases hD : r ∈ D <;> by_cases hE : r ∈ E <;> simp [hD, hE]

theorem without_singleton (h : RcHeap α) (p : Nat) :
    h.without {p} = { h with cells := Function.update h.cells p none } := by
  unfold without
  congr 1
  funext r
  by_cases hr : r = p
  · subst hr
    rw [if_pos (Set.mem_singleton r), Function.update_self]
  · rw [if_neg (by simpa using hr), Function.update_of_ne hr]

section Tree

variable [HasChildren α ν] [DecidableEq ν]

theorem childOf_congr {h h' : RcHeap α} {p : Nat} (hcells : h'.cells p = h.cells p) (n : ν) :
    h'.childOf p n = h.childOf p n := by
  unfold childOf get
  rw [hcells]

theorem mem_owned {v : α} {q : Nat} : q ∈ owned v ↔ ∃ n : ν, (children v).lookup n = some q := by
  unfold owned
  simp only [List.mem_map]
  constructor
  · rintro ⟨⟨n, q'⟩, hmem, rfl⟩
    exact ⟨n, AList.mem_lookup_iff.mpr hmem⟩
  · rintro ⟨n, hn⟩
    exact ⟨⟨n, q⟩, AList.mem_lookup_iff.mp hn, rfl⟩

theorem childOf_eq_some {h : RcHeap α} {p : Nat} {n : ν} {q : Nat} :
    h.childOf p n = some q ↔ ∃ c, h.cells p = some c ∧ (children c.value).lookup n = some q := by
  simp [childOf, get, Option.bind_eq_some_iff]

theorem childOf_of_cells_none {h : RcHeap α} {p : Nat} (hp : h.cells p = none) (n : ν) :
    h.childOf p n = none := by
  simp [childOf, get, hp]

/-- `p` owns `q`. -/
def Owns (h : RcHeap α) (p q : Nat) : Prop := ∃ n : ν, h.childOf p n = some q

/-- The addresses at `p` and below. -/
def below (h : RcHeap α) (p : Nat) : Set Nat := { r | Relation.ReflTransGen h.Owns p r }

/-- No value is shared: one owner, one name, one pointer, and the owner is older. -/
structure Forest (h : RcHeap α) : Prop where
  up : ∀ {p n q}, h.childOf p n = some q → p < q
  single : ∀ {p n q}, h.childOf p n = some q → (h.cells q).map RcCell.strong = some 1
  owner : ∀ {p n p' n' q}, h.childOf p n = some q → h.childOf p' n' = some q → p = p' ∧ n = n'
  fresh : ∀ {p}, h.next ≤ p → h.cells p = none

/-- Nobody owns `q`. -/
def Unowned (h : RcHeap α) (q : Nat) : Prop := ∀ p, ¬ h.Owns p q

theorem self_mem_below (h : RcHeap α) (p : Nat) : p ∈ h.below p := Relation.ReflTransGen.refl

theorem Forest.le_of_mem_below {h : RcHeap α} (hf : h.Forest) {p r : Nat} (hr : r ∈ h.below p) :
    p ≤ r := by
  induction hr with
  | refl => exact le_refl p
  | tail _ hown ih =>
      obtain ⟨n, hn⟩ := hown
      exact ih.trans (hf.up hn).le

/-- A node does not lie below its child. -/
theorem Forest.notMem_below_child {h : RcHeap α} (hf : h.Forest) {p q : Nat} {n : ν}
    (hn : h.childOf p n = some q) : p ∉ h.below q := fun hp =>
  absurd (hf.le_of_mem_below hp) (Nat.not_le.mpr (hf.up hn))

/-- The last step into a node is from its only owner. -/
theorem Forest.below_of_owns {h : RcHeap α} (hf : h.Forest) {a p q : Nat} (hown : h.Owns p q)
    (hq : q ∈ h.below a) : q = a ∨ p ∈ h.below a := by
  rcases Relation.ReflTransGen.cases_tail hq with heq | ⟨p', hp', n', hn'⟩
  · exact Or.inl heq
  · obtain ⟨n, hn⟩ := hown
    rw [(hf.owner hn hn').1]
    exact Or.inr hp'

/-- A node does not lie below a child of its owner under another name. -/
theorem Forest.notMem_below_sibling {h : RcHeap α} (hf : h.Forest) {p q q' : Nat} {n n' : ν}
    (hn : h.childOf p n = some q) (hn' : h.childOf p n' = some q') (hne : n' ≠ n) :
    q' ∉ h.below q := by
  intro hmem
  rcases hf.below_of_owns ⟨n', hn'⟩ hmem with heq | hp
  · subst heq
    exact hne (hf.owner hn' hn).2
  · exact hf.notMem_below_child hn hp

/-- What lies below two unowned nodes is apart. -/
theorem Forest.eq_of_mem_below {h : RcHeap α} (hf : h.Forest) {a b r : Nat} (ha : h.Unowned a)
    (hb : h.Unowned b) (hra : r ∈ h.below a) (hrb : r ∈ h.below b) : a = b := by
  -- Go up from `r`: its only owner lies below both, until one of the two is reached.
  induction hra with
  | refl =>
      rcases Relation.ReflTransGen.cases_tail hrb with heq | ⟨p, _, hown⟩
      · exact heq
      · exact absurd hown (ha p)
  | tail _ hown ih =>
      rcases hf.below_of_owns hown hrb with heq | hp
      · subst heq
        exact absurd hown (hb _)
      · exact ih hp

/-! ### Taking cells away -/

theorem childOf_without_of_notMem {h : RcHeap α} {D : Set Nat} {p : Nat} (hp : p ∉ D) (n : ν) :
    (h.without D).childOf p n = h.childOf p n :=
  childOf_congr (cells_without_of_notMem hp) n

theorem childOf_without_eq_some {h : RcHeap α} {D : Set Nat} {p q : Nat} {n : ν} :
    (h.without D).childOf p n = some q ↔ p ∉ D ∧ h.childOf p n = some q := by
  by_cases hp : p ∈ D
  · simp [childOf_of_cells_none (cells_without_of_mem hp), hp]
  · simp [childOf_without_of_notMem hp, hp]

theorem Unowned.without {h : RcHeap α} {q : Nat} (hq : h.Unowned q) (D : Set Nat) :
    (h.without D).Unowned q := by
  rintro p ⟨n, hn⟩
  exact hq p ⟨n, (childOf_without_eq_some.mp hn).2⟩

/-- Cells that no survivor owns can go. -/
theorem Forest.without {h : RcHeap α} (hf : h.Forest) {D : Set Nat}
    (hD : ∀ p q, h.Owns p q → p ∉ D → q ∉ D) : (h.without D).Forest where
  up hn := hf.up (childOf_without_eq_some.mp hn).2
  -- A survivor owns survivors, so no count changes.
  single hn := by
    obtain ⟨hp, hn⟩ := childOf_without_eq_some.mp hn
    rw [cells_without_of_notMem (hD _ _ ⟨_, hn⟩ hp)]
    exact hf.single hn
  owner hn hn' := hf.owner (childOf_without_eq_some.mp hn).2 (childOf_without_eq_some.mp hn').2
  fresh := by
    intro p hp
    by_cases hpD : p ∈ D
    · exact cells_without_of_mem hpD
    · rw [cells_without_of_notMem hpD]
      exact hf.fresh hp

theorem Forest.without_below {h : RcHeap α} (hf : h.Forest) {q : Nat} (hq : h.Unowned q) :
    (h.without (h.below q)).Forest := by
  refine hf.without fun p r hown hp hr => ?_
  rcases hf.below_of_owns hown hr with heq | hp'
  · subst heq
    exact hq p hown
  · exact hp hp'

/-- Losing pointers that start outside of what lies below `q` changes nothing below `q`. -/
theorem below_congr {h h' : RcHeap α} {q : Nat} (hlost : ∀ a b, h'.Owns a b → h.Owns a b)
    (hkept : ∀ a ∈ h.below q, ∀ b, h.Owns a b → h'.Owns a b) : h'.below q = h.below q := by
  apply Set.Subset.antisymm
  · intro r hr
    exact Relation.ReflTransGen.mono hlost q r hr
  · intro r hr
    -- The chain of owners is rebuilt from `q` on; each owner in it lies below `q`.
    induction hr with
    | refl => exact self_mem_below _ q
    | tail hr hown ih => exact ih.tail (hkept _ hr _ hown)

/-- Taking away cells that do not lie below `q` changes nothing below `q`. -/
theorem below_without {h : RcHeap α} {D : Set Nat} {q : Nat} (hD : ∀ r ∈ h.below q, r ∉ D) :
    (h.without D).below q = h.below q := by
  refine below_congr (fun a b hown => ?_) fun a ha b hown => ?_
  · obtain ⟨n, hn⟩ := hown
    exact ⟨n, (childOf_without_eq_some.mp hn).2⟩
  · obtain ⟨n, hn⟩ := hown
    exact ⟨n, childOf_without_eq_some.mpr ⟨hD a ha, hn⟩⟩

theorem below_eq_insert {h : RcHeap α} (hf : h.Forest) {p : Nat} {c : RcCell α}
    (hc : h.cells p = some c) :
    h.below p = {p} ∪ { r | ∃ q ∈ owned c.value, r ∈ (h.without {p}).below q } := by
  have hown : ∀ q, h.Owns p q ↔ q ∈ owned c.value := by
    intro q
    rw [mem_owned]
    constructor
    · rintro ⟨n, hn⟩
      obtain ⟨c', hc', hlook⟩ := childOf_eq_some.mp hn
      rw [hc] at hc'
      cases hc'
      exact ⟨n, hlook⟩
    · rintro ⟨n, hn⟩
      exact ⟨n, childOf_eq_some.mpr ⟨c, hc, hn⟩⟩
  -- Nothing below a child leads back to its owner.
  have hsub : ∀ q ∈ owned c.value, (h.without {p}).below q = h.below q := by
    intro q hq
    obtain ⟨n, hn⟩ := (hown q).mpr hq
    refine below_without fun r hr hrp => ?_
    rw [Set.mem_singleton_iff.mp hrp] at hr
    exact hf.notMem_below_child hn hr
  ext r
  constructor
  · intro hr
    rcases Relation.ReflTransGen.cases_head hr with heq | ⟨q, hpq, hqr⟩
    · exact Or.inl heq.symm
    · have hq := (hown q).mp hpq
      refine Or.inr ⟨q, hq, ?_⟩
      rw [hsub q hq]
      exact hqr
  · rintro (hr | ⟨q, hq, hr⟩)
    · rw [Set.mem_singleton_iff.mp hr]
      exact self_mem_below h p
    · rw [hsub q hq] at hr
      exact Relation.ReflTransGen.head ((hown q).mpr hq) hr

/-! ### Release -/

/-- The destructor loop: releasing pointers that nobody holds, one after the other. -/
theorem foldl_release {fuel : Nat}
    (hrelease : ∀ (h : RcHeap α) (p : Nat), h.Forest → (h.cells p).map RcCell.strong = some 1 →
      h.Unowned p → h.next ≤ p + fuel → releaseLoop fuel h p = h.without (h.below p)) :
    ∀ (l : List Nat) (h : RcHeap α), h.Forest → l.Nodup →
      (∀ q ∈ l, (h.cells q).map RcCell.strong = some 1 ∧ h.Unowned q ∧ h.next ≤ q + fuel) →
      l.foldl (releaseLoop fuel) h = h.without { r | ∃ q ∈ l, r ∈ h.below q } := by
  intro l
  -- The induction is on the list. The heap shrinks; the pointers that are left stay unowned.
  induction l with
  | nil =>
      intro h _ _ _
      simpa using (without_empty h).symm
  | cons a l ih =>
      intro h hf hnodup hl
      obtain ⟨ha, hnodup⟩ := List.nodup_cons.mp hnodup
      obtain ⟨⟨hsa, hua, hfa⟩, hl⟩ := List.forall_mem_cons.mp hl
      -- What lies below the other pointers of the list is not below the first.
      have hapart : ∀ q ∈ l, ∀ r ∈ h.below q, r ∉ h.below a := by
        intro q hq r hrq hra
        exact ha (hf.eq_of_mem_below hua (hl q hq).2.1 hra hrq ▸ hq)
      rw [List.foldl_cons, hrelease h a hf hsa hua hfa,
        ih _ (hf.without_below hua) hnodup, without_without]
      · congr 1
        ext r
        simp only [Set.mem_union, Set.mem_ofPred_eq, List.mem_cons, exists_eq_or_imp]
        refine or_congr Iff.rfl (exists_congr fun q => and_congr_right fun hq => ?_)
        rw [below_without (hapart q hq)]
      · intro q hq
        obtain ⟨hs, hu, hfuel⟩ := hl q hq
        rw [cells_without_of_notMem (hapart q hq q (self_mem_below h q))]
        exact ⟨hs, hu.without _, hfuel⟩

theorem releaseLoop_eq_without : ∀ (fuel : Nat) (h : RcHeap α) (p : Nat), h.Forest →
    (h.cells p).map RcCell.strong = some 1 → h.Unowned p → h.next ≤ p + fuel →
    releaseLoop fuel h p = h.without (h.below p) := by
  intro fuel
  -- The induction is on the fuel. A child is younger than its owner, so one round less is
  -- enough for what lies below it.
  induction fuel with
  -- No address is left that could be live.
  | zero =>
      intro h p hf hs _ hfuel
      have hnone : h.cells p = none := hf.fresh hfuel
      rw [hnone] at hs
      cases hs
  | succ fuel ih =>
      intro h p hf hs hu hfuel
      obtain ⟨c, hc, hstrong⟩ := Option.map_eq_some_iff.mp hs
      have hf' : (h.without {p}).Forest := by
        refine hf.without fun a q hown _ hq => ?_
        rw [Set.mem_singleton_iff.mp hq] at hown
        exact hu a hown
      have hchild : ∀ q ∈ owned c.value, ∃ n : ν, h.childOf p n = some q := fun q hq =>
        (mem_owned.mp hq).imp fun n hn => childOf_eq_some.mpr ⟨c, hc, hn⟩
      -- The count is one, so the cell goes and its pointers are dropped.
      have hloop : releaseLoop (fuel + 1) h p
          = (owned c.value).foldl (releaseLoop fuel) (h.without {p}) := by
        rw [without_singleton, releaseLoop, hc]
        exact if_pos hstrong.le
      rw [hloop, foldl_release ih _ _ hf', without_without, ← below_eq_insert hf hc]
      · -- The names of one value stand for different pointers.
        refine List.Nodup.map_on ?_ (List.Nodup.of_map _ (children c.value).nodupKeys)
        rintro ⟨n, q⟩ hn ⟨n', q'⟩ hn' heq
        have hq : h.childOf p n = some q :=
          childOf_eq_some.mpr ⟨c, hc, AList.mem_lookup_iff.mpr hn⟩
        have hq' : h.childOf p n' = some q' :=
          childOf_eq_some.mpr ⟨c, hc, AList.mem_lookup_iff.mpr hn'⟩
        replace heq : q = q' := heq
        subst heq
        rw [(hf.owner hq hq').2]
      · intro q hq
        obtain ⟨n, hn⟩ := hchild q hq
        have hlt := hf.up hn
        refine ⟨?_, ?_, ?_⟩
        -- Without its owner a child is held by nobody else.
        · rw [cells_without_of_notMem (by simpa using hlt.ne')]
          exact hf.single hn
        · rintro a ⟨m, hm⟩
          obtain ⟨hap, hm⟩ := childOf_without_eq_some.mp hm
          exact hap (hf.owner hm hn).1
        · show h.next ≤ q + fuel
          omega

/-- Dropping the only pointer to a value that nobody owns frees what lies below it. -/
theorem release_eq_without {h : RcHeap α} (hf : h.Forest) {p : Nat}
    (hs : (h.cells p).map RcCell.strong = some 1) (hu : h.Unowned p) :
    h.release p = h.without (h.below p) :=
  releaseLoop_eq_without h.next h p hf hs hu (Nat.le_add_left _ _)

/-! ### Paths -/

theorem walk_cons (h : RcHeap α) (p : Nat) (n : ν) (π : List ν) :
    h.walk p (n :: π) = (h.childOf p n).bind fun q => h.walk q π := by
  rw [walk]
  cases h.childOf p n with
  | none => rfl
  | some q => rfl

theorem walk_append (h : RcHeap α) (p : Nat) (π ρ : List ν) :
    h.walk p (π ++ ρ) = (h.walk p π).bind fun q => h.walk q ρ := by
  induction π generalizing p with
  | nil => rfl
  | cons n π ih =>
      rw [List.cons_append, walk_cons, walk_cons, Option.bind_assoc]
      simp only [ih]

theorem walk_concat (h : RcHeap α) (p : Nat) (π : List ν) (n : ν) :
    h.walk p (π ++ [n]) = (h.walk p π).bind fun q => h.childOf q n := by
  rw [walk_append]
  congr 1
  funext q
  rw [walk_cons]
  cases h.childOf q n with
  | none => rfl
  | some r => rfl

theorem walk_concat_eq_some {h : RcHeap α} {p r : Nat} {π : List ν} {n : ν} :
    h.walk p (π ++ [n]) = some r ↔ ∃ q, h.walk p π = some q ∧ h.childOf q n = some r := by
  rw [walk_concat, Option.bind_eq_some_iff]

theorem mem_below_iff_walk {h : RcHeap α} {p r : Nat} :
    r ∈ h.below p ↔ ∃ π : List ν, h.walk p π = some r := by
  constructor
  · intro hr
    induction hr with
    | refl => exact ⟨[], rfl⟩
    | tail _ hown ih =>
        obtain ⟨π, hπ⟩ := ih
        obtain ⟨n, hn⟩ := hown
        exact ⟨π ++ [n], walk_concat_eq_some.mpr ⟨_, hπ, hn⟩⟩
  · rintro ⟨π, hπ⟩
    induction π using List.reverseRecOn generalizing r with
    | nil =>
        cases hπ
        exact self_mem_below h p
    | append_singleton π n ih =>
        obtain ⟨q, hq, hn⟩ := walk_concat_eq_some.mp hπ
        exact (ih hq).tail ⟨n, hn⟩

/-- Everything hangs below `root`. -/
structure Rooted (h : RcHeap α) (root : Nat) : Prop extends Forest h where
  rootLive : (h.cells root).isSome
  rootFree : h.Unowned root
  attached : ∀ {q}, (h.cells q).isSome → q ≠ root → ∃ p, h.Owns p q

theorem Forest.isSome_of_childOf {h : RcHeap α} (hf : h.Forest) {p q : Nat} {n : ν}
    (hn : h.childOf p n = some q) : (h.cells q).isSome := by
  have hs := hf.single hn
  cases hq : h.cells q with
  | none => rw [hq] at hs; cases hs
  | some c => rfl

theorem Rooted.isSome_of_walk {h : RcHeap α} {root : Nat} (hr : h.Rooted root) {π : List ν}
    {q : Nat} (hq : h.walk root π = some q) : (h.cells q).isSome := by
  induction π using List.reverseRecOn with
  | nil =>
      cases hq
      exact hr.rootLive
  | append_singleton π n _ =>
      obtain ⟨p, _, hn⟩ := walk_concat_eq_some.mp hq
      exact hr.isSome_of_childOf hn

/-- Each live node has a path. -/
theorem Rooted.exists_walk {h : RcHeap α} {root : Nat} (hr : h.Rooted root) {q : Nat}
    (hq : (h.cells q).isSome) : ∃ π : List ν, h.walk root π = some q := by
  -- The owner of a node is older, so the induction on the address goes up to the root.
  induction q using Nat.strong_induction_on with
  | _ q ih =>
      by_cases hroot : q = root
      · exact ⟨[], by rw [hroot]; rfl⟩
      · obtain ⟨p, n, hn⟩ := hr.attached hq hroot
        have hp : (h.cells p).isSome := by
          obtain ⟨c, hc, _⟩ := childOf_eq_some.mp hn
          rw [hc]
          rfl
        obtain ⟨π, hπ⟩ := ih p (hr.up hn) hp
        exact ⟨π ++ [n], walk_concat_eq_some.mpr ⟨p, hπ, hn⟩⟩

/-- Each node has one path. -/
theorem Rooted.walk_inj {h : RcHeap α} {root : Nat} (hr : h.Rooted root) {π ρ : List ν} {q : Nat}
    (hπ : h.walk root π = some q) (hρ : h.walk root ρ = some q) : π = ρ := by
  -- Both paths are taken apart from the end: the last owner and the last name are unique.
  induction π using List.reverseRecOn generalizing ρ q with
  | nil =>
      cases hπ
      induction ρ using List.reverseRecOn with
      | nil => rfl
      | append_singleton ρ m _ =>
          obtain ⟨p, _, hm⟩ := walk_concat_eq_some.mp hρ
          exact absurd ⟨m, hm⟩ (hr.rootFree p)
  | append_singleton π n ih =>
      obtain ⟨p, hp, hn⟩ := walk_concat_eq_some.mp hπ
      induction ρ using List.reverseRecOn with
      | nil =>
          cases hρ
          exact absurd ⟨n, hn⟩ (hr.rootFree p)
      | append_singleton ρ m _ =>
          obtain ⟨p', hp', hm⟩ := walk_concat_eq_some.mp hρ
          obtain ⟨rfl, rfl⟩ := hr.owner hn hm
          rw [ih hp hp']

/-- Below a node are the nodes whose path extends its path. -/
theorem Rooted.mem_below_iff_prefix {h : RcHeap α} {root : Nat} (hr : h.Rooted root)
    {π ρ : List ν} {p q : Nat} (hρ : h.walk root ρ = some p) (hπ : h.walk root π = some q) :
    q ∈ h.below p ↔ ρ <+: π := by
  rw [mem_below_iff_walk]
  constructor
  · rintro ⟨σ, hσ⟩
    refine ⟨σ, hr.walk_inj ?_ hπ⟩
    rw [walk_append, hρ]
    exact hσ
  · rintro ⟨σ, rfl⟩
    rw [walk_append, hρ] at hπ
    exact ⟨σ, hπ⟩

/-! ### Pruning -/

/-- `D` holds with each node everything below it. -/
def Closed (h : RcHeap α) (D : Set Nat) : Prop := ∀ p q, h.Owns p q → p ∈ D → q ∈ D

theorem closed_below (h : RcHeap α) (p : Nat) : h.Closed (h.below p) :=
  fun _ _ hown hp => Relation.ReflTransGen.tail hp hown

theorem Closed.mem_of_mem_below {h : RcHeap α} {D : Set Nat} (hD : h.Closed D) {p r : Nat}
    (hp : p ∈ D) (hr : r ∈ h.below p) : r ∈ D := by
  induction hr with
  | refl => exact hp
  | tail _ hown ih => exact hD _ _ hown ih

/-- What lies at or below some nodes is closed. -/
theorem closed_below_of (h : RcHeap α) (Q : Nat → Prop) :
    h.Closed { r | ∃ e, Q e ∧ r ∈ h.below e } := by
  rintro p q hown ⟨e, he, hp⟩
  exact ⟨e, he, Relation.ReflTransGen.tail hp hown⟩

/-- The root lies below itself only. -/
theorem Rooted.root_mem_below {h : RcHeap α} {root : Nat} (hr : h.Rooted root) {p : Nat}
    (hp : root ∈ h.below p) : p = root := by
  rcases Relation.ReflTransGen.cases_tail hp with heq | ⟨q, _, hown⟩
  · exact heq.symm
  · exact absurd hown (hr.rootFree q)

/-- `h'` is `h` with the nodes of `D` freed and their names erased. -/
structure Pruned (D : Set Nat) (h h' : RcHeap α) : Prop where
  next : h'.next = h.next
  gone : ∀ r ∈ D, h'.cells r = none
  absent : ∀ r, h.cells r = none → h'.cells r = none
  kept : ∀ r ∉ D, ∀ c, h.cells r = some c → ∃ m : AList (fun _ : ν => Nat),
    h'.cells r = some { c with value := setChildren c.value m } ∧
      ∀ n q, m.lookup n = some q ↔ (children c.value).lookup n = some q ∧ q ∉ D

theorem Pruned.refl (h : RcHeap α) : Pruned ∅ h h where
  next := rfl
  gone r hr := absurd hr (Set.notMem_empty r)
  absent _ hr := hr
  kept r _ c hc := ⟨children c.value, by simpa using hc, by simp⟩

theorem Pruned.trans {D E : Set Nat} {h h' h'' : RcHeap α} (hD : Pruned D h h')
    (hE : Pruned E h' h'') : Pruned (D ∪ E) h h'' where
  next := hE.next.trans hD.next
  gone r hr := by
    by_cases hrE : r ∈ E
    · exact hE.gone r hrE
    · exact hE.absent r (hD.gone r (hr.resolve_right hrE))
  absent r hr := hE.absent r (hD.absent r hr)
  kept r hr c hc := by
    rw [Set.mem_union, not_or] at hr
    obtain ⟨m, hm, hlook⟩ := hD.kept r hr.1 c hc
    obtain ⟨m', hm', hlook'⟩ := hE.kept r hr.2 _ hm
    refine ⟨m', by simpa using hm', fun n q => ?_⟩
    rw [hlook' n q, children_setChildren, hlook n q, Set.mem_union, not_or, and_assoc]

theorem Pruned.childOf_eq_some {D : Set Nat} {h h' : RcHeap α} (hp : Pruned D h h') {p q : Nat}
    {n : ν} : h'.childOf p n = some q ↔ p ∉ D ∧ h.childOf p n = some q ∧ q ∉ D := by
  by_cases hpD : p ∈ D
  · simp [childOf_of_cells_none (hp.gone p hpD), hpD]
  · cases hc : h.cells p with
    | none => simp [childOf_of_cells_none (hp.absent p hc), childOf_of_cells_none hc]
    | some c =>
        obtain ⟨m, hm, hlook⟩ := hp.kept p hpD c hc
        rw [RcHeap.childOf_eq_some, RcHeap.childOf_eq_some]
        simp only [hm, hc, Option.some.injEq, exists_eq_left', children_setChildren, hlook, hpD,
          not_false_eq_true, true_and]

theorem Pruned.isSome_cells {D : Set Nat} {h h' : RcHeap α} (hp : Pruned D h h') {r : Nat} :
    (h'.cells r).isSome ↔ (h.cells r).isSome ∧ r ∉ D := by
  by_cases hr : r ∈ D
  · simp [hp.gone r hr, hr]
  · cases hc : h.cells r with
    | none => simp [hp.absent r hc]
    | some c =>
        obtain ⟨m, hm, -⟩ := hp.kept r hr c hc
        simp [hm, hr]

/-- What `f` reads of a value besides its children is kept. -/
theorem Pruned.map_get {β : Type*} {f : α → β} (hf : ∀ v m, f (setChildren v m) = f v)
    {D : Set Nat} {h h' : RcHeap α} (hp : Pruned D h h') {r : Nat} (hr : r ∉ D) :
    (h'.get r).map f = (h.get r).map f := by
  unfold get
  cases hc : h.cells r with
  | none => rw [hp.absent r hc]
  | some c =>
      obtain ⟨m, hm, -⟩ := hp.kept r hr c hc
      rw [hm]
      exact congrArg some (hf c.value m)

theorem Pruned.rooted {D : Set Nat} {h h' : RcHeap α} {root : Nat} (hp : Pruned D h h')
    (hr : h.Rooted root) (hroot : root ∉ D) (hclosed : h.Closed D) : h'.Rooted root where
  up hn := hr.up (hp.childOf_eq_some.mp hn).2.1
  -- The counts of the survivors are kept.
  single hn := by
    obtain ⟨-, hn, hq⟩ := hp.childOf_eq_some.mp hn
    obtain ⟨c, hc, hstrong⟩ := Option.map_eq_some_iff.mp (hr.single hn)
    obtain ⟨m, hm, -⟩ := hp.kept _ hq c hc
    rw [hm]
    exact congrArg some hstrong
  owner hn hn' := hr.owner (hp.childOf_eq_some.mp hn).2.1 (hp.childOf_eq_some.mp hn').2.1
  fresh hle := hp.absent _ (hr.fresh (hp.next ▸ hle))
  rootLive := hp.isSome_cells.mpr ⟨hr.rootLive, hroot⟩
  rootFree := by
    rintro p ⟨n, hn⟩
    exact hr.rootFree p ⟨n, (hp.childOf_eq_some.mp hn).2.1⟩
  -- The owner of a survivor survives, because `D` is closed.
  attached := by
    intro q hq hne
    obtain ⟨hq, hqD⟩ := hp.isSome_cells.mp hq
    obtain ⟨p, n, hn⟩ := hr.attached hq hne
    exact ⟨p, n, hp.childOf_eq_some.mpr ⟨fun hpD => hqD (hclosed p q ⟨n, hn⟩ hpD), hn, hqD⟩⟩

/-- The paths that survive are those of the nodes that survive. -/
theorem Pruned.walk_eq_some {D : Set Nat} {h h' : RcHeap α} (hp : Pruned D h h')
    (hclosed : h.Closed D) {p r : Nat} (hpD : p ∉ D) {π : List ν} :
    h'.walk p π = some r ↔ h.walk p π = some r ∧ r ∉ D := by
  induction π using List.reverseRecOn generalizing r with
  | nil =>
      show some p = some r ↔ some p = some r ∧ r ∉ D
      constructor
      · intro heq
        cases heq
        exact ⟨rfl, hpD⟩
      · exact fun hr => hr.1
  | append_singleton π n ih =>
      simp only [walk_concat_eq_some, hp.childOf_eq_some, ih]
      constructor
      · rintro ⟨q, ⟨hq, -⟩, -, hn, hr⟩
        exact ⟨⟨q, hq, hn⟩, hr⟩
      · rintro ⟨⟨q, hq, hn⟩, hr⟩
        -- Every node on the way to a survivor survives.
        have hqD : q ∉ D := fun hqD => hr (hclosed q r ⟨n, hn⟩ hqD)
        exact ⟨q, ⟨hq, hqD⟩, hqD, hn, hr⟩

/-- Below a survivor are the survivors that were below it. -/
theorem Pruned.mem_below_iff {D : Set Nat} {h h' : RcHeap α} (hp : Pruned D h h')
    (hclosed : h.Closed D) {p r : Nat} (hpD : p ∉ D) :
    r ∈ h'.below p ↔ r ∈ h.below p ∧ r ∉ D := by
  simp only [mem_below_iff_walk, hp.walk_eq_some hclosed hpD, exists_and_right]

/-- Two prunings after each other, where the second takes what lies below the survivors
among the nodes with `Q`, take what lies below the nodes with `Q`. -/
theorem Pruned.union_below {D : Set Nat} {h h' : RcHeap α} (hp : Pruned D h h')
    (hclosed : h.Closed D) {Q R : Nat → Prop} (hQ : ∀ e, R e ↔ Q e ∧ e ∉ D) :
    D ∪ { r | ∃ e, R e ∧ r ∈ h'.below e } = D ∪ { r | ∃ e, Q e ∧ r ∈ h.below e } := by
  ext r
  by_cases hr : r ∈ D
  · simp [hr]
  · simp only [Set.mem_union, hr, false_or, Set.mem_ofPred_eq]
    constructor
    · rintro ⟨e, he, hbelow⟩
      obtain ⟨he, heD⟩ := (hQ e).mp he
      exact ⟨e, he, ((hp.mem_below_iff hclosed heD).mp hbelow).1⟩
    · rintro ⟨e, he, hbelow⟩
      -- The rest of what lies below a freed node is in `D` already.
      have heD : e ∉ D := by
        intro heD
        exact hr (hclosed.mem_of_mem_below heD hbelow)
      exact ⟨e, (hQ e).mpr ⟨he, heD⟩, (hp.mem_below_iff hclosed heD).mpr ⟨hbelow, hr⟩⟩

/-! ### Erasing -/

theorem childOf_modify_of_ne {h : RcHeap α} {p a : Nat} (hne : a ≠ p) (f : α → α) (n : ν) :
    (h.modify p f).childOf a n = h.childOf a n := by
  unfold childOf
  rw [get_modify_of_ne hne]

theorem childOf_modify_erase {h : RcHeap α} {p a r : Nat} {n m : ν} :
    (h.modify p fun w => setChildren w ((children w).erase n)).childOf a m = some r ↔
      h.childOf a m = some r ∧ ¬ (a = p ∧ m = n) := by
  by_cases ha : a = p
  · subst ha
    unfold childOf
    rw [get_modify_self]
    cases h.get a with
    | none => simp
    | some v =>
        by_cases hm : m = n
        · subst hm; simp
        · simp [hm, AList.lookup_erase_ne hm]
  · rw [childOf_modify_of_ne ha]
    simp [ha]

/-- Erasing a name without dropping its pointer leaves a forest. -/
theorem Forest.modify_erase {h : RcHeap α} (hf : h.Forest) (p : Nat) (n : ν) :
    (h.modify p fun w => setChildren w ((children w).erase n)).Forest where
  up hm := hf.up (childOf_modify_erase.mp hm).1
  single hm := (strong_modify h p _ _).trans (hf.single (childOf_modify_erase.mp hm).1)
  owner hm hm' := hf.owner (childOf_modify_erase.mp hm).1 (childOf_modify_erase.mp hm').1
  fresh ha := cells_modify_eq_none.mpr (hf.fresh ha)

/-- Erasing a name frees what lies below it, and nothing else changes. -/
theorem pruned_eraseChild {h : RcHeap α} (hf : h.Forest) {p q : Nat} {n : ν}
    (hn : h.childOf p n = some q) : Pruned (h.below q) h (h.eraseChild p n) := by
  -- The heap with the name erased and the node still there.
  let h₀ := h.modify p fun w => setChildren w ((children w).erase n)
  have hchild : ∀ {a m r}, h₀.childOf a m = some r ↔ h.childOf a m = some r ∧ ¬ (a = p ∧ m = n) :=
    childOf_modify_erase
  have hf₀ : h₀.Forest := hf.modify_erase p n
  -- The erased name was the only one for `q`.
  have hu : h₀.Unowned q := by
    rintro a ⟨m, hm⟩
    obtain ⟨hm, hne⟩ := hchild.mp hm
    exact hne (hf.owner hm hn)
  have hpq : p ∉ h.below q := hf.notMem_below_child hn
  -- The erased name stands above `q`, so nothing below `q` changes.
  have hbelow : h₀.below q = h.below q := by
    refine below_congr (fun a b hown => ?_) fun a ha b hown => ?_
    · obtain ⟨m, hm⟩ := hown
      exact ⟨m, (hchild.mp hm).1⟩
    · obtain ⟨m, hm⟩ := hown
      exact ⟨m, hchild.mpr ⟨hm, fun heq => hpq (heq.1 ▸ ha)⟩⟩
  have herase : h.eraseChild p n = h₀.without (h.below q) := by
    rw [← hbelow, ← release_eq_without hf₀ ((strong_modify h p _ q).trans (hf.single hn)) hu,
      eraseChild, hn]
  rw [herase]
  refine ⟨rfl, fun r hr => cells_without_of_mem hr, fun r hr => ?_, fun r hr c hc => ?_⟩
  · by_cases hrD : r ∈ h.below q
    · exact cells_without_of_mem hrD
    · rw [cells_without_of_notMem hrD]
      exact cells_modify_eq_none.mpr hr
  · rw [cells_without_of_notMem hr]
    -- A name that leads below `q` from outside is the erased one.
    have hout : ∀ m b, h.childOf r m = some b → b ∈ h.below q → r = p ∧ m = n := by
      intro m b hm hb
      rcases hf.below_of_owns ⟨m, hm⟩ hb with heq | hrq
      · subst heq
        exact hf.owner hm hn
      · exact absurd hrq hr
    -- The value at `p` loses the name `n`; every other survivor keeps all its names.
    by_cases hrp : r = p
    · subst hrp
      refine ⟨(children c.value).erase n, ?_, fun m b => ?_⟩
      · show (h.modify r _).cells r = _
        simp [modify, hc]
      · by_cases hm : m = n
        · subst hm
          simp only [AList.lookup_erase, reduceCtorEq, false_iff, not_and, not_not]
          intro hb
          have hmb : h.childOf r m = some b := RcHeap.childOf_eq_some.mpr ⟨c, hc, hb⟩
          rw [hn] at hmb
          cases hmb
          exact self_mem_below h q
        · rw [AList.lookup_erase_ne hm]
          refine ⟨fun hb => ⟨hb, fun hbq => hm ?_⟩, fun hb => hb.1⟩
          exact (hout m b (RcHeap.childOf_eq_some.mpr ⟨c, hc, hb⟩) hbq).2
    · refine ⟨children c.value, ?_, fun m b => ?_⟩
      · show (h.modify p _).cells r = _
        simp [modify, Function.update_of_ne hrp, hc]
      · refine ⟨fun hb => ⟨hb, fun hbq => hrp ?_⟩, fun hb => hb.1⟩
        exact (hout m b (RcHeap.childOf_eq_some.mpr ⟨c, hc, hb⟩) hbq).1

/-! ### Inserting -/

theorem Forest.lt_next {h : RcHeap α} (hf : h.Forest) {p : Nat} (hp : (h.cells p).isSome) :
    p < h.next := by
  by_contra hle
  rw [hf.fresh (Nat.not_lt.mp hle)] at hp
  cases hp

theorem cells_insertChild {h : RcHeap α} {p : Nat} (hp : p ≠ h.next) (n : ν) (v : α) (a : Nat) :
    (h.insertChild p n v).cells a = if a = h.next then some { value := v, strong := 1 }
      else if a = p then (h.cells p).map fun c =>
        { c with value := setChildren c.value ((children c.value).insert n h.next) }
      else h.cells a := by
  unfold insertChild modify make
  by_cases ha : a = h.next
  -- The new cell.
  · subst ha
    simp [Function.update_of_ne hp.symm]
  · by_cases hap : a = p
    · subst hap
      simp [hp]
    · simp [ha, hap, Function.update_of_ne]

theorem childOf_insertChild {h : RcHeap α} (hf : h.Forest) {p : Nat} (hp : (h.cells p).isSome)
    {n : ν} (hn : h.childOf p n = none) {v : α} (hv : children v = ∅) {a b : Nat} {m : ν} :
    (h.insertChild p n v).childOf a m = some b ↔
      h.childOf a m = some b ∨ a = p ∧ m = n ∧ b = h.next := by
  have hne : p ≠ h.next := (hf.lt_next hp).ne
  rw [childOf_eq_some, cells_insertChild hne]
  by_cases ha : a = h.next
  -- The new value has no children, and there was no value at its address before.
  · subst ha
    rw [if_pos rfl, childOf_of_cells_none (hf.fresh (le_refl _))]
    simp [hv, hne.symm]
  · rw [if_neg ha]
    by_cases hap : a = p
    · subst hap
      obtain ⟨c, hc⟩ := Option.isSome_iff_exists.mp hp
      rw [if_pos rfl, hc]
      -- The value at `p` gains the name `n`, which was not there.
      by_cases hm : m = n
      · subst hm
        rw [hn]
        simp [eq_comm]
      · rw [childOf_eq_some]
        simp [hc, hm, AList.lookup_insert_ne hm]
    · rw [if_neg hap, ← childOf_eq_some]
      simp [hap]

theorem isSome_cells_insertChild {h : RcHeap α} (hf : h.Forest) {p : Nat}
    (hp : (h.cells p).isSome) (n : ν) (v : α) (a : Nat) :
    ((h.insertChild p n v).cells a).isSome ↔ a = h.next ∨ (h.cells a).isSome := by
  rw [cells_insertChild (hf.lt_next hp).ne]
  by_cases ha : a = h.next
  · simp [ha]
  · by_cases hap : a = p
    · subst hap
      simp [ha]
    · simp [ha, hap]

theorem rooted_insertChild {h : RcHeap α} {root : Nat} (hr : h.Rooted root) {p : Nat}
    (hp : (h.cells p).isSome) {n : ν} (hn : h.childOf p n = none) {v : α} (hv : children v = ∅) :
    (h.insertChild p n v).Rooted root := by
  have hlt := hr.lt_next hp
  have hchild : ∀ {a m b}, (h.insertChild p n v).childOf a m = some b ↔
      h.childOf a m = some b ∨ a = p ∧ m = n ∧ b = h.next :=
    childOf_insertChild hr.toForest hp hn hv
  -- The new address is nobody's child yet.
  have hnew : ∀ a m, h.childOf a m ≠ some h.next := by
    intro a m hm
    exact absurd (hr.lt_next (hr.isSome_of_childOf hm)) (lt_irrefl _)
  refine { up := ?_, single := ?_, owner := ?_, fresh := ?_, rootLive := ?_, rootFree := ?_,
           attached := ?_ }
  · intro a m b hm
    rcases hchild.mp hm with hm | ⟨rfl, -, rfl⟩
    · exact hr.up hm
    · exact hlt
  · intro a m b hm
    rw [cells_insertChild hlt.ne]
    rcases hchild.mp hm with hold | ⟨-, -, rfl⟩
    · have hb := (hr.lt_next (hr.isSome_of_childOf hold)).ne
      rw [if_neg hb]
      by_cases hbp : b = p
      · subst hbp
        rw [if_pos rfl, Option.map_map]
        exact hr.single hold
      · rw [if_neg hbp]
        exact hr.single hold
    · rw [if_pos rfl]
      rfl
  -- One owner: an old pointer never leads to the new address.
  · intro a m a' m' b hm hm'
    rcases hchild.mp hm with hm | ⟨rfl, rfl, hb⟩
    · rcases hchild.mp hm' with hm' | ⟨-, -, rfl⟩
      · exact hr.owner hm hm'
      · exact absurd hm (hnew a m)
    · rcases hchild.mp hm' with hm' | ⟨rfl, rfl, -⟩
      · rw [hb] at hm'
        exact absurd hm' (hnew a' m')
      · exact ⟨rfl, rfl⟩
  -- Fresh addresses start one later.
  · intro a ha
    have ha : h.next + 1 ≤ a := ha
    rw [cells_insertChild hlt.ne, if_neg (by omega), if_neg (by omega)]
    exact hr.fresh (by omega)
  · exact (isSome_cells_insertChild hr.toForest hp n v root).mpr (Or.inr hr.rootLive)
  · rintro a ⟨m, hm⟩
    rcases hchild.mp hm with hm | ⟨-, -, hroot⟩
    · exact hr.rootFree a ⟨m, hm⟩
    · exact absurd (hr.lt_next hr.rootLive) (by omega)
  -- The new value hangs below `p`, every other one where it did.
  · intro a ha hne
    rcases (isSome_cells_insertChild hr.toForest hp n v a).mp ha with rfl | ha
    · exact ⟨p, n, hchild.mpr (Or.inr ⟨rfl, rfl, rfl⟩)⟩
    · obtain ⟨b, m, hm⟩ := hr.attached ha hne
      exact ⟨b, m, hchild.mpr (Or.inl hm)⟩

/-- An insertion adds one path. -/
theorem walk_insertChild {h : RcHeap α} {root : Nat} (hr : h.Rooted root) {p : Nat}
    (hp : (h.cells p).isSome) {n : ν} (hn : h.childOf p n = none) {v : α} (hv : children v = ∅)
    {π : List ν} {b : Nat} :
    (h.insertChild p n v).walk root π = some b ↔
      h.walk root π = some b ∨ b = h.next ∧ ∃ ρ, h.walk root ρ = some p ∧ π = ρ ++ [n] := by
  -- The induction is on the path from its end: the last step is an old pointer or the new one.
  induction π using List.reverseRecOn generalizing b with
  | nil =>
      show some root = some b ↔ some root = some b ∨ _
      simp
  | append_singleton π m ih =>
      simp only [walk_concat_eq_some, ih, childOf_insertChild hr.toForest hp hn hv]
      constructor
      · rintro ⟨a, ha | ⟨rfl, _⟩, hm | ⟨rfl, rfl, rfl⟩⟩
        · exact Or.inl ⟨a, ha, hm⟩
        · exact Or.inr ⟨rfl, π, ha, rfl⟩
        -- The new value has no children, so no path goes on from it.
        · rw [childOf_of_cells_none (hr.fresh (le_refl _))] at hm
          cases hm
        · exact absurd (hr.lt_next hp) (lt_irrefl _)
      · rintro (⟨a, ha, hm⟩ | ⟨rfl, ρ, hρ, heq⟩)
        · exact ⟨a, Or.inl ha, Or.inl hm⟩
        · obtain ⟨rfl, hm⟩ := List.append_inj' heq rfl
          cases hm
          exact ⟨p, Or.inl hρ, Or.inr ⟨rfl, rfl, rfl⟩⟩

/-- What `f` reads of the old values besides their children is kept. -/
theorem map_get_insertChild {β : Type*} {f : α → β} (hf : ∀ v m, f (setChildren v m) = f v)
    {h : RcHeap α} {p : Nat} (hp : p ≠ h.next) (n : ν) (v : α) (a : Nat) :
    ((h.insertChild p n v).get a).map f = if a = h.next then some (f v) else (h.get a).map f := by
  unfold get
  rw [cells_insertChild hp]
  by_cases ha : a = h.next
  · simp [ha]
  · by_cases hap : a = p
    · subst hap
      simp [ha, Function.comp_def, hf]
    · simp [ha, hap]

/-! ### Changing a value and not its children -/

theorem childOf_modify {h : RcHeap α} {g : α → α} (hg : ∀ v, children (g v) = children v)
    (p a : Nat) (n : ν) : (h.modify p g).childOf a n = h.childOf a n := by
  by_cases ha : a = p
  · subst ha
    unfold childOf
    rw [get_modify_self]
    cases h.get a with
    | none => rfl
    | some v => exact congrArg (AList.lookup n) (hg v)
  · exact childOf_modify_of_ne ha g n

theorem Rooted.modify {h : RcHeap α} {root : Nat} (hr : h.Rooted root) {g : α → α}
    (hg : ∀ v, children (g v) = children v) (p : Nat) : (h.modify p g).Rooted root where
  up hn := hr.up ((childOf_modify hg p _ _).symm.trans hn)
  single hn := (strong_modify h p g _).trans (hr.single ((childOf_modify hg p _ _).symm.trans hn))
  owner hn hn' := hr.owner ((childOf_modify hg p _ _).symm.trans hn)
    ((childOf_modify hg p _ _).symm.trans hn')
  fresh ha := cells_modify_eq_none.mpr (hr.fresh ha)
  rootLive := (isSome_cells_modify h p g root).trans hr.rootLive
  rootFree := by
    rintro a ⟨n, hn⟩
    exact hr.rootFree a ⟨n, (childOf_modify hg p a n).symm.trans hn⟩
  attached := by
    intro a ha hne
    rw [isSome_cells_modify] at ha
    obtain ⟨b, n, hn⟩ := hr.attached ha hne
    exact ⟨b, n, (childOf_modify hg p b n).trans hn⟩

theorem walk_modify {h : RcHeap α} {g : α → α} (hg : ∀ v, children (g v) = children v)
    (p a : Nat) (π : List ν) : (h.modify p g).walk a π = h.walk a π := by
  induction π generalizing a with
  | nil => rfl
  | cons n π ih =>
      rw [walk_cons, walk_cons, childOf_modify hg]
      simp only [ih]

end Tree

end RcHeap

end RegistrationCenter.Lib
