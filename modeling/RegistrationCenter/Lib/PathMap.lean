import Mathlib.Data.Set.Insert
import Mathlib.Logic.Function.Basic

/-!
# `RegistrationCenter.Lib.PathMap`: maps from paths

A tree with named edges, seen from its root, is a map from paths to entries. `cut S`
takes away what lies at or below the paths of `S`, and `childNames` is the set of names
right below a path.

A change of the map is local at a path when it touches nothing but what lies at or below the
path, and goes by nothing but that and what lies above. Local changes at paths of which neither
is below the other commute: `LocalAt.comm`.
-/

set_option autoImplicit false

namespace RegistrationCenter.Lib

variable {ν β : Type*}

abbrev PathMap (ν β : Type*) := List ν → Option β

namespace PathMap

open Classical in
/-- The map without the paths of `S` and all paths that extend them. -/
noncomputable def cut (A : PathMap ν β) (S : Set (List ν)) : PathMap ν β :=
  fun π => if ∃ ρ ∈ S, ρ <+: π then none else A π

/-- The names right below a path. -/
def childNames (A : PathMap ν β) (π : List ν) : Set ν := { n | (A (π ++ [n])).isSome }

theorem cut_eq_none {A : PathMap ν β} {S : Set (List ν)} {π : List ν}
    (hπ : ∃ ρ ∈ S, ρ <+: π) : A.cut S π = none := if_pos hπ

theorem cut_eq_self {A : PathMap ν β} {S : Set (List ν)} {π : List ν}
    (hπ : ¬ ∃ ρ ∈ S, ρ <+: π) : A.cut S π = A π := if_neg hπ

theorem cut_eq_some {A : PathMap ν β} {S : Set (List ν)} {π : List ν} {b : β} :
    A.cut S π = some b ↔ A π = some b ∧ ∀ ρ ∈ S, ¬ ρ <+: π := by
  by_cases hπ : ∃ ρ ∈ S, ρ <+: π
  · rw [cut_eq_none hπ]
    obtain ⟨ρ, hρ, hpre⟩ := hπ
    exact ⟨nofun, fun h => absurd hpre (h.2 ρ hρ)⟩
  · rw [cut_eq_self hπ]
    push Not at hπ
    exact ⟨fun h => ⟨h, hπ⟩, fun h => h.1⟩

/-- An entry put where nothing was at or below can be cut off again. -/
theorem cut_update [DecidableEq ν] {A : PathMap ν β} {π : List ν} {b : β}
    (hA : ∀ ρ, π <+: ρ → A ρ = none) : cut (Function.update A π (some b)) {π} = A := by
  funext ρ
  by_cases hρ : π <+: ρ
  · rw [cut_eq_none ⟨π, Set.mem_singleton π, hρ⟩, hA ρ hρ]
  · have hnot : ¬ ∃ σ ∈ ({π} : Set (List ν)), σ <+: ρ := by simpa using hρ
    rw [cut_eq_self hnot, Function.update_of_ne]
    intro heq
    exact hρ (heq ▸ List.prefix_refl π)

/-- The map without the entries that meet `P`, and all that lies below them. -/
noncomputable def cutWhere (A : PathMap ν β) (P : β → Prop) : PathMap ν β :=
  A.cut { π | ∃ b, A π = some b ∧ P b }

theorem cutWhere_eq_some {A : PathMap ν β} {P : β → Prop} {π : List ν} {b : β} :
    A.cutWhere P π = some b ↔ A π = some b ∧ ∀ ρ, ρ <+: π → ∀ c, A ρ = some c → ¬ P c := by
  rw [cutWhere, cut_eq_some]
  refine and_congr_right fun _ => ⟨fun h ρ hρ c hc hP => h ρ ⟨c, hc, hP⟩ hρ, ?_⟩
  rintro h ρ ⟨c, hc, hP⟩ hρ
  exact h ρ hρ c hc hP

/-- The order of two such cuts does not matter: they cut what one cut takes away. -/
theorem cutWhere_cutWhere (A : PathMap ν β) (P Q : β → Prop) :
    (A.cutWhere P).cutWhere Q = A.cutWhere fun b => P b ∨ Q b := by
  funext π
  refine Option.ext fun b => ?_
  rw [cutWhere_eq_some, cutWhere_eq_some, cutWhere_eq_some]
  constructor
  · rintro ⟨⟨hb, hP⟩, hQ⟩
    refine ⟨hb, fun ρ hρ c hc => not_or.mpr ⟨hP ρ hρ c hc, hQ ρ hρ c ?_⟩⟩
    exact cutWhere_eq_some.mpr ⟨hc, fun σ hσ => hP σ (hσ.trans hρ)⟩
  · rintro ⟨hb, hPQ⟩
    refine ⟨⟨hb, fun ρ hρ c hc => (not_or.mp (hPQ ρ hρ c hc)).1⟩, fun ρ hρ c hc => ?_⟩
    exact (not_or.mp (hPQ ρ hρ c (cutWhere_eq_some.mp hc).1)).2

/-! ### Local changes -/

/-- The maps have the same above the path, at it and below it. -/
def AgreeAround (π : List ν) (A B : PathMap ν β) : Prop :=
  ∀ τ, τ <+: π ∨ π <+: τ → A τ = B τ

/-- The change is local at the path. -/
structure LocalAt (π : List ν) (f : PathMap ν β → PathMap ν β) : Prop where
  /-- What does not lie at or below the path stays as it is. -/
  frame : ∀ A τ, ¬ π <+: τ → f A τ = A τ
  /-- What lies there then depends on what lay around the path. -/
  reads : ∀ A B, AgreeAround π A B → ∀ τ, π <+: τ → f A τ = f B τ

variable {f g : PathMap ν β → PathMap ν β} {π ρ : List ν}

theorem localAt_id (π : List ν) : LocalAt π (id : PathMap ν β → PathMap ν β) :=
  ⟨fun _ _ _ => rfl, fun _ _ hAB τ hτ => hAB τ (.inr hτ)⟩

/-- A local change elsewhere is not seen around the path. -/
theorem LocalAt.agreeAround (hg : LocalAt ρ g) (hπρ : ¬ π <+: ρ) (hρπ : ¬ ρ <+: π)
    (A : PathMap ν β) : AgreeAround π (g A) A := by
  rintro τ (hτ | hτ)
  · exact hg.frame A τ fun hρτ => hρπ (hρτ.trans hτ)
  -- Two paths above one path are comparable.
  · refine hg.frame A τ fun hρτ => ?_
    rcases List.prefix_or_prefix_of_prefix hτ hρτ with hpre | hpre
    · exact hπρ hpre
    · exact hρπ hpre

theorem LocalAt.comm (hf : LocalAt π f) (hg : LocalAt ρ g) (hπρ : ¬ π <+: ρ) (hρπ : ¬ ρ <+: π)
    (A : PathMap ν β) : f (g A) = g (f A) := by
  funext τ
  have hseenf := hg.agreeAround hπρ hρπ A
  have hseeng := hf.agreeAround hρπ hπρ A
  by_cases hπ : π <+: τ
  · have hρ : ¬ ρ <+: τ := fun hρ =>
      (List.prefix_or_prefix_of_prefix hπ hρ).elim hπρ hρπ
    rw [hg.frame (f A) τ hρ]
    exact hf.reads _ _ hseenf τ hπ
  · rw [hf.frame (g A) τ hπ]
    by_cases hρ : ρ <+: τ
    · exact (hg.reads _ _ hseeng τ hρ).symm
    · rw [hg.frame A τ hρ, hg.frame (f A) τ hρ, hf.frame A τ hπ]

end PathMap

end RegistrationCenter.Lib
