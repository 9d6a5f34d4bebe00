import RegistrationCenter.Proofs.Store.Runs

/-!
# `RegistrationCenter.Proofs.Store.RootOnly`: paths that leave the root out

`deleteNode` takes a path of one component for the root and refuses it. `createNode`
has no such check, and the parent of a one-component path is the dummy node. So a
create of a relative path such as `abc` puts a node next to the root, which no delete
takes away. `rootOnly_iff` says that this is the only way out: while no create has a
path of one component that is not empty, the root is the only child of the dummy, and
a delete undoes a create.
-/

set_option autoImplicit false

namespace RegistrationCenter

open Lib RcHeap

namespace Services

variable {s : Services}

/-- The dummy node has one child: the root, with the empty name. -/
def OneRoot (s : Services) : Prop :=
  ∀ n : Bytes, (s.heap.childOf s.m_dummy n).isSome ↔ n = []

/-- Each node is reached by an absolute path: its first component is the root. -/
def AbsolutePaths (s : Services) : Prop :=
  ∀ π e, s.tree π = some e → π.head? = some []

/-- A create that succeeds is undone by a delete of the same path. -/
def UndoneByDelete (s : Services) : StoreCall → Prop
  | .create sessionId path data type =>
      let created := s.createNode sessionId path data type
      created.1.success = true →
        (created.2.deleteNode path).1.success = true ∧
          (created.2.deleteNode path).2.tree = s.tree
  | .set _ _ => True
  | .delete _ => True
  | .removeEphemeral _ => True

/-- The call is not a create of a path with one component that is not empty. -/
def BelowRoot : StoreCall → Prop
  | .create _ path _ _ => ∀ name, splitPath path = [name] → name = []
  | .set _ _ => True
  | .delete _ => True
  | .removeEphemeral _ => True

theorem OneRoot.absolutePaths (h : s.OneRoot) : s.AbsolutePaths := by
  intro π e he
  obtain ⟨hne, p, v, hwalk, -, -⟩ := tree_eq_some.mp he
  cases π with
  | nil => exact absurd rfl hne
  | cons n π =>
      have hwalk : (s.heap.childOf s.m_dummy n).bind _ = some p :=
        (walk_cons s.heap s.m_dummy n π).symm.trans hwalk
      obtain ⟨q, hq, -⟩ := Option.bind_eq_some_iff.mp hwalk
      rw [(h n).mp (by rw [hq]; rfl)]
      rfl

/-- The names below the dummy are the one-component paths. -/
theorem WellFormed.oneRoot_iff (hs : s.WellFormed) :
    s.OneRoot ↔ ∀ n, (s.tree [n]).isSome ↔ n = [] := by
  refine forall_congr' fun n => ?_
  have hdummy : s.walkTo [] = some s.m_dummy := rfl
  rw [hs.isSome_childOf hdummy]
  rfl

/-- The root never goes. -/
theorem WellFormed.isSome_root (hs : s.WellFormed) : (s.tree [[]]).isSome := by
  obtain ⟨q, hq, -⟩ := hs.root
  have hdummy : s.walkTo [] = some s.m_dummy := rfl
  have hsome := hs.isSome_childOf hdummy (n := [])
  rw [hq] at hsome
  exact hsome.symm

/-- Nothing hangs below a path that is not there. -/
theorem WellFormed.tree_eq_none_of_prefix (hs : s.WellFormed) {π ρ : List Bytes} (hπ : π ≠ [])
    (hnone : s.tree π = none) (hpre : π <+: ρ) : s.tree ρ = none := by
  obtain ⟨σ, rfl⟩ := hpre
  have hwalk : s.walkTo π = none := by
    have hsome := hs.isSome_tree hπ
    rw [hnone] at hsome
    simpa using hsome.symm
  have happend : s.walkTo (π ++ σ) = none := by
    show s.heap.walk s.m_dummy (π ++ σ) = none
    rw [walk_append]
    have hwalk : s.heap.walk s.m_dummy π = none := hwalk
    rw [hwalk]
    rfl
  rw [tree, happend]
  simp

/-- A create with two components or more is undone by a delete. -/
theorem undoneByDelete (hs : s.WellFormed) (call : StoreCall) (hcall : BelowRoot call) :
    UndoneByDelete s call := by
  cases call with
  | create sessionId path data type =>
      intro hsuccess
      obtain ⟨hwf, hiff, -, htree⟩ := createNode_spec hs sessionId path data type
      obtain ⟨hne, habsent, -⟩ := hiff.mp hsuccess
      replace htree := htree hsuccess
      obtain ⟨-, hdelete, -, hcut⟩ := deleteNode_spec hwf path
      have hlen : 2 ≤ (splitPath path).length := by
        match hπ : splitPath path, hne with
        | [name], _ =>
            -- The root is there, so its create fails.
            obtain rfl := hcall name hπ
            have hroot := hs.isSome_root
            rw [← hπ, habsent] at hroot
            cases hroot
        | _ :: _ :: _, _ => exact Nat.le_add_left 2 _
      have hthere : ((s.createNode sessionId path data type).2.deleteNode path).1.success = true :=
        hdelete.mpr ⟨hlen, by rw [htree, Function.update_self]; rfl⟩
      refine ⟨hthere, ?_⟩
      rw [hcut hthere, htree]
      exact PathMap.cut_update fun ρ hpre => hs.tree_eq_none_of_prefix hne habsent hpre
  | set path data => trivial
  | delete path => trivial
  | removeEphemeral sessionId => trivial

/-- While no call creates next to the root, the root stays the only child. -/
theorem oneRoot_storeStep (hs : s.WellFormed) (hone : s.OneRoot) (call : StoreCall)
    (hcall : BelowRoot call) : (storeStep s call).OneRoot := by
  rw [(wellFormed_storeStep s call hs).oneRoot_iff]
  rw [hs.oneRoot_iff] at hone
  have hroot := (wellFormed_storeStep s call hs).isSome_root
  refine fun n => ⟨fun hn => ?_, fun hn => hn ▸ hroot⟩
  -- A name right below the dummy was there before the call.
  refine (hone n).mp ?_
  cases call with
  | create sessionId path data type =>
      obtain ⟨-, hiff, hfail, htree⟩ := createNode_spec hs sessionId path data type
      cases hsuccess : (s.createNode sessionId path data type).1.success with
      | false => rwa [storeStep, hfail hsuccess] at hn
      | true =>
          rw [storeStep, htree hsuccess] at hn
          by_cases hπ : [n] = splitPath path
          -- The name that comes is the empty one.
          · exact (hone n).mpr (hcall n hπ.symm)
          · rwa [Function.update_of_ne hπ] at hn
  | set path data =>
      obtain ⟨-, hiff, hfail, htree⟩ := setNode_spec hs path data
      cases hsuccess : (s.setNode path data).1.success with
      | false => rwa [storeStep, hfail hsuccess] at hn
      | true =>
          rw [storeStep, htree hsuccess] at hn
          by_cases hπ : [n] = splitPath path
          · rw [hπ]
            exact hiff.mp hsuccess
          · rwa [Function.update_of_ne hπ] at hn
  | delete path =>
      obtain ⟨-, -, hfail, htree⟩ := deleteNode_spec hs path
      cases hsuccess : (s.deleteNode path).1.success with
      | false => rwa [storeStep, hfail hsuccess] at hn
      | true =>
          rw [storeStep, htree hsuccess] at hn
          -- A cut brings no path.
          obtain ⟨e, he⟩ := Option.isSome_iff_exists.mp hn
          rw [(PathMap.cut_eq_some.mp he).1]
          rfl
  | removeEphemeral sessionId =>
      rw [storeStep, (removeEphemeral_spec hs sessionId).2] at hn
      obtain ⟨e, he⟩ := Option.isSome_iff_exists.mp hn
      rw [(PathMap.cut_eq_some.mp he).1]
      rfl

/-- A create next to the root succeeds and is not below the root. -/
theorem not_oneRoot_storeStep (hs : s.WellFormed) (hone : s.OneRoot) (call : StoreCall)
    (hcall : ¬ BelowRoot call) : ¬ (storeStep s call).OneRoot := by
  have hstep := wellFormed_storeStep s call hs
  rw [hs.oneRoot_iff] at hone
  cases call with
  | create sessionId path data type =>
      unfold BelowRoot at hcall
      push Not at hcall
      obtain ⟨name, hπ, hname⟩ := hcall
      obtain ⟨-, hiff, -, htree⟩ := createNode_spec hs sessionId path data type
      have habsent : s.tree [name] = none := by
        cases hsome : s.tree [name] with
        | none => rfl
        | some e => exact absurd ((hone name).mp (by rw [hsome]; rfl)) hname
      -- The parent of a one-component path is the dummy, which is always there.
      have hsuccess : (s.createNode sessionId path data type).1.success = true := by
        rw [hiff, hπ]
        exact ⟨by simp, habsent, Or.inl rfl⟩
      rw [hstep.oneRoot_iff]
      intro hone'
      refine hname ((hone' name).mp ?_)
      rw [storeStep, htree hsuccess, hπ, Function.update_self]
      rfl
  | set path data => exact absurd trivial hcall
  | delete path => exact absurd trivial hcall
  | removeEphemeral sessionId => exact absurd trivial hcall

/-- In all states of a run the root is the only child of the dummy and all paths are
absolute, and each create of the run that succeeds is undone by a delete, exactly when no
create of the run has a path of one component that is not empty. -/
theorem rootOnly_iff (calls : List StoreCall) :
    (AllStates storeStep (fun s => s.OneRoot ∧ s.AbsolutePaths) init calls ∧
      StepsMeet storeStep UndoneByDelete init calls) ↔ ∀ call ∈ calls, BelowRoot call := by
  have hinit : init.WellFormed ∧ init.OneRoot := by
    refine ⟨wellFormed_init, fun n => ?_⟩
    constructor
    · intro hn
      obtain ⟨q, hq⟩ := Option.isSome_iff_exists.mp hn
      exact (childOf_init.mp hq).2.1
    · rintro rfl
      rfl
  have hkeep : ∀ s call, s.WellFormed ∧ s.OneRoot → BelowRoot call →
      (storeStep s call).WellFormed ∧ (storeStep s call).OneRoot := fun s call hs hcall =>
    ⟨wellFormed_storeStep s call hs.1, oneRoot_storeStep hs.1 hs.2 call hcall⟩
  have hgood : ∀ s : Services, s.WellFormed ∧ s.OneRoot → s.OneRoot ∧ s.AbsolutePaths :=
    fun s hs => ⟨hs.2, hs.2.absolutePaths⟩
  have hexact : ∀ s call, s.WellFormed ∧ s.OneRoot → ¬ BelowRoot call →
      ¬ ((storeStep s call).OneRoot ∧ (storeStep s call).AbsolutePaths) := fun s call hs hcall hP =>
    not_oneRoot_storeStep hs.1 hs.2 call hcall hP.1
  have hundone : ∀ s call, s.WellFormed ∧ s.OneRoot → BelowRoot call → UndoneByDelete s call :=
    fun s call hs hcall => undoneByDelete hs.1 call hcall
  have hstates : AllStates storeStep (fun s => s.OneRoot ∧ s.AbsolutePaths) init calls ↔
      StepsMeet storeStep (fun _ call => BelowRoot call) init calls :=
    allStates_iff_stepsMeet hgood hkeep hexact hinit
  rw [hstates, stepsMeet_iff_forall]
  exact ⟨fun h => h.1, fun h => ⟨h, (stepsMeet_iff_forall.mpr h).imp hkeep hundone hinit⟩⟩

/-- The create of the relative path `abc` gives the dummy a second child, which is on no
absolute path and which a delete does not take away. -/
theorem not_rootOnly : let call := StoreCall.create 1 (bytes "abc") [] .PERSISTENT
    ¬ (storeRun [call]).OneRoot ∧ ¬ (storeRun [call]).AbsolutePaths ∧
      ¬ UndoneByDelete init call := by
  refine ⟨fun h => ?_, fun h => ?_, fun h => ?_⟩
  · exact absurd ((h (bytes "abc")).mp (by decide)) (by decide)
  · have hhead := h [bytes "abc"] { data := [], type := .PERSISTENT, owner := 0 } (by decide)
    exact absurd hhead (by decide)
  · exact absurd (h (by decide)).1 (by decide)

end Services

end RegistrationCenter
