import RegistrationCenter.Lib.Separated
import RegistrationCenter.Spec.Services

/-!
# `RegistrationCenter.Proofs.Store.Paths`: what a path says

`splitPath` reads the items of a path with `getline`, so a slash at the end begins no new item,
and it gives a path up for an empty item after the first: `splitPath_eq`. The rest is about the
items. `splitPath_grammar` says which paths are accepted, that the components are the path, and
that two paths lead to one node only when they differ by a slash at the end.
-/

set_option autoImplicit false

namespace RegistrationCenter

open Lib

namespace Services

/-- The separator of a path. -/
def slash : UInt8 := '/'.toUInt8

/-! ## The loop -/

theorem getline_cons (c : UInt8) (cs : Bytes) : getline (c :: cs) =
    if c = slash then ([], cs) else (c :: (getline cs).1, (getline cs).2) := rfl

/-- `getline` stops behind the first slash, or at the end of the stream. -/
theorem getline_spec : ∀ cs : Bytes, slash ∉ (getline cs).1 ∧
    (cs = (getline cs).1 ++ slash :: (getline cs).2 ∨
      cs = (getline cs).1 ∧ (getline cs).2 = []) := by
  intro cs
  induction cs with
  | nil => exact ⟨List.not_mem_nil, .inr ⟨rfl, rfl⟩⟩
  | cons c cs ih =>
      rw [getline_cons]
      by_cases hc : c = slash
      · rw [if_pos hc]
        exact ⟨List.not_mem_nil, .inl (by rw [hc]; rfl)⟩
      · rw [if_neg hc]
        obtain ⟨hitem, hrest⟩ := ih
        refine ⟨?_, ?_⟩
        · rw [List.mem_cons]
          exact not_or.mpr ⟨Ne.symm hc, hitem⟩
        · rcases hrest with heq | ⟨heq, hnil⟩
          · exact .inl (congrArg (List.cons c) heq)
          · exact .inr ⟨congrArg (List.cons c) heq, hnil⟩

/-- A round of the loop takes the first part of the stream. -/
theorem parts_getline {cs : Bytes} (hcs : cs ≠ []) :
    parts slash cs = (getline cs).1 :: parts slash (getline cs).2 := by
  obtain ⟨hitem, heq | ⟨heq, hnil⟩⟩ := getline_spec cs
  · exact (congrArg (parts slash) heq).trans (parts_append_cons hitem _)
  · rw [hnil, parts_nil, ← heq]
    exact parts_of_notMem hcs (heq ▸ hitem)

theorem length_getline_lt (c : UInt8) (cs : Bytes) :
    (getline (c :: cs)).2.length ≤ cs.length := by
  obtain ⟨-, heq | ⟨-, hnil⟩⟩ := getline_spec (c :: cs)
  · have hlen := congrArg List.length heq
    rw [List.length_append, List.length_cons, List.length_cons] at hlen
    omega
  · rw [hnil]
    exact Nat.zero_le _

/-- The loop puts the parts of the stream behind the items that it has, unless a part is empty
that is not the first item. -/
theorem splitPathLoop_eq : ∀ (fuel : Nat) (cs : Bytes) (pathes : List Bytes), cs.length ≤ fuel →
    splitPathLoop fuel cs pathes =
      if [] ∈ (if pathes = [] then (parts slash cs).tail else parts slash cs) then []
      else pathes ++ parts slash cs := by
  intro fuel
  -- The induction is on the fuel: a round takes one byte of the stream or more.
  induction fuel with
  | zero =>
      intro cs pathes hfuel
      obtain rfl := List.length_eq_zero_iff.mp (Nat.le_zero.mp hfuel)
      simp [splitPathLoop, parts_nil]
  | succ fuel ih =>
      intro cs pathes hfuel
      cases cs with
      | nil => simp [splitPathLoop, parts_nil]
      | cons c cs =>
          have hrest : (getline (c :: cs)).2.length ≤ fuel :=
            (length_getline_lt c cs).trans (Nat.le_of_succ_le_succ hfuel)
          rw [splitPathLoop, parts_getline (List.cons_ne_nil c cs)]
          show (if (getline (c :: cs)).1 = [] ∧ pathes ≠ [] then []
            else splitPathLoop fuel (getline (c :: cs)).2 (pathes ++ [(getline (c :: cs)).1])) = _
          -- There is an item now, so the rest of the stream has no empty part.
          have hloop := ih _ (pathes ++ [(getline (c :: cs)).1]) hrest
          have hne : pathes ++ [(getline (c :: cs)).1] ≠ [] := by simp
          rw [if_neg hne, List.append_assoc, List.singleton_append] at hloop
          rw [hloop]
          by_cases hpathes : pathes = []
          -- The first item may be empty.
          · rw [if_neg fun h => h.2 hpathes, if_pos hpathes]
            rfl
          · rw [if_neg hpathes]
            by_cases hitem : (getline (c :: cs)).1 = []
            · rw [if_pos ⟨hitem, hpathes⟩, if_pos (List.mem_cons.mpr (.inl hitem.symm))]
            · rw [if_neg fun h => hitem h.1]
              simp [Ne.symm hitem]

/-- The components of a path: its parts, when none but the first is empty. -/
theorem splitPath_eq (path : Bytes) : splitPath path =
    if [] ∈ (parts slash path).tail then [] else parts slash path := by
  rw [splitPath, splitPathLoop_eq _ _ _ (le_refl _), if_pos rfl, List.nil_append]

/-! ## The grammar -/

/-- What is rejected: the empty path, and two slashes next to each other. -/
theorem splitPath_eq_nil_iff (path : Bytes) :
    splitPath path = [] ↔ path = [] ∨ [slash, slash] <:+: path := by
  rw [splitPath_eq, ← nil_mem_tail_parts_iff]
  by_cases hmem : [] ∈ (parts slash path).tail
  · simp [hmem]
  · rw [if_neg hmem]
    by_cases hpath : path = []
    · simp [hpath, parts_nil]
    · simp [hpath, hmem, parts_ne_nil]

/-- The components of an accepted path are its parts. -/
theorem splitPath_of_accepted {path : Bytes} (haccepted : splitPath path ≠ []) :
    splitPath path = parts slash path ∧ path ≠ [] ∧ ¬ [slash, slash] <:+: path ∧
      [] ∉ (parts slash path).tail := by
  have hnot := mt (splitPath_eq_nil_iff path).mpr haccepted
  obtain ⟨hne, hsep⟩ := not_or.mp hnot
  have hmem := mt nil_mem_tail_parts_iff.mp hsep
  refine ⟨?_, hne, hsep, hmem⟩
  rw [splitPath_eq, if_neg hmem]

/-- The components of an accepted path make the path, less a slash at its end. They have no
slash, and none but the first is empty. -/
theorem splitPath_components {path : Bytes} (haccepted : splitPath path ≠ []) :
    [slash].intercalate (splitPath path) = chop slash path ∧
      (∀ component ∈ splitPath path, slash ∉ component) ∧ [] ∉ (splitPath path).tail := by
  obtain ⟨heq, hne, -, hmem⟩ := splitPath_of_accepted haccepted
  rw [heq]
  exact ⟨intercalate_parts hne, notMem_of_mem_parts, hmem⟩

/-- A path that is made of names, with a slash at its end. -/
theorem splitPath_names_concat {names : List Bytes} (hempty : [] ∉ names)
    (hslash : ∀ name ∈ names, slash ∉ name) :
    splitPath ([slash].intercalate ([] :: names) ++ [slash]) = [] :: names := by
  have hall : ∀ name ∈ [] :: names, slash ∉ name :=
    List.forall_mem_cons.mpr ⟨List.not_mem_nil, hslash⟩
  rw [splitPath_eq, parts_intercalate_concat (List.cons_ne_nil _ _) hall, List.tail_cons,
    if_neg hempty]

/-- A path that is made of some names. -/
theorem splitPath_names {names : List Bytes} (hne : names ≠ []) (hempty : [] ∉ names)
    (hslash : ∀ name ∈ names, slash ∉ name) :
    splitPath ([slash].intercalate ([] :: names)) = [] :: names := by
  have hall : ∀ name ∈ [] :: names, slash ∉ name :=
    List.forall_mem_cons.mpr ⟨List.not_mem_nil, hslash⟩
  have hlast : ([] :: names).getLast? ≠ some [] := by
    rw [List.getLast?_cons_of_ne_nil hne]
    exact fun hlast => hempty (List.mem_of_getLast? hlast)
  rw [splitPath_eq, parts_intercalate (List.cons_ne_nil _ _) hall hlast, List.tail_cons,
    if_neg hempty]

/-- Two accepted paths with the same components differ by a slash at the end at most. -/
theorem splitPath_eq_iff {p q : Bytes} (hp : splitPath p ≠ []) (hq : splitPath q ≠ []) :
    splitPath p = splitPath q ↔ p = q ∨ p = q ++ [slash] ∨ q = p ++ [slash] := by
  obtain ⟨heqp, hnep, hsepp, -⟩ := splitPath_of_accepted hp
  obtain ⟨heqq, hneq, hsepq, -⟩ := splitPath_of_accepted hq
  rw [heqp, heqq]
  exact parts_eq_iff hnep hneq hsepp hsepq

/-- The grammar of the paths. A path is rejected when it is empty or has two slashes next to each
other. An accepted one is its components, less a slash at the end; these have no slash, and none
but the first is empty. Names make a path, with a slash at its end or, if there are any names,
without; and a path has the components of another one only if they differ by a slash at the end. -/
theorem splitPath_grammar :
    (∀ p, splitPath p = [] ↔ p = [] ∨ [slash, slash] <:+: p) ∧
      (∀ p, splitPath p ≠ [] →
        [slash].intercalate (splitPath p) = (if p.getLast? = some slash then p.dropLast else p) ∧
          (∀ component ∈ splitPath p, slash ∉ component) ∧
          ∀ i, 0 < i → (splitPath p)[i]? ≠ some []) ∧
      splitPath [slash] = [[]] ∧
      (∀ names : List Bytes, (∀ name ∈ names, name ≠ [] ∧ slash ∉ name) →
        splitPath (slash :: [slash].intercalate names) = [] :: names ∧
          (names ≠ [] →
            splitPath (slash :: ([slash].intercalate names ++ [slash])) = [] :: names)) ∧
      (∀ p q, splitPath p ≠ [] → splitPath q ≠ [] →
        (splitPath p = splitPath q ↔ p = q ∨ p = q ++ [slash] ∨ q = p ++ [slash])) := by
  refine ⟨splitPath_eq_nil_iff, fun p hp => ?_, rfl, fun names hnames => ?_,
    fun p q => splitPath_eq_iff⟩
  · obtain ⟨hjoin, hslash, hempty⟩ := splitPath_components hp
    refine ⟨hjoin, hslash, fun i hi hcomponent => hempty ?_⟩
    obtain ⟨i, rfl⟩ := Nat.exists_eq_succ_of_ne_zero hi.ne'
    rw [← List.getElem?_tail] at hcomponent
    exact List.mem_of_getElem? hcomponent
  · have hempty : [] ∉ names := fun hmem => (hnames [] hmem).1 rfl
    have hslash : ∀ name ∈ names, slash ∉ name := fun name hmem => (hnames name hmem).2
    by_cases hne : names = []
    -- Without names the path is a slash.
    · subst hne
      exact ⟨rfl, fun h => absurd rfl h⟩
    · have hpath : [slash].intercalate ([] :: names) = slash :: [slash].intercalate names := by
        rw [List.intercalate_cons_of_ne_nil hne]
        rfl
      refine ⟨?_, fun _ => ?_⟩
      · rw [← hpath]
        exact splitPath_names hne hempty hslash
      · rw [← List.cons_append, ← hpath]
        exact splitPath_names_concat hempty hslash

/-- The path of the example in the source. -/
theorem splitPath_grammar_example :
    splitPath (slash :: ([slash].intercalate
        [bytes "userService", bytes "method1", bytes "para1"] ++ [slash])) =
      [[], bytes "userService", bytes "method1", bytes "para1"] :=
  (splitPath_grammar.2.2.2.1 _ (by decide)).2 (by decide)

/-- Without names, a slash more makes a path that is rejected. -/
theorem not_splitPath_noNames :
    ¬ ∀ names : List Bytes, (∀ name ∈ names, name ≠ [] ∧ slash ∉ name) →
      splitPath (slash :: [slash].intercalate names) = [] :: names ∧
        splitPath (slash :: ([slash].intercalate names ++ [slash])) = [] :: names := by
  intro h
  have hroot : splitPath [slash, slash] = [[]] := (h [] (by simp)).2
  exact absurd hroot (by decide)

end Services

end RegistrationCenter
