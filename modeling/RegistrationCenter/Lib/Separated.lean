import Mathlib.Data.List.Infix

/-!
# `RegistrationCenter.Lib.Separated`: lists with a separator

A text is read up to a separator in two ways. `List.splitOn` reads parts that stand between
separators. `parts` reads parts that are each ended by one, where the last separator may be
missing: this is how lines are read. The two differ by the empty part at the end:
`intercalate_parts` says that the parts are those of the text without its final separator.

An empty part inside is two separators next to each other: `nil_mem_tail_parts_iff`. A text
without them can be had back from its parts up to the final separator: `parts_eq_iff`.
-/

set_option autoImplicit false

namespace RegistrationCenter.Lib

variable {α : Type*} [DecidableEq α] {sep : α}

/-- What stands before the first separator, and what stands after it. -/
theorem append_cons_inj_of_notMem {xs ys xs' ys' : List α} (hxs : sep ∉ xs) (hys : sep ∉ ys)
    (heq : xs ++ sep :: xs' = ys ++ sep :: ys') : xs = ys ∧ xs' = ys' := by
  have hsplit := congrArg (List.splitOn sep) heq
  rw [List.splitOn_append_cons_self_of_not_mem hxs,
    List.splitOn_append_cons_self_of_not_mem hys] at hsplit
  obtain rfl := (List.cons.inj hsplit).1
  exact ⟨rfl, List.tail_eq_of_cons_eq (List.append_cancel_left heq)⟩

/-! ## Parts between separators -/

theorem notMem_of_mem_splitOn {l : List α} : ∀ part ∈ l.splitOn sep, sep ∉ part := by
  induction l with
  | nil =>
      intro part hpart
      rw [List.splitOn_nil, List.mem_singleton] at hpart
      rw [hpart]
      exact List.not_mem_nil
  | cons x xs ih =>
      intro part hpart
      rw [List.splitOn_cons_eq_if_modifyHead] at hpart
      by_cases hx : x = sep
      · rw [if_pos (beq_iff_eq.mpr hx), List.mem_cons] at hpart
        rcases hpart with rfl | hpart
        · exact List.not_mem_nil
        · exact ih part hpart
      -- The element goes to the first part.
      · rw [if_neg (mt beq_iff_eq.mp hx)] at hpart
        obtain ⟨head, rest, hsplit⟩ := List.exists_cons_of_ne_nil (List.splitOn_ne_nil sep xs)
        rw [hsplit] at ih
        rw [hsplit, List.modifyHead_cons, List.mem_cons] at hpart
        rcases hpart with rfl | hpart
        · rw [List.mem_cons]
          exact not_or.mpr ⟨Ne.symm hx, ih head List.mem_cons_self⟩
        · exact ih part (List.mem_cons_of_mem _ hpart)

/-- The first part is empty when the text is, or begins with a separator. -/
theorem head?_splitOn_eq_nil {l : List α} (hhead : (l.splitOn sep).head? = some []) :
    l = [] ∨ ∃ rest, l = sep :: rest := by
  cases l with
  | nil => exact .inl rfl
  | cons x xs =>
      rw [List.splitOn_cons_eq_if_modifyHead] at hhead
      by_cases hx : x = sep
      · exact .inr ⟨xs, by rw [hx]⟩
      · rw [if_neg (mt beq_iff_eq.mp hx)] at hhead
        obtain ⟨head, rest, hsplit⟩ := List.exists_cons_of_ne_nil (List.splitOn_ne_nil sep xs)
        rw [hsplit] at hhead
        cases hhead

/-- A part after the first is empty when two separators stand next to each other, or one stands at
the end. -/
theorem nil_mem_tail_splitOn_iff {l : List α} :
    [] ∈ (l.splitOn sep).tail ↔ [sep, sep] <:+: l ∨ l.getLast? = some sep := by
  constructor
  · intro hmem
    induction l with
    | nil => cases hmem
    | cons x xs ih =>
        obtain ⟨head, rest, hsplit⟩ := List.exists_cons_of_ne_nil (List.splitOn_ne_nil sep xs)
        rw [hsplit] at ih
        -- What is found in the rest is found in the whole.
        have hrest : [] ∈ rest → [sep, sep] <:+: x :: xs ∨ (x :: xs).getLast? = some sep := by
          intro hmem
          rcases ih hmem with hwithin | hlast
          · exact .inl (List.infix_cons hwithin)
          · rw [List.getLast?_cons, hlast]
            exact .inr rfl
        rw [List.splitOn_cons_eq_if_modifyHead, hsplit] at hmem
        by_cases hx : x = sep
        · rw [if_pos (beq_iff_eq.mpr hx), List.tail_cons, List.mem_cons] at hmem
          rcases hmem with hhead | hmem
          · rcases head?_splitOn_eq_nil (by rw [hsplit, ← hhead]; rfl) with rfl | ⟨ys, rfl⟩
            · rw [hx]
              exact .inr rfl
            · rw [hx]
              exact .inl ⟨[], ys, rfl⟩
          · exact hrest hmem
        · rw [if_neg (mt beq_iff_eq.mp hx)] at hmem
          exact hrest hmem
  · -- What stands behind a separator makes a part after the first.
    have htail : ∀ u v : List α,
        ((u ++ sep :: v).splitOn sep).tail = (u.splitOn sep).tail ++ v.splitOn sep := by
      intro u v
      rw [List.splitOn_append_cons_self, List.tail_append_of_ne_nil (List.splitOn_ne_nil sep u)]
    rintro (⟨u, v, rfl⟩ | hlast)
    · have heq : u ++ [sep, sep] ++ v = u ++ sep :: ([] ++ sep :: v) := by simp
      rw [heq, htail, List.splitOn_append_cons_self_of_not_mem List.not_mem_nil]
      exact List.mem_append_right _ List.mem_cons_self
    · obtain ⟨u, rfl⟩ := List.getLast?_eq_some_iff.mp hlast
      rw [htail, List.splitOn_nil]
      exact List.mem_append_right _ (List.mem_singleton.mpr rfl)

/-! ## Parts that are ended by separators -/

/-- The text without its final separator. -/
def chop (sep : α) (l : List α) : List α := if l.getLast? = some sep then l.dropLast else l

/-- The parts of a text that are each ended by a separator, the last one maybe by nothing. -/
def parts (sep : α) (l : List α) : List (List α) := if l = [] then [] else (chop sep l).splitOn sep

theorem chop_concat (l : List α) : chop sep (l ++ [sep]) = l := by
  rw [chop, if_pos List.getLast?_concat, List.dropLast_concat]

theorem chop_of_ne {l : List α} (hlast : l.getLast? ≠ some sep) : chop sep l = l := if_neg hlast

/-- A text ends with the separator or not. -/
theorem chop_cases (sep : α) (l : List α) :
    l = chop sep l ++ [sep] ∨ l.getLast? ≠ some sep ∧ chop sep l = l := by
  by_cases hlast : l.getLast? = some sep
  · obtain ⟨u, rfl⟩ := List.getLast?_eq_some_iff.mp hlast
    rw [chop_concat]
    exact .inl rfl
  · exact .inr ⟨hlast, chop_of_ne hlast⟩

theorem parts_nil : parts sep [] = [] := rfl

theorem parts_concat (l : List α) : parts sep (l ++ [sep]) = l.splitOn sep := by
  rw [parts, if_neg (by simp), chop_concat]

theorem parts_ne_nil {l : List α} (hl : l ≠ []) : parts sep l ≠ [] := by
  rw [parts, if_neg hl]
  exact List.splitOn_ne_nil sep _

/-- The first part and the rest, as they are read one after another. -/
theorem parts_append_cons {item : List α} (hitem : sep ∉ item) (rest : List α) :
    parts sep (item ++ sep :: rest) = item :: parts sep rest := by
  by_cases hrest : rest = []
  · subst hrest
    rw [parts_concat, List.splitOn_eq_singleton hitem, parts_nil]
  · have hne : item ++ sep :: rest ≠ [] := by simp
    have hchop : chop sep (item ++ sep :: rest) = item ++ sep :: chop sep rest := by
      rcases chop_cases sep rest with heq | ⟨hlast, heq⟩
      · have heq' : item ++ sep :: rest = (item ++ sep :: chop sep rest) ++ [sep] := by
          rw [List.append_assoc, List.cons_append, ← heq]
        rw [heq', chop_concat]
      · rw [heq, chop_of_ne]
        rw [List.getLast?_append_of_ne_nil _ (List.cons_ne_nil _ _),
          List.getLast?_cons_of_ne_nil hrest]
        exact hlast
    rw [parts, if_neg hne, hchop, List.splitOn_append_cons_self_of_not_mem hitem, parts,
      if_neg hrest]

theorem parts_of_notMem {l : List α} (hl : l ≠ []) (hsep : sep ∉ l) : parts sep l = [l] := by
  have hlast : l.getLast? ≠ some sep := fun hlast => hsep (List.mem_of_getLast? hlast)
  rw [parts, if_neg hl, chop_of_ne hlast, List.splitOn_eq_singleton hsep]

theorem notMem_of_mem_parts {l : List α} : ∀ part ∈ parts sep l, sep ∉ part := by
  intro part hpart
  rw [parts] at hpart
  split at hpart
  · cases hpart
  · exact notMem_of_mem_splitOn part hpart

/-- The parts make the text, less its final separator. -/
theorem intercalate_parts {l : List α} (hl : l ≠ []) :
    [sep].intercalate (parts sep l) = chop sep l := by
  rw [parts, if_neg hl, List.intercalate_splitOn]

/-- A part after the first is empty when two separators stand next to each other. -/
theorem nil_mem_tail_parts_iff {l : List α} : [] ∈ (parts sep l).tail ↔ [sep, sep] <:+: l := by
  by_cases hl : l = []
  · subst hl
    simp [parts]
  · rw [parts, if_neg hl, nil_mem_tail_splitOn_iff]
    rcases chop_cases sep l with heq | ⟨hlast, heq⟩
    · constructor
      · rintro (hwithin | hlast)
        · rw [heq]
          exact hwithin.trans (List.infix_append' [] _ _)
        · obtain ⟨u, hu⟩ := List.getLast?_eq_some_iff.mp hlast
          rw [heq, hu]
          exact ⟨u, [], by simp⟩
      · rintro ⟨u, v, hu⟩
        rw [heq] at hu
        rcases List.eq_nil_or_concat' v with rfl | ⟨v, x, rfl⟩
        -- The two are at the end.
        · have hu : (u ++ [sep]) ++ [sep] = chop sep l ++ [sep] := by
            rw [← hu]
            simp
          rw [← List.append_cancel_right hu]
          exact .inr List.getLast?_concat
        · rw [← List.append_assoc] at hu
          exact .inl ⟨u, v, (List.append_inj' hu rfl).1⟩
    · rw [heq]
      exact or_iff_left hlast

/-- A text whose parts have a last one that is not empty. -/
theorem parts_intercalate {names : List (List α)} (hne : names ≠ [])
    (hnames : ∀ name ∈ names, sep ∉ name) (hlast : names.getLast? ≠ some []) :
    parts sep ([sep].intercalate names) = names := by
  have hsplit := List.splitOn_intercalate sep hnames hne
  have hend : ([sep].intercalate names).getLast? ≠ some sep := by
    intro hend
    obtain ⟨u, hu⟩ := List.getLast?_eq_some_iff.mp hend
    rw [hu, List.splitOn_append_cons_self, List.splitOn_nil] at hsplit
    exact hlast (hsplit ▸ List.getLast?_concat)
  have htext : [sep].intercalate names ≠ [] := by
    intro htext
    rw [htext, List.splitOn_nil] at hsplit
    exact hlast (hsplit ▸ rfl)
  rw [parts, if_neg htext, chop_of_ne hend, hsplit]

/-- A text in which each part is ended by a separator. -/
theorem parts_intercalate_concat {names : List (List α)} (hne : names ≠ [])
    (hnames : ∀ name ∈ names, sep ∉ name) :
    parts sep ([sep].intercalate names ++ [sep]) = names := by
  rw [parts_concat, List.splitOn_intercalate sep hnames hne]

/-- A final separator makes no difference, if it is the first one there. -/
theorem parts_concat_eq {l : List α} (hl : l ≠ []) (hsep : ¬ [sep, sep] <:+: l ++ [sep]) :
    parts sep (l ++ [sep]) = parts sep l := by
  have hlast : l.getLast? ≠ some sep := by
    intro hlast
    obtain ⟨u, rfl⟩ := List.getLast?_eq_some_iff.mp hlast
    exact hsep ⟨u, [], by simp⟩
  rw [parts_concat, parts, if_neg hl, chop_of_ne hlast]

/-- Texts without two separators next to each other have the same parts when they differ by a
final separator at most. -/
theorem parts_eq_iff {l l' : List α} (hl : l ≠ []) (hl' : l' ≠ []) (hsep : ¬ [sep, sep] <:+: l)
    (hsep' : ¬ [sep, sep] <:+: l') :
    parts sep l = parts sep l' ↔ l = l' ∨ l = l' ++ [sep] ∨ l' = l ++ [sep] := by
  constructor
  · intro heq
    have hchop : chop sep l = chop sep l' := by
      rw [← intercalate_parts hl, heq, intercalate_parts hl']
    rcases chop_cases sep l with h | ⟨-, h⟩
    · rcases chop_cases sep l' with h' | ⟨-, h'⟩
      · exact .inl (by rw [h, h', hchop])
      · exact .inr (.inl (by rw [h, hchop, h']))
    · rcases chop_cases sep l' with h' | ⟨-, h'⟩
      · exact .inr (.inr (by rw [h', ← hchop, h]))
      · exact .inl (by rw [← h, hchop, h'])
  · rintro (rfl | rfl | rfl)
    · rfl
    · exact parts_concat_eq hl' hsep
    · exact (parts_concat_eq hl hsep').symm

end RegistrationCenter.Lib
