import Mathlib.Data.List.TakeWhile
import RegistrationCenter.Proofs.Client.Terminal
import RegistrationCenter.Proofs.Server.AddressIndex

/-!
# `RegistrationCenter.Proofs.Client.Cli`: the calls that a line can make

A line is cut at its blanks, and what is missing at its end is empty. So the calls that a line
can make are not all that the client has: `typed_iff` says which they are, whatever the operation
of the line before. Data with a blank cannot be entered, and a node without data can only be of
the type 1, so no line makes a session node without data.

`typed` is the line of a call. It is read back: a word by the blank after it (`extractString_cons`),
and a number by its digits (`extractInt_printInt`).
-/

set_option autoImplicit false

namespace RegistrationCenter

/-- No blanks. -/
def NoBlank (w : Bytes) : Prop := ∀ c ∈ w, isspace c = false

theorem NoBlank.newline {w : Bytes} (hw : NoBlank w) : 10 ∉ w := fun hmem =>
  Bool.false_ne_true (hw 10 hmem).symm

theorem NoBlank.dropWhile {w : Bytes} (hw : NoBlank w) (rest : Bytes) (hne : w ≠ []) :
    (w ++ rest).dropWhile isspace = w ++ rest := by
  cases w with
  | nil => exact absurd rfl hne
  | cons c cs =>
      have hc : ¬ isspace c = true := Bool.eq_false_iff.mp (hw c List.mem_cons_self)
      exact List.dropWhile_cons_of_neg hc

/-! ## Words -/

/-- A word has no blanks, and nothing is left when there is none. -/
theorem extractString_spec (ss : Bytes) :
    NoBlank (extractString ss).1 ∧ ((extractString ss).1 = [] → (extractString ss).2 = []) := by
  rw [extractString, extractWord]
  cases hdrop : ss.dropWhile isspace with
  | nil => exact ⟨fun c hc => absurd hc List.not_mem_nil, fun _ => rfl⟩
  | cons c cs =>
      show NoBlank ((c :: cs).span fun c => !isspace c).1 ∧
        (((c :: cs).span fun c => !isspace c).1 = [] → _)
      rw [List.span_eq_takeWhile_dropWhile]
      constructor
      · intro d hd
        simpa using List.mem_takeWhile_imp hd
      -- The first byte is not a blank.
      · intro hnil
        have hc := List.head_dropWhile_not isspace (hdrop ▸ List.cons_ne_nil c cs)
        rw [List.takeWhile_cons_of_pos (p := fun c => !isspace c)
          (by simpa [hdrop] using hc)] at hnil
        cases hnil

/-- A word comes before the next blank. -/
theorem extractWord_append {w : Bytes} (hw : NoBlank w) (hne : w ≠ []) (rest : Bytes)
    (hrest : ∀ c ∈ rest.head?, isspace c = true) : extractWord (w ++ rest) = some (w, rest) := by
  rw [extractWord, hw.dropWhile rest hne]
  cases w with
  | nil => exact absurd rfl hne
  | cons c cs =>
      show some ((c :: cs ++ rest).span fun c => !isspace c) = _
      have hspan : ∀ d ∈ c :: cs, (!isspace d) = true := fun d hd => by rw [hw d hd]; rfl
      rw [List.span_eq_takeWhile_dropWhile, List.takeWhile_append_of_pos hspan,
        List.dropWhile_append_of_pos hspan]
      cases rest with
      | nil => rw [List.takeWhile_nil, List.dropWhile_nil, List.append_nil]
      | cons d rest =>
          have hd : ¬ (!isspace d) = true := by rw [hrest d rfl]; decide
          rw [List.takeWhile_cons_of_neg (p := fun c => !isspace c) hd,
            List.dropWhile_cons_of_neg (p := fun c => !isspace c) hd, List.append_nil]

/-- A blank before a word is skipped. -/
theorem extractString_blank (ss : Bytes) : extractString (32 :: ss) = extractString ss := by
  rw [extractString, extractString, extractWord, extractWord,
    List.dropWhile_cons_of_pos (show isspace 32 = true by decide)]

/-- The last word of a line. -/
theorem extractString_last {w : Bytes} (hw : NoBlank w) : extractString (32 :: w) = (w, []) := by
  rw [extractString_blank]
  by_cases hne : w = []
  · subst hne
    rfl
  · have hword := extractWord_append hw hne [] fun c hc => by cases hc
    rw [List.append_nil] at hword
    rw [extractString, hword]
    rfl

/-- A word with others after it. -/
theorem extractString_next {w : Bytes} (hw : NoBlank w) (hne : w ≠ []) (rest : Bytes) :
    extractString (32 :: (w ++ 32 :: rest)) = (w, 32 :: rest) := by
  have hword := extractWord_append hw hne (32 :: rest) fun c hc => by
    obtain rfl := Option.some.inj hc
    decide
  rw [extractString_blank, extractString, hword]
  rfl

/-! ## Numbers -/

/-- The digits of a number are read back. -/
theorem readDecimal_decimal (n : Nat) : readDecimal (decimal n) = n := by
  have hdigits : ∀ c ∈ decimal n, isDigit c = true := by
    intro c hc
    have hdigit := digit_of_mem_decimal hc
    rw [isDigit, Bool.and_eq_true, decide_eq_true_eq, decide_eq_true_eq]
    exact ⟨hdigit.1, hdigit.2⟩
  rw [readDecimal, List.takeWhile_eq_self_iff.mpr hdigits, decimal, List.foldl_map]
  refine Eq.trans ?_ (Nat.ofDigitChars_ten_toDigits (n := n))
  rw [Nat.ofDigitChars_eq_foldl]
  -- The bytes of the digits are their characters.
  refine List.foldl_ext _ _ _ fun m c hc => ?_
  have hdigit := toNat_of_mem_toDigits hc
  rw [UInt8.toNat_ofNat', Nat.mod_eq_of_lt (by omega)]
  rfl

theorem isspace_digit {c : UInt8} (hc : 48 ≤ c.toNat) : ¬ isspace c = true := by
  intro h
  rw [isspace, Bool.or_eq_true, Bool.and_eq_true, decide_eq_true_eq, decide_eq_true_eq,
    decide_eq_true_eq] at h
  rcases h with rfl | ⟨-, hle⟩
  · exact absurd hc (by decide)
  · exact absurd (hc.trans (UInt8.le_iff_toNat_le.mp hle)) (by decide)

/-- A number that is printed is read back. -/
theorem extractInt_printInt (v old : Int32) : extractInt (32 :: printInt false v) old = v := by
  rw [extractInt, List.dropWhile_cons_of_pos (show isspace 32 = true by decide), printInt,
    if_neg Bool.false_ne_true]
  have hlow : -2 ^ 31 ≤ v.toInt := v.le_toInt
  have hhigh := v.toInt_lt
  by_cases hneg : v < 0
  · have hminus : bytes "-" = [45] := by decide
    have hzero : v.toInt < 0 := Int32.lt_iff_toInt_lt.mp hneg
    have hvalue : -((min v.toInt.natAbs 2147483648 : Nat) : Int) = v.toInt := by omega
    rw [if_pos hneg, hminus, List.singleton_append,
      List.dropWhile_cons_of_neg (show ¬ isspace 45 = true by decide)]
    simp only [splitSign, if_true, readDecimal_decimal]
    rw [hvalue, Int32.ofInt_toInt]
  · have hne : decimal v.toInt.natAbs ≠ [] :=
      fun hnil => Nat.toDigits_ne_nil (List.map_eq_nil_iff.mp hnil)
    obtain ⟨c, cs, hcs⟩ := List.exists_cons_of_ne_nil hne
    have hread : readDecimal (c :: cs) = v.toInt.natAbs := by rw [← hcs, readDecimal_decimal]
    -- A digit is neither a blank nor a sign.
    have hdigit := digit_of_mem_decimal (hcs ▸ List.mem_cons_self : c ∈ decimal v.toInt.natAbs)
    have hminus : c ≠ 45 := fun h => by
      subst h
      exact absurd hdigit.1 (by decide)
    have hplus : c ≠ 43 := fun h => by
      subst h
      exact absurd hdigit.1 (by decide)
    have hzero : 0 ≤ v.toInt := Int.not_lt.mp fun h => hneg (Int32.lt_iff_toInt_lt.mpr h)
    have hvalue : min ((v.toInt.natAbs : Nat) : Int) 2147483647 = v.toInt := by omega
    rw [if_neg hneg, hcs, List.dropWhile_cons_of_neg (isspace_digit hdigit.1)]
    simp only [splitSign, if_neg hminus, if_neg hplus, hread]
    rw [if_neg Bool.false_ne_true, hvalue, Int32.ofInt_toInt]

theorem noBlank_decimal (n : Nat) : NoBlank (decimal n) := fun _ hc =>
  Bool.eq_false_iff.mpr (isspace_digit (digit_of_mem_decimal hc).1)

theorem noBlank_printInt (v : Int32) : NoBlank (printInt false v) := by
  rw [printInt, if_neg Bool.false_ne_true]
  split
  · intro c hc
    rcases List.mem_append.mp hc with hminus | hdigit
    · obtain rfl : c = 45 := List.mem_singleton.mp hminus
      decide
    · exact noBlank_decimal _ c hdigit
  · exact noBlank_decimal _

/-! ## Lines -/

namespace ClientCall

/-- The calls that a line can make. A word that is missing is empty, and so are all words after
it, where the number is 1. -/
def Plain : ClientCall → Prop
  | .createNode path data type =>
      NoBlank path ∧ NoBlank data ∧ (path = [] → data = []) ∧ (data = [] → type = 1) ∧ type ≠ 0
  | .setNode path data => NoBlank path ∧ NoBlank data ∧ (path = [] → data = [])
  | .getNode path => NoBlank path
  | .deleteNode path => NoBlank path
  | .lsNode path => NoBlank path
  | .statNode path => NoBlank path
  | .existsNode path => NoBlank path

/-- The operation of a call. -/
def operation : ClientCall → Bytes
  | .createNode _ _ _ => bytes "create"
  | .getNode _ => bytes "get"
  | .setNode _ _ => bytes "set"
  | .deleteNode _ => bytes "delete"
  | .lsNode _ => bytes "ls"
  | .statNode _ => bytes "stat"
  | .existsNode _ => bytes "exists"

/-- The words of a line for a call, after the operation. -/
def arguments : ClientCall → List Bytes
  | .createNode path data type =>
      if path = [] then [] else if data = [] then [path] else [path, data, printInt false type]
  | .setNode path data => if path = [] then [] else [path, data]
  | .getNode path => [path]
  | .deleteNode path => [path]
  | .lsNode path => [path]
  | .statNode path => [path]
  | .existsNode path => [path]

/-- The words, with a blank before each. -/
def typed (words : List Bytes) : Bytes := words.flatMap fun w => 32 :: w

end ClientCall

namespace ClientCli

open ClientCall

/-- A line makes a call that a line can make. -/
theorem plain_of_parseCall {op ss : Bytes} {call : ClientCall} (h : parseCall op ss = some call) :
    call.Plain := by
  obtain ⟨hpath, hpathNil⟩ := extractString_spec ss
  obtain ⟨hdata, hdataNil⟩ := extractString_spec (extractString ss).2
  rw [parseCall] at h
  rcases hss : extractString ss with ⟨path, ss₁⟩
  rcases hss₁ : extractString ss₁ with ⟨data, ss₂⟩
  rw [hss] at hpath hpathNil hdata hdataNil
  rw [hss₁] at hdata hdataNil
  simp only [hss, hss₁] at h hpath hpathNil hdata hdataNil
  have hmissing : path = [] → data = [] := by
    intro hnil
    rw [hpathNil hnil] at hss₁
    cases hss₁
    rfl
  split_ifs at h with hcreate hzero hget hset hdelete hls hstat hexists
  all_goals cases h
  -- Where the data are missing, the number stays 1.
  · refine ⟨hpath, hdata, hmissing, fun _ => rfl, by decide⟩
  · refine ⟨hpath, hdata, hmissing, fun hnil => ?_, hzero⟩
    rw [hdataNil hnil]
    rfl
  · exact hpath
  · exact ⟨hpath, hdata, hmissing⟩
  · exact hpath
  · exact hpath
  · exact hpath
  · exact hpath

/-- The first word is taken, and the others are left. -/
theorem extractString_typed {w : Bytes} {ws : List Bytes} (hw : NoBlank w)
    (hne : ws = [] ∨ w ≠ []) : extractString (typed (w :: ws)) = (w, typed ws) := by
  rw [typed, List.flatMap_cons]
  cases ws with
  | nil =>
      rw [List.flatMap_nil, List.append_nil]
      exact extractString_last hw
  | cons v ws =>
      rcases hne with hnil | hne
      · cases hnil
      · exact extractString_next hw hne _

/-- The words after the operation are taken one by one. -/
theorem parseCall_typed {call : ClientCall} (h : call.Plain) :
    parseCall call.operation (typed call.arguments) = some call := by
  cases call with
  | createNode path data type =>
      obtain ⟨hpath, hdata, hpathNil, hdataNil, hzero⟩ := h
      rw [arguments, operation]
      by_cases hp : path = []
      · rw [if_pos hp, hp, hpathNil hp, hdataNil (hpathNil hp)]
        rfl
      · rw [if_neg hp]
        by_cases hd : data = []
        · rw [if_pos hd, parseCall, extractString_typed hpath (.inl rfl), hd, hdataNil hd]
          rfl
        · have hnumber : extractInt (typed [printInt false type]) 1 = type := by
            rw [typed, List.flatMap_cons, List.flatMap_nil, List.append_nil]
            exact extractInt_printInt type 1
          rw [if_neg hd, parseCall, extractString_typed hpath (.inr hp)]
          simp only [extractString_typed hdata (.inr hd), hnumber, if_neg hzero, if_true]
  | setNode path data =>
      obtain ⟨hpath, hdata, hpathNil⟩ := h
      rw [arguments, operation]
      by_cases hp : path = []
      · rw [if_pos hp, hp, hpathNil hp]
        rfl
      · rw [if_neg hp, parseCall, extractString_typed hpath (.inr hp)]
        simp only [extractString_typed hdata (.inl rfl)]
        rfl
  | getNode path => rw [arguments, parseCall, extractString_typed h (.inl rfl)]; rfl
  | deleteNode path => rw [arguments, parseCall, extractString_typed h (.inl rfl)]; rfl
  | lsNode path => rw [arguments, parseCall, extractString_typed h (.inl rfl)]; rfl
  | statNode path => rw [arguments, parseCall, extractString_typed h (.inl rfl)]; rfl
  | existsNode path => rw [arguments, parseCall, extractString_typed h (.inl rfl)]; rfl

theorem noBlank_operation (call : ClientCall) : NoBlank call.operation ∧ call.operation ≠ [] := by
  have hdecide : ∀ name : Bytes, (name.all fun c => !isspace c) && !name.isEmpty = true →
      NoBlank name ∧ name ≠ [] := by
    intro name h
    rw [Bool.and_eq_true, List.all_eq_true] at h
    exact ⟨fun c hc => by simpa using h.1 c hc, by simpa using h.2⟩
  refine hdecide _ ?_
  cases call with
  | createNode path data type => rfl
  | getNode path => rfl
  | setNode path data => rfl
  | deleteNode path => rfl
  | lsNode path => rfl
  | statNode path => rfl
  | existsNode path => rfl

theorem noBlank_arguments {call : ClientCall} (h : call.Plain) :
    ∀ w ∈ call.arguments, NoBlank w := by
  cases call with
  | createNode path data type =>
      obtain ⟨hpath, hdata, -, -, -⟩ := h
      rw [arguments]
      split_ifs with hp hd
      · exact fun w hw => absurd hw List.not_mem_nil
      · exact List.forall_mem_singleton.mpr hpath
      · exact List.forall_mem_cons.mpr ⟨hpath, List.forall_mem_cons.mpr
          ⟨hdata, List.forall_mem_singleton.mpr (noBlank_printInt type)⟩⟩
  | setNode path data =>
      obtain ⟨hpath, hdata, -⟩ := h
      rw [arguments]
      split_ifs with hp
      · exact fun w hw => absurd hw List.not_mem_nil
      · exact List.forall_mem_cons.mpr ⟨hpath, List.forall_mem_singleton.mpr hdata⟩
  | getNode path => exact List.forall_mem_singleton.mpr h
  | deleteNode path => exact List.forall_mem_singleton.mpr h
  | lsNode path => exact List.forall_mem_singleton.mpr h
  | statNode path => exact List.forall_mem_singleton.mpr h
  | existsNode path => exact List.forall_mem_singleton.mpr h

/-- The line of a call is read as its operation and its arguments. -/
theorem readOp_typed (op : Bytes) (call : ClientCall) (words : List Bytes) :
    readOp op (call.operation ++ typed words) = (call.operation, typed words) := by
  obtain ⟨hblank, hne⟩ := noBlank_operation call
  have hword : extractWord (call.operation ++ typed words) =
      some (call.operation, typed words) := by
    refine extractWord_append hblank hne _ fun c hc => ?_
    cases words with
    | nil => cases hc
    | cons w words =>
        obtain rfl := Option.some.inj hc
        decide
  rw [readOp, hword]
  rfl

/-- Which calls there is a line for, whatever the operation of the line before: the words that
they have hold no blank, a missing word is followed by no others, and a node that is to have
another type than 1 has data. -/
theorem typed_iff (op : Bytes) (call : ClientCall) :
    (∃ line, 10 ∉ line ∧ parseCall (readOp op line).1 (readOp op line).2 = some call) ↔
      call.Plain := by
  constructor
  · rintro ⟨line, -, hcall⟩
    exact plain_of_parseCall hcall
  · intro h
    refine ⟨call.operation ++ typed call.arguments, fun hmem => ?_, ?_⟩
    -- A line break would be a blank in a word.
    · rcases List.mem_append.mp hmem with hop | harg
      · exact (noBlank_operation call).1.newline hop
      · obtain ⟨w, hw, hmem⟩ := List.mem_flatMap.mp harg
        rcases List.mem_cons.mp hmem with hblank | hmem
        · exact absurd hblank (by decide)
        · exact (noBlank_arguments h w hw).newline hmem
    · rw [readOp_typed]
      exact parseCall_typed h

end ClientCli

end RegistrationCenter
