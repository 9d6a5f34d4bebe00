import Mathlib.Data.List.GetD
import Mathlib.Tactic.IntervalCases
import RegistrationCenter.Lib.Bits
import RegistrationCenter.Proofs.Server.Registry
import RegistrationCenter.Spec.UUID4

/-!
# `RegistrationCenter.Proofs.Server.SessionIds`: what the session ids are made of

A session id is the hash of a text, which is always one of a version 4 UUID. Two texts are the
same exactly when the two words that they are made of agree in 122 of their bits: the others are
not written. The words come from the seed, which is zero for as long as the random source cannot be
read, and is not zero again once it has been read (`uuid4_spec`).

So the sessions of a server without a random source are all one: `oneSession_of_noSource`.
-/

set_option autoImplicit false

namespace RegistrationCenter

open Lib

namespace UUID4

/-! ## The generator -/

theorem xor_xor_xor_comm (a b c d : UInt64) : a ^^^ b ^^^ c ^^^ d = (a ^^^ c) ^^^ (b ^^^ d) := by
  ac_rfl

theorem xor_shiftLeft_inj {a c : UInt64} (h : a ^^^ a <<< 23 = c ^^^ c <<< 23) : a = c := by
  have hbits : a.toBitVec ^^^ a.toBitVec <<< 23 = c.toBitVec ^^^ c.toBitVec <<< 23 :=
    congrArg UInt64.toBitVec h
  exact UInt64.toBitVec_inj.mp (xor_shiftLeft_injective (by decide) hbits)

theorem xor_shiftRight_inj {a c : UInt64} (h : a ^^^ a >>> 18 = c ^^^ c >>> 18) : a = c := by
  have hbits : a.toBitVec ^^^ a.toBitVec >>> 18 = c.toBitVec ^^^ c.toBitVec >>> 18 :=
    congrArg UInt64.toBitVec h
  exact UInt64.toBitVec_inj.mp (xor_ushiftRight_injective (by decide) hbits)

/-- A step of the generator can be undone. -/
theorem xorshift128plus_injective : Function.Injective fun s : Seed => (xorshift128plus s).2 := by
  rintro ⟨a, b⟩ ⟨c, d⟩ heq
  obtain ⟨hb, hnew⟩ := Prod.mk.inj heq
  obtain rfl : b = d := hb
  have hnew : (a ^^^ a <<< 23) ^^^ b ^^^ (a ^^^ a <<< 23) >>> 18 ^^^ b >>> 5 =
    (c ^^^ c <<< 23) ^^^ b ^^^ (c ^^^ c <<< 23) >>> 18 ^^^ b >>> 5 := hnew
  rw [xor_xor_xor_comm, xor_xor_xor_comm (c ^^^ c <<< 23), UInt64.xor_left_inj] at hnew
  rw [xor_shiftLeft_inj (xor_shiftRight_inj hnew)]

/-- The seed is zero after a step when it was zero before. -/
theorem xorshift128plus_eq_zero_iff (s : Seed) : (xorshift128plus s).2 = (0, 0) ↔ s = (0, 0) :=
  ⟨fun h => xorshift128plus_injective (h.trans (by decide)), fun h => by subst h; decide⟩

/-! ## The text -/

/-- The characters that may stand where the template has this one. -/
def Fits (p c : UInt8) : Prop :=
  if p = 120 then c ∈ chars else if p = 121 then c ∈ bytes "89ab" else c = p

/-- The nibbles that are written for a template, from the number `i` on, each with the number of
its values that a character tells apart. -/
def slots : Bytes → Nat → List (Nat × Nat)
  | [], _ => []
  | p :: ps, i =>
      if p = 120 then (i, 16) :: slots ps (i + 1)
      else if p = 121 then (i, 4) :: slots ps (i + 1)
      else slots ps i

theorem nibble_lt (b : Bytes) (i : Nat) : (nibble b i).toNat < 16 := by
  rw [nibble]
  generalize b.getD (i >>> 1) 0 = n
  have hn := n.toNat_lt
  split
  · rw [UInt8.toNat_shiftRight]
    show n.toNat >>> 4 < 16
    rw [Nat.shiftRight_eq_div_pow]
    omega
  · rw [UInt8.toNat_and]
    show n.toNat &&& 15 < 2 ^ 4
    exact Nat.and_lt_two_pow _ (by decide)

theorem toNat_low (n : UInt8) : ((n &&& 0x3) + 8).toNat = n.toNat % 4 + 8 := by
  have hlow : (n &&& 0x3).toNat = n.toNat % 4 :=
    (UInt8.toNat_and n 0x3).trans (Nat.and_two_pow_sub_one_eq_mod n.toNat 2)
  rw [UInt8.toNat_add, hlow]
  show (n.toNat % 4 + 8) % 256 = _
  omega

/-- The characters of two nibbles are the same only when the nibbles are. -/
theorem chars_inj {m n : Nat} (hm : m < 16) (hn : n < 16) :
    chars.getD m 0 = chars.getD n 0 ↔ m = n := by
  have hall : ∀ m n : Fin 16, chars.getD m 0 = chars.getD n 0 ↔ m = n := by decide
  exact (hall ⟨m, hm⟩ ⟨n, hn⟩).trans Fin.mk_eq_mk

/-- Each character of the text fits the one of the template. -/
theorem fits_buildString (b : Bytes) :
    ∀ (ps : Bytes) (i : Nat), List.Forall₂ Fits ps (buildString b ps i) := by
  intro ps
  induction ps with
  | nil => intro i; exact .nil
  | cons p ps ih =>
      intro i
      have hchars : ∀ n < 16, chars.getD n 0 ∈ chars := by decide
      have hlow : ∀ n < 4, chars.getD (n + 8) 0 ∈ bytes "89ab" := by decide
      rw [buildString]
      split
      case isTrue hx =>
        refine .cons ?_ (ih _)
        rw [Fits, if_pos hx]
        exact hchars _ (nibble_lt b i)
      case isFalse hx =>
        split
        case isTrue hy =>
          refine .cons ?_ (ih _)
          rw [Fits, if_neg hx, if_pos hy, toNat_low]
          exact hlow _ (Nat.mod_lt _ (by decide))
        case isFalse hy =>
          refine .cons ?_ (ih _)
          rw [Fits, if_neg hx, if_neg hy]

/-- Two texts are the same exactly when the nibbles agree in what is told apart. -/
theorem buildString_eq_iff (b b' : Bytes) :
    ∀ (ps : Bytes) (i : Nat), buildString b ps i = buildString b' ps i ↔
      ∀ q ∈ slots ps i, (nibble b q.1).toNat % q.2 = (nibble b' q.1).toNat % q.2 := by
  intro ps
  induction ps with
  | nil => intro i; exact ⟨fun _ q hq => absurd hq List.not_mem_nil, fun _ => rfl⟩
  | cons p ps ih =>
      intro i
      rw [buildString, buildString, slots]
      split
      case isTrue hx =>
        rw [List.cons_eq_cons, ih, List.forall_mem_cons, chars_inj (nibble_lt b i) (nibble_lt b' i)]
        show _ ↔ (nibble b i).toNat % 16 = (nibble b' i).toNat % 16 ∧ _
        rw [Nat.mod_eq_of_lt (nibble_lt b i), Nat.mod_eq_of_lt (nibble_lt b' i)]
      case isFalse hx =>
        split
        case isTrue hy =>
          rw [List.cons_eq_cons, ih, List.forall_mem_cons, toNat_low, toNat_low,
            chars_inj (by omega) (by omega), Nat.add_right_cancel_iff]
        case isFalse hy => rw [List.cons_eq_cons, ih, eq_self_iff_true, true_and]

/-- The nibbles of a text: all but the last one, and two bits of the one in the middle. -/
theorem slots_template : slots template_str 0 =
    (List.range 15).map (fun i => (i, 16)) ++
      (15, 4) :: (List.range 15).map (fun i => (16 + i, 16)) := by
  decide

/-! ## The words -/

/-- A byte of a word. -/
theorem toNat_getD_toMemory (w : UInt64) {j : Nat} (hj : j < 8) :
    ((toMemory w).getD j 0).toNat = w.toNat / 256 ^ j % 256 := by
  -- There are eight bytes.
  interval_cases j <;> simp [toMemory, UInt64.toNat_shiftRight, Nat.shiftRight_eq_div_pow]

/-- A nibble of some bytes. -/
theorem toNat_nibble (b : Bytes) (i : Nat) :
    (nibble b i).toNat = (b.getD (i / 2) 0).toNat / 16 ^ (i % 2) % 16 := by
  rw [nibble, Nat.shiftRight_eq_div_pow, Nat.and_one_is_mod, Nat.pow_one]
  generalize b.getD (i / 2) 0 = n
  have hn := n.toNat_lt
  split
  case isTrue hodd =>
    rw [UInt8.toNat_shiftRight, show i % 2 = 1 by omega]
    show n.toNat >>> 4 = _
    rw [Nat.shiftRight_eq_div_pow]
    omega
  case isFalse heven =>
    rw [show i % 2 = 0 by omega, Nat.pow_zero, Nat.div_one]
    exact (UInt8.toNat_and n 0xf).trans (Nat.and_two_pow_sub_one_eq_mod n.toNat 4)

/-- The nibbles of a word are its digits. -/
theorem byte_digit (w : Nat) (i : Nat) :
    w / 256 ^ (i / 2) % 256 / 16 ^ (i % 2) % 16 = w / 16 ^ i % 16 := by
  have hpow : 16 ^ i = 256 ^ (i / 2) * 16 ^ (i % 2) := by
    conv_lhs => rw [← Nat.div_add_mod i 2, pow_add, pow_mul]
    rfl
  rw [hpow, ← Nat.div_div_eq_div_mul]
  rcases Nat.mod_two_eq_zero_or_one i with h | h
  · rw [h]
    omega
  · rw [h]
    omega

/-- The nibbles of two words. -/
theorem toNat_nibble_words (v w : UInt64) {i : Nat} (hi : i < 16) :
    (nibble (toMemory v ++ toMemory w) i).toNat = v.toNat / 16 ^ i % 16 ∧
      (nibble (toMemory v ++ toMemory w) (16 + i)).toNat = w.toNat / 16 ^ i % 16 := by
  have hlen : (toMemory v).length = 8 := rfl
  rw [toNat_nibble, toNat_nibble]
  constructor
  · rw [List.getD_append _ _ _ _ (by omega), toNat_getD_toMemory v (by omega), byte_digit]
  · rw [List.getD_append_right _ _ _ _ (by omega), hlen, show (16 + i) / 2 - 8 = i / 2 by omega,
      toNat_getD_toMemory w (by omega), show (16 + i) % 2 = i % 2 by omega, byte_digit]

/-- The two words that a seed gives. -/
def words (s : Seed) : UInt64 × UInt64 :=
  ((xorshift128plus s).1, (xorshift128plus (xorshift128plus s).2).1)

/-- The text that a seed gives, less the `\0` at its end. -/
def text (s : Seed) : Bytes :=
  buildString (toMemory (words s).1 ++ toMemory (words s).2) template_str 0

theorem uuid4_generate_eq (s : Seed) : uuid4_generate s =
    (text s ++ [0], (xorshift128plus (xorshift128plus s).2).2) := rfl

/-- A text has no `\0`. -/
theorem zero_notMem_text (s : Seed) : 0 ∉ text s := by
  intro hmem
  obtain ⟨k, hk, hzero⟩ := List.getElem_of_mem hmem
  have hfits : List.Forall₂ Fits template_str (text s) := fits_buildString _ _ _
  have hk' : k < template_str.length := by rwa [hfits.length_eq]
  have hfit := hfits.get hk' hk
  rw [List.get_eq_getElem, List.get_eq_getElem, hzero] at hfit
  have htemplate : (template_str.all fun p => p != 0) = true := rfl
  rw [Fits] at hfit
  split_ifs at hfit with hx hy
  · exact absurd hfit (by decide)
  · exact absurd hfit (by decide)
  · exact bne_iff_ne.mp (List.all_eq_true.mp htemplate _ (List.getElem_mem hk')) hfit.symm

/-- The session id is the hash of the text. -/
theorem generateSessionId_eq (hash : Bytes → UInt64) (read : Bytes) (s : Seed) :
    generateSessionId hash read s =
      (hash (text (uuid4_init read s)),
        (xorshift128plus (xorshift128plus (uuid4_init read s)).2).2) := by
  have htake : (text (uuid4_init read s) ++ [0]).takeWhile (fun c => c ≠ 0) =
      text (uuid4_init read s) := by
    have hall : ∀ c ∈ text (uuid4_init read s), decide (c ≠ 0) = true := fun c hc =>
      decide_eq_true fun hzero => zero_notMem_text _ (hzero ▸ hc)
    rw [List.takeWhile_append_of_pos hall]
    exact List.append_nil _
  rw [generateSessionId, uuid4_generate_eq]
  simp only [htake]

/-- Two texts are the same exactly when their words agree in 62 and in 60 bits. -/
theorem text_eq_iff (s s' : Seed) : text s = text s' ↔
    (words s).1.toNat % 2 ^ 62 = (words s').1.toNat % 2 ^ 62 ∧
      (words s).2.toNat % 2 ^ 60 = (words s').2.toNat % 2 ^ 60 := by
  rw [text, text, buildString_eq_iff, slots_template, List.forall_mem_append, List.forall_mem_cons,
    List.forall_mem_map, List.forall_mem_map]
  -- The first word has fifteen whole digits and two bits of the last one.
  have hfirst : (words s).1.toNat % 2 ^ 62 = (words s').1.toNat % 2 ^ 62 ↔
      (∀ i < 15, (words s).1.toNat / 16 ^ i % 16 = (words s').1.toNat / 16 ^ i % 16) ∧
        (words s).1.toNat / 16 ^ 15 % 16 % 4 = (words s').1.toNat / 16 ^ 15 % 16 % 4 := by
    rw [← mod_pow_eq_iff, show 2 ^ 62 = 16 ^ 15 * 4 by decide, mod_mul_eq_iff]
    have hmod : ∀ n : Nat, n % 16 % 4 = n % 4 := fun n => by omega
    rw [hmod, hmod]
  have hsecond : (words s).2.toNat % 2 ^ 60 = (words s').2.toNat % 2 ^ 60 ↔
      ∀ i < 15, (words s).2.toNat / 16 ^ i % 16 = (words s').2.toNat / 16 ^ i % 16 := by
    rw [← mod_pow_eq_iff, show 2 ^ 60 = 16 ^ 15 by decide]
  rw [hfirst, hsecond]
  refine Iff.trans (and_congr ?_ (and_congr ?_ ?_)) and_assoc.symm
  · refine forall_congr' fun i => ?_
    rw [List.mem_range]
    refine forall_congr' fun hi => ?_
    rw [(toNat_nibble_words _ _ (by omega)).1, (toNat_nibble_words _ _ (by omega)).1, Nat.mod_mod,
      Nat.mod_mod]
  · rw [(toNat_nibble_words _ _ (by omega)).1, (toNat_nibble_words _ _ (by omega)).1]
  · refine forall_congr' fun i => ?_
    rw [List.mem_range]
    refine forall_congr' fun hi => ?_
    rw [(toNat_nibble_words _ _ (by omega)).2, (toNat_nibble_words _ _ (by omega)).2, Nat.mod_mod,
      Nat.mod_mod]

/-! ## The seed -/

/-- A byte before others in memory is the lowest of the word. -/
theorem toNat_ofMemory_cons (c : UInt8) (b : Bytes) (hb : (ofMemory b).toNat < 2 ^ 56) :
    (ofMemory (c :: b)).toNat = (ofMemory b).toNat * 256 + c.toNat := by
  have hc : c.toNat < 2 ^ 8 := c.toNat_lt
  show (ofMemory b <<< 8 ||| c.toUInt64).toNat = _
  rw [UInt64.toNat_or, UInt64.toNat_shiftLeft, UInt8.toNat_toUInt64]
  show (ofMemory b).toNat <<< 8 % 2 ^ 64 ||| c.toNat = _
  rw [Nat.mod_eq_of_lt (by rw [Nat.shiftLeft_eq]; omega), ← Nat.shiftLeft_add_eq_or_of_lt hc,
    Nat.shiftLeft_eq]

theorem toNat_ofMemory_lt : ∀ b : Bytes, b.length ≤ 8 → (ofMemory b).toNat < 256 ^ b.length := by
  intro b
  induction b with
  | nil => intro _; decide
  | cons c b ih =>
      intro hlen
      rw [List.length_cons] at hlen
      have hb := ih (by omega)
      have hpow : 256 ^ b.length ≤ 256 ^ 7 := Nat.pow_le_pow_right (by decide) (by omega)
      have hc := c.toNat_lt
      rw [toNat_ofMemory_cons c b (by omega), List.length_cons, Nat.pow_succ]
      omega

/-- A word is zero when all its bytes are. -/
theorem ofMemory_eq_zero_iff : ∀ {b : Bytes}, b.length ≤ 8 → (ofMemory b = 0 ↔ ∀ c ∈ b, c = 0) := by
  intro b
  induction b with
  | nil => intro _; exact ⟨fun _ c hc => absurd hc List.not_mem_nil, fun _ => rfl⟩
  | cons c b ih =>
      intro hlen
      rw [List.length_cons] at hlen
      have hb := toNat_ofMemory_lt b (by omega)
      have hpow : 256 ^ b.length ≤ 256 ^ 7 := Nat.pow_le_pow_right (by decide) (by omega)
      rw [List.forall_mem_cons, ← ih (by omega), ← UInt64.toNat_inj, ← UInt64.toNat_inj,
        ← UInt8.toNat_inj, toNat_ofMemory_cons c b (by omega)]
      show _ = 0 ↔ _ = 0 ∧ _ = 0
      omega

/-- The bytes of a number give its remainder. -/
theorem toNat_ofMemory_digits : ∀ (b : Bytes) (n : Nat), b.length ≤ 8 →
    (∀ j < b.length, (b.getD j 0).toNat = n / 256 ^ j % 256) →
      (ofMemory b).toNat = n % 256 ^ b.length := by
  intro b
  induction b with
  | nil => intro n _ _; exact (Nat.mod_one n).symm
  | cons c b ih =>
      intro n hlen hdigits
      rw [List.length_cons] at hlen hdigits
      have hb := toNat_ofMemory_lt b (by omega)
      have hpow : 256 ^ b.length ≤ 256 ^ 7 := Nat.pow_le_pow_right (by decide) (by omega)
      have hfirst : c.toNat = n % 256 := by simpa using hdigits 0 (by omega)
      have hrest : (ofMemory b).toNat = n / 256 % 256 ^ b.length := by
        refine ih (n / 256) (by omega) fun j hj => ?_
        rw [Nat.div_div_eq_div_mul, ← Nat.pow_succ', ← hdigits (j + 1) (by omega)]
        rfl
      rw [toNat_ofMemory_cons c b (by omega), List.length_cons, Nat.pow_succ', Nat.mod_mul, hrest,
        hfirst]
      omega

/-- The bytes of a word give the word. -/
theorem ofMemory_toMemory (w : UInt64) : ofMemory (toMemory w) = w := by
  have hlen : (toMemory w).length = 8 := rfl
  have hdigits := toNat_ofMemory_digits (toMemory w) w.toNat (by omega) fun j hj =>
    toNat_getD_toMemory w hj
  rw [hlen, show 256 ^ 8 = 2 ^ 64 by decide, Nat.mod_eq_of_lt w.toNat_lt] at hdigits
  exact UInt64.toNat_inj.mp hdigits

/-- Nothing that is read changes nothing. -/
theorem uuid4_init_nil (s : Seed) : uuid4_init [] s = s := by
  have hlen : (toMemory s.1).length = 8 := rfl
  rw [uuid4_init]
  show (ofMemory ((toMemory s.1 ++ toMemory s.2).take 8),
    ofMemory ((toMemory s.1 ++ toMemory s.2).drop 8)) = s
  rw [List.take_left' hlen, List.drop_left' hlen, ofMemory_toMemory, ofMemory_toMemory]

/-- A seed that has been read whole is zero when all its bytes are. -/
theorem uuid4_init_eq_zero_iff {read : Bytes} (hread : read.length = 16) (s : Seed) :
    uuid4_init read s = (0, 0) ↔ ∀ c ∈ read, c = 0 := by
  have hlen : (toMemory s.1 ++ toMemory s.2).length = 16 := rfl
  rw [uuid4_init, List.take_of_length_le hread.le, hread, List.drop_of_length_le hlen.le,
    List.append_nil, Prod.mk.injEq,
    ofMemory_eq_zero_iff (by rw [List.length_take]; omega),
    ofMemory_eq_zero_iff (by rw [List.length_drop]; omega), ← List.forall_mem_append,
    List.take_append_drop]

/-- The seed before the call number `n`, with what `fread` reads in each call. -/
def seedAt (reads : Nat → Bytes) : Nat → Seed
  | 0 => (0, 0)
  | n + 1 => (uuid4_generate (uuid4_init (reads n) (seedAt reads n))).2

/-- What has been read last, up to the call number `n`. -/
def lastRead (reads : Nat → Bytes) : Nat → Bytes
  | 0 => reads 0
  | n + 1 => if reads (n + 1) = [] then lastRead reads n else reads (n + 1)

/-- The seed that a call takes the words from is zero exactly when what has been read last, if
anything has, is zero. -/
theorem seed_eq_zero_iff (reads : Nat → Bytes)
    (hreads : ∀ n, reads n = [] ∨ (reads n).length = 16) :
    ∀ n, uuid4_init (reads n) (seedAt reads n) = (0, 0) ↔ ∀ c ∈ lastRead reads n, c = 0 := by
  intro n
  induction n with
  | zero =>
      rcases hreads 0 with hnil | hlen
      · rw [lastRead, hnil, uuid4_init_nil]
        exact ⟨fun _ c hc => absurd hc List.not_mem_nil, fun _ => rfl⟩
      · exact uuid4_init_eq_zero_iff hlen _
  | succ n ih =>
      rw [lastRead]
      split
      case isTrue hnil =>
        -- The two steps of the call before have not made it zero, nor have they left zero.
        rw [hnil, uuid4_init_nil, seedAt, uuid4_generate_eq, xorshift128plus_eq_zero_iff,
          xorshift128plus_eq_zero_iff, ih]
      case isFalse hne => exact uuid4_init_eq_zero_iff ((hreads (n + 1)).resolve_left hne) _

/-- The session id that the call number `n` generates. -/
def sessionIdAt (hash : Bytes → UInt64) (reads : Nat → Bytes) (n : Nat) : UInt64 :=
  (generateSessionId hash (reads n) (seedAt reads n)).1

/-- After any calls, the texts of two of them are those of version 4 UUIDs, and they are the same
exactly when their words agree in 122 bits. A call takes its words from the zero seed exactly when
the source has never been read, or has been read as zero the last time. -/
theorem uuid4_spec (reads : Nat → Bytes) (hreads : ∀ n, reads n = [] ∨ (reads n).length = 16)
    (m n : Nat) :
    let seed := fun k => uuid4_init (reads k) (seedAt reads k)
    (uuid4_generate (seed n)).1 = text (seed n) ++ [0] ∧
      List.Forall₂ Fits template_str (text (seed n)) ∧
      (text (seed m) = text (seed n) ↔
        (words (seed m)).1.toNat % 2 ^ 62 = (words (seed n)).1.toNat % 2 ^ 62 ∧
          (words (seed m)).2.toNat % 2 ^ 60 = (words (seed n)).2.toNat % 2 ^ 60) ∧
      (seed n = (0, 0) ↔ ∀ c ∈ lastRead reads n, c = 0) := by
  intro seed
  exact ⟨congrArg Prod.fst (uuid4_generate_eq (seed n)), fits_buildString _ _ _, text_eq_iff _ _,
    seed_eq_zero_iff reads hreads n⟩

/-- The source can be read in the second of two calls. -/
theorem uuid4_spec_oneRead :
    let reads : Nat → Bytes := fun n =>
      if n = 1 then [1, 2, 3, 4, 5, 6, 7, 8, 9, 10, 11, 12, 13, 14, 15, 16] else []
    let seed := fun k => uuid4_init (reads k) (seedAt reads k)
    (uuid4_generate (seed 1)).1 = text (seed 1) ++ [0] ∧
      List.Forall₂ Fits template_str (text (seed 1)) ∧
      (text (seed 0) = text (seed 1) ↔
        (words (seed 0)).1.toNat % 2 ^ 62 = (words (seed 1)).1.toNat % 2 ^ 62 ∧
          (words (seed 0)).2.toNat % 2 ^ 60 = (words (seed 1)).2.toNat % 2 ^ 60) ∧
      seed 1 ≠ (0, 0) := by
  intro reads seed
  have hreads : ∀ n, reads n = [] ∨ (reads n).length = 16 := by
    intro n
    by_cases hn : n = 1
    · rw [show reads n = _ from if_pos hn]
      exact .inr rfl
    · exact .inl (if_neg hn)
  obtain ⟨htext, hfits, hsame, hzero⟩ := uuid4_spec reads hreads 0 1
  refine ⟨htext, hfits, hsame, fun hseed => ?_⟩
  exact absurd (hzero.mp hseed 1 (List.mem_cons_self ..)) (by decide)

/-- Without a source all texts are the same. -/
theorem sessionIdAt_noSource (hash : Bytes → UInt64) (n : Nat) :
    sessionIdAt hash (fun _ => []) n = hash (bytes "00000000-0000-4000-8000-000000000000") := by
  have hseed : uuid4_init [] (seedAt (fun _ => []) n) = (0, 0) := by
    refine (seed_eq_zero_iff (fun _ => []) (fun _ => .inl rfl) n).mpr ?_
    have hlast : lastRead (fun _ => []) n = [] := by
      induction n with
      | zero => rfl
      | succ n ih => rw [lastRead, if_pos rfl, ih]
    rw [hlast]
    exact fun c hc => absurd hc List.not_mem_nil
  have htext : text (0, 0) = bytes "00000000-0000-4000-8000-000000000000" := by decide
  rw [sessionIdAt, generateSessionId_eq, hseed, htext]

end UUID4

/-! ## The sessions of the server -/

namespace SRCServer

/-- A session that lives after a step has lived before it, or its id is the one that is handed
out. -/
theorem exist_step (env : Environment) (s : SRCServer) (event : Event)
    (hs : s.m_heartbeatCounter.Sound) :
    (s.step env event).m_heartbeatCounter.Sound ∧
      ∀ id, (s.step env event).m_sessionManager.exist id = true →
        s.m_sessionManager.exist id = true ∨ id = env.generateSessionId s.generated := by
  cases event with
  | message peerAddress buffer =>
      rw [SRCServer.step, onMessage_eq]
      rcases s.onData_cases env peerAddress buffer.readable with
        ⟨call, -, hdata⟩ | ⟨-, hdata | hdata⟩
      · rw [hdata]
        exact ⟨hs, fun id hid => .inl hid⟩
      · rw [hdata]
        exact ⟨hs, fun id hid => .inl hid⟩
      -- A connection request adds the session.
      · rw [hdata]
        refine ⟨(HeartbeatCounter.sound_push env.now hs _).1, fun id hid => ?_⟩
        have hid : (s.m_sessionManager.add (env.generateSessionId s.generated) peerAddress).exist
          id = true := hid
        rw [SessionManager.exist_add, Bool.or_eq_true, decide_eq_true_eq] at hid
        exact hid.symm
  | heartbeat sessionId =>
      show (s.onUDPMessage env sessionId).m_heartbeatCounter.Sound ∧
        ∀ id, (s.onUDPMessage env sessionId).m_sessionManager.exist id = true → _
      rw [onUDPMessage]
      split
      case isTrue =>
        exact ⟨(HeartbeatCounter.sound_reset env.now hs sessionId).1, fun id hid => .inl hid⟩
      case isFalse => exact ⟨hs, fun id hid => .inl hid⟩
  | tick =>
      obtain ⟨hheaps, -, reached, -, hexist, -⟩ := tick_spec env hs
      refine ⟨hheaps, fun id hid => .inl ?_⟩
      rw [show (s.step env .tick).m_sessionManager.exist id = _ from hexist id] at hid
      exact (Bool.and_eq_true_iff.mp hid).2

/-- The response to a connection request hands the session id out. -/
theorem response_connection (env : Environment) (s : SRCServer) (event : Event)
    (hevent : (s.label env event).event = .message .connection) :
    (s.label env event).response = some (SerializeAsString
      (Registry.connectionResponse (env.generateSessionId s.generated))) := by
  cases event with
  | message peerAddress buffer =>
      have hdemand : Demand.parse buffer.readable = .connection := Registry.Event.message.inj hevent
      show s.sent env (.message peerAddress buffer) = _
      rw [sent, onMessage_eq, SRCServer.onData]
      rw [Demand.parse] at hdemand
      cases hparse : ParseFromString WrappedRequest buffer.readable with
      | none =>
          rw [hparse] at hdemand
          cases hdemand
      | some wrapped =>
          rw [hparse] at hdemand
          simp only [onRequest] at hdemand ⊢
          cases htype : wrapped.requestType with
          | Connection => rfl
          | Service =>
              simp only [htype] at hdemand
              split at hdemand
              · cases hdemand
              · split at hdemand
                · cases hdemand
                · cases hdemand
          | _ =>
              simp only [htype] at hdemand
              cases hdemand
  | heartbeat sessionId => cases hevent
  | tick => cases hevent

/-- When the random source cannot be opened, all clients of the server share one session: in each
run the only session that can live is the hash of one text, and each connection request is answered
with it. -/
theorem oneSession_of_noSource (now : Nat → Int) (hash : Bytes → UInt64)
    (timeout max_heartbeat : Int) (events : List Event) :
    let env : Environment :=
      { now := now, generateSessionId := UUID4.sessionIdAt hash fun _ => [] }
    let id := hash (bytes "00000000-0000-4000-8000-000000000000")
    let s := events.foldl (step env) (init timeout max_heartbeat)
    (∀ d, s.m_sessionManager.exist d = true → d = id) ∧
      ∀ l ∈ trace (step env) (label env) (init timeout max_heartbeat) events,
        l.event = .message .connection →
          l.response = some (SerializeAsString (Registry.connectionResponse id)) := by
  intro env id s
  have hid : ∀ s : SRCServer, env.generateSessionId s.generated = id := fun s =>
    UUID4.sessionIdAt_noSource hash s.generated
  constructor
  · have hkeep : ∀ (s : SRCServer) (event : Event), (s.m_heartbeatCounter.Sound ∧
        ∀ d, s.m_sessionManager.exist d = true → d = id) →
        (s.step env event).m_heartbeatCounter.Sound ∧
          ∀ d, (s.step env event).m_sessionManager.exist d = true → d = id := by
      rintro s event ⟨hheaps, honly⟩
      obtain ⟨hheaps', hexist⟩ := exist_step env s event hheaps
      refine ⟨hheaps', fun d hd => ?_⟩
      rcases hexist d hd with hd | hd
      · exact honly d hd
      · exact hd.trans (hid s)
    have hinit : (init timeout max_heartbeat).m_heartbeatCounter.Sound ∧
        ∀ d, (init timeout max_heartbeat).m_sessionManager.exist d = true → d = id :=
      ⟨HeartbeatCounter.sound_init timeout max_heartbeat, fun d hd => Bool.noConfusion hd⟩
    exact (inv_foldl hkeep events hinit).2
  · refine forall_mem_trace (P := fun l : Registry.Label =>
      l.event = .message .connection → l.response =
        some (SerializeAsString (Registry.connectionResponse id))) ?_ events _
    intro s event hevent
    rw [response_connection env s event hevent, hid]

end SRCServer

end RegistrationCenter
