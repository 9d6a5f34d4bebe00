import RegistrationCenter.Lib.Runs
import RegistrationCenter.Lib.Separated
import RegistrationCenter.Spec.SessionManager

/-!
# `RegistrationCenter.Proofs.Server.AddressIndex`: sessions by their addresses

The session manager keeps, next to the sessions, an index from the address of the peer to the
session. `Matches` says what the two have to do with each other: the index has the addresses of
the live sessions, and what it says of an address tells one of the sessions there from all others.

The code keeps this up in few runs. An id that is assigned to a string becomes a single
character, so only ids with different low bytes are told apart; an address has room for one of
its sessions, and the removal of any of them takes the address out of the index.
`matches_iff` says exactly which calls do no harm; when all ids are to be told apart, no session
can be added (`not_keepsIndex_univ`).
-/

set_option autoImplicit false

namespace RegistrationCenter

open Lib

/-! ## Addresses and their names -/

theorem toNat_of_mem_toDigits {n : Nat} {c : Char} (hc : c ∈ Nat.toDigits 10 n) :
    48 ≤ c.toNat ∧ c.toNat ≤ 57 :=
  Char.isDigit_iff_toNat.mp (Nat.isDigit_of_mem_toDigits (by decide) (by decide) hc)

theorem digit_of_mem_decimal {n : Nat} {b : UInt8} (hb : b ∈ decimal n) :
    48 ≤ b.toNat ∧ b.toNat ≤ 57 := by
  obtain ⟨c, hc, rfl⟩ := List.mem_map.mp hb
  have hdigit := toNat_of_mem_toDigits hc
  rw [UInt8.toNat_ofNat']
  omega

/-- The digits of a number say what it is. -/
theorem decimal_injective : Function.Injective decimal := by
  intro n m heq
  -- The characters can be had back from the bytes.
  have hchars : ∀ k, (decimal k).map (fun b => Char.ofNat b.toNat) = Nat.toDigits 10 k := by
    intro k
    rw [decimal, List.map_map]
    refine (List.map_congr_left fun c hc => ?_).trans (List.map_id _)
    have hdigit := toNat_of_mem_toDigits hc
    show Char.ofNat (UInt8.ofNat c.toNat).toNat = c
    rw [UInt8.toNat_ofNat', Nat.mod_eq_of_lt (by omega), Char.ofNat_toNat]
  have hdigits : Nat.toDigits 10 n = Nat.toDigits 10 m := by rw [← hchars, ← hchars, heq]
  rw [← Nat.ofDigitChars_ten_toDigits (n := n), hdigits, Nat.ofDigitChars_ten_toDigits]

theorem notMem_decimal (n : Nat) {sep : UInt8} (hsep : sep.toNat < 48 ∨ 57 < sep.toNat) :
    sep ∉ decimal n := by
  intro hmem
  have hdigit := digit_of_mem_decimal hmem
  omega

/-- Two peers with one name are the same. -/
theorem InetAddress.toIpPort_injective : Function.Injective InetAddress.toIpPort := by
  rintro ⟨⟨a₁, a₂, a₃, a₄⟩, p⟩ ⟨⟨b₁, b₂, b₃, b₄⟩, q⟩ heq
  have hdot : ∀ n, (46 : UInt8) ∉ decimal n := fun n => notMem_decimal n (.inl (by decide))
  have hcolon : ∀ n, (58 : UInt8) ∉ decimal n := fun n => notMem_decimal n (.inr (by decide))
  have heq : decimal a₁.toNat ++ 46 :: (decimal a₂.toNat ++ 46 :: (decimal a₃.toNat ++
        46 :: (decimal a₄.toNat ++ 58 :: decimal p.toNat))) =
      decimal b₁.toNat ++ 46 :: (decimal b₂.toNat ++ 46 :: (decimal b₃.toNat ++
        46 :: (decimal b₄.toNat ++ 58 :: decimal q.toNat))) := by
    simpa [toIpPort, toIp, bytes] using heq
  -- The parts, one after another.
  obtain ⟨h₁, heq⟩ := append_cons_inj_of_notMem (hdot _) (hdot _) heq
  obtain ⟨h₂, heq⟩ := append_cons_inj_of_notMem (hdot _) (hdot _) heq
  obtain ⟨h₃, heq⟩ := append_cons_inj_of_notMem (hdot _) (hdot _) heq
  obtain ⟨h₄, hport⟩ := append_cons_inj_of_notMem (hcolon _) (hcolon _) heq
  rw [UInt8.toNat_inj.mp (decimal_injective h₁), UInt8.toNat_inj.mp (decimal_injective h₂),
    UInt8.toNat_inj.mp (decimal_injective h₃), UInt8.toNat_inj.mp (decimal_injective h₄),
    UInt16.toNat_inj.mp (decimal_injective hport)]

/-! ## The index -/

namespace SessionManager

/-- A call of the manager that changes it. -/
inductive Call
  | add (sessionId : UInt64) (TCP : InetAddress)
  | remove (sessionId : UInt64)

def step (m : SessionManager) : Call → SessionManager
  | .add sessionId TCP => m.add sessionId TCP
  | .remove sessionId => m.remove sessionId

/-- The session lives and has this address. -/
def LiveAt (m : SessionManager) (sessionId : UInt64) (a : InetAddress) : Prop :=
  ∃ session, m.m_sessions sessionId = some session ∧ session.m_TCP = a

/-- What the index keeps of a session id. -/
def stored (sessionId : UInt64) : Bytes := [sessionId.toUInt8]

/-- The index has the addresses of the live sessions. The value under an address is that of a
session there, and of no other of the ids `S`. -/
structure Matches (S : Set UInt64) (m : SessionManager) : Prop where
  keys : ∀ a, (m.m_TCP_Id a.toIpPort).isSome ↔ ∃ id, m.LiveAt id a
  values : ∀ a v, m.m_TCP_Id a.toIpPort = some v →
    ∃ id, m.LiveAt id a ∧ v = stored id ∧ ∀ id' ∈ S, stored id' = v → id' = id

/-- The calls that do no harm. A session is added whose id has a low byte of its own; if it
lived at another address, the index names another session there. A session is removed that is
the only one at its address. -/
def KeepsIndex (S : Set UInt64) (m : SessionManager) : Call → Prop
  | .add id a => (∀ id' ∈ S, stored id' = stored id → id' = id) ∧
      ∀ b, m.LiveAt id b → b ≠ a →
        ∃ other, other ≠ id ∧ m.LiveAt other b ∧ m.m_TCP_Id b.toIpPort = some (stored other)
  | .remove id => ∀ b, m.LiveAt id b → ∀ other, m.LiveAt other b → other = id

/-- The ids that a call brings in. -/
def Within (S : Set UInt64) : Call → Prop
  | .add id _ => id ∈ S
  | .remove _ => True

/-- The invariant of a run: next to the index, the live sessions are among the ids. -/
structure Indexed (S : Set UInt64) (m : SessionManager) : Prop extends Matches S m where
  within : ∀ id a, m.LiveAt id a → id ∈ S

variable {S : Set UInt64} {m : SessionManager}

/-- A session has one address. -/
theorem LiveAt.unique {id : UInt64} {a b : InetAddress} (ha : m.LiveAt id a)
    (hb : m.LiveAt id b) : a = b := by
  obtain ⟨session, hsession, rfl⟩ := ha
  obtain ⟨session', hsession', rfl⟩ := hb
  rw [Option.some.inj (hsession.symm.trans hsession')]

theorem indexed_init (S : Set UInt64) : init.Indexed S := by
  have hnone : ∀ id a, ¬ init.LiveAt id a := by
    rintro id a ⟨session, hsession, -⟩
    cases hsession
  refine ⟨⟨fun a => ?_, fun a v hv => ?_⟩, fun id a hlive => absurd hlive (hnone id a)⟩
  · exact ⟨fun h => Bool.noConfusion h, fun ⟨id, hlive⟩ => absurd hlive (hnone id a)⟩
  · cases hv

/-! ### Adding a session -/

theorem liveAt_add (id : UInt64) (a : InetAddress) (d : UInt64) (b : InetAddress) :
    (m.add id a).LiveAt d b ↔ if d = id then b = a else m.LiveAt d b := by
  by_cases hd : d = id
  · subst hd
    rw [if_pos rfl]
    constructor
    · rintro ⟨session, hsession, rfl⟩
      have hsession : Function.update m.m_sessions d (some ⟨d, a⟩) d = some session := hsession
      rw [Function.update_self] at hsession
      obtain rfl := Option.some.inj hsession
      rfl
    · rintro rfl
      exact ⟨_, Function.update_self .., rfl⟩
  · rw [if_neg hd]
    have hother : (m.add id a).m_sessions d = m.m_sessions d := Function.update_of_ne hd ..
    rw [LiveAt, hother]
    rfl

theorem m_TCP_Id_add (id : UInt64) (a : InetAddress) :
    (m.add id a).m_TCP_Id = Function.update m.m_TCP_Id a.toIpPort (some (stored id)) := rfl

theorem index_add_self (id : UInt64) (a : InetAddress) :
    (m.add id a).m_TCP_Id a.toIpPort = some (stored id) := by
  rw [m_TCP_Id_add, Function.update_self]

theorem index_add_of_ne (id : UInt64) {a b : InetAddress} (hb : b ≠ a) :
    (m.add id a).m_TCP_Id b.toIpPort = m.m_TCP_Id b.toIpPort := by
  have hname : b.toIpPort ≠ a.toIpPort := fun heq => hb (InetAddress.toIpPort_injective heq)
  rw [m_TCP_Id_add, Function.update_of_ne hname]

theorem Indexed.add (h : m.Indexed S) {id : UInt64} {a : InetAddress} (hid : id ∈ S)
    (hkeeps : m.KeepsIndex S (.add id a)) : (m.add id a).Indexed S := by
  obtain ⟨hown, hleft⟩ := hkeeps
  refine ⟨⟨fun b => ?_, fun b v hv => ?_⟩, fun d b hlive => ?_⟩
  · by_cases hb : b = a
    · subst hb
      rw [index_add_self]
      exact ⟨fun _ => ⟨id, (liveAt_add ..).mpr (by rw [if_pos rfl])⟩, fun _ => rfl⟩
    · rw [index_add_of_ne id hb, h.keys]
      constructor
      -- A session that moves away leaves the one that the index names.
      · rintro ⟨d, hlive⟩
        by_cases hd : d = id
        · subst hd
          obtain ⟨other, hne, hother, -⟩ := hleft b hlive hb
          exact ⟨other, (liveAt_add ..).mpr (by rwa [if_neg hne])⟩
        · exact ⟨d, (liveAt_add ..).mpr (by rwa [if_neg hd])⟩
      · rintro ⟨d, hlive⟩
        have hlive := (liveAt_add ..).mp hlive
        split at hlive
        · exact absurd hlive hb
        · exact ⟨d, hlive⟩
  · by_cases hb : b = a
    · subst hb
      obtain rfl := Option.some.inj (index_add_self (m := m) id b ▸ hv)
      exact ⟨id, (liveAt_add ..).mpr (by rw [if_pos rfl]), rfl, hown⟩
    · rw [index_add_of_ne id hb] at hv
      obtain ⟨d, hlive, hstored, honly⟩ := h.values b v hv
      -- The value does not name the session that moves away.
      have hd : d ≠ id := by
        rintro rfl
        obtain ⟨other, hne, hother, hindex⟩ := hleft b hlive hb
        have hvalue : stored other = v := Option.some.inj (hindex.symm.trans hv)
        exact hne (honly other (h.within other b hother) hvalue)
      exact ⟨d, (liveAt_add ..).mpr (by rwa [if_neg hd]), hstored, honly⟩
  · have hlive := (liveAt_add ..).mp hlive
    split at hlive
    case isTrue hd => exact hd ▸ hid
    case isFalse => exact h.within d b hlive

/-- An add that does harm is seen at once. -/
theorem Indexed.not_matches_add (h : m.Indexed S) {id : UInt64} {a : InetAddress} (hid : id ∈ S)
    (hharm : ¬ m.KeepsIndex S (.add id a)) : ¬ (m.add id a).Matches S := by
  intro hmatches
  apply hharm
  refine ⟨fun id' hid' heq => ?_, fun b hlive hb => ?_⟩
  · obtain ⟨d, -, hstored, honly⟩ := hmatches.values a _ (index_add_self id a)
    rw [honly id' hid' heq, honly id hid rfl]
  · -- The address has a value before the call, and the call does not change it.
    obtain ⟨v, hv⟩ := Option.isSome_iff_exists.mp ((h.keys b).mpr ⟨id, hlive⟩)
    obtain ⟨other, hother, hstored, -⟩ :=
      hmatches.values b v ((index_add_of_ne id hb).trans hv)
    have hother := (liveAt_add ..).mp hother
    split at hother
    case isTrue => exact absurd hother hb
    case isFalse hne => exact ⟨other, hne, hother, hstored ▸ hv⟩

/-! ### Removing a session -/

theorem remove_of_liveAt {id : UInt64} {b : InetAddress} (hlive : m.LiveAt id b) :
    m.remove id = { m_TCP_Id := Function.update m.m_TCP_Id b.toIpPort none
                    m_sessions := Function.update m.m_sessions id none } := by
  obtain ⟨session, hsession, rfl⟩ := hlive
  rw [remove, hsession]

theorem remove_of_none {id : UInt64} (hnone : m.m_sessions id = none) : m.remove id = m := by
  rw [remove, hnone]

theorem liveAt_remove (id d : UInt64) (b : InetAddress) :
    (m.remove id).LiveAt d b ↔ d ≠ id ∧ m.LiveAt d b := by
  cases hsession : m.m_sessions id with
  -- There is nothing to remove.
  | none =>
      rw [remove_of_none hsession, iff_and_self]
      rintro ⟨session, hd, -⟩ rfl
      rw [hsession] at hd
      cases hd
  | some session =>
      have hsessions : (m.remove id).m_sessions = Function.update m.m_sessions id none := by
        rw [remove_of_liveAt ⟨session, hsession, rfl⟩]
      rw [LiveAt, hsessions]
      by_cases hd : d = id
      · subst hd
        rw [Function.update_self]
        constructor
        · rintro ⟨session', hsession', -⟩
          cases hsession'
        · exact fun h => absurd rfl h.1
      · rw [Function.update_of_ne hd]
        exact ⟨fun hlive => ⟨hd, hlive⟩, fun hlive => hlive.2⟩

theorem Indexed.remove (h : m.Indexed S) {id : UInt64} (hkeeps : m.KeepsIndex S (.remove id)) :
    (m.remove id).Indexed S := by
  cases hsession : m.m_sessions id with
  | none =>
      rw [remove_of_none hsession]
      exact h
  | some session =>
      have hlive : m.LiveAt id session.m_TCP := ⟨session, hsession, rfl⟩
      generalize session.m_TCP = b at hlive
      -- At the address of the session there is no other, and elsewhere nothing changes.
      have hindex : (m.remove id).m_TCP_Id = Function.update m.m_TCP_Id b.toIpPort none := by
        rw [remove_of_liveAt hlive]
      have hne : ∀ {a}, a ≠ b → a.toIpPort ≠ b.toIpPort := fun ha heq =>
        ha (InetAddress.toIpPort_injective heq)
      have helse : ∀ {d a}, m.LiveAt d a → a ≠ b → (m.remove id).LiveAt d a := by
        intro d a hd ha
        refine (liveAt_remove ..).mpr ⟨?_, hd⟩
        rintro rfl
        exact ha (hd.unique hlive)
      refine ⟨⟨fun a => ?_, fun a v hv => ?_⟩, fun d a hd => ?_⟩
      · rw [hindex]
        by_cases ha : a = b
        · subst ha
          rw [Function.update_self]
          refine ⟨fun hsome => Bool.noConfusion hsome, ?_⟩
          rintro ⟨d, hd⟩
          obtain ⟨hne, hd⟩ := (liveAt_remove ..).mp hd
          exact absurd (hkeeps a hlive d hd) hne
        · rw [Function.update_of_ne (hne ha), h.keys]
          exact exists_congr fun d =>
            ⟨fun hd => helse hd ha, fun hd => ((liveAt_remove ..).mp hd).2⟩
      · rw [hindex] at hv
        by_cases ha : a = b
        · rw [ha, Function.update_self] at hv
          cases hv
        · rw [Function.update_of_ne (hne ha)] at hv
          obtain ⟨d, hd, hvalue⟩ := h.values a v hv
          exact ⟨d, helse hd ha, hvalue⟩
      · exact h.within d a ((liveAt_remove ..).mp hd).2

/-- A removal that does harm is seen at once. -/
theorem not_matches_remove {id : UInt64} (hharm : ¬ m.KeepsIndex S (.remove id)) :
    ¬ (m.remove id).Matches S := by
  intro hmatches
  apply hharm
  intro b hlive other hother
  by_contra hne
  -- The other session is left, and its address is gone.
  have hsome := (hmatches.keys b).mpr ⟨other, (liveAt_remove ..).mpr ⟨hne, hother⟩⟩
  rw [remove_of_liveAt hlive] at hsome
  have hnone : (Function.update m.m_TCP_Id b.toIpPort none b.toIpPort).isSome = false := by
    rw [Function.update_self]
    rfl
  exact Bool.noConfusion (hnone.symm.trans hsome)

/-! ### Runs -/

/-- For all ids that are to be told apart: the index matches the sessions in all states of a run
of adds and removals exactly when none of its calls does harm. -/
theorem matches_iff (S : Set UInt64) (calls : List Call) (hwithin : ∀ call ∈ calls, Within S call) :
    AllStates step (Matches S) init calls ↔ StepsMeet step (KeepsIndex S) init calls := by
  have hkeep : ∀ (m : SessionManager) call, m.Indexed S → Within S call → m.KeepsIndex S call →
      (m.step call).Indexed S := by
    intro m call h hS hkeeps
    cases call with
    | add id a => exact h.add hS hkeeps
    | remove id => exact h.remove hkeeps
  have hexact : ∀ (m : SessionManager) call, m.Indexed S → Within S call →
      ¬ m.KeepsIndex S call → ¬ (m.step call).Matches S := by
    intro m call h hS hharm
    cases call with
    | add id a => exact h.not_matches_add hS hharm
    | remove id => exact not_matches_remove hharm
  exact allStates_iff_stepsMeet_of (fun m h => h.toMatches) hkeep hexact (indexed_init S)
    (stepsMeet_iff_forall.mpr hwithin)

/-- When all ids are to be told apart, no session can be added: each id shares its low byte with
another one. -/
theorem not_keepsIndex_univ (m : SessionManager) (id : UInt64) (a : InetAddress) :
    ¬ m.KeepsIndex Set.univ (.add id a) := by
  intro hkeeps
  have hstored : stored (id + 256) = stored id := by
    rw [stored, stored, UInt64.toUInt8_add]
    simp
  have hsame : id + 256 = id := hkeeps.1 (id + 256) (Set.mem_univ _) hstored
  rw [UInt64.add_eq_left] at hsame
  exact absurd hsame (by decide)

/-- Two sessions from different addresses, and the death of one of them. -/
theorem matches_iff_twoAddresses :
    let calls : List Call := [.add 1 ⟨(127, 0, 0, 1), 4000⟩, .add 2 ⟨(127, 0, 0, 1), 4001⟩,
      .remove 1]
    AllStates step (Matches {1, 2}) init calls ↔ StepsMeet step (KeepsIndex {1, 2}) init calls :=
  matches_iff {1, 2} _ (by simp [Within])

/-- Two sessions over one connection: with the death of the first, the index loses the second. -/
theorem not_matches_sameAddress :
    ¬ AllStates step (Matches {1, 2}) init [.add 1 ⟨(127, 0, 0, 1), 4000⟩,
      .add 2 ⟨(127, 0, 0, 1), 4000⟩, .remove 1] := by
  intro h
  let m := (init.add 1 ⟨(127, 0, 0, 1), 4000⟩).add 2 ⟨(127, 0, 0, 1), 4000⟩
  have hharm : ¬ m.KeepsIndex {1, 2} (.remove 1) := by
    intro hkeeps
    have hlive : m.LiveAt 1 ⟨(127, 0, 0, 1), 4000⟩ := ⟨_, rfl, rfl⟩
    exact absurd (hkeeps _ hlive 2 ⟨_, rfl, rfl⟩) (by decide)
  exact not_matches_remove hharm h.last

end SessionManager

end RegistrationCenter
