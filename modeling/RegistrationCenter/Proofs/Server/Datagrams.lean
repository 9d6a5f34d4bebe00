import Mathlib.Algebra.Order.BigOperators.Group.List
import RegistrationCenter.Proofs.Server.NoOrphan
import RegistrationCenter.Spec.HeartbeatThread

/-!
# `RegistrationCenter.Proofs.Server.Datagrams`: what the UDP loop survives

The loop ends the string in `buf` before it looks at the result of `recvfrom`, and runs the
callback whether the datagram parses or not. `robust_iff` says for which datagrams this does
no harm: those that are shorter than the array and empty or well formed, and no error at all.

`world_ThreadFunc` connects the loop to the runs of the server: its rounds are the ticks and the
heartbeats of such a run.
-/

set_option autoImplicit false

namespace RegistrationCenter

open Lib

namespace RecvOutcome

/-- The session id of a non-empty datagram that parses. -/
def carried : RecvOutcome → Option UInt64
  | .failed => none
  | .datagram data =>
      if data = [] then none
      else (ParseFromString HeartbeatMessage (data.take bufSize)).map HeartbeatMessage.sessionId

/-- What the loop can stand: a datagram that leaves room for the end of the string, and is empty
or well formed. -/
def Harmless : RecvOutcome → Prop
  | .failed => False
  | .datagram data => data.length < bufSize ∧
      (data = [] ∨ (ParseFromString HeartbeatMessage data).isSome)

end RecvOutcome

namespace HeartbeatThreadState

variable {ω : Type}

/-- All writes were in the array, and the callback has been run once for each datagram that
carries a session id, with this id, and for no other. -/
def Robust (s : HeartbeatThreadState ω) (outcomes : List RecvOutcome) : Prop :=
  (∀ i ∈ s.writes, 0 ≤ i ∧ i < bufSize) ∧ s.callbacks = outcomes.filterMap RecvOutcome.carried

/-! ## A round -/

/-- The indices that a round writes to. -/
def writesOf (outcome : RecvOutcome) : List Int :=
  (List.range (recvfrom outcome).1.length).map Int.ofNat ++ [(recvfrom outcome).2]

/-- The session ids with which a round runs the callback. -/
def callbacksOf (leftover : Bytes → HeartbeatMessage) : RecvOutcome → List UInt64
  | .failed => []
  | .datagram data =>
      if data = [] then []
      else [((ParseFromString HeartbeatMessage (data.take bufSize)).getD
        (leftover (data.take bufSize))).sessionId]

section
variable (tick : ω → ω) (callback : UInt64 → ω → ω) (leftover : Bytes → HeartbeatMessage)

/-- What the parser is given is the datagram: the end of the string is behind it. -/
theorem take_set_append (data rest : Bytes) :
    ((data ++ rest).set data.length 0).take data.length = data := by
  rw [List.take_set_of_le (le_refl _), List.take_left]

theorem round_spec (s : HeartbeatThreadState ω) (outcome : RecvOutcome) :
    (s.round tick callback leftover outcome).writes = s.writes ++ writesOf outcome ∧
      (s.round tick callback leftover outcome).callbacks =
        s.callbacks ++ callbacksOf leftover outcome ∧
      (s.round tick callback leftover outcome).world =
        (callbacksOf leftover outcome).foldl (fun w id => callback id w) (tick s.world) := by
  have hwrites :
      (s.round tick callback leftover outcome).writes = s.writes ++ writesOf outcome := by
    rw [writesOf, ← List.append_assoc]
    simp only [round]
    split
    · rfl
    · rfl
  refine ⟨hwrites, ?_⟩
  cases outcome with
  | failed => exact ⟨(List.append_nil _).symm, rfl⟩
  | datagram data =>
      by_cases hempty : data = []
      · subst hempty
        exact ⟨(List.append_nil _).symm, rfl⟩
      -- The datagram goes to the parser and the message to the callback.
      · have hlen : 0 < (data.take bufSize).length := by
          rw [List.length_take]
          exact Nat.lt_min.mpr ⟨by decide, List.length_pos_iff.mpr hempty⟩
        have hpos : ¬ ((data.take bufSize).length : Int) ≤ 0 := by omega
        have hnonneg : (0 : Int) ≤ (data.take bufSize).length := Int.natCast_nonneg _
        have hstored : (((data.take bufSize) ++ s.buf.drop (data.take bufSize).length).set
            (data.take bufSize).length 0).take (data.take bufSize).length = data.take bufSize :=
          take_set_append _ _
        rw [callbacksOf, if_neg hempty]
        simp only [round, recvfrom, hpos, hnonneg, ↓reduceIte, Int.toNat_natCast, hstored]
        exact ⟨trivial, rfl⟩

/-! ## Runs -/

/-- The loop does one thing after another: its writes and callbacks are those of the rounds. -/
theorem foldl_round (outcomes : List RecvOutcome) : ∀ s : HeartbeatThreadState ω,
    (outcomes.foldl (round tick callback leftover) s).writes =
        s.writes ++ outcomes.flatMap writesOf ∧
      (outcomes.foldl (round tick callback leftover) s).callbacks =
        s.callbacks ++ outcomes.flatMap (callbacksOf leftover) := by
  induction outcomes with
  | nil => intro s; exact ⟨(List.append_nil _).symm, (List.append_nil _).symm⟩
  | cons outcome outcomes ih =>
      intro s
      obtain ⟨hwrites, hcallbacks⟩ := ih (s.round tick callback leftover outcome)
      obtain ⟨hwrites₁, hcallbacks₁, -⟩ := round_spec tick callback leftover s outcome
      rw [List.foldl_cons, hwrites, hcallbacks, hwrites₁, hcallbacks₁, List.append_assoc,
        List.append_assoc]
      exact ⟨rfl, rfl⟩

end

/-- A round writes in the array exactly when `recvfrom` has not failed and the end of the string
fits. -/
theorem writesOf_inArray (outcome : RecvOutcome) :
    (∀ i ∈ writesOf outcome, 0 ≤ i ∧ i < bufSize) ↔
      ∃ data, outcome = .datagram data ∧ data.length < bufSize := by
  cases outcome with
  | failed =>
      constructor
      · intro h
        exact absurd (h (-1) (List.mem_singleton.mpr rfl)).1 (by decide)
      · rintro ⟨data, heq, -⟩
        cases heq
  | datagram data =>
      constructor
      -- The last index is the length of what is stored.
      · intro h
        refine ⟨data, rfl, ?_⟩
        have hlast := (h (data.take bufSize).length
          (List.mem_append_right _ (List.mem_singleton.mpr rfl))).2
        rw [List.length_take] at hlast
        omega
      · rintro ⟨d, heq, hlt⟩ i hi
        cases heq
        have htake : (data.take bufSize).length = data.length := by
          rw [List.length_take, Nat.min_eq_right (Nat.le_of_lt hlt)]
        rcases List.mem_append.mp hi with hi | hi
        · obtain ⟨k, hk, rfl⟩ := List.mem_map.mp hi
          have hk : k < (data.take bufSize).length := List.mem_range.mp hk
          exact ⟨Int.natCast_nonneg k, Int.ofNat_lt.mpr (by omega)⟩
        · obtain rfl := List.mem_singleton.mp hi
          show (0 : Int) ≤ (data.take bufSize).length ∧ ((data.take bufSize).length : Int) < bufSize
          omega

/-- A round runs the callback for what the outcome carries, or for a datagram that does not
parse. -/
theorem callbacksOf_cases (leftover : Bytes → HeartbeatMessage) (outcome : RecvOutcome) :
    callbacksOf leftover outcome = outcome.carried.toList ∨
      outcome.carried = none ∧ (callbacksOf leftover outcome).length = 1 := by
  cases outcome with
  | failed => exact .inl rfl
  | datagram data =>
      rw [callbacksOf, RecvOutcome.carried]
      by_cases hempty : data = []
      · rw [if_pos hempty, if_pos hempty]
        exact .inl rfl
      · rw [if_neg hempty, if_neg hempty]
        cases ParseFromString HeartbeatMessage (data.take bufSize) with
        | none => exact .inr ⟨rfl, rfl⟩
        | some msg => exact .inl rfl

theorem length_carried_le (leftover : Bytes → HeartbeatMessage) (outcome : RecvOutcome) :
    outcome.carried.toList.length ≤ (callbacksOf leftover outcome).length := by
  rcases callbacksOf_cases leftover outcome with heq | ⟨hnone, hlen⟩
  · rw [heq]
  · rw [hnone]
    exact Nat.zero_le _

/-- The callbacks of a run are the right ones exactly when those of each round are: no round has
too few, so none can make up for another. -/
theorem callbacks_eq_iff (leftover : Bytes → HeartbeatMessage) (outcomes : List RecvOutcome) :
    outcomes.flatMap (callbacksOf leftover) = outcomes.filterMap RecvOutcome.carried ↔
      ∀ outcome ∈ outcomes, callbacksOf leftover outcome = outcome.carried.toList := by
  rw [List.filterMap_eq_flatMap_toList]
  constructor
  · intro heq
    induction outcomes with
    | nil => intro outcome ho; exact absurd ho List.not_mem_nil
    | cons outcome outcomes ih =>
        rw [List.flatMap_cons, List.flatMap_cons] at heq
        have hhead := length_carried_le leftover outcome
        have htail : (outcomes.flatMap fun o => o.carried.toList).length ≤
            (outcomes.flatMap (callbacksOf leftover)).length := by
          rw [List.length_flatMap, List.length_flatMap]
          exact List.sum_le_sum fun o _ => length_carried_le leftover o
        have hlen := congrArg List.length heq
        rw [List.length_append, List.length_append] at hlen
        obtain ⟨heq₁, heq₂⟩ := List.append_inj heq (by omega)
        rw [List.forall_mem_cons]
        exact ⟨heq₁, ih heq₂⟩
  · intro h
    exact List.flatMap_congr h

/-- A round is as it should be exactly when the outcome is harmless. -/
theorem harmless_iff (leftover : Bytes → HeartbeatMessage) (outcome : RecvOutcome) :
    (∀ i ∈ writesOf outcome, 0 ≤ i ∧ i < bufSize) ∧
        callbacksOf leftover outcome = outcome.carried.toList ↔ outcome.Harmless := by
  rw [writesOf_inArray]
  cases outcome with
  | failed =>
      constructor
      · rintro ⟨⟨data, heq, -⟩, -⟩
        cases heq
      · exact False.elim
  | datagram data =>
      -- Nothing is cut off a datagram that leaves room.
      have htake : data.length < bufSize → data.take bufSize = data := fun hlt =>
        List.take_of_length_le (Nat.le_of_lt hlt)
      have hparse : callbacksOf leftover (.datagram data) =
          (RecvOutcome.datagram data).carried.toList ↔
            data = [] ∨ (ParseFromString HeartbeatMessage (data.take bufSize)).isSome := by
        rw [callbacksOf, RecvOutcome.carried]
        by_cases hempty : data = []
        · simp [hempty]
        · rw [if_neg hempty, if_neg hempty]
          cases ParseFromString HeartbeatMessage (data.take bufSize) with
          | none => simp [hempty]
          | some msg => simp
      rw [hparse]
      constructor
      · rintro ⟨⟨d, heq, hlt⟩, hsome⟩
        cases heq
        rw [htake hlt] at hsome
        exact ⟨hlt, hsome⟩
      · rintro ⟨hlt, hsome⟩
        rw [htake hlt]
        exact ⟨⟨data, rfl, hlt⟩, hsome⟩

/-- The loop writes in its array only, and runs the callback for the well formed datagrams only,
exactly when each outcome of `recvfrom` is harmless. -/
theorem robust_iff (tick : ω → ω) (callback : UInt64 → ω → ω)
    (leftover : Bytes → HeartbeatMessage) (world : ω) (outcomes : List RecvOutcome) :
    (ThreadFunc tick callback leftover world outcomes).Robust outcomes ↔
      ∀ outcome ∈ outcomes, outcome.Harmless := by
  obtain ⟨hwrites, hcallbacks⟩ := foldl_round tick callback leftover outcomes (init world)
  have hwrites : (ThreadFunc tick callback leftover world outcomes).writes =
      outcomes.flatMap writesOf := hwrites
  have hcallbacks : (ThreadFunc tick callback leftover world outcomes).callbacks =
      outcomes.flatMap (callbacksOf leftover) := hcallbacks
  rw [Robust, hwrites, hcallbacks, callbacks_eq_iff]
  constructor
  · rintro ⟨hin, hcarried⟩ outcome ho
    refine (harmless_iff leftover outcome).mp ⟨fun i hi => ?_, hcarried outcome ho⟩
    exact hin i (List.mem_flatMap.mpr ⟨outcome, ho, hi⟩)
  · intro h
    have hround := fun outcome ho => (harmless_iff leftover outcome).mpr (h outcome ho)
    refine ⟨fun i hi => ?_, fun outcome ho => (hround outcome ho).2⟩
    obtain ⟨outcome, ho, hi⟩ := List.mem_flatMap.mp hi
    exact (hround outcome ho).1 i hi

/-- A second without heartbeats: the loop writes before its array. -/
theorem not_robust_timeout :
    ¬ (ThreadFunc id (fun _ calls => calls + 1) (fun _ => {}) 0 [.failed]).Robust [.failed] := by
  intro h
  have hwrite : (0 : Int) ≤ -1 := (h.1 (-1) (List.mem_singleton.mpr rfl)).1
  exact absurd hwrite (by decide)

end HeartbeatThreadState

namespace SRCServer

/-- What a round of the thread is to the server: a tick, and a heartbeat for each callback. -/
def eventsOf (leftover : Bytes → HeartbeatMessage) (outcome : RecvOutcome) : List Event :=
  .tick :: (HeartbeatThreadState.callbacksOf leftover outcome).map .heartbeat

/-- The thread does to the server what a run of ticks and heartbeats does. -/
theorem world_ThreadFunc (env : Environment) (leftover : Bytes → HeartbeatMessage)
    (s : SRCServer) (outcomes : List RecvOutcome) :
    (HeartbeatThreadState.ThreadFunc (tick env) (fun id s => s.onUDPMessage env id) leftover s
        outcomes).world = (outcomes.flatMap (eventsOf leftover)).foldl (step env) s := by
  suffices h : ∀ t : HeartbeatThreadState SRCServer,
      (outcomes.foldl (HeartbeatThreadState.round (tick env)
          (fun id s => s.onUDPMessage env id) leftover) t).world =
        (outcomes.flatMap (eventsOf leftover)).foldl (step env) t.world from h _
  induction outcomes with
  | nil => intro t; rfl
  | cons outcome outcomes ih =>
      intro t
      obtain ⟨-, -, hworld⟩ := HeartbeatThreadState.round_spec (tick env)
        (fun id s => s.onUDPMessage env id) leftover t outcome
      rw [List.foldl_cons, ih, hworld, List.flatMap_cons, List.foldl_append, eventsOf,
        List.foldl_cons, List.foldl_map]
      rfl

end SRCServer

end RegistrationCenter
