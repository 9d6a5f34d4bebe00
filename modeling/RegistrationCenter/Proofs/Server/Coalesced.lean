import RegistrationCenter.Proofs.Server.Reads

/-!
# `RegistrationCenter.Proofs.Server.Coalesced`: several requests in one read

A client that does not wait for the response can have several requests in one read of the
server. The parser does not see where one request ends and the next one begins. It reads on, and
what it makes of the bytes is one request: the type is the last one that is written, and the
parameters are the last ones that are (`WrappedRequest.merge`). So the server answers each read
as if the merge of its requests had come alone: `served_groups`. A request that has a type and
parameters hides all that come before it in its read, and none of those is answered.
-/

set_option autoImplicit false

namespace RegistrationCenter

open Lib Lib.Wire

namespace WrappedRequest

/-- The two requests in one: what the second one writes counts. -/
def merge (m n : WrappedRequest) : WrappedRequest where
  requestType :=
    if n.requestType = .Nothing_MessageType then m.requestType else n.requestType
  requestParameters := if n.requestParameters = [] then m.requestParameters else n.requestParameters

/-- The requests of one read in one. -/
def mergeAll (requests : List WrappedRequest) : WrappedRequest := requests.foldl merge {}

/-- The request writes its type and its parameters. -/
def Complete (m : WrappedRequest) : Prop :=
  m.requestType ≠ .Nothing_MessageType ∧ m.requestParameters ≠ []

theorem merge_of_complete {n : WrappedRequest} (hn : n.Complete) (m : WrappedRequest) :
    m.merge n = n := by
  rw [merge, if_neg hn.1, if_neg hn.2]

/-- A complete request hides those before it. -/
theorem mergeAll_append_cons {n : WrappedRequest} (hn : n.Complete)
    (before after : List WrappedRequest) :
    mergeAll (before ++ n :: after) = after.foldl merge n := by
  rw [mergeAll, List.foldl_append, List.foldl_cons, merge_of_complete hn]

/-- Only one type is written as zero. -/
theorem int32ToVarint_type_eq_zero (t : MessageType) :
    int32ToVarint t.toInt32 = 0 ↔ t = .Nothing_MessageType := by
  constructor
  · intro hzero
    have hinv := messageType_inv t
    rw [hzero] at hinv
    exact hinv.symm
  · rintro rfl
    rfl

/-- The fields of a request, read into one that is there already. -/
theorem foldlM_toFields (m n : WrappedRequest) :
    (Message.toFields n).foldlM Message.setField m = some (m.merge n) := by
  have htype : (varintField 1 (int32ToVarint n.requestType.toInt32)).foldlM Message.setField m =
      some { m with requestType :=
        if n.requestType = .Nothing_MessageType then m.requestType else n.requestType } := by
    rw [varintField]
    by_cases hnothing : n.requestType = .Nothing_MessageType
    · rw [if_pos ((int32ToVarint_type_eq_zero _).mpr hnothing), if_pos hnothing]
      rfl
    · rw [if_neg (mt (int32ToVarint_type_eq_zero _).mp hnothing), if_neg hnothing]
      show some { m with requestType := .ofInt32 (varintToInt32 _) } = _
      rw [messageType_inv]
  refine readsBack_append htype ?_
  rw [bytesField, merge]
  by_cases hnil : n.requestParameters = []
  · rw [if_pos hnil, if_pos hnil]
    rfl
  · rw [if_neg hnil, if_neg hnil]
    rfl

/-- The fields of all requests, one after another. -/
theorem foldlM_flatMap (requests : List WrappedRequest) : ∀ m : WrappedRequest,
    (requests.flatMap Message.toFields).foldlM Message.setField m =
      some (requests.foldl merge m) := by
  induction requests with
  | nil => intro m; rfl
  | cons n requests ih =>
      intro m
      rw [List.flatMap_cons, List.foldl_cons]
      exact readsBack_append (foldlM_toFields m n) (ih _)

/-- Requests that protobuf can carry, read as one. -/
theorem parse_concat {requests : List WrappedRequest}
    (hrequests : ∀ m ∈ requests, m.requestParameters.length ≤ maxSize ∧
      (encoded m).length ≤ 2 ^ 31 - 1) :
    ParseFromString WrappedRequest (requests.flatMap SerializeAsString) =
      some (mergeAll requests) := by
  have hbytes : requests.flatMap SerializeAsString =
      encodeFields (requests.flatMap Message.toFields) := by
    rw [encodeFields, List.flatMap_assoc]
    refine List.flatMap_congr fun m hm => ?_
    rw [serialize_eq_encoded (hrequests m hm).2]
    rfl
  have hfields : ∀ f ∈ requests.flatMap Message.toFields, Encodable f := by
    intro f hf
    obtain ⟨m, hm, hf⟩ := List.mem_flatMap.mp hf
    exact WrappedRequest.encodable (hrequests m hm).1 f hf
  rw [ParseFromString, hbytes, parseFields_encodeFields hfields]
  exact foldlM_flatMap requests {}

end WrappedRequest

namespace ServedConnection

/-- The bytes of each group of requests, handled as the merge of the group. -/
theorem serveEach_groups (env : Environment) (peerAddress : InetAddress)
    (groups : List (List WrappedRequest)) :
    (∀ group ∈ groups, ∀ m ∈ group, m.requestParameters.length ≤ maxSize ∧
      (encoded m).length ≤ 2 ^ 31 - 1) →
      ∀ s : SRCServer, serveEach env peerAddress s
          (groups.map fun group => group.flatMap SerializeAsString) =
        handleEach env peerAddress s (groups.map WrappedRequest.mergeAll) := by
  induction groups with
  | nil => intro _ s; rfl
  | cons group groups ih =>
      intro hgroups s
      obtain ⟨hgroup, hrest⟩ := List.forall_mem_cons.mp hgroups
      have hdata : s.onData env peerAddress (group.flatMap SerializeAsString) =
          s.onRequest env peerAddress (WrappedRequest.mergeAll group) := by
        rw [SRCServer.onData, WrappedRequest.parse_concat hgroup]
      simp only [List.map_cons, serveEach, handleEach, hdata, ih hrest]

/-- When each read brings some whole requests, any number of them, the responses and the server
are those of the handling of the merge of each group, one group at a time. So there is one
response for each read, and in each read a complete request hides all those before it. -/
theorem served_groups (env : Environment) (peerAddress : InetAddress) (s : SRCServer)
    (groups : List (List WrappedRequest))
    (hgroups : ∀ group ∈ groups, ∀ m ∈ group, m.requestParameters.length ≤ maxSize ∧
      (encoded m).length ≤ 2 ^ 31 - 1)
    (hreads : StepsMeet (read env peerAddress) IsRead (established s)
      (groups.map fun group => group.flatMap SerializeAsString)) :
    let c := (groups.map fun group => group.flatMap SerializeAsString).foldl
      (read env peerAddress) (established s)
    c.m_inputBuffer.readable = [] ∧ c.responses.length = groups.length ∧
      (c.responses, c.server) =
        handleEach env peerAddress s (groups.map WrappedRequest.mergeAll) ∧
      ∀ before after n, before ++ n :: after ∈ groups → n.Complete →
        WrappedRequest.mergeAll (before ++ n :: after) = after.foldl WrappedRequest.merge n := by
  intro c
  obtain ⟨hempty, hresponses, hserver⟩ := foldl_read env peerAddress
    (groups.map fun group => group.flatMap SerializeAsString) (established s) Buffer.valid_new
    Buffer.readable_new hreads
  have heach : (c.responses, c.server) = serveEach env peerAddress s
      (groups.map fun group => group.flatMap SerializeAsString) := Prod.ext hresponses hserver
  have hlength : c.responses.length = groups.length := by
    have hone := congrArg (fun r => r.1.length) heach
    rw [length_serveEach, List.length_map] at hone
    exact hone
  refine ⟨hempty, hlength, ?_, fun before after n _ hn =>
    WrappedRequest.mergeAll_append_cons hn before after⟩
  rw [heach, serveEach_groups env peerAddress groups hgroups]

/-- A request to open a session, and one for a service whose parameters do not parse. -/
def badService : WrappedRequest := { requestType := .Service, requestParameters := [255] }

/-- The two requests in one read, and one of them again in the next one: the first one opens no
session. -/
theorem served_groups_two :
    let c := ([[openSession, badService], [openSession]].map fun group =>
      group.flatMap SerializeAsString).foldl (read counting client) (established (.init 12000 5))
    (c.responses, c.server) =
      handleEach counting client (.init 12000 5) [badService, openSession] := by
  have hreads : StepsMeet (read counting client) IsRead (established (.init 12000 5))
      ([[openSession, badService], [openSession]].map fun group =>
        group.flatMap SerializeAsString) :=
    ⟨isRead_of_length_le _ (by decide) (by decide),
      isRead_of_length_le _ (by decide) (by decide), trivial⟩
  exact (served_groups counting client (.init 12000 5) [[openSession, badService], [openSession]]
    (by decide) hreads).2.2.1

end ServedConnection

end RegistrationCenter
