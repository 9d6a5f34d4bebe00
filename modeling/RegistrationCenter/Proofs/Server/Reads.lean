import RegistrationCenter.Proofs.Messages
import RegistrationCenter.Proofs.Server.Requests
import RegistrationCenter.Spec.Tcp.TcpConnection

/-!
# `RegistrationCenter.Proofs.Server.Reads`: one request in each read

There are no message boundaries on a connection. `onMessage` takes all that waits in the
input buffer for one request. So what counts as a request is what one `readFd` brings:
each read is answered with one response, and no byte is kept for the next. `served_reads`
says so for every sequence of reads. When each read brings exactly one request, this is
what the handling of the requests one at a time gives. When two requests come in one read,
or one request in two, it is not.
-/

set_option autoImplicit false

namespace RegistrationCenter

open Lib Lib.Wire

/-- A connection that the server serves: its input buffer, the server, and the responses
sent on it so far. -/
structure ServedConnection where
  m_inputBuffer : Buffer
  server : SRCServer
  responses : List Bytes

namespace ServedConnection

variable {c : ServedConnection}

def established (s : SRCServer) : ServedConnection :=
  { m_inputBuffer := .new, server := s, responses := [] }

/-- The message callback of the server's connections. -/
def messageCallback (env : Environment) (peerAddress : InetAddress) (buffer : Buffer)
    (w : SRCServer × List Bytes) : Buffer × SRCServer × List Bytes :=
  let (resp, buffer', s') := w.1.onMessage env peerAddress buffer
  (buffer', s', w.2 ++ [resp])

/-- `handleRead` when these bytes have arrived. Bytes that arrive never fail. -/
def read (env : Environment) (peerAddress : InetAddress) (c : ServedConnection)
    (incoming : Bytes) : ServedConnection :=
  match TcpConnection.handleRead (messageCallback env peerAddress) id id c.m_inputBuffer
      (.arrived incoming) (c.server, c.responses) with
  | none => c
  | some (buffer, server, responses) =>
      { m_inputBuffer := buffer, server := server, responses := responses }

/-- The bytes are what one `readFd` can bring: there are some, no more than it has room for,
and `ssize_t` holds their number. -/
def IsRead (c : ServedConnection) (chunk : Bytes) : Prop :=
  chunk ≠ [] ∧ chunk.length ≤ c.m_inputBuffer.readCapacity ∧ chunk.length < 2 ^ 63

/-- The handling of pieces of data one at a time. -/
def serveEach (env : Environment) (peerAddress : InetAddress) :
    SRCServer → List Bytes → List Bytes × SRCServer
  | s, [] => ([], s)
  | s, data :: rest =>
      let (resp, s') := s.onData env peerAddress data
      let (responses, s'') := serveEach env peerAddress s' rest
      (SerializeAsString resp :: responses, s'')

/-- The handling of requests one at a time. -/
def handleEach (env : Environment) (peerAddress : InetAddress) :
    SRCServer → List WrappedRequest → List Bytes × SRCServer
  | s, [] => ([], s)
  | s, request :: rest =>
      let (resp, s') := s.onRequest env peerAddress request
      let (responses, s'') := handleEach env peerAddress s' rest
      (SerializeAsString resp :: responses, s'')

/-- A read is answered with one response, as if its bytes were all there is. -/
theorem read_spec (env : Environment) (peerAddress : InetAddress) {chunk : Bytes}
    (hvalid : c.m_inputBuffer.Valid) (hempty : c.m_inputBuffer.readable = [])
    (hread : c.IsRead chunk) :
    let c' := c.read env peerAddress chunk
    let served := c.server.onData env peerAddress chunk
    c'.m_inputBuffer.Valid ∧ c'.m_inputBuffer.readable = [] ∧ c'.server = served.2 ∧
      c'.responses = c.responses ++ [SerializeAsString served.1] := by
  obtain ⟨hne, hcapacity, hlen⟩ := hread
  obtain ⟨b, hfd, hb, hbytes⟩ := hvalid.readFd chunk
  have hall := Buffer.readv_of_length_le hcapacity hlen
  rw [hempty, List.nil_append, hall] at hbytes
  -- The result of `readFd` is positive, so the message callback runs.
  have hpos : (0 : UInt64) < (c.m_inputBuffer.readv (.arrived chunk)).2 := by
    have hsome := List.length_pos_iff.mpr hne
    rw [UInt64.lt_iff_toNat_lt, UInt64.toNat_zero, (Buffer.readv_arrived ..).1, hall]
    exact hsome
  have hmessage := c.server.onMessage_eq env peerAddress b
  rw [hbytes] at hmessage
  have hc' : c.read env peerAddress chunk =
      { m_inputBuffer := b.retrieveAllAsString.2
        server := (c.server.onData env peerAddress chunk).2
        responses := c.responses ++
          [SerializeAsString (c.server.onData env peerAddress chunk).1] } := by
    rw [read, TcpConnection.handleRead, hfd]
    simp only [gt_iff_lt, if_pos hpos, messageCallback, hmessage]
  rw [hc']
  exact ⟨hb.retrieveAllAsString.2.1, hb.retrieveAllAsString.2.2, rfl, rfl⟩

/-- The reads are served one by one. -/
theorem foldl_read (env : Environment) (peerAddress : InetAddress) :
    ∀ (chunks : List Bytes) (c : ServedConnection), c.m_inputBuffer.Valid →
      c.m_inputBuffer.readable = [] → StepsMeet (read env peerAddress) IsRead c chunks →
      (chunks.foldl (read env peerAddress) c).m_inputBuffer.readable = [] ∧
        (chunks.foldl (read env peerAddress) c).responses =
          c.responses ++ (serveEach env peerAddress c.server chunks).1 ∧
        (chunks.foldl (read env peerAddress) c).server =
          (serveEach env peerAddress c.server chunks).2 := by
  intro chunks
  -- The induction is on the reads; the buffer is empty between two of them.
  induction chunks with
  | nil => intro c _ hempty _; exact ⟨hempty, (List.append_nil _).symm, rfl⟩
  | cons chunk chunks ih =>
      intro c hvalid hempty hreads
      obtain ⟨hvalid', hempty', hserver, hresponses⟩ :=
        read_spec env peerAddress hvalid hempty hreads.1
      obtain ⟨hend, hall, hlast⟩ := ih _ hvalid' hempty' hreads.2
      rw [hresponses, hserver, List.append_assoc] at hall
      rw [hserver] at hlast
      exact ⟨hend, hall, hlast⟩

/-- There is one response for each piece of data. -/
theorem length_serveEach (env : Environment) (peerAddress : InetAddress) (chunks : List Bytes) :
    ∀ s : SRCServer, (serveEach env peerAddress s chunks).1.length = chunks.length := by
  induction chunks with
  | nil => intro s; rfl
  | cons data chunks ih =>
      intro s
      exact congrArg (· + 1) (ih (s.onData env peerAddress data).2)

/-- Data that are the bytes of requests are handled as these requests. -/
theorem serveEach_serialize (env : Environment) (peerAddress : InetAddress)
    (requests : List WrappedRequest) :
    (∀ m ∈ requests, m.requestParameters.length ≤ maxSize ∧ SerializeAsString m ≠ []) →
      ∀ s : SRCServer, serveEach env peerAddress s (requests.map SerializeAsString) =
        handleEach env peerAddress s requests := by
  induction requests with
  | nil => intro _ s; rfl
  | cons request requests ih =>
      intro hrequests s
      obtain ⟨⟨hlen, hne⟩, hrest⟩ := List.forall_mem_cons.mp hrequests
      -- The bytes of a request parse as this request.
      have hdata : s.onData env peerAddress (SerializeAsString request) =
          s.onRequest env peerAddress request := by
        rw [SRCServer.onData, WrappedRequest.parse_serialize_self hlen hne]
      simp only [List.map_cons, serveEach, handleEach, hdata, ih hrest]

/-- The chunks of a run of reads are not empty. -/
theorem ne_nil_of_stepsMeet (env : Environment) (peerAddress : InetAddress) :
    ∀ (chunks : List Bytes) (c : ServedConnection),
      StepsMeet (read env peerAddress) IsRead c chunks → ∀ chunk ∈ chunks, chunk ≠ [] := by
  intro chunks
  induction chunks with
  | nil => intro c _ chunk hchunk; exact absurd hchunk List.not_mem_nil
  | cons chunk chunks ih =>
      intro c hreads
      exact List.forall_mem_cons.mpr ⟨hreads.1.1, ih _ hreads.2⟩

/-- Each read is served on its own: one response, and no byte is carried over. When each read
brings the bytes of one request, the responses and the server are those of the handling of
the requests one at a time. -/
theorem served_reads (env : Environment) (peerAddress : InetAddress) (s : SRCServer)
    (chunks : List Bytes)
    (hreads : StepsMeet (read env peerAddress) IsRead (established s) chunks) :
    let c := chunks.foldl (read env peerAddress) (established s)
    c.m_inputBuffer.readable = [] ∧ c.responses.length = chunks.length ∧
      (c.responses, c.server) = serveEach env peerAddress s chunks ∧
      ∀ requests : List WrappedRequest, (∀ m ∈ requests, m.requestParameters.length ≤ maxSize) →
        chunks = requests.map SerializeAsString →
          (c.responses, c.server) = handleEach env peerAddress s requests := by
  intro c
  obtain ⟨hempty, hresponses, hserver⟩ :=
    foldl_read env peerAddress chunks (established s) Buffer.valid_new Buffer.readable_new hreads
  have hresponses : c.responses = (serveEach env peerAddress s chunks).1 := hresponses
  have heach : (c.responses, c.server) = serveEach env peerAddress s chunks :=
    Prod.ext hresponses hserver
  refine ⟨hempty, ?_, heach, fun requests hlen hchunks => ?_⟩
  · rw [hresponses, length_serveEach]
  · rw [heach, hchunks]
    refine serveEach_serialize env peerAddress requests (fun m hm => ⟨hlen m hm, ?_⟩) s
    have hne := ne_nil_of_stepsMeet env peerAddress chunks (established s) hreads
    exact hne (SerializeAsString m) (hchunks ▸ List.mem_map_of_mem hm)

/-- A request to open a session. -/
def openSession : WrappedRequest := { requestType := .Connection }

/-- The client of the examples, and what the server takes from outside. -/
def client : InetAddress := { octets := (127, 0, 0, 1), port := 4000 }

def counting : Environment :=
  { now := fun _ => 0, generateSessionId := fun k => UInt64.ofNat (k + 1) }

/-- Some bytes that fit into the side buffer can be read on any connection. -/
theorem isRead_of_length_le (c : ServedConnection) {chunk : Bytes} (hne : chunk ≠ [])
    (hlen : chunk.length ≤ Buffer.extraSize) : c.IsRead chunk := by
  refine ⟨hne, le_trans hlen (Buffer.extraSize_le_readCapacity _), ?_⟩
  unfold Buffer.extraSize at hlen
  omega

/-- Two requests in two reads. -/
theorem served_reads_two :
    let c := ([openSession, openSession].map SerializeAsString).foldl (read counting client)
      (established (.init 12000 5))
    (c.responses, c.server) =
      handleEach counting client (.init 12000 5) [openSession, openSession] := by
  have hreads : StepsMeet (read counting client) IsRead (established (.init 12000 5))
      ([openSession, openSession].map SerializeAsString) :=
    ⟨isRead_of_length_le _ (by decide) (by decide),
      isRead_of_length_le _ (by decide) (by decide), trivial⟩
  exact (served_reads counting client (.init 12000 5) _ hreads).2.2.2
    [openSession, openSession] (by decide) rfl

/-- The cut of the stream does not matter: whatever reads bring the bytes of the requests, the
responses and the server are those of the handling of the requests one at a time. -/
def CutIndependent (env : Environment) (peerAddress : InetAddress) (s : SRCServer)
    (requests : List WrappedRequest) (chunks : List Bytes) : Prop :=
  chunks.flatten = (requests.map SerializeAsString).flatten →
    StepsMeet (read env peerAddress) IsRead (established s) chunks →
      let c := chunks.foldl (read env peerAddress) (established s)
      (c.responses, c.server) = handleEach env peerAddress s requests

/-- Two requests in one read get one response. -/
theorem not_cutIndependent_merged :
    ¬ CutIndependent counting client (.init 12000 5) [openSession, openSession]
      [SerializeAsString openSession ++ SerializeAsString openSession] := by
  intro h
  have hreads : StepsMeet (read counting client) IsRead (established (.init 12000 5))
      [SerializeAsString openSession ++ SerializeAsString openSession] :=
    ⟨isRead_of_length_le _ (by decide) (by decide), trivial⟩
  have hsame := congrArg (fun r => r.1.length) (h (by decide) hreads)
  have hone := (foldl_read counting client _ _ Buffer.valid_new Buffer.readable_new hreads).2.1
  simp only [hone] at hsame
  rw [List.length_append, length_serveEach] at hsame
  exact absurd hsame (by decide)

end ServedConnection

end RegistrationCenter
