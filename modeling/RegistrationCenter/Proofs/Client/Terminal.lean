import RegistrationCenter.Spec.ClientCli
import RegistrationCenter.Proofs.Client.Calls
import RegistrationCenter.Proofs.Server.Registry

/-!
# `RegistrationCenter.Proofs.Client.Terminal`: what the terminal shows

`Terminal` is what the command line of a client is for: a registry behind it, and the two things
that it keeps between lines, the operation and the base of the numbers. `Terminal.Next` says what
a line does to the registry and what is printed, with no client, message or server in it. A line
is a step of its own, and between two lines the registry takes any steps of others. A call that is
refused has a line of the log before its output, with the reason (`ClientCall.warning`).

`Console` is the program: the loop of `run` with its client, and the server. Each of its steps is
one of the terminal, when the messages of the calls fit (`next_terminal`). So each of its runs is
one of the terminal, with the same output, and no line ends the process:
`console_refines_terminal`.
-/

set_option autoImplicit false

namespace RegistrationCenter

open Lib

open Services (splitPath)

/-! ## A call and the registry -/

namespace ClientCall

/-- The request of a client with this session. -/
def request (sessionId : UInt64) : ClientCall → Request
  | .createNode path data type => .createNode sessionId path data (.ofInt32 type)
  | .getNode path => .getNode path
  | .setNode path data => .setNode path data
  | .deleteNode path => .deleteNode path
  | .lsNode path => .lsNode path
  | .statNode path => .statNode path
  | .existsNode path => .existsNode path

/-- What a call returns when the nodes are these. It is open what is returned for the existence
of a path that the server rejects, and in which order the children come. -/
def Returns (A : NodeMap) : ClientCall → ClientResult → Prop
  | .createNode path _ _, .flag res => res = true ↔ A.CanCreate (splitPath path)
  | .getNode path, .data res => res = ((A (splitPath path)).map Entry.data).getD []
  | .setNode path _, .flag res => res = true ↔ (A (splitPath path)).isSome
  | .deleteNode path, .flag res =>
      res = true ↔ 2 ≤ (splitPath path).length ∧ (A (splitPath path)).isSome
  | .lsNode path, .children res =>
      (A (splitPath path) = none → res = []) ∧
        ((A (splitPath path)).isSome → res.Nodup ∧
          { n | n ∈ res } = A.childNames (splitPath path))
  | .statNode path, .state res =>
      (A (splitPath path) = none → res = {}) ∧
        ∀ e, A (splitPath path) = some e → res.ephemeralOwner = e.owner ∧ res.NodeType = e.type ∧
          (e.data.length < 2 ^ 31 → res.dataLength.toInt = e.data.length) ∧
          ((A.childNames (splitPath path)).ncard < 2 ^ 31 →
            res.numChildren.toInt = (A.childNames (splitPath path)).ncard)
  | .existsNode path, .flag res =>
      splitPath path ≠ [] → (res = true ↔ (A (splitPath path)).isSome)
  | _, _ => False

/-- What a call logs when the nodes are these, none when it logs nothing. -/
def warning (sessionId : UInt64) (A : NodeMap) (call : ClientCall) : Option Bytes :=
  (A.reason (call.request sessionId)).map (Logger.snprintf call.format)

section
variable {s : Services} (hs : s.WellFormed) (sessionId : UInt64) (uninit : Bool)

include hs

/-- What a call logs follows from the nodes. -/
theorem warning_returned (call : ClientCall) :
    (call.returned sessionId uninit s).1.2 = call.warning sessionId s.tree := by
  rw [warning, ← Services.failure_perform hs]
  cases call with
  | createNode path data type => rw [returned, Prod.map_snd, id, SRCCLient.orWarn_snd]; rfl
  | getNode path => rw [returned, Prod.map_snd, id, SRCCLient.orWarn_snd]; rfl
  | setNode path data => rw [returned, Prod.map_snd, id, SRCCLient.orWarn_snd]; rfl
  | deleteNode path => rw [returned, Prod.map_snd, id, SRCCLient.orWarn_snd]; rfl
  | lsNode path => rw [returned, Prod.map_snd, id, SRCCLient.orWarn_snd]; rfl
  | statNode path => rw [returned, Prod.map_snd, id, SRCCLient.orWarn_snd]; rfl
  | existsNode path => rw [returned, Prod.map_snd, id, SRCCLient.orWarn_snd]; rfl

/-- What a call returns is right for the nodes. -/
theorem returns_returned (call : ClientCall) :
    call.Returns s.tree (call.returned sessionId uninit s).1.1 := by
  obtain ⟨hanswers, -, -⟩ := Services.simulates_perform (A := s.tree) ⟨hs, rfl⟩
    (call.request sessionId)
  cases call with
  | createNode path data type =>
      rw [returned, Prod.map_fst, SRCCLient.orWarn_flag]
      exact hanswers
  | setNode path data =>
      rw [returned, Prod.map_fst, SRCCLient.orWarn_flag]
      exact hanswers
  | deleteNode path =>
      rw [returned, Prod.map_fst, SRCCLient.orWarn_flag]
      exact hanswers
  | getNode path =>
      rw [returned, Prod.map_fst, SRCCLient.orWarn_fst]
      obtain ⟨hsuccess, hdata⟩ := hanswers
      show (if (s.getNode path).success then (s.getNode path).nodeData else []) = _
      cases hnode : s.tree (splitPath path) with
      | none =>
          rw [hnode] at hsuccess
          exact if_neg fun h => Bool.false_ne_true (hsuccess.mp h)
      | some e => rw [if_pos (hsuccess.mpr (by rw [hnode]; rfl)), hdata e hnode]; rfl
  | lsNode path =>
      rw [returned, Prod.map_fst, SRCCLient.orWarn_fst]
      constructor
      · intro hnone
        refine if_neg fun h => ?_
        rw [hanswers.1, hnone] at h
        cases h
      · intro hsome
        rw [if_pos (hanswers.1.mpr hsome)]
        exact hanswers.2 hsome
  | statNode path =>
      rw [returned, Prod.map_fst, SRCCLient.orWarn_fst]
      constructor
      · intro hnone
        refine if_neg fun h => ?_
        rw [hanswers.1, hnone] at h
        cases h
      · intro e he
        obtain ⟨state, hstate, hfields⟩ := hanswers.2 e he
        rw [if_pos (hanswers.1.mpr (by rw [he]; rfl)), hstate]
        exact hfields
  | existsNode path =>
      rw [returned, Prod.map_fst, SRCCLient.orWarn_fst]
      intro hpath
      rw [if_pos (hanswers.1.mpr hpath)]
      exact hanswers.2

end

theorem returned_snd (sessionId : UInt64) (uninit : Bool) (s : Services) (call : ClientCall) :
    (call.returned sessionId uninit s).2 = (s.perform (call.request sessionId)).2 := by
  cases call with
  | createNode path data type => rfl
  | getNode path => rfl
  | setNode path data => rfl
  | deleteNode path => rfl
  | lsNode path => rfl
  | statNode path => rfl
  | existsNode path => rfl

/-- A call of a client that is answered by a server in the state `s`. -/
theorem returns_call (env : Environment) (peerAddress : InetAddress) {c : SRCCLient}
    {s : SRCServer} (hs : s.services.WellFormed) (call : ClientCall)
    (hcarried : call.Carried c s.services) (uninit : Bool) (leftover : WrappedResponse) :
    ∃ result, c.callLogged (s.answer env peerAddress) leftover uninit call =
        (some (result, call.warning c.m_sessionId s.services.tree), { s with
          services := (s.services.perform (call.request c.m_sessionId)).2 }) ∧
      call.Returns s.services.tree result := by
  refine ⟨(call.returned c.m_sessionId uninit s.services).1.1, ?_,
    returns_returned hs c.m_sessionId uninit call⟩
  rw [callLogged_answer env peerAddress call hcarried, returned_snd,
    ← warning_returned hs c.m_sessionId uninit call]

end ClientCall

/-! ## The terminal -/

namespace ClientCli

/-- The operation of a line, and what comes after it. A line without a word has the operation
of the line before. -/
def readOp (op line : Bytes) : Bytes × Bytes := (extractWord line).getD (op, [])

/-- The call that an operation makes with what is left of its line. -/
def parseCall (op ss : Bytes) : Option ClientCall :=
  let (path, ss₁) := extractString ss
  let (data, ss₂) := extractString ss₁
  let number := extractInt ss₂ 1
  if op = bytes "create" then
    some (.createNode path data (if number = 0 then 1 else number))
  else if op = bytes "get" then some (.getNode path)
  else if op = bytes "set" then some (.setNode path data)
  else if op = bytes "delete" then some (.deleteNode path)
  else if op = bytes "ls" then some (.lsNode path)
  else if op = bytes "stat" then some (.statNode path)
  else if op = bytes "exists" then some (.existsNode path)
  else none

/-- What is printed for the result of a call, and the base of the numbers after that. -/
def render (hex : Bool) : ClientCall → ClientResult → Bytes × Bool
  | .createNode _ _ _, .flag res =>
      (if res then bytes "create success\n" else bytes "create error\n", hex)
  | .getNode _, .data res => (res ++ bytes "\n", hex)
  | .setNode _ _, .flag res => (if res then bytes "set success\n" else bytes "set error\n", hex)
  | .deleteNode _, .flag res => (if res then bytes "set success\n" else bytes "set error\n", hex)
  | .lsNode _, .children res => (bytes "[" ++ printChildren res ++ bytes "]\n", hex)
  | .statNode _, .state res =>
      (bytes "nodeType: " ++ printInt hex res.NodeType.toInt32 ++ bytes "\n" ++
        bytes "dataLength: " ++ printInt false res.dataLength ++ bytes "\n" ++
        bytes "numChildren: " ++ printInt false res.numChildren ++ bytes "\n" ++
        bytes "ephemeralOwner: " ++ printHex res.ephemeralOwner ++ bytes "\n\n", true)
  | .existsNode _, .flag res => (if res then bytes "exists\n" else bytes "not exists\n", hex)
  | _, _ => ([], hex)

/-- A branch of `run` prints what its call logs and returns. -/
theorem branch_eq {α β σ : Type} (r : Option (α × Option Bytes) × σ) (f : α → β)
    (g : β → Option Bytes → Bytes × Bool) :
    (r.1.map fun out => g (f out.1) out.2, r.2) =
      ((r.map (Option.map (Prod.map f id)) id).1.map fun out => g out.1 out.2,
        (r.map (Option.map (Prod.map f id)) id).2) := by
  rw [Prod.map_fst, Prod.map_snd, Option.map_map]
  rfl

/-- What is printed for a call, and the base of the numbers after that. -/
def shown (time : Bytes) (hex : Bool) (call : ClientCall) (result : ClientResult)
    (warning : Option Bytes) : Bytes × Bool :=
  (logged time warning ++ (render hex call result).1, (render hex call result).2)

/-- Each branch of `run` makes the call that the line says, and prints what it logs and returns. -/
theorem command_eq {σ : Type} (client : SRCCLient) (exchange : Bytes → Bytes × σ)
    (leftover : WrappedResponse) (uninit : Bool) (time : Bytes) (hex : Bool) (op ss : Bytes) :
    command client exchange leftover uninit time hex op ss = (parseCall op ss).map fun call =>
      let (res, server) := client.callLogged exchange leftover uninit call
      (res.map fun (result, warning) => shown time hex call result warning, server) := by
  rw [command, parseCall]
  rcases extractString ss with ⟨path, ss₁⟩
  rcases hdata : extractString ss₁ with ⟨data, ss₂⟩
  simp only [hdata]
  generalize (if extractInt ss₂ 1 = 0 then 1 else extractInt ss₂ 1) = type
  split_ifs with hcreate hget hset hdelete hls hstat hexists
  · exact congrArg some (branch_eq (client.createNode exchange leftover path data type)
      ClientResult.flag (shown time hex (.createNode path data type)))
  · exact congrArg some (branch_eq (client.getNode exchange leftover path)
      ClientResult.data (shown time hex (.getNode path)))
  · exact congrArg some (branch_eq (client.setNode exchange leftover path data)
      ClientResult.flag (shown time hex (.setNode path data)))
  · exact congrArg some (branch_eq (client.deleteNode exchange leftover path)
      ClientResult.flag (shown time hex (.deleteNode path)))
  · exact congrArg some (branch_eq (client.lsNode exchange leftover path)
      ClientResult.children (shown time hex (.lsNode path)))
  · exact congrArg some (branch_eq (client.statNode exchange leftover path)
      ClientResult.state (shown time hex (.statNode path)))
  · exact congrArg some (branch_eq (client.existsNode exchange leftover uninit path)
      ClientResult.flag (shown time hex (.existsNode path)))
  · rfl

section
variable {σ : Type} (cli : ClientCli) (exchange : σ → Bytes → Bytes × σ)
  (leftover : WrappedResponse) (uninit : Bool) (time : Bytes) (server : σ) {line : Bytes}

/-- A line that makes no call. -/
theorem readLine_invalid
    (hcall : parseCall (readOp cli.op line).1 (readOp cli.op line).2 = none) :
    cli.readLine exchange leftover uninit time server line =
      (some (bytes "invalid operation\n", { cli with op := (readOp cli.op line).1 }), server) := by
  rw [readLine, ← readOp]
  rcases hword : readOp cli.op line with ⟨op, ss⟩
  rw [hword] at hcall
  simp only [command_eq, hcall, Option.map_none]

/-- A line that makes a call. -/
theorem readLine_call {call : ClientCall} {result : ClientResult} {warning : Option Bytes}
    {server' : σ}
    (hcall : parseCall (readOp cli.op line).1 (readOp cli.op line).2 = some call)
    (hresult : cli.client.callLogged (exchange server) leftover uninit call =
      (some (result, warning), server')) :
    cli.readLine exchange leftover uninit time server line =
      (some ((shown time cli.hex call result warning).1 ++ prompt,
        { cli with
          op := (readOp cli.op line).1
          hex := (shown time cli.hex call result warning).2 }), server') := by
  rw [readLine, ← readOp]
  rcases hword : readOp cli.op line with ⟨op, ss⟩
  rw [hword] at hcall
  simp only [command_eq, hcall, Option.map_some, hresult]

end

end ClientCli

/-- A registry, and what its terminal keeps between two lines. -/
structure Terminal where
  registry : Registry
  op : Bytes
  hex : Bool

namespace Terminal

open ClientCli

/-- What is seen of a step: a line, the time that the log has for it and its output, or a step of
others. -/
inductive Label
  | line (line time output : Bytes)
  | others (l : Registry.Label)

/-- A step of the registry with the terminal of a session. -/
inductive Next (period limit : Int) (sessionId : UInt64) (t : Terminal) : Label → Terminal → Prop
  | invalid (line time : Bytes)
      (hinvalid : parseCall (readOp t.op line).1 (readOp t.op line).2 = none) :
      Next period limit sessionId t (.line line time (bytes "invalid operation\n"))
        { t with op := (readOp t.op line).1 }
  | call (line time : Bytes) (call : ClientCall) (result : ClientResult)
      (hcall : parseCall (readOp t.op line).1 (readOp t.op line).2 = some call)
      (hreturns : call.Returns t.registry.nodes result) :
      Next period limit sessionId t
        (.line line time
          (logged time (call.warning sessionId t.registry.nodes) ++
            (render t.hex call result).1 ++ prompt))
        { registry := { t.registry with nodes := t.registry.nodes.next (call.request sessionId) }
          op := (readOp t.op line).1
          hex := (render t.hex call result).2 }
  | others (l : Registry.Label) (registry : Registry)
      (hnext : t.registry.Next period limit l registry) :
      Next period limit sessionId t (.others l) { t with registry := registry }

end Terminal

/-! ## The program -/

/-- The command line, none when its process has ended, and the server. -/
structure Console where
  cli : Option ClientCli
  server : SRCServer

namespace Console

/-- A line is entered, or something else happens at the server. The socket of a line has an
address of its own, the memory holds anything, and the log shows any time. -/
inductive Event
  | line (peerAddress : InetAddress) (leftover : WrappedResponse) (uninit : Bool)
      (time line : Bytes)
  | others (event : SRCServer.Event)

/-- A line is answered by the server before the next step. -/
def step (env : Environment) (s : Console) : Event → Console
  | .line peerAddress leftover uninit time line =>
      match s.cli with
      | none => s
      | some cli =>
          let (out, server) := cli.readLine (SRCServer.answer env peerAddress)
            leftover uninit time s.server line
          { cli := out.map Prod.snd, server := server }
  | .others event => { s with server := s.server.step env event }

/-- What the program stands for. -/
def terminal (s : Console) : Terminal where
  registry := s.server.registry
  op := (s.cli.map ClientCli.op).getD []
  hex := (s.cli.map ClientCli.hex).getD false

/-- What a line prints. -/
def printed (env : Environment) (s : Console) (peerAddress : InetAddress)
    (leftover : WrappedResponse) (uninit : Bool) (time line : Bytes) : Bytes :=
  let out := s.cli.bind fun cli =>
    (cli.readLine (SRCServer.answer env peerAddress) leftover uninit time s.server line).1
  (out.map Prod.fst).getD []

/-- What is seen of a step of the program. -/
def label (env : Environment) (s : Console) : Event → Terminal.Label
  | .line peerAddress leftover uninit time line =>
      .line line time (s.printed env peerAddress leftover uninit time line)
  | .others event => .others (s.server.label env event)

/-- The messages of the call of a line fit. -/
def Carried (s : Console) : Event → Prop
  | .line _ _ _ _ line => ∀ cli, s.cli = some cli →
      ∀ call, ClientCli.parseCall (ClientCli.readOp cli.op line).1
        (ClientCli.readOp cli.op line).2 = some call → call.Carried cli.client s.server.services
  | .others _ => True

/-- The process has not ended and has this client, and the tables of the server fit together. -/
structure Running (timeout max_heartbeat : Int) (client : SRCCLient) (s : Console) : Prop where
  cli : ∃ cli, s.cli = some cli ∧ cli.client = client
  server : s.server.Consistent timeout max_heartbeat

variable {env : Environment} {timeout max_heartbeat : Int} {client : SRCCLient}

/-- A line that leaves the process running. -/
theorem step_line {s : Console} {cli cli' : ClientCli} {server' : SRCServer} {out time line : Bytes}
    {peerAddress : InetAddress} {leftover : WrappedResponse} {uninit : Bool}
    (hcli : s.cli = some cli)
    (hread : cli.readLine (SRCServer.answer env peerAddress) leftover uninit time s.server
      line = (some (out, cli'), server')) :
    s.step env (.line peerAddress leftover uninit time line) =
        { cli := some cli', server := server' } ∧
      s.label env (.line peerAddress leftover uninit time line) = .line line time out := by
  constructor
  · rw [step, hcli]
    simp only [hread, Option.map_some]
  · rw [label, printed, hcli, Option.bind_some, hread, Option.map_some, Option.getD_some]

/-- The registry of a server that has performed a request. -/
theorem registry_perform {server : SRCServer} (hs : server.services.WellFormed)
    (request : Request) :
    ({ server with services := (server.services.perform request).2 } : SRCServer).registry =
      { server.registry with nodes := server.registry.nodes.next request } := by
  obtain ⟨-, ⟨-, htree⟩, -⟩ := Services.simulates_perform (A := server.services.tree) ⟨hs, rfl⟩
    request
  show Registry.mk (server.services.perform request).2.tree _ = _
  rw [htree]
  rfl

/-- Each step of the program, of a call whose messages fit, is a step of the terminal. -/
theorem next_terminal (hclk : Monotone env.now) (s : Console) (event : Event)
    (hs : s.Running timeout max_heartbeat client) (hcarried : s.Carried event) :
    (s.step env event).Running timeout max_heartbeat client ∧
      s.terminal.Next timeout max_heartbeat client.m_sessionId (s.label env event)
        (s.step env event).terminal := by
  obtain ⟨⟨cli, hcli, rfl⟩, hserver⟩ := hs
  have hterminal :
      s.terminal = { registry := s.server.registry, op := cli.op, hex := cli.hex } := by
    rw [terminal, hcli]
    rfl
  cases event with
  | others event =>
      obtain ⟨hserver', hnext⟩ := SRCServer.next_registry hclk s.server event hserver
      exact ⟨⟨⟨cli, hcli, rfl⟩, hserver'⟩, .others _ _ hnext⟩
  | line peerAddress leftover uninit time line =>
      cases hcall : ClientCli.parseCall (ClientCli.readOp cli.op line).1
        (ClientCli.readOp cli.op line).2 with
      | none =>
          have hread := ClientCli.readLine_invalid cli (SRCServer.answer env peerAddress) leftover
            uninit time s.server hcall
          obtain ⟨hstep, hlabel⟩ := step_line hcli hread
          rw [hstep, hlabel, hterminal]
          exact ⟨⟨⟨_, rfl, rfl⟩, hserver⟩, .invalid line time hcall⟩
      | some call =>
          obtain ⟨result, hresult, hreturns⟩ := ClientCall.returns_call env peerAddress
            hserver.store call (hcarried cli hcli call hcall) uninit leftover
          obtain ⟨-, ⟨hstore, htree⟩, -⟩ := Services.simulates_perform
            (A := s.server.services.tree) ⟨hserver.store, rfl⟩ (call.request cli.client.m_sessionId)
          have hread := ClientCli.readLine_call cli (SRCServer.answer env peerAddress) leftover
            uninit time s.server hcall hresult
          obtain ⟨hstep, hlabel⟩ := step_line hcli hread
          rw [hstep, hlabel, hterminal]
          refine ⟨⟨⟨_, rfl, rfl⟩, ⟨hstore, hserver.heaps, hserver.sessions, hserver.period,
            hserver.limit⟩⟩, ?_⟩
          show Terminal.Next _ _ _ _ _ (Terminal.mk (SRCServer.registry _) _ _)
          rw [registry_perform hserver.store]
          exact .call line time call result hcall hreturns

/-- From any state that the server can reach, each run of the program is a run of the terminal
with the same output, and no line ends the process, when the messages of all its calls fit. Others
do what they like between two lines. -/
theorem console_refines_terminal (env : Environment) (hclk : Monotone env.now)
    (timeout max_heartbeat : Int) (client : SRCCLient) (before : List SRCServer.Event)
    (events : List Event) :
    let server := before.foldl (SRCServer.step env) (.init timeout max_heartbeat)
    let s : Console := { cli := some (.init client), server := server }
    let s' := events.foldl (step env) s
    StepsMeet (step env) Carried s events →
      Run (Terminal.Next timeout max_heartbeat client.m_sessionId)
          { registry := server.registry, op := [], hex := false }
          (trace (step env) (label env) s events) s'.terminal ∧
        s'.cli.isSome := by
  intro server s s' hcarried
  have hs : s.Running timeout max_heartbeat client := ⟨⟨_, rfl, rfl⟩,
    inv_foldl (SRCServer.consistent_step hclk) before
      (SRCServer.consistent_init timeout max_heartbeat)⟩
  have hkeep : ∀ (s : Console) (event : Event), s.Running timeout max_heartbeat client →
      s.Carried event → (s.step env event).Running timeout max_heartbeat client :=
    fun s event hs hcarried => (next_terminal hclk s event hs hcarried).1
  have hrun := run_of_stepsMeet hkeep
    (fun s event hs hcarried => (next_terminal hclk s event hs hcarried).2) events hs hcarried
  obtain ⟨cli, hcli, -⟩ := (allStates_of_stepsMeet hkeep hs hcarried).last.cli
  exact ⟨hrun, Option.isSome_iff_exists.mpr ⟨cli, hcli⟩⟩

/-- A client gets a node that a new server does not have, and a tick comes. -/
theorem console_refines_terminal_missing :
    let env : Environment := { now := SRCServer.secondClock, generateSessionId := fun _ => 5 }
    let s : Console := { cli := some (.init (.new 8888 7)), server := .init 12000 5 }
    let events : List Event := [
      .line { octets := (127, 0, 0, 1), port := 4000 } {} true (bytes "2024/05/28 09:46:48")
        (bytes "get /nope"), .others .tick]
    Run (Terminal.Next 12000 5 7) { registry := .init, op := [], hex := false }
        (trace (step env) (label env) s events) (events.foldl (step env) s).terminal ∧
      (events.foldl (step env) s).cli.isSome := by
  intro env s events
  have hcall : ClientCli.parseCall (ClientCli.readOp [] (bytes "get /nope")).1
      (ClientCli.readOp [] (bytes "get /nope")).2 = some (.getNode (bytes "/nope")) := by rfl
  have hcarried : StepsMeet (step env) Carried s events := by
    refine ⟨fun cli hcli call hsome => ?_, trivial, trivial⟩
    cases hcli
    obtain rfl := Option.some.inj (hsome.symm.trans hcall)
    exact ⟨by decide, by decide⟩
  rw [← SRCServer.registry_init 12000 5]
  exact console_refines_terminal env SRCServer.monotone_secondClock 12000 5 (.new 8888 7) [] events
    hcarried

/-- What that line shows. -/
example :
    (ClientCli.readLine (SRCServer.answer { now := fun _ => 0, generateSessionId := fun _ => 5 }
      { octets := (127, 0, 0, 1), port := 4000 }) {} true (bytes "2024/05/28 09:46:48")
      (.init (.new 8888 7)) (SRCServer.init 12000 5) (bytes "get /nope")).1.map Prod.fst =
    some (utf8 "[WARN  ] 2024/05/28 09:46:48 : 获取节点失败: node not exists\n\nSRCCLI$ ") := rfl

end Console

end RegistrationCenter
