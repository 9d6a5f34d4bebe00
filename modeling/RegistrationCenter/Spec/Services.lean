import RegistrationCenter.Spec.DNode

/-!
# `RegistrationCenter.Spec.Services`: the node store and its services

`src/Services.h` and `src/Services.cpp`. The store is a tree of nodes below a dummy
node, whose child with the empty name is the root, and a table of the session nodes
that each session has created.

Each service returns its response as a message; the handlers parse the request and
serialize the response. All handlers and `removeEphemeral(size_t)` hold the mutex of
the store for their whole run, so each of them is one step. The temporaries that
`lock()` and `shared_from_this()` return are gone at the end of the statement they
stand in, so they do not show.

The order in which `unordered_map` gives the children of a node is its own; here it
is that of the association list.
-/

set_option autoImplicit false

namespace RegistrationCenter

open Lib

structure Services where
  heap : RcHeap DNode
  m_dummy : Nat
  m_sessionMap : UInt64 → Option (List Nat)

namespace Services

/-- The constructor. -/
def init : Services :=
  let dummy := (RcHeap.empty.make DNode.empty).modify 0 fun v => { v with data := bytes "dummy" }
  let root := (dummy.insertChild 0 [] DNode.empty).modify 1 fun v =>
    { v with data := bytes "root" }
  { heap := root, m_dummy := 0, m_sessionMap := fun _ => none }

/-! ### Paths -/

/-- `getline(ss, item, '/')` on a stream that is not empty: the item, and the stream after
its delimiter. -/
def getline : Bytes → Bytes × Bytes
  | [] => ([], [])
  | c :: cs =>
      if c = '/'.toUInt8 then ([], cs)
      else
        let (item, rest) := getline cs
        (c :: item, rest)

/-- The loop of `splitPath`. Each round takes a character off the stream. -/
def splitPathLoop : Nat → Bytes → List Bytes → List Bytes
  | _, [], pathes => pathes
  | 0, _ :: _, pathes => pathes
  | fuel + 1, c :: cs, pathes =>
      let (item, rest) := getline (c :: cs)
      -- An empty item is kept as the first one only: it is the name of the root.
      if item = [] ∧ pathes ≠ [] then []
      else splitPathLoop fuel rest (pathes ++ [item])

/-- `splitPath`: the components of a path, or none when it has an empty component inside. -/
def splitPath (path : Bytes) : List Bytes := splitPathLoop path.length path []

/-- `walkTo`: the node under the dummy at these components, or the null pointer. -/
def walkTo (s : Services) (pathes : List Bytes) : Option Nat := s.heap.walk s.m_dummy pathes

/-! ### The seven services -/

/-- `m_sessionMap[sessionId].push_back(node)`. -/
def addSessionNode (s : Services) (sessionId : UInt64) (node : Nat) : Services :=
  { s with
      m_sessionMap := Function.update s.m_sessionMap sessionId
        (some ((s.m_sessionMap sessionId).getD [] ++ [node])) }

/-- `createNode`. -/
def createNode (s : Services) (sessionId : UInt64) (path nodeData : Bytes)
    (nodeType : NodeType) : CreateNodeResponse × Services :=
  let pathes := splitPath path
  match pathes.getLast? with
  | none => ({ success := false, errmsg := bytes "path error" }, s)
  | some nodeName =>
      match s.walkTo pathes.dropLast with
      | none => ({ success := false, errmsg := bytes "path not exists" }, s)
      | some curr =>
          if (s.heap.childOf curr nodeName).isSome then
            ({ success := false, errmsg := bytes "node already exists" }, s)
          else
            -- A persistent node belongs to nobody.
            let owner := if nodeType = .EPHEMERAL then sessionId else 0
            let s' := { s with
              heap := s.heap.insertChild curr nodeName
                (.mk' nodeName nodeData nodeType owner curr) }
            ({ success := true },
              if nodeType = .EPHEMERAL then s'.addSessionNode sessionId s.heap.next else s')

/-- `getNode`. -/
def getNode (s : Services) (path : Bytes) : GetNodeResponse :=
  let pathes := splitPath path
  if pathes = [] then { success := false, errmsg := bytes "path error" }
  else
    match (s.walkTo pathes).bind s.heap.get with
    | some curr => { success := true, nodeData := curr.data }
    | none => { success := false, errmsg := bytes "node not exists" }

/-- `setNode`. -/
def setNode (s : Services) (path nodeData : Bytes) : SetNodeResponse × Services :=
  let pathes := splitPath path
  if pathes = [] then ({ success := false, errmsg := bytes "path error" }, s)
  else
    match s.walkTo pathes with
    | some curr =>
        ({ success := true },
          { s with heap := s.heap.modify curr fun v => { v with data := nodeData } })
    | none => ({ success := false, errmsg := bytes "node not exists" }, s)

/-- `deleteNode`. The children need no loop of their own: the pointers are shared. -/
def deleteNode (s : Services) (path : Bytes) : DeleteNodeResponse × Services :=
  let pathes := splitPath path
  match pathes.getLast? with
  | none => ({ success := false, errmsg := bytes "path error" }, s)
  | some nodeName =>
      -- The path of the root has one component.
      if pathes.length = 1 then
        ({ success := false, errmsg := bytes "delete the root node is not allowed" }, s)
      else
        match s.walkTo pathes.dropLast with
        | none => ({ success := false, errmsg := bytes "node not exists" }, s)
        | some curr =>
            if (s.heap.childOf curr nodeName).isSome then
              ({ success := true }, { s with heap := s.heap.eraseChild curr nodeName })
            else ({ success := false, errmsg := bytes "node not exists" }, s)

/-- `lsNode`. -/
def lsNode (s : Services) (path : Bytes) : LsNodeResponse :=
  let pathes := splitPath path
  if pathes = [] then { success := false, errmsg := bytes "path error" }
  else
    match (s.walkTo pathes).bind s.heap.get with
    | some curr => { success := true, children := curr.children.keys }
    | none => { success := false, errmsg := bytes "node not exists" }

/-- `statNode`. The sizes are converted to 32-bit numbers. -/
def statNode (s : Services) (path : Bytes) : StatNodeResponse :=
  let pathes := splitPath path
  if pathes = [] then { success := false, errmsg := bytes "path error" }
  else
    match (s.walkTo pathes).bind s.heap.get with
    | some curr =>
        { success := true
          state := some
            { dataLength := .ofNat curr.data.length
              ephemeralOwner := curr.ephemeralOwner
              numChildren := .ofNat curr.children.keys.length
              NodeType := curr.type } }
    | none => { success := false, errmsg := bytes "node not exists" }

/-- `existsNode`. -/
def existsNode (s : Services) (path : Bytes) : ExistsNodeResponse :=
  let pathes := splitPath path
  if pathes = [] then { success := false, errmsg := bytes "path error" }
  else { success := true, exist := (s.walkTo pathes).isSome }

/-! ### The end of a session -/

/-- The body of the loop of `removeEphemeral(size_t)`: a node that is not released and has
a parent that is not released is erased from the children of its parent. -/
def eraseSessionNode (h : RcHeap DNode) (p : Nat) : RcHeap DNode :=
  match h.get p with
  -- The node is released: `lock()` gives the null pointer.
  | none => h
  | some node =>
      match node.parent with
      -- A node without a parent is the dummy.
      | none => h
      | some parent =>
          if (h.cells parent).isSome then h.eraseChild parent node.name else h

/-- `removeEphemeral(size_t)`: erase the nodes that the table lists for the session. The
look-up leaves an entry for the session behind. -/
def removeEphemeral (s : Services) (sessionId : UInt64) : Services :=
  let nodes := (s.m_sessionMap sessionId).getD []
  { s with
      heap := nodes.foldl eraseSessionNode s.heap
      m_sessionMap := Function.update s.m_sessionMap sessionId (some nodes) }

/-- The body of the loop of `removeEphemeral(DNode*, size_t)` over the children of `node`: a
session node of the session is erased, another child is scanned. -/
def scanChild (sessionId : UInt64) (scan : RcHeap DNode → Nat → RcHeap DNode) (node : Nat)
    (h : RcHeap DNode) (it : Sigma fun _ : Bytes => Nat) : RcHeap DNode :=
  match h.get it.2 with
  | none => h
  | some child =>
      -- The tested child goes with all that is below it.
      if child.type = .EPHEMERAL ∧ child.ephemeralOwner = sessionId then h.eraseChild node it.1
      else scan h it.2

/-- `removeEphemeral(DNode*, size_t)`: scan the tree below `node`. `fuel` bounds the depth
of the scan. -/
def removeEphemeralScan (sessionId : UInt64) : Nat → RcHeap DNode → Nat → RcHeap DNode
  | 0, h, _ => h
  | fuel + 1, h, node =>
      match h.get node with
      | none => h
      | some v =>
          v.children.entries.foldl (scanChild sessionId (removeEphemeralScan sessionId fuel) node) h

/-! ### Handlers -/

/-- A handler parses its request, runs its service and serializes the response. -/
def handler {Req Resp : Type} [Message Req] [Message Resp] (parseError : Resp)
    (service : Services → Req → Resp × Services) (s : Services) (str : Bytes) :
    Bytes × Services :=
  match ParseFromString Req str with
  | none => (SerializeAsString parseError, s)
  | some req =>
      let (resp, s') := service s req
      (SerializeAsString resp, s')

def createNodeHandler (s : Services) (str : Bytes) (sessionId : UInt64) : Bytes × Services :=
  handler ({ success := false, errmsg := bytes "Create Node Request Parse Error" } :
      CreateNodeResponse)
    (fun s (req : CreateNodeRequest) =>
      s.createNode sessionId req.path req.nodeData req.nodeType) s str

def getNodeHandler (s : Services) (str : Bytes) : Bytes × Services :=
  handler ({ success := false, errmsg := bytes "Get Node Request Parse Error" } :
      GetNodeResponse)
    (fun s (req : GetNodeRequest) => (s.getNode req.path, s)) s str

def setNodeHandler (s : Services) (str : Bytes) : Bytes × Services :=
  handler ({ success := false, errmsg := bytes "Set Node Request Parse Error" } :
      SetNodeResponse)
    (fun s (req : SetNodeRequest) => s.setNode req.path req.nodeData) s str

def deleteNodeHandler (s : Services) (str : Bytes) : Bytes × Services :=
  handler ({ success := false, errmsg := bytes "Delete Node Request Parse Error" } :
      DeleteNodeResponse)
    (fun s (req : DeleteNodeRequest) => s.deleteNode req.path) s str

def lsNodeHandler (s : Services) (str : Bytes) : Bytes × Services :=
  handler ({ success := false, errmsg := bytes "Ls Node Request Parse Error" } : LsNodeResponse)
    (fun s (req : LsNodeRequest) => (s.lsNode req.path, s)) s str

def statNodeHandler (s : Services) (str : Bytes) : Bytes × Services :=
  handler ({ success := false, errmsg := bytes "Stat Node Request Parse Error" } :
      StatNodeResponse)
    (fun s (req : StatNodeRequest) => (s.statNode req.path, s)) s str

def existsNodeHandler (s : Services) (str : Bytes) : Bytes × Services :=
  handler ({ success := false, errmsg := bytes "Exists Node Request Parse Error" } :
      ExistsNodeResponse)
    (fun s (req : ExistsNodeRequest) => (s.existsNode req.path, s)) s str

/-- `handle`, with the table `m_funcs` that the constructor fills. -/
def handle (s : Services) (operation : ServiceType) (str : Bytes) (sessionId : UInt64) :
    Bytes × Services :=
  match operation with
  | .Create => s.createNodeHandler str sessionId
  | .Get => s.getNodeHandler str
  | .Set => s.setNodeHandler str
  | .Delete => s.deleteNodeHandler str
  | .Ls => s.lsNodeHandler str
  | .Stat => s.statNodeHandler str
  | .Exists => s.existsNodeHandler str
  | .Nothing_ServiceType => (bytes "error", s)
  | .unrecognized _ _ => (bytes "error", s)

end Services

end RegistrationCenter
