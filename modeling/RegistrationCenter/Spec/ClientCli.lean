import RegistrationCenter.Spec.SessionManager
import RegistrationCenter.Spec.SRCCLient

/-!
# `RegistrationCenter.Spec.ClientCli`: the command line of the client

`run` of `client/client_cli.cpp`: a line is read, taken apart, carried out and answered on the
terminal. `ss` is what is left of the `stringstream` of the line. An extraction skips blanks
first and fails when nothing is left, and once one has failed nothing is left for those after it.

`op` is declared outside the loop, so a line without a word keeps the operation of the line
before. The base of the numbers that `std::cout` prints is state of the stream: `std::hex` holds
until the next `std::dec`. An operation of the client that is refused logs a line, which stands
before what `run` prints for it.
-/

set_option autoImplicit false

namespace RegistrationCenter

/-- The blanks that an extraction skips. -/
def isspace (c : UInt8) : Bool := c = 32 || (9 ≤ c && c ≤ 13)

/-- `ss >> word`: the word, and the stream after it. It fails when only blanks are left. -/
def extractWord (ss : Bytes) : Option (Bytes × Bytes) :=
  match ss.dropWhile isspace with
  | [] => none
  | c :: cs => some ((c :: cs).span fun c => !isspace c)

/-- `ss >> word` into an empty string. -/
def extractString (ss : Bytes) : Bytes × Bytes := (extractWord ss).getD ([], [])

def isDigit (c : UInt8) : Bool := 48 ≤ c && c ≤ 57

/-- The sign of a number, and what comes after it. -/
def splitSign : Bytes → Bool × Bytes
  | [] => (false, [])
  | c :: cs => if c = 45 then (true, cs) else if c = 43 then (false, cs) else (false, c :: cs)

/-- The number that the digits at the start of these bytes are. -/
def readDecimal (cs : Bytes) : Nat :=
  (cs.takeWhile isDigit).foldl (fun n c => 10 * n + (c.toNat - 48)) 0

/-- `ss >> number`. Where the stream ends, the number stays as it is. Where no digit comes it is
zero, and a number that is too large or too small is the nearest that there is. -/
def extractInt (ss : Bytes) (old : Int32) : Int32 :=
  match ss.dropWhile isspace with
  | [] => old
  | c :: cs =>
      let (negative, digits) := splitSign (c :: cs)
      let n := readDecimal digits
      if negative then .ofInt (-min n 2147483648) else .ofInt (min n 2147483647)

/-- A number as `std::cout` prints it, in the base that is set. Of a number that is to be
printed in hexadecimal the bits are printed. -/
def printInt (hex : Bool) (v : Int32) : Bytes :=
  if hex then (Nat.toDigits 16 v.toUInt32.toNat).map fun c => UInt8.ofNat c.toNat
  else if v < 0 then bytes "-" ++ decimal v.toInt.natAbs
  else decimal v.toInt.natAbs

/-- `std::hex << v`. -/
def printHex (v : UInt64) : Bytes := (Nat.toDigits 16 v.toNat).map fun c => UInt8.ofNat c.toNat

/-- The loop over the children. -/
def printChildren : List Bytes → Bytes
  | [] => []
  | [child] => child
  | child :: children => child ++ bytes ", " ++ printChildren children

/-- The loop of `run` between two lines. -/
structure ClientCli where
  client : SRCCLient
  op : Bytes
  /-- `std::cout` prints numbers in hexadecimal. -/
  hex : Bool

namespace ClientCli

/-- Before the first line, with the client that is connected. -/
def init (client : SRCCLient) : ClientCli := { client := client, op := [], hex := false }

def prompt : Bytes := bytes "SRCCLI$ "

/-- The line that an operation of the client has logged, if it has logged one. -/
def logged (time : Bytes) (warning : Option Bytes) : Bytes :=
  (warning.map (Logger.log .WARN time)).getD []

section
variable {σ : Type} (client : SRCCLient) (exchange : Bytes → Bytes × σ)
  (leftover : WrappedResponse) (uninit : Bool) (time : Bytes) (hex : Bool)

/-- The branches of `run`, none for an operation that there is not: what is printed, the base of
the stream after that, and the state of the server. There is no output when the process has
ended. -/
def command (op ss : Bytes) : Option (Option (Bytes × Bool) × σ) :=
  let (path, ss₁) := extractString ss
  if op = bytes "create" then
    let (data, ss₂) := extractString ss₁
    let number := extractInt ss₂ 1
    let type := if number = 0 then 1 else number
    let (res, server) := client.createNode exchange leftover path data type
    some (res.map fun (res, warning) =>
      (logged time warning ++ if res then bytes "create success\n" else bytes "create error\n",
        hex), server)
  else if op = bytes "get" then
    let (res, server) := client.getNode exchange leftover path
    some (res.map fun (res, warning) => (logged time warning ++ (res ++ bytes "\n"), hex), server)
  else if op = bytes "set" then
    let (data, _) := extractString ss₁
    let (res, server) := client.setNode exchange leftover path data
    some (res.map fun (res, warning) =>
      (logged time warning ++ if res then bytes "set success\n" else bytes "set error\n", hex),
      server)
  else if op = bytes "delete" then
    let (res, server) := client.deleteNode exchange leftover path
    -- What is printed is that of `set`.
    some (res.map fun (res, warning) =>
      (logged time warning ++ if res then bytes "set success\n" else bytes "set error\n", hex),
      server)
  else if op = bytes "ls" then
    let (res, server) := client.lsNode exchange leftover path
    some (res.map fun (children, warning) =>
      (logged time warning ++ (bytes "[" ++ printChildren children ++ bytes "]\n"), hex), server)
  else if op = bytes "stat" then
    let (res, server) := client.statNode exchange leftover path
    some (res.map fun (res, warning) =>
      -- The type is printed before `std::dec`, and the base is left at `std::hex`.
      (logged time warning ++
        (bytes "nodeType: " ++ printInt hex res.NodeType.toInt32 ++ bytes "\n" ++
        bytes "dataLength: " ++ printInt false res.dataLength ++ bytes "\n" ++
        bytes "numChildren: " ++ printInt false res.numChildren ++ bytes "\n" ++
        bytes "ephemeralOwner: " ++ printHex res.ephemeralOwner ++ bytes "\n\n"), true), server)
  else if op = bytes "exists" then
    let (res, server) := client.existsNode exchange leftover uninit path
    some (res.map fun (res, warning) =>
      (logged time warning ++ if res then bytes "exists\n" else bytes "not exists\n", hex), server)
  else none

end

/-- The body of the loop of `run`. `exchange` is the network with the server behind it, and `time`
is the text of the time that a log line has. There is no output when the process has ended. -/
def readLine {σ : Type} (exchange : σ → Bytes → Bytes × σ) (leftover : WrappedResponse)
    (uninit : Bool) (time : Bytes) (c : ClientCli) (server : σ) (line : Bytes) :
    Option (Bytes × ClientCli) × σ :=
  -- `ss >> op` leaves the operation of the line before when it fails.
  let (op, ss) := (extractWord line).getD (c.op, [])
  match command c.client (exchange server) leftover uninit time c.hex op ss with
  -- `continue`: there is no new prompt.
  | none => (some (bytes "invalid operation\n", { c with op := op }), server)
  | some (none, server') => (none, server')
  | some (some (output, hex), server') =>
      (some (output ++ prompt, { c with op := op, hex := hex }), server')

end ClientCli

end RegistrationCenter
