import ProxyPlane.Command.Run
import ProxyPlane.Record.Identifier
import Std.Async.DNS
import Std.Async.TCP
import Std.Time.DateTime.Timestamp

/-!
# The command line

The outer layer of the program: it answers the requests of a command with files, a connection, the
clock and random bytes, prints what the command shows and ends with its exit code.  Nothing is
decided here.  Other programs are never started, so an import finds its adapter unavailable, and
connections are not encrypted.

## What is here

* `Outside.answer`, the answers to `CommandOp`.
* `Outside.watch`, which applies the desired state whenever the records change.
* `main`.
-/

set_option autoImplicit false
namespace ProxyPlane
namespace Outside

open Std.Async
open System (FilePath)

/-! ## Files -/

/-- The cause of an error of the system. -/
def causeOf : IO.Error → IoError
  | .noFileOrDirectory .. => .notFound
  | .permissionDenied .. => .permissionDenied
  | .alreadyExists .. => .alreadyExists
  | .inappropriateType _ code _ => if code = 21 then .isADirectory else .notADirectory
  | .unsatisfiedConstraints .. => .directoryNotEmpty
  | .invalidArgument .. => .invalidInput
  | _ => .other

/-- The result of an action, or the cause of its failure. -/
def attempt {α : Type} (action : IO α) : IO (Except IoError α) := do
  try return .ok (← action)
  catch e => return .error (causeOf e)

def toBytes (bs : ByteArray) : Bytes := bs.data.toList

def ofBytes (bs : Bytes) : ByteArray := ⟨bs.toArray⟩

/-- The contents of a file. -/
def contents (path : String) : IO (Except IoError Bytes) :=
  attempt (toBytes <$> IO.FS.readBinFile path)

/-- The answers of the files. -/
def answerFile : {β : Type} → FileOp β → IO β
  | _, .read path => contents path
  | _, .list path =>
    attempt (return (← FilePath.readDir path).toList.map fun entry => entry.fileName)
  | _, .isPresent path => FilePath.pathExists path
  | _, .makeDirs path => attempt (IO.FS.createDirAll path)
  | _, .write path bs => attempt (IO.FS.writeBinFile path (ofBytes bs))
  | _, .append path bs => attempt do (← IO.FS.Handle.mk path .append).write (ofBytes bs)
  | _, .rename source target => attempt (IO.FS.rename source target)
  | _, .remove path => attempt (IO.FS.removeFile path)
  | _, .copy source target =>
    attempt (do IO.FS.writeBinFile target (← IO.FS.readBinFile source))

/-! ## The proxy -/

/-- An address with a port. -/
def socketAddress (address : Std.Net.IPAddr) (port : UInt16) : Std.Net.SocketAddress :=
  match address with
  | .v4 addr => .v4 ⟨addr, port⟩
  | .v6 addr => .v6 ⟨addr, port⟩

/-- All that a connection brings before it ends. -/
def received (socket : TCP.Socket.Client) : IO ByteArray := do
  let mut bytes := ByteArray.empty
  repeat
    match ← (socket.recv? 65536).block with
    | some more => bytes := bytes ++ more
    | none => break
  return bytes

/-- Send bytes to an address and return what comes back. -/
def exchange (address : Std.Net.SocketAddress) (bytes : ByteArray) : IO ByteArray := do
  let socket ← TCP.Socket.Client.mk
  (socket.connect address).block
  (socket.send bytes).block
  received socket

/-- The reply to a request. -/
def send (r : Request) : IO Reply := do
  match Destination.ofUrl? r.url with
  | none => return .error "connections cannot be encrypted"
  | some d =>
    try
      let addresses ← (DNS.getAddrInfo d.host (Numeral.write d.port)).block
      match addresses[0]? with
      | none => return .error s!"{d.host} has no address"
      | some address =>
        let bytes ← exchange (socketAddress address d.port.toUInt16) (ofBytes (r.wire d))
        return Reply.ofWire (toBytes bytes)
    catch e => return .error e.toString

/-! ## All of it -/

/-- The instant at which it is asked for. -/
def now : IO Instant := do
  let nanos := (← Std.Time.Timestamp.now).toNanosecondsSinceUnixEpoch.val
  return ⟨nanos / 1000000000, (nanos % 1000000000).toNat⟩

/-- The answers to a command. -/
def answer : {β : Type} → CommandOp β → IO β
  | _, .file op => answerFile op
  | _, .admin (.send r) => send r
  | _, .clock .now => now
  | _, .adapter (.run _ _) => return .error .permissionDenied
  | _, .ids .fresh => return Identifier.fromSeed (toBytes (← IO.getRandomBytes 32))

/-- The variables of the environment that the settings know. -/
def environment : IO (List (String × String)) :=
  Settings.overrides.filterMapM fun v => do
    let name := Settings.variableStart ++ v.1
    return (← IO.getEnv name).map fun text => (name, text)

/-- Print how a command ended, and return its exit code. -/
def report (e : Ending) : IO UInt32 := do
  for line in e.lines do IO.println line
  match e.failure with
  | some failure => IO.eprintln s!"Error: {failure.message}"
  | none => if e.exitCode ≠ 0 then IO.eprintln "Wrong usage; try --help"
  return e.exitCode.toUInt32

/-- Apply the desired state now and whenever the records have changed. -/
def watch (s : Settings) : IO UInt32 := do
  let mut seen := none
  repeat
    let found ← contents s.store.recordsPath
    if seen ≠ some found.toOption then
      seen := some found.toOption
      let _ ← report (← (Command.apply.run s).runIn answer).ending
    IO.sleep 300
  return 0

/-- A whole command line. -/
def run (arguments : List String) : IO UInt32 := do
  let known ← environment
  let lookup (name : String) : Option String := known.lookup name
  let ending ← (CommandLine.run lookup arguments).runIn answer
  match ending.failure, Invocation.read arguments with
  | some .endless, .ok i =>
    match ← (i.settings lookup).runIn answer with
    | .ok s => watch s
    | .error _ => report ending
  | _, _ => report ending

end Outside
end ProxyPlane

def main (arguments : List String) : IO UInt32 := ProxyPlane.Outside.run arguments
