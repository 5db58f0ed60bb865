import ProxyPlane.Command.Run
import ProxyPlane.Files.Tree

/-!
# A model of the world

All that a cycle or a command asks of the world is answered here by a value: a tree of files, a
store, a proxy whose replies are known beforehand, a clock that stands still, and programs whose
outcomes are known.

## What is here

* `Peer`, a proxy that sends given replies and remembers the requests.
* `Backing`, a store in memory, whose audit may fail at given times, or in files.
* `World`, all of it, and `World.answer`, which answers a cycle.
* `Machine`, a world with programs that can be run, and `Machine.answer`, which answers a command.
-/

set_option autoImplicit false
namespace ProxyPlane

/-- A proxy that sends the given replies in order and after them those of a rule. -/
structure Peer where
  /-- Why no request arrives, if none does. -/
  offline : Option String
  replies : List Reply
  otherwise : Request → Reply
  /-- The requests that arrived, in order. -/
  requests : List Request

/-- The answer of a proxy, and the proxy after it. -/
def Peer.answer : {β : Type} → AdminOp β → Peer → β × Peer
  | _, .send r, p =>
    match p.offline with
    | some detail => (.error detail, p)
    | none =>
      let seen := p.requests ++ [r]
      match p.replies with
      | [] => (p.otherwise r, { p with requests := seen })
      | reply :: rest => (reply, { p with replies := rest, requests := seen })

/-- Where the records are. -/
inductive Backing
  /-- In memory; the audit fails at the attempts for which `fails` holds, counted from zero. -/
  | memory (store : MemoryStore) (attempts : Nat) (fails : Nat → Bool)
  /-- In files. -/
  | files (store : FileStore)

/-- All that a cycle touches. -/
structure World where
  files : FileTree
  backing : Backing
  peer : Peer
  clock : Instant

namespace World

/-- The answer of the files, and the world after it. -/
def answerFile {β : Type} (op : FileOp β) (w : World) : β × World :=
  let r := FileTree.answer op w.files
  (r.1, { w with files := r.2 })

/-- The answer of a store in memory. -/
def answerMemory (store : MemoryStore) (attempts : Nat) (fails : Nat → Bool) :
    {β : Type} → StoreOp β → β × Backing
  | _, .appendAudit row =>
    if fails attempts then (.error .poisoned, .memory store (attempts + 1) fails)
    else
      let r := MemoryStore.answer (.appendAudit row) store
      (r.1, .memory r.2 (attempts + 1) fails)
  | _, op =>
    let r := MemoryStore.answer op store
    (r.1, .memory r.2 attempts fails)

/-- The answer of the store, and the world after it. -/
def answerStore {β : Type} (op : StoreOp β) (w : World) : β × World :=
  match w.backing with
  | .memory store attempts fails =>
    let r := answerMemory store attempts fails op
    (r.1, { w with backing := r.2 })
  | .files store => (store.answer op).run answerFile w

/-- The answer of the proxy, and the world after it. -/
def answerAdmin {β : Type} (op : AdminOp β) (w : World) : β × World :=
  let r := Peer.answer op w.peer
  (r.1, { w with peer := r.2 })

/-- The answer of the clock. -/
def answerClock : {β : Type} → ClockOp β → World → β × World
  | _, .now, w => (w.clock, w)

/-- The answer to a cycle, and the world after it. -/
def answer {β : Type} (op : SyncOp β) (w : World) : β × World :=
  match op with
  | .file op => answerFile op w
  | .store op => answerStore op w
  | .admin op => answerAdmin op w
  | .clock op => answerClock op w

end World

/-- A world with programs that can be run. -/
structure Machine where
  files : FileTree
  peer : Peer
  clock : Instant
  /-- What running a program with some arguments comes to. -/
  programs : String → List String → Except IoError Finished
  /-- The arguments of the programs that ran, in order. -/
  launched : List (String × List String)
  /-- The identifiers that nothing has yet. -/
  ids : Nat → String

namespace Machine

/-- The answer of the files, and the machine after it. -/
def answerFile {β : Type} (op : FileOp β) (m : Machine) : β × Machine :=
  let r := FileTree.answer op m.files
  (r.1, { m with files := r.2 })

/-- The answer of the proxy, and the machine after it. -/
def answerAdmin {β : Type} (op : AdminOp β) (m : Machine) : β × Machine :=
  let r := Peer.answer op m.peer
  (r.1, { m with peer := r.2 })

/-- The answer of the clock. -/
def answerClock : {β : Type} → ClockOp β → Machine → β × Machine
  | _, .now, m => (m.clock, m)

/-- The answer of the programs, and the machine after it. -/
def answerAdapter : {β : Type} → AdapterOp β → Machine → β × Machine
  | _, .run binary arguments, m =>
    match m.programs binary arguments with
    | .error e => (.error e, m)
    | .ok r => (.ok r, { m with launched := m.launched ++ [(binary, arguments)] })

/-- The answer of the source of identifiers, and the machine after it. -/
def answerIds : {β : Type} → IdOp β → Machine → β × Machine
  | _, .fresh, m => (m.ids, m)

/-- The answer to an import, and the machine after it. -/
def answerImport {β : Type} (op : ImportOp β) (m : Machine) : β × Machine :=
  match op with
  | .file op => answerFile op m
  | .adapter op => answerAdapter op m
  | .clock op => answerClock op m

/-- The answer to a command, and the machine after it. -/
def answer {β : Type} (op : CommandOp β) (m : Machine) : β × Machine :=
  match op with
  | .file op => answerFile op m
  | .admin op => answerAdmin op m
  | .clock op => answerClock op m
  | .adapter op => answerAdapter op m
  | .ids op => answerIds op m

end Machine
end ProxyPlane
