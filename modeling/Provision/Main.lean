import Provision.CommandLine
import Provision.Http.Replay
import Provision.Http.Wire
import Provision.Log.Entry
import Std.Async.DNS
import Std.Async.TCP
import Std.Async.Timer

/-!
The program, with the files, variables and network that are there. A run comes as far as a request
without an answer; that request is made, and the run is made again with its answer. Connections are
plain, so that addresses of the scheme `https` reach nobody.
-/
namespace Provision.Program

open Std.Async Std.Net

/-! The network. -/

def pause (d : Duration) : Async Unit := sleep (.ofNat (d.nanos / 1000000))

def socketAddress (service : UInt16) : IPAddr → SocketAddress
  | .v4 a => .v4 ⟨a, service⟩
  | .v6 a => .v6 ⟨a, service⟩

/-- A connection to the first address that takes one. -/
def connect (service : UInt16) : List IPAddr → Async (Option TCP.Socket.Client)
  | [] => return none
  | address :: rest => do
    try
      let socket ← TCP.Socket.Client.mk
      socket.connect (socketAddress service address)
      return some socket
    catch _ => connect service rest

/-- All that is received until the connection ends. -/
partial def receive (socket : TCP.Socket.Client) (received : ByteArray) : Async ByteArray := do
  match ← socket.recv? 65536 with
  | some bytes => receive socket (received ++ bytes)
  | none => return received

def exchange (q : Http.Request) : Async (Option Http.Response) := do
  let addresses ← DNS.getAddrInfo q.url.host q.url.scheme
  match ← connect (.ofNat (q.url.portNumber?.getD 80)) addresses.toList with
  | none => return none
  | some socket =>
    socket.send q.wire.toUTF8
    let received ← receive socket .empty
    return (String.fromUTF8? received).bind Http.Response.ofWire?

/-- The answer to a request, if one comes in time. -/
def ask (timeout : Duration) (q : Http.Request) : IO (Option Http.Response) := do
  if q.url.scheme ≠ "http" then return none
  let late : Async (Option Http.Response) := do
    pause timeout
    return none
  try (Async.race (exchange q) late).block
  catch _ => return none

/-- Makes a run with the answers so far, and goes on until all requests have one. -/
partial def converse (run : Http.Replay → CommandLine.Report Http.Replay) (timeout slept : Duration)
    (answers : List (Option Http.Response)) : IO (CommandLine.Report Http.Replay) := do
  let report := run ⟨answers, none⟩
  (pause (report.slept.minus slept)).block
  match report.transport.pending with
  | none => return report
  | some q => converse run timeout report.slept (answers ++ [← ask timeout q])

/-! The files. -/

def absolutePath (l : Location) : String := "/" ++ String.intercalate "/" l

/-- Where a path leads by its names alone. -/
def locate (home : Location) (path : String) : Location :=
  let step (l : Location) (name : String) : Location :=
    if name = "" ∨ name = "." then l else if name = ".." then l.dropLast else l ++ [name]
  (Path.names path).foldl step (Tree.origin home path)

/-- Adds what is at a location, and what is at most `depth` steps below it. -/
def addFrom (l : Location) : (depth : Nat) → Tree → IO Tree
  | depth, t => do
    let path := (← IO.currentDir) / absolutePath l
    if !(← path.pathExists) then return t
    if !(← path.isDir) then return t.place l (.file (← IO.FS.readBinFile path).toList)
    let t := if l = [] then t else t.place l .directory
    match depth with
    | 0 => return t
    | depth + 1 =>
      (← path.readDir).foldlM (fun t entry => addFrom (l ++ [entry.fileName]) depth t) t

/-- Adds what is at a path, at most `depth` steps below it, and on the way to it. -/
def addPath (t : Tree) (path : String) (depth : Nat) : IO Tree := do
  let l := locate t.home path
  addFrom l depth (← (Tree.parents l).foldlM (fun t p => addFrom p 0 t) t)

/-- The files that a run may look at. -/
def filesFor (manifest secrets : String) : IO Tree := do
  let home := locate [] (← IO.currentDir).toString
  let t ← addPath (Tree.atHome home) manifest 0
  let t ← addPath t (Path.withExtension manifest "tmp") 0
  addPath t secrets 3

/-- Writes the manifest if a run has changed it. -/
def save (manifest : String) (before after : Tree) : IO Unit := do
  match (after.read manifest).toOption with
  | none => return
  | some content =>
    if (before.read manifest).toOption ≠ some content then
      let temporary := Path.withExtension manifest "tmp"
      IO.FS.writeBinFile temporary ⟨content.toArray⟩
      IO.FS.rename temporary manifest

/-! The program. -/

/-- The time by the clock. -/
def wallClock : IO Timestamp := do
  let nanos := (← Std.Time.Timestamp.now).toNanosecondsSinceUnixEpoch.val
  return ⟨Int.fdiv nanos nanosPerSecond, (Int.fmod nanos nanosPerSecond).toNat⟩

def environment : IO (String → Option String) := do
  let values ← CommandLine.environmentKeys.filterMapM
    fun key => do return (← IO.getEnv key).map (key, ·)
  return fun key => values.lookup key

/-- Prints what a run has to say. -/
def print (report : CommandLine.Report Http.Replay) : IO Unit := do
  let out ← IO.getStdout
  for line in report.log do
    out.putStrLn (line.json (← wallClock)).compact
  out.putStr report.stdout
  (← IO.getStderr).putStr report.stderr

end Provision.Program

open Provision Provision.Program in
def main (args : List String) : IO UInt32 := do
  let lookup ← environment
  match CommandLine.parse? (lookup CommandLine.manifestKey) args, Config.load lookup with
  | some command, .ok config =>
    let files ← filesFor command.manifest config.secretsDir
    let report ← converse (CommandLine.run args lookup files Http.Replay.transport)
      config.httpTimeout ⟨0⟩ []
    save command.manifest files report.files
    print report
    return .ofNat report.exit
  | _, _ =>
    let report := CommandLine.run args lookup .empty Http.Replay.transport ⟨[], none⟩
    print report
    return .ofNat report.exit
