import CrawlCluster.Node.Life
import CrawlCluster.Node.Serve
import CrawlCluster.Options.Arguments
import CrawlCluster.Store.Basic

/-!
The command line. It reads the options of a node, starts one that can reach nobody, and serves
the standard streams as its one connection.
-/

set_option autoImplicit false

namespace CrawlCluster.Main

open Coordinator (Site)

def readEnvironment : IO (List (String × String)) :=
  (Options.Name.all.filterMap Options.Name.envName?).filterMapM fun name => do
    return (← IO.getEnv name).map fun value => (name, value)

def readEnvFile (o : Options) : IO EnvFile :=
  match o.envFile with
  | none => return {}
  | some path => return EnvFile.parse (← IO.FS.readFile path)

partial def readAll (input : IO.FS.Stream) (read : ByteArray) : IO ByteArray := do
  let chunk ← input.read 65536
  if chunk.isEmpty then return read
  readAll input (read ++ chunk)

def answer (p : Parameters) (now : Int64) (bytes : Bytes) : Bytes :=
  let site : Site Store := { backend := Store.backend, retry := p.jobs.retry, now }
  let node : Node Store := { settings := p.jobs, desk := { store := {} } }
  let (_, node, _) := node.start Link.nobody site p p.bind ()
  let conn : Connection := { remote := { ip := Net.Ip.loopback, port := 0 }, socket := ⟨"stdin"⟩ }
  (Node.serve Link.nobody site conn bytes ⟨node, ()⟩).1

def complain (message : String) (code : UInt32) : IO UInt32 := do
  IO.eprintln message
  return code

def run (p : Parameters) : IO UInt32 := do
  let bytes ← readAll (← IO.getStdin) ByteArray.empty
  let now := Int64.ofNat (← IO.monoMsNow)
  (← IO.getStdout).write (answer p now bytes.toList).toByteArray
  return 0

def start (args : List String) : IO UInt32 := do
  match Options.parse (← readEnvironment) args with
  | .error .helpWanted =>
    IO.println Options.usage
    return 0
  | .error error => complain error.message 2
  | .ok options =>
    match options.parameters (← readEnvFile options) with
    | .error error => complain error.message 1
    | .ok p => run p

end CrawlCluster.Main

def main (args : List String) : IO UInt32 := CrawlCluster.Main.start args
