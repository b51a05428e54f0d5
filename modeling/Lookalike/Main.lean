import Lookalike.CommandLine.Surface
import Std.Time.DateTime.Timestamp

/-!
# The executable

Gathers what an invocation looks at from the file system, runs it, and writes back what it changed.
The sources of `index` are named on standard input, each with its syntax tree. No connection to an
embedding service is made: every request goes unanswered.
-/

namespace Lookalike.Program

open Lookalike

def readFile? (path : String) : IO (Option (List UInt8)) := do
  try
    return some (← IO.FS.readBinFile path).toList
  catch _ =>
    return none

def isThere (path : String) : IO Bool := do
  try
    let _ ← IO.FS.realPath path
    return true
  catch _ =>
    return false

def now : IO Timestamp := do
  let nanos := (← Std.Time.Timestamp.now).toNanosecondsSinceUnixEpoch.val
  return { seconds := Int.fdiv nanos 1000000000, nanos := (Int.fmod nanos 1000000000).toNat }

/-- Takes files that exist into a disk. -/
def gather (d : Disk) (paths : List String) : IO Disk :=
  paths.foldlM (fun d path => do
    match ← readFile? path with
    | some bytes => return d.withFile path bytes
    | none => return d) d

partial def readSources (input : IO.FS.Stream) : IO (List ParsedSource) := do
  let line ← input.getLine
  if line.isEmpty then return []
  let rest ← readSources input
  return ((Json.readText? line).bind ParsedSource.ofJson?).toList ++ rest

/-- The bits of a number that is none, as the processors make them that the program runs on. -/
def nanBits : Nat → UInt32 := fun _ => 0xffc00000

def unanswered : Service.Net Unit :=
  { send := fun _ _ => (.unreachable "no connection", ()), pause := fun _ _ => () }

def writeBack (before after : Disk) : IO Unit := do
  for (path, bytes) in inSafeOrder (before.writtenOn after) do
    IO.FS.createDirAll (Disk.pathOf (Path.components path).tail.dropLast)
    IO.FS.writeBinFile (path ++ ".tmp") ⟨bytes.toArray⟩
    IO.FS.rename (path ++ ".tmp") path
  let (files, folders) := before.removedOn after
  for path in files do IO.FS.removeFile path
  for path in folders do IO.FS.removeDir path

/-- The disk of an invocation, and the trees of its sources. -/
def prepare (args : List String) (env : Environment) (folder : String) :
    IO (Disk × ParsedTexts) := do
  let here := (Path.components folder).tail
  let base := ((({} : Disk).createFolders folder).toOption.getD {})
  let base := { base with workingFolder := here }
  match Invocation.read args with
  | .error _ => return (base, {})
  | .ok i =>
    let root := i.command.root
    let base := if ← isThere root then (base.createFolders root).toOption.getD base else base
    let disk ← gather base (i.documentPaths env)
    if !i.command.readsSources then return (disk, {})
    let sources ← readSources (← IO.getStdin)
    let disk ← gather disk (sources.flatMap ParsedSource.ignorePaths)
    let disk ← gather disk (sources.map (·.path))
    let texts := sources.foldl (fun texts s =>
      match disk.read s.path with
      | .ok bytes => texts.addAt s.path (Utf8.lossy bytes) s.tree
      | .error _ => texts) ({} : ParsedTexts)
    return (disk, texts)

end Lookalike.Program

open Lookalike in
def main (args : List String) : IO UInt32 := do
  let env ← Environment.names.filterMapM fun name => do return (← IO.getEnv name).map (name, ·)
  let folder ← IO.currentDir
  let (disk, texts) ← Program.prepare args env folder.toString
  let started ← IO.monoMsNow
  let outside : Surroundings := { now := ← Program.now, parse := texts.parse }
  let (ending, stage) := Program.run Program.nanBits args env Program.unanswered outside ⟨disk, ()⟩
  Program.writeBack disk stage.disk
  let ending := ending ((← IO.monoMsNow) - started)
  IO.print ending.output
  IO.eprint ending.complaint
  return ending.exitCode.toUInt32
