import Lookalike.CommandLine.Answer
import Lookalike.CommandLine.Arguments
import Lookalike.CommandLine.FileLine
import Lookalike.Config.Load
import Lookalike.Index.Registry

/-!
# The program

One invocation loads the configuration, makes a client of the embedding service, and carries out its
command. What remains of it is what it did to the disk and the network.
-/

namespace Lookalike

/-- What an invocation works on. -/
structure Stage (σ : Type) where
  disk : Disk
  network : σ

namespace Invocation

variable {σ : Type}

def failed {α : Type} (doing : String) (result : Except IndexError α) : Except Failure α :=
  result.mapError fun e => e.failure.context doing

/-- The configuration of an invocation, free of faults. -/
def configure (i : Invocation) (env : Environment) (d : Disk) : Except Failure Config :=
  let path := Config.path i.config env
  match Config.load d path env with
  | .error e =>
    let cause :=
      match e with
      | .unreadable false => "stream did not contain valid UTF-8"
      | _ => "<cut>"
    .error { message := s!"loading {path}", causes := [e.message, cause] }
  | .ok config =>
    match config.fault? with
    | some fault => .error { message := fault.message }
    | none => .ok config

/-- Carries out a command. -/
def carryOut (nanBits : Nat → UInt32) (command : Command) (config : Config) (net : Service.Net σ)
    (outside : Surroundings) (stage : Stage σ) : Except Failure Answer × Stage σ :=
  let r : Registry (Service.State σ) :=
    .new (Service.provider net config.service) config.indexer
  let client : Service.State σ := { network := stage.network }
  match command with
  | .index path force model exclude =>
    let world : World (Service.State σ) := { disk := stage.disk, provider := client }
    let (result, _, w) := r.index path model outside { force, exclude } world
    ((failed s!"indexing {path}" result).map .indexed, ⟨w.disk, w.provider.network⟩)
  | .dupes path threshold minGroupSize kind =>
    let options : GroupOptions :=
      { threshold := threshold.getD config.duplicates.threshold
        minSize := minGroupSize.getD config.duplicates.minGroupSize
        kind }
    let (result, _) := r.findDuplicates nanBits stage.disk path options
    ((failed s!"finding duplicates in {path}" result).map .groups, stage)
  | .search query path top threshold =>
    let (result, _, client) := r.search stage.disk path query (top.getD config.search.top)
      (threshold.getD config.search.threshold) client
    ((failed s!"searching {path}" result).map .hits, { stage with network := client.network })
  | .similar path place top threshold =>
    match FileLine.read place with
    | .error fault => (.error { message := fault.message place, causes := fault.causes }, stage)
    | .ok found =>
      let (result, _) := r.findSimilar stage.disk path found.file (UInt64.ofNat found.line)
        (top.getD config.search.top) (threshold.getD config.search.threshold)
      ((failed s!"looking up {place}" result).map .hits, stage)
  | .stats path =>
    let (result, _) := r.stats stage.disk path
    ((failed s!"reading index of {path}" result).map .stats, stage)
  | .clear path =>
    let (result, _, disk) := r.deleteIndex stage.disk path
    let answer (deleted : Bool) : Answer := if deleted then .deleted path else .nothingDeleted path
    ((result.mapError IndexError.failure).map answer, { stage with disk })

def run (nanBits : Nat → UInt32) (i : Invocation) (env : Environment) (net : Service.Net σ)
    (outside : Surroundings) (stage : Stage σ) : Except Failure Answer × Stage σ :=
  match i.configure env stage.disk with
  | .error f => (.error f, stage)
  | .ok config => carryOut nanBits i.command config net outside stage

end Invocation

/-- How a program ends: its exit code, and what it prints as its answer and as its complaint. -/
structure Ending where
  exitCode : UInt8
  output : String := ""
  complaint : String := ""
  deriving DecidableEq, Repr

namespace Program

def version : String := "simili 0.3.0\n"

def usage : String :=
  "Find near-duplicate components, hooks and functions by embedding similarity\n\n" ++
    "Usage: simili [OPTIONS] <COMMAND>\n\n" ++
    "Commands: index, dupes, search, similar, stats, clear\n" ++
    "Options: -c/--config FILE, -v/--verbose, -h/--help, -V/--version\n"

variable {σ : Type}

/-- Runs the program. The duration is that of the run, for the report. -/
def run (nanBits : Nat → UInt32) (args : List String) (env : Environment) (net : Service.Net σ)
    (outside : Surroundings) (stage : Stage σ) : (Nat → Ending) × Stage σ :=
  match Invocation.read args with
  | .error .help => (fun _ => { exitCode := 0, output := usage }, stage)
  | .error .version => (fun _ => { exitCode := 0, output := version }, stage)
  | .error .invalid => (fun _ => { exitCode := 2, complaint := usage }, stage)
  | .ok i =>
    match i.run nanBits env net outside stage with
    | (.ok answer, stage) =>
      (fun ms => { exitCode := 0, output := answer.text i.json ms }, stage)
    | (.error f, stage) => (fun _ => { exitCode := f.exitCode, complaint := f.text }, stage)

end Program

end Lookalike
