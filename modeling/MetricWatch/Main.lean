import MetricWatch.CommandLine.Run
import Std.Time.DateTime.Timestamp

namespace MetricWatch

open CommandLine

def readFile? (path : String) : IO (Option String) := do
  try return some (← IO.FS.readFile path)
  catch _ => return none

def hasFile (path : String) : IO Bool := do
  try return (← (← IO.FS.realPath path).metadata).type == .file
  catch _ => return false

def currentInstant : IO Instant := do
  let nanoseconds := (← Std.Time.Timestamp.now).toNanosecondsSinceUnixEpoch.val
  return (Instant.ofParts? (nanoseconds / nanosPerSecond) (nanoseconds % nanosPerSecond).toNat).getD .epoch

def randomSeed : IO UInt64 := do
  return (← IO.getRandomBytes 8).foldl (fun seed byte ↦ seed * 256 + byte.toUInt64) 0

/-- The surroundings of a run in which every path can be written to. The two readings of the clock
are one. -/
def currentSurroundings (words : List String) : IO Surroundings := do
  let inputs := match Invocation.read words with
    | .ok invocation => invocation.inputs
    | .error _ => []
  let files ← inputs.filterM hasFile
  let texts ← inputs.filterMapM fun path ↦ do return (← readFile? path).map fun text ↦ (path, text)
  let now ← currentInstant
  return {
    isFile := fun path ↦ decide (path ∈ files)
    read? := fun path ↦ texts.lookup path
    writable := fun _ ↦ true
    now
    later := now
    seed := ← randomSeed }

def writeFile (o : Outcome) : IO Outcome := do
  match o.file with
  | some (path, text) =>
    try
      IO.FS.writeFile path text
      return o
    catch _ => return .ofRefusal (.output path .io)
  | none => return o

end MetricWatch

open MetricWatch CommandLine in
def main (words : List String) : IO UInt32 := do
  let outcome ← writeFile (Outcome.ofWords (← currentSurroundings words) words)
  IO.print outcome.output
  IO.eprint (outcome.error.getD "")
  return outcome.exit.toUInt32
