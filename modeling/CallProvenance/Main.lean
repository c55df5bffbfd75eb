import CallProvenance.Run

/-! The command line. -/
namespace CallProvenance
namespace CommandLine

def usage : String :=
  "Trace method invocations and where their arguments come from in JVM class and JAR files.\n\n" ++
  "Usage: call-provenance [OPTIONS] --input <PATH>...\n\n" ++
  "Options:\n" ++
  "  --input <PATH>...           Class files, JAR files or directories to analyze\n" ++
  "  --output <PATH>             Report destination; - or no value writes to stdout\n" ++
  "  --field-conflict <CHOICE>   report (the default) or abort\n" ++
  "  --sequential                Analyze classes on the current thread only\n" ++
  "  --fail-on-problems          Exit with a failure status when any problem was reported\n" ++
  "  --quiet\n" ++
  "  --timing\n" ++
  "  -h, --help                  Print help\n" ++
  "  -V, --version               Print version\n"

def version : String := "call-provenance 0.1.0\n"

def pathFault : IO.Error → PathFault
  | .noFileOrDirectory .. => .missing
  | .permissionDenied .. => .denied
  | cause => .other (toString cause)

/-- Reads what a path leads to; `none` if there is nothing. What cannot be read is kept with the reason. -/
partial def load (path : String) : IO (Option FileTree) := do
  let place := (← IO.currentDir) / path
  if ← place.isDir then
    try
      let names := (← place.readDir).map (·.fileName)
      let entries ← names.mapM fun name => do
        return (name, (← load (Path.child path name)).getD (.lost .missing))
      return some (.directory entries.toList none)
    catch cause => return some (.directory [] (some (.closed (pathFault cause))))
  else if ← place.pathExists then
    try return some (.file (.ok (← IO.FS.readBinFile place).data))
    catch cause => return some (.file (.error (pathFault cause)))
  else return none

def write (destination : Destination) (text : String) : IO Unit := do
  match destination with
  | .standardOutput => IO.print text
  | .file path =>
    try IO.FS.writeFile path text
    catch cause => throw (IO.userError s!"failed to open {path}: {cause}")

/-- Whether a file can be written shows when it is written. -/
def runWith (words : List String) (options : Options) : IO UInt32 := do
  let started ← IO.monoMsNow
  let trees ← options.inputs.mapM fun path => return (path, ← load path)
  let loaded ← IO.monoMsNow
  match runIn (fun path => (trees.lookup path).join) (fun _ => .ok ()) words with
  | .error cause =>
    IO.eprintln s!"Error: {cause.message}"
    return 1
  | .ok result =>
    write result.destination result.text
    let finished ← IO.monoMsNow
    if options.has .timing && !options.has .quiet then
      IO.eprintln <| s!"timing: total_ms={finished - started} scan_ms={loaded - started} " ++
        s!"analysis_ms={finished - loaded} classes={result.report.summary.scannedClasses}"
    return if result.outcome = .success then 0 else 1

end CommandLine
end CallProvenance

open CallProvenance in
def main (words : List String) : IO UInt32 := do
  match Options.parse words with
  | .ok options => CommandLine.runWith words options
  | .error .helpRequested =>
    IO.print CommandLine.usage
    return 0
  | .error .versionRequested =>
    IO.print CommandLine.version
    return 0
  | .error cause =>
    IO.eprintln s!"error: {cause.message}"
    return 2
