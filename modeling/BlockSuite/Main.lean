import BlockSuite.CommandLine

/-!
The program: it reads the arguments, the files and the environment variables that a call needs,
and prints the answer.
-/

open BlockSuite

/-- The environment variables of settings, under their names in capitals. -/
def environmentVariables : IO (Dict String) := do
  let names := Settings.names.map fun name => Settings.variableStart ++ Text.upper name
  let found ← names.mapM fun name => do return (name, ← IO.getEnv name)
  return found.filterMap fun e => e.2.map fun s => (e.1, s)

/-- What a path leads to. -/
def entryAt (path : String) : IO Entry := do
  try
    if ← (← IO.FS.realPath path).isDir then return .directory
    else return .file (String.fromUTF8? (← IO.FS.readBinFile path))
  catch _ => return .missing

def main (words : List String) : IO UInt32 := do
  let host ← environmentVariables
  let found ← words.mapM fun word => do return (word, ← entryAt word)
  let report := CommandLine.call host [] (fun path => (found.lookup path).getD .missing) words
  let stderr ← IO.getStderr
  for warning in report.warnings do stderr.putStrLn warning
  stderr.putStr report.complaint
  if let some f := report.failure then
    stderr.putStrLn (f.label ++ ": " ++ ((f.text.toOption).getD ""))
  IO.print report.printed
  return report.code.toUInt32
