import SolanaTx.CommandLine

/-!
# The program

Reads the files and the environment, and leaves the rest to `CommandLine.execute`.
-/

open SolanaTx

def usage : String :=
  "usage: solanatx PATH [--verbosity quiet|condensed|full] [--idl PATH]..."

/-- The document that a file holds. -/
def readDocument (path : Text) : IO (Except Json.ReadError Json) := do
  try
    let content ← IO.FS.readBinFile path.toString
    pure (Json.ofBytes content.toList)
  catch _ => pure (.error .malformed)

def readSettings : IO Settings := do
  let found ← Settings.variableNames.mapM fun name => do
    pure (name, (← IO.getEnv name.toString).map Text.ofString)
  pure (.ofEnvironment fun name => (found.lookup name).join)

def main (words : List String) : IO UInt32 := do
  match Arguments.ofWords? (words.map Text.ofString) with
  | none =>
      IO.eprintln usage
      pure 2
  | some a =>
      let documents ← (a.path :: a.descriptions).mapM fun path => do
        pure (path, ← readDocument path)
      let read (path : Text) := (documents.lookup path).getD (.error .malformed)
      match CommandLine.execute (← readSettings) read a with
      | .ok exit =>
          IO.print exit.output.toString
          IO.eprint exit.errors.toString
          pure exit.status
      | .error fault =>
          IO.eprintln fault.message.toString
          pure 1
