import PolicyLevers.CommandLine.Execution

/-!
# The program

Connects the commands to the files and streams of the system.
-/

set_option autoImplicit false

open PolicyLevers PolicyLevers.CommandLine

def readSystemFile (path : String) : IO FileContent := do
  try
    let bytes ← IO.FS.readBinFile path
    match String.fromUTF8? bytes with
    | some content => pure (.text content)
    | none => pure .unreadable
  catch
    | .noFileOrDirectory _ _ _ => pure .missing
    | _ => pure .unreadable

/-- Writes a file; `false` if it cannot be written. -/
def writeSystemFile (path content : String) : IO Bool := do
  try
    IO.FS.writeFile path content
    pure true
  catch _ => pure false

def readSystemInput : IO (Option String) := do
  let bytes ← (← IO.getStdin).readBinToEnd
  pure (String.fromUTF8? bytes)

def freshSystemSeed : IO UInt64 := do
  let bytes ← IO.getRandomBytes 8
  pure (bytes.toList.foldl (fun seed byte => seed * 256 + byte.toUInt64) 0)

def systemHost : Host IO where
  contentOf := readSystemFile
  store := writeSystemFile
  input := readSystemInput
  print text := do (← IO.getStdout).putStr text
  complain message := do (← IO.getStderr).putStrLn message
  freshSeed := freshSystemSeed

def main (arguments : List String) : IO UInt32 := do
  let exit ← execute systemHost arguments
  pure exit.code.toUInt32
