import TableCalc.Json.Printer
import TableCalc.Server.Session

/-!
The server on standard input and output: one request and one reply a line. The documents are the
files of a directory, which is read again for each request.
-/

namespace TableCalc.Server

/-- The directory of the documents where no other one is set. -/
def defaultDirectory : String := "/app/tblfm"

/-- A file of a directory with its content. Files that cannot be read are passed over. -/
def readEntry (entry : IO.FS.DirEntry) : IO (Option (String × String)) := do
  try
    return some (entry.fileName, ← IO.FS.readFile entry.path)
  catch _ => return none

/-- The files of a directory; none if there is no such directory. -/
def readLibrary (directory : String) : IO Library := do
  try
    let entries ← (← IO.FS.realPath directory).readDir
    return ⟨← entries.toList.filterMapM readEntry⟩
  catch _ => return ⟨[]⟩

/-- The octet of a line feed. -/
def lineFeed : UInt8 := 10

/-- Reads octets up to a line feed, which is kept, or to the end of the input. -/
partial def readLine (input : IO.FS.Stream) (line : ByteArray) : IO ByteArray := do
  let octet ← input.read 1
  let line := line ++ octet
  if octet.isEmpty || octet[0]? == some lineFeed then return line else readLine input line

/-- Writes a reply on a line of its own, and tells whether that went well. -/
def write (output : IO.FS.Stream) (reply : Reply) : IO Bool := do
  try
    output.putStrLn reply.toJson.compact
    output.flush
    return true
  catch _ => return false

partial def serve (engine : Engine) (directory : String) (input output : IO.FS.Stream) :
    IO Unit := do
  let line ← try readLine input .empty catch _ => return
  if line.isEmpty then return
  match turn .brief engine (← readLibrary directory) line with
  | .stop => return
  | .silent => serve engine directory input output
  | .answer reply => if ← write output reply then serve engine directory input output

end TableCalc.Server

open TableCalc.Server in
/-- Serves the documents of the directory that is set, with the digits that are set. -/
def main : IO Unit := do
  let directory := (← IO.getEnv "TBLFM_DATA_PATH").getD defaultDirectory
  let engine := engineFor (← IO.getEnv "TBLFM_DIVISION_DIGITS")
  serve engine directory (← IO.getStdin) (← IO.getStdout)
