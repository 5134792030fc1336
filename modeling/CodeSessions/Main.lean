import CodeSessions.Console

/-!
# Command line

Reads submissions from standard input up to its end, one on a line, and writes the replies to
standard output.  `config --file FILE` names a file with settings.
-/

namespace CodeSessions

def Invocation.settings (i : Invocation) : IO (Except Settings.LoadFailure Settings) := do
  match i.settingsFile with
  | none => return .ok {}
  | some file =>
      let contents ← (IO.FS.readBinFile file).toBaseIO
      return Settings.ofFile (contents.mapError toString)

/-- Answers the lines of a stream; an empty one is its end, as other lines end in a line feed. -/
partial def Console.serve (c : Console) (input output : IO.FS.Stream) : IO Unit := do
  let line ← input.getLine
  if line.isEmpty then return ()
  let (reply, c) := c.answerLine (← IO.monoMsNow) line
  output.putStrLn reply
  output.flush
  c.serve input output

end CodeSessions

def main (arguments : List String) : IO UInt32 := do
  match CodeSessions.Invocation.ofArguments? arguments with
  | none =>
      IO.eprintln CodeSessions.Invocation.usage
      return 2
  | some invocation =>
      match ← invocation.settings with
      | .error failure =>
          IO.eprintln failure.message
          return 1
      | .ok settings =>
          let console := CodeSessions.Console.ofSettings settings (← IO.monoMsNow)
          console.serve (← IO.getStdin) (← IO.getStdout)
          return 0
