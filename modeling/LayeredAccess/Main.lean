/-
  LayeredAccess.Main

  A compiler as a program of its own: envelopes come in one per line, replies
  go out one per line, until the input ends.
-/
import LayeredAccess.Compiler.Lines

namespace LayeredAccess.Compiler

/-- Answers the lines of the input with one compiler. -/
partial def answerLines (input output : IO.FS.Stream) (compiler : Compiler) : IO Unit := do
  let line ← input.getLine
  unless line.isEmpty do
    let (reply, compiler) := compiler.handleLine line
    if let some reply := reply then
      output.putStrLn reply
      output.flush
    answerLines input output compiler

end LayeredAccess.Compiler

def main : IO Unit := do
  LayeredAccess.Compiler.answerLines (← IO.getStdin) (← IO.getStdout) {}
