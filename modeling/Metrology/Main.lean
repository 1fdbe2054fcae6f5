import Metrology.Service.Stream

/-!
# Command line

Reads one request a line from standard input and answers each with one line on standard output.
The variable `QUANTIA_STYLE` sets the style of requests that name none.
-/

open Metrology

/-- Answers complete lines as they arrive; `pending` is the start of a line. -/
partial def serve (style : Style) (input output : IO.FS.Stream) (pending : List UInt8) :
    IO PUnit := do
  let chunk ← input.read 65536
  let (responses, rest) := Stream.feed style pending chunk.toList
  for response in responses do
    output.putStr response.output
    output.flush
  match rest with
  | some rest => serve style input output rest
  | none => return ⟨⟩

def main : IO UInt32 := do
  let style := Stream.defaultStyle (← IO.getEnv "QUANTIA_STYLE")
  serve style (← IO.getStdin) (← IO.getStdout) []
  return 0
