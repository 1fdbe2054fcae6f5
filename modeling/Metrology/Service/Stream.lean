import Metrology.Service.Operation

/-!
# Streams of requests

A stream has one request on each line that is not blank. `Stream.feed` answers the lines that a chunk
of the stream completes, in order, and stops at the first line that is not UTF-8, which counts as the end
of the input.
-/

namespace Metrology.Stream

/-- What a line of input calls for. -/
inductive Reaction where
  | stop
  | skip
  | respond (response : Response)

def lines (bytes : List UInt8) : List (List UInt8) :=
  bytes.splitOn 10

def decode? (line : List UInt8) : Option String :=
  String.fromUTF8? ⟨line.toArray⟩

def isText (line : List UInt8) : Bool :=
  (decode? line).isSome

def react (style : Style) (line : List UInt8) : Reaction :=
  match decode? line with
  | none => .stop
  | some text =>
    let cs := Text.trim text.toList
    if cs = [] then .skip else .respond (Response.ofLine style (String.ofList cs))

/-- The responses to the lines before the first that stops the stream. -/
def answer (style : Style) : List (List UInt8) → List Response
  | [] => []
  | line :: rest =>
    match react style line with
    | .stop => []
    | .skip => answer style rest
    | .respond response => response :: answer style rest

/-! ### Arrival in chunks -/

/-- The responses that a chunk calls for after the start `pending` of a line, and the start of a line that
it leaves over, if the stream goes on. The empty chunk is the end of the input and completes the last line. -/
def feed (style : Style) (pending chunk : List UInt8) : List Response × Option (List UInt8) :=
  let all := lines (pending ++ chunk)
  if chunk = [] then (answer style all, none)
  else
    let complete := all.dropLast
    (answer style complete, if complete.all isText then all.getLast? else none)

/-- The responses to chunks that come one after the other before the input ends. -/
def feedAll (style : Style) (pending : List UInt8) : List (List UInt8) → List Response
  | [] => (feed style pending []).1
  | chunk :: chunks =>
    match feed style pending chunk with
    | (responses, some rest) => responses ++ feedAll style rest chunks
    | (responses, none) => responses

/-- What a run leaves behind. -/
structure Run where
  responses : List Response
  exitCode : UInt32

/-- The run over a stream that arrives in one piece; there is no failure. -/
def run (style : Style) (bytes : List UInt8) : Run :=
  ⟨feedAll style [] [bytes], 0⟩

/-- The style that a setting names; nice without a setting or when it names none. -/
def defaultStyle (setting : Option String) : Style :=
  match setting.map Style.read with
  | some (.ok style) => style
  | _ => .nice

end Metrology.Stream
