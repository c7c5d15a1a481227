import ScriptAssist.CommandLine
import ScriptAssist.Session.Encoding

/-!
# The program

Reads the command line and serves one client over standard input and output.
-/

namespace ScriptAssist
namespace Program

-- The length that the header lines tell, up to the empty one.
partial def readLength (input : IO.FS.Stream) (length : Nat) : IO (Option Nat) := do
  let line ← input.getLine
  if line.isEmpty then
    return none
  let header := Text.trim line.toList
  if header.isEmpty then
    return some length
  readLength input ((Envelope.length? header).getD length)

partial def readBytes (input : IO.FS.Stream) (count : Nat) (read : ByteArray) :
    IO ByteArray := do
  if count ≤ read.size then
    return read
  let more ← input.read (count - read.size).toUSize
  if more.isEmpty then
    return read
  readBytes input count (read ++ more)

/-- A host that takes every text for a URI and leaves it as it is written: its clients
write URIs in their normal form. -/
def host : Host where
  platform := .other
  parseUri? := some
  accepts _ _ := true

partial def serve (input output : IO.FS.Stream) (server : Server) : IO Unit := do
  let some length ← readLength input 0 | return
  let bytes ← readBytes input length .empty
  let envelope? := do
    Envelope.ofJson? (← Json.read? (← String.fromUTF8? bytes))
  match envelope? with
  | none => serve input output server
  | some envelope =>
      let (next, reaction) := server.step host envelope.message
      for value in envelope.outgoing reaction do
        output.putStr (Envelope.frame value)
      output.flush
      if next.phase ≠ .ended then
        serve input output next

end Program
end ScriptAssist

open ScriptAssist in
def main (arguments : List String) : IO UInt32 := do
  let outcome := CommandLine.read arguments
  let report := outcome.report
  match outcome with
  | .serve stdio =>
      IO.eprintln (CommandLine.startLine stdio)
      Program.serve (← IO.getStdin) (← IO.getStdout)
        (Server.fresh Program.host)
      IO.eprintln CommandLine.exitLine
  | _ =>
      for line in report.output do
        IO.println line
      for line in report.log do
        IO.eprintln line
  return report.exitCode.toUInt32
