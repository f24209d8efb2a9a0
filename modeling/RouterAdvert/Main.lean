import RouterAdvert.Daemon

/-! The command. Without a kernel to talk to it serves no interface: it reads its arguments, says
what it would do, and stops. -/
namespace RouterAdvert

/-- Writes bytes as they are. -/
def writeBytes (stream : IO.FS.Stream) (b : Bytes) : IO Unit := stream.write ⟨b.toArray⟩

/-- Runs the program with these arguments and answers its status. -/
def runCommand (arguments : List String) : IO UInt32 := do
  let outcome := Daemon.run (arguments.map Bytes.ofString) {} [] 0
  writeBytes (← IO.getStdout) outcome.output
  for line in outcome.trace do
    writeBytes (← IO.getStderr) (line ++ [10])
  return ((outcome.status.getD 0).toUInt32)

end RouterAdvert

def main (arguments : List String) : IO UInt32 := RouterAdvert.runCommand arguments
