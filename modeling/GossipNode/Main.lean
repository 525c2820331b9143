import GossipNode.CommandLine.Parse
import GossipNode.Loopback.Machine

/-!
# The program

Runs a node on a machine of its own until the standard input ends.
-/

namespace GossipNode

/-- Runs a node as it is told on the command line. -/
def runNode (options : CommandLine.Options) : IO UInt32 := do
  let random ← IO.rand 0 (Nat.pow 2 32 - 1)
  let node := Node.new options.config (Int32.ofNat random)
  let (answer, machine) := (Loopback.Machine.start true).startNode CommandLine.programName node
  match answer with
  | .error e =>
    IO.eprintln ("Error: " ++ e.message)
    return 1
  | .ok () =>
    let machine := machine.settle
    match machine.node? CommandLine.programName with
    | none => return 1
    | some node =>
      if let some address := node.localAddress then
        IO.print (CommandLine.listeningText address node.uid)
      let _ ← (← IO.getStdin).readToEnd
      IO.print CommandLine.stoppingText
      let machine := machine.stopNode CommandLine.programName node
      return if (machine.node? CommandLine.programName).any (·.isRunning) then 1 else 0

end GossipNode

/-- Answers a command line. -/
def main (arguments : List String) : IO UInt32 := do
  match GossipNode.CommandLine.parse arguments with
  | .ok .help =>
    IO.print GossipNode.CommandLine.helpText
    return 0
  | .ok .version =>
    IO.print GossipNode.CommandLine.versionText
    return 0
  | .ok (.run options) => GossipNode.runNode options
  | .error fault =>
    IO.eprintln fault.report
    return 2
