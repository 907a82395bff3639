import SliceAgent.Agent
import SliceAgent.Http.Api
import SliceAgent.Settings.Toml

/-!
The command line. It writes out the settings that an agent has when none are given, as a file to start
from.
-/
namespace SliceAgent

def usage : String := "usage: slice-agent default-config"

/-- What a command line asks for, if it is understood. -/
def commandOutput? : List String → Option String
  | ["default-config"] => some Settings.standard.toToml
  | _ => none

end SliceAgent

def main (args : List String) : IO UInt32 := do
  match SliceAgent.commandOutput? args with
  | some text =>
    IO.print text
    return 0
  | none =>
    IO.eprintln SliceAgent.usage
    return 2
