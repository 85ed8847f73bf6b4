import BufferFlow.Command

set_option autoImplicit false

namespace BufferFlow.Main

def line (r : Record) : String :=
  s!"{r.level.name} {r.message} " ++ " ".intercalate (r.fields.map fun (name, text) => s!"{name}={text}")

def contents? (path : String) : IO (Option (List UInt8)) := do
  try
    return some (← IO.FS.readBinFile path).toList
  catch _ => return none

end BufferFlow.Main

def main (arguments : List String) : IO UInt32 := do
  let path := BufferFlow.Command.pathOf arguments
  let outcome := BufferFlow.Command.run path (← BufferFlow.Main.contents? path)
  for record in outcome.records do
    IO.println (BufferFlow.Main.line record)
  match outcome.errorLine with
  | some text => IO.eprintln text
  | none => pure ()
  return (outcome.exitCode.getD 134).toUInt32
