import BufferFlow.Counters
import BufferFlow.Json.Writer
import BufferFlow.Text.Blank
import BufferFlow.Text.Utf8

set_option autoImplicit false

namespace BufferFlow

def version : String := "0.1.0"

namespace Stats

def readLimit : Nat := 1024

def snapshotFields (c : Counters) : List (String × Json) :=
  c.toFields.map fun (name, n) => (name, Json.ofWord n)

def body (c : Counters) : Json :=
  .ofFields ((("version", Json.ofText version) :: snapshotFields c)
    ++ [("buffers_in_flight", Json.ofWord c.inFlight)])

inductive Status
  | ok
  | notFound
  deriving DecidableEq

def Status.line : Status → String
  | .ok => "200 OK"
  | .notFound => "404 Not Found"

def path (line : List Char) : String :=
  match (Text.words line)[1]? with
  | none => "/"
  | some word => String.ofList word

def route (line : List Char) (c : Counters) : Status × String :=
  if path line == "/stats" then (.ok, (body c).pretty)
  else (.notFound, "\x7b\"error\": \"Not found\"\x7d")

def response (status : Status) (body : String) : String :=
  s!"HTTP/1.1 {status.line}\r\nContent-Type: application/json\r\n"
    ++ s!"Content-Length: {body.utf8ByteSize}\r\nConnection: close\r\n\r\n{body}"

/-- The answer to the bytes of a request; nothing is answered to none. -/
def respond (c : Counters) (request : List UInt8) : String :=
  if request.isEmpty then ""
  else
    let text := Text.Utf8.decodeLossy (request.take readLimit)
    let (status, body) := route (Text.firstLine text) c
    response status body

end Stats

end BufferFlow
