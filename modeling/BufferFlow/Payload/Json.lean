import BufferFlow.Json.Value
import BufferFlow.Payload
import BufferFlow.Text.Hex

set_option autoImplicit false

namespace BufferFlow.Payload

def wordsJson (words : Array UInt64) : Json := .array (words.toList.map Json.ofWord)

def bytesJson (bytes : List UInt8) : Json := .ofText (Text.Hex.ofBytes bytes)

/-- A count of ones, null where it does not fit its 32 bits. -/
def onesJson : Except Fault UInt32 → Json
  | .ok n => .integer n.toNat
  | .error _ => .null

def toJson : Payload → Json
  | .signal s => .ofFields [("status", .bool s.status)]
  | .exchange v => .ofFields [("len", .integer v.bits), ("words", wordsJson v.words)]
  | .fire v =>
    .ofFields [("words", wordsJson v.words), ("ones", onesJson v.countOnes),
      ("step", .ofWord v.step)]
  | .sink b =>
    .ofFields [("hex", bytesJson b.data), ("ones", onesJson b.countOnes), ("step", .ofWord b.step)]
  | .bytes data => .ofFields [("hex", bytesJson data)]

end BufferFlow.Payload
