set_option autoImplicit false

namespace BufferFlow

structure Ipv4 where
  a : UInt8
  b : UInt8
  c : UInt8
  d : UInt8
  deriving DecidableEq

structure Ipv6 where
  groups : List UInt16
  deriving DecidableEq

inductive SocketAddress
  | v4 (ip : Ipv4) (port : UInt16)
  | v6 (ip : Ipv6) (scope : UInt32) (port : UInt16)
  deriving DecidableEq

namespace SocketAddress

def digit? (radix : Nat) (c : Char) : Option Nat :=
  let value? :=
    if '0' ≤ c ∧ c ≤ '9' then some (c.toNat - '0'.toNat)
    else if 'a' ≤ c ∧ c ≤ 'f' then some (c.toNat - 'a'.toNat + 10)
    else if 'A' ≤ c ∧ c ≤ 'F' then some (c.toNat - 'A'.toNat + 10)
    else none
  value?.filter (· < radix)

def ofDigits (radix : Nat) (cs : List Char) : Nat :=
  cs.foldl (fun n c => n * radix + (digit? radix c).getD 0) 0

def readNumber (radix limit : Nat) (cs : List Char) : Option (Nat × List Char) :=
  let digits := cs.takeWhile fun c => (digit? radix c).isSome
  let n := ofDigits radix digits
  if digits.isEmpty ∨ limit ≤ n then none else some (n, cs.drop digits.length)

def readChar (c : Char) : List Char → Option (List Char)
  | [] => none
  | d :: cs => if d = c then some cs else none

def readOctet (cs : List Char) : Option (UInt8 × List Char) := do
  let (n, rest) ← readNumber 10 256 cs
  let digits := cs.length - rest.length
  if 3 < digits ∨ (1 < digits ∧ cs.head? = some '0') then none else return (n.toUInt8, rest)

def readIpv4 (cs : List Char) : Option (Ipv4 × List Char) := do
  let (a, cs) ← readOctet cs
  let (b, cs) ← readOctet (← readChar '.' cs)
  let (c, cs) ← readOctet (← readChar '.' cs)
  let (d, cs) ← readOctet (← readChar '.' cs)
  return (⟨a, b, c, d⟩, cs)

def readGroup (cs : List Char) : Option (UInt16 × List Char) := do
  let (n, rest) ← readNumber 16 UInt16.size cs
  if 4 < cs.length - rest.length then none else return (n.toUInt16, rest)

def join16 (high low : UInt8) : UInt16 := high.toUInt16 * 256 + low.toUInt16

/-- Skips the colon in front of a group, which only the first group of a part does without. -/
def readColon (first : Bool) (cs : List Char) : Option (List Char) :=
  if first then some cs else readChar ':' cs

/-- Reads at most `limit` groups divided by colons; the last two may be written as an IPv4 address.
Tells whether they were, and what is left. -/
def readGroups : Nat → Bool → List Char → List UInt16 × Bool × List Char
  | 0, _, cs => ([], false, cs)
  | limit + 1, first, cs =>
    let embedded := if limit = 0 then none else (readColon first cs).bind readIpv4
    match embedded with
    | some (ip, rest) => ([join16 ip.a ip.b, join16 ip.c ip.d], true, rest)
    | none =>
      match (readColon first cs).bind readGroup with
      | none => ([], false, cs)
      | some (group, rest) =>
        let (groups, embedded, rest) := readGroups limit false rest
        (group :: groups, embedded, rest)

/-- Either all eight groups, or two parts around a double colon that stands for at least one zero
group. -/
def readIpv6 (cs : List Char) : Option (Ipv6 × List Char) := do
  let (front, embedded, cs) := readGroups 8 true cs
  if front.length = 8 then return (⟨front⟩, cs)
  if embedded then none
  let cs ← readChar ':' (← readChar ':' cs)
  let (back, _, cs) := readGroups (7 - front.length) true cs
  return (⟨front ++ List.replicate (8 - front.length - back.length) 0 ++ back⟩, cs)

def readPort (cs : List Char) : Option UInt16 := do
  let (port, rest) ← readNumber 10 UInt16.size (← readChar ':' cs)
  if rest.isEmpty then return port.toUInt16 else none

def readScope (cs : List Char) : UInt32 × List Char :=
  match (readChar '%' cs).bind (readNumber 10 UInt32.size) with
  | none => (0, cs)
  | some (scope, rest) => (scope.toUInt32, rest)

def readV4 (cs : List Char) : Option SocketAddress := do
  let (ip, cs) ← readIpv4 cs
  return .v4 ip (← readPort cs)

def readV6 (cs : List Char) : Option SocketAddress := do
  let (ip, cs) ← readIpv6 (← readChar '[' cs)
  let (scope, cs) := readScope cs
  return .v6 ip scope (← readPort (← readChar ']' cs))

def parse? (text : String) : Option SocketAddress :=
  (readV4 text.toList).or (readV6 text.toList)

def ipv4Text (ip : Ipv4) : String := s!"{ip.a.toNat}.{ip.b.toNat}.{ip.c.toNat}.{ip.d.toNat}"

def groupText (g : UInt16) : String := String.ofList (Nat.toDigits 16 g.toNat)

def groupsText (gs : List UInt16) : String := ":".intercalate (gs.map groupText)

def zeroRuns (gs : List UInt16) : List (Nat × Nat) :=
  (List.range gs.length).map fun i => (i, ((gs.drop i).takeWhile (· == 0)).length)

def longestRun (gs : List UInt16) : Nat × Nat :=
  (zeroRuns gs).foldl (fun best run => if best.2 < run.2 then run else best) (0, 0)

/-- The IPv4 address that an IPv6 address stands for, if it is a mapped one. -/
def mapped? (ip : Ipv6) : Option Ipv4 :=
  match ip.groups with
  | [0, 0, 0, 0, 0, 0xFFFF, x, y] =>
    some ⟨(x >>> 8).toUInt8, x.toUInt8, (y >>> 8).toUInt8, y.toUInt8⟩
  | _ => none

def ipv6Text (ip : Ipv6) : String :=
  match mapped? ip with
  | some ip => "::ffff:" ++ ipv4Text ip
  | none =>
    let (start, length) := longestRun ip.groups
    if 1 < length then
      groupsText (ip.groups.take start) ++ "::" ++ groupsText (ip.groups.drop (start + length))
    else groupsText ip.groups

def scopeText (scope : UInt32) : String := if scope = 0 then "" else s!"%{scope.toNat}"

def render : SocketAddress → String
  | .v4 ip port => s!"{ipv4Text ip}:{port.toNat}"
  | .v6 ip scope port => s!"[{ipv6Text ip}{scopeText scope}]:{port.toNat}"

end SocketAddress

end BufferFlow
