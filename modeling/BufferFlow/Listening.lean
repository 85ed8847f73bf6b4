import BufferFlow.SocketAddress

set_option autoImplicit false

namespace BufferFlow

namespace Ipv4

def isUnspecified (ip : Ipv4) : Bool := ip == ⟨0, 0, 0, 0⟩

def isLoopback (ip : Ipv4) : Bool := ip.a == 127

def isMulticast (ip : Ipv4) : Bool := 224 ≤ ip.a && ip.a < 240

def isBroadcast (ip : Ipv4) : Bool := ip == ⟨255, 255, 255, 255⟩

def canListen (ip : Ipv4) : Bool :=
  ip.isUnspecified || ip.isLoopback || ip.isMulticast || ip.isBroadcast

end Ipv4

namespace Ipv6

def isUnspecified (ip : Ipv6) : Bool := ip.groups == [0, 0, 0, 0, 0, 0, 0, 0]

def isLoopback (ip : Ipv6) : Bool := ip.groups == [0, 0, 0, 0, 0, 0, 0, 1]

end Ipv6

namespace SocketAddress

/-- A mapped IPv6 address is the IPv4 address that it stands for. -/
def unmapped : SocketAddress → SocketAddress
  | .v4 ip port => .v4 ip port
  | .v6 ip scope port =>
    match mapped? ip with
    | some ip => .v4 ip port
    | none => .v6 ip scope port

def port : SocketAddress → UInt16
  | .v4 _ port => port
  | .v6 _ _ port => port

def canListen (a : SocketAddress) : Bool :=
  match a.unmapped with
  | .v4 ip _ => ip.canListen
  | .v6 ip _ _ => ip.isUnspecified || ip.isLoopback

/-- Whether some connection would reach listeners on both addresses. The unspecified IPv6 address
takes IPv4 connections too. -/
def overlaps (a b : SocketAddress) : Bool :=
  match a.unmapped, b.unmapped with
  | .v4 x _, .v4 y _ => x == y || x.isUnspecified || y.isUnspecified
  | .v6 x _ _, .v6 y _ _ => x == y || x.isUnspecified || y.isUnspecified
  | .v4 _ _, .v6 y _ _ => y.isUnspecified
  | .v6 x _ _, .v4 _ _ => x.isUnspecified

def blocks (a b : SocketAddress) : Bool := a.port == b.port && a.port != 0 && a.overlaps b

end SocketAddress

end BufferFlow
