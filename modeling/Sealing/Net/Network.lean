import Sealing.Net.Address

/-!
# The network of a machine

A program can bind a socket to listen on, and connect to one that listens. Where the machine refuses
it gives its reason as a text.
-/

namespace Sealing.Net

namespace Address

/-- Whether an address stands for the machine itself. -/
def isLoopback : Address → Bool
  | v4 a => a.toList.head? == some 127
  | v6 a => a == #v[0, 0, 0, 0, 0, 0, 0, 1]

/-- Whether an address stands for all addresses of the machine. -/
def isUnspecified : Address → Bool
  | v4 a => a == #v[0, 0, 0, 0]
  | v6 a => a == #v[0, 0, 0, 0, 0, 0, 0, 0]

/-- Whether four bytes are behind an address, if only as the end of eight groups. -/
def isFourBytes : Address → Bool
  | v4 _ => true
  | v6 a => a.toList.take 6 == [0, 0, 0, 0, 0, 0xFFFF]

end Address

/-- What the network of a machine lets a program do. -/
structure Network where
  bind : Socket → Except String Unit
  connect : Socket → Except String Unit

namespace Network

/-- A bind that succeeds for some addresses only. -/
def bindIf (usable : Address → Bool) (s : Socket) : Except String Unit :=
  if usable s.address then .ok ()
  else .error "Cannot assign requested address (os error 99)"

/-- A connection that succeeds for some addresses only. -/
def connectIf (usable : Address → Bool) (s : Socket) : Except String Unit :=
  if usable s.address then .ok () else .error "Network is unreachable (os error 101)"

/-- A network with no interface up. Addresses of four bytes can be bound unchecked, for want of
interfaces to check them against, and nothing can be reached. -/
def isolated : Network where
  bind := bindIf fun a => a.isFourBytes || a.isUnspecified
  connect := connectIf fun _ => false

/-- A network with nothing up but the loopback interface. -/
def loopback : Network where
  bind := bindIf fun a => a.isLoopback || a.isUnspecified
  connect := connectIf fun a => a.isLoopback || a.isUnspecified

end Network

end Sealing.Net
