import Sealing.Tls.Identity

/-!
# Handshakes

A client opens a secure connection by saying which versions and protocols it can speak. The service
picks the newest version and, in its own order of preference, a protocol; a client that offers
protocols but none that the service speaks is turned away.
-/

namespace Sealing.Tls

/-- A version of the secure transport. -/
inductive Version where
  | v12 | v13
deriving DecidableEq, Repr

/-- The number of a version. -/
def Version.name : Version → String
  | v12 => "1.2"
  | v13 => "1.3"

/-- What a client offers. -/
structure ClientHello where
  /-- The protocols it can speak. None stands for a client that does not say. -/
  protocols : List String
  /-- The only version it can speak, if it cannot speak all. -/
  only : Option Version := none
deriving DecidableEq, Repr

/-- What a client finds once a connection is secure. -/
structure Secured where
  protocol : Option String
  version : Version
  /-- The certificates that the service has shown. -/
  chain : List Bytes
deriving DecidableEq, Repr

namespace Identity

/-- The protocol that is spoken, if the two sides can agree on one. -/
def protocol? (offered : List String) : Option (Option String) :=
  if offered = [] then some none else (protocols.find? (· ∈ offered)).map some

/-- Answers a client. -/
def accept? (identity : Identity) (hello : ClientHello) : Option Secured :=
  (protocol? hello.protocols).map fun protocol => ⟨protocol, hello.only.getD .v13, identity.chain⟩

end Identity

end Sealing.Tls
