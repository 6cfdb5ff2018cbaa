import EndpointMonitor.ClientError
import EndpointMonitor.Service.Request

/-!
What a connection needs of the world: something that makes channels to the service and carries
session requests over them.

An attempt to connect is known by its generation. A channel reports under the generation of the
attempt that made it, so reports of abandoned attempts can be told from those that matter.
-/

namespace EndpointMonitor

/-- What a channel reports to the connection. -/
inductive Signal where
  | lost (generation : Nat)
  | sessionReply (generation : Nat) (reply : RemoteResult)

/-- How the making of a channel went. A channel can be lost before it is handed over. -/
structure Creation where
  losses : List Nat
  result : Except ClientError Nat

/-- Channels are numbers that the transport gives out. -/
class Transport (σ : Type) where
  /-- Makes a channel for an attempt. -/
  create : σ → Nat → Creation × σ
  /-- Sends the session request of an attempt, and reports what comes back at once. -/
  openSession : σ → Nat → Nat → Bytes → List Signal × σ
  /-- Tears a channel down. -/
  close : σ → Nat → σ

/-- The text of the handle through which the channel of an attempt reports. -/
def Signal.sourceText (generation : Nat) : String :=
  "ChannelEvents \x7b generation: " ++ toString generation ++ ", .. \x7d"

end EndpointMonitor
