import EndpointMonitor.Connection.Clock
import EndpointMonitor.Connection.Connect

/-!
A transport that follows a script. It stands in for a service where only the life of the connection
matters.
-/

namespace EndpointMonitor

/-- What the making of a channel comes to. -/
inductive CreationScript where
  | succeed
  | fail (error : ClientError)
  | loseThenSucceed

/-- What a session request comes to. -/
inductive SessionScript where
  | reply (reply : RemoteResult)
  | hold
  | drop
  | loseThenReply (reply : RemoteResult)

/-- A channel bears the number of its attempt. -/
structure ScriptedTransport where
  creation : CreationScript
  session : SessionScript
  /-- The attempts for which a channel was asked for, in order. -/
  attempts : List Nat
  /-- The attempts whose session replies were held, in order; `none` once answered. -/
  held : List (Option Nat)

namespace ScriptedTransport

def initial : ScriptedTransport := ⟨.succeed, .reply (.ok .done), [], []⟩

instance : Transport ScriptedTransport where
  create s generation :=
    let s' := { s with attempts := s.attempts ++ [generation] }
    match s.creation with
    | .succeed => (⟨[], .ok generation⟩, s')
    | .fail error => (⟨[], .error error⟩, s')
    | .loseThenSucceed => (⟨[generation], .ok generation⟩, s')
  openSession s _ generation _ :=
    match s.session with
    | .reply reply => ([.sessionReply generation reply], s)
    | .hold => ([], { s with held := s.held ++ [some generation] })
    | .drop => ([], s)
    | .loseThenReply reply =>
      ((s.attempts.getLast?.map Signal.lost).toList ++ [.sessionReply generation reply], s)
  close s _ := s

end ScriptedTransport

namespace Connection

/-- Answers a held session reply, unless that has been done already. -/
def release (c : Connection ScriptedTransport) (index : Nat) (reply : RemoteResult) :
    Bool × Connection ScriptedTransport :=
  match (c.transport.held[index]?).join with
  | some generation =>
    let transport := { c.transport with held := c.transport.held.set index none }
    (true, { c with transport }.sessionCreated generation reply)
  | none => (false, c)

/-- The channel that was asked for at some point is lost. Tells of which attempt it was. -/
def lose (c : Connection ScriptedTransport) (index : Nat) :
    Option Nat × Connection ScriptedTransport :=
  match c.transport.attempts[index]? with
  | some generation => (some generation, c.channelLost generation)
  | none => (none, c)

/-- A scripted channel echoes custom messages. -/
def echo? (c : Connection ScriptedTransport) (data : Bytes) : Option Bytes :=
  c.proxy?.map fun _ => data

end Connection

end EndpointMonitor
