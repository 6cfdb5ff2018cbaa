import EndpointMonitor.Connection.Transport
import EndpointMonitor.Service.Basic

/-!
Channels to a service in the same process. On demand no channel can be made, or a request of the
client is intercepted before it reaches the service.
-/

namespace EndpointMonitor

/-- What an intercepted request gets instead of the service's reply. -/
inductive Interception where
  | reply (reply : RemoteResult)
  | drop
  | silence

/-- What becomes of a request at once. -/
inductive RequestFate where
  | answered (result : RemoteResult)
  | dropped
  | open

structure Loopback where
  service : Service
  creationError : Option ClientError
  interception : Option Interception

namespace Loopback

def ofService (service : Service) : Loopback := ⟨service, none, none⟩

/-- Sends a session request, unless it is intercepted. -/
def openSession (l : Loopback) (channel generation : Nat) (converter : Bytes) :
    List Signal × Loopback :=
  match l.interception with
  | some i =>
    let l := { l with interception := none }
    match i with
    | .reply reply => ([.sessionReply generation reply], l)
    | .drop | .silence => ([], l)
  | none =>
    let (delivery, service) :=
      l.service.request channel (.createSession converter) (.session generation)
    let signals := match delivery with
      | some (.session generation result) => [Signal.sessionReply generation result]
      | _ => []
    (signals, { l with service })

/-- Sends the request of a blocked call, unless it is intercepted. -/
def request (l : Loopback) (channel call : Nat) (request : ServiceRequest) :
    RequestFate × Loopback :=
  match l.interception with
  | some i =>
    let l := { l with interception := none }
    match i with
    | .reply reply => (.answered reply, l)
    | .drop => (.dropped, l)
    | .silence => (.open, l)
  | none =>
    let (delivery, service) := l.service.request channel request (.call call)
    let fate := match delivery with
      | some (.call _ result) => RequestFate.answered result
      | _ => .open
    (fate, { l with service })

instance : Transport Loopback where
  create l generation :=
    match l.creationError with
    | some error => (⟨[], .error error⟩, l)
    | none =>
      let (result, service) := l.service.bind generation
      (⟨[], result⟩, { l with service })
  openSession := openSession
  close l channel := { l with service := l.service.unbind channel }

end Loopback

end EndpointMonitor
