/-!
Kinds of security events.
-/

namespace EndpointMonitor

/-- The kind of an event. The service owns the numbering; the client only names a few kinds. -/
structure EventType where
  id : UInt32
  deriving DecidableEq, Repr, Inhabited, Hashable

namespace EventType

def authExec : EventType := ⟨0⟩
def authOpen : EventType := ⟨1⟩
def authKextLoad : EventType := ⟨2⟩
def authMmap : EventType := ⟨3⟩
def authMprotect : EventType := ⟨4⟩
def authMount : EventType := ⟨5⟩
def authRename : EventType := ⟨6⟩
def authSignal : EventType := ⟨7⟩
def authUnlink : EventType := ⟨8⟩
def notifyExec : EventType := ⟨9⟩
def notifyOpen : EventType := ⟨10⟩
def notifyFork : EventType := ⟨11⟩
def notifyClose : EventType := ⟨12⟩
def notifyCreate : EventType := ⟨13⟩
def notifyExchangeData : EventType := ⟨14⟩
def notifyExit : EventType := ⟨15⟩

/-- The kinds that have a name, in the order of their ids. -/
def wellKnown : List EventType :=
  [authExec, authOpen, authKextLoad, authMmap, authMprotect, authMount, authRename, authSignal,
    authUnlink, notifyExec, notifyOpen, notifyFork, notifyClose, notifyCreate, notifyExchangeData,
    notifyExit]

def text (e : EventType) : String := "event#" ++ toString e.id.toNat

end EventType

end EndpointMonitor
