import EndpointMonitor.Event.Message
import EndpointMonitor.Resolution

/-!
What an application installs to deal with the calls of the service, one handler for each kind of
call.
-/

namespace EndpointMonitor

/-- What an application thinks about a process; it may have no opinion, or fail to form one. -/
inductive Opinion where
  | verdict (value : Option InterestVerdict)
  | failed

/-- What becomes of the reply that a handler owes. -/
inductive ReplyUse (α : Type) where
  | send (value : α)
  | drop
  | keep

/-- One run of a handler that owes a reply. A handler can fail after it has used the reply. -/
structure HandlerRun (α : Type) where
  reply : ReplyUse α
  failed : Bool

namespace HandlerRun

variable {α : Type}

def send (value : α) : HandlerRun α := ⟨.send value, false⟩

def drop : HandlerRun α := ⟨.drop, false⟩

def keep : HandlerRun α := ⟨.keep, false⟩

/-- The handler fails before it has used the reply, which is thereby lost. -/
def fail : HandlerRun α := ⟨.drop, true⟩

end HandlerRun

abbrev InterestHandler := ProcessDescriptor → Opinion

abbrev AuthHandler := EventMessage → HandlerRun Resolution

/-- Tells whether it fails on a message. -/
abbrev NotifyHandler := EventMessage → Bool

abbrev CustomHandler := Bytes → HandlerRun (Except String Bytes)

structure HandlerSet where
  pathInterest : Option InterestHandler
  auth : Option AuthHandler
  notify : Option NotifyHandler
  customMessage : Option CustomHandler

namespace HandlerSet

def empty : HandlerSet := ⟨none, none, none, none⟩

/-- Which handlers are installed. -/
def text (h : HandlerSet) : String :=
  "HandlerSet \x7b path_interest: " ++ toString h.pathInterest.isSome
    ++ ", auth: " ++ toString h.auth.isSome
    ++ ", notify: " ++ toString h.notify.isSome
    ++ ", custom_message: " ++ toString h.customMessage.isSome ++ " \x7d"

end HandlerSet

end EndpointMonitor
