import EndpointMonitor.Handler.Basic
import EndpointMonitor.Mute.Rule

/-!
Handlers that are tables: the first row whose rule selects the process says what to do.
-/

namespace EndpointMonitor

/-- A row without a rule selects every process. -/
structure HandlerRow (α : Type) where
  rule : Option MuteProcessRule
  entry : α

namespace HandlerRow

variable {α : Type}

def selects (row : HandlerRow α) (p : ProcessDescriptor) : Bool :=
  match row.rule with
  | none => true
  | some rule => rule.selects p

/-- The entry of the first row that selects the process. -/
def pick? (rows : List (HandlerRow α)) (p : ProcessDescriptor) : Option α :=
  (rows.find? (·.selects p)).map (·.entry)

end HandlerRow

namespace InterestHandler

/-- No opinion about a process in no row. -/
def ofTable (rows : List (HandlerRow Opinion)) : InterestHandler := fun p =>
  (HandlerRow.pick? rows p).getD (.verdict none)

end InterestHandler

namespace AuthHandler

/-- Drops the reply for a process in no row. -/
def ofTable (rows : List (HandlerRow (HandlerRun Resolution))) : AuthHandler := fun m =>
  (HandlerRow.pick? rows m.process).getD .drop

end AuthHandler

namespace NotifyHandler

/-- The entries tell on which messages the handler fails. -/
def ofTable (rows : List (HandlerRow Bool)) : NotifyHandler := fun m =>
  (HandlerRow.pick? rows m.process).getD false

end NotifyHandler

/-- Simple ways to answer a custom message. -/
inductive CustomMode where
  | echo
  | reverse
  | upper
  | refuse (reason : String)
  | drop
  | fail

namespace CustomMode

/-- The capital of a small ASCII letter; any other byte as it is. -/
def upperByte (b : UInt8) : UInt8 := if 97 ≤ b && b ≤ 122 then b - 32 else b

def run (mode : CustomMode) (data : Bytes) : HandlerRun (Except String Bytes) :=
  match mode with
  | .echo => .send (.ok data)
  | .reverse => .send (.ok data.reverse)
  | .upper => .send (.ok (data.map upperByte))
  | .refuse reason => .send (.error reason)
  | .drop => .drop
  | .fail => .fail

end CustomMode

end EndpointMonitor
