/-!
The errors that reach a caller of the client.
-/

namespace EndpointMonitor

inductive ClientError where
  | notConnected
  | timeout (ms : UInt64)
  | decodeFailure (reason : String)
  | encodeFailure (reason : String)
  | remote (reason : String)
  | interrupted
  | channelInvalidated
  | handlerNotSet
  | unexpected (reason : String)
  deriving DecidableEq, Inhabited

namespace ClientError

def message : ClientError → String
  | .notConnected => "Not connected to the security service"
  | .timeout ms => "IPC timeout after " ++ toString ms.toNat ++ "ms"
  | .decodeFailure reason => "Failed to decode payload: " ++ reason
  | .encodeFailure reason => "Failed to encode payload: " ++ reason
  | .remote reason => "Service error: " ++ reason
  | .interrupted => "Connection to the security service interrupted"
  | .channelInvalidated => "Connection invalidated"
  | .handlerNotSet => "Handler not set"
  | .unexpected reason => "Unexpected: " ++ reason

end ClientError

end EndpointMonitor
