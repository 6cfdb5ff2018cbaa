import EndpointMonitor.Codec

/-!
What a client can be configured with.
-/

namespace EndpointMonitor

open Wire

/-- How the service is asked to convert events; sent with every session. -/
structure ConverterConfig where
  version : UInt32
  deriving DecidableEq

namespace ConverterConfig

def default : ConverterConfig := ⟨1⟩

instance : Inhabited ConverterConfig := ⟨default⟩

def record : Record ConverterConfig ConverterConfig :=
  (Record.of ConverterConfig.mk)
    |>.field (.withDefault "version" (·.version) default.version)

instance : Wire ConverterConfig where
  encode := record.encode
  decode := record.decode "struct ConverterConfig"

end ConverterConfig

structure ClientConfig where
  timeoutMs : UInt64
  reconnectDelayMs : UInt64
  converter : ConverterConfig
  codec : CodecConfig
  deriving DecidableEq

namespace ClientConfig

def default : ClientConfig := ⟨5000, 3000, .default, .default⟩

instance : Inhabited ClientConfig := ⟨default⟩

def record : Record ClientConfig ClientConfig :=
  (Record.of ClientConfig.mk)
    |>.field (.withDefault "timeout_ms" (·.timeoutMs) default.timeoutMs)
    |>.field (.withDefault "reconnect_delay_ms" (·.reconnectDelayMs) default.reconnectDelayMs)
    |>.field (.withDefault "converter" (·.converter) .default)
    |>.field (.withDefault "codec" (·.codec) .default)

instance : Wire ClientConfig where
  encode := record.encode
  decode := record.decode "struct ClientConfig"

end ClientConfig

end EndpointMonitor
