import RemoteObjects.Retry.Policy

/-!
# Settings of clients
-/

namespace RemoteObjects

structure ClientConfig where
  connectTimeoutMs : UInt64
  ioTimeoutMs : UInt64
  probeTimeoutMs : UInt64
  /-- How failed creations and calls are repeated, if they are. -/
  retry : Option RetryConfig
  deriving DecidableEq

namespace ClientConfig

def standard : ClientConfig := ⟨5000, 30000, 1000, none⟩

def tree (c : ClientConfig) : Json.Tree :=
  .object [("connect_timeout_ms", .number (.natural c.connectTimeoutMs)),
    ("io_timeout_ms", .number (.natural c.ioTimeoutMs)),
    ("probe_timeout_ms", .number (.natural c.probeTimeoutMs)),
    ("retry", c.retry.elim .null RetryConfig.tree)]

def record : Json.Record ClientConfig where
  title := "struct ClientConfig"
  make := ClientConfig.mk
  fields := .field (.optional "connect_timeout_ms" .uint64 standard.connectTimeoutMs) <|
    .field (.optional "io_timeout_ms" .uint64 standard.ioTimeoutMs) <|
    .field (.optional "probe_timeout_ms" .uint64 standard.probeTimeoutMs) <|
    .field (.optional "retry" (.option RetryConfig.tagged.decode) standard.retry) .done

def ofString (s : String) : Except RetryConfig.Error ClientConfig :=
  (Json.readString record.decode s).mapError fun cause ↦ .parse cause.message

/-- The settings as clients use them: durations, and a policy that has been checked. -/
structure Checked where
  connectTimeout : Duration
  ioTimeout : Duration
  probeTimeout : Duration
  retry : Option RetryPolicy

def check (c : ClientConfig) : Except RetryConfig.Error Checked := do
  let retry ← c.retry.mapM RetryPolicy.ofConfig
  return ⟨.ofMillis c.connectTimeoutMs, .ofMillis c.ioTimeoutMs, .ofMillis c.probeTimeoutMs, retry⟩

end ClientConfig

end RemoteObjects
