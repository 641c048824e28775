import RemoteObjects.Duration
import RemoteObjects.Json.Record
import RemoteObjects.Json.Write

/-!
# What a launched server is told

The settings are read from JSON, where each may be left out, and given to the server as flags.
-/

namespace RemoteObjects

structure LaunchConfig where
  host : String
  /-- The port to listen on; without one a free port is picked. -/
  port : Option UInt16
  /-- How many results of calls the server keeps. -/
  maxPoolSize : UInt64
  /-- How long the server keeps a result. -/
  maxTimeoutSeconds : UInt64
  /-- Whether the server listens on the loopback interface only. -/
  localMode : Bool
  startupTimeoutMs : UInt64
  /-- The types that the server must know. -/
  objectTypes : List String
  deriving DecidableEq

namespace LaunchConfig

def standard : LaunchConfig where
  host := "localhost"
  port := none
  maxPoolSize := 8192
  maxTimeoutSeconds := 7200
  localMode := true
  startupTimeoutMs := 10000
  objectTypes := []

def tree (c : LaunchConfig) : Json.Tree :=
  .object [("host", .text c.host),
    ("port", c.port.elim .null fun p ↦ .number (.natural p.toUInt64)),
    ("max_pool_size", .number (.natural c.maxPoolSize)),
    ("max_timeout_seconds", .number (.natural c.maxTimeoutSeconds)),
    ("local_mode", .bool c.localMode),
    ("startup_timeout_ms", .number (.natural c.startupTimeoutMs)),
    ("object_types", .array (c.objectTypes.map .text))]

def record : Json.Record LaunchConfig where
  title := "struct LaunchConfig"
  make := LaunchConfig.mk
  fields := .field (.optional "host" .text standard.host) <|
    .field (.optional "port" (.option .uint16) standard.port) <|
    .field (.optional "max_pool_size" .size standard.maxPoolSize) <|
    .field (.optional "max_timeout_seconds" .uint64 standard.maxTimeoutSeconds) <|
    .field (.optional "local_mode" .bool standard.localMode) <|
    .field (.optional "startup_timeout_ms" .uint64 standard.startupTimeoutMs) <|
    .field (.optional "object_types" (.list .text) standard.objectTypes) .done

def startupTimeout (c : LaunchConfig) : Duration := .ofMillis c.startupTimeoutMs

/-- Adds a type unless it is listed. -/
def withObjectType (c : LaunchConfig) (objectType : String) : LaunchConfig :=
  if objectType ∈ c.objectTypes then c else { c with objectTypes := c.objectTypes ++ [objectType] }

/-- The flags for a server that listens on `port`. -/
def flags (c : LaunchConfig) (port : UInt16) : List String :=
  ["--host", c.host, "--port", toString port.toNat,
    "--max-pool-size", toString c.maxPoolSize.toNat,
    "--max-timeout-seconds", toString c.maxTimeoutSeconds.toNat] ++
  (if c.localMode then ["--local-mode"] else []) ++
  c.objectTypes.flatMap fun t ↦ ["--object-type", t]

end LaunchConfig

end RemoteObjects
