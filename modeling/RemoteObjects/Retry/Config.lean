import RemoteObjects.Json.Tagged
import RemoteObjects.Json.Write

/-!
# Retry configurations

A configuration says how often a failed operation is repeated and how many seconds lie between two
attempts: always the same number, or one that doubles up to a ceiling.  Its delays are any floating
numbers; whether they make sense is decided when a policy is made of them.
-/

namespace RemoteObjects

inductive RetryConfig where
  | fixed (maxAttempts : UInt32) (delay : Binary64)
  | exponential (maxAttempts : UInt32) (baseDelay maxDelay : Binary64)
  deriving DecidableEq

namespace RetryConfig

/-- Why a configuration is refused. -/
inductive Error where
  | parse (reason : String)
  | invalidDelay (field : String) (value : Binary64)
  | delayOrder (baseDelay maxDelay : Binary64)
  deriving DecidableEq

def Error.message : Error → String
  | .parse reason => "Invalid retry configuration: " ++ reason
  | .invalidDelay field value => "Invalid delay for `" ++ field ++ "`: " ++ value.message
  | .delayOrder baseDelay maxDelay =>
    "base_delay (" ++ baseDelay.message ++ ") must not exceed max_delay (" ++ maxDelay.message ++
      ")"

def defaultMaxAttempts : UInt32 := 10

def defaultDelay : Binary64 := .ofNat 5

def defaultMaxDelay : Binary64 := .ofNat 300

def standard : RetryConfig := .fixed defaultMaxAttempts defaultDelay

/-- A floating number in JSON; what is not finite has no text there. -/
def floatTree : Binary64 → Json.Tree
  | .finite x => .number (.float x)
  | _ => .null

def tree : RetryConfig → Json.Tree
  | .fixed maxAttempts delay =>
    .object [("kind", .text "fixed"), ("max_attempts", .number (.natural maxAttempts.toUInt64)),
      ("delay", floatTree delay)]
  | .exponential maxAttempts baseDelay maxDelay =>
    .object [("kind", .text "exponential"),
      ("max_attempts", .number (.natural maxAttempts.toUInt64)),
      ("base_delay", floatTree baseDelay), ("max_delay", floatTree maxDelay)]

def tagged : Json.Tagged RetryConfig where
  title := "internally tagged enum RetryConfig"
  tag := "kind"
  variants := [
    .record "fixed"
      { title := "struct variant RetryConfig::Fixed"
        make := RetryConfig.fixed
        fields := .field (.optional "max_attempts" .uint32 defaultMaxAttempts) <|
          .field (.optional "delay" .float defaultDelay) .done : Json.Record RetryConfig } id,
    .record "exponential"
      { title := "struct variant RetryConfig::Exponential"
        make := RetryConfig.exponential
        fields := .field (.optional "max_attempts" .uint32 defaultMaxAttempts) <|
          .field (.optional "base_delay" .float defaultDelay) <|
          .field (.optional "max_delay" .float defaultMaxDelay) .done :
            Json.Record RetryConfig } id]

def ofString (s : String) : Except Error RetryConfig :=
  (Json.readString tagged.decode s).mapError fun cause ↦ .parse cause.message

def ofValue (v : Json.Value) : Except Error RetryConfig :=
  (v.decode tagged.decode).mapError fun cause ↦ .parse cause.message

end RetryConfig

end RemoteObjects
