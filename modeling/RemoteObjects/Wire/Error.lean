/-!
# Failures of encoding and decoding
-/

namespace RemoteObjects.Wire

inductive Error where
  | encode (reason : String)
  | decode (reason : String)
  deriving DecidableEq

def Error.message : Error → String
  | .encode reason => "Encode error: " ++ reason
  | .decode reason => "Decode error: " ++ reason

end RemoteObjects.Wire
