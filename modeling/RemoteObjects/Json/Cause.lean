import RemoteObjects.Json.Number
import RemoteObjects.Text.Quoted

/-!
# Why a JSON text is refused

Either the text is no JSON, or it nests too many containers, or what it says does not fit what is
read from it.
-/

namespace RemoteObjects.Json

/-- What stood in the text. -/
inductive Found where
  | integer (i : Int)
  | float (x : Binary64.Finite)
  | text (s : String)
  | bool (b : Bool)
  | null
  | object
  | array
  | unitVariant
  deriving DecidableEq

def Found.message : Found → String
  | .integer i => "integer `" ++ toString i ++ "`"
  | .float x => "floating point `" ++ Layout.json.finite x ++ "`"
  | .text s => "string " ++ quoted s
  | .bool b => "boolean `" ++ toString b ++ "`"
  | .null => "null"
  | .object => "map"
  | .array => "sequence"
  | .unitVariant => "unit variant"

/-- How many items were wanted. -/
inductive Length where
  /-- As many as the fields of what the title names. -/
  | fields (title : String) (count : Nat)
  /-- Exactly as many as were read. -/
  | exactly (count : Nat)
  | fewer
  deriving DecidableEq

def plural (count : Nat) : String := toString count ++ if count = 1 then " element" else " elements"

def Length.message : Length → String
  | .fields title count => title ++ " with " ++ plural count
  | .exactly count => plural count ++ " in sequence"
  | .fewer => "fewer elements in array"

inductive Cause where
  | malformed
  | tooDeep
  | missingField (name : String)
  | duplicateField (name : String)
  | unknownVariant (name : String) (known : List String)
  | invalidType (found : Found) (wanted : String)
  | invalidValue (found : Found) (wanted : String)
  | invalidLength (count : Nat) (wanted : Length)
  deriving DecidableEq

namespace Cause

def ticked (name : String) : String := "`" ++ name ++ "`"

/-- The known names, as one of them is asked for. -/
def choice : List String → String
  | [] => "nothing"
  | [a] => ticked a
  | [a, b] => ticked a ++ " or " ++ ticked b
  | names => "one of " ++ ", ".intercalate (names.map ticked)

def message : Cause → String
  | .malformed => "malformed JSON"
  | .tooDeep => "recursion limit exceeded"
  | .missingField name => "missing field " ++ ticked name
  | .duplicateField name => "duplicate field " ++ ticked name
  | .unknownVariant name known => "unknown variant " ++ ticked name ++ ", expected " ++ choice known
  | .invalidType found wanted => "invalid type: " ++ found.message ++ ", expected " ++ wanted
  | .invalidValue found wanted => "invalid value: " ++ found.message ++ ", expected " ++ wanted
  | .invalidLength count wanted =>
    "invalid length " ++ toString count ++ ", expected " ++ wanted.message

end Cause

end RemoteObjects.Json
