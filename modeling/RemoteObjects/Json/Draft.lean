import RemoteObjects.Json.Cause
import RemoteObjects.Json.Token
import RemoteObjects.Json.Tree

/-!
# Documents as far as they can be read

A draft is what a text shows to whoever reads it from the front: a document in which `cut` stands
where the text stops being JSON, and in which some numbers and strings have no value.  An unclosed
container ends with a `cut`, so the fault is met by reading on and not before.
-/

namespace RemoteObjects.Json

inductive Draft where
  | null
  | bool (b : Bool)
  | number (n : Option Number)
  | text (s : Option String)
  | array (items : List Draft)
  | object (members : List (Option String × Draft))
  | cut
  deriving Inhabited

namespace Draft

/-- A container that is not closed yet, its last entry first. -/
inductive Open where
  | array (items : List Draft)
  /-- An object of which a value is awaited. -/
  | object (members : List (Option String × Draft)) (name : Option String)

namespace Open

/-- The container after the awaited value. -/
def add : Open → Draft → Open
  | .array items, d => .array (d :: items)
  | .object members name, d => .object ((name, d) :: members) none

/-- The container closed after its last entry. -/
def close : Open → Draft
  | .array items => .array items.reverse
  | .object members _ => .object members.reverse

/-- What a text leaves that stops at `d` inside the given containers, the innermost first. -/
def abandon (stack : List Open) (d : Draft) : Draft :=
  stack.foldl (fun d o ↦ (o.add d).close) d

end Open

/-- What may come next. -/
inductive Stage where
  | value (stack : List Open)
  /-- A value, or the end of the array just opened. -/
  | firstItem (stack : List Open)
  /-- A name for these members, or the end of the object if it was just opened. -/
  | member (first : Bool) (members : List (Option String × Draft)) (stack : List Open)
  | colon (name : Option String) (members : List (Option String × Draft)) (stack : List Open)
  /-- A comma, or the end of the innermost container. -/
  | separator (inner : Open) (stack : List Open)
  /-- Nothing more; `surplus` if something came. -/
  | complete (d : Draft) (surplus : Bool)
  | broken (d : Draft)

namespace Stage

/-- After a complete value. -/
def after (stack : List Open) (d : Draft) : Stage :=
  match stack with
  | [] => .complete d false
  | inner :: stack => .separator (inner.add d) stack

/-- What a text leaves that stops at this stage. -/
def abandon : Stage → Draft
  | .value stack => Open.abandon stack .cut
  | .firstItem stack => Open.abandon stack (.array [.cut])
  | .member _ members stack => Open.abandon stack (Open.object members none |>.add .cut).close
  | .colon name members stack => Open.abandon stack (Open.object members name |>.add .cut).close
  | .separator inner stack => Open.abandon stack (inner.add .cut).close
  | .complete d _ | .broken d => d

def value? (stack : List Open) : Token → Option Stage
  | .openArray => some (.firstItem stack)
  | .openObject => some (.member true [] stack)
  | .null => some (after stack .null)
  | .bool b => some (after stack (.bool b))
  | .number n => some (after stack (.number n))
  | .text s => some (after stack (.text s))
  | _ => none

def step? : Stage → Token → Option Stage
  | .value stack, t => value? stack t
  | .firstItem stack, .closeArray => some (after stack (.array []))
  | .firstItem stack, t => value? (.array [] :: stack) t
  | .member _ members stack, .text s => some (.colon s members stack)
  | .member true _ stack, .closeObject => some (after stack (.object []))
  | .colon name members stack, .colon => some (.value (.object members name :: stack))
  | .separator (.array items) stack, .comma => some (.value (.array items :: stack))
  | .separator (.object members _) stack, .comma => some (.member false members stack)
  | .separator inner@(.array _) stack, .closeArray => some (after stack inner.close)
  | .separator inner@(.object _ _) stack, .closeObject => some (after stack inner.close)
  | _, _ => none

def step (stage : Stage) (t : Token) : Stage :=
  match stage with
  | .complete d _ => .complete d true
  | .broken d => .broken d
  | stage => (stage.step? t).getD (.broken stage.abandon)

end Stage

/-- The draft that tokens spell, and whether tokens follow it. -/
def ofTokens (tokens : List Token) : Draft × Bool :=
  match tokens.foldl Stage.step (.value []) with
  | .complete d surplus => (d, surplus)
  | stage => (stage.abandon, false)

mutual

/-- A whole document as a draft. -/
def ofTree : Tree → Draft
  | .null => .null
  | .bool b => .bool b
  | .number n => .number (some n)
  | .text s => .text (some s)
  | .array items => .array (ofItems items)
  | .object members => .object (ofMembers members)

def ofItems : List Tree → List Draft
  | [] => []
  | t :: rest => ofTree t :: ofItems rest

def ofMembers : List (String × Tree) → List (Option String × Draft)
  | [] => []
  | (name, t) :: rest => (some name, ofTree t) :: ofMembers rest

end

/-- What stands here, if it can be told. -/
def found : Draft → Except Cause Found
  | .null => .ok .null
  | .bool b => .ok (.bool b)
  | .number (some (.float x)) => .ok (.float x)
  | .number (some (.natural n)) => .ok (.integer n.toNat)
  | .number (some (.negative below)) => .ok (.integer (-((below.val : Int) + 1)))
  | .text (some s) => .ok (.text s)
  | .array _ => .ok .array
  | .object _ => .ok .object
  | .number none | .text none | .cut => .error .malformed

mutual

/-- Whether nothing in the draft is cut off. -/
def closed : Draft → Bool
  | .cut => false
  | .array items => closedItems items
  | .object members => closedMembers members
  | _ => true

def closedItems : List Draft → Bool
  | [] => true
  | d :: rest => d.closed && closedItems rest

def closedMembers : List (Option String × Draft) → Bool
  | [] => true
  | (_, d) :: rest => d.closed && closedMembers rest

end

end Draft

end RemoteObjects.Json
