import RemoteObjects.Rehearsal.Shell.Syntax

/-!
# Reading scripts

A script is read line by line, and a line is run before the next one is read, so a fault further
down is met only when the script gets there.  Every step of the reading takes a unit of fuel, of
which a text is given more than it has characters.
-/

namespace RemoteObjects.Rehearsal.Shell

/-- Reads from the front of a text, or meets a fault. -/
abbrev Parser : Type → Type := ReaderT Aliases (StateT (List Char) Option)

namespace Parser

/-- Characters that end a word. -/
def endsWord (c : Char) : Bool := c ∈ [' ', '\t', '\n', ';', '&', '|', '<', '>', '(', ')']

def isNameStart (c : Char) : Bool := c.isAlpha || c == '_'

def isName (c : Char) : Bool := c.isAlphanum || c == '_'

/-- The text after blanks, joined lines and a remark. -/
def skipBlank : List Char → List Char
  | ' ' :: rest | '\t' :: rest | '\\' :: '\n' :: rest => skipBlank rest
  | '#' :: rest => rest.dropWhile (· ≠ '\n')
  | text => text

/-- The text after blanks and ends of lines. -/
def skipLines : Nat → List Char → List Char
  | 0, text => text
  | fuel + 1, text =>
    match skipBlank text with
    | '\n' :: rest => skipLines fuel rest
    | text => text

def blank : Parser Unit := modify skipBlank

def lines : Parser Unit := modify fun text ↦ skipLines (text.length + 1) text

/-- Takes characters that stand at the front. -/
def take? (front : String) : Parser Bool := do
  let text ← get
  if front.toList.isPrefixOf text then
    set (text.drop front.length)
    return true
  return false

/-- A word of plain characters at the front, after blanks. -/
def plainWord : Parser (Option String) := do
  let text := skipBlank (← get)
  let word := text.takeWhile fun c ↦ !(endsWord c || c ∈ ['\'', '"', '$', '\\', (Char.ofNat 96)])
  match text.drop word.length with
  | [] => return some (String.ofList word)
  | c :: _ => return if endsWord c then some (String.ofList word) else none

/-- Takes a word if it stands next. -/
def word? (w : String) : Parser Bool := do
  if (← plainWord) = some w then
    modify fun text ↦ (skipBlank text).drop w.length
    return true
  return false

/-- Puts the text of an alias in its place, if one stands next. -/
def alias? : Parser (Option String) := do
  let some name ← plainWord | return none
  let some text := (← read).lookup name | return none
  modify fun rest ↦ text.toList ++ (skipBlank rest).drop name.length
  return some name

def expectWord (w : String) : Parser Unit := do
  lines
  guard (← word? w)

def expect (front : String) : Parser Unit := do
  lines
  guard (← take? front)

/-- The commands whose faults end the shell; a function cannot have their names. -/
def special : List String :=
  [":", ".", "break", "continue", "eval", "exec", "exit", "export", "readonly", "return", "set",
    "shift", "times", "trap", "unset"]

/-- Words that end the commands before them. -/
def closers : List String := ["then", "elif", "else", "fi", "do", "done", "esac", "\x7d"]

/-- Whether no command can start here. -/
def closed : Parser Bool := do
  match skipBlank (← get) with
  | [] | ')' :: _ | ';' :: ';' :: _ => return true
  | _ => return (← plainWord).any (· ∈ closers)

/-- How the characters of a word are read. -/
inductive Mode where
  | bare
  | quoted
  /-- Up to a brace. -/
  | braced (quoted : Bool)
  /-- Up to two closing parentheses, inside so many open ones. -/
  | sum (depth : Nat)
  /-- Up to the end. -/
  | inline

def Mode.isQuoted : Mode → Bool
  | .bare | .braced false => false
  | _ => true

/-- The characters of a name at the front; a digit or a sign is a name of its own. -/
def parameterName (longDigits : Bool) : Parser (Option String) := do
  let text ← get
  match text with
  | [] => return none
  | c :: rest =>
    let name :=
      if isNameStart c then text.takeWhile isName
      else if c.isDigit then if longDigits then text.takeWhile Char.isDigit else [c]
      else if c ∈ ['@', '*', '#', '?', '$', '!', '-'] then [c]
      else []
    if name.isEmpty then return none
    set (if name.length = 1 then rest else text.drop name.length)
    return some (String.ofList name)

/-- The script between two backquotes, of which the backslashes are taken off. -/
def backquoted : List Char → List Char → Option (List Char × List Char)
  | _, [] => none
  | read, '\\' :: c :: rest =>
    if c ∈ ['$', '\\', Char.ofNat 96] then backquoted (c :: read) rest
    else backquoted (c :: '\\' :: read) rest
  | read, c :: rest =>
    if c = Char.ofNat 96 then some (read.reverse, rest) else backquoted (c :: read) rest

/-- The lines up to a mark, without leading tabs if they are stripped, and the text after it. -/
def inlineText (mark : List Char) (strip : Bool) : Nat → List Char → List Char × List Char
  | 0, _ => ([], [])
  | _, [] => ([], [])
  | fuel + 1, text =>
    let line := text.takeWhile (· ≠ '\n')
    let rest := text.drop (line.length + 1)
    let line := if strip then line.dropWhile (· = '\t') else line
    if line = mark then ([], rest)
    else
      let (body, rest) := inlineText mark strip fuel rest
      (line ++ '\n' :: body, rest)

/-- The text of the pieces of a word that is never expanded. -/
def literalText : List Piece → String
  | [] => ""
  | .text s _ :: rest => s ++ literalText rest
  | .parameter name _ _ :: rest => "$" ++ name ++ literalText rest
  | _ :: rest => literalText rest

def anyQuoted : List Piece → Bool
  | [] => false
  | .text _ true :: _ => true
  | _ :: rest => anyQuoted rest

/-- A word of the form `name=value`. -/
def assignment? (w : Word) : Option (String × Word) :=
  let rec go (name : String) : Word → Option (String × Word)
    | .text s false :: rest =>
      if s = "=" then
        match name.toList with
        | c :: _ => if isNameStart c then some (name, rest) else none
        | [] => none
      else if s.toList.all isName then go (name ++ s) rest
      else none
    | _ => none
  go "" w

mutual

/-- The pieces of a word, after those that were read. -/
def pieces (fuel : Nat) (mode : Mode) (read : List Piece) : Parser (List Piece) :=
  match fuel with
  | 0 => failure
  | fuel + 1 => do
    let quoted := mode.isQuoted
    let more (s : String) (quoted : Bool) (rest : List Char) : Parser (List Piece) := do
      set rest
      pieces fuel mode (.text s quoted :: read)
    match ← get with
    | [] =>
      match mode with
      | .bare | .inline => return read.reverse
      | _ => failure
    | c :: rest =>
      match mode, c, rest with
      | .bare, c, _ => if endsWord c then return read.reverse
      | .quoted, '"', _ | .braced _, '\x7d', _ =>
        set rest
        return read.reverse
      | .sum 0, ')', ')' :: rest =>
        set rest
        return read.reverse
      | .sum 0, ')', _ => failure
      | .sum (depth + 1), ')', _ =>
        set rest
        return ← pieces fuel (.sum depth) (.text ")" true :: read)
      | .sum depth, '(', _ =>
        set rest
        return ← pieces fuel (.sum (depth + 1)) (.text "(" true :: read)
      | _, _, _ => pure ()
      match c, rest with
      | '\\', '\n' :: rest =>
        set rest
        pieces fuel mode read
      | '\\', d :: rest =>
        if quoted && d ∉ ['$', '"', '\\', Char.ofNat 96] then more "\\" true (d :: rest)
        else more (String.ofList [d]) true rest
      | '\'', _ =>
        if quoted then more "'" true rest
        else
          let inside := rest.takeWhile (· ≠ '\'')
          match rest.drop inside.length with
          | [] => failure
          | _ :: rest => more (String.ofList inside) true rest
      | '"', _ =>
        match mode with
        | .inline | .sum _ => more "\"" true rest
        | _ =>
          set rest
          let inside ← pieces fuel .quoted []
          let inside := if inside.isEmpty then [.text "" true] else inside
          pieces fuel mode (inside.reverse ++ read)
      | '$', _ =>
        set rest
        let p ← dollar fuel quoted
        pieces fuel mode (p :: read)
      | c, _ =>
        if c = Char.ofNat 96 then
          let some (script, rest) := backquoted [] rest | failure
          set script
          let body ← commands fuel
          lines
          guard (← get).isEmpty
          set rest
          pieces fuel mode (.output body quoted :: read)
        else more (String.ofList [c]) quoted rest

/-- What follows a dollar sign. -/
def dollar (fuel : Nat) (quoted : Bool) : Parser Piece :=
  match fuel with
  | 0 => failure
  | fuel + 1 => do
    let script : Parser Piece := do
      let body ← commands fuel
      expect ")"
      return .output body quoted
    match ← get with
    | '(' :: '(' :: rest =>
      (do
        set rest
        return Piece.sum (← pieces fuel (.sum 0) []) quoted) <|> (do
        set ('(' :: rest)
        script)
    | '(' :: rest =>
      set rest
      script
    | '\x7b' :: rest =>
      set rest
      braces fuel quoted
    | _ =>
      match ← parameterName false with
      | some name => return .parameter name .value quoted
      | none => return .text "$" quoted

/-- What follows a dollar sign and a brace. -/
def braces (fuel : Nat) (quoted : Bool) : Parser Piece :=
  match fuel with
  | 0 => failure
  | fuel + 1 => do
    let start ← get
    if ← take? "#" then
      if let some name ← parameterName true then
        if ← take? "\x7d" then return .parameter name .length quoted
    set start
    let some name ← parameterName true
      | let _ ← pieces fuel (.braced quoted) []
        return .parameter "" .bad quoted
    if ← take? "\x7d" then return .parameter name .value quoted
    let orEmpty ← take? ":"
    let how : Option Fallback ←
      if ← take? "-" then pure (some .use)
      else if ← take? "=" then pure (some .assign)
      else if ← take? "?" then pure (some .fail)
      else if ← take? "+" then pure (some .replace)
      else pure none
    match how with
    | some how =>
      return .parameter name (.fallback orEmpty how (← pieces fuel (.braced quoted) [])) quoted
    | none =>
      let trims : List (String × Bool × Bool) :=
        [("%%", true, true), ("%", true, false), ("##", false, true), ("#", false, false)]
      for (sign, atEnd, longest) in trims do
        if ← take? sign then
          let pattern ← pieces fuel (.braced false) []
          return .parameter name (if orEmpty then .bad else .trim atEnd longest pattern) quoted
      let _ ← pieces fuel (.braced quoted) []
      return .parameter name .bad quoted

/-- A word, which has at least one piece. -/
def word (fuel : Nat) : Parser Word :=
  match fuel with
  | 0 => failure
  | fuel + 1 => do
    blank
    let w ← pieces fuel .bare []
    guard !w.isEmpty
    return w

/-- Commands one after another, up to where no command can start. -/
def commands (fuel : Nat) : Parser Command :=
  match fuel with
  | 0 => failure
  | fuel + 1 => do
    lines
    if ← closed then return .nothing
    let first ← chain fuel
    blank
    match ← get with
    | ';' :: ';' :: _ => return first
    | ';' :: rest | '\n' :: rest =>
      set rest
      return .sequence first (← commands fuel)
    | '&' :: rest =>
      set rest
      return .sequence (.background first) (← commands fuel)
    | _ => return first

/-- Pipelines that depend on the success or failure of those before them. -/
def chain (fuel : Nat) : Parser Command :=
  match fuel with
  | 0 => failure
  | fuel + 1 => do chainFrom fuel (← pipe fuel)

def chainFrom (fuel : Nat) (first : Command) : Parser Command :=
  match fuel with
  | 0 => failure
  | fuel + 1 => do
    blank
    if ← take? "&&" then
      lines
      chainFrom fuel (.both first (← pipe fuel))
    else if ← take? "||" then
      lines
      chainFrom fuel (.either first (← pipe fuel))
    else return first

def pipe (fuel : Nat) : Parser Command :=
  match fuel with
  | 0 => failure
  | fuel + 1 => do
    if ← word? "!" then return .negated (← pipe fuel)
    match ← pipeFrom fuel with
    | [c] => return c
    | parts => return .pipeline parts

/-- The commands of a pipeline. -/
def pipeFrom (fuel : Nat) : Parser (List Command) :=
  match fuel with
  | 0 => failure
  | fuel + 1 => do
    let first ← command fuel
    blank
    match ← get with
    | '|' :: '|' :: _ => return [first]
    | '|' :: rest =>
      set rest
      lines
      return first :: (← pipeFrom fuel)
    | _ => return [first]

def command (fuel : Nat) : Parser Command :=
  match fuel with
  | 0 => failure
  | fuel + 1 => do
    if let some name ← alias? then
      return ← ReaderT.adapt (List.filter fun a : String × String ↦ a.1 ≠ name) (command fuel)
    blank
    let finish (c : Command) : Parser Command := do
      let redirects ← redirectsFrom fuel
      return if redirects.isEmpty then c else .redirected c redirects
    if (← get).head? = some '(' then
      modify (·.drop 1)
      let body ← commands fuel
      expect ")"
      finish (.subshell body)
    else if ← word? "\x7b" then
      let body ← commands fuel
      expectWord "\x7d"
      finish body
    else if ← word? "if" then finish (← condition fuel)
    else if ← word? "while" then finish (← looped fuel false)
    else if ← word? "until" then finish (← looped fuel true)
    else if ← word? "for" then
      let some name := (← word fuel).bare? | failure
      lines
      let words ← do
        if ← word? "in" then
          let words ← wordsFrom fuel
          pure (some words)
        else pure none
      blank
      let _ ← take? ";"
      expectWord "do"
      let body ← commands fuel
      expectWord "done"
      finish (.each name words body)
    else if ← word? "case" then
      let w ← word fuel
      expectWord "in"
      finish (.cases w (← branches fuel))
    else
      guard !(← closed)
      simple fuel [] [] []

/-- What follows an if. -/
def condition (fuel : Nat) : Parser Command :=
  match fuel with
  | 0 => failure
  | fuel + 1 => do
    let test ← commands fuel
    expectWord "then"
    let body ← commands fuel
    lines
    if ← word? "elif" then return .choice test body (← condition fuel)
    else if ← word? "else" then
      let otherwise ← commands fuel
      expectWord "fi"
      return .choice test body otherwise
    else
      expectWord "fi"
      return .choice test body .nothing

/-- What follows a while. -/
def looped (fuel : Nat) (negative : Bool) : Parser Command :=
  match fuel with
  | 0 => failure
  | fuel + 1 => do
    let test ← commands fuel
    expectWord "do"
    let body ← commands fuel
    expectWord "done"
    return .loop negative test body

def wordsFrom (fuel : Nat) : Parser (List Word) :=
  match fuel with
  | 0 => failure
  | fuel + 1 => do
    blank
    match ← get with
    | [] | ';' :: _ | '\n' :: _ => return []
    | _ => return (← word fuel) :: (← wordsFrom fuel)

/-- The branches up to an esac. -/
def branches (fuel : Nat) : Parser (List (List Word × Command)) :=
  match fuel with
  | 0 => failure
  | fuel + 1 => do
    lines
    if ← word? "esac" then return []
    let _ ← take? "("
    let patterns ← alternatives fuel
    let body ← commands fuel
    lines
    if ← take? ";;" then return (patterns, body) :: (← branches fuel)
    expectWord "esac"
    return [(patterns, body)]

/-- Patterns up to a closing parenthesis. -/
def alternatives (fuel : Nat) : Parser (List Word) :=
  match fuel with
  | 0 => failure
  | fuel + 1 => do
    let w ← word fuel
    blank
    if ← take? "|" then return w :: (← alternatives fuel)
    guard (← take? ")")
    return [w]

/-- A redirection, if one stands next. -/
def redirect? (fuel : Nat) : Parser (Option Redirect) :=
  match fuel with
  | 0 => failure
  | fuel + 1 => do
    blank
    let text ← get
    let digits := text.takeWhile Char.isDigit
    let number := (String.ofList digits).toNat?
    let redirect (channel : Channel) (usual size : Nat) : Parser (Option Redirect) := do
      set (text.drop (digits.length + size))
      return some (.mk (number.getD usual) channel (← word fuel))
    match text.drop digits.length with
    | '<' :: '<' :: rest =>
      let strip := rest.head? = some '-'
      set (if strip then rest.drop 1 else rest)
      let mark ← word fuel
      let after ← get
      let line := after.takeWhile (· ≠ '\n')
      let below := after.drop (line.length + 1)
      let (body, below) :=
        inlineText (literalText mark).toList strip (below.length + 1) below
      let content ←
        if anyQuoted mark then pure [.text (String.ofList body) true]
        else do
          set body
          pieces fuel .inline []
      set (line ++ '\n' :: below)
      return some (.mk (number.getD 0) .inline content)
    | '<' :: '&' :: _ => redirect .joined 0 2
    | '<' :: '>' :: _ => redirect .source 0 2
    | '<' :: _ => redirect .source 0 1
    | '>' :: '>' :: _ => redirect .appending 1 2
    | '>' :: '&' :: _ => redirect .joined 1 2
    | '>' :: '|' :: _ => redirect .target 1 2
    | '>' :: _ => redirect .target 1 1
    | _ => return none

def redirectsFrom (fuel : Nat) : Parser (List Redirect) :=
  match fuel with
  | 0 => failure
  | fuel + 1 => do
    match ← redirect? fuel with
    | some r => return r :: (← redirectsFrom fuel)
    | none => return []

/-- The rest of a simple command, of which everything read so far is given the last one first. -/
def simple (fuel : Nat) (assignments : List (String × Word)) (words : List Word)
    (redirects : List Redirect) : Parser Command :=
  match fuel with
  | 0 => failure
  | fuel + 1 => do
    if let some r ← redirect? fuel then return ← simple fuel assignments words (r :: redirects)
    match ← get with
    | [] | ';' :: _ | '&' :: _ | '|' :: _ | '\n' :: _ | ')' :: _ =>
      guard !(assignments.isEmpty && words.isEmpty && redirects.isEmpty)
      return .simple assignments.reverse words.reverse redirects.reverse
    | '(' :: rest =>
      let [name] := words | failure
      let some name := Word.bare? name | failure
      guard (assignments.isEmpty && redirects.isEmpty && name ∉ special)
      guard (name.toList.all isName && name.toList.head?.any isNameStart)
      guard ((skipBlank rest).head? = some ')')
      set ((skipBlank rest).drop 1)
      lines
      return .function name (← command fuel)
    | _ =>
      let w ← word fuel
      match words, assignment? w with
      | [], some a => simple fuel (a :: assignments) words redirects
      | _, _ => simple fuel assignments (w :: words) redirects

end

/-- One line of commands. -/
def line (fuel : Nat) : Parser Command :=
  match fuel with
  | 0 => failure
  | fuel + 1 => do
    blank
    match ← get with
    | [] => return .nothing
    | '\n' :: rest =>
      set rest
      return .nothing
    | _ =>
      let first ← chain (fuel * 8)
      blank
      match ← get with
      | [] => return first
      | '\n' :: rest =>
        set rest
        return first
      | ';' :: rest =>
        set rest
        return .sequence first (← line fuel)
      | '&' :: rest =>
        set rest
        return .sequence (.background first) (← line fuel)
      | _ => failure

end Parser

/-- The first line of a script and the text after it; nothing if it has a fault. -/
def nextLine (aliases : Aliases) (text : List Char) : Option (Command × List Char) :=
  let longest := aliases.foldl (fun n a ↦ n + a.2.length) 1
  ((Parser.line ((text.length * 4 + 16) * longest)).run aliases).run text

end RemoteObjects.Rehearsal.Shell
