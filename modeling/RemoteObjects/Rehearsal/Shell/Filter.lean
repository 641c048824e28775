import RemoteObjects.Rehearsal.Shell.Options
import RemoteObjects.Rehearsal.Shell.Pattern
import RemoteObjects.Rehearsal.Shell.Printing
import RemoteObjects.Rehearsal.Shell.Test

/-!
# Filters

Programs that only make one text of another, each as a function from its words.  It is nothing if
the words are not understood.
-/

namespace RemoteObjects.Rehearsal.Shell

abbrev Filter : Type := List Char → List Char

namespace Filter

/-- The lines of a text. -/
def lines (text : List Char) : List String :=
  let parts := (String.ofList text).splitOn "\n"
  if parts.getLast? = some "" then parts.dropLast else parts

def ofLines (lines : List String) : List Char :=
  (String.join (lines.map (· ++ "\n"))).toList

def onLines (f : List String → List String) : Filter := fun text ↦ ofLines (f (lines text))

/-! ## Characters -/

/-- The characters that a set names, with its escapes, classes and ranges. -/
def charSet : Nat → List Char → List Char
  | 0, _ => []
  | _, [] => []
  | fuel + 1, '[' :: ':' :: rest =>
    let name := rest.takeWhile (· ≠ ':')
    match Pattern.classes.lookup (String.ofList name), rest.drop name.length with
    | some ranges, ':' :: ']' :: rest =>
      (ranges.flatMap fun r ↦ span r.1 r.2) ++ charSet fuel rest
    | _, _ => '[' :: ':' :: charSet fuel rest
  | fuel + 1, '\\' :: c :: rest =>
    let digits := ((c :: rest).take 3).takeWhile Printing.isOctal
    if digits.isEmpty then (Printing.escaped? c).getD c :: charSet fuel rest
    else Printing.octal digits :: charSet fuel ((c :: rest).drop digits.length)
  | fuel + 1, a :: '-' :: b :: rest => span a b ++ charSet fuel rest
  | fuel + 1, c :: rest => c :: charSet fuel rest
where
  span (a b : Char) : List Char :=
    (List.range (b.toNat + 1 - a.toNat)).map fun i ↦ .ofNat (a.toNat + i)

/-- Leaves one of several equal characters in a row, if there is a rule for the character. -/
def squeeze (rule : Char → Bool) : List Char → List Char
  | c :: d :: rest =>
    if c = d && rule c then squeeze rule (d :: rest) else c :: squeeze rule (d :: rest)
  | text => text

/-- Puts characters in the places of others. -/
def tr? (words : List String) : Option Filter := do
  let (options, sets) ← OptionFound.ofWords? "cCdst" words
  let on (c : Char) : Bool := options.any (·.1 = c)
  let sets := sets.map fun s ↦ charSet (s.length + 1) s.toList
  let chosen (set : List Char) (c : Char) : Bool := (c ∈ set) != (on 'c' || on 'C')
  match on 'd', sets with
  | true, [set] => if on 's' then none else return List.filter (!chosen set ·)
  | true, [set, kept] =>
    if on 's' then return fun text ↦ squeeze (· ∈ kept) (text.filter (!chosen set ·)) else none
  | false, [set] => if on 's' then return squeeze (chosen set) else none
  | false, [set, target] =>
    let put (c : Char) : Char :=
      if !chosen set c then c
      else ((if c ∈ set then target[set.idxOf c]? else none).or target.getLast?).getD c
    return fun text ↦
      if on 's' then squeeze (· ∈ target) (text.map put) else text.map put
  | _, _ => none

/-! ## Parts of lines -/

/-- The numbers that a list like `1,3-5,7-` names. -/
def ranges? (list : String) : Option (List (Nat × Option Nat)) :=
  (list.splitOn ",").mapM fun part ↦
    match (part.splitOn "-").map String.toNat? with
    | [some n] => if n = 0 then none else some (n, some n)
    | [some m, some n] => if 0 < m && m ≤ n then some (m, some n) else none
    | [some m, none] => if part.endsWith "-" then some (m, none) else none
    | [none, some n] => if part.startsWith "-" then some (1, some n) else none
    | _ => none

def cut? (words : List String) : Option Filter := do
  let (options, []) ← OptionFound.ofWords? "b:c:d:f:ns" words | none
  let among (ranges : List (Nat × Option Nat)) (i : Nat) : Bool :=
    ranges.any fun r ↦ r.1 ≤ i + 1 && r.2.all (i + 1 ≤ ·)
  let pick {α : Type} (ranges : List (Nat × Option Nat)) (parts : List α) : List α :=
    (parts.zipIdx.filter (among ranges ·.2)).map Prod.fst
  match options.lookup 'f', (options.lookup 'b').or (options.lookup 'c') with
  | some list, none =>
    let ranges ← ranges? list
    let mark := (options.lookup 'd').getD "\t"
    guard (mark.length = 1)
    return onLines fun lines ↦ lines.filterMap fun l ↦
      if (l.splitOn mark).length ≤ 1 then if options.any (·.1 = 's') then none else some l
      else some (mark.intercalate (pick ranges (l.splitOn mark)))
  | none, some list =>
    let ranges ← ranges? list
    return onLines (List.map fun l ↦ String.ofList (pick ranges l.toList))
  | _, _ => none

/-! ## Lines -/

/-- The integer at the front of a line. -/
def leading (l : String) : Int :=
  let text := l.toList.dropWhile Char.isWhitespace
  let digits := if text.head? = some '-' then text.drop 1 else text
  let n : Int := (digits.takeWhile Char.isDigit).foldl (fun n c ↦ n * 10 + (c.toNat - 48)) 0
  if text.head? = some '-' then -n else n

/-- What lines are sorted by: all of a line from one of its fields on. -/
def sortKey (mark : Option String) (field : Nat) (l : String) : String :=
  match mark with
  | some mark => mark.intercalate ((l.splitOn mark).drop (field - 1))
  | none =>
    let step (text : List Char) (_ : Nat) : List Char :=
      (text.dropWhile (· ∈ [' ', '\t'])).dropWhile (· ∉ [' ', '\t'])
    String.ofList ((List.range (field - 1)).foldl step l.toList)

def sort? (words : List String) : Option Filter := do
  let (options, []) ← OptionFound.ofWords? "nrufbsk:t:" words | none
  let key := (options.lookup 'k').getD "1"
  let digits := key.toList.takeWhile Char.isDigit
  let field ← (String.ofList digits).toNat?
  let modes := options.map Prod.fst ++ key.toList.filter Char.isAlpha
  let numeric := 'n' ∈ modes
  let cased (s : String) : String := if 'f' ∈ modes then s.map Char.toUpper else s
  let keyOf (l : String) : String := cased (sortKey (options.lookup 't') field l)
  let below (a b : String) : Bool :=
    if numeric then leading (keyOf a) < leading (keyOf b) else keyOf a < keyOf b
  let ordered (a b : String) : Bool :=
    if below a b then true else if below b a then false
    else 'u' ∈ modes || 's' ∈ modes || a ≤ b
  let ordered (a b : String) : Bool := if 'r' ∈ modes then ordered b a else ordered a b
  let rec distinct : List String → List String
    | a :: b :: rest =>
      if !below a b && !below b a then distinct (a :: rest) else a :: distinct (b :: rest)
    | rest => rest
  return onLines fun lines ↦
    let sorted := lines.mergeSort ordered
    if 'u' ∈ modes then distinct sorted else sorted

/-- Equal lines in a row, each with their number. -/
def runs : List String → List (String × Nat)
  | [] => []
  | l :: rest =>
    match runs rest with
    | (m, n) :: others => if l = m then (m, n + 1) :: others else (l, 1) :: (m, n) :: others
    | [] => [(l, 1)]

def uniq? (words : List String) : Option Filter := do
  let (options, []) ← OptionFound.ofWords? "cdu" words | none
  let on (c : Char) : Bool := options.any (·.1 = c)
  let shown (r : String × Nat) : Option String :=
    if (on 'd' && r.2 = 1) || (on 'u' && r.2 ≠ 1) then none
    else
      let count := toString r.2
      some (if on 'c' then "".pushn ' ' (7 - count.length) ++ count ++ " " ++ r.1 else r.1)
  return onLines fun lines ↦ (runs lines).filterMap shown

/-- The number of an option like `-n 3` or `-3`, and whether it counts from the front. -/
def count? (s : String) : Option (Nat × Bool) :=
  match s.toList with
  | '+' :: digits => (String.ofList digits).toNat?.map (·, true)
  | '-' :: digits => (String.ofList digits).toNat?.map (·, false)
  | digits => (String.ofList digits).toNat?.map (·, false)

/-- The first or last lines or characters, and the words that are no options. -/
def ends? (first : Bool) (words : List String) : Option (Filter × List String) := do
  let words := match words with
    | w :: rest =>
      match w.toList with
      | '-' :: d :: digits =>
        if d.isDigit then "-n" :: String.ofList (d :: digits) :: rest else words
      | _ => words
    | [] => []
  let (options, paths) ← OptionFound.ofWords? "n:c:qv" words
  let list := (options.lookup 'c').orElse fun _ ↦ options.lookup 'n'
  let (n, fromFront) ← count? (list.getD "10")
  let part {α : Type} (l : List α) : List α :=
    if first then if (list.getD "").startsWith "-" then l.take (l.length - n) else l.take n
    else if fromFront then l.drop (n - 1) else l.drop (l.length - n)
  return (if (options.lookup 'c').isSome then part else onLines part, paths)

/-- The filter of a name and its words, and the files that it reads; nothing if the words are not
understood. -/
def ofName? (name : String) (words : List String) : Option (Option (Filter × List String)) :=
  let files := words.filter (fun w ↦ !w.startsWith "-")
  let options := words.filter (·.startsWith "-")
  let reading (f : List String → Option Filter) : Option (Filter × List String) :=
    ((f words).map (·, [])).or ((f words.dropLast).map (·, words.getLast?.toList))
  match name with
  | "tr" => some ((tr? words).map (·, []))
  | "cut" => some (reading cut?)
  | "sort" => some (reading sort?)
  | "uniq" => some (reading uniq?)
  | "rev" => some (if options.isEmpty then
      some (onLines (List.map fun l ↦ String.ofList l.toList.reverse), files) else none)
  | "tac" => some (if options.isEmpty then some (onLines List.reverse, files) else none)
  | "head" => some (ends? true words)
  | "tail" => some (ends? false words)
  | _ => none

end Filter

end RemoteObjects.Rehearsal.Shell
