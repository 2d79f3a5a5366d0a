import RecipeFlow.Yaml.Quoted

/-! Scalars without quotes, which end where their line's structure does. -/
namespace RecipeFlow.Yaml

/-- The marks of collections in brackets. -/
def isFlowMark (c : Char) : Bool :=
  c == ',' || c == '[' || c == ']' || c == '\x7b' || c == '\x7d'

/-- Characters that no scalar without quotes starts with, unless one that is no blank follows. -/
def isIndicator (c : Char) : Bool :=
  isFlowMark c || ['-', '?', ':', '#', '&', '*', '!', '|', '>', '\'', '"', '%', '@', '\x60'].contains c

/-- Whether a scalar without quotes starts here. -/
def startsPlain (inFlow : Bool) (c : Cursor) : Bool :=
  match c.rest with
  | [] => false
  | d :: r =>
    !(isBlank d || isBreak d || isIndicator d) || (d == '-' && !r.head?.any isBlank) ||
      (!inFlow && (d == '?' || d == ':') && !c.blankAt 1)

/-- The characters of a word, in front of the ones collected in reverse. Inside brackets a colon may
not touch a mark. -/
def plainWord? (inFlow : Bool) : Nat → List Char → Cursor → Option (List Char × Cursor)
  | 0, acc, c => some (acc, c)
  | fuel + 1, acc, c =>
    match c.rest with
    | [] => some (acc, c)
    | d :: r =>
      if isBlank d || isBreak d then some (acc, c)
      else if inFlow && d == ':' && r.head?.any (fun e => isFlowMark e || e == '?') then none
      else if d == ':' && c.blankAt 1 then some (acc, c)
      else if inFlow && isFlowMark d then some (acc, c)
      else plainWord? inFlow fuel (d :: acc) (c.advance 1)

/-- Whether a tab stands in the indentation of a line that is passed before the next word. -/
def tabInIndent (indent : Int) : Nat → Bool → Cursor → Bool
  | 0, _, _ => false
  | fuel + 1, broken, c =>
    match c.rest with
    | [] => false
    | d :: _ =>
      if isBlank d then
        (broken && (c.column : Int) < indent && d == '\t') ||
          tabInIndent indent fuel broken (c.advance 1)
      else if isBreak d then tabInIndent indent fuel true c.nextLine
      else false

/-- The rest of a scalar after a gap: its characters so far in reverse, the gap, and whether a line
break is in it. The last component says whether the scalar ends after a line break. -/
def plainFrom? (inFlow : Bool) (indent : Int) :
    Nat → List Char → Gap → Bool → Cursor → Option (List Char × Bool × Cursor)
  | 0, acc, _, broken, c => some (acc, broken, c)
  | fuel + 1, acc, g, broken, c =>
    if c.atDocumentMark || c.rest.head? == some '#' then some (acc, broken, c)
    else
      match plainWord? inFlow c.rest.length [] c with
      | none => none
      | some (word, c) =>
        let (acc, g, broken) :=
          if word.isEmpty then (acc, g, broken)
          else (word ++ (g.fold broken).reverse ++ acc, {}, false)
        if !c.rest.head?.any (fun d => isBlank d || isBreak d) then some (acc, broken, c)
        else if tabInIndent indent c.rest.length broken c then none
        else
          let (g, broken, c) := gapFrom c.rest.length broken g c
          if !inFlow && (c.column : Int) < indent then some (acc, broken, c)
          else plainFrom? inFlow indent fuel acc g broken c

/-- The scalar that starts here, and whether a line break has ended it. -/
def plain? (inFlow : Bool) (indent : Int) (c : Cursor) : Option (String × Bool × Cursor) :=
  (plainFrom? inFlow indent (c.rest.length + 1) [] {} false c).map fun (acc, broken, c') =>
    (String.ofList acc.reverse, broken, c')

end RecipeFlow.Yaml
