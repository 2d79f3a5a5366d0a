import RecipeFlow.Yaml.Node
import RecipeFlow.Yaml.Token

/-! Drafts: the nodes of a document as its tokens give them, with aliases still open. A draft that
ends early ends in the node that could not be read. -/
namespace RecipeFlow.Yaml

/-- A node with the number of its anchor, if it has one. -/
inductive Draft where
  | scalar (anchor : Option Nat) (s : Scalar)
  | sequence (anchor : Option Nat) (tag : Option String) (items : List Draft)
  | mapping (anchor : Option Nat) (tag : Option String) (entries : List (Draft × Draft))
  /-- Stands for the node of an anchor. -/
  | alias (anchor : Nat)
  | broken
  deriving Repr, Inhabited

/-- What stands where a node is absent. -/
def Draft.absent : Draft := .scalar none .absent

/-- The tokens that are still to be read, and what the names among them mean. -/
structure Reader where
  tokens : List Token
  /-- What the handles in tags stand for. -/
  handles : List (List Char × List Char)
  /-- The names of anchors so far, with their numbers. -/
  anchors : List (List Char × Nat)

/-- A part that was read, and where to go on unless the text is broken there. -/
abbrev Step (α : Type) := α × Option Reader

/-- Reads a second part after a first one; where the text is broken `absent` stands for it. -/
def Step.andThen {α β γ : Type} (join : α → β → γ) (absent : β) (first : Step α)
    (next : Reader → Step β) : Step γ :=
  match first with
  | (a, none) => (join a absent, none)
  | (a, some r) =>
    let (b, e) := next r
    (join a b, e)

def Step.map {α β : Type} (f : α → β) (s : Step α) : Step β :=
  (f s.1, s.2)

namespace Reader

def goTo (ts : List Token) (r : Reader) : Reader :=
  { r with tokens := ts }

/-- Numbers an anchor by the count of different names before it. -/
def withAnchor (name : Option (List Char)) (r : Reader) : Option Nat × Reader :=
  match name with
  | none => (none, r)
  | some n =>
    let id := r.anchors.length
    (some id, { r with anchors := (n, id) :: r.anchors.filter (·.1 != n) })

/-- A tag in full, if there is one; nothing when its handle has no meaning. -/
def tagText? (tag : Option (List Char × List Char)) (r : Reader) : Option (Option String) :=
  match tag with
  | none => some none
  | some ([], suffix) => some (some (String.ofList suffix))
  | some (handle, suffix) =>
    (r.handles.lookup handle).map fun stem => some (String.ofList (stem ++ suffix))

/-- The anchor and the tag before a node, in either order, and what follows them. -/
def properties : List Token → Option (List Char) × Option (List Char × List Char) × List Token
  | .anchor a :: .tag h s :: ts | .tag h s :: .anchor a :: ts => (some a, some (h, s), ts)
  | .anchor a :: ts => (some a, none, ts)
  | .tag h s :: ts => (none, some (h, s), ts)
  | ts => (none, none, ts)

/-- The node is absent where one of these tokens stands; the text is broken where there is none. -/
def orAbsent (ends : Token → Bool) (read : Reader → Step Draft) (r : Reader) : Step Draft :=
  match r.tokens with
  | t :: _ => if ends t then (.absent, some r) else read r
  | [] => (.broken, none)

/-- Ends an item of a block. -/
def endsItem (t : Token) : Bool :=
  t == .blockEntry || t == .blockEnd

/-- Ends an item of a block that has no indentation of its own. -/
def endsLooseItem (t : Token) : Bool :=
  t == .blockEntry || t == .key || t == .value || t == .blockEnd

/-- Ends a key or value of a block. -/
def endsBlockPart (t : Token) : Bool :=
  t == .key || t == .value || t == .blockEnd

/-- Ends a key or value between brackets. -/
def endsFlowPart (close t : Token) : Bool :=
  t == .value || t == .flowEntry || t == close

/-- Ends a value between brackets. -/
def endsFlowValue (close t : Token) : Bool :=
  t == .flowEntry || t == close

/-- Passes the comma before every item between brackets but the first. -/
def afterComma? (first : Bool) (close : Token) (r : Reader) : Option Reader :=
  match r.tokens with
  | t :: ts =>
    if first || t == close then some r
    else if t == .flowEntry then some (r.goTo ts)
    else none
  | [] => none

/-- The value of an entry between brackets that holds a key alone. -/
def noValue (r : Reader) : Step Draft :=
  if r.tokens.isEmpty then (.broken, none) else (.absent, some r)

/-- The end of a pair that stands as an item; it is seen at the token that follows. -/
def pairEnd (r : Reader) : Step (List (Draft × Draft)) :=
  if r.tokens.isEmpty then ([(.broken, .broken)], none) else ([], some r)

mutual

/-- Reads a node. A block can stand only where `block` allows it, and a sequence without an
indentation of its own only where `loose` does. -/
def node : Nat → Bool → Bool → Reader → Step Draft
  | 0, _, _, _ => (.broken, none)
  | fuel + 1, block, loose, r =>
    match r.tokens with
    | .alias name :: ts =>
      match r.anchors.lookup name with
      | some id => (.alias id, some (r.goTo ts))
      | none => (.broken, none)
    | ts =>
      let (name, tag, ts) := properties ts
      match r.tagText? tag with
      | none => (.broken, none)
      | some tag =>
        let (anchor, r) := (r.goTo ts).withAnchor name
        let other : Step Draft :=
          if anchor.isSome || tag.isSome then (.scalar anchor ⟨"", tag, true⟩, some r)
          else (.broken, none)
        match ts with
        | .scalar text plain :: ts => (.scalar anchor ⟨text, tag, plain⟩, some (r.goTo ts))
        | .flowSequenceStart :: ts =>
          (flowItems fuel true (r.goTo ts)).map (.sequence anchor tag)
        | .flowMappingStart :: ts => (flowEntries fuel true (r.goTo ts)).map (.mapping anchor tag)
        | .blockSequenceStart :: ts =>
          if block then (blockItems fuel (r.goTo ts)).map (.sequence anchor tag) else other
        | .blockMappingStart :: ts =>
          if block then (blockEntries fuel (r.goTo ts)).map (.mapping anchor tag) else other
        | .blockEntry :: _ =>
          if loose then (looseItems fuel r).map (.sequence anchor tag) else other
        | [] => (.broken, none)
        | _ => other

def blockItems : Nat → Reader → Step (List Draft)
  | 0, _ => ([.broken], none)
  | fuel + 1, r =>
    match r.tokens with
    | .blockEntry :: ts =>
      Step.andThen List.cons [] (orAbsent endsItem (node fuel true false) (r.goTo ts))
        (blockItems fuel)
    | .blockEnd :: ts => ([], some (r.goTo ts))
    | _ => ([.broken], none)

/-- The items of a sequence that stands as deep as the mapping around it. -/
def looseItems : Nat → Reader → Step (List Draft)
  | 0, _ => ([.broken], none)
  | fuel + 1, r =>
    match r.tokens with
    | .blockEntry :: ts =>
      Step.andThen List.cons [] (orAbsent endsLooseItem (node fuel true false) (r.goTo ts))
        (looseItems fuel)
    | _ :: _ => ([], some r)
    | [] => ([.broken], none)

def blockEntries : Nat → Reader → Step (List (Draft × Draft))
  | 0, _ => ([(.broken, .broken)], none)
  | fuel + 1, r =>
    match r.tokens with
    | .key :: ts =>
      let key := orAbsent endsBlockPart (node fuel true true) (r.goTo ts)
      Step.andThen List.cons [] (Step.andThen Prod.mk .broken key (blockValue fuel))
        (blockEntries fuel)
    | .blockEnd :: ts => ([], some (r.goTo ts))
    | _ => ([(.broken, .broken)], none)

def blockValue : Nat → Reader → Step Draft
  | 0, _ => (.broken, none)
  | fuel + 1, r =>
    match r.tokens with
    | .value :: ts => orAbsent endsBlockPart (node fuel true true) (r.goTo ts)
    | _ :: _ => (.absent, some r)
    | [] => (.broken, none)

def flowItems : Nat → Bool → Reader → Step (List Draft)
  | 0, _, _ => ([.broken], none)
  | fuel + 1, first, r =>
    match r.afterComma? first .flowSequenceEnd with
    | none => ([.broken], none)
    | some r =>
      match r.tokens with
      | .flowSequenceEnd :: ts => ([], some (r.goTo ts))
      | .key :: ts =>
        let entry := Step.andThen Prod.mk .broken (flowPairKey fuel (r.goTo ts))
          (flowValue fuel .flowSequenceEnd)
        let pair := Step.andThen List.cons [] entry pairEnd
        Step.andThen List.cons [] (pair.map (.mapping none none)) (flowItems fuel false)
      | _ => Step.andThen List.cons [] (node fuel false false r) (flowItems fuel false)

/-- The key of a pair that stands as an item. The token in place of an absent key is passed. -/
def flowPairKey : Nat → Reader → Step Draft
  | 0, _ => (.broken, none)
  | fuel + 1, r =>
    match r.tokens with
    | t :: ts =>
      if endsFlowPart .flowSequenceEnd t then (.absent, some (r.goTo ts))
      else node fuel false false r
    | [] => (.broken, none)

/-- The value after a key between brackets, absent when no colon stands here. -/
def flowValue : Nat → Token → Reader → Step Draft
  | 0, _, _ => (.broken, none)
  | fuel + 1, close, r =>
    match r.tokens with
    | .value :: ts => orAbsent (endsFlowValue close) (node fuel false false) (r.goTo ts)
    | _ :: _ => (.absent, some r)
    | [] => (.broken, none)

def flowEntries : Nat → Bool → Reader → Step (List (Draft × Draft))
  | 0, _, _ => ([(.broken, .broken)], none)
  | fuel + 1, first, r =>
    match r.afterComma? first .flowMappingEnd with
    | none => ([(.broken, .broken)], none)
    | some r =>
      match r.tokens with
      | .flowMappingEnd :: ts => ([], some (r.goTo ts))
      | .key :: ts =>
        let key := orAbsent (endsFlowPart .flowMappingEnd) (node fuel false false) (r.goTo ts)
        Step.andThen List.cons []
          (Step.andThen Prod.mk .broken key (flowValue fuel .flowMappingEnd))
          (flowEntries fuel false)
      | _ =>
        Step.andThen List.cons []
          (Step.andThen Prod.mk .broken (node fuel false false r) noValue)
          (flowEntries fuel false)

end

end Reader

end RecipeFlow.Yaml
