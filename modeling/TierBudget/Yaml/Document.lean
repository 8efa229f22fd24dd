import TierBudget.Yaml.Node
import TierBudget.Yaml.Scan.Run
/-!
# YAML documents

The nodes that tokens write. A value may have an anchor in front, by which an alias further on stands
for it, and a tag. A text holds any number of documents, between which there are marks, and `read`
takes one at most.
-/

namespace TierBudget.Yaml

/-! ## Anchors and tags -/

/-- A document of which some tokens have been read. -/
structure Source where
  tokens : List Token
  /-- The anchors and their numbers, the last one first. -/
  anchors : List (String × Nat)
  /-- The values of anchors by their numbers. -/
  values : List (Nat × Node)
  /-- What the handles of tags stand for. -/
  handles : List (String × String)

/-- What is known of a value before it is read: the number of its anchor, and its tag, which names a
standard type or says nothing. -/
structure Property where
  anchor : Option Nat
  tag : Option (Option String)

/-- What the standard handle of tags stands for. -/
def standardTypes : String := "tag:yaml.org,2002:"

/-- Whether a handle must have been declared: it has a mark at both ends. -/
def isDeclared (handle : String) : Bool :=
  2 ≤ handle.length && handle.toList.head? == some '!' && handle.toList.getLast? == some '!'

namespace Source

/-- The standard type that a tag names. -/
def typeOf? (s : Source) (handle suffix : String) : Option (Option String) :=
  match s.handles.lookup handle with
  | some meaning => some (if meaning = standardTypes then some suffix else none)
  | none =>
    if handle = "!!" then some (some suffix) else if isDeclared handle then none else some none

/-- The source with an anchor for what comes next, and the anchor's number. -/
def addAnchor (s : Source) (name : String) : Nat × Source :=
  (s.anchors.length, { s with anchors := (name, s.anchors.length) :: s.anchors })

/-- The source after some tokens. -/
def goTo (s : Source) (tokens : List Token) : Source := { s with tokens := tokens }

/-- An anchor and a tag, in either order. -/
def property (s : Source) : Option (Property × Source) :=
  match s.tokens with
  | .anchor a :: .tag h x :: r => do
    let (n, s) := s.addAnchor a
    return (⟨some n, some (← s.typeOf? h x)⟩, s.goTo r)
  | .tag h x :: .anchor a :: r => do
    let (n, s) := s.addAnchor a
    return (⟨some n, some (← s.typeOf? h x)⟩, s.goTo r)
  | .anchor a :: r =>
    let (n, s) := s.addAnchor a
    some (⟨some n, none⟩, s.goTo r)
  | .tag h x :: r => do return (⟨none, some (← s.typeOf? h x)⟩, s.goTo r)
  | _ => some (⟨none, none⟩, s)

/-- The value of an alias: that of the last anchor of its name, which is of no use before its
end. -/
def aliasValue? (s : Source) (name : String) : Option Node := do
  let n ← s.anchors.lookup name
  return (s.values.lookup n).getD .unusable

/-- The source with the value of an anchor. -/
def setValue (s : Source) (p : Property) (n : Node) : Source :=
  match p.anchor with
  | some a => { s with values := (a, n) :: s.values }
  | none => s

end Source

/-- The value of a text with a tag. -/
def Property.value (p : Property) (plain : Bool) (s : String) : Node :=
  if !plain then .text s
  else match p.tag with
    | none => .ofPlain s
    | some none => .text s
    | some (some type) => .ofTagged type s

/-! ## Values -/

/-- Whether the value of an entry in a block is missing: another part of the block comes next. -/
def lacksBlockValue : List Token → Bool
  | .key :: _ | .value :: _ | .blockEnd :: _ => true
  | _ => false

/-- Whether an entry of a sequence is missing. -/
def lacksEntry (indented : Bool) (tokens : List Token) : Bool :=
  match tokens with
  | .blockEntry :: _ | .blockEnd :: _ => true
  | .key :: _ | .value :: _ => !indented
  | _ => false

/-- Whether the value of an entry in brackets is missing: the next entry or the end comes next. -/
def lacksFlowValue : List Token → Bool
  | .flowEntry :: _ | .flowMappingEnd :: _ | .flowSequenceEnd :: _ => true
  | _ => false

mutual

/-- A value. `block` tells whether blocks of lines can begin here, and `bare` whether a sequence can
begin that is not indented. -/
def readNode : Nat → Bool → Bool → Source → Option (Node × Source)
  | 0, _, _, _ => none
  | fuel + 1, block, bare, s =>
    match s.tokens with
    | .alias a :: r => (s.aliasValue? a).map (·, s.goTo r)
    | _ =>
      match s.property with
      | none => none
      | some (p, s) =>
        (readContent fuel block bare p s).map fun (n, s) => (n, s.setValue p n)

/-- A value after its anchor and its tag. -/
def readContent : Nat → Bool → Bool → Property → Source → Option (Node × Source)
  | 0, _, _, _, _ => none
  | fuel + 1, block, bare, p, s =>
    match s.tokens, block, bare with
    | .blockEntry :: _, _, true => readEntries fuel false [] s
    | .text plain x :: r, _, _ => some (p.value plain x, s.goTo r)
    | .flowSequence :: r, _, _ => readFlowEntries fuel true [] (s.goTo r)
    | .flowMapping :: r, _, _ => readFlowPairs fuel true [] (s.goTo r)
    | .blockSequence :: r, true, _ => readEntries fuel true [] (s.goTo r)
    | .blockMapping :: r, true, _ => readPairs fuel [] (s.goTo r)
    | _, _, _ => if p.anchor.isSome || p.tag.isSome then some (p.value true "", s) else none

/-- The entries of a sequence with hyphens, after those in `acc` in reverse. An indented one has an
end of its own. -/
def readEntries : Nat → Bool → List Node → Source → Option (Node × Source)
  | 0, _, _, _ => none
  | fuel + 1, indented, acc, s =>
    match s.tokens with
    | .blockEntry :: r =>
      if lacksEntry indented r then readEntries fuel indented (.nothing :: acc) (s.goTo r)
      else
        match readNode fuel true false (s.goTo r) with
        | none => none
        | some (n, s) => readEntries fuel indented (n :: acc) s
    | .blockEnd :: r =>
      some (.sequence acc.reverse, if indented then s.goTo r else s)
    | _ => if indented then none else some (.sequence acc.reverse, s)

/-- The entries of a mapping in a block, after the keys and values in `acc` in reverse. Keys are
never missing. -/
def readPairs : Nat → List Node → Source → Option (Node × Source)
  | 0, _, _ => none
  | fuel + 1, acc, s =>
    match s.tokens with
    | .blockEnd :: r => some (.ofRow acc.reverse, s.goTo r)
    | .key :: r =>
      if lacksBlockValue r then none
      else
        match readNode fuel true true (s.goTo r) with
        | none => none
        | some (k, s) =>
          match s.tokens with
          | .value :: r =>
            if lacksBlockValue r then readPairs fuel (.nothing :: k :: acc) (s.goTo r)
            else
              match readNode fuel true true (s.goTo r) with
              | none => none
              | some (v, s) => readPairs fuel (v :: k :: acc) s
          | _ => readPairs fuel (.nothing :: k :: acc) s
    | _ => none

/-- The value in brackets after a key: nothing if there is no colon. -/
def readFlowValue : Nat → Source → Option (Node × Source)
  | 0, _ => none
  | fuel + 1, s =>
    match s.tokens with
    | .value :: r =>
      if lacksFlowValue r then some (.nothing, s.goTo r) else readNode fuel false false (s.goTo r)
    | _ => some (.nothing, s)

/-- A key in brackets after its mark, and its value. -/
def readFlowPair : Nat → Source → Option ((Node × Node) × Source)
  | 0, _ => none
  | fuel + 1, s =>
    match readNode fuel false false s with
    | none => none
    | some (k, s) => (readFlowValue fuel s).map fun (v, s) => ((k, v), s)

/-- The entries of a sequence in brackets, after those in `acc` in reverse; `first` tells whether no
comma is needed. -/
def readFlowEntries : Nat → Bool → List Node → Source → Option (Node × Source)
  | 0, _, _, _ => none
  | fuel + 1, first, acc, s =>
    match s.tokens, first with
    | .flowSequenceEnd :: r, _ => some (.sequence acc.reverse, s.goTo r)
    | .flowEntry :: r, false => readFlowEntries fuel true acc (s.goTo r)
    | _, false => none
    | .key :: r, true =>
      match readFlowPair fuel (s.goTo r) with
      | none => none
      | some ((k, v), s) => readFlowEntries fuel false (.ofRow [k, v] :: acc) s
    | _, true =>
      match readNode fuel false false s with
      | none => none
      | some (n, s) => readFlowEntries fuel false (n :: acc) s

/-- The entries of a mapping in brackets, after the keys and values in `acc` in reverse; `first`
tells whether no comma is needed. -/
def readFlowPairs : Nat → Bool → List Node → Source → Option (Node × Source)
  | 0, _, _, _ => none
  | fuel + 1, first, acc, s =>
    match s.tokens, first with
    | .flowMappingEnd :: r, _ => some (.ofRow acc.reverse, s.goTo r)
    | .flowEntry :: r, false => readFlowPairs fuel true acc (s.goTo r)
    | _, false => none
    | .key :: r, true =>
      match readFlowPair fuel (s.goTo r) with
      | none => none
      | some ((k, v), s) => readFlowPairs fuel false (v :: k :: acc) s
    | _, true =>
      match readNode fuel false false s with
      | none => none
      | some (k, s) => readFlowPairs fuel false (.nothing :: k :: acc) s

end

/-! ## Documents -/

/-- The directives in front of a document: what handles of tags stand for, and the tokens after. A
version is given once at most, and so is a handle. -/
def readDirectives (version : Bool) (handles : List (String × String)) :
    List Token → Option (List (String × String) × List Token)
  | .version :: r => if version then none else readDirectives true handles r
  | .tagHandle h m :: r =>
    if h != "" && (handles.lookup h).isSome then none
    else readDirectives version ((h, m) :: handles) r
  | r => some (handles, r)

/-- Whether a document with a mark is empty. -/
def lacksDocument : List Token → Bool
  | .version :: _ | .tagHandle .. :: _ | .documentStart :: _ | .documentEnd :: _ | [] => true
  | _ => false

/-- The documents of tokens; `bare` tells whether the first one needs no mark. -/
def readDocuments : Nat → Bool → List Token → Option (List Node)
  | 0, _, _ => none
  | _ + 1, _, [] => some []
  | fuel + 1, bare, .documentEnd :: r => readDocuments fuel bare r
  | fuel + 1, bare, tokens => do
    let (handles, r) ← readDirectives false [] tokens
    let marked := r.head? == some .documentStart
    if !marked && (!bare || tokens.length != r.length) then none
    let r := if marked then r.drop 1 else r
    let (n, s) ←
      if marked && lacksDocument r then some (.nothing, ⟨r, [], [], []⟩)
      else readNode (8 * r.length + 8) true false ⟨r, [], [], handles⟩
    match s.tokens with
    | .documentEnd :: r => return n :: (← readDocuments fuel true r)
    | .version :: _ | .tagHandle .. :: _ => none
    | r => return n :: (← readDocuments fuel false r)

/-- The tree that a text writes; no document is an empty table. -/
def read (s : String) : Option Tree := do
  let tokens ← Token.scan s
  match ← readDocuments (tokens.length + 1) true tokens with
  | [] => some (.table [])
  | [n] => n.toTree?
  | _ => none

end TierBudget.Yaml
