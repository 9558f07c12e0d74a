import Discovery.Settings.Yaml.Node
import Discovery.Settings.Yaml.Token

/-!
# Documents of YAML

The tokens of a text make up documents, each of which is one node.  Directives in front of a
document and anchors in it hold up to its end.
-/

namespace Discovery.Settings.Yaml

/-- What is left of the tokens of a text, and what is known of its anchors and tags. -/
structure Reading where
  tokens : List Token
  /-- The numbers of the anchors, of which the last one with a name counts. -/
  anchors : Table Nat
  /-- The nodes that have an anchor, with its number. -/
  named : List (Nat × Node)
  nextAnchor : Nat
  /-- What the handles of tags stand for. -/
  handles : Table String

/-- The anchor and the tag in front of a node. -/
structure Properties where
  anchor : Option Nat
  tag : Option Tag

namespace Reading

def start (tokens : List Token) : Reading := ⟨tokens, ∅, [], 0, ∅⟩

/-- The next token; behind the last one there is the end of the text. -/
def head (r : Reading) : Token :=
  r.tokens.headD .textEnd

def next (r : Reading) : Reading :=
  { r with tokens := r.tokens.drop 1 }

/-! ## Anchors and tags -/

def newAnchor (r : Reading) (name : String) : Reading × Nat :=
  ({ r with anchors := r.anchors.insert name r.nextAnchor, nextAnchor := r.nextAnchor + 1 },
    r.nextAnchor)

def setNamed (r : Reading) (anchor : Option Nat) (n : Node) : Reading :=
  match anchor with
  | some k => { r with named := (k, n) :: r.named }
  | none => r

/-- The node that an alias stands for, which is no value as long as the node is being read. -/
def named? (r : Reading) (name : String) : Option Node :=
  (r.anchors.get? name).map fun k => (r.named.lookup k).getD .invalid

/-- A tag with what its handle stands for.  A handle with two exclamation marks stands for
something. -/
def resolve? (r : Reading) (t : Tag) : Option Tag :=
  match r.handles.get? t.handle with
  | some meaning => some { t with handle := meaning }
  | none =>
    if t.handle = "!!" then some { t with handle := standardTypes }
    else if isClosed t.handle.toList then none
    else some t

/-- Reads the anchor and the tag in front of a node, in any order. -/
def properties? (r : Reading) : Option (Properties × Reading) :=
  match r.tokens with
  | .anchor name :: .tag t :: _ => do
    let (r, k) := r.newAnchor name
    return (⟨some k, some (← r.resolve? t)⟩, r.next.next)
  | .tag t :: .anchor name :: _ => do
    let (r, k) := r.newAnchor name
    return (⟨some k, some (← r.resolve? t)⟩, r.next.next)
  | .anchor name :: _ =>
    let (r, k) := r.newAnchor name
    some (⟨some k, none⟩, r.next)
  | .tag t :: _ => do
    return (⟨none, some (← r.resolve? t)⟩, r.next)
  | _ => some (⟨none, none⟩, r)

/-! ## Nodes -/

/-- Whether the value of an entry in a block, or its key, is left out in front of a token. -/
def endsPart : Token → Bool
  | .key | .value | .blockEnd => true
  | _ => false

/-- Whether an item of a list in a block is left out in front of a token. -/
def endsItem : Token → Bool
  | .item | .blockEnd => true
  | _ => false

/-- Whether the value of an entry in braces is left out in front of a token. -/
def endsFlowValue : Token → Bool
  | .comma | .braceEnd => true
  | _ => false

/-- Whether the key of an entry in braces is left out in front of a token. -/
def endsFlowKey (t : Token) : Bool :=
  t == .value || endsFlowValue t

/-- Whether the value of an entry without braces is left out in front of a token. -/
def endsEntryValue : Token → Bool
  | .comma | .bracketEnd => true
  | _ => false

def plainNode (ps : Properties) (s : String) : Node :=
  match ps.tag with
  | some t => .ofTagged t s
  | none => .ofPlain s

def complete (r : Reading) (ps : Properties) (n : Node) : Node × Reading :=
  (n, r.setNamed ps.anchor n)

mutual

/-- Reads a node.  It may be a block (`block`), and a list whose items are not indented further than
the entry that it is the value of (`flush`). -/
def node? : Nat → Bool → Bool → Reading → Option (Node × Reading)
  | 0, _, _, _ => none
  | fuel + 1, block, flush, r =>
    match r.head with
    | .alias name => (r.named? name).map fun n => (n, r.next)
    | _ => do
      let (ps, r) ← r.properties?
      match r.head, block, flush with
      | .item, _, true => do
        let (items, r) ← flushItems? fuel r
        return r.complete ps (.list items)
      | .plain s, _, _ => return r.next.complete ps (plainNode ps s)
      | .quoted s, _, _ => return r.next.complete ps (.text s)
      | .bracket, _, _ => do
        let (items, r) ← flowItems? fuel true r.next
        return r.complete ps (.list items)
      | .brace, _, _ => do
        let (parts, r) ← flowParts? fuel true r.next
        return r.complete ps (.table (← entriesOf? [] parts))
      | .listStart, true, _ => do
        let (items, r) ← items? fuel r.next
        return r.complete ps (.list items)
      | .tableStart, true, _ => do
        let (parts, r) ← parts? fuel r.next
        return r.complete ps (.table (← entriesOf? [] parts))
      | _, _, _ =>
        if ps.anchor.isNone && ps.tag.isNone then none
        else return r.complete ps (plainNode ps "")

/-- Reads a node that is left out in front of some tokens. -/
def optional? : Nat → Bool → Bool → (Token → Bool) → Reading → Option (Node × Reading)
  | 0, _, _, _, _ => none
  | fuel + 1, block, flush, missing, r =>
    if missing r.head then some (.nothing, r) else node? fuel block flush r

/-- Reads the items of a list in a block, and its end. -/
def items? : Nat → Reading → Option (List Node × Reading)
  | 0, _ => none
  | fuel + 1, r =>
    match r.head with
    | .blockEnd => some ([], r.next)
    | .item => do
      let (n, r) ← optional? fuel true false endsItem r.next
      let (ns, r) ← items? fuel r
      return (n :: ns, r)
    | _ => none

/-- Reads the items of a list that is not indented further than the entry around it. -/
def flushItems? : Nat → Reading → Option (List Node × Reading)
  | 0, _ => none
  | fuel + 1, r =>
    match r.head with
    | .item => do
      let (n, r) ← optional? fuel true false (fun t => endsItem t || endsPart t) r.next
      let (ns, r) ← flushItems? fuel r
      return (n :: ns, r)
    | _ => some ([], r)

/-- Reads the keys and values of a table in a block, in turn, and its end. -/
def parts? : Nat → Reading → Option (List Node × Reading)
  | 0, _ => none
  | fuel + 1, r =>
    match r.head with
    | .blockEnd => some ([], r.next)
    | .key | .value => do
      let (k, r) ←
        if r.head == .key then optional? fuel true true endsPart r.next else some (.nothing, r)
      let (v, r) ←
        if r.head == .value then optional? fuel true true endsPart r.next else some (.nothing, r)
      let (ns, r) ← parts? fuel r
      return (k :: v :: ns, r)
    | _ => none

/-- Reads the keys and values of a table in braces, in turn, and its end.  Behind the first entry
there are commas. -/
def flowParts? : Nat → Bool → Reading → Option (List Node × Reading)
  | 0, _, _ => none
  | fuel + 1, first, r =>
    if r.head == .braceEnd then some ([], r.next)
    else do
      let r ← if first then some r else if r.head == .comma then some r.next else none
      if r.head == .braceEnd then return ([], r.next)
      else
        let marked := r.head == .key || r.head == .value
        let (k, r) ←
          if r.head == .value then some (.nothing, r)
          else if r.head == .key then optional? fuel false false endsFlowKey r.next
          else node? fuel false false r
        let (v, r) ←
          if marked && r.head == .value then optional? fuel false false endsFlowValue r.next
          else some (.nothing, r)
        let (ns, r) ← flowParts? fuel false r
        return (k :: v :: ns, r)

/-- Reads the items of a list in brackets, and its end.  Behind the first item there are commas; an
item behind the mark of a key is a table with one entry. -/
def flowItems? : Nat → Bool → Reading → Option (List Node × Reading)
  | 0, _, _ => none
  | fuel + 1, first, r =>
    if r.head == .bracketEnd then some ([], r.next)
    else do
      let r ← if first then some r else if r.head == .comma then some r.next else none
      if r.head == .bracketEnd then return ([], r.next)
      else
        let (n, r) ←
          if r.head == .key then do
            let (k, r) ← node? fuel false false r.next
            let (v, r) ←
              if r.head == .value then optional? fuel false false endsEntryValue r.next
              else some (.nothing, r)
            some (Node.table (← entriesOf? [] [k, v]), r)
          else node? fuel false false r
        let (ns, r) ← flowItems? fuel false r
        return (n :: ns, r)

end

/-! ## Documents -/

/-- Reads directives.  What the last one says about a handle holds. -/
def directives? : List Token → Bool → Table String → Option (Table String × List Token)
  | .directive .version :: ts, versioned, _ => if versioned then none else directives? ts true ∅
  | .directive (.handle handle meaning) :: ts, versioned, _ =>
    directives? ts versioned (Table.ofList [(handle, meaning)])
  | ts, _, handles => some (handles, ts)

/-- Whether a document without content is at its end in front of a token. -/
def endsDocument : Token → Bool
  | .directive _ | .documentStart | .documentEnd | .textEnd => true
  | _ => false

def atDirective (r : Reading) : Bool :=
  match r.head with
  | .directive _ => true
  | _ => false

/-- Reads a document that begins with a sign, perhaps behind directives. -/
def marked? (r : Reading) (fuel : Nat) : Option (Node × Reading) := do
  let (handles, tokens) ← directives? r.tokens false ∅
  match tokens with
  | .documentStart :: tokens => optional? fuel true false endsDocument { r with tokens, handles }
  | _ => none

/-- Reads the documents that are left.  Where the sign at the beginning may be left out (`bare`), a
document begins with any token. -/
def documents? : Nat → Bool → Reading → Option (List Node)
  | 0, _, _ => none
  | fuel + 1, bare, r => do
    let r := { r with tokens := r.tokens.dropWhile (· == .documentEnd), anchors := ∅ }
    if r.head == .textEnd then return []
    else
      let size := 4 * r.tokens.length + 4
      let begins := r.atDirective || r.head == .documentStart
      let (n, r) ← if bare && !begins then node? size true false r else r.marked? size
      let r := { r with handles := ∅ }
      if r.head == .documentEnd then
        return n :: (← documents? fuel true r.next)
      else if r.atDirective then none
      else return n :: (← documents? fuel false r)

end Reading

def documents? (tokens : List Token) : Option (List Node) :=
  (Reading.start tokens).documents? (tokens.length + 1) true

end Discovery.Settings.Yaml
