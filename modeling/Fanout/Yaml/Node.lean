import Fanout.Yaml.Token

/-!
# YAML nodes

A YAML document as a tree of scalars, sequences and mappings. A reference to an anchor is a node of
its own; the document says which node each anchor marks. Where the grammar allows a node to be left
out, it is an empty plain scalar.

The readers take tokens from the front of a list and hand on what is left; `none` means that the
tokens are no document. The fuel of a reader bounds the tokens it may take.
-/

namespace Fanout.Yaml

/-- A node of a YAML document. -/
inductive Node where
  | scalar (text : String) (style : Style) (tag : Option String)
  | sequence (elements : List Node) (tag : Option String)
  /-- A mapping, its entries in the order they were written in. -/
  | mapping (entries : List (Node × Node)) (tag : Option String)
  /-- A reference to the anchor of a number. -/
  | alias (anchor : Nat)
deriving Repr, Inhabited

/-- A node that is left out. -/
def Node.omitted (tag : Option String) : Node := .scalar "" .plain tag

/-- A YAML document. -/
structure Document where
  /-- The outermost node; a text without any content has none. -/
  root : Option Node
  /-- The nodes that have anchors, by number. -/
  anchors : List (Nat × Node)
deriving Repr

/-- What the readers of a document pass on. -/
structure Feed where
  tokens : List Token
  /-- The number of the anchor that a name refers to at this point, once for each name. -/
  names : List (String × Nat)
  anchors : List (Nat × Node)
  /-- What the tag handles stand for. -/
  handles : List (String × String)

namespace Feed

/-- The next token. -/
def head? (feed : Feed) : Option Token := feed.tokens.head?

/-- The feed without the next token. -/
def skip (feed : Feed) : Feed := { feed with tokens := feed.tokens.drop 1 }

/-- Whether the next token is one of these. -/
def meets (feed : Feed) (tokens : List Token) : Bool := feed.head?.any tokens.contains

/-- The number of the next anchor: how many names there are. An anchor under a name that is taken
thus gives its number up to the first one under a new name. -/
def nextAnchor (feed : Feed) : Nat := feed.names.length

/-- Let a name refer to the next anchor. -/
def declare (feed : Feed) (name : String) : Feed :=
  { feed with names := (name, feed.nextAnchor) :: feed.names.filter fun entry => entry.1 != name }

/-- The tag that a handle and a suffix stand for. -/
def resolveTag (feed : Feed) (handle suffix : String) : Option String :=
  if handle.isEmpty then some suffix else (feed.handles.lookup handle).map (· ++ suffix)

end Feed

/-- The handles every document has. -/
def standardHandles : List (String × String) := [("!", "!"), ("!!", "tag:yaml.org,2002:")]

/-- The anchor and the tag of a node. -/
structure Properties where
  anchor : Option Nat
  tag : Option String

namespace Properties

/-- The tag in front of a node, if there is one. -/
def takeTag (feed : Feed) : Option (Option String × Feed) :=
  match feed.head? with
  | some (.tag handle suffix) => do
    let tag ← feed.resolveTag handle suffix
    return (some tag, feed.skip)
  | _ => some (none, feed)

/-- The anchor in front of a node, if there is one. -/
def takeAnchor (feed : Feed) : Option Nat × Feed :=
  match feed.head? with
  | some (.anchor name) => (some feed.nextAnchor, feed.skip.declare name)
  | _ => (none, feed)

/-- The properties of a node, in either order. -/
def take (feed : Feed) : Option (Properties × Feed) := do
  match takeAnchor feed with
  | (some anchor, feed) =>
    let (tag, feed) ← takeTag feed
    return (⟨some anchor, tag⟩, feed)
  | (none, feed) =>
    let (tag, feed) ← takeTag feed
    match tag with
    | none => return (⟨none, none⟩, feed)
    | some tag =>
      let (anchor, feed) := takeAnchor feed
      return (⟨anchor, some tag⟩, feed)

/-- Whether a node has any. -/
def present (properties : Properties) : Bool :=
  properties.anchor.isSome || properties.tag.isSome

/-- Note down the node that has these properties. -/
def note (properties : Properties) (node : Node) (feed : Feed) : Node × Feed :=
  match properties.anchor with
  | none => (node, feed)
  | some anchor => (node, { feed with anchors := (anchor, node) :: feed.anchors })

end Properties

/-- Where a node may stand. -/
inductive Place where
  | block
  /-- In a block mapping, where a sequence need not be indented. -/
  | blockEntry
  | flow
deriving DecidableEq, Repr

mutual

/-- A node. -/
def takeNode (place : Place) (feed : Feed) : (fuel : Nat) → Option (Node × Feed)
  | 0 => none
  | fuel + 1 =>
    match feed.head? with
    | some (.alias name) => do
      let anchor ← feed.names.lookup name
      return (.alias anchor, feed.skip)
    | _ => do
      let (properties, feed) ← Properties.take feed
      let (node, feed) ← takeContent place properties feed fuel
      return properties.note node feed

/-- A node after its properties. -/
def takeContent (place : Place) (properties : Properties) (feed : Feed) :
    (fuel : Nat) → Option (Node × Feed)
  | 0 => none
  | fuel + 1 =>
    let tag := properties.tag
    match place, feed.head? with
    -- entries that are not indented further than the key they belong to
    | .blockEntry, some .entry => do
      let (elements, feed) ← takeOpenEntries feed fuel
      return (.sequence elements tag, feed)
    | _, some (.scalar text style) =>
      some (.scalar text style (if tag = some "!" then none else tag), feed.skip)
    | _, some .openSequence => do
      let (elements, feed) ← takeElements true feed.skip fuel
      return (.sequence elements tag, feed)
    | _, some .openMapping => do
      let (entries, feed) ← takeMembers true feed.skip fuel
      return (.mapping entries tag, feed)
    | .block, some .blockSequence | .blockEntry, some .blockSequence => do
      let (elements, feed) ← takeEntries feed.skip fuel
      return (.sequence elements tag, feed)
    | .block, some .blockMapping | .blockEntry, some .blockMapping => do
      let (entries, feed) ← takePairs feed.skip fuel
      return (.mapping entries tag, feed)
    | _, _ => if properties.present then some (.omitted tag, feed) else none

/-- A node, unless it is left out in front of one of the given tokens. -/
def takeUnless (stops : List Token) (place : Place) (feed : Feed) :
    (fuel : Nat) → Option (Node × Feed)
  | 0 => none
  | fuel + 1 =>
    if feed.meets stops then some (.omitted none, feed) else takeNode place feed fuel

/-- The entries of a block sequence. -/
def takeEntries (feed : Feed) : (fuel : Nat) → Option (List Node × Feed)
  | 0 => none
  | fuel + 1 =>
    match feed.head? with
    | some .entry => do
      let (node, feed) ← takeUnless [.entry, .blockEnd] .block feed.skip fuel
      let (nodes, feed) ← takeEntries feed fuel
      return (node :: nodes, feed)
    | some .blockEnd => some ([], feed.skip)
    | _ => none

/-- The entries of a sequence that is not indented and thus ends at any other token. -/
def takeOpenEntries (feed : Feed) : (fuel : Nat) → Option (List Node × Feed)
  | 0 => none
  | fuel + 1 =>
    match feed.head? with
    | some .entry => do
      let (node, feed) ← takeUnless [.entry, .key, .value, .blockEnd] .block feed.skip fuel
      let (nodes, feed) ← takeOpenEntries feed fuel
      return (node :: nodes, feed)
    | _ => some ([], feed)

/-- The entries of a block mapping. -/
def takePairs (feed : Feed) : (fuel : Nat) → Option (List (Node × Node) × Feed)
  | 0 => none
  | fuel + 1 =>
    match feed.head? with
    | some .key => do
      let stops := [Token.key, .value, .blockEnd]
      let (key, feed) ← takeUnless stops .blockEntry feed.skip fuel
      let (value, feed) ←
        if feed.head? = some .value then takeUnless stops .blockEntry feed.skip fuel
        else some (.omitted none, feed)
      let (pairs, feed) ← takePairs feed fuel
      return ((key, value) :: pairs, feed)
    | some .blockEnd => some ([], feed.skip)
    | _ => none

/-- The elements of a flow sequence; before all but the first there is a comma. -/
def takeElements (first : Bool) (feed : Feed) : (fuel : Nat) → Option (List Node × Feed)
  | 0 => none
  | fuel + 1 =>
    if feed.head? = some .closeSequence then some ([], feed.skip)
    else do
      let feed ← if first then some feed
        else if feed.head? = some .comma then some feed.skip else none
      if feed.head? = some .closeSequence then
        return ([], feed.skip)
      let (node, feed) ←
        if feed.head? = some .key then takeLonePair feed.skip fuel
        else takeNode .flow feed fuel
      let (nodes, feed) ← takeElements false feed fuel
      return (node :: nodes, feed)

/-- A key and its value that stand alone in a flow sequence. What follows a key that is left out is
passed over. -/
def takeLonePair (feed : Feed) : (fuel : Nat) → Option (Node × Feed)
  | 0 => none
  | fuel + 1 => do
    let (key, feed) ←
      if feed.meets [.value, .comma, .closeSequence] then some (Node.omitted none, feed.skip)
      else takeNode .flow feed fuel
    let (value, feed) ←
      if feed.head? = some .value then takeUnless [.comma, .closeSequence] .flow feed.skip fuel
      else some (.omitted none, feed)
    return (.mapping [(key, value)] none, feed)

/-- The entries of a flow mapping; before all but the first there is a comma. -/
def takeMembers (first : Bool) (feed : Feed) : (fuel : Nat) → Option (List (Node × Node) × Feed)
  | 0 => none
  | fuel + 1 =>
    if feed.head? = some .closeMapping then some ([], feed.skip)
    else do
      let feed ← if first then some feed
        else if feed.head? = some .comma then some feed.skip else none
      if feed.head? = some .closeMapping then
        return ([], feed.skip)
      let stops := [Token.value, .comma, .closeMapping]
      let (entry, feed) ←
        if feed.head? = some .key then do
          let (key, feed) ← takeUnless stops .flow feed.skip fuel
          let (value, feed) ←
            if feed.head? = some .value then
              takeUnless [.comma, .closeMapping] .flow feed.skip fuel
            else some (.omitted none, feed)
          some ((key, value), feed)
        else do
          let (key, feed) ← takeNode .flow feed fuel
          some ((key, .omitted none), feed)
      let (entries, feed) ← takeMembers false feed fuel
      return (entry :: entries, feed)

end

namespace Document

/-- The document without content. -/
def empty : Document := ⟨none, []⟩

/-- The directives in front of a document. A version is given at most once and has to be 1.1 or 1.2,
and no handle is declared twice. -/
def takeDirectives (versioned : Bool) (handles : List (String × String)) :
    List Token → Option (List (String × String) × List Token)
  | .version major minor :: rest =>
    if versioned || major != 1 || (minor != 1 && minor != 2) then none
    else takeDirectives true handles rest
  | .handle name expansion :: rest =>
    if (handles.lookup name).isSome then none
    else takeDirectives versioned ((name, expansion) :: handles) rest
  | tokens => some (handles, tokens)

/-- Whether a token stands between documents. -/
def separates : Token → Bool
  | .version .. | .handle .. | .documentStart | .documentEnd => true
  | _ => false

/-- A document whose handles are known, and the tokens after it. After an explicit start the content
may be left out. -/
def takeBody (explicit : Bool) (handles : List (String × String)) (tokens : List Token) :
    Option (Document × List Token) := do
  let feed : Feed := ⟨tokens, [], [], handles ++ standardHandles⟩
  let (node, feed) ←
    if explicit && (tokens.isEmpty || tokens.head?.any separates) then
      some (Node.omitted none, feed)
    else takeNode .block feed (4 * tokens.length + 4)
  return (⟨some node, feed.anchors⟩, feed.tokens)

/-- A document that begins with directives or with its start marker. -/
def takeExplicit (tokens : List Token) : Option (Document × List Token) := do
  let (handles, tokens) ← takeDirectives false [] tokens
  match tokens with
  | .documentStart :: rest => takeBody true handles rest
  | _ => none

/-- The documents after the first one. -/
def takeLater (tokens : List Token) : (fuel : Nat) → Option (List Document)
  | 0 => none
  | fuel + 1 =>
    match tokens.dropWhile (· == .documentEnd) with
    | [] => some []
    | tokens => do
      let (document, rest) ← takeExplicit tokens
      return document :: (← takeLater rest fuel)

/-- The documents of a YAML text; only the first one may do without a start marker. -/
def all? (text : String) : Option (List Document) := do
  let tokens ← tokens? text
  if tokens.isEmpty then
    return []
  let implicit := match tokens with
    | .version .. :: _ | .handle .. :: _ | .documentStart :: _ => false
    | _ => true
  let (document, rest) ← if implicit then takeBody false [] tokens else takeExplicit tokens
  return document :: (← takeLater rest (rest.length + 1))

/-- The only document of a YAML text. -/
def ofText? (text : String) : Option Document := do
  match ← all? text with
  | [] => return empty
  | [document] => return document
  | _ => none

end Document

end Fanout.Yaml
