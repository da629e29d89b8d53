import InteropGraph.Yaml.Token

/-!
# YAML documents

A document is a tree of maps, lists and scalars. `Node.parse?` reads a text that holds one document:
its tokens drive a machine whose stack holds the maps and lists that are still open.
-/

namespace InteropGraph.Yaml

/-- A value in a document. A plain scalar is not quoted; what it stands for depends on its form. -/
inductive Node where
  | scalar (text : String) (plain : Bool)
  | list (items : List Node)
  | map (entries : List (Node × Node))
deriving Inhabited

namespace Node

/-- What stands where nothing is written. -/
def empty : Node := .scalar "" true

/-- The text of a scalar, whatever its form. -/
def text? : Node → Option String
  | .scalar s _ => some s
  | _ => none

/-- Whether a node is a plain scalar without text. -/
def isEmpty : Node → Bool
  | .scalar "" true => true
  | _ => false

end Node

/-- How the items of a list are marked off. -/
inductive ListStyle where
  /-- By dashes, deeper than what is around the list. -/
  | block
  /-- By dashes, in the column of the key that the list belongs to. -/
  | loose
  /-- By commas between brackets. -/
  | flow
deriving DecidableEq, Repr

/-- A part of a document that is still open, with its parts so far in reverse. -/
inductive Frame where
  | items (style : ListStyle) (done : List Node)
  | entries (flow : Bool) (done : List (Node × Node))
  /-- A map after a further key. -/
  | keyed (flow : Bool) (done : List (Node × Node)) (key : Node)
  /-- A map between brackets, where a key without a value is read. -/
  | bare (done : List (Node × Node))
  /-- An item of a list between brackets that is a single entry. -/
  | pair
  | pairKeyed (key : Node)

/-- What may come next. -/
inductive Phase where
  | start
  /-- After the mark for the start of a document. -/
  | root
  /-- A part between brackets, or the end of what they enclose. -/
  | part
  /-- A node, unless it is empty. -/
  | node
  /-- What follows a part of the innermost frame. -/
  | next
  | done (root : Node)

/-- The collections that are open, and what is expected in the innermost one. -/
abbrev Reading := List Frame × Phase

/-- Completes a node. -/
def complete? (n : Node) : List Frame → Option Reading
  | [] => some ([], .done n)
  | .items style done :: s => some (.items style (n :: done) :: s, .next)
  | .entries flow done :: s => some (.keyed flow done n :: s, .next)
  | .keyed flow done k :: s => some (.entries flow ((k, n) :: done) :: s, .next)
  | .bare done :: s => some (.entries true ((n, .empty) :: done) :: s, .next)
  | .pair :: s => some (.pairKeyed n :: s, .next)
  | .pairKeyed k :: .items style done :: s =>
    some (.items style (.map [(k, n)] :: done) :: s, .next)
  | .pairKeyed _ :: _ => none

/-- Whether blocks may begin inside the innermost frame. -/
def allowsBlock : List Frame → Bool
  | .items .flow _ :: _ | .entries true _ :: _ | .keyed true _ _ :: _ | .bare _ :: _ | .pair :: _
  | .pairKeyed _ :: _ => false
  | _ => true

/-- A token that begins a node. -/
def begin? (stack : List Frame) : Token → Option Reading
  | .scalar s plain => complete? (.scalar s plain) stack
  | .openList => some (.items .flow [] :: stack, .part)
  | .openMap => some (.entries true [] :: stack, .part)
  | .listStart => if allowsBlock stack then some (.items .block [] :: stack, .next) else none
  | .mapStart => if allowsBlock stack then some (.entries false [] :: stack, .next) else none
  | .entry =>
    match stack with
    | .keyed false _ _ :: _ => some (.items .loose [] :: stack, .node)
    | _ => none
  | _ => none

/-- A token after an entry of a block map. -/
def afterEntry? (done : List (Node × Node)) (stack : List Frame) : Token → Option Reading
  | .key => some (.entries false done :: stack, .node)
  | .blockEnd => complete? (.map done.reverse) stack
  | _ => none

/-- A token after a part of the innermost frame. A list in the column of its key ends where no dash
follows. -/
def next? : List Frame → Token → Option Reading
  | .items .block done :: s, .entry => some (.items .block done :: s, .node)
  | .items .block done :: s, .blockEnd => complete? (.list done.reverse) s
  | .items .loose done :: s, .entry => some (.items .loose done :: s, .node)
  | .items .loose done :: .keyed false entries k :: s, t =>
    afterEntry? ((k, .list done.reverse) :: entries) s t
  | .items .flow done :: s, .comma => some (.items .flow done :: s, .part)
  | .items .flow done :: s, .closeList => complete? (.list done.reverse) s
  | .entries false done :: s, t => afterEntry? done s t
  | .entries true done :: s, .comma => some (.entries true done :: s, .part)
  | .entries true done :: s, .closeMap => complete? (.map done.reverse) s
  | .keyed flow done k :: s, .value => some (.keyed flow done k :: s, .node)
  | .pairKeyed k :: s, .value => some (.pairKeyed k :: s, .node)
  | _, _ => none

/-- A token where a part between brackets may begin. -/
def part? : List Frame → Token → Option Reading
  | .items _ done :: s, .closeList => complete? (.list done.reverse) s
  | .items style done :: s, .key => some (.pair :: .items style done :: s, .node)
  | .entries _ done :: s, .closeMap => complete? (.map done.reverse) s
  | .entries flow done :: s, .key => some (.entries flow done :: s, .node)
  | .entries _ done :: s, t => begin? (.bare done :: s) t
  | s, t => begin? s t

/-- Whether the token shows that the node before it is empty. -/
def endsEmpty : List Frame → Token → Bool
  | .items .flow _ :: _, _ => false
  | .items _ _ :: _, .entry | .items _ _ :: _, .blockEnd => true
  | .items .loose _ :: _, .key => true
  | .keyed false _ _ :: _, .key | .keyed false _ _ :: _, .blockEnd => true
  | .keyed true _ _ :: _, .comma | .keyed true _ _ :: _, .closeMap => true
  | .pairKeyed _ :: _, .comma | .pairKeyed _ :: _, .closeList => true
  | _, _ => false

/-- Reads a token. -/
def read? (r : Reading) (t : Token) : Option Reading :=
  let (stack, phase) := r
  match phase with
  | .start => if t = .documentStart then some ([], .root) else begin? [] t
  | .root => if t = .documentEnd then some ([], .done .empty) else begin? [] t
  | .part => part? stack t
  | .node =>
    if endsEmpty stack t then (complete? .empty stack).bind fun r => next? r.1 t
    else begin? stack t
  | .next => next? stack t
  | .done n => if t = .documentEnd then some ([], .done n) else none

/-- The document, when the tokens end. -/
def document? : Reading → Option Node
  | (_, .root) => some .empty
  | (_, .done n) => some n
  | _ => none

/-- Reads a text that holds one document. -/
def Node.parse? (s : String) : Option Node := do
  let tokens ← tokens? s.toList
  let reading ← tokens.foldlM read? ([], Phase.start)
  document? reading

end InteropGraph.Yaml
