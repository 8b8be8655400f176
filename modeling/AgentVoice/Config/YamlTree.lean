import AgentVoice.Config.YamlEvents

/-!
# YAML trees

A document as the tree that libyaml's events describe: scalars, aliases, sequences, and mappings
whose keys are scalars. `YamlNode.events` is the part of the stream that stands for a tree, and
`YamlNode.stream` the stream of a document with that root.
-/

namespace AgentVoice.Config

/-- A scalar, in a style that the parser delivers. -/
structure YamlScalar where
  value : List UInt8
  style : YamlScalarStyle
  anchor : Option (List UInt8)
  tag : Option (List UInt8)
  deriving DecidableEq

/-- A node of a document. -/
inductive YamlNode where
  | scalar (s : YamlScalar)
  | alias (anchor : List UInt8)
  | sequence (head : RawCollection) (items : List YamlNode)
  | mapping (head : RawCollection) (entries : List (YamlScalar × YamlNode))

/-! ### The events of a tree -/

/-- The style of a scalar, as libyaml has it. -/
def YamlScalarStyle.raw : YamlScalarStyle → RawScalarStyle
  | .plain => .plain
  | .singleQuoted => .singleQuoted
  | .doubleQuoted => .doubleQuoted
  | .literal => .literal
  | .folded => .folded

/-- The event of a scalar. -/
def YamlScalar.event (s : YamlScalar) : RawEvent := .scalar ⟨s.value, s.style.raw, s.anchor, s.tag⟩

mutual

/-- The events of a node, in the order of the document. -/
def YamlNode.events : YamlNode → List RawEvent
  | .scalar s => [s.event]
  | .alias anchor => [.alias anchor]
  | .sequence head items => .sequenceStart head :: (itemsEvents items ++ [.sequenceEnd])
  | .mapping head entries => .mappingStart head :: (entriesEvents entries ++ [.mappingEnd])

def itemsEvents : List YamlNode → List RawEvent
  | [] => []
  | item :: items => item.events ++ itemsEvents items

def entriesEvents : List (YamlScalar × YamlNode) → List RawEvent
  | [] => []
  | (key, value) :: entries => key.event :: (value.events ++ entriesEvents entries)

end

/-- The event stream of the document with this root. -/
def YamlNode.stream (root : YamlNode) : List RawEvent :=
  .streamStart :: .documentStart :: (root.events ++ [.documentEnd, .streamEnd])

/-! ### The nodes of a tree -/

mutual

/-- All nodes of a tree: the node itself, and what lies below it, the keys included. -/
def YamlNode.nodes : YamlNode → List YamlNode
  | .scalar s => [.scalar s]
  | .alias anchor => [.alias anchor]
  | .sequence head items => .sequence head items :: itemsNodes items
  | .mapping head entries => .mapping head entries :: entriesNodes entries

def itemsNodes : List YamlNode → List YamlNode
  | [] => []
  | item :: items => item.nodes ++ itemsNodes items

def entriesNodes : List (YamlScalar × YamlNode) → List YamlNode
  | [] => []
  | (key, value) :: entries => .scalar key :: (value.nodes ++ entriesNodes entries)

end

namespace YamlNode

def isScalar : YamlNode → Bool
  | .scalar _ => true
  | _ => false

def isAlias : YamlNode → Bool
  | .alias _ => true
  | _ => false

def tag : YamlNode → Option (List UInt8)
  | .scalar s => s.tag
  | .alias _ => none
  | .sequence head _ => head.tag
  | .mapping head _ => head.tag

/-- The node is a mapping with an entry of this key and value. -/
def HasEntry (node : YamlNode) (key : YamlScalar) (value : YamlNode) : Prop :=
  ∃ head entries, node = .mapping head entries ∧ (key, value) ∈ entries

@[simp] theorem hasEntry_mapping {head : RawCollection} {entries : List (YamlScalar × YamlNode)}
    {key : YamlScalar} {value : YamlNode} :
    (YamlNode.mapping head entries).HasEntry key value ↔ (key, value) ∈ entries := by
  constructor
  · rintro ⟨head', entries', hnode, hmem⟩
    cases hnode
    exact hmem
  · intro hmem
    exact ⟨head, entries, rfl, hmem⟩

end YamlNode

end AgentVoice.Config
