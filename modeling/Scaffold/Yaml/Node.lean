import Scaffold.Yaml.Fault
import Scaffold.Yaml.Token

/-!
# Nodes of YAML

A document is a tree of nodes. Where the text turns out to be malformed the tree ends in a
broken node, so that a reader that meets another mistake before it stops there.
-/

namespace Scaffold.Yaml

/-- A node of a document. -/
inductive Node where
  | scalar (tag : Option String) (style : Style) (value : String)
  | sequence (tag : Option String) (items : List Node)
  | mapping (tag : Option String) (entries : List (Node × Node))
  /-- A copy of the node with a number. -/
  | alias (id : Nat)
  /-- A text without any document. -/
  | void
  | broken (fault : Fault)
deriving Inhabited

/-- What a text holds. -/
structure Document where
  root : Node
  /-- The nodes that have copies, by number. -/
  anchored : List (Nat × Node)
  /-- The number of scalars, copies, and starts and ends of collections. -/
  events : Nat
  /-- What is wrong after the root. -/
  rest : Option Fault

end Scaffold.Yaml
