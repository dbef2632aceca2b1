import Scaffold.Yaml.Node

/-!
# Copies in place

`Document.unfolded` is the root with every copy replaced by the node that it names. A copy may
stand inside of what it names, so collections are followed to a depth, and only so many copies
are made as the size of the text allows; beyond that stands a broken node.
-/

namespace Scaffold.Yaml

/-- How deep collections may be nested. -/
def maxDepth : Nat := 128

/-- How many copies may be made for each event of a text. -/
def copiesPerEvent : Nat := 100

/-- A step that may use up copies. -/
abbrev Unfold := StateM Nat

namespace Unfold

/-- The node that a copy names, if there are copies left. -/
def resolve (anchored : List (Nat × Node)) : Node → Unfold Node
  | .alias id => do
    let left ← get
    if left = 0 then return .broken .tooManyCopies
    set (left - 1)
    return ((anchored.find? (·.1 == id)).map (·.2)).getD (.broken .unknownAnchor)
  | n => return n

/-- A node without copies, with collections followed to a depth. -/
def node (anchored : List (Nat × Node)) : Nat → Node → Unfold Node
  | depth, n => do
    match ← resolve anchored n with
    | .sequence tag items =>
      match depth with
      | 0 => return .broken .tooDeep
      | depth + 1 => return .sequence tag (← items.mapM (node anchored depth))
    | .mapping tag entries =>
      match depth with
      | 0 => return .broken .tooDeep
      | depth + 1 =>
        let unfolded ← entries.mapM fun e => do
          return (← node anchored depth e.1, ← node anchored depth e.2)
        return .mapping tag unfolded
    | n => return n

end Unfold

/-- The root with copies in place. -/
def Document.unfolded (d : Document) : Node :=
  ((Unfold.node d.anchored maxDepth d.root).run (d.events * copiesPerEvent)).1

end Scaffold.Yaml
