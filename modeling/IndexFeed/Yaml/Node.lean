import IndexFeed.Yaml.Tag

/-!
# Nodes

What a document is made of: texts, sequences and mappings of nodes, and aliases of nodes that bear
a mark. Marks are numbers that stand for the names of anchors.
-/

namespace IndexFeed.Yaml

structure Properties where
  mark : Option Nat := none
  tag : Option Tag := none
  deriving DecidableEq, Repr

inductive Node where
  | alias (mark : Nat)
  | scalar (p : Properties) (plain : Bool) (text : String)
  | sequence (p : Properties) (items : List Node)
  | mapping (p : Properties) (entries : List (Node × Node))
  deriving Repr

namespace Node

/-- A node of which nothing is written. -/
def empty (p : Properties) : Node := .scalar p true ""

def properties : Node → Properties
  | .alias _ => {}
  | .scalar p .. => p
  | .sequence p _ => p
  | .mapping p _ => p

mutual

/-- The number of steps that a node takes: one for a scalar or an alias, one for the beginning and
one for the end of anything else. -/
def size : Node → Nat
  | .alias _ => 1
  | .scalar .. => 1
  | .sequence _ items => sizeOfItems items + 2
  | .mapping _ entries => sizeOfEntries entries + 2

def sizeOfItems : List Node → Nat
  | [] => 0
  | n :: rest => n.size + sizeOfItems rest

def sizeOfEntries : List (Node × Node) → Nat
  | [] => 0
  | (k, v) :: rest => k.size + v.size + sizeOfEntries rest

end

/-- A node itself under its mark, if it bears one. -/
def marked (n : Node) : List (Nat × Node) :=
  match n.properties.mark with
  | some m => [(m, n)]
  | none => []

mutual

/-- The nodes that bear a mark, in the order in which they begin. -/
def allMarked : Node → List (Nat × Node)
  | .alias _ => []
  | .scalar p plain text => (Node.scalar p plain text).marked
  | .sequence p items => (Node.sequence p items).marked ++ allMarkedItems items
  | .mapping p entries => (Node.mapping p entries).marked ++ allMarkedEntries entries

def allMarkedItems : List Node → List (Nat × Node)
  | [] => []
  | n :: rest => n.allMarked ++ allMarkedItems rest

def allMarkedEntries : List (Node × Node) → List (Nat × Node)
  | [] => []
  | (k, v) :: rest => k.allMarked ++ v.allMarked ++ allMarkedEntries rest

end

/-- The nodes that bear a mark, to look one up in: where several bear the same, the last of them
comes first. -/
def targets (root : Node) : List (Nat × Node) := root.allMarked.reverse

end Node

end IndexFeed.Yaml
