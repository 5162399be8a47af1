import DeclarationBundle.Syntax.Node

/-!
# Places in a tree

A cursor is a node together with the way up to the root: each node above it and the siblings before
it there. From a cursor one can walk backwards through the tokens of the source.

* `Cursor.previousTokens` lists the texts of the tokens before a node, nearest first. Comments and
  missing tokens do not count.
* `Cursor.strings` lists the string nodes at or below a node in document order. A string node inside
  another is not listed.

Neither follows the tree by its branches. To look back is to climb until there is a sibling before,
and to go down to its last leaf; the string nodes are found with a stack of the places yet to be
visited. Either ends because of the nodes that are left (`Node.sizeAll`): those behind the place, or
those at and below the places on the stack.
-/

namespace DeclarationBundle.Syntax

/-- One step up: the node there and the siblings before the place, nearest first. -/
structure Frame where
  parent : Node
  before : List Node

/-- A node and the way up from it. -/
structure Cursor where
  node : Node
  above : List Frame

/-- The nodes before a place: the siblings at each level from the place up, nearest first. -/
abbrev Behind := List (List Node)

namespace Cursor

/-- The root of a tree. -/
def root (tree : Node) : Cursor :=
  ⟨tree, []⟩

/-- The node that holds this one. -/
def parent? (c : Cursor) : Option Node :=
  c.above.head?.map (·.parent)

/-- The nodes before this one. -/
def behind (c : Cursor) : Behind :=
  c.above.map (·.before)

end Cursor

mutual

/-- The number of nodes at or below a node. -/
def Node.size : Node → Nat
  | ⟨_, _, _, _, _, children⟩ => Node.sizeAll children + 1

/-- The number of nodes at or below some nodes. -/
def Node.sizeAll : List Node → Nat
  | [] => 0
  | node :: nodes => node.size + Node.sizeAll nodes

end

namespace Node

theorem size_eq (node : Node) : node.size = sizeAll node.children + 1 := by
  cases node
  rfl

theorem sizeAll_append (nodes more : List Node) :
    sizeAll (nodes ++ more) = sizeAll nodes + sizeAll more := by
  induction nodes with
  | nil => rw [List.nil_append, sizeAll, Nat.zero_add]
  | cons node nodes ih => rw [List.cons_append, sizeAll, sizeAll, ih, Nat.add_assoc]

theorem sizeAll_reverse (nodes : List Node) : sizeAll nodes.reverse = sizeAll nodes := by
  induction nodes with
  | nil => rfl
  | cons node nodes ih =>
    rw [List.reverse_cons, sizeAll_append, ih, sizeAll, sizeAll, sizeAll]
    omega

end Node

/-! ### Looking back -/

/-- A token that counts when looking back. -/
def countsAsToken (node : Node) : Bool :=
  !node.isComment && !node.isMissing

/-- The sibling before a place with the given way up, or else before the nearest node above it that
has one. -/
def siblingBefore? : List Frame → Option Cursor
  | [] => none
  | ⟨_, []⟩ :: above => siblingBefore? above
  | ⟨parent, sibling :: before⟩ :: above => some ⟨sibling, ⟨parent, before⟩ :: above⟩

namespace Cursor

/-- The number of nodes before a place, ancestors aside. -/
def sizeBehind (c : Cursor) : Nat :=
  Node.sizeAll c.behind.flatten

/-- The last of the children. -/
def lastChild? (c : Cursor) : Option Cursor :=
  match c.node.children.reverse with
  | [] => none
  | child :: before => some ⟨child, ⟨c.node, before⟩ :: c.above⟩

theorem size_of_siblingBefore? {c sibling : Cursor} (h : siblingBefore? c.above = some sibling) :
    sibling.sizeBehind + sibling.node.size = c.sizeBehind := by
  unfold sizeBehind behind
  generalize c.above = above at h
  fun_induction siblingBefore? above with
  | case1 => cases h
  | case2 parent above ih => exact ih h
  | case3 parent sibling before above =>
    cases h
    simp only [List.map_cons, List.flatten_cons, Node.sizeAll_append, Node.sizeAll]
    omega

theorem size_of_lastChild? {c child : Cursor} (h : c.lastChild? = some child) :
    child.sizeBehind + child.node.size + 1 = c.sizeBehind + c.node.size := by
  have h_size := Node.size_eq c.node
  rw [← Node.sizeAll_reverse] at h_size
  unfold lastChild? at h
  split at h
  · cases h
  · next first before h_children =>
    cases h
    rw [h_children, Node.sizeAll] at h_size
    simp only [sizeBehind, behind, List.map_cons, List.flatten_cons, Node.sizeAll_append]
    omega

/-- The last leaf at or below a place. -/
def lastLeaf (c : Cursor) : Cursor :=
  match _h : c.lastChild? with
  | none => c
  | some child => child.lastLeaf
termination_by c.sizeBehind + c.node.size
decreasing_by
  have h_child := size_of_lastChild? _h
  omega

theorem sizeBehind_lastLeaf_lt (c : Cursor) :
    c.lastLeaf.sizeBehind < c.sizeBehind + c.node.size := by
  fun_induction lastLeaf c with
  | case1 c h =>
    have h_size := Node.size_eq c.node
    omega
  | case2 c child h ih =>
    have h_child := size_of_lastChild? h
    omega

/-- The token before a place: the last leaf of what stands before it. If that does not count, the
search goes on from there. -/
def previousToken? (c : Cursor) : Option Cursor :=
  match _h : siblingBefore? c.above with
  | none => none
  | some sibling =>
    if countsAsToken sibling.lastLeaf.node then some sibling.lastLeaf
    else sibling.lastLeaf.previousToken?
termination_by c.sizeBehind
decreasing_by
  have h_sibling := size_of_siblingBefore? _h
  have h_leaf := sizeBehind_lastLeaf_lt sibling
  omega

/-- The texts of at most `count` tokens before a node, nearest first. -/
def previousTokens (source : Bytes) (c : Cursor) : Nat → List Bytes
  | 0 => []
  | count + 1 =>
    match c.previousToken? with
    | none => []
    | some token => token.node.text source :: token.previousTokens source count

end Cursor

/-! ### String nodes -/

/-- Some children of a node, each with its way up, those before them being given nearest first. -/
def childrenFrom (parent : Node) (above : List Frame) : List Node → List Node → List Cursor
  | _, [] => []
  | before, node :: nodes =>
    ⟨node, ⟨parent, before⟩ :: above⟩ :: childrenFrom parent above (node :: before) nodes

/-- The children of a node, each with its way up. -/
def Cursor.children (c : Cursor) : List Cursor :=
  childrenFrom c.node c.above [] c.node.children

theorem map_node_childrenFrom (parent : Node) (above : List Frame) (before nodes : List Node) :
    (childrenFrom parent above before nodes).map (·.node) = nodes := by
  induction nodes generalizing before with
  | nil => rfl
  | cons node nodes ih => rw [childrenFrom, List.map_cons, ih]

/-- The children of a node have the nodes that are below it. -/
theorem Cursor.sizeAll_children (c : Cursor) :
    Node.sizeAll (c.children.map (·.node)) + 1 = c.node.size := by
  rw [Node.size_eq, Cursor.children, map_node_childrenFrom]

/-- Puts places on a stack, one after the other. The top of the stack is its head. -/
def pushAll (stack places : List Cursor) : List Cursor :=
  places.foldl (fun stack place => place :: stack) stack

/-- What is pushed last comes first. -/
theorem pushAll_reverse (stack places : List Cursor) :
    pushAll stack places.reverse = places ++ stack := by
  simp [pushAll]

/-- The string nodes at or below the places on a stack. What is below a string node is not looked
at; of any other node the children are pushed, the last one first. -/
def stringsOn : List Cursor → List Cursor
  | [] => []
  | c :: stack =>
    if c.node.isString then c :: stringsOn stack
    else stringsOn (pushAll stack c.children.reverse)
termination_by stack => Node.sizeAll (stack.map (·.node))
decreasing_by
  all_goals
    have h_children := c.sizeAll_children
    simp only [pushAll_reverse, List.map_append, List.map_cons, Node.sizeAll_append, Node.sizeAll]
    omega

/-- The outermost string nodes at or below a node, in document order. -/
def Cursor.strings (c : Cursor) : List Cursor :=
  stringsOn [c]

end DeclarationBundle.Syntax
