import SchemaClasses.Document.Basic

/-! A document seen as a tree. Each node carries the number of its element. -/

namespace SchemaClasses

inductive Tree where
  | node (index : Nat) (element : Element) (children : List Tree)

namespace Tree

def index : Tree → Nat
  | node index _ _ => index

def element : Tree → Element
  | node _ element _ => element

def children : Tree → List Tree
  | node _ _ children => children

def name (tree : Tree) : String :=
  tree.element.name

def attribute? (tree : Tree) (name : String) : Option String :=
  tree.element.attributes.get? name

def text (tree : Tree) : Option String :=
  tree.element.text

def child? (tree : Tree) (name : String) : Option Tree :=
  tree.children.find? (·.name == name)

def childrenNamed (tree : Tree) (name : String) : List Tree :=
  tree.children.filter (·.name == name)

/-- What an element states: its `value` attribute, else its text. -/
def value? (tree : Tree) : Option String :=
  tree.attribute? "value" <|> tree.text

def childText? (tree : Tree) (name : String) : Option String :=
  tree.child? name >>= value?

def childTexts (tree : Tree) (name : String) : List String :=
  (tree.childrenNamed name).filterMap value?

theorem sizeOf_lt_of_mem_children {tree child : Tree} (member : child ∈ tree.children) :
    sizeOf child < sizeOf tree := by
  cases tree with
  | node index element children =>
    have := List.sizeOf_lt_of_mem (show child ∈ children from member)
    simp only [node.sizeOf_spec]
    omega

mutual

/-- The elements of a tree with their depth, parents before children. -/
def listFrom (depth : Nat) : Tree → List (Nat × Tree)
  | node index element children =>
    (depth, node index element children) :: listAllFrom (depth + 1) children

def listAllFrom (depth : Nat) : List Tree → List (Nat × Tree)
  | [] => []
  | tree :: rest => listFrom depth tree ++ listAllFrom depth rest

end

end Tree

namespace Document

/-- The trees of the last `count` elements, that of the last element first. A child always stands
behind its parent, so its tree is there when the parent's is made. -/
def treesBackward (document : Document) : Nat → Array Tree
  | 0 => #[]
  | count + 1 =>
    let later := document.treesBackward count
    let index := document.size - (count + 1)
    let element := document.elements.getD index default
    later.push (.node index element
      (element.children.toList.filterMap fun child => later[document.size - 1 - child]?))

def treeAt? (document : Document) (index : Nat) : Option Tree :=
  if index < document.size then
    (document.treesBackward document.size)[document.size - 1 - index]?
  else none

def tree? (document : Document) : Option Tree :=
  document.root >>= document.treeAt?

end Document
end SchemaClasses
