import Mathlib.Data.List.Basic

/-!
# Property trees

A tree of values, in which the children of a node have names that need not be distinct.
-/

namespace Reasoning

inductive PropertyTree (ν δ : Type) where
  | node (data : δ) (children : List (ν × PropertyTree ν δ))

namespace PropertyTree

variable {ν δ : Type}

def data : PropertyTree ν δ → δ
  | node data _ => data

def children : PropertyTree ν δ → List (ν × PropertyTree ν δ)
  | node _ children => children

/-- Behind the children that are there, whatever their names. -/
def addChild (tree : PropertyTree ν δ) (name : ν) (child : PropertyTree ν δ) : PropertyTree ν δ :=
  node tree.data (tree.children ++ [(name, child)])

def add (tree : PropertyTree ν δ) (name : ν) (value : δ) : PropertyTree ν δ :=
  tree.addChild name (node value [])

def append (tree : PropertyTree ν δ) (children : List (ν × PropertyTree ν δ)) :
    PropertyTree ν δ :=
  node tree.data (tree.children ++ children)

@[simp] theorem children_node (data : δ) (children : List (ν × PropertyTree ν δ)) :
    (node data children).children = children := rfl

@[simp] theorem children_addChild (tree : PropertyTree ν δ) (name : ν)
    (child : PropertyTree ν δ) :
    (tree.addChild name child).children = tree.children ++ [(name, child)] := rfl

@[simp] theorem children_append (tree : PropertyTree ν δ)
    (children : List (ν × PropertyTree ν δ)) :
    (tree.append children).children = tree.children ++ children := rfl

/-- Adding a child for each element of a list. -/
theorem children_foldl_addChild {α : Type} (name : ν) (f : α → PropertyTree ν δ)
    (tree : PropertyTree ν δ) (list : List α) :
    (list.foldl (fun tree a => tree.addChild name (f a)) tree).children =
      tree.children ++ list.map fun a => (name, f a) := by
  induction list generalizing tree with
  | nil => simp
  | cons a list ih =>
    rw [List.foldl_cons, ih, children_addChild, List.append_assoc]
    rfl

variable [DecidableEq ν]

/-- The value of the first child of a name. -/
def getOptional (tree : PropertyTree ν δ) (name : ν) : Option δ :=
  (tree.children.find? fun child => child.1 = name).map fun child => child.2.data

def get (tree : PropertyTree ν δ) (name : ν) (defaultValue : δ) : δ :=
  (tree.getOptional name).getD defaultValue

@[simp] theorem getOptional_leaf (data : δ) (name : ν) :
    (node data []).getOptional name = none := rfl

/-- Only children that stand in front are found before. -/
theorem getOptional_append (tree : PropertyTree ν δ) (children : List (ν × PropertyTree ν δ))
    (name : ν) :
    (tree.append children).getOptional name =
      (tree.getOptional name).or ((node tree.data children).getOptional name) := by
  unfold getOptional
  rw [children_append, List.find?_append, Option.map_or, children_node]

theorem getOptional_add (tree : PropertyTree ν δ) (name : ν) (value : δ) (name' : ν) :
    (tree.add name value).getOptional name' =
      (tree.getOptional name').or (if name = name' then some value else none) := by
  unfold getOptional add
  rw [children_addChild, List.find?_append, Option.map_or]
  congr 1
  by_cases h : name = name'
  · simp [h, data]
  · simp [h]

end PropertyTree

end Reasoning
