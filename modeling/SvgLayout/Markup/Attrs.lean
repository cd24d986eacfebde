/-!
# Attribute lists

The attributes of a tag, in the order in which their keys were first set. Setting a key again
replaces its value in place.

## Main definitions

* `Attrs` with `set`, `get?`, `merge`.
-/

namespace SvgLayout

/-- An ordered list of attributes. -/
@[ext]
structure Attrs where
  entries : List (String × String)
  deriving DecidableEq, Repr

namespace Attrs

def empty : Attrs :=
  ⟨[]⟩

/-- A list of pairs with the value of a key replaced, or with the pair added at its end. -/
def setEntry (key value : String) : List (String × String) → List (String × String)
  | [] => [(key, value)]
  | (k, v) :: rest => if k = key then (k, value) :: rest else (k, v) :: setEntry key value rest

/-- The attributes with `key` set to `value`. -/
def set (attrs : Attrs) (key value : String) : Attrs :=
  ⟨setEntry key value attrs.entries⟩

/-- Pairs set one after another. -/
def setAll (attrs : Attrs) (pairs : List (String × String)) : Attrs :=
  pairs.foldl (fun acc pair => acc.set pair.1 pair.2) attrs

/-- Attributes made by setting pairs one after another. -/
def ofList (pairs : List (String × String)) : Attrs :=
  empty.setAll pairs

def get? (attrs : Attrs) (key : String) : Option String :=
  attrs.entries.lookup key

/-- The attributes with all of `other` set after them, so that `other` wins. -/
def merge (attrs other : Attrs) : Attrs :=
  attrs.setAll other.entries

def isEmpty (attrs : Attrs) : Bool :=
  attrs.entries.isEmpty

@[simp] theorem entries_empty : empty.entries = [] := rfl

@[simp] theorem get?_empty (key : String) : empty.get? key = none := rfl

@[simp] theorem setAll_nil (attrs : Attrs) : attrs.setAll [] = attrs := rfl

@[simp] theorem setAll_cons (attrs : Attrs) (pair : String × String)
    (pairs : List (String × String)) :
    attrs.setAll (pair :: pairs) = (attrs.set pair.1 pair.2).setAll pairs := rfl

end Attrs

end SvgLayout
