import SvgLayout.Markup.Basic

/-!
# Registries

What the nodes of one document share: a supply of identifiers that are never given out twice, and
the definitions that are drawn by reference.

## Main definitions

* `Registry` with `allocate` and `define`.
* `reference` — how an attribute refers to a definition.
-/

namespace SvgLayout

/-- The shared state of one document: the number of the next identifier, and the definitions in the
order in which they were made. -/
@[ext]
structure Registry where
  nextId : Nat
  defs : List Markup

namespace Registry

/-- Nothing is given out and nothing is defined. -/
def empty : Registry :=
  ⟨0, []⟩

/-- A new identifier that starts with `stem`. -/
def allocate (registry : Registry) (stem : String) : String × Registry :=
  (stem ++ "-" ++ toString registry.nextId, { registry with nextId := registry.nextId + 1 })

def define (registry : Registry) (definition : Markup) : Registry :=
  { registry with defs := registry.defs ++ [definition] }

@[simp] theorem nextId_allocate (registry : Registry) (stem : String) :
    (registry.allocate stem).2.nextId = registry.nextId + 1 := rfl

@[simp] theorem defs_allocate (registry : Registry) (stem : String) :
    (registry.allocate stem).2.defs = registry.defs := rfl

@[simp] theorem nextId_define (registry : Registry) (definition : Markup) :
    (registry.define definition).nextId = registry.nextId := rfl

@[simp] theorem defs_define (registry : Registry) (definition : Markup) :
    (registry.define definition).defs = registry.defs ++ [definition] := rfl

end Registry

/-- How an attribute refers to the definition of an identifier. -/
def reference (id : String) : String :=
  "url(#" ++ id ++ ")"

end SvgLayout
