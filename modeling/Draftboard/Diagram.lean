import Draftboard.Shape.Basic

/-!
# Draftboard.Diagram

The shapes of a drawing in the order in which they were committed. It is the order in which
they are drawn, and the last shape is the first one to be taken back.
-/

namespace Draftboard

/-- The committed shapes, from the bottom to the top. -/
structure Diagram (α : Type) where
  shapes : List (Shape α)

namespace Diagram

variable {α : Type}

instance : Inhabited (Diagram α) := ⟨⟨[]⟩⟩

def size (d : Diagram α) : Nat := d.shapes.length

def last? (d : Diagram α) : Option (Shape α) := d.shapes.getLast?

/-- Puts a shape on top. -/
def push (d : Diagram α) (s : Shape α) : Diagram α := ⟨d.shapes ++ [s]⟩

/-- Puts shapes on top, in order. -/
def append (d : Diagram α) (shapes : List (Shape α)) : Diagram α := ⟨d.shapes ++ shapes⟩

/-- The top shape, and the diagram without it. -/
def pop (d : Diagram α) : Option (Shape α) × Diagram α := (d.shapes.getLast?, ⟨d.shapes.dropLast⟩)

/-- Changes every shape in place. -/
def map (f : Shape α → Shape α) (d : Diagram α) : Diagram α := ⟨d.shapes.map f⟩

@[simp] theorem shapes_push (d : Diagram α) (s : Shape α) : (d.push s).shapes = d.shapes ++ [s] := rfl

@[simp] theorem shapes_append (d : Diagram α) (shapes : List (Shape α)) :
    (d.append shapes).shapes = d.shapes ++ shapes := rfl

/-- Taking the top shape off undoes putting it on. -/
theorem pop_push (d : Diagram α) (s : Shape α) : (d.push s).pop = (some s, d) := by
  simp [pop, push]

end Diagram

end Draftboard
