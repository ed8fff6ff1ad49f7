import LayeredScope.World

/-!
# Named fields of a stack

Three kinds of field share one space of names: the level, the fields that were set, and the
number of layers, which a field of the same name hides.

* `Stack.readField`, `World.writeField`, `Stack.clearField` — `get_field`, `set_field` and
  `delete_field`, each by the kind of the name. A failing operation changes nothing, since it
  answers no stack.
-/

namespace LayeredScope

variable {κ σ : Type}

namespace Stack

/-- Read a field. -/
def readField (s : Stack κ) (name : String) : Except Failure Value :=
  if name = levelName then .ok (.int s.level)
  else
    match s.fields.get? name with
    | some value => .ok value
    | none =>
      if name = depthName then .ok (.int (Int64.ofNat (min s.depth (Nat.pow 2 63 - 1))))
      else .error (.attributeNotFound "NamespaceStack" name)

/-- Set a field that is not the level. -/
def bindField (s : Stack κ) (name : String) (value : Value) : Stack κ :=
  { s with fields := s.fields.insert name value }

/-- Unset a field. The level cannot be unset. -/
def clearField (s : Stack κ) (name : String) : Except Failure (Stack κ) :=
  if name = levelName then .error (.unsupportedOperation "deleting the level field")
  else if s.fields.contains name then .ok { s with fields := s.fields.erase name }
  else .error (.attributeNotFound "NamespaceStack" name)

end Stack

/-- Set a field. The level takes whole numbers and truth values only. -/
def World.writeField (w : World κ σ) (s : Stack κ) (name : String) (value : Value) :
    Except Failure (Stack κ) :=
  if name = levelName then
    match value.toInt? with
    | some level => .ok { s with level := level }
    | none => .error (.typeMismatch "int" (w.typeName value))
  else .ok (s.bindField name value)

end LayeredScope
