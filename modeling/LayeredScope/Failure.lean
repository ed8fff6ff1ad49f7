/-!
# Failures

* `Failure` — the causes for which resolving a name or rendering a template stops: a
  `NamespaceError`.
* `Failure.message` — the one wording of each cause.
* `Failure.isMissOf` — a miss of exactly one key, as opposed to any miss
  (`Failure.isMiss`).

Two causes describe absence: `missingKey` (no layer has the key) and `attributeNotFound` (an
attribute read found nothing). Every other cause stops the search that met it.
-/

namespace LayeredScope

/-- Why an operation on layered scopes failed. -/
inductive Failure where
  /-- No layer holds the key. -/
  | missingKey (key : String)
  /-- The value has no attribute of that name. -/
  | attributeNotFound (typeName name : String)
  /-- More layers were asked for than the stack holds. -/
  | underflow (requested depth : Nat)
  /-- A change was attempted through something that only reads. -/
  | unsupportedOperation (operation : String)
  | typeMismatch (expected got : String)
  /-- The accessor in charge refused the read. -/
  | policyDenial (name reason : String)
  /-- Something that was invoked failed while running. -/
  | invocationFailure (callee message : String)
  /-- Templates were nested deeper than their limit. -/
  | recursionLimit (limit : Int64)
  deriving DecidableEq, Repr

namespace Failure

/-- The wording of each cause. -/
def message : Failure → String
  | missingKey key => s!"key not found: {key}"
  | attributeNotFound typeName name => s!"'{typeName}' object has no attribute '{name}'"
  | underflow requested depth =>
    s!"cannot pop {requested} scope(s) from a namespace holding {depth}"
  | unsupportedOperation operation => s!"unsupported operation: {operation}"
  | typeMismatch expected got => s!"type mismatch: expected {expected}, got {got}"
  | policyDenial name reason => s!"access to '{name}' denied: {reason}"
  | invocationFailure callee message => s!"call to '{callee}' failed: {message}"
  | recursionLimit limit => s!"template nesting exceeded {limit} levels"

/-- The name of each cause. -/
def kind : Failure → String
  | missingKey _ => "MissingKey"
  | attributeNotFound _ _ => "AttributeNotFound"
  | underflow _ _ => "Underflow"
  | unsupportedOperation _ => "UnsupportedOperation"
  | typeMismatch _ _ => "TypeMismatch"
  | policyDenial _ _ => "PolicyDenial"
  | invocationFailure _ _ => "InvocationFailure"
  | recursionLimit _ => "RecursionLimit"

/-- A miss of some key (`is_missing_key`). -/
def isMiss : Failure → Bool
  | missingKey _ => true
  | _ => false

/-- A miss of exactly `key` (`is_missing`): a miss of any other key comes from deeper down. -/
def isMissOf (key : String) : Failure → Bool
  | missingKey missing => missing == key
  | _ => false

/-- An attribute that is absent (`is_attribute_not_found`). -/
def isAbsence : Failure → Bool
  | attributeNotFound _ _ => true
  | _ => false

@[simp] theorem isMiss_iff {e : Failure} :
    e.isMiss = true ↔ ∃ key, e = missingKey key := by
  cases e <;> simp [isMiss]

@[simp] theorem isMissOf_iff {key : String} {e : Failure} :
    e.isMissOf key = true ↔ e = missingKey key := by
  cases e <;> simp [isMissOf]

@[simp] theorem isAbsence_iff {e : Failure} :
    e.isAbsence = true ↔ ∃ typeName name, e = attributeNotFound typeName name := by
  cases e <;> simp [isAbsence]

end Failure

end LayeredScope
