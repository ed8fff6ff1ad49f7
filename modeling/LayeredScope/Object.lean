import LayeredScope.Document.Block
import LayeredScope.Stack

/-!
# Objects

Everything that is neither a plain value nor a mapping nor a function.

* `HostObject` — an object of the host, with the methods of an `Object`: every capability is
  optional, and a missing one has a fixed answer.
* `ObjectView` — a `SingleScopeView`: one value presented as a read-only layer, with the keys it has
  already resolved.
* `Bundle` — an `AttributeView`: arguments read by attribute, from a mapping or from a stack
  of their own.
* `Template` — a `DocumentTemplate`: blocks with the layers they are rendered under.
* `Object` — any of these.

`κ` is the type of the code that a host runs for a capability.
-/

namespace LayeredScope

/-- An object of the host. -/
structure HostObject (κ : Type) where
  typeName : String
  /-- Reads a named attribute (`get_attr`); without it every attribute is absent. -/
  readAttr : Option κ := none
  /-- Answers for a key when the object is a layer (`get_item`); without it the search fails. -/
  readItem : Option κ := none
  /-- Invoked without arguments. -/
  call : Option κ := none
  /-- Invoked with a client, on a stack (`call_template`). -/
  apply : Option κ := none
  /-- Takes over what a look-up of the object answers (`render_with_namespace`). -/
  hook : Option κ := none
  size : Option UInt64 := none
  keys : Option (List String) := none
  callable : Bool := false
  template : Bool := false
  /-- The value that this object wraps (`innermost`). -/
  inner : Option Value := none
  text : Option String := none
  truthy : Option Bool := none
  /-- The text in diagnostics. -/
  diagnostic : String := ""

/-- One value presented as a layer: a `SingleScopeView`. -/
structure ObjectView (κ : Type) where
  target : Value
  accessor : Option (Accessor κ)
  reserved : Reserved
  /-- What the keys that were read so far stand for. -/
  memory : Entries Value

/-- Arguments read by attribute: an `AttributeView`. -/
inductive Bundle where
  | mapping (id : MapId)
  | enclosure (id : EnclosureId)
  deriving DecidableEq, Repr

/-- Blocks with the layers they are rendered under: a `DocumentTemplate`. -/
structure Template (κ : Type) where
  name : String
  blocks : List (Block κ)
  /-- The mapping below every other layer of the template. -/
  globals : MapId
  /-- The mapping above the views of the client. -/
  vars : MapId
  /-- Rendering is refused at a deeper level. -/
  nestingLimit : Int64 := 200
  /-- The stack of a top-level render. -/
  settings : Settings κ := {}

/-- What stands behind the identity of an object. -/
inductive Object (κ : Type) where
  | host (h : HostObject κ)
  | view (v : ObjectView κ)
  | bundle (b : Bundle)
  | template (t : Template κ)

namespace Object

variable {κ : Type}

instance : Inhabited (Object κ) := ⟨.host { typeName := "object" }⟩

/-- The name of the type in messages. -/
def typeName : Object κ → String
  | host h => h.typeName
  | view _ => "SingleScopeView"
  | bundle _ => "AttributeView"
  | template _ => "DocumentTemplate"

/-- The number of entries, where there is one: a view counts as one. -/
def size : Object κ → Option UInt64
  | host h => h.size
  | view _ => some 1
  | _ => none

/-- The keys, where they can be listed. -/
def keys : Object κ → Option (List String)
  | host h => h.keys
  | _ => none

def isCallable : Object κ → Bool
  | host h => h.callable
  | template _ => true
  | _ => false

def isTemplate : Object κ → Bool
  | host h => h.template
  | template _ => true
  | _ => false

/-- The wrapped value, where there is one. -/
def inner : Object κ → Option Value
  | host h => h.inner
  | _ => none

/-- A host decides, or else an object with a size is true when it is not empty, and any other
object is true. -/
def isTruthy : Object κ → Bool
  | host h => h.truthy.getD (h.size.all (0 < ·))
  | _ => true

end Object

end LayeredScope
