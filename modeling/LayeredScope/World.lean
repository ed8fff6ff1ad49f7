import LayeredScope.Object

/-!
# What stands behind identities

* `World` — the shared mappings (each a `ScopeMap`), the objects, the functions and the closed-off
  stacks, each in the order in which they were issued; the host's private state; and a journal.
* `Event`, `World.record` — the journal says what the library asked of layers, views, accessors and
  invoked values, and when the body of a template was open. Nothing reads it.
* `Enclosure` — a closed-off stack is either idle or being read.

An identity that was never issued reads as an empty mapping or a featureless object.
-/

namespace LayeredScope

/-- A function of the host without arguments. -/
structure HostFunction (κ : Type) where
  name : String
  code : κ

/-- A stack that only one bundle reads. -/
inductive Enclosure (κ : Type) where
  | idle (stack : Stack κ)
  /-- A read is under way, and has the stack. -/
  | reading

/-- What the library did, as far as a host can take part in it. -/
inductive Event where
  /-- A search put a key to a layer. -/
  | searched (layer : Layer) (key : String)
  /-- A custom accessor was asked for an attribute. -/
  | consulted (target : Value) (name : String)
  /-- An attribute was read plainly, under an accessor that refuses some names or under none. -/
  | read (target : Value) (name : String) (refused : List String)
  /-- A view was asked for a key. -/
  | asked (view : ObjectId) (key : String)
  /-- A view resolved a key to this value. -/
  | resolved (view : ObjectId) (key : String) (value : Value)
  /-- The view that was asked last, of those that have not answered yet, answers or fails. -/
  | answered (view : ObjectId) (key : String) (outcome : Except Failure (Option Value))
  /-- A value was invoked without arguments. -/
  | called (value : Value)
  /-- A value was invoked as a template. -/
  | applied (value : Value)
  /-- The body of a template began at this level. -/
  | opened (level : Int64)
  /-- The body that began last has ended. -/
  | closed
  deriving Repr

/-- Everything that is shared by identity. -/
structure World (κ σ : Type) where
  maps : Array (Entries Value) := #[]
  objects : Array (Object κ) := #[]
  functions : Array (HostFunction κ) := #[]
  enclosures : Array (Enclosure κ) := #[]
  /-- The host's own state. -/
  host : σ
  /-- The latest event first. -/
  journal : List Event := []

namespace World

variable {κ σ : Type}

/-! ## Reading -/

/-- The entries of a mapping. -/
def entries (w : World κ σ) (m : MapId) : Entries Value := w.maps.getD m.index ∅

def object (w : World κ σ) (id : ObjectId) : Object κ := w.objects.getD id.index default

def function? (w : World κ σ) (id : FunctionId) : Option (HostFunction κ) :=
  w.functions[id.index]?

/-- The name of a function in text. -/
def functionName (w : World κ σ) (id : FunctionId) : String :=
  ((w.function? id).map (·.name)).getD ""

/-- The name of the type of a value in messages. -/
def typeName (w : World κ σ) : Value → String
  | .none => "none"
  | .bool _ => "bool"
  | .int _ => "int"
  | .float _ => "float"
  | .str _ => "str"
  | .list _ => "list"
  | .map _ => "map"
  | .object id => (w.object id).typeName
  | .function _ => "function"

/-- Does a value make a condition hold? -/
def isTruthy (w : World κ σ) : Value → Bool
  | .none => false
  | .bool b => b
  | .int n => n != 0
  | .float x => !x.isZero
  | .str s => s != ""
  | .list items => !items.isEmpty
  | .map m => !(w.entries m).isEmpty
  | .object id => (w.object id).isTruthy
  | .function _ => true

def isCallable (w : World κ σ) : Value → Bool
  | .object id => (w.object id).isCallable
  | .function _ => true
  | _ => false

def isTemplate (w : World κ σ) : Value → Bool
  | .object id => (w.object id).isTemplate
  | _ => false

/-- The value one layer of wrapping further in, if the value is a wrapper. -/
def inner (w : World κ σ) : Value → Option Value
  | .object id => (w.object id).inner
  | _ => none

/-! ## Writing -/

def record (w : World κ σ) (event : Event) : World κ σ :=
  { w with journal := event :: w.journal }

/-- A mapping with an identity of its own. -/
def newMap (w : World κ σ) (entries : Entries Value) : MapId × World κ σ :=
  (⟨w.maps.size⟩, { w with maps := w.maps.push entries })

def setEntries (w : World κ σ) (m : MapId) (entries : Entries Value) : World κ σ :=
  { w with maps := w.maps.setIfInBounds m.index entries }

/-- Bind a key of a mapping. -/
def insert (w : World κ σ) (m : MapId) (key : String) (value : Value) : World κ σ :=
  w.setEntries m ((w.entries m).insert key value)

/-- Unbind a key of a mapping. -/
def erase (w : World κ σ) (m : MapId) (key : String) : World κ σ :=
  w.setEntries m ((w.entries m).erase key)

def newObject (w : World κ σ) (object : Object κ) : ObjectId × World κ σ :=
  (⟨w.objects.size⟩, { w with objects := w.objects.push object })

def setObject (w : World κ σ) (id : ObjectId) (object : Object κ) : World κ σ :=
  { w with objects := w.objects.setIfInBounds id.index object }

def newFunction (w : World κ σ) (f : HostFunction κ) : FunctionId × World κ σ :=
  (⟨w.functions.size⟩, { w with functions := w.functions.push f })

def newEnclosure (w : World κ σ) (stack : Stack κ) : EnclosureId × World κ σ :=
  (⟨w.enclosures.size⟩, { w with enclosures := w.enclosures.push (.idle stack) })

def setEnclosure (w : World κ σ) (id : EnclosureId) (e : Enclosure κ) : World κ σ :=
  { w with enclosures := w.enclosures.setIfInBounds id.index e }

/-! ## What is read after a write -/

theorem entries_setEntries {w : World κ σ} {m : MapId} (h : m.index < w.maps.size)
    (e : Entries Value) (other : MapId) :
    (w.setEntries m e).entries other = if other = m then e else w.entries other := by
  obtain ⟨i⟩ := m
  obtain ⟨j⟩ := other
  by_cases hij : j = i
  · subst hij
    simp [setEntries, entries, h]
  · have : i ≠ j := fun h => hij h.symm
    simp [setEntries, entries, hij, Array.getD_eq_getD_getElem?,
      Array.getElem?_setIfInBounds_ne this]

theorem entries_insert {w : World κ σ} {m : MapId} (h : m.index < w.maps.size) (key : String)
    (value : Value) (other : MapId) :
    (w.insert m key value).entries other =
      if other = m then (w.entries m).insert key value else w.entries other :=
  entries_setEntries h _ other

/-- An identity that was never issued reads as an object of the host. -/
theorem object_of_le {w : World κ σ} {id : ObjectId} (h : w.objects.size ≤ id.index) :
    w.object id = .host { typeName := "object" } := by
  simp [object, Array.getD, Nat.not_lt.mpr h]
  rfl

theorem object_newObject (w : World κ σ) (o : Object κ) (id : ObjectId) :
    (w.newObject o).2.object id = if id.index = w.objects.size then o else w.object id := by
  by_cases hid : id.index = w.objects.size
  · simp [newObject, object, hid]
  · by_cases hlt : id.index < w.objects.size
    · have hlt' : id.index < w.objects.size + 1 := by omega
      simp [newObject, object, Array.getD, hid, hlt, hlt', Array.getElem_push]
    · have hlt' : ¬ id.index < w.objects.size + 1 := by omega
      simp [newObject, object, Array.getD, hid, hlt, hlt']

theorem object_setObject {w : World κ σ} {id : ObjectId} (h : id.index < w.objects.size)
    (o : Object κ) (other : ObjectId) :
    (w.setObject id o).object other = if other = id then o else w.object other := by
  obtain ⟨i⟩ := id
  obtain ⟨j⟩ := other
  by_cases hij : j = i
  · subst hij
    simp [setObject, object, h]
  · have : i ≠ j := fun h => hij h.symm
    simp [setObject, object, hij, Array.getD_eq_getD_getElem?, Array.getElem?_setIfInBounds_ne this]

theorem entries_newMap (w : World κ σ) (entries : Entries Value) :
    (w.newMap entries).2.entries (w.newMap entries).1 = entries := by
  simp [newMap, World.entries]

theorem entries_newMap_of_lt {w : World κ σ} {m : MapId} (h : m.index < w.maps.size)
    (entries : Entries Value) : (w.newMap entries).2.entries m = w.entries m := by
  have hlt : m.index < w.maps.size + 1 := by omega
  simp [newMap, World.entries, Array.getD, h, hlt, Array.getElem_push]

end World

end LayeredScope
