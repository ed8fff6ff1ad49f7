import LayeredScope.Attribute

/-!
# Searching a stack

* `Dispatch.askLayer` — what one layer holds under a key: a mapping answers from its entries, an
  object for itself, and a sealed value fails.
* `Dispatch.search` — the layers from the newest to the oldest, until one does not miss.
* `Dispatch.fetch`, `Dispatch.contains` — the search as a value or a failure, and as a question.
* `World.size`, `World.keys` — `len` and `keys`: the number of entries of a stack and its keys, from
  the newest layer to the oldest. A layer without a size or without a list of keys is a failure.

Sizes are words of 64 bits, and so is their sum.
-/

namespace LayeredScope

variable {κ σ : Type}

/-- Turn a miss into a failure. -/
def found (key : String) : Option Value → Except Failure Value
  | some value => .ok value
  | none => .error (.missingKey key)

namespace Dispatch

variable (d : Dispatch κ σ)

/-- What a layer holds under a key: `fetch` of a `ScopeSource`. -/
def askLayer (layer : Layer) (key : String) : Run (World κ σ) (Option Value) :=
  match layer with
  | .mapping m => Run.gets fun w => (w.entries m).get? key
  | .object id => d.readItem id key
  | .sealed v => do
    let typeName ← Run.gets (·.typeName v)
    Run.fail (.typeMismatch "subscriptable object" typeName)

/-- The first of the layers that does not miss. -/
def search (key : String) : List Layer → Run (World κ σ) (Option Value)
  | [] => pure none
  | layer :: older => do
    note (.searched layer key)
    match ← d.askLayer layer key with
    | some value => pure (some value)
    | none => search key older

/-- What a stack holds under a key. -/
def fetch (s : Stack κ) (key : String) : Run (World κ σ) Value := do
  let answer ← d.search key s.layers
  Run.ofExcept (found key answer)

/-- Is a key visible? A miss means no, any other failure stays one. -/
def contains (s : Stack κ) (key : String) : Run (World κ σ) Bool := do
  match ← (d.fetch s key).attempt with
  | .ok _ => pure true
  | .error e => if e.isMiss then pure false else Run.fail e

end Dispatch

namespace World

variable (w : World κ σ)

/-- The number of entries that a layer adds. -/
def layerSize : Layer → Except Failure UInt64
  | .mapping m => .ok (UInt64.ofNat (w.entries m).size)
  | .object id =>
    match (w.object id).size with
    | some n => .ok n
    | none => .error (.typeMismatch "sized scope" (w.object id).typeName)
  | .sealed v => .error (.typeMismatch "sized scope" (w.typeName v))

/-- The keys that a layer lists. -/
def layerKeys : Layer → Except Failure (List String)
  | .mapping m => .ok (w.entries m).keys
  | .object id =>
    match (w.object id).keys with
    | some keys => .ok keys
    | none => .error (.typeMismatch "enumerable scope" (w.object id).typeName)
  | .sealed v => .error (.typeMismatch "enumerable scope" (w.typeName v))

/-- Add up the sizes of layers; the first that has none is the failure. -/
def totalSize (total : UInt64) : List Layer → Except Failure UInt64
  | [] => .ok total
  | layer :: rest => do
    let n ← w.layerSize layer
    totalSize (total + n) rest

/-- The number of entries of a stack, counted from the oldest layer. -/
def size (s : Stack κ) : Except Failure UInt64 := w.totalSize 0 s.layers.reverse

/-- Has no layer of the stack an entry? -/
def isEmpty (s : Stack κ) : Except Failure Bool := return (← w.size s) == 0

/-- The keys of layers, one after the other. -/
def allKeys : List Layer → Except Failure (List String)
  | [] => .ok []
  | layer :: rest => do
    let keys ← w.layerKeys layer
    return keys ++ (← allKeys rest)

/-- The keys of a stack from the newest layer to the oldest. A key is listed for each layer that
has it. -/
def keys (s : Stack κ) : Except Failure (List String) := w.allKeys s.layers

end World

end LayeredScope
