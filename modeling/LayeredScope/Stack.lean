import LayeredScope.Entries
import LayeredScope.Failure
import LayeredScope.Reserved
import LayeredScope.Value

/-!
# Stacks of layers

Entering a scope pushes a layer, leaving it pops; the newest layer stands first.

* `Layer` — what can be pushed, a `ScopeSource` to a host. Any value can; one that is neither a
  mapping nor an object is sealed, and a search that reaches it fails.
* `Stack` — a `NamespaceStack`: the layers, the nesting level, the named fields, and the accessor
  and the rule of reserved names that are handed to every view made on the stack.
* `Stack.pop` — the newest layers as one block, oldest first, or a failure and no change at all
  (`pop_of_le`, `pop_of_lt`).
* `Settings` — what a fresh stack is built from, the `NamespaceBuilder`.
-/

namespace LayeredScope

/-- One layer of a stack: a `ScopeSource`. -/
inductive Layer where
  | mapping (id : MapId)
  | object (id : ObjectId)
  /-- A value that nothing can be looked up in. -/
  | sealed (value : Value)
  deriving Repr, Inhabited

/-- The layer that a value becomes when it is pushed. -/
def Value.toLayer : Value → Layer
  | .map m => .mapping m
  | .object id => .object id
  | v => .sealed v

/-- The value that a layer was made from. -/
def Layer.toValue : Layer → Value
  | .mapping m => .map m
  | .object id => .object id
  | .sealed v => v

/-- What mediates attribute reads. -/
inductive Accessor (κ : Type) where
  /-- Refuses some names and reads every other plainly: `DenyNames`. -/
  | deny (names : Entries Unit)
  /-- Answers by code of the host: any other `GuardedAccessor`. -/
  | custom (code : κ)

/-- An ordered stack of layers: a `NamespaceStack`. -/
structure Stack (κ : Type) where
  /-- The newest first. -/
  layers : List Layer := []
  level : Int64 := 0
  /-- The named fields other than the level. -/
  fields : Entries Value := ∅
  accessor : Option (Accessor κ) := none
  reserved : Reserved := {}

namespace Stack

variable {κ : Type}

instance : Inhabited (Stack κ) := ⟨{}⟩

/-- The number of layers. -/
def depth (s : Stack κ) : Nat := s.layers.length

def push (s : Stack κ) (layer : Layer) : Stack κ := { s with layers := layer :: s.layers }

/-- Push a block of layers, the oldest first. -/
def pushAll (s : Stack κ) (block : List Layer) : Stack κ := block.foldl push s

/-- Remove the newest `count` layers; they are returned oldest first. -/
def pop (s : Stack κ) (count : Nat) : Except Failure (List Layer × Stack κ) :=
  if count ≤ s.depth then
    .ok ((s.layers.take count).reverse, { s with layers := s.layers.drop count })
  else .error (.underflow count s.depth)

/-- Remove the newest layer (`pop_one`). -/
def popTop (s : Stack κ) : Except Failure (Layer × Stack κ) :=
  match s.layers with
  | [] => .error (.underflow 1 0)
  | layer :: rest => .ok (layer, { s with layers := rest })

/-- An empty stack with the same accessor and the same reserved names (`spawn_empty`). -/
def spawn (s : Stack κ) : Stack κ := { accessor := s.accessor, reserved := s.reserved }

/-- The level one deeper; the greatest level has nothing deeper. -/
def deeper (level : Int64) : Int64 := if level = Int64.maxValue then level else level + 1

/-! ## Popping -/

@[simp] theorem depth_push (s : Stack κ) (layer : Layer) : (s.push layer).depth = s.depth + 1 :=
  rfl

theorem pop_of_le {s : Stack κ} {count : Nat} (h : count ≤ s.depth) :
    s.pop count =
      .ok ((s.layers.take count).reverse, { s with layers := s.layers.drop count }) := by
  simp [pop, h]

/-- More layers than there are cannot be popped. -/
theorem pop_of_lt {s : Stack κ} {count : Nat} (h : s.depth < count) :
    s.pop count = .error (.underflow count s.depth) := by
  simp [pop, Nat.not_le.mpr h]

@[simp] theorem layers_pushAll (s : Stack κ) (block : List Layer) :
    (s.pushAll block).layers = block.reverse ++ s.layers := by
  unfold pushAll
  induction block generalizing s with
  | nil => rfl
  | cons layer rest ih => simp [ih, push]

theorem pushAll_eq (s : Stack κ) (block : List Layer) :
    s.pushAll block = { s with layers := block.reverse ++ s.layers } := by
  unfold pushAll
  induction block generalizing s with
  | nil => rfl
  | cons layer rest ih => simp [ih, push]

end Stack

/-- What a fresh stack is built from: a `NamespaceBuilder`. -/
structure Settings (κ : Type) where
  accessor : Option (Accessor κ) := none
  reserved : Reserved := {}
  level : Int64 := 0

namespace Settings

variable {κ : Type}

instance : Inhabited (Settings κ) := ⟨{}⟩

def withAccessor (b : Settings κ) (accessor : Accessor κ) : Settings κ :=
  { b with accessor := some accessor }

def withReserved (b : Settings κ) (reserved : Reserved) : Settings κ :=
  { b with reserved := reserved }

def withHiddenPrefix (b : Settings κ) (mark : Option String) : Settings κ :=
  { b with reserved := b.reserved.withHiddenPrefix mark }

def withTextKey (b : Settings κ) (key : String) : Settings κ :=
  { b with reserved := b.reserved.withTextKey key }

def withLevel (b : Settings κ) (level : Int64) : Settings κ := { b with level := level }

/-- A fresh stack. -/
def build (b : Settings κ) : Stack κ :=
  { level := b.level, accessor := b.accessor, reserved := b.reserved }

end Settings

end LayeredScope
