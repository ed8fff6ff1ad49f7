import LayeredScope.Binary64

/-!
# Values

What a name can stand for. Numbers, text and lists are their contents; mappings, objects and
functions are known by an identity, and what stands behind an identity is kept in a `World`.

* `MapId`, `ObjectId`, `FunctionId`, `EnclosureId` — the identities, one type for each kind.
* `Value` — the values themselves.
* `Value.same` — equality (`==`) as the program sees it: by contents where there are contents, by
  identity elsewhere, numerically for floating-point numbers.
-/

namespace LayeredScope

/-- The identity of a shared mapping. -/
structure MapId where
  index : Nat
  deriving DecidableEq, Repr, Inhabited

/-- The identity of an object. -/
structure ObjectId where
  index : Nat
  deriving DecidableEq, Repr, Inhabited

/-- The identity of a function without arguments. -/
structure FunctionId where
  index : Nat
  deriving DecidableEq, Repr, Inhabited

/-- The identity of a stack that is closed off from every other. -/
structure EnclosureId where
  index : Nat
  deriving DecidableEq, Repr, Inhabited

/-- What a name can stand for. -/
inductive Value where
  /-- The absence of a value. -/
  | none
  | bool (b : Bool)
  | int (n : Int64)
  | float (x : Binary64)
  | str (s : String)
  | list (items : List Value)
  | map (id : MapId)
  | object (id : ObjectId)
  | function (id : FunctionId)
  deriving Repr, Inhabited

namespace Value

mutual

/-- Equality of two values. -/
def same : Value → Value → Bool
  | .none, .none => true
  | .bool a, .bool b => a == b
  | .int a, .int b => a == b
  | .float a, .float b => a.same b
  | .str a, .str b => a == b
  | .list a, .list b => sameList a b
  | .map a, .map b => a == b
  | .object a, .object b => a == b
  | .function a, .function b => a == b
  | _, _ => false

/-- Equality position by position. -/
def sameList : List Value → List Value → Bool
  | [], [] => true
  | a :: as, b :: bs => same a b && sameList as bs
  | _, _ => false

end

/-- The whole number that a value stands for: truth counts as zero or one. -/
def toInt? : Value → Option Int64
  | .int n => some n
  | .bool b => some (if b then 1 else 0)
  | _ => Option.none

def toStr? : Value → Option String
  | .str s => some s
  | _ => Option.none

def toMap? : Value → Option MapId
  | .map m => some m
  | _ => Option.none

def toObject? : Value → Option ObjectId
  | .object id => some id
  | _ => Option.none

def isNone : Value → Bool
  | .none => true
  | _ => false

end Value

end LayeredScope
