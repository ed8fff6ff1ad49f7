import LayeredScope.Dispatch
import LayeredScope.World.Display

/-!
# Reading attributes

* `Dispatch.guardedRead` — `guarded_getattr`: a read through an accessor, or plainly where there is
  none.
* `viewOf`, `Dispatch.viewGet` — a `view` on a stack, and `get` of a key of it: from the view's
  memory, or by the rule of reserved names, or as an attribute of the target, which is then
  remembered. An absent attribute is a miss; any other failure ends the search. The journal says
  when a read begins and when it ends (`inRead`).
* `Dispatch.readOr`, `Dispatch.canRead` — `getattr` and `hasattr` on a stack: reads with its
  accessor, with a default and as a question.
-/

namespace LayeredScope

variable {κ σ : Type}

/-- Enter an event into the journal. -/
def note (event : Event) : Run (World κ σ) Unit := Run.modify (·.record event)

/-- Note where the read of a view begins and ends. -/
def inRead (id : ObjectId) (key : String) (x : Run (World κ σ) (Option Value)) :
    Run (World κ σ) (Option Value) := fun w =>
  match x (w.record (.asked id key)) with
  | none => none
  | some (r, w) => some (r, w.record (.answered id key r))

namespace World

/-- The view behind an identity. -/
def view? (w : World κ σ) (id : ObjectId) : Option (ObjectView κ) :=
  match w.object id with
  | .view v => some v
  | _ => none

theorem view?_eq_some {w : World κ σ} {id : ObjectId} {v : ObjectView κ} :
    w.view? id = some v ↔ w.object id = .view v := by
  unfold view?
  split <;> simp_all

/-- Let a view remember what a key was read as. -/
def remember (w : World κ σ) (id : ObjectId) (key : String) (value : Value) : World κ σ :=
  match w.object id with
  | .view v => w.setObject id (.view { v with memory := v.memory.insert key value })
  | _ => w

/-- A view over a value. -/
def newView (w : World κ σ) (target : Value) (accessor : Option (Accessor κ))
    (reserved : Reserved) : ObjectId × World κ σ :=
  w.newObject (.view { target, accessor, reserved, memory := ∅ })

end World

namespace ObjectView

/-- Views cannot be written through. -/
def set (_ : ObjectView κ) (key : String) (_ : Value) : Except Failure Unit :=
  .error (.unsupportedOperation s!"item assignment of '{key}' on a SingleScopeView")

end ObjectView

/-- A view over a value with the accessor and the reserved names of the stack (`view`). -/
def viewOf (target : Value) : Run (Session κ σ) ObjectId :=
  Run.modifyGet fun s =>
    let p := s.world.newView target s.stack.accessor s.stack.reserved
    (p.1, { s with world := p.2 })

namespace Dispatch

variable (d : Dispatch κ σ)

/-- Read an attribute plainly, where the accessor in charge refuses only some names
(`plain_getattr`). -/
def plainRead (refused : List String) (target : Value) (name : String) :
    Run (World κ σ) Value := do
  note (.read target name refused)
  d.readAttr target name

/-- Read an attribute through an accessor, where there is one (`guarded_getattr`). -/
def guardedRead (accessor : Option (Accessor κ)) (target : Value) (name : String) :
    Run (World κ σ) Value :=
  match accessor with
  | none => d.plainRead [] target name
  | some (.deny names) =>
    if names.contains name then do
      let typeName ← Run.gets (·.typeName target)
      Run.fail (.policyDenial name s!"'{name}' is not accessible on '{typeName}'")
    else d.plainRead names.keys target name
  | some (.custom code) => do
    note (.consulted target name)
    d.access code target name

/-- What a view finds as an attribute of its target. -/
def viewRead (id : ObjectId) (v : ObjectView κ) (key : String) :
    Run (World κ σ) (Option Value) := do
  match ← (d.guardedRead v.accessor v.target key).attempt with
  | .ok value =>
    note (.resolved id key value)
    Run.modify (·.remember id key value)
    pure (some value)
  | .error e => if e.isAbsence then pure none else Run.fail e

/-- What a view answers: what it remembers, or else by the kind of the key. -/
def viewAnswer (id : ObjectId) (v : ObjectView κ) (key : String) :
    Run (World κ σ) (Option Value) :=
  match v.memory.get? key with
  | some value => pure (some value)
  | none =>
    match v.reserved.kindOf key with
    | .text => Run.gets fun w => some (.str (w.display v.target))
    | .hidden => pure none
    | .visible => d.viewRead id v key

/-- What a view holds under a key: `get` of a `SingleScopeView`. -/
def viewGet (id : ObjectId) (key : String) : Run (World κ σ) (Option Value) := do
  let w ← Run.get
  match w.view? id with
  | none => pure none
  | some v => inRead id key (d.viewAnswer id v key)

/-- Read an attribute with the stack's accessor (`getattr`); only an absent attribute gives way to
the default. -/
def readOr (s : Stack κ) (target : Value) (name : String) (default : Option Value) :
    Run (World κ σ) Value := do
  match ← (d.guardedRead s.accessor target name).attempt with
  | .ok value => pure value
  | .error e =>
    match default with
    | some value => if e.isAbsence then pure value else Run.fail e
    | none => Run.fail e

/-- Would the read succeed (`hasattr`)? A refusal and a miss mean no, any other failure
stays one. -/
def canRead (s : Stack κ) (target : Value) (name : String) : Run (World κ σ) Bool := do
  match ← (d.guardedRead s.accessor target name).attempt with
  | .ok _ => pure true
  | .error e =>
    match e with
    | .attributeNotFound .. | .policyDenial .. | .missingKey _ => pure false
    | e => Run.fail e

end Dispatch

end LayeredScope
