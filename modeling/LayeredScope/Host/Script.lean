import LayeredScope.Argument
import LayeredScope.Document.Template

/-!
# The programs of a host

A host takes part through code: capabilities of its objects, functions, accessors, and the code in
blocks. What such code can do is a script: finitely many operations of this library, with anything
computed in between.

* `Op`, `Op.Reply` — the operations, each with what it answers.
* `Script` — a program over them. It can look at everything, but it can change only its own state,
  and the rest through operations.
* `Op.run`, `Script.run` — what they do, on a stack under a guard.
* `Host` — the scripts that the code of a host stands for.
-/

namespace LayeredScope

variable {κ σ α β : Type}

/-- An operation that a script can ask for. -/
inductive Op (κ : Type) where
  -- Mappings, objects and functions
  | newMap (entries : Entries Value)
  | insert (m : MapId) (key : String) (value : Value)
  | erase (m : MapId) (key : String)
  | newHost (h : HostObject κ)
  | newFunction (f : HostFunction κ)
  | newTemplate (b : Blueprint κ)
  /-- A view with plain reads and the usual reserved names. -/
  | newView (target : Value)
  -- Values and layers
  | readAttr (target : Value) (name : String)
  | guardedRead (accessor : Option (Accessor κ)) (target : Value) (name : String)
  | viewGet (id : ObjectId) (key : String)
  | askLayer (layer : Layer) (key : String)
  | call (v : Value)
  | apply (v : Value) (client : Option Value)
  -- The stack
  | push (layer : Layer)
  | pop (count : Nat)
  | popTop
  | setLevel (level : Int64)
  | writeField (name : String) (value : Value)
  | clearField (name : String)
  | fetch (key : String)
  | lookup (key : String) (invoked : Bool)
  | contains (key : String)
  | onAccess (v : Value)
  | readOr (target : Value) (name : String) (default : Option Value)
  | canRead (target : Value) (name : String)
  | viewOf (target : Value)
  | bundle (positional : List Value) (keywords : Option MapId)
  -- Scopes
  | enter (layer : Layer)
  | deepen
  /-- Run code with layers entered (`with_scopes`). -/
  | within (layers : List Layer) (body : κ)
  /-- Run code on a fresh stack that is like this one (`spawn_empty`). -/
  | spawned (body : κ)
  /-- Run code on a fresh stack with these settings (`build`). -/
  | built (settings : Settings κ) (body : κ)
  -- Rendering
  | renderAll (blocks : List (Block κ))
  | renderNested (t : Template κ) (client : Option Value) (keywords : Option MapId)
  | render (t : Template κ) (client : Option Value) (mapping : Option Layer)
      (keywords : Option MapId)

/-- What an operation answers. -/
@[reducible] def Op.Reply : Op κ → Type
  | newMap _ => MapId
  | insert .. | erase .. => Option Value
  | newHost _ | newTemplate _ | newView _ | viewOf _ => ObjectId
  | newFunction _ => FunctionId
  | readAttr .. | guardedRead .. | call _ | apply .. => Value
  | viewGet .. | askLayer .. => Option Value
  | push _ | setLevel _ | writeField .. | clearField _ | enter _ | deepen => Unit
  | pop _ => List Layer
  | popTop => Layer
  | fetch _ | lookup .. | onAccess _ | readOr .. | bundle .. => Value
  | contains _ | canRead .. => Bool
  | within .. | spawned _ | built .. => Value
  | renderAll _ | renderNested .. | render .. => String

/-- A program of a host. -/
inductive Script (κ σ α : Type) where
  | answer (v : α)
  | fail (e : Failure)
  /-- Look at the stack, its guard and the world behind it. -/
  | look (next : Frame κ σ → Script κ σ α)
  /-- Change the host's own state. -/
  | keep (state : σ) (next : Script κ σ α)
  /-- Ask for an operation, and go on with its outcome. -/
  | ask (op : Op κ) (next : Except Failure op.Reply → Script κ σ α)

namespace Script

/-- Continue with the answer of a script, and stop at its failure. -/
def andThen (x : Script κ σ α) (f : α → Script κ σ β) : Script κ σ β :=
  match x with
  | .answer v => f v
  | .fail e => .fail e
  | .look next => .look fun frame => (next frame).andThen f
  | .keep state next => .keep state (next.andThen f)
  | .ask op next => .ask op fun r => (next r).andThen f

/-- The outcome of a script, be it an answer or a failure. -/
def attempt (x : Script κ σ α) : Script κ σ (Except Failure α) :=
  match x with
  | .answer v => .answer (.ok v)
  | .fail e => .answer (.error e)
  | .look next => .look fun frame => (next frame).attempt
  | .keep state next => .keep state next.attempt
  | .ask op next => .ask op fun r => (next r).attempt

instance : Monad (Script κ σ) where
  pure := answer
  bind := andThen

/-- What is known already. -/
def ofExcept : Except Failure α → Script κ σ α
  | .ok v => .answer v
  | .error e => .fail e

/-- One operation. -/
def request (op : Op κ) : Script κ σ op.Reply := .ask op ofExcept

/-- Something to be seen. -/
def see (f : Frame κ σ → α) : Script κ σ α := .look fun frame => .answer (f frame)

end Script

/-- Change the stack of a frame, and answer. -/
def updateStack (f : Stack κ → Except Failure (α × Stack κ)) : Run (Frame κ σ) α :=
  Run.update fun frame => do
    let (v, stack) ← f frame.stack
    return (v, { frame with stack })

/-- Change the world of a frame, and answer. -/
def updateWorld (f : World κ σ → α × World κ σ) : Run (Frame κ σ) α :=
  (Run.modifyGet f).onWorld.onSession

/-- What an operation does. -/
def Op.run (d : Dispatch κ σ) : (op : Op κ) → Run (Frame κ σ) op.Reply
  | newMap entries => updateWorld (·.newMap entries)
  | insert m key value => updateWorld fun w => ((w.entries m).get? key, w.insert m key value)
  | erase m key => updateWorld fun w => ((w.entries m).get? key, w.erase m key)
  | newHost h => updateWorld (·.newObject (.host h))
  | newFunction f => updateWorld (·.newFunction f)
  | newTemplate b => updateWorld (·.newTemplate b)
  | newView target => updateWorld (·.newView target none {})
  | readAttr target name => (d.readAttr target name).onWorld.onSession
  | guardedRead accessor target name => (d.guardedRead accessor target name).onWorld.onSession
  | viewGet id key => (d.viewGet id key).onWorld.onSession
  | askLayer layer key => (d.askLayer layer key).onWorld.onSession
  | call v => (d.call v).onWorld.onSession
  | apply v client => (d.apply v client).onSession
  | push layer => updateStack fun s => .ok ((), s.push layer)
  | pop count => updateStack (·.pop count)
  | popTop => updateStack (·.popTop)
  | setLevel level => updateStack fun s => .ok ((), { s with level })
  | writeField name value => Run.update fun f => do
    let stack ← f.world.writeField f.stack name value
    return ((), { f with stack })
  | clearField name => updateStack fun s => return ((), ← s.clearField name)
  | fetch key => (do
    let s ← Run.get
    (d.fetch s.stack key).onWorld : Run (Session κ σ) Value).onSession
  | lookup key invoked => (d.lookup key invoked).onSession
  | contains key => (do
    let s ← Run.get
    (d.contains s.stack key).onWorld : Run (Session κ σ) Bool).onSession
  | onAccess v => (d.onAccess v).onSession
  | readOr target name default => (do
    let s ← Run.get
    (d.readOr s.stack target name default).onWorld : Run (Session κ σ) Value).onSession
  | canRead target name => (do
    let s ← Run.get
    (d.canRead s.stack target name).onWorld : Run (Session κ σ) Bool).onSession
  | viewOf target => (LayeredScope.viewOf target).onSession
  | bundle positional keywords =>
    (Run.modifyGet fun s => Session.bundle s positional keywords).onSession
  | enter layer => LayeredScope.enter layer
  | deepen => LayeredScope.deepen
  | within layers body => (withLayers layers (d.evaluate body)).onSession
  | spawned body => (do
    let s ← Run.get
    (onOwnStack s.stack.spawn (d.evaluate body)).onWorld : Run (Session κ σ) Value).onSession
  | built settings body => (onOwnStack settings.build (d.evaluate body)).onWorld.onSession
  | renderAll blocks => (d.renderAll blocks).onSession
  | renderNested t client keywords => (d.renderNested t client keywords).onSession
  | render t client mapping keywords =>
    (d.render t client mapping keywords).onWorld.onSession

/-- What a script does. -/
def Script.run (d : Dispatch κ σ) : Script κ σ α → Run (Frame κ σ) α
  | .answer v => pure v
  | .fail e => Run.fail e
  | .look next => fun f => (next f).run d f
  | .keep state next => fun f => next.run d { f with world := { f.world with host := state } }
  | .ask op next => fun f =>
    match op.run d f with
    | none => none
    | some (r, f) => (next r).run d f

/-- One operation is all that its script does. -/
theorem Script.run_request (d : Dispatch κ σ) (op : Op κ) :
    (Script.request op).run d = op.run d := by
  funext f
  simp only [request, Script.run]
  rcases op.run d f with _ | ⟨_ | _, _⟩ <;> rfl

/-- The scripts that the code of a host stands for. -/
structure Host (κ σ : Type) where
  readAttr : κ → String → Script κ σ Value
  readItem : κ → String → Script κ σ (Option Value)
  call : κ → Script κ σ Value
  apply : κ → Option Value → Script κ σ Value
  /-- No answer means that the object does not answer for itself. -/
  hook : κ → Script κ σ (Option Value)
  access : κ → Value → String → Script κ σ Value
  evaluate : κ → Script κ σ Value

end LayeredScope
