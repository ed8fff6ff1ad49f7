import LayeredScope.Stack.Search

/-!
# What a look-up makes of what it finds

A name can stand for something that is meant to be invoked. When a look-up asks for it, the value
that was found is treated as follows.

1. An object with a hook answers for itself.
2. Otherwise one layer of wrapping is taken off to see what the value is. What cannot be called is
   left as it is; a template is invoked without a client on the stack; anything else that can be
   called is invoked without arguments.

It is always the value that was found that is invoked, wrapping and all, and its failures are
those of the look-up.

* `Treatment`, `World.treatment` — the choice of the second step: `classify`, with an `Invocation`.
* `Dispatch.onAccess` — both steps: `resolve`, or `render` of a value on a stack.
* `Dispatch.lookup` — a search, followed by both steps if they are asked for.
-/

namespace LayeredScope

variable {κ σ : Type}

/-- What becomes of a value that has no hook. -/
inductive Treatment where
  /-- Left as it is. -/
  | inert
  /-- Invoked without a client on the stack. -/
  | template
  /-- Invoked without arguments. -/
  | plain
  deriving DecidableEq, Repr

/-- The treatment of a value, by what it wraps if it wraps something (`classify`). -/
def World.treatment (w : World κ σ) (v : Value) : Treatment :=
  let subject := (w.inner v).getD v
  if w.isCallable subject then
    if w.isTemplate subject then .template else .plain
  else .inert

namespace Dispatch

variable (d : Dispatch κ σ)

/-- Invoke a value, if it is to be invoked. -/
def invoke (v : Value) : Run (Session κ σ) Value := do
  match ← Run.gets (fun s => s.world.treatment v) with
  | .inert => pure v
  | .template => do
    (note (.applied v)).onWorld
    d.apply v none
  | .plain => do
    (note (.called v)).onWorld
    (d.call v).onWorld

/-- What a look-up makes of a value (`resolve`). -/
def onAccess (v : Value) : Run (Session κ σ) Value :=
  match v with
  | .object id => do
    match ← d.hook id with
    | some answer => pure answer
    | none => d.invoke v
  | _ => d.invoke v

/-- What a stack holds under a key, invoked if asked for. -/
def lookup (key : String) (invoked : Bool) : Run (Session κ σ) Value := do
  let s ← Run.get
  let value ← (d.fetch s.stack key).onWorld
  if invoked then d.onAccess value else pure value

end Dispatch

end LayeredScope
