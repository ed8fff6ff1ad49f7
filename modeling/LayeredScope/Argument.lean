import LayeredScope.OnAccess

/-!
# Arguments read by attribute

Calling a stack bundles arguments for code that expects one object to read attributes of.

* `Session.bundle` — what a host gets from `call` on a stack, and from `namespace` with keywords
  only. No arguments make no value; keywords alone are read where they are; otherwise a closed-off
  stack gets each positional argument as a layer, and the keywords above them.
* `Dispatch.readBundle` — `get_attr` of an `AttributeView`: an entry of the keywords, not invoked,
  or a full look-up on the stack of the bundle's own. While that look-up lasts, no other can read
  the same stack.
-/

namespace LayeredScope

variable {κ σ : Type}

namespace World

/-- A one-element list of a bundle. -/
def newBundle (w : World κ σ) (b : Bundle) : Value × World κ σ :=
  let p := w.newObject (.bundle b)
  (.list [.object p.1], p.2)

end World

/-- Bundle arguments: `call` on a stack. Keywords without entries count as none. -/
def Session.bundle (s : Session κ σ) (positional : List Value) (keywords : Option MapId) :
    Value × Session κ σ :=
  let keywords := keywords.filter fun m => !(s.world.entries m).isEmpty
  match positional, keywords with
  | [], none => (.none, s)
  | [], some m =>
    let p := s.world.newBundle (.mapping m)
    (p.1, { s with world := p.2 })
  | positional, keywords =>
    let layers := positional.map Value.toLayer ++ (keywords.map Layer.mapping).toList
    let e := s.world.newEnclosure (s.stack.spawn.pushAll layers)
    let p := e.2.newBundle (.enclosure e.1)
    (p.1, { s with world := p.2 })

/-- The failure of an attribute that a bundle does not have. -/
def Bundle.absent (name : String) : Failure := .attributeNotFound "AttributeView" name

namespace Dispatch

variable (d : Dispatch κ σ)

/-- Look a name up on a stack that is closed off, and give the stack back. Only a miss of that very
name is an absent attribute. -/
def readEnclosure (id : EnclosureId) (stack : Stack κ) (name : String) : Run (World κ σ) Value :=
  fun w =>
    match d.lookup name true ⟨w.setEnclosure id .reading, stack⟩ with
    | none => none
    | some (r, s) =>
      let w' := s.world.setEnclosure id (.idle s.stack)
      match r with
      | .ok value => some (.ok value, w')
      | .error e => some (.error (if e.isMissOf name then Bundle.absent name else e), w')

/-- An attribute of a bundle: `get_attr` of an `AttributeView`. -/
def readBundle (b : Bundle) (name : String) : Run (World κ σ) Value := do
  let w ← Run.get
  match b with
  | .mapping m =>
    match (w.entries m).get? name with
    | some value => pure value
    | none => Run.fail (Bundle.absent name)
  | .enclosure id =>
    match w.enclosures[id.index]? with
    | some (.idle stack) => d.readEnclosure id stack name
    | _ => Run.fail (.unsupportedOperation "re-entrant read through an AttributeView")

end Dispatch

end LayeredScope
