import LayeredScope.Host.Script

/-!
# Values that answer

Ties the library and the code of a host together: a value answers by a capability of its own, the
code behind the capability asks for operations, and these may call values again.

* `Answer` — how a value answers each kind of call, when `d` says how values answer the calls
  that this leads to.
* `Host.dispatch` — the answers of all values, where calls lead to calls no deeper than the fuel.
  Out of fuel a call is left unfinished; there is no other way for a run not to end.
-/

namespace LayeredScope

variable {κ σ α : Type}

/-- Run a script on a stack, under a guard of its own. -/
def runScript (d : Dispatch κ σ) (x : Script κ σ α) : Run (Session κ σ) α := guarded (x.run d)

/-- Run a script on a fresh stack. -/
def runAlone (d : Dispatch κ σ) (x : Script κ σ α) : Run (World κ σ) α :=
  onOwnStack {} (runScript d x)

namespace Answer

variable (h : Host κ σ) (d : Dispatch κ σ)

/-- A named attribute (`get_attr`): only objects of the host and bundles have any. -/
def readAttr (v : Value) (name : String) : Run (World κ σ) Value := do
  let w ← Run.get
  match v with
  | .object id =>
    match w.object id with
    | .host { readAttr := some code, .. } => runAlone d (h.readAttr code name)
    | .bundle b => d.readBundle b name
    | o => Run.fail (.attributeNotFound o.typeName name)
  | v => Run.fail (.attributeNotFound (w.typeName v) name)

/-- What an object holds under a key (`get_item`): only objects of the host and views can be
asked. -/
def readItem (id : ObjectId) (key : String) : Run (World κ σ) (Option Value) := do
  let w ← Run.get
  match w.object id with
  | .host { readItem := some code, .. } => runAlone d (h.readItem code key)
  | .view _ => d.viewGet id key
  | o => Run.fail (.typeMismatch "subscriptable object" o.typeName)

/-- Invoke without arguments (`call`): a template renders itself on its own. -/
def call (v : Value) : Run (World κ σ) Value := do
  let w ← Run.get
  match v with
  | .function id =>
    match w.function? id with
    | some f => runAlone d (h.call f.code)
    | none => Run.fail (.typeMismatch "callable" (w.typeName v))
  | .object id =>
    match w.object id with
    | .host { call := some code, .. } => runAlone d (h.call code)
    | .template t => return .str (← d.render t none none none)
    | o => Run.fail (.typeMismatch "callable" o.typeName)
  | v => Run.fail (.typeMismatch "callable" (w.typeName v))

/-- Invoke as a template on a stack (`call_template`). -/
def apply (v : Value) (client : Option Value) : Run (Session κ σ) Value := do
  let s ← Run.get
  match v with
  | .object id =>
    match s.world.object id with
    | .host { apply := some code, .. } => runScript d (h.apply code client)
    | .template t => return .str (← d.renderNested t client none)
    | o => Run.fail (.typeMismatch "template" o.typeName)
  | v => Run.fail (.typeMismatch "template" (s.world.typeName v))

/-- What an object answers for itself (`render_with_namespace`): only objects of the host can. -/
def hook (id : ObjectId) : Run (Session κ σ) (Option Value) := do
  let s ← Run.get
  match s.world.object id with
  | .host { hook := some code, .. } => runScript d (h.hook code)
  | _ => pure none

/-- What a custom accessor answers. -/
def access (code : κ) (target : Value) (name : String) : Run (World κ σ) Value :=
  runAlone d (h.access code target name)

/-- Run code on a stack. -/
def evaluate (code : κ) : Run (Session κ σ) Value := runScript d (h.evaluate code)

end Answer

/-- The answers of all values, with calls nested no deeper than the fuel. -/
def Host.dispatch (h : Host κ σ) : Nat → Dispatch κ σ
  | 0 =>
    { readAttr := fun _ _ => Run.unfinished
      readItem := fun _ _ => Run.unfinished
      call := fun _ => Run.unfinished
      apply := fun _ _ => Run.unfinished
      hook := fun _ => Run.unfinished
      access := fun _ _ _ => Run.unfinished
      evaluate := fun _ => Run.unfinished }
  | fuel + 1 =>
    { readAttr := fun v name w => Answer.readAttr h (h.dispatch fuel) v name w
      readItem := fun id key w => Answer.readItem h (h.dispatch fuel) id key w
      call := fun v w => Answer.call h (h.dispatch fuel) v w
      apply := fun v client s => Answer.apply h (h.dispatch fuel) v client s
      hook := fun id s => Answer.hook h (h.dispatch fuel) id s
      access := fun code target name w => Answer.access h (h.dispatch fuel) code target name w
      evaluate := fun code s => Answer.evaluate h (h.dispatch fuel) code s }

end LayeredScope
